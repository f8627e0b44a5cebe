import Ivykis.Wait.Kill

/-!
# Child processes behind a pipe (`iv_popen.c`)

A request that has been submitted has a record, a `struct iv_popen_running_child`, with an interest
in the child and a timer. The record may outlive the request: once the request is closed, the timer
sends signals to the child until it dies. The record is freed by the handler of the interest when
the child has died, or by the handler of the timer when no signal can be sent.

The threads, their interests and the processes are those of `iv_wait`. Next to the records there are
interests of the user. Time is not modelled: a timer that is registered can expire.
-/

namespace Ivykis

/-- The address of a `struct iv_popen_request`. -/
abbrev RequestPtr := ℕ

/-- `MAX_SIGTERM_COUNT`. -/
def maxSigtermCount : ℤ := 5

/-- `SIGTERM`. -/
def sigterm : ℤ := 15

/-- `SIGKILL`. -/
def sigkill : ℤ := 9

/-- `struct iv_popen_running_child`. Its address is that of `wait`, its first member. -/
structure RunningChild where
  parent   : Option RequestPtr
  /-- `signal_timer.index` is not `-1`. -/
  onHeap   : Bool
  numKills : ℤ
  /-- The thread that has submitted the request. -/
  thread   : ThreadId
  /-- The number of the request among all that have been submitted. -/
  serial   : ℕ
  deriving DecidableEq, Repr

/-- Where a thread is in the handlers of a record. -/
inductive PopenPc where
  | outside
  /-- `iv_popen_running_child_wait` has been called. -/
  | wait (ch : InterestPtr) (status : ℤ)
  /-- It is in `iv_wait_interest_unregister`, and has left the lock. -/
  | waitUnregister (ch : InterestPtr)
  /-- It returns. -/
  | waitReturn
  /-- `iv_popen_running_child_timer` has been called. -/
  | timer (ch : InterestPtr)
  /-- `iv_wait_interest_kill` has returned an error. -/
  | killFailed (ch : InterestPtr)
  /-- It is in `iv_wait_interest_unregister`, and has left the lock. -/
  | timerUnregister (ch : InterestPtr)
  deriving DecidableEq, Repr

/-- The requests, the records, the threads, and what has happened. -/
structure PopenSystem where
  sys     : KillSystem
  /-- `this->child`. -/
  child   : RequestPtr → Option InterestPtr
  /-- The records that are allocated. -/
  heap    : InterestPtr → Option RunningChild
  /-- The thread among whose timers `signal_timer` is. -/
  armed   : InterestPtr → Option ThreadId
  pc      : ThreadId → PopenPc
  /-- The interest belongs to the user. -/
  isUser  : InterestPtr → Bool
  /-- The submission that a request is open for, and its thread. -/
  opened  : RequestPtr → Option (ℕ × ThreadId)
  /-- The number of requests that have been submitted. -/
  submits : ℕ
  /-- The submissions whose request has been closed. -/
  closed  : List ℕ
  /-- The statuses that the handler of the record of a submission has been called for. -/
  handled : List (ℕ × ℤ)
  /-- Signals that have been sent for a submission, and what `iv_wait_interest_kill` returned. -/
  kills   : List (ℕ × ℤ × ℤ)
  /-- The submissions whose record has been freed, in order. -/
  freed   : List ℕ

namespace PopenSystem

@[simps]
def setSys (s : PopenSystem) (sys : KillSystem) : PopenSystem :=
  { s with sys := sys }

@[simps!]
def setSt (s : PopenSystem) (st : WaitState) : PopenSystem :=
  s.setSys { s.sys with st := st }

@[simps]
def setPc (s : PopenSystem) (th : ThreadId) (pc : PopenPc) : PopenSystem :=
  { s with pc := Function.update s.pc th pc }

@[simps]
def setChild (s : PopenSystem) (this : RequestPtr) (ch : Option InterestPtr) : PopenSystem :=
  { s with child := Function.update s.child this ch }

@[simps]
def setRecord (s : PopenSystem) (ch : InterestPtr) (c : RunningChild) : PopenSystem :=
  { s with heap := Function.update s.heap ch (some c) }

@[simps]
def setArmed (s : PopenSystem) (ch : InterestPtr) (th : Option ThreadId) : PopenSystem :=
  { s with armed := Function.update s.armed ch th }

@[simps]
def logKill (s : PopenSystem) (n : ℕ) (signum ret : ℤ) : PopenSystem :=
  { s with kills := s.kills ++ [(n, signum, ret)] }

@[simps]
def removeRecord (s : PopenSystem) (ch : InterestPtr) (n : ℕ) : PopenSystem :=
  { s with heap := Function.update s.heap ch none, freed := s.freed ++ [n] }

/-- The record at `ch`. -/
def deref (s : PopenSystem) (ch : InterestPtr) : Except Fault RunningChild :=
  match s.heap ch with
  | some c => .ok c
  | none   => .error .invalidAccess

/-- `free(ch)`. -/
def free (s : PopenSystem) (ch : InterestPtr) : Except Fault PopenSystem :=
  match s.heap ch with
  | some c => .ok (s.removeRecord ch c.serial)
  | none   => .error .invalidFree

end PopenSystem

/-- `iv_timer_register(&ch->signal_timer)`, where the record is `c`. -/
def registerSignalTimer (s : PopenSystem) (th : ThreadId) (ch : InterestPtr) (c : RunningChild) :
    Except Fault PopenSystem :=
  if c.onHeap then .error (.fatal "iv_timer_register: called with timer still on the heap")
  else .ok ((s.setRecord ch { c with onHeap := true }).setArmed ch (some th))

/-- `iv_timer_unregister(&ch->signal_timer)`, where the record is `c`. -/
def unregisterSignalTimer (s : PopenSystem) (th : ThreadId) (ch : InterestPtr) (c : RunningChild) :
    Except Fault PopenSystem :=
  if !c.onHeap then .error (.fatal "iv_timer_unregister: called with timer not on the heap")
  else if s.armed ch ≠ some th then .error .invalidAccess
  else .ok ((s.setRecord ch { c with onHeap := false }).setArmed ch none)

/-- `iv_wait_interest_unregister(&ch->wait)`, up to where it leaves the lock. -/
def unregisterWait (s : PopenSystem) (th : ThreadId) (ch : InterestPtr) (pc : PopenPc) :
    Except Fault PopenSystem := do
  let _ ← s.deref ch
  let st ← unregisterLocked s.sys.st ch
  .ok ((s.setSt (st.setUnregistering th ch)).setPc th pc)

/-- The rest of `iv_wait_interest_unregister(&ch->wait)`. -/
def unregisteredWait (s : PopenSystem) (th : ThreadId) (ch : InterestPtr) :
    Except Fault PopenSystem := do
  let _ ← s.deref ch
  let st ← waitInterestUnregister s.sys.st th ch
  .ok (s.setSt st)

/-- The status is one that `iv_popen_running_child_wait` frees the record for. -/
def StatusMacros.gone (M : StatusMacros) (status : ℤ) : Bool :=
  M.wifexited status || M.wifsignaled status

/-- `iv_popen_running_child_wait`, up to where `iv_wait_interest_unregister` leaves the lock. -/
def runningChildWait (M : StatusMacros) (s : PopenSystem) (th : ThreadId) (ch : InterestPtr)
    (status : ℤ) : Except Fault PopenSystem :=
  if !M.gone status then .ok (s.setPc th .waitReturn)
  else unregisterWait s th ch (.waitUnregister ch)

/-- The rest of `iv_popen_running_child_wait`. -/
def runningChildWaitRest (s : PopenSystem) (th : ThreadId) (ch : InterestPtr) :
    Except Fault PopenSystem := do
  let s ← unregisteredWait s th ch
  let c ← s.deref ch
  let s ← match c.parent with
    | some this => .ok (s.setChild this none)
    | none      => unregisterSignalTimer s th ch c
  let s ← s.free ch
  .ok (s.setPc th .waitReturn)

/-- The timer of the record expires: it is taken from the timers of the thread, and
`iv_popen_running_child_timer` is called. -/
def expireSignalTimer (s : PopenSystem) (th : ThreadId) (ch : InterestPtr) :
    Except Fault PopenSystem := do
  let c ← s.deref ch
  .ok (((s.setRecord ch { c with onHeap := false }).setArmed ch none).setPc th (.timer ch))

/-- `iv_popen_running_child_timer`, up to where `iv_wait_interest_kill` has returned an error, or to
its end. -/
def runningChildTimer (s : PopenSystem) (th : ThreadId) (ch : InterestPtr) (kill : ℤ → ℤ → ℤ) :
    Except Fault PopenSystem := do
  let c ← s.deref ch
  let signum := if c.numKills < maxSigtermCount then sigterm else sigkill
  let c := { c with numKills := c.numKills + 1 }
  let ret := (ivWaitInterestKill s.sys.st ch signum kill).1
  let s := (s.setRecord ch c).logKill c.serial signum ret
  if ret < 0 then .ok (s.setPc th (.killFailed ch))
  else do
    let s ← registerSignalTimer s th ch c
    .ok (s.setPc th .outside)

/-- The rest of `iv_popen_running_child_timer`, after an error. -/
def runningChildTimerRest (s : PopenSystem) (th : ThreadId) (ch : InterestPtr) :
    Except Fault PopenSystem := do
  let s ← unregisteredWait s th ch
  let s ← s.free ch
  .ok (s.setPc th .outside)

/-- What the system answers to `iv_popen_request_submit`. -/
structure SubmitAnswers where
  malloc   : Option InterestPtr
  /-- What is in that memory. -/
  onHeap   : Bool
  numKills : ℤ
  pipe     : Option (ℤ × ℤ)
  fork     : Option ℤ

/-- The request has been given to a new child. -/
@[simps]
def PopenSystem.submitted (s : PopenSystem) (th : ThreadId) (this : RequestPtr) (ch : InterestPtr)
    (ans : SubmitAnswers) : PopenSystem :=
  { s with
    child   := Function.update s.child this (some ch)
    heap    := Function.update s.heap ch
      (some ⟨some this, ans.onHeap, ans.numKills, th, s.submits⟩)
    isUser  := Function.update s.isUser ch false
    opened  := Function.update s.opened this (some (s.submits, th))
    submits := s.submits + 1 }

/-- `iv_popen_request_submit`, where `iv_wait_interest_register_spawn` leads to a state in which the
processes are those that the system has made. -/
def ivPopenRequestSubmit (M : StatusMacros) (s : PopenSystem) (th : ThreadId) (this : RequestPtr)
    (type : String) (ans : SubmitAnswers) : Option (ℤ × PopenSystem) :=
  match ans.malloc with
  | none    => some (-1, s)
  | some ch =>
    if type ≠ "r" ∧ type ≠ "w" then some (-1, s)
    else
      match ans.pipe with
      | none          => some (-1, s)
      | some (r, w) =>
        (killSystemStep M s.sys (.spawn th ch ans.fork)).map fun sys =>
          match ans.fork with
          | none   => (-1, s.setSys sys)
          | some _ => (if type = "r" then r else w, (s.setSys sys).submitted th this ch ans)

/-- `iv_popen_request_close`. -/
def ivPopenRequestClose (s : PopenSystem) (th : ThreadId) (this : RequestPtr) :
    Except Fault PopenSystem :=
  match s.child this with
  | none    => .ok s
  | some ch => do
    let c ← s.deref ch
    let c := { c with parent := none, onHeap := false }
    let s ← registerSignalTimer s th ch c
    .ok (s.setRecord ch { c with onHeap := true, numKills := 0 })

/-! ### Runs -/

/-- What the threads do. -/
inductive PopenLabel where
  | submit (th : ThreadId) (this : RequestPtr) (type : String) (ans : SubmitAnswers)
  | close (th : ThreadId) (this : RequestPtr)
  /-- The timer of a record expires. -/
  | expire (th : ThreadId) (ch : InterestPtr)
  /-- The handler of a record goes on. -/
  | run (th : ThreadId) (kill : ℤ → ℤ → ℤ)
  /-- Something happens in `iv_wait`, or the user uses it. -/
  | wait (a : WaitLabel)

/-- The step is not one that `iv_popen` takes itself. The user has their own interests, and does not
touch those in records. -/
def PopenSystem.mayWait (s : PopenSystem) : WaitLabel → Bool
  | .spawn th i _    => s.pc th = .outside ∧ s.heap i = none
  | .unregister th i => s.pc th = .outside ∧ s.isUser i
  | .ret th          => s.pc th = .outside ∨ s.pc th = .waitReturn
  | a                => s.pc a.thread = .outside

/-- The handler of `i` is called. -/
def PopenSystem.called (s : PopenSystem) (th : ThreadId) (i : InterestPtr) (status : ℤ) :
    Except Fault PopenSystem :=
  if s.isUser i then .ok s
  else do
    let c ← s.deref i
    .ok { s.setPc th (.wait i status) with handled := s.handled ++ [(c.serial, status)] }

/-- What a step of `iv_wait` means here. -/
def PopenSystem.waited (s : PopenSystem) : WaitLabel → Except Fault PopenSystem
  | .call th i status _ => s.called th i status
  | .spawn _ i _        => .ok { s with isUser := Function.update s.isUser i true }
  | .ret th             => .ok (s.setPc th .outside)
  | _                   => .ok s

/-- The code that runs in a step, if the step can be taken. A request is submitted while it is not
open, and closed at most once, by the thread that has submitted it. Memory that is in use is not
allocated. -/
def popenCode (M : StatusMacros) (s : PopenSystem) :
    PopenLabel → Option (Except Fault PopenSystem)
  | .submit th this type ans =>
    if s.pc th = .outside ∧ s.opened this = none ∧
        (ans.malloc.all fun ch => (s.heap ch).isNone) then
      (ivPopenRequestSubmit M s th this type ans).map fun x => .ok x.2
    else none
  | .close th this =>
    match s.opened this with
    | none          => none
    | some (n, th') =>
      if th' = th ∧ (s.sys.st.thread th).inUserCode ∧ s.pc th = .outside then
        some ((ivPopenRequestClose s th this).map fun s =>
          { s with opened := Function.update s.opened this none, closed := n :: s.closed })
      else none
  | .expire th ch =>
    if (s.sys.st.thread th).inLoop ∧ s.pc th = .outside ∧ s.armed ch = some th then
      some (expireSignalTimer s th ch)
    else none
  | .run th kill =>
    match s.pc th with
    | .wait ch status     => some (runningChildWait M s th ch status)
    | .waitUnregister ch  => some (runningChildWaitRest s th ch)
    | .timer ch           => some (runningChildTimer s th ch kill)
    | .killFailed ch      => some (unregisterWait s th ch (.timerUnregister ch))
    | .timerUnregister ch => some (runningChildTimerRest s th ch)
    | _                   => none
  | .wait a =>
    if s.mayWait a then (killSystemStep M s.sys a).map fun sys => (s.setSys sys).waited a
    else none

/-- All threads, before anything is submitted. -/
def popenLts (M : StatusMacros) (nodes : AvlState) (pid : InterestPtr → ℤ)
    (child : RequestPtr → Option InterestPtr) : Kit.Lts PopenSystem PopenLabel where
  init :=
    { sys     := (killLts M nodes pid).init
      child   := child
      heap    := fun _ => none
      armed   := fun _ => none
      pc      := fun _ => .outside
      isUser  := fun _ => false
      opened  := fun _ => none
      submits := 0
      closed  := []
      handled := []
      kills   := []
      freed   := [] }
  step s a := (popenCode M s a).bind Except.toOption

end Ivykis
