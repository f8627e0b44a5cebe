import Ivykis.Avl.Basic

/-!
# Child processes (`iv_wait.c`)

The interests in child processes of all threads are in one tree, ordered by pid. Whichever thread
gets the signal collects the status of every child that has changed, under `iv_wait_lock`, and
queues each one to the interest that has its pid. The thread that has registered the interest is
woken, and runs `iv_wait_completion`. This takes the whole queue under the lock and calls the
handler for one entry after the other. The handler may unregister the interest.
-/

namespace Ivykis

/-- The address of a `struct iv_wait_interest`, which is that of its `avl_node`. -/
abbrev InterestPtr := AvlPtr

/-- What `wait4` returns for a child; the resource usage is passed on as it is. -/
structure WaitResult where
  pid    : ℤ
  status : ℤ
  rusage : ℕ
  deriving DecidableEq, Repr

/-- `struct wait_event`. The address is a number that `malloc` does not give out twice. -/
structure WaitEvent where
  addr   : ℕ
  status : ℤ
  rusage : ℕ
  deriving DecidableEq, Repr

/-- The macros of the system for a status. -/
structure StatusMacros where
  wifexited    : ℤ → Bool
  wifsignaled  : ℤ → Bool
  wifcontinued : ℤ → Bool

/-- `iv_wait_status_dead`. -/
def ivWaitStatusDead (M : StatusMacros) (status : ℤ) : Bool :=
  if M.wifsignaled status && !M.wifcontinued status then true
  else if M.wifexited status then true
  else false

/-- Where a thread is with respect to `iv_wait_completion`, whose local variables are `this` and
`events`. -/
inductive WaitPc where
  | outside
  | loop (this : InterestPtr) (events : List WaitEvent)
  /-- In the handler, called for `we`. -/
  | handler (this : InterestPtr) (we : WaitEvent) (events : List WaitEvent)
  deriving DecidableEq, Repr

/-- `struct iv_wait_thr_info`, and what the thread is doing. Its `sigchld_interest` is registered
while `wait_count` is not `0`. -/
structure WaitThread where
  waitCount           : ℕ
  handledWaitInterest : Option InterestPtr
  pc                  : WaitPc
  /-- The thread is in `iv_wait_interest_unregister`, and has left the lock. -/
  unregistering       : Option InterestPtr

/-- User code is running, and not in the middle of a call. -/
def WaitThread.inUserCode (t : WaitThread) : Bool :=
  t.unregistering.isNone && match t.pc with
    | .loop _ _ => false
    | _         => true

/-- The event loop of the thread can call a handler. -/
def WaitThread.inLoop (t : WaitThread) : Bool :=
  t.unregistering.isNone && decide (t.pc = .outside)

/-- The tree, the interests, the threads, and the heap. -/
structure WaitState where
  /-- `iv_wait_interests`. -/
  interests     : AvlState
  pid           : InterestPtr → ℤ
  /-- `flags & IV_WAIT_STATUS_DEAD`. -/
  dead          : InterestPtr → Bool
  eventsPending : InterestPtr → List WaitEvent
  /-- The thread in which the interest and its `ev` are registered. -/
  owner         : InterestPtr → Option ThreadId
  /-- `ev` has been posted and its handler has not been called since. -/
  posted        : InterestPtr → Bool
  thread        : ThreadId → WaitThread
  /-- The number of calls of `malloc`. -/
  mallocs       : ℕ
  /-- What has been freed, in order. -/
  freed         : List ℕ

namespace WaitState

@[simps]
def setInterests (st : WaitState) (interests : AvlState) : WaitState :=
  { st with interests := interests }

@[simps]
def setPid (st : WaitState) (this : InterestPtr) (pid : ℤ) : WaitState :=
  { st with pid := Function.update st.pid this pid }

@[simps]
def setThread (st : WaitState) (th : ThreadId) (t : WaitThread) : WaitState :=
  { st with thread := Function.update st.thread th t }

@[simps]
def malloc (st : WaitState) : WaitState :=
  { st with mallocs := st.mallocs + 1 }

@[simps]
def addFreed (st : WaitState) (addrs : List ℕ) : WaitState :=
  { st with freed := st.freed ++ addrs }

/-- `free`. -/
def free (st : WaitState) (addr : ℕ) : Except Fault WaitState :=
  if addr < st.mallocs ∧ addr ∉ st.freed then .ok (st.addFreed [addr])
  else .error .invalidFree

/-- `iv_list_add_tail(&we->list, &p->events_pending)` and `iv_event_post(&p->ev)`. -/
@[simps]
def queueEvent (st : WaitState) (p : InterestPtr) (we : WaitEvent) : WaitState :=
  { st with
    eventsPending := Function.update st.eventsPending p (st.eventsPending p ++ [we])
    posted        := Function.update st.posted p true }

/-- `p->flags = IV_WAIT_STATUS_DEAD`. -/
@[simps]
def setDead (st : WaitState) (p : InterestPtr) : WaitState :=
  { st with dead := Function.update st.dead p true }

/-- `__iv_wait_interest_register`, in the thread `th`. -/
@[simps interests pid dead eventsPending owner posted mallocs freed]
def register (st : WaitState) (th : ThreadId) (this : InterestPtr) : WaitState :=
  { st with
    owner         := Function.update st.owner this (some th)
    posted        := Function.update st.posted this false
    eventsPending := Function.update st.eventsPending this []
    dead          := Function.update st.dead this false
    thread        := Function.update st.thread th
      { st.thread th with waitCount := (st.thread th).waitCount + 1 } }

/-- `__iv_wait_interest_unregister`, in the thread `th`, apart from the calls of `free`. -/
@[simps interests pid dead eventsPending owner posted mallocs freed]
def unregister (st : WaitState) (th : ThreadId) (this : InterestPtr) : WaitState :=
  { st with
    owner         := Function.update st.owner this none
    posted        := Function.update st.posted this false
    eventsPending := Function.update st.eventsPending this []
    thread        := Function.update st.thread th
      { st.thread th with
        waitCount           := (st.thread th).waitCount - 1
        handledWaitInterest := if (st.thread th).handledWaitInterest = some this then none
          else (st.thread th).handledWaitInterest
        unregistering       := none } }

/-- The handler of `ev` is called, and `iv_wait_completion` goes up to its loop. -/
@[simps interests pid dead eventsPending owner posted mallocs freed]
def steal (st : WaitState) (th : ThreadId) (this : InterestPtr) : WaitState :=
  { st with
    posted        := Function.update st.posted this false
    eventsPending := Function.update st.eventsPending this []
    thread        := Function.update st.thread th
      { st.thread th with
        handledWaitInterest := some this
        pc                  := .loop this (st.eventsPending this) } }

@[simps! interests pid dead eventsPending owner posted mallocs freed]
def setPc (st : WaitState) (th : ThreadId) (pc : WaitPc) : WaitState :=
  st.setThread th { st.thread th with pc := pc }

/-- The end of `iv_wait_completion`. -/
@[simps! interests pid dead eventsPending owner posted mallocs freed]
def finish (st : WaitState) (th : ThreadId) : WaitState :=
  st.setThread th { st.thread th with handledWaitInterest := none, pc := .outside }

@[simps! interests pid dead eventsPending owner posted mallocs freed]
def setUnregistering (st : WaitState) (th : ThreadId) (this : InterestPtr) : WaitState :=
  st.setThread th { st.thread th with unregistering := some this }

end WaitState

/-- `iv_wait_interest_compare`. -/
def ivWaitInterestCompare (pid : InterestPtr → ℤ) (a b : InterestPtr) : ℤ :=
  if pid a < pid b then -1
  else if pid a > pid b then 1
  else 0

/-- The loop of `__iv_wait_interest_find`. -/
def interestFindLoop (pidOf : InterestPtr → ℤ) (interests : AvlState) (pid : ℤ) :
    ℕ → Option InterestPtr → Except Fault (Option InterestPtr)
  | _, none => .ok none
  | 0, some _ => .error .stuck
  | fuel + 1, some an =>
    if pid = pidOf an then .ok (some an)
    else if pid < pidOf an then interestFindLoop pidOf interests pid fuel (interests.left an)
    else interestFindLoop pidOf interests pid fuel (interests.right an)

/-- `__iv_wait_interest_find`. -/
def ivWaitInterestFind (st : WaitState) (pid : ℤ) : Except Fault (Option InterestPtr) :=
  interestFindLoop st.pid st.interests pid avlFuel st.interests.root

/-- The body of the loop of `iv_wait_got_sigchld`, when `wait4` has returned `r`. -/
def gotResult (M : StatusMacros) (st : WaitState) (r : WaitResult) : Except Fault WaitState := do
  let we : WaitEvent := ⟨st.mallocs, r.status, r.rusage⟩
  let st := st.malloc
  let p ← ivWaitInterestFind st r.pid
  let st ← match p with
    | some p => .ok (st.queueEvent p we)
    | none   => st.free we.addr
  if ivWaitStatusDead M r.status then
    let p ← derefNode p
    let interests ← ivAvlTreeDelete avlFuel st.interests p
    .ok ((st.setInterests interests).setDead p)
  else .ok st

/-- `iv_wait_got_sigchld`, in which `wait4` returns these results before it has no more. -/
def ivWaitGotSigchld (M : StatusMacros) (st : WaitState) (results : List WaitResult) :
    Except Fault WaitState :=
  results.foldlM (gotResult M) st

/-- `iv_avl_tree_insert(&iv_wait_interests, &this->avl_node)`, whose result is ignored. -/
def insertInterest (st : WaitState) (this : InterestPtr) : Except Fault WaitState := do
  let (_, interests) ←
    ivAvlTreeInsert (ivWaitInterestCompare st.pid) avlFuel st.interests this
  .ok (st.setInterests interests)

/-- `iv_wait_interest_register`. -/
def ivWaitInterestRegister (st : WaitState) (th : ThreadId) (this : InterestPtr) :
    Except Fault WaitState :=
  insertInterest (st.register th this) this

/-- `__iv_wait_interest_unregister`. -/
def waitInterestUnregister (st : WaitState) (th : ThreadId) (this : InterestPtr) :
    Except Fault WaitState := do
  let st' ← (st.eventsPending this).foldlM (fun st we => st.free we.addr) st
  .ok (st'.unregister th this)

/-- `iv_wait_interest_register_spawn` in the parent; `fork` returns the pid of the child or
fails. -/
def ivWaitInterestRegisterSpawn (st : WaitState) (th : ThreadId) (this : InterestPtr)
    (fork : Option ℤ) : Except Fault WaitState :=
  let st := st.register th this
  match fork with
  | none     => waitInterestUnregister st th this
  | some pid => insertInterest (st.setPid this pid) this

/-- The part of `iv_wait_interest_unregister` that runs under the lock. -/
def unregisterLocked (st : WaitState) (this : InterestPtr) : Except Fault WaitState :=
  if st.dead this then .ok st
  else do
    let interests ← ivAvlTreeDelete avlFuel st.interests this
    .ok (st.setInterests interests)

/-! ### Runs -/

/-- What the threads do. -/
inductive WaitLabel where
  /-- The user sets `this->pid` and calls `iv_wait_interest_register`. -/
  | register (th : ThreadId) (this : InterestPtr) (pid : ℤ)
  | spawn (th : ThreadId) (this : InterestPtr) (fork : Option ℤ)
  /-- The thread has got the signal. -/
  | reap (th : ThreadId) (results : List WaitResult)
  /-- `iv_wait_completion` starts for `this`. -/
  | steal (th : ThreadId) (this : InterestPtr)
  /-- The handler of `this` is called. -/
  | call (th : ThreadId) (this : InterestPtr) (status : ℤ) (rusage : ℕ)
  /-- An entry is freed without calling the handler. -/
  | skip (th : ThreadId)
  /-- The handler returns. -/
  | ret (th : ThreadId)
  /-- `iv_wait_completion` returns. -/
  | finish (th : ThreadId)
  /-- `iv_wait_interest_unregister` is called, takes the lock and leaves it. -/
  | unregister (th : ThreadId) (this : InterestPtr)
  /-- `iv_wait_interest_unregister` returns. -/
  | unregistered (th : ThreadId)
  deriving DecidableEq, Repr

/-- One step of one thread. An interest is registered while it is not registered, and unregistered
by the thread that has registered it. -/
def waitStep (M : StatusMacros) (st : WaitState) : WaitLabel → Option WaitState
  | .register th this pid =>
    if (st.thread th).inUserCode ∧ st.owner this = none then
      (ivWaitInterestRegister (st.setPid this pid) th this).toOption
    else none
  | .spawn th this fork =>
    if (st.thread th).inUserCode ∧ st.owner this = none then
      (ivWaitInterestRegisterSpawn st th this fork).toOption
    else none
  | .reap th results =>
    if (st.thread th).inLoop ∧ 0 < (st.thread th).waitCount then
      (ivWaitGotSigchld M st results).toOption
    else none
  | .steal th this =>
    if (st.thread th).inLoop ∧ st.owner this = some th ∧ st.posted this then
      some (st.steal th this)
    else none
  | .call th this status rusage =>
    match (st.thread th).pc with
    | .loop p (we :: events) =>
      if (st.thread th).handledWaitInterest.isSome ∧ p = this ∧ we.status = status ∧
          we.rusage = rusage then
        some (st.setPc th (.handler p we events))
      else none
    | _ => none
  | .skip th =>
    match (st.thread th).pc with
    | .loop p (we :: events) =>
      if (st.thread th).handledWaitInterest.isSome then none
      else ((st.free we.addr).toOption).map fun st => st.setPc th (.loop p events)
    | _ => none
  | .ret th =>
    match (st.thread th).pc with
    | .handler p we events =>
      if (st.thread th).unregistering.isNone then
        ((st.free we.addr).toOption).map fun st => st.setPc th (.loop p events)
      else none
    | _ => none
  | .finish th =>
    match (st.thread th).pc with
    | .loop _ [] => some (st.finish th)
    | _          => none
  | .unregister th this =>
    if (st.thread th).inUserCode ∧ st.owner this = some th then
      (unregisterLocked st this).toOption.map fun st => st.setUnregistering th this
    else none
  | .unregistered th =>
    match (st.thread th).unregistering with
    | some this => (waitInterestUnregister st th this).toOption
    | none      => none

/-- All threads, before anything is registered. Interests hold whatever they hold in `nodes` and
`pid`. -/
def waitInit (nodes : AvlState) (pid : InterestPtr → ℤ) : WaitState where
  interests       := { nodes with root := none }
  pid             := pid
  dead _          := false
  eventsPending _ := []
  owner _         := none
  posted _        := false
  thread _        := ⟨0, none, .outside, none⟩
  mallocs         := 0
  freed           := []

def waitLts (M : StatusMacros) (nodes : AvlState) (pid : InterestPtr → ℤ) :
    Kit.Lts WaitState WaitLabel where
  init := waitInit nodes pid
  step := waitStep M

end Ivykis
