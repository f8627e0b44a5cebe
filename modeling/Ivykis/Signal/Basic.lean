import Ivykis.Avl.Iterate

/-!
# Signals (`iv_signal.c`)

An interest in a signal is a node of `process_sigs` or, with `IV_SIGNAL_FLAG_THIS_THREAD`, of its
thread's own tree. The signal handler looks interests up in these trees and posts their raw
events, and the event loop of an interest's thread then runs `iv_signal_event`.

A forked child starts with a copy of all this, and with the descriptors of the raw events, which
it shares with its parent. A process therefore has its own memory, and the raw events are common
to all processes.
-/

namespace Ivykis

/-- The address of a `struct iv_signal`, which stands for that of its tree node. -/
abbrev SigPtr := AvlPtr

/-- A `pid_t` of a process. -/
abbrev Pid := {p : ℤ // 0 < p}

/-- The `num`-th raw event that the process `pid` has registered. -/
structure RawId where
  pid : Pid
  num : ℕ
  deriving DecidableEq

/-- `IV_SIGNAL_FLAG_EXCLUSIVE` and `IV_SIGNAL_FLAG_THIS_THREAD`. -/
structure SigFlags where
  exclusive  : Bool
  thisThread : Bool
  deriving DecidableEq, Repr

/-- The memory of a process. -/
structure SigMem where
  sigOwnerPid       : ℤ
  totalNumInterests : ℤ → ℤ
  /-- `process_sigs`, and the `thr_sigs` of each thread. -/
  sigs              : Option ThreadId → AvlState
  signum            : SigPtr → ℤ
  flags             : SigPtr → SigFlags
  active            : SigPtr → Bool
  ev                : SigPtr → RawId
  /-- The number of raw events registered so far. -/
  numRaw            : ℕ
  /-- `iv_signal_handler` is the action for this signal. -/
  installed         : ℤ → Bool
  /-- The threads that have called `iv_init`. -/
  threads           : Finset ThreadId
  /-- The interests that this process has registered and not unregistered. -/
  mine              : Finset SigPtr
  /-- The thread that has registered an interest. -/
  home              : SigPtr → ThreadId

/-- What a process sees: its memory, and for each raw event how many posts are still unread. -/
structure SigView where
  mem    : SigMem
  unread : RawId → ℕ

/-- `iv_signal_compare`. -/
def ivSignalCompare (signum : SigPtr → ℤ) (flags : SigPtr → SigFlags) (a b : SigPtr) : ℤ :=
  if signum a < signum b then -1
  else if signum a > signum b then 1
  else if (flags a).exclusive ∧ ¬ (flags b).exclusive then -1
  else if ¬ (flags a).exclusive ∧ (flags b).exclusive then 1
  else if a < b then -1
  else if a > b then 1
  else 0

/-! ### Waking interests -/

/-- The loop of `__iv_signal_find_first`. -/
def findFirstLoop (signumOf : SigPtr → ℤ) (tree : AvlState) (signum : ℤ) :
    ℕ → Option SigPtr → Option SigPtr → Except Fault (Option SigPtr)
  | _, none, best => .ok best
  | 0, some _, _ => .error .stuck
  | fuel + 1, some iter, best =>
    let best := if signum = signumOf iter then some iter else best
    if signum ≤ signumOf iter then findFirstLoop signumOf tree signum fuel (tree.left iter) best
    else findFirstLoop signumOf tree signum fuel (tree.right iter) best

/-- `__iv_signal_find_first`. -/
def ivSignalFindFirst (signumOf : SigPtr → ℤ) (tree : AvlState) (signum : ℤ) :
    Except Fault (Option SigPtr) :=
  findFirstLoop signumOf tree signum avlFuel tree.root none

/-- `is->active = 1; iv_event_raw_post(&is->ev);` -/
def SigView.wakeOne (v : SigView) (is : SigPtr) : SigView where
  mem    := { v.mem with active := Function.update v.mem.active is true }
  unread := Function.update v.unread (v.mem.ev is) (v.unread (v.mem.ev is) + 1)

/-- The loop of `__iv_signal_do_wake`. -/
def doWakeLoop (tree : AvlState) (signum : ℤ) :
    ℕ → Option SigPtr → ℕ → SigView → Except Fault (ℕ × SigView)
  | _, none, woken, v => .ok (woken, v)
  | 0, some _, _, _ => .error .stuck
  | fuel + 1, some is, woken, v =>
    if v.mem.signum is ≠ signum then .ok (woken, v)
    else if (v.mem.flags is).exclusive then .ok (woken + 1, v.wakeOne is)
    else do
      let an ← ivAvlTreeNext avlFuel tree is
      doWakeLoop tree signum fuel an (woken + 1) (v.wakeOne is)

/-- `__iv_signal_do_wake`; it wakes each node of the tree once at most. -/
def ivSignalDoWake (tree : AvlState) (signum : ℤ) (v : SigView) : Except Fault (ℕ × SigView) := do
  let an ← ivSignalFindFirst v.mem.signum tree signum
  doWakeLoop tree signum (2 ^ 64) an 0 v

/-- `iv_signal_handler`, in the thread `th` of the process `pid`. -/
def ivSignalHandler (pid : Pid) (th : ThreadId) (signum : ℤ) (v : SigView) :
    Except Fault SigView := do
  if v.mem.sigOwnerPid = 0 ∨ v.mem.sigOwnerPid ≠ pid then .ok v
  else if th ∈ v.mem.threads then
    let (woken, v) ← ivSignalDoWake (v.mem.sigs (some th)) signum v
    if woken = 0 then (ivSignalDoWake (v.mem.sigs none) signum v).map Prod.snd else .ok v
  else (ivSignalDoWake (v.mem.sigs none) signum v).map Prod.snd

/-- `iv_signal_event` up to the call of the user's handler. -/
def ivSignalEvent (is : SigPtr) (v : SigView) : SigView :=
  { v with mem := { v.mem with active := Function.update v.mem.active is false } }

/-! ### Registering and unregistering -/

/-- `tree.root = NULL`. -/
def AvlState.dropNodes (tree : AvlState) : AvlState :=
  { tree with root := none }

/-- `iv_signal_child_reset_postfork`, in the thread `th`. -/
def ivSignalChildResetPostfork (nsig : ℕ) (th : ThreadId) (m : SigMem) : SigMem :=
  { m with
    installed         := fun i =>
      if 0 ≤ i ∧ i < nsig ∧ m.totalNumInterests i ≠ 0 then false else m.installed i
    totalNumInterests := fun i =>
      if 0 ≤ i ∧ i < nsig ∧ m.totalNumInterests i ≠ 0 then 0 else m.totalNumInterests i
    sigOwnerPid       := 0
    sigs              := fun p =>
      if p = none ∨ (p = some th ∧ th ∈ m.threads) then (m.sigs p).dropNodes else m.sigs p }

/-- The start of `iv_signal_register`: a process makes the data its own. -/
def claimOwner (nsig : ℕ) (pid : Pid) (th : ThreadId) (m : SigMem) : SigMem :=
  if m.sigOwnerPid ≠ 0 ∧ m.sigOwnerPid ≠ pid then
    { ivSignalChildResetPostfork nsig th m with sigOwnerPid := pid }
  else if m.sigOwnerPid = 0 then { m with sigOwnerPid := pid }
  else m

/-- `iv_signal_tree`: no thread stands for `process_sigs`. -/
def ivSignalTree (flags : SigFlags) (th : ThreadId) : Option ThreadId :=
  if flags.thisThread then some th else none

def SigMem.setTree (m : SigMem) (p : Option ThreadId) (tree : AvlState) : SigMem :=
  { m with sigs := Function.update m.sigs p tree }

/-- `total_num_interests[signum]++`, and `sigaction` if it was zero; `refused` says that the call
fails. -/
def countInterest (refused : Bool) (signum : ℤ) (m : SigMem) : Except Fault SigMem :=
  let total := m.totalNumInterests signum
  let m := { m with totalNumInterests := Function.update m.totalNumInterests signum (total + 1) }
  if total = 0 then
    if refused then .error (.fatal "iv_signal_register: sigaction got error")
    else .ok { m with installed := Function.update m.installed signum true }
  else .ok m

/-- `iv_event_raw_register(&this->ev)` and `this->active = 0`. It is assumed that the raw event can
be registered: `iv_signal_register` does not look at the result, and would go on with an interest
that cannot be woken. -/
def SigView.setUp (v : SigView) (pid : Pid) (this : SigPtr) : SigView where
  mem    := { v.mem with
    ev     := Function.update v.mem.ev this ⟨pid, v.mem.numRaw⟩
    numRaw := v.mem.numRaw + 1
    active := Function.update v.mem.active this false }
  unread := Function.update v.unread ⟨pid, v.mem.numRaw⟩ 0

/-- `iv_signal_register`. -/
def ivSignalRegister (nsig : ℕ) (pid : Pid) (th : ThreadId) (this : SigPtr) (refused : Bool)
    (v : SigView) : Except Fault (ℤ × SigView) := do
  let signum := v.mem.signum this
  if signum < 0 ∨ nsig ≤ signum then .ok (-1, v)
  else
    let v := { v with mem := claimOwner nsig pid th v.mem }
    let v := v.setUp pid this
    let m ← countInterest refused signum v.mem
    let p := ivSignalTree (m.flags this) th
    let (_, tree) ← ivAvlTreeInsert (ivSignalCompare m.signum m.flags) avlFuel (m.sigs p) this
    .ok (0, { v with mem := m.setTree p tree })

/-- `--total_num_interests[signum]`, and `sigaction` with `SIG_DFL` if it is zero then. -/
def discountInterest (signum : ℤ) (m : SigMem) : SigMem :=
  let total := m.totalNumInterests signum - 1
  { m with
    totalNumInterests := Function.update m.totalNumInterests signum total
    installed         := if total = 0 then Function.update m.installed signum false
      else m.installed }

/-- `iv_signal_unregister`. -/
def ivSignalUnregister (nsig : ℕ) (th : ThreadId) (this : SigPtr) (v : SigView) :
    Except Fault SigView := do
  let signum := v.mem.signum this
  if signum < 0 ∨ nsig ≤ signum then
    .error (.fatal "iv_signal_unregister: signal number out of range")
  else
    let p := ivSignalTree (v.mem.flags this) th
    let tree ← ivAvlTreeDelete avlFuel (v.mem.sigs p) this
    let v := { v with mem := discountInterest signum (v.mem.setTree p tree) }
    if v.mem.totalNumInterests signum ≠ 0 ∧ (v.mem.flags this).exclusive ∧ v.mem.active this then
      (ivSignalDoWake (v.mem.sigs p) signum v).map Prod.snd
    else .ok v

/-! ### Runs -/

/-- What a thread of a process does. -/
inductive SigOp where
  /-- `iv_init`. -/
  | start
  /-- The thread ends; it has unregistered its interests. -/
  | exit
  /-- The user fills in an interest and registers it. -/
  | register (this : SigPtr) (signum : ℤ) (flags : SigFlags) (refused : Bool)
  | unregister (this : SigPtr)
  /-- The signal is delivered to this thread. -/
  | deliver (signum : ℤ)
  /-- The raw event is read and `iv_signal_event` runs. Posts may stay unread: those that do not
  fit in the buffer of the `read`, and those made between it and the critical section. -/
  | event (this : SigPtr) (left : ℕ)
  /-- `iv_signal_child_reset_postfork`, as after the `fork` of `iv_wait_interest_register_spawn`. -/
  | reset
  deriving DecidableEq

/-- The user sets the fields of an interest. -/
def SigMem.fillIn (m : SigMem) (this : SigPtr) (signum : ℤ) (flags : SigFlags) : SigMem :=
  { m with
    signum := Function.update m.signum this signum
    flags  := Function.update m.flags this flags }

/-- One step of the thread `th`. A thread that has not called `iv_init` may still be sent signals,
and may call `iv_signal_child_reset_postfork`. -/
def sigStep (nsig : ℕ) (pid : Pid) (th : ThreadId) (v : SigView) : SigOp → Option SigView
  | .start =>
    if th ∈ v.mem.threads then none
    else some { v with mem :=
      { v.mem.setTree (some th) (v.mem.sigs (some th)).dropNodes with
        threads := insert th v.mem.threads } }
  | .exit =>
    if th ∈ v.mem.threads ∧ ∀ i ∈ v.mem.mine, v.mem.home i ≠ th then
      some { v with mem := { v.mem with threads := v.mem.threads.erase th } }
    else none
  | .register this signum flags refused =>
    if th ∈ v.mem.threads ∧ this ∉ v.mem.mine then do
      let m := v.mem.fillIn this signum flags
      let (ret, v) ← (ivSignalRegister nsig pid th this refused { v with mem := m }).toOption
      if ret = 0 then
        some { v with mem := { v.mem with
          mine := insert this v.mem.mine
          home := Function.update v.mem.home this th } }
      else some v
    else none
  | .unregister this =>
    if this ∈ v.mem.mine ∧ v.mem.home this = th then
      let m := { v.mem with mine := v.mem.mine.erase this }
      (ivSignalUnregister nsig th this { v with mem := m }).toOption
    else none
  | .deliver signum =>
    if v.mem.installed signum then (ivSignalHandler pid th signum v).toOption else none
  | .event this left =>
    if this ∈ v.mem.mine ∧ v.mem.home this = th ∧ left < v.unread (v.mem.ev this) then
      some (ivSignalEvent this
        { v with unread := Function.update v.unread (v.mem.ev this) left })
    else none
  | .reset => some { v with mem := ivSignalChildResetPostfork nsig th v.mem }

/-- All processes. -/
structure SigSystem where
  procs  : Pid → Option SigMem
  unread : RawId → ℕ

inductive SigLabel where
  | op (pid : Pid) (th : ThreadId) (op : SigOp)
  | fork (pid : Pid) (th : ThreadId) (child : Pid)

/-- The memory of the child that the thread `th` forks off: this is its only thread, and it has
registered nothing itself. -/
def SigMem.forked (m : SigMem) (th : ThreadId) : SigMem :=
  { m with threads := m.threads.filter (· = th), mine := ∅ }

def forkStep (nsig : ℕ) (first : Pid) (s : SigSystem) : SigLabel → Option SigSystem
  | .op pid th op =>
    -- the first process is not a forked child
    if op = .reset ∧ pid = first then none
    else do
      let m ← s.procs pid
      let v ← sigStep nsig pid th ⟨m, s.unread⟩ op
      some ⟨Function.update s.procs pid (some v.mem), v.unread⟩
  | .fork pid th child =>
    match s.procs pid, s.procs child with
    | some m, none => some { s with procs := Function.update s.procs child (some (m.forked th)) }
    | _, _         => none

/-- Memory after `iv_signal_init`; interests and tree nodes hold whatever they hold in `m`. -/
def SigMem.initial (m : SigMem) : SigMem :=
  { m with
    sigOwnerPid       := 0
    totalNumInterests := fun _ => 0
    sigs              := fun p => (m.sigs p).dropNodes
    installed         := fun _ => false
    threads           := ∅
    mine              := ∅ }

def sigLts (nsig : ℕ) (first : Pid) (m : SigMem) : Kit.Lts SigSystem SigLabel where
  init := ⟨Function.update (fun _ => none) first (some m.initial), fun _ => 0⟩
  step := forkStep nsig first

end Ivykis
