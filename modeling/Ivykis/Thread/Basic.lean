import Ivykis.Event.Basic
import Ivykis.Fd.Loop
import Ivykis.Task.Rounds
import Ivykis.Timer.Run

/-!
# A whole thread (`iv_main_posix.c`)

The descriptors, timers, tasks and events of one thread, and `iv_main`, which runs them in turn.
All of them are counted in the one field `numobjs`, and `iv_main` returns when it is zero. The
states of the single parts are views of the same `struct iv_state`: before a part makes a step it
is given the common `numobjs`.

An event of the thread is received in one of two ways, through the poll method or through the
descriptor of `events_kick`. An event that the thread posts to itself is received by the task
`events_local`.
-/

namespace Ivykis

variable {μ κ : Type}

/-- Two states with the same descriptors registered. -/
structure SameCounts (st st' : FdState μ) : Prop where
  registered : ∀ p, (st'.fds p).registered = (st.fds p).registered
  numfds : st'.numfds = st.numfds
  numobjs : st'.numobjs = st.numobjs

namespace SameCounts

variable {st st' st'' : FdState μ}

lemma of_core (h : st.SameCore st') : SameCounts st st' :=
  ⟨h.registered, h.numfds, h.numobjs⟩

lemma of_same (h : SameRegs st st') : SameCounts st st' :=
  ⟨fun p => by rw [h.fds p], h.numfds, h.numobjs⟩

lemma trans (h : SameCounts st st') (h' : SameCounts st' st'') : SameCounts st st'' :=
  ⟨fun p => (h'.registered p).trans (h.registered p), h'.numfds.trans h.numfds,
    h'.numobjs.trans h.numobjs⟩

end SameCounts

/-- `struct iv_fd_poll_method` with its `poll`, which takes any number of steps. Polling does not
change what is registered. -/
structure Poller (μ κ : Type) where
  method : PollMethod μ
  poll   : FdState μ → κ → Option (FdState μ × DispatchPc)
  poll_same : ∀ {st k st' pc}, poll st k = some (st', pc) → SameCounts st st'

/-- `&st->events_kick.event_rfd`. -/
def eventsKick : FdPtr := 0

/-- `&st->events_local`. -/
def eventsLocal : TaskPtr := 0

/-- Where a thread is in `iv_main`. -/
inductive MainPc where
  | outside
  | beforeTimers
  /-- In `iv_run_timers`. -/
  | timers
  | beforeTasks
  /-- In `iv_run_tasks`. -/
  | tasks
  /-- At the exit check. -/
  | check
  /-- In `iv_fd_poll_and_run`, while `method->poll` waits for events. -/
  | poll
  /-- In the rest of `iv_fd_poll_and_run`. -/
  | dispatch
  deriving DecidableEq, Repr

structure ThreadState (μ : Type) where
  numobjs     : ℤ
  quit        : Bool
  fd          : FdState μ
  fdPc        : DispatchPc
  timer       : TimerLoop
  task        : TaskLoop
  eventCount  : ℕ
  /-- The receiver has been enabled through `event_rx_on` of the poll method. -/
  eventRxOn   : Bool
  /-- `iv_event_use_event_raw`. -/
  useEventRaw : Bool
  /-- `events_pending`. -/
  pending     : List EventPtr
  /-- The list `events` of `__iv_event_run_pending_events`. -/
  stolen      : List EventPtr
  pc          : MainPc
  /-- The descriptors and the events that are registered. The code keeps no such sets. -/
  fdRegs      : Finset FdPtr
  eventRegs   : Finset EventPtr

namespace ThreadState

/-! ### Steps of the parts -/

/-- A call that concerns a descriptor. -/
def fdOp (m : PollMethod μ) (s : ThreadState μ) (op : FdOp) : Option (ThreadState μ) :=
  (fdStep m { s.fd with numobjs := s.numobjs } op).map fun fd =>
    { s with fd := fd, numobjs := fd.numobjs, fdRegs := op.regsAfter fd s.fdRegs }

def timerStep (s : ThreadState μ) (a : TimerLabel) : Option (ThreadState μ) :=
  (timerLoopStep { s.timer with st := { s.timer.st with numobjs := s.numobjs } } a).map fun t =>
    { s with timer := t, numobjs := t.st.numobjs }

def taskStep (s : ThreadState μ) (a : TaskLabel) : Option (ThreadState μ) :=
  (taskLoopStep { s.task with st := { s.task.st with numobjs := s.numobjs } } a).map fun t =>
    { s with task := t, numobjs := t.st.numobjs }

/-! ### Events -/

/-- `event_rx_on`. -/
@[simps]
def rxTurnOn (s : ThreadState μ) : ThreadState μ :=
  { s with eventRxOn := true, numobjs := s.numobjs + 1 }

/-- `event_rx_off`; the kernel does not know of a receiver that is not enabled. -/
def rxTurnOff (s : ThreadState μ) : Option (ThreadState μ) :=
  if s.eventRxOn then some { s with eventRxOn := false, numobjs := s.numobjs - 1 } else none

/-- `iv_event_raw_register(&st->events_kick)`. A new descriptor has the number `num`; the result of
a call that fails is `none`. -/
def rawRegister (m : PollMethod μ) (s : ThreadState μ) (num : Option ℤ) :
    Option (ThreadState μ) := do
  let num ← num
  let s ← s.fdOp m (.prepare eventsKick num (some 0) none none)
  s.fdOp m (.register eventsKick)

/-- How `iv_event_register` enables the receiver; `rxOk` says whether `event_rx_on` succeeds. -/
def enableRx (m : PollMethod μ) (s : ThreadState μ) (rxOk : Bool) (num : Option ℤ) :
    Option (ThreadState μ) :=
  if s.useEventRaw then s.rawRegister m num
  else if rxOk then some s.rxTurnOn
  else ({ s with useEventRaw := true } : ThreadState μ).rawRegister m num

/-- `iv_event_register` up to and including the counts. -/
@[simps]
def countEvent (s : ThreadState μ) (this : EventPtr) : ThreadState μ :=
  { s with
    numobjs    := s.numobjs + 1
    eventCount := s.eventCount + 1
    eventRegs  := insert this s.eventRegs }

/-- `iv_event_register`, where `mt` is `is_mt_app()`. -/
def ivEventRegister (mt : Bool) (m : PollMethod μ) (s : ThreadState μ) (this : EventPtr)
    (rxOk : Bool) (num : Option ℤ) : Option (ThreadState μ) :=
  if s.eventCount = 0 ∧ mt then (s.countEvent this).enableRx m rxOk num
  else some (s.countEvent this)

/-- How `iv_event_unregister` disables the receiver. -/
def disableRx (m : PollMethod μ) (s : ThreadState μ) (refused : Bool) : Option (ThreadState μ) :=
  if s.useEventRaw then s.fdOp m (.unregister eventsKick refused) else s.rxTurnOff

/-- `iv_event_unregister` without the receiver. -/
@[simps]
def uncountEvent (s : ThreadState μ) (this : EventPtr) : ThreadState μ :=
  { s with
    pending    := s.pending.erase this
    stolen     := s.stolen.erase this
    eventCount := s.eventCount - 1
    numobjs    := s.numobjs - 1
    eventRegs  := s.eventRegs.erase this }

/-- `iv_event_unregister`. -/
def ivEventUnregister (mt : Bool) (m : PollMethod μ) (s : ThreadState μ) (this : EventPtr)
    (refused : Bool) : Option (ThreadState μ) :=
  if s.eventCount - 1 = 0 ∧ mt then (s.uncountEvent this).disableRx m refused
  else some (s.uncountEvent this)

/-- `iv_event_post` for an event of the same thread. -/
def ivEventPost (s : ThreadState μ) (this : EventPtr) : Option (ThreadState μ) :=
  if this ∈ s.pending ∨ this ∈ s.stolen then some s
  else
    let post := s.pending.isEmpty
    let s := { s with pending := s.pending ++ [this] }
    if post ∧ ¬ s.task.st.registered eventsLocal then
      s.taskStep (.op (.register eventsLocal))
    else some s

/-- `__iv_event_run_pending_events` takes over the pending events, and runs the first handler. -/
def stealEvents (s : ThreadState μ) : Option (ThreadState μ) :=
  match s.pending, s.stolen with
  | _ :: events, [] => some { s with pending := [], stolen := events }
  | _, _            => none

/-- `__iv_event_run_pending_events` runs the next handler. -/
def nextEvent (s : ThreadState μ) : Option (ThreadState μ) :=
  match s.stolen with
  | []          => none
  | _ :: events => some { s with stolen := events }

/-- User code is running. -/
def userCode (s : ThreadState μ) : Bool :=
  match s.pc with
  | .outside  => true
  | .timers   => s.timer.pc != .loop
  | .tasks    => s.task.pc.inUserCode
  | .dispatch => s.fdPc.inUser
  | _         => false

end ThreadState

/-! ### Runs -/

/-- What a thread does next. -/
inductive ThreadLabel (κ : Type) where
  | fdOp (op : FdOp)
  | timer (a : TimerLabel)
  | task (a : TaskLabel)
  | eventRegister (this : EventPtr) (rxOk : Bool) (num : Option ℤ)
  | eventUnregister (this : EventPtr) (refused : Bool)
  | eventPost (this : EventPtr)
  | stealEvents
  | nextEvent
  | quit
  /-- `iv_main` is called. -/
  | main
  /-- The exit check of `iv_main`. -/
  | check
  | poll (k : κ)
  | round (a : DispatchLabel)
  /-- `iv_fd_poll_and_run` returns. -/
  | polled (runTimers : Bool)

/-- How timers move the thread along in `iv_main`. -/
def MainPc.onTimer (userCode : Bool) : MainPc → TimerLabel → Option MainPc
  | .beforeTimers, .run _    => some .timers
  | .timers, .call _         => some .timers
  | .timers, .ret            => some .timers
  | .timers, .finish         => some .beforeTasks
  | pc, .op _                => if userCode then some pc else none
  | pc, .invalidateNow       => some pc
  | pc, .validateNow _       => some pc
  | _, _                     => none

/-- How tasks move the thread along in `iv_main`. -/
def MainPc.onTask (userCode : Bool) : MainPc → TaskLabel → Option MainPc
  | .beforeTasks, .run       => some .tasks
  | .tasks, .call _          => some .tasks
  | .tasks, .ret             => some .tasks
  | .tasks, .finish          => some .check
  | pc, .op _                => if userCode then some pc else none
  | pc, .initElsewhere _ _   => some pc
  | _, _                     => none

/-- One step of a thread. Events are registered once, and unregistered and posted while they are
registered. An `iv_event_register` that fails is not a step. -/
def threadStep (mt : Bool) (P : Poller μ κ) (s : ThreadState μ) :
    ThreadLabel κ → Option (ThreadState μ)
  | .fdOp op => if s.userCode then s.fdOp P.method op else none
  | .timer a => (s.pc.onTimer s.userCode a).bind fun pc =>
      (s.timerStep a).map fun s => { s with pc := pc }
  | .task a => (s.pc.onTask s.userCode a).bind fun pc =>
      (s.taskStep a).map fun s => { s with pc := pc }
  | .eventRegister this rxOk num =>
    if s.userCode ∧ this ∉ s.eventRegs then s.ivEventRegister mt P.method this rxOk num else none
  | .eventUnregister this refused =>
    if s.userCode ∧ this ∈ s.eventRegs then s.ivEventUnregister mt P.method this refused else none
  | .eventPost this =>
    if s.userCode ∧ this ∈ s.eventRegs then s.ivEventPost this else none
  | .stealEvents => if s.userCode then s.stealEvents else none
  | .nextEvent => if s.userCode then s.nextEvent else none
  | .quit => if s.userCode then some { s with quit := true } else none
  | .main => if s.pc = .outside then some { s with quit := false, pc := .beforeTimers } else none
  | .check =>
    if s.pc = .check then
      some { s with pc := if s.quit ∨ s.numobjs = 0 then .outside else .poll }
    else none
  | .poll k =>
    if s.pc = .poll then
      (P.poll { s.fd with numobjs := s.numobjs } k).map fun res =>
        { s with
          fd      := res.1
          numobjs := res.1.numobjs
          fdPc    := res.2
          pc      := if res.2 = .done then .poll else .dispatch }
    else none
  | .round a =>
    if s.pc = .dispatch ∧ a.internal then
      (dispatchStep P.method ⟨{ s.fd with numobjs := s.numobjs }, s.fdPc⟩ a).map fun d =>
        { s with fd := d.st, numobjs := d.st.numobjs, fdPc := d.pc }
    else none
  | .polled runTimers =>
    if s.pc = .dispatch ∧ s.fdPc = .done then
      some { s with pc := if runTimers then .beforeTimers else .beforeTasks }
    else none

/-- `iv_init`, with descriptors and timers that have been initialised and a state `method` of the
poll method. -/
def ivInit (fds : FdPtr → Fd) (expires : TimerPtr → Timespec) (avail : ℕ) (method : μ) :
    ThreadState μ where
  numobjs     := 0
  quit        := false
  fd          := (ivFdInit fds method).st
  fdPc        := .done
  timer       := ⟨ivTimerInit expires avail, .outside⟩
  task        := ⟨(ivTaskInit 0).initTask eventsLocal 0, .outside⟩
  eventCount  := 0
  eventRxOn   := false
  useEventRaw := false
  pending     := []
  stolen      := []
  pc          := .outside
  fdRegs      := ∅
  eventRegs   := ∅

/-- The runs of a thread from the state `init`, which `iv_init` has set up. -/
def threadLts (mt : Bool) (P : Poller μ κ) (init : ThreadState μ) :
    Kit.Lts (ThreadState μ) (ThreadLabel κ) where
  init := init
  step := threadStep mt P

end Ivykis
