import Mathlib.Data.Finset.Basic
import Mathlib.Data.Finset.Card
import Ivykis.Basic
import Ivykis.Kit.Lts

/-!
# Events between threads (`iv_event.c`)

The events of one owner thread, any number of other threads that post them, and the owner, which
runs their handlers. The list of pending events is protected by a lock; the kick that wakes the
owner is sent after the lock is released. One step of the model is one locked section or one kick.
A thread that has called `iv_event_post` has to wait for the lock, so that the call is a step of its
own.

The receiver of kicks is either the user event of the poll method or the descriptor of
`events_kick`; `iv_event_use_event_raw`, here `useRaw`, says which.
-/

namespace Ivykis

/-- The address of a `struct iv_event`. -/
abbrev EventPtr := ℕ

/-- Where the owner is in `__iv_event_run_pending_events`. -/
inductive EventPc where
  | outside
  /-- A kick has been consumed and the lock is about to be taken. -/
  | entering
  /-- A handler is running. `events` is the rest of the stolen list. -/
  | handler (events : List EventPtr) (emptyNow : Bool)
  deriving DecidableEq, Repr

/-- A call of the owner that has made its first step. -/
inductive EventCall where
  | none
  /-- `iv_event_post`, after a list update that decided on `post = 1`. -/
  | post
  /-- `iv_event_unregister`, after the event has left its list. -/
  | unregister
  deriving DecidableEq, Repr

/-- The event part of the owner's `struct iv_state`, and what is under way. -/
structure EventState where
  numobjs     : ℤ
  eventCount  : ℕ
  /-- The events that have been registered and not since unregistered. -/
  registered  : Finset EventPtr
  /-- `events_pending`. -/
  pending     : List EventPtr
  /-- The events whose `list` was left with null pointers by `iv_list_del`. -/
  deleted     : Finset EventPtr
  /-- Whether the owner's receiver is enabled. -/
  rxOn        : Bool
  /-- The kicks sent to the receiver that have not been consumed. -/
  kicks       : ℕ
  /-- Whether the task `events_local` is registered. -/
  eventsLocal : Bool
  /-- The threads in `iv_event_post` before the list update, with the event. -/
  starting    : Finset (ThreadId × EventPtr)
  /-- The threads between a list update with `post = 1` and the kick. -/
  posting     : Finset ThreadId
  pc          : EventPc
  call        : EventCall
  deriving DecidableEq

namespace EventState

/-- The list `events` of `__iv_event_run_pending_events`. -/
def stolen (st : EventState) : List EventPtr :=
  match st.pc with
  | .handler events _ => events
  | _                 => []

/-- The handler of an event is running. -/
def inHandler (st : EventState) : Bool :=
  match st.pc with
  | .handler _ _ => true
  | _            => false

/-- The event is on a list. -/
def linked (st : EventState) (this : EventPtr) : Bool :=
  decide (this ∈ st.pending) || decide (this ∈ st.stolen)

/-- `iv_list_del(&this->list)`. -/
def unlink (st : EventState) (this : EventPtr) : EventState :=
  { st with
    pending := st.pending.erase this
    deleted := insert this st.deleted
    pc := match st.pc with
      | .handler events emptyNow => .handler (events.erase this) emptyNow
      | pc                       => pc }

/-- The end of `iv_event_register`, with `INIT_IV_LIST_HEAD(&this->list)`. -/
def enlist (st : EventState) (this : EventPtr) : EventState :=
  { st with registered := insert this st.registered, deleted := st.deleted.erase this }

/-- A new receiver has no kicks. -/
def rxTurnOn (st : EventState) : EventState :=
  { st with rxOn := true, kicks := 0, numobjs := st.numobjs + 1 }

/-- Kicks that have not been consumed are gone with the receiver. -/
def rxTurnOff (st : EventState) : EventState :=
  { st with rxOn := false, kicks := 0, numobjs := st.numobjs - 1 }

end EventState

/-- `iv_event_init`. -/
def ivEventInit : EventState where
  numobjs     := 0
  eventCount  := 0
  registered  := ∅
  pending     := []
  deleted     := ∅
  rxOn        := false
  kicks       := 0
  eventsLocal := false
  starting    := ∅
  posting     := ∅
  pc          := .outside
  call        := .none

/-- `iv_event_register`; `rxOk` says whether the receiver can be enabled. -/
def ivEventRegister (rxOk : Bool) (st : EventState) (this : EventPtr) : ℤ × EventState :=
  let st := { st with numobjs := st.numobjs + 1 }
  if st.eventCount = 0 then
    if rxOk then
      (0, ({ st with eventCount := 1 }.rxTurnOn).enlist this)
    else
      -- the event count is set back, but not `numobjs`
      (-1, st)
  else
    (0, { st with eventCount := st.eventCount + 1 }.enlist this)

/-- The first half of `iv_event_unregister`. -/
def ivEventUnregisterUnlink (st : EventState) (this : EventPtr) : EventState :=
  let st := if st.linked this then st.unlink this else st
  { st with registered := st.registered.erase this, call := .unregister }

/-- The second half of `iv_event_unregister`. -/
def ivEventUnregisterCount (st : EventState) : EventState :=
  let st := { st with eventCount := st.eventCount - 1 }
  let st := if st.eventCount = 0 then st.rxTurnOff else st
  { st with numobjs := st.numobjs - 1, call := .none }

/-- The locked section of `iv_event_post`, and the value of `post` after it. A list with null
pointers is not empty for `iv_list_empty`. -/
def postUpdate (st : EventState) (this : EventPtr) : Bool × EventState :=
  if st.linked this ∨ this ∈ st.deleted then (false, st)
  else (st.pending.isEmpty, { st with pending := st.pending ++ [this] })

/-- `iv_event_post` up to the kick, with what is still to do if `post` is set. -/
def postThen (todo : EventState → EventState) (st : EventState) (this : EventPtr) : EventState :=
  let (post, st) := postUpdate st this
  if post then todo st else st

/-- `iv_event_post` in the thread `t`, from the list update up to the kick. -/
def postBy (t : ThreadId) (st : EventState) (this : EventPtr) : EventState :=
  postThen (fun st => { st with posting := insert t st.posting })
    { st with starting := st.starting.erase (t, this) } this

/-- `iv_event_post` in the owner thread, up to the registration of `events_local`. -/
def postByOwner : EventState → EventPtr → EventState :=
  postThen fun st => { st with call := .post }

/-- The rest of `iv_event_post` in the owner thread. -/
def postLocal (st : EventState) : EventState :=
  let st := { st with call := .none }
  if st.eventsLocal then st
  else { st with eventsLocal := true, numobjs := st.numobjs + 1 }

/-- The rest of `iv_event_post` in another thread: `event_send` or `iv_event_raw_post`. The former
checks for errors. The latter does not, and a write to a closed descriptor has no effect. -/
def ivEventPostKick (useRaw : Bool) (st : EventState) : Except Fault EventState :=
  if st.rxOn then .ok { st with kicks := st.kicks + 1 }
  else if useRaw then .ok st
  else .error (.fatal "iv_fd_epoll_event_send: epoll_ctl returned error")

/-- The first locked section of `__iv_event_run_pending_events`, and the event whose handler is
run after it, if any. -/
def runPendingSteal (st : EventState) : Option EventPtr × EventState :=
  match st.pending with
  | []           => (none, { st with pc := .outside })
  | ie :: events => (some ie, { st with pending := [], pc := .handler events events.isEmpty })

/-- The task `events_local` is taken off the list of tasks to be run. -/
def takeLocal (st : EventState) : EventState :=
  { st with eventsLocal := false, numobjs := st.numobjs - 1 }

/-- What `__iv_event_run_pending_events` does after a handler has returned, up to the next one. -/
def runPendingNext (st : EventState) : Option EventPtr × EventState :=
  match st.pc with
  | .handler (ie :: events) false => (some ie, { st with pc := .handler events events.isEmpty })
  | _                             => (none, { st with pc := .outside })

/-! ### Runs -/

/-- One step of the owner or of a thread that posts. -/
inductive EventOp where
  | register (this : EventPtr) (rxOk : Bool)
  | unregister (this : EventPtr)
  | unregisterCount
  /-- The thread `t` has called `iv_event_post`. -/
  | postStart (t : ThreadId) (this : EventPtr)
  | post (t : ThreadId) (this : EventPtr)
  | kick (t : ThreadId)
  | postOwn (this : EventPtr)
  | postTask
  /-- The owner consumes kicks: one, or several that have run together. -/
  | consume (n : ℕ)
  /-- The locked section at the start of `__iv_event_run_pending_events`, reached with a kick or
  as the handler of `events_local`, and the event whose handler is run first. -/
  | steal (task : Bool) (ie : Option EventPtr)
  /-- The handler that is running returns, and the next one is run. -/
  | next (ie : Option EventPtr)
  deriving DecidableEq, Repr

/-- The owner runs user code: it is not in the middle of a call. -/
def EventState.free (st : EventState) : Prop :=
  st.call = .none ∧ st.pc ≠ .entering

instance (st : EventState) : Decidable st.free :=
  inferInstanceAs (Decidable (_ ∧ _))

/-- One step. `iv_event_post` is called for registered events; registering and unregistering is up
to the owner, who may unregister an event after somebody else has called `iv_event_post` for it.
Such a post may leave the event on a list. Registering it there again would cut the list, and the
model ends at that. `iv_event_use_event_raw` does not change, so that enabling the user event of the
poll method does not fail. -/
def eventStep (useRaw : Bool) (st : EventState) : EventOp → Option EventState
  | .register this rxOk =>
    if st.free ∧ this ∉ st.registered ∧ st.linked this = false ∧ (rxOk ∨ useRaw) then
      some (ivEventRegister rxOk st this).2
    else none
  | .unregister this =>
    if st.free ∧ this ∈ st.registered then some (ivEventUnregisterUnlink st this) else none
  | .unregisterCount =>
    if st.call = .unregister then some (ivEventUnregisterCount st) else none
  | .postStart t this =>
    if t ∉ st.posting ∧ (∀ p ∈ st.starting, p.1 ≠ t) ∧ this ∈ st.registered then
      some { st with starting := insert (t, this) st.starting }
    else none
  | .post t this =>
    if (t, this) ∈ st.starting then some (postBy t st this) else none
  | .kick t =>
    if t ∈ st.posting then
      (ivEventPostKick useRaw { st with posting := st.posting.erase t }).toOption
    else none
  | .postOwn this =>
    if st.free ∧ this ∈ st.registered then some (postByOwner st this) else none
  | .postTask =>
    if st.call = .post then some (postLocal st) else none
  | .consume n =>
    if st.call = .none ∧ st.pc = .outside ∧ 0 < n ∧ n ≤ st.kicks then
      some { st with kicks := st.kicks - n, pc := .entering }
    else none
  | .steal false ie =>
    if st.pc = .entering ∧ (runPendingSteal st).1 = ie then some (runPendingSteal st).2 else none
  | .steal true ie =>
    -- taking the task off its list and calling its handler is up to the owner alone
    if st.call = .none ∧ st.pc = .outside ∧ st.eventsLocal ∧
        (runPendingSteal (takeLocal st)).1 = ie then
      some (runPendingSteal (takeLocal st)).2
    else none
  | .next ie =>
    if st.call = .none ∧ st.inHandler ∧ (runPendingNext st).1 = ie then
      some (runPendingNext st).2
    else none

/-- The events of one thread, and the threads that post them. -/
def postLts (useRaw : Bool) : Kit.Lts EventState EventOp where
  init := ivEventInit
  step := eventStep useRaw

/-- A list update is for an event that is still registered. -/
def EventState.postsRegistered (st : EventState) : EventOp → Bool
  | .post _ this => decide (this ∈ st.registered)
  | _            => true

/-- The same, if only registered events are put on the list: `iv_event_post` has got as far as the
list update before the event is unregistered. -/
def eventLts (useRaw : Bool) : Kit.Lts EventState EventOp :=
  (postLts useRaw).restrict fun st op => st.postsRegistered op = true

end Ivykis
