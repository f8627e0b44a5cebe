import Mathlib.Algebra.BigOperators.Group.Finset.Basic
import Mathlib.Data.Finset.Card
import Mathlib.Tactic.Simps.Basic
import Ivykis.Basic
import Ivykis.Kit.Lts

/-!
# Work pools (`iv_work.c`)

One pool, its owner thread and its worker threads. The pool is protected by a lock; one step of the
model is what a thread does from taking the lock to releasing it, or the start of an event or timer
handler. Posting an event marks it as posted until its handler is called.
-/

namespace Ivykis

/-- One submission of a `struct iv_work_item`. -/
abbrev WorkPtr := ℕ

/-- The state of a timer as its thread sees it. -/
inductive IdleTimer where
  | unregistered
  | registered
  /-- Its handler is about to be called, or has been and waits for the lock. -/
  | expired
  deriving DecidableEq, Repr

/-- Where a worker thread is. -/
inductive WorkPc where
  /-- `iv_work_thread` has not posted its own kick yet. -/
  | starting
  /-- In `iv_main`, outside of the handlers of the pool. -/
  | loop
  /-- `iv_work_thread_got_event` has been called and waits for the lock. -/
  | entering
  /-- `iv_work_thread_got_event` is calling `work->work`. `takenAt` only records how many items
  had been taken from the queue when the call was made. -/
  | running (work : WorkPtr) (lastSeq : BitVec 32) (takenAt : ℕ)
  deriving DecidableEq, Repr

/-- The item a thread is working on. -/
def WorkPc.work : WorkPc → Option WorkPtr
  | .running work _ _ => some work
  | _                 => none

/-- `struct work_pool_thread`. -/
structure WorkThread where
  kicked     : Bool
  /-- The event `kick` has been posted and its handler has not been called. -/
  kickPosted : Bool
  idleTimer  : IdleTimer
  pc         : WorkPc
  deriving DecidableEq, Repr

/-- Where the owner is. -/
inductive WorkOwner where
  /-- Outside of the handlers of the pool. -/
  | loop
  /-- `iv_work_event` has been called and waits for the lock. -/
  | entering
  /-- In the loop of `iv_work_event`, with the rest of the stolen list. -/
  | completing (items : List WorkPtr)
  /-- `iv_work_thread_needed` has been called and waits for the lock. -/
  | needing
  deriving DecidableEq, Repr

/-- `struct work_pool_priv`, its threads and its owner. -/
structure WorkState where
  shuttingDown   : Bool
  startedThreads : ℤ
  idleThreads    : List ThreadId
  seqHead        : BitVec 32
  seqTail        : BitVec 32
  workItems      : List WorkPtr
  workDone       : List WorkPtr
  /-- The event `ev` has been posted and its handler has not been called. -/
  evPosted       : Bool
  /-- The same for `thread_needed`. -/
  neededPosted   : Bool
  freed          : Bool
  /-- The threads that exist, from `iv_work_start_thread` to `__iv_work_thread_die`. -/
  live           : Finset ThreadId
  threads        : ThreadId → WorkThread
  owner          : WorkOwner
  /-- The items whose completion has been called, for the record. -/
  completed      : List WorkPtr
  /-- The number of items that have been taken from the queue, for the record. -/
  taken          : ℕ

namespace WorkState

/-- The list `items` of `iv_work_event`. -/
def stolen (st : WorkState) : List WorkPtr :=
  match st.owner with
  | .completing items => items
  | _                 => []

@[simps]
def setThread (st : WorkState) (thr : ThreadId) (f : WorkThread → WorkThread) : WorkState :=
  { st with threads := Function.update st.threads thr (f (st.threads thr)) }

/-- `iv_event_post(&thr->kick)`. -/
def postKick (st : WorkState) (thr : ThreadId) : WorkState :=
  st.setThread thr fun t => { t with kickPosted := true }

def setPc (st : WorkState) (thr : ThreadId) (pc : WorkPc) : WorkState :=
  st.setThread thr fun t => { t with pc := pc }

/-- A thread is gone. The last one posts `ev` if the pool is being shut down. -/
@[simps]
def removeThread (st : WorkState) (thr : ThreadId) : WorkState :=
  { st with
    live := st.live.erase thr
    startedThreads := st.startedThreads - 1
    evPosted := st.evPosted || (st.shuttingDown && st.startedThreads - 1 == 0) }

/-- The first item is taken from the queue, for `thr` to work on. -/
@[simps]
def takeItem (st : WorkState) (thr : ThreadId) (lastSeq : BitVec 32) (work : WorkPtr)
    (items : List WorkPtr) : WorkState :=
  { st with
    seqHead := st.seqHead + 1
    workItems := items
    taken := st.taken + 1
    threads := Function.update st.threads thr
      { st.threads thr with pc := .running work lastSeq (st.taken + 1) } }

/-- `iv_timer_register(&thr->idle_timer)`. -/
def registerIdleTimer (st : WorkState) (thr : ThreadId) : Except Fault WorkState :=
  if (st.threads thr).idleTimer ≠ .unregistered then
    .error (.fatal "iv_timer_register: called with timer still on the heap")
  else .ok (st.setThread thr fun t => { t with idleTimer := .registered })

/-- `iv_timer_unregister(&thr->idle_timer)`. -/
def unregisterIdleTimer (st : WorkState) (thr : ThreadId) : Except Fault WorkState :=
  if (st.threads thr).idleTimer = .unregistered then
    .error (.fatal "iv_timer_unregister: called with timer not on the heap")
  else .ok (st.setThread thr fun t => { t with idleTimer := .unregistered })

/-- The lock of a pool that has been freed cannot be taken. -/
def locked {α : Type*} (st : WorkState) (x : Except Fault α) : Except Fault α :=
  if st.freed then .error .invalidAccess else x

end WorkState

open WorkState

/-! ### Worker threads -/

/-- `__iv_work_thread_die`. -/
def ivWorkThreadDie (st : WorkState) (thr : ThreadId) : Except Fault WorkState :=
  if (st.threads thr).kicked then
    .error (.fatal "__iv_work_thread_die: called on kicked thread")
  else if thr ∈ st.idleThreads then
    .error (.fatal "__iv_work_thread_die: thread still on list")
  else .ok (st.removeThread thr)

/-- What `iv_work_thread_got_event` does after its loop. -/
def gotEventFinish (st : WorkState) (thr : ThreadId) : Except Fault WorkState :=
  let st := st.setPc thr .loop
  if st.seqHead = st.seqTail then
    if st.shuttingDown then ivWorkThreadDie st thr
    else registerIdleTimer { st with idleThreads := thr :: st.idleThreads } thr
  else .ok (st.postKick thr)

/-- The test of the loop of `iv_work_thread_got_event`, with what follows it while the lock is
held: either an item is taken, to be worked on next, or the handler returns. -/
def gotEventLoop (st : WorkState) (thr : ThreadId) (lastSeq : BitVec 32) :
    Except Fault (Option WorkPtr × WorkState) :=
  if 0 < (lastSeq - st.seqHead).toInt then
    match st.workItems with
    | []            => .error .invalidAccess
    | work :: items => .ok (some work, st.takeItem thr lastSeq work items)
  else do
    let st ← gotEventFinish st thr
    return (none, st)

/-- A thread that is idle leaves the list of idle threads. -/
def leaveIdle (st : WorkState) (thr : ThreadId) : Except Fault WorkState :=
  if thr ∈ st.idleThreads then
    unregisterIdleTimer { st with idleThreads := st.idleThreads.erase thr } thr
  else .ok st

/-- `iv_work_thread_got_event` from taking the lock to the first call of `work->work`. -/
def gotEventEnter (st : WorkState) (thr : ThreadId) : Except Fault (Option WorkPtr × WorkState) :=
  locked st do
    let st ← leaveIdle (st.setThread thr fun t => { t with kicked := false }) thr
    gotEventLoop st thr st.seqTail

/-- `iv_work_thread_got_event` from the return of `work->work` to its next call. -/
def gotEventDone (st : WorkState) (thr : ThreadId) (work : WorkPtr) (lastSeq : BitVec 32) :
    Except Fault (Option WorkPtr × WorkState) :=
  locked st do
    let st := { st with
      evPosted := st.evPosted || st.workDone.isEmpty
      workDone := st.workDone ++ [work] }
    gotEventLoop st thr lastSeq

/-- `iv_work_thread_idle_timeout`. -/
def ivWorkThreadIdleTimeout (st : WorkState) (thr : ThreadId) : Except Fault WorkState :=
  locked st do
    -- the timer is not registered any more when its handler is called
    let st := st.setThread thr fun t => { t with idleTimer := .unregistered }
    if (st.threads thr).kicked then st.registerIdleTimer thr
    else ivWorkThreadDie { st with idleThreads := st.idleThreads.erase thr } thr

/-! ### The owner -/

/-- The thread `thr` is created. -/
@[simps]
def WorkState.addThread (st : WorkState) (thr : ThreadId) : WorkState :=
  { st with
    live := insert thr st.live
    threads := Function.update st.threads thr
      { kicked := false, kickPosted := false, idleTimer := .unregistered, pc := .starting }
    startedThreads := st.startedThreads + 1 }

/-- `iv_work_start_thread`; `create` says whether the thread `thr` can be created. -/
def ivWorkStartThread (create : Bool) (st : WorkState) (thr : ThreadId) : WorkState :=
  if create then st.addThread thr else st

/-- The locked section of `iv_work_event`. -/
def workEventSteal (st : WorkState) : Except Fault WorkState :=
  locked st (.ok { st with workDone := [], owner := .completing st.workDone })

/-- What `iv_work_event` does after its loop. -/
def workEventEnd (st : WorkState) : Except Fault WorkState :=
  locked st <| .ok <|
    if st.shuttingDown ∧ st.startedThreads = 0 ∧ st.workDone = [] then
      { st with freed := true, evPosted := false, neededPosted := false, owner := .loop }
    else { st with owner := .loop }

/-- The locked section of `iv_work_thread_needed`. -/
def ivWorkThreadNeeded (maxThreads : ℤ) (create : Bool) (st : WorkState) (thr : ThreadId) :
    Except Fault WorkState :=
  let st := { st with owner := .loop }
  locked st <| .ok <|
    if st.idleThreads = [] ∧ st.startedThreads < maxThreads then ivWorkStartThread create st thr
    else st

/-- `iv_work_pool_create`. -/
def ivWorkPoolCreate : WorkState where
  shuttingDown   := false
  startedThreads := 0
  idleThreads    := []
  seqHead        := 0
  seqTail        := 0
  workItems      := []
  workDone       := []
  evPosted       := false
  neededPosted   := false
  freed          := false
  live           := ∅
  threads        := fun _ =>
    { kicked := false, kickPosted := false, idleTimer := .unregistered, pc := .starting }
  owner          := .loop
  completed      := []
  taken          := 0

/-- `iv_work_pool_put`. -/
def ivWorkPoolPut (st : WorkState) : Except Fault WorkState :=
  locked st <|
    let st := { st with shuttingDown := true }
    .ok <|
      if st.startedThreads = 0 then { st with evPosted := true }
      else st.idleThreads.foldl postKick st

/-- The queue gets another item. -/
@[simps]
def WorkState.addItem (st : WorkState) (work : WorkPtr) : WorkState :=
  { st with
    seqTail := st.seqTail + 1
    workItems := st.workItems ++ [work] }

/-- Somebody is told about a new item. -/
def wakeForItem (maxThreads : ℤ) (fromOwner create : Bool) (st : WorkState) (thr : ThreadId) :
    WorkState :=
  match st.idleThreads with
  | idle :: _ => st.setThread idle fun t => { t with kicked := true, kickPosted := true }
  | [] =>
    if st.startedThreads < maxThreads then
      if fromOwner then ivWorkStartThread create st thr
      else { st with neededPosted := true }
    else st

/-- `iv_work_submit_pool`; the thread `thr` is created if need be and if `create` allows it. -/
def ivWorkSubmitPool (maxThreads : ℤ) (continuation fromOwner create : Bool) (st : WorkState)
    (work : WorkPtr) (thr : ThreadId) : Except Fault WorkState :=
  if !continuation && !fromOwner then
    .error (.fatal "iv_work_submit_pool: work items can only be submitted from the owning thread")
  else
    locked st (.ok (wakeForItem maxThreads fromOwner create (st.addItem work) thr))

/-! ### Runs -/

/-- One step of the owner or of a worker thread. -/
inductive WorkOp where
  /-- `iv_work_pool_submit_work` in the owner. -/
  | submit (work : WorkPtr) (create : Bool) (thr : ThreadId)
  /-- `iv_work_pool_submit_continuation` in the callback that `thr` is running. -/
  | submitContinuation (thr : ThreadId) (work : WorkPtr)
  | put
  /-- `iv_work_event` is called. -/
  | event
  | steal
  /-- The completion of an item is called. -/
  | complete (work : WorkPtr)
  | eventEnd
  /-- `iv_work_thread_needed` is called. -/
  | needed
  | startNeeded (create : Bool) (thr : ThreadId)
  /-- `iv_work_thread` posts its own kick. -/
  | started (thr : ThreadId)
  /-- `iv_work_thread_got_event` is called. -/
  | gotEvent (thr : ThreadId)
  /-- It takes the lock. `next` is the item that it works on first. -/
  | enter (thr : ThreadId) (next : Option WorkPtr)
  /-- The callback of `work` returns. `next` is the item that is worked on next. -/
  | done (thr : ThreadId) (work : WorkPtr) (next : Option WorkPtr)
  | expire (thr : ThreadId)
  | timeout (thr : ThreadId)
  deriving DecidableEq, Repr

/-- The submission has not been made before. -/
def WorkState.fresh (st : WorkState) (work : WorkPtr) : Prop :=
  work ∉ st.workItems ∧ work ∉ st.workDone ∧ work ∉ st.stolen ∧ work ∉ st.completed ∧
    ∀ thr ∈ st.live, (st.threads thr).pc.work ≠ some work

instance (st : WorkState) (work : WorkPtr) : Decidable (st.fresh work) :=
  inferInstanceAs (Decidable (_ ∧ _ ∧ _ ∧ _ ∧ ∀ thr ∈ st.live, _))

/-- The owner runs user code: it is outside of the pool's handlers or in a completion. -/
def WorkOwner.inUserCode : WorkOwner → Bool
  | .loop         => true
  | .completing _ => true
  | _             => false

/-- The result of a step that says which item is worked on next. -/
def checkNext (next : Option WorkPtr) :
    Except Fault (Option WorkPtr × WorkState) → Option (Except Fault WorkState)
  | .ok (next', st) => if next' = next then some (.ok st) else none
  | .error f        => some (.error f)

/-- One step, if it can be taken at all, and its outcome. -/
def workStep (maxThreads : ℤ) (st : WorkState) : WorkOp → Option (Except Fault WorkState)
  | .submit work create thr =>
    -- `this->priv` is `NULL` after `iv_work_pool_put`
    if st.owner.inUserCode ∧ ¬ st.shuttingDown ∧ st.fresh work ∧ thr ∉ st.live then
      some (ivWorkSubmitPool maxThreads false true create st work thr)
    else none
  | .submitContinuation thr work =>
    if thr ∈ st.live ∧ (st.threads thr).pc.work.isSome ∧ ¬ st.shuttingDown ∧ st.fresh work then
      some (ivWorkSubmitPool maxThreads true false false st work thr)
    else none
  | .put =>
    if st.owner.inUserCode ∧ ¬ st.shuttingDown then some (ivWorkPoolPut st) else none
  | .event =>
    if st.owner = .loop ∧ st.evPosted then
      some (.ok { st with evPosted := false, owner := .entering })
    else none
  | .steal =>
    if st.owner = .entering then some (workEventSteal st) else none
  | .complete work =>
    match st.owner with
    | .completing (work' :: items) =>
      if work' = work then
        some (.ok { st with owner := .completing items, completed := work :: st.completed })
      else none
    | _ => none
  | .eventEnd =>
    if st.owner = .completing [] then some (workEventEnd st) else none
  | .needed =>
    if st.owner = .loop ∧ st.neededPosted then
      some (.ok { st with neededPosted := false, owner := .needing })
    else none
  | .startNeeded create thr =>
    if st.owner = .needing ∧ thr ∉ st.live then
      some (ivWorkThreadNeeded maxThreads create st thr)
    else none
  | .started thr =>
    if thr ∈ st.live ∧ (st.threads thr).pc = .starting then
      some (.ok ((st.setPc thr .loop).postKick thr))
    else none
  | .gotEvent thr =>
    -- a thread calls the handlers of all expired timers before it looks for events
    if thr ∈ st.live ∧ (st.threads thr).pc = .loop ∧ (st.threads thr).kickPosted ∧
        (st.threads thr).idleTimer ≠ .expired then
      some (.ok (st.setThread thr fun t => { t with kickPosted := false, pc := .entering }))
    else none
  | .enter thr next =>
    if thr ∈ st.live ∧ (st.threads thr).pc = .entering then
      checkNext next (gotEventEnter st thr)
    else none
  | .done thr work next =>
    match (st.threads thr).pc with
    | .running work' lastSeq _ =>
      if thr ∈ st.live ∧ work' = work then checkNext next (gotEventDone st thr work lastSeq)
      else none
    | _ => none
  | .expire thr =>
    if thr ∈ st.live ∧ (st.threads thr).pc = .loop ∧
        (st.threads thr).idleTimer = .registered then
      some (.ok (st.setThread thr fun t => { t with idleTimer := .expired }))
    else none
  | .timeout thr =>
    if thr ∈ st.live ∧ (st.threads thr).pc = .loop ∧ (st.threads thr).idleTimer = .expired then
      some (ivWorkThreadIdleTimeout st thr)
    else none

/-- A pool of at most `maxThreads` threads. -/
def workLts (maxThreads : ℤ) : Kit.Lts WorkState WorkOp where
  init := ivWorkPoolCreate
  step := fun st op => (workStep maxThreads st op).bind Except.toOption

end Ivykis
