import Ivykis.Work.Basic

/-!
# What the steps of a work pool do

`LoopEnd` lists the ways in which the locked part of the loop of `iv_work_thread_got_event` ends,
`WorkStep` what each step of the pool requires and does.
-/

namespace Ivykis

open WorkState

variable {maxThreads : ℤ} {st st' st₁ : WorkState} {op : WorkOp} {thr t : ThreadId}
  {work : WorkPtr} {next : Option WorkPtr} {lastSeq : BitVec 32}

lemma locked_eq_ok {α : Type*} {x : Except Fault α} {a : α} :
    locked st x = .ok a ↔ st.freed = false ∧ x = .ok a := by
  cases hfreed : st.freed <;> simp [locked, hfreed]

lemma ivWorkThreadDie_eq_ok :
    ivWorkThreadDie st thr = .ok st' ↔
      (st.threads thr).kicked = false ∧ thr ∉ st.idleThreads ∧ st' = st.removeThread thr := by
  unfold ivWorkThreadDie
  cases hkicked : (st.threads thr).kicked with
  | true => simp
  | false =>
    by_cases hidle : thr ∈ st.idleThreads
    · simp [hidle]
    · simp [hidle, eq_comm]

lemma registerIdleTimer_eq_ok :
    st.registerIdleTimer thr = .ok st' ↔ (st.threads thr).idleTimer = .unregistered ∧
      st' = st.setThread thr fun t => { t with idleTimer := .registered } := by
  unfold registerIdleTimer
  by_cases htimer : (st.threads thr).idleTimer = .unregistered
  · simp [htimer, eq_comm]
  · simp [htimer]

lemma unregisterIdleTimer_eq_ok :
    st.unregisterIdleTimer thr = .ok st' ↔ (st.threads thr).idleTimer ≠ .unregistered ∧
      st' = st.setThread thr fun t => { t with idleTimer := .unregistered } := by
  unfold unregisterIdleTimer
  by_cases htimer : (st.threads thr).idleTimer = .unregistered
  · simp [htimer]
  · simp [htimer, eq_comm]

/-- A thread has become idle. -/
@[simps]
def WorkState.addIdle (st : WorkState) (thr : ThreadId) : WorkState :=
  { st with
    idleThreads := thr :: st.idleThreads
    threads := Function.update st.threads thr
      { st.threads thr with pc := .loop, idleTimer := .registered } }

/-- A thread is going to look at the queue again. -/
@[simps]
def WorkState.lookAgain (st : WorkState) (thr : ThreadId) : WorkState :=
  { st with
    threads := Function.update st.threads thr
      { st.threads thr with pc := .loop, kickPosted := true } }

/-- How the locked part of the loop of `iv_work_thread_got_event` may end. -/
inductive LoopEnd (st : WorkState) (thr : ThreadId) (lastSeq : BitVec 32) :
    Option WorkPtr → WorkState → Prop
  | take {work : WorkPtr} {items : List WorkPtr} (hseq : 0 < (lastSeq - st.seqHead).toInt)
      (hitems : st.workItems = work :: items) :
      LoopEnd st thr lastSeq (some work) (st.takeItem thr lastSeq work items)
  | idle (hseq : st.seqHead = st.seqTail) (hdown : st.shuttingDown = false) :
      LoopEnd st thr lastSeq none (st.addIdle thr)
  | die (hseq : st.seqHead = st.seqTail) (hdown : st.shuttingDown = true) :
      LoopEnd st thr lastSeq none ((st.setPc thr .loop).removeThread thr)
  | again (hseq : st.seqHead ≠ st.seqTail) :
      LoopEnd st thr lastSeq none (st.lookAgain thr)

lemma gotEventFinish_eq_ok (h : gotEventFinish st thr = .ok st') :
    LoopEnd st thr lastSeq none st' := by
  simp only [gotEventFinish, setPc, setThread_seqHead, setThread_seqTail,
    setThread_shuttingDown] at h
  split_ifs at h with hseq hdown
  · obtain ⟨-, -, rfl⟩ := ivWorkThreadDie_eq_ok.mp h
    exact .die hseq hdown
  · obtain ⟨-, hst⟩ := registerIdleTimer_eq_ok.mp h
    have heq : st' = st.addIdle thr := by
      rw [hst]
      simp [setThread, addIdle]
    rw [heq]
    exact .idle hseq (Bool.not_eq_true _ ▸ hdown)
  · have heq : st' = st.lookAgain thr := by
      rw [← Except.ok.inj h]
      simp [postKick, setThread, lookAgain]
    rw [heq]
    exact .again hseq

lemma gotEventLoop_eq_ok (h : gotEventLoop st thr lastSeq = .ok (next, st')) :
    LoopEnd st thr lastSeq next st' := by
  unfold gotEventLoop at h
  split_ifs at h with hseq
  · split at h
    · exact absurd h (by simp)
    · next work items hitems =>
      simp only [Except.ok.injEq, Prod.mk.injEq] at h
      obtain ⟨rfl, rfl⟩ := h
      exact .take hseq hitems
  · obtain ⟨st₁, h₁, h₂⟩ := bind_eq_ok.mp h
    obtain ⟨rfl, rfl⟩ := Prod.mk.inj (Except.ok.inj h₂)
    exact gotEventFinish_eq_ok h₁

/-! ### The steps -/

/-- The thread `thr` starts to handle its kick. -/
@[simps]
def WorkState.unidle (st : WorkState) (thr : ThreadId) : WorkState :=
  { st with
    idleThreads := st.idleThreads.erase thr
    threads := Function.update st.threads thr
      { st.threads thr with kicked := false, idleTimer := .unregistered } }

/-- The item of a callback that has returned. -/
@[simps]
def WorkState.addDone (st : WorkState) (work : WorkPtr) : WorkState :=
  { st with
    evPosted := st.evPosted || st.workDone.isEmpty
    workDone := st.workDone ++ [work] }

/-- The idle threads are told about the end of the pool. -/
@[simps]
def WorkState.postKicks (st : WorkState) : WorkState :=
  { st with
    shuttingDown := true
    threads := fun t =>
      if t ∈ st.idleThreads then { st.threads t with kickPosted := true } else st.threads t }

/-- The steps of `workStep` that do not fail, with what they require. -/
inductive WorkStep (maxThreads : ℤ) (st : WorkState) : WorkOp → WorkState → Prop
  | submit {work : WorkPtr} {create : Bool} {thr : ThreadId} (hdown : st.shuttingDown = false)
      (hfresh : st.fresh work) (hthr : thr ∉ st.live) (hfreed : st.freed = false) :
      WorkStep maxThreads st (.submit work create thr)
        (wakeForItem maxThreads true create (st.addItem work) thr)
  | submitContinuation {thr : ThreadId} {work : WorkPtr} (hthr : thr ∈ st.live)
      (hpc : (st.threads thr).pc.work.isSome = true) (hdown : st.shuttingDown = false)
      (hfresh : st.fresh work) (hfreed : st.freed = false) :
      WorkStep maxThreads st (.submitContinuation thr work)
        (wakeForItem maxThreads false false (st.addItem work) thr)
  | putLast (hstarted : st.startedThreads = 0) (hfreed : st.freed = false) :
      WorkStep maxThreads st .put { st with shuttingDown := true, evPosted := true }
  | put (hstarted : st.startedThreads ≠ 0) (hfreed : st.freed = false) :
      WorkStep maxThreads st .put st.postKicks
  | event (howner : st.owner = .loop) (hposted : st.evPosted = true) :
      WorkStep maxThreads st .event { st with evPosted := false, owner := .entering }
  | steal (howner : st.owner = .entering) (hfreed : st.freed = false) :
      WorkStep maxThreads st .steal { st with workDone := [], owner := .completing st.workDone }
  | complete {work : WorkPtr} {items : List WorkPtr}
      (howner : st.owner = .completing (work :: items)) :
      WorkStep maxThreads st (.complete work)
        { st with owner := .completing items, completed := work :: st.completed }
  | eventEnd (howner : st.owner = .completing []) (hfreed : st.freed = false) :
      WorkStep maxThreads st .eventEnd { st with owner := .loop }
  | free (howner : st.owner = .completing []) (hfreed : st.freed = false)
      (hdown : st.shuttingDown = true) (hstarted : st.startedThreads = 0)
      (hdone : st.workDone = []) :
      WorkStep maxThreads st .eventEnd
        { st with freed := true, evPosted := false, neededPosted := false, owner := .loop }
  | needed (howner : st.owner = .loop) (hposted : st.neededPosted = true) :
      WorkStep maxThreads st .needed { st with neededPosted := false, owner := .needing }
  | startNeeded {create : Bool} {thr : ThreadId} (howner : st.owner = .needing)
      (hthr : thr ∉ st.live) (hidle : st.idleThreads = [])
      (hstarted : st.startedThreads < maxThreads) (hfreed : st.freed = false) :
      WorkStep maxThreads st (.startNeeded create thr)
        (ivWorkStartThread create { st with owner := .loop } thr)
  | startedEnough {create : Bool} {thr : ThreadId} (howner : st.owner = .needing)
      (hfreed : st.freed = false) :
      WorkStep maxThreads st (.startNeeded create thr) { st with owner := .loop }
  | started {thr : ThreadId} (hthr : thr ∈ st.live) (hpc : (st.threads thr).pc = .starting) :
      WorkStep maxThreads st (.started thr) (st.lookAgain thr)
  | gotEvent {thr : ThreadId} (hthr : thr ∈ st.live) (hpc : (st.threads thr).pc = .loop)
      (hposted : (st.threads thr).kickPosted = true) :
      WorkStep maxThreads st (.gotEvent thr)
        (st.setThread thr fun t => { t with kickPosted := false, pc := .entering })
  | enter {thr : ThreadId} {next : Option WorkPtr} {st' : WorkState} (hthr : thr ∈ st.live)
      (hpc : (st.threads thr).pc = .entering) (hidle : thr ∉ st.idleThreads)
      (hfreed : st.freed = false)
      (hloop : LoopEnd (st.setThread thr fun t => { t with kicked := false }) thr st.seqTail
        next st') :
      WorkStep maxThreads st (.enter thr next) st'
  | enterIdle {thr : ThreadId} {next : Option WorkPtr} {st' : WorkState} (hthr : thr ∈ st.live)
      (hpc : (st.threads thr).pc = .entering) (hidle : thr ∈ st.idleThreads)
      (hfreed : st.freed = false)
      (hloop : LoopEnd (st.unidle thr) thr st.seqTail next st') :
      WorkStep maxThreads st (.enter thr next) st'
  | done {thr : ThreadId} {work : WorkPtr} {lastSeq : BitVec 32} {takenAt : ℕ}
      {next : Option WorkPtr} {st' : WorkState} (hthr : thr ∈ st.live)
      (hpc : (st.threads thr).pc = .running work lastSeq takenAt) (hfreed : st.freed = false)
      (hloop : LoopEnd (st.addDone work) thr lastSeq next st') :
      WorkStep maxThreads st (.done thr work next) st'
  | expire {thr : ThreadId} (hthr : thr ∈ st.live) (hpc : (st.threads thr).pc = .loop)
      (htimer : (st.threads thr).idleTimer = .registered) :
      WorkStep maxThreads st (.expire thr)
        (st.setThread thr fun t => { t with idleTimer := .expired })
  | timeoutKicked {thr : ThreadId} (hthr : thr ∈ st.live) (hpc : (st.threads thr).pc = .loop)
      (htimer : (st.threads thr).idleTimer = .expired)
      (hkicked : (st.threads thr).kicked = true) (hfreed : st.freed = false) :
      WorkStep maxThreads st (.timeout thr)
        (st.setThread thr fun t => { t with idleTimer := .registered })
  | timeout {thr : ThreadId} (hthr : thr ∈ st.live) (hpc : (st.threads thr).pc = .loop)
      (htimer : (st.threads thr).idleTimer = .expired)
      (hkicked : (st.threads thr).kicked = false) (hfreed : st.freed = false) :
      WorkStep maxThreads st (.timeout thr) ((st.unidle thr).removeThread thr)

lemma workLts_step : (workLts maxThreads).step st op = some st' ↔
    workStep maxThreads st op = some (.ok st') := by
  simp only [workLts, Option.bind_eq_some_iff, toOption_eq_some]
  constructor
  · rintro ⟨_, h, rfl⟩
    exact h
  · exact fun h => ⟨_, h, rfl⟩

lemma checkNext_eq_ok {x : Except Fault (Option WorkPtr × WorkState)} :
    checkNext next x = some (.ok st') ↔ x = .ok (next, st') := by
  cases x with
  | error f => simp [checkNext]
  | ok r =>
    obtain ⟨next', st₁⟩ := r
    by_cases hnext : next' = next
    · simp [checkNext, hnext]
    · simp [checkNext, hnext]

lemma foldl_postKick (l : List ThreadId) (st : WorkState) :
    l.foldl postKick st = { st with
      threads := fun t =>
        if t ∈ l then { st.threads t with kickPosted := true } else st.threads t } := by
  induction l generalizing st with
  | nil => simp
  | cons thr l ih =>
    rw [List.foldl_cons, ih]
    have hthreads (t : ThreadId) :
        (if t ∈ l then { (st.postKick thr).threads t with kickPosted := true }
          else (st.postKick thr).threads t) =
        if t ∈ thr :: l then { st.threads t with kickPosted := true } else st.threads t := by
      by_cases ht : t = thr
      · subst ht
        by_cases hl : t ∈ l <;> simp [postKick, hl]
      · by_cases hl : t ∈ l <;> simp [postKick, ht, hl]
    simp only [hthreads]
    rfl

lemma ivWorkPoolPut_eq_ok (h : ivWorkPoolPut st = .ok st') : WorkStep maxThreads st .put st' := by
  obtain ⟨hfreed, h⟩ := locked_eq_ok.mp h
  simp only [foldl_postKick, Except.ok.injEq] at h
  subst h
  split_ifs with hstarted
  · exact .putLast hstarted hfreed
  · exact .put hstarted hfreed

lemma gotEventEnter_eq_ok (hthr : thr ∈ st.live) (hpc : (st.threads thr).pc = .entering)
    (h : gotEventEnter st thr = .ok (next, st')) :
    WorkStep maxThreads st (.enter thr next) st' := by
  obtain ⟨hfreed, h⟩ := locked_eq_ok.mp h
  obtain ⟨st₁, h₁, h₂⟩ := bind_eq_ok.mp h
  unfold leaveIdle at h₁
  split_ifs at h₁ with hidle
  · obtain ⟨-, hst₁⟩ := unregisterIdleTimer_eq_ok.mp h₁
    have heq : st₁ = st.unidle thr := by
      rw [hst₁]
      simp [setThread, unidle]
    rw [heq] at h₂
    exact .enterIdle hthr hpc hidle hfreed (gotEventLoop_eq_ok h₂)
  · obtain rfl := Except.ok.inj h₁
    exact .enter hthr hpc hidle hfreed (gotEventLoop_eq_ok h₂)

lemma ivWorkThreadIdleTimeout_eq_ok (hthr : thr ∈ st.live) (hpc : (st.threads thr).pc = .loop)
    (htimer : (st.threads thr).idleTimer = .expired)
    (h : ivWorkThreadIdleTimeout st thr = .ok st') :
    WorkStep maxThreads st (.timeout thr) st' := by
  obtain ⟨hfreed, h⟩ := locked_eq_ok.mp h
  simp only [setThread_threads, Function.update_self] at h
  split_ifs at h with hkicked
  · obtain ⟨-, hst'⟩ := registerIdleTimer_eq_ok.mp h
    have heq : st' = st.setThread thr fun t => { t with idleTimer := .registered } := by
      rw [hst']
      simp [setThread]
    rw [heq]
    exact .timeoutKicked hthr hpc htimer (by simpa using hkicked) hfreed
  · obtain ⟨-, -, hst'⟩ := ivWorkThreadDie_eq_ok.mp h
    have hkicked : (st.threads thr).kicked = false := by simpa using hkicked
    have heq : st' = (st.unidle thr).removeThread thr := by
      rw [hst']
      simp [setThread, unidle, removeThread, hkicked]
    rw [heq]
    exact .timeout hthr hpc htimer hkicked hfreed

lemma WorkStep.of_step (h : (workLts maxThreads).step st op = some st') :
    WorkStep maxThreads st op st' := by
  rw [workLts_step] at h
  cases op with
  | submit work create thr =>
    simp only [workStep, Option.ite_none_right_eq_some, Option.some.injEq] at h
    obtain ⟨⟨-, hdown, hfresh, hthr⟩, h⟩ := h
    obtain ⟨hfreed, h⟩ := locked_eq_ok.mp h
    obtain rfl := Except.ok.inj h
    exact .submit (Bool.not_eq_true _ ▸ hdown) hfresh hthr hfreed
  | submitContinuation thr work =>
    simp only [workStep, Option.ite_none_right_eq_some, Option.some.injEq] at h
    obtain ⟨⟨hthr, hpc, hdown, hfresh⟩, h⟩ := h
    obtain ⟨hfreed, h⟩ := locked_eq_ok.mp h
    obtain rfl := Except.ok.inj h
    exact .submitContinuation hthr hpc (Bool.not_eq_true _ ▸ hdown) hfresh hfreed
  | put =>
    simp only [workStep, Option.ite_none_right_eq_some, Option.some.injEq] at h
    exact ivWorkPoolPut_eq_ok h.2
  | event =>
    simp only [workStep, Option.ite_none_right_eq_some, Option.some.injEq, Except.ok.injEq] at h
    obtain ⟨⟨howner, hposted⟩, rfl⟩ := h
    exact .event howner hposted
  | steal =>
    simp only [workStep, Option.ite_none_right_eq_some, Option.some.injEq] at h
    obtain ⟨howner, h⟩ := h
    obtain ⟨hfreed, h⟩ := locked_eq_ok.mp h
    obtain rfl := Except.ok.inj h
    exact .steal howner hfreed
  | complete work =>
    simp only [workStep] at h
    split at h
    · next work' items howner =>
      split_ifs at h with hwork
      subst hwork
      obtain rfl := Except.ok.inj (Option.some.inj h)
      exact .complete howner
    · exact absurd h (by simp)
  | eventEnd =>
    simp only [workStep, Option.ite_none_right_eq_some, Option.some.injEq] at h
    obtain ⟨howner, h⟩ := h
    obtain ⟨hfreed, h⟩ := locked_eq_ok.mp h
    obtain rfl := Except.ok.inj h
    split_ifs with hend
    · exact .free howner hfreed hend.1 hend.2.1 hend.2.2
    · exact .eventEnd howner hfreed
  | needed =>
    simp only [workStep, Option.ite_none_right_eq_some, Option.some.injEq, Except.ok.injEq] at h
    obtain ⟨⟨howner, hposted⟩, rfl⟩ := h
    exact .needed howner hposted
  | startNeeded create thr =>
    simp only [workStep, Option.ite_none_right_eq_some, Option.some.injEq] at h
    obtain ⟨⟨howner, hthr⟩, h⟩ := h
    obtain ⟨hfreed, h⟩ := locked_eq_ok.mp h
    obtain rfl := Except.ok.inj h
    split_ifs with hneed
    · exact .startNeeded howner hthr hneed.1 hneed.2 hfreed
    · exact .startedEnough howner hfreed
  | started thr =>
    simp only [workStep, Option.ite_none_right_eq_some, Option.some.injEq, Except.ok.injEq] at h
    obtain ⟨⟨hthr, hpc⟩, h⟩ := h
    have heq : st' = st.lookAgain thr := by
      rw [← h]
      simp [setPc, postKick, setThread, lookAgain]
    rw [heq]
    exact .started hthr hpc
  | gotEvent thr =>
    simp only [workStep, Option.ite_none_right_eq_some, Option.some.injEq, Except.ok.injEq] at h
    obtain ⟨⟨hthr, hpc, hposted, -⟩, rfl⟩ := h
    exact .gotEvent hthr hpc hposted
  | enter thr next =>
    simp only [workStep, Option.ite_none_right_eq_some, checkNext_eq_ok] at h
    exact gotEventEnter_eq_ok h.1.1 h.1.2 h.2
  | done thr work next =>
    simp only [workStep] at h
    split at h
    · next work' lastSeq takenAt hpc =>
      simp only [Option.ite_none_right_eq_some, checkNext_eq_ok] at h
      obtain ⟨⟨hthr, rfl⟩, h⟩ := h
      obtain ⟨hfreed, h⟩ := locked_eq_ok.mp h
      exact .done hthr hpc hfreed (gotEventLoop_eq_ok h)
    · exact absurd h (by simp)
  | expire thr =>
    simp only [workStep, Option.ite_none_right_eq_some, Option.some.injEq, Except.ok.injEq] at h
    obtain ⟨⟨hthr, hpc, htimer⟩, rfl⟩ := h
    exact .expire hthr hpc htimer
  | timeout thr =>
    simp only [workStep, Option.ite_none_right_eq_some, Option.some.injEq] at h
    obtain ⟨⟨hthr, hpc, htimer⟩, h⟩ := h
    exact ivWorkThreadIdleTimeout_eq_ok hthr hpc htimer h

end Ivykis
