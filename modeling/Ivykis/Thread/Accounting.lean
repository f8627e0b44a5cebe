import Ivykis.Thread.Pollers

/-!
# Object accounting

`numobjs` is what is registered: descriptors, timers on the heap, tasks on either list, events, and
the receiver of the poll method while it is enabled. So `iv_main` returns at its exit check, unless
it has been told to quit, exactly when nothing is registered.
-/

namespace Ivykis

variable {μ κ : Type}

namespace ThreadState

/-- What `numobjs` should be. -/
def objects (s : ThreadState μ) : ℤ :=
  s.fd.numfds + s.timer.st.numTimers
    + (s.task.st.current.length + s.task.st.tasks.length : ℕ) + s.eventCount
    + s.eventRxOn.toNat

/-- The parts are in order, and everything is counted. -/
structure Counted (s : ThreadState μ) : Prop where
  fds    : FdCount s.fd s.fdRegs
  timer  : s.timer.Ok
  task   : s.task.Ok
  events : s.eventCount = s.eventRegs.card
  count  : s.numobjs = s.objects

/-- The poll method's receiver is on only while there are events, and while it is the one to be
used. -/
def RxOk (mt : Bool) (s : ThreadState μ) : Prop :=
  s.eventRxOn = true → mt = true ∧ s.useEventRaw = false ∧ 0 < s.eventCount

section Parts

variable {m : PollMethod μ} {s s' : ThreadState μ}

lemma Counted.fdOp {op : FdOp} (h : s.Counted) (hs : s.fdOp m op = some s') : s'.Counted := by
  obtain ⟨fd, hstep, rfl⟩ := Option.map_eq_some_iff.mp hs
  have hstep := FdStep.of_step hstep
  have hfds : FdCount { s.fd with numobjs := s.numobjs } s.fdRegs := ⟨h.fds.mem_iff, h.fds.numfds⟩
  refine ⟨hfds.step hstep, h.timer, h.task, h.events, ?_⟩
  have hcount := h.count
  have hnumobjs : fd.numobjs - fd.numfds = s.numobjs - s.fd.numfds := hstep.outcome.numobjs_sub
  simp only [objects] at hcount ⊢
  omega

lemma Counted.timerStep {a : TimerLabel} (h : s.Counted) (hs : s.timerStep a = some s') :
    s'.Counted := by
  obtain ⟨t, hstep, rfl⟩ := Option.map_eq_some_iff.mp hs
  have hstep := TimerLoopStep.of_step hstep
  have hok : TimerLoop.Ok { s.timer with st := { s.timer.st with numobjs := s.numobjs } } :=
    ⟨h.timer.timers.of_same _ _ _, h.timer.outside⟩
  refine ⟨h.fds, hstep.ok hok, h.task, h.events, ?_⟩
  have hcount := h.count
  have hnumobjs := hstep.numobjs hok
  simp only [objects] at hcount hnumobjs ⊢
  omega

lemma Counted.taskStep {a : TaskLabel} (h : s.Counted) (hs : s.taskStep a = some s') :
    s'.Counted := by
  obtain ⟨t, hstep, rfl⟩ := Option.map_eq_some_iff.mp hs
  have hstep := TaskLoopStep.of_step hstep
  have hok : TaskLoop.Ok { s.task with st := { s.task.st with numobjs := s.numobjs } } :=
    ⟨h.task.nodup, h.task.inited, h.task.current, h.task.epoch⟩
  refine ⟨h.fds, h.timer, hstep.ok hok, h.events, ?_⟩
  have hcount := h.count
  have hnumobjs : t.st.numobjs - (t.st.current.length + t.st.tasks.length : ℕ)
      = s.numobjs - (s.task.st.current.length + s.task.st.tasks.length : ℕ) := hstep.numobjs hok
  simp only [objects] at hcount ⊢
  omega

lemma Counted.countEvent {this : EventPtr} (h : s.Counted) (ht : this ∉ s.eventRegs) :
    (s.countEvent this).Counted := by
  refine ⟨h.fds, h.timer, h.task, ?_, ?_⟩
  · simp [Finset.card_insert_of_notMem ht, h.events]
  · have hcount := h.count
    simp only [objects, ThreadState.countEvent] at hcount ⊢
    push_cast
    omega

lemma Counted.uncountEvent {this : EventPtr} (h : s.Counted) (ht : this ∈ s.eventRegs) :
    (s.uncountEvent this).Counted := by
  have hpos : 0 < s.eventCount := by
    rw [h.events]
    exact Finset.card_pos.mpr ⟨this, ht⟩
  refine ⟨h.fds, h.timer, h.task, ?_, ?_⟩
  · simp [Finset.card_erase_of_mem ht, h.events]
  · have hcount := h.count
    simp only [objects, ThreadState.uncountEvent] at hcount ⊢
    omega

lemma Counted.rxTurnOn (h : s.Counted) (hrx : s.eventRxOn = false) : s.rxTurnOn.Counted := by
  refine ⟨h.fds, h.timer, h.task, h.events, ?_⟩
  have hcount := h.count
  simp only [objects, ThreadState.rxTurnOn, hrx, Bool.toNat_true, Bool.toNat_false] at hcount ⊢
  omega

lemma Counted.rxTurnOff (h : s.Counted) (hs : s.rxTurnOff = some s') : s'.Counted := by
  simp only [ThreadState.rxTurnOff, Option.ite_none_right_eq_some, Option.some.injEq] at hs
  obtain ⟨hrx, rfl⟩ := hs
  refine ⟨h.fds, h.timer, h.task, h.events, ?_⟩
  have hcount := h.count
  simp only [objects, hrx, Bool.toNat_true, Bool.toNat_false] at hcount ⊢
  omega

/-- What has nothing to do with counting may change. -/
lemma Counted.of_same (h : s.Counted) (hfd : SameCounts { s.fd with numobjs := s.numobjs } s'.fd)
    (hnumobjs : s'.numobjs = s'.fd.numobjs) (htimer : s'.timer = s.timer)
    (htask : s'.task = s.task) (hevent : s'.eventCount = s.eventCount)
    (hrx : s'.eventRxOn = s.eventRxOn) (hfdRegs : s'.fdRegs = s.fdRegs)
    (heventRegs : s'.eventRegs = s.eventRegs) : s'.Counted := by
  refine ⟨⟨fun p => ?_, ?_⟩, htimer ▸ h.timer, htask ▸ h.task, ?_, ?_⟩
  · rw [hfdRegs, hfd.registered]
    exact h.fds.mem_iff p
  · rw [hfdRegs, hfd.numfds]
    exact h.fds.numfds
  · rw [hevent, heventRegs]
    exact h.events
  · rw [hnumobjs, hfd.numobjs, objects, hfd.numfds, htimer, htask, hevent, hrx]
    exact h.count

end Parts

/-! ### The receiver -/

section Receiver

variable {m : PollMethod μ} {s s' : ThreadState μ} {mt : Bool} {this : EventPtr}

/-- What a call about a descriptor leaves alone. -/
structure FdOnly (s s' : ThreadState μ) : Prop where
  timer       : s'.timer = s.timer
  task        : s'.task = s.task
  eventCount  : s'.eventCount = s.eventCount
  eventRxOn   : s'.eventRxOn = s.eventRxOn
  useEventRaw : s'.useEventRaw = s.useEventRaw
  pc          : s'.pc = s.pc

lemma fdOp_only {op : FdOp} (hs : s.fdOp m op = some s') : FdOnly s s' := by
  obtain ⟨fd, -, rfl⟩ := Option.map_eq_some_iff.mp hs
  exact ⟨rfl, rfl, rfl, rfl, rfl, rfl⟩

/-- `iv_event_raw_register` is two calls about a descriptor. -/
lemma Counted.rawRegister {num : Option ℤ} (h : s.Counted) (hs : s.rawRegister m num = some s') :
    s'.Counted ∧ FdOnly s s' := by
  simp only [ThreadState.rawRegister, Option.bind_eq_bind, Option.bind_eq_some_iff] at hs
  obtain ⟨n, -, s₁, h₁, h₂⟩ := hs
  have hs₁ := fdOp_only h₁
  have hs₂ := fdOp_only h₂
  exact ⟨(h.fdOp h₁).fdOp h₂, hs₂.timer.trans hs₁.timer, hs₂.task.trans hs₁.task,
    hs₂.eventCount.trans hs₁.eventCount, hs₂.eventRxOn.trans hs₁.eventRxOn,
    hs₂.useEventRaw.trans hs₁.useEventRaw, hs₂.pc.trans hs₁.pc⟩

/-- Everything is counted, and the parts are where `iv_main` is. -/
structure Ok (mt : Bool) (s : ThreadState μ) : Prop extends s.Counted where
  rx      : s.RxOk mt
  timerPc : s.pc ≠ .timers → s.timer.pc = .outside
  taskPc  : s.pc ≠ .tasks → s.task.pc = .outside

/-- A step that does not move the thread along. -/
lemma Ok.of_counted (h : s.Ok mt) (hcounted : s'.Counted) (hrx : s'.RxOk mt) (hpc : s'.pc = s.pc)
    (htimer : s'.timer.pc = s.timer.pc) (htask : s'.task.pc = s.task.pc) : s'.Ok mt where
  toCounted := hcounted
  rx := hrx
  timerPc h' := htimer.trans (h.timerPc (hpc ▸ h'))
  taskPc h' := htask.trans (h.taskPc (hpc ▸ h'))

lemma Ok.of_fdOnly {s₁ : ThreadState μ} (h : s.Ok mt) (hsame : FdOnly s₁ s')
    (hcounted : s'.Counted) (hs₁ : s₁.pc = s.pc ∧ s₁.timer = s.timer ∧ s₁.task = s.task)
    (hrx : s₁.RxOk mt) : s'.Ok mt := by
  refine h.of_counted hcounted (fun hon => ?_) (hsame.pc.trans hs₁.1)
    (congrArg TimerLoop.pc (hsame.timer.trans hs₁.2.1))
    (congrArg TaskLoop.pc (hsame.task.trans hs₁.2.2))
  rw [hsame.useEventRaw, hsame.eventCount]
  exact hrx (hsame.eventRxOn ▸ hon)

lemma Ok.fdOp {op : FdOp} (h : s.Ok mt) (hs : s.fdOp m op = some s') : s'.Ok mt :=
  h.of_fdOnly (fdOp_only hs) (h.toCounted.fdOp hs) ⟨rfl, rfl, rfl⟩ h.rx

lemma Ok.ivEventRegister {rxOk : Bool} {num : Option ℤ} (h : s.Ok mt) (ht : this ∉ s.eventRegs)
    (hs : s.ivEventRegister mt m this rxOk num = some s') : s'.Ok mt := by
  have hcount := h.toCounted.countEvent ht
  simp only [ThreadState.ivEventRegister] at hs
  split_ifs at hs with hfirst
  · -- the first event: the receiver is off
    have hrx : s.eventRxOn = false := by
      by_contra hon
      have := (h.rx (by simpa using hon)).2.2
      omega
    simp only [enableRx, countEvent_useEventRaw] at hs
    split_ifs at hs with hraw
    · obtain ⟨hcount', hsame⟩ := hcount.rawRegister hs
      exact h.of_fdOnly hsame hcount' ⟨rfl, rfl, rfl⟩ fun hon => by simp [hrx] at hon
    · obtain rfl := Option.some.inj hs
      exact h.of_counted (hcount.rxTurnOn hrx)
        (fun _ => ⟨hfirst.2, by simpa using hraw, Nat.succ_pos _⟩) rfl rfl rfl
    · have hcount₁ : ThreadState.Counted { s.countEvent this with useEventRaw := true } :=
        ⟨hcount.fds, hcount.timer, hcount.task, hcount.events, hcount.count⟩
      obtain ⟨hcount', hsame⟩ := hcount₁.rawRegister hs
      exact h.of_fdOnly hsame hcount' ⟨rfl, rfl, rfl⟩ fun hon => by simp [hrx] at hon
  · obtain rfl := Option.some.inj hs
    exact h.of_counted hcount (fun hon => ⟨(h.rx hon).1, (h.rx hon).2.1, Nat.succ_pos _⟩) rfl rfl
      rfl

lemma Ok.ivEventUnregister {refused : Bool} (h : s.Ok mt) (ht : this ∈ s.eventRegs)
    (hs : s.ivEventUnregister mt m this refused = some s') : s'.Ok mt := by
  have hcount := h.toCounted.uncountEvent ht
  simp only [ThreadState.ivEventUnregister] at hs
  split_ifs at hs with hlast
  · simp only [disableRx, uncountEvent_useEventRaw] at hs
    split_ifs at hs with hraw
    · refine h.of_fdOnly (fdOp_only hs) (hcount.fdOp hs) ⟨rfl, rfl, rfl⟩ fun hon => ?_
      have := (h.rx hon).2.1
      simp [hraw] at this
    · have hcount' := hcount.rxTurnOff hs
      simp only [ThreadState.rxTurnOff, Option.ite_none_right_eq_some, Option.some.injEq] at hs
      obtain ⟨-, rfl⟩ := hs
      exact h.of_counted hcount' nofun rfl rfl rfl
  · obtain rfl := Option.some.inj hs
    refine h.of_counted hcount (fun hon => ?_) rfl rfl rfl
    obtain ⟨hmt, hraw, -⟩ := h.rx hon
    refine ⟨hmt, hraw, ?_⟩
    simp only [uncountEvent_eventCount]
    have : s.eventCount - 1 ≠ 0 := fun h0 => hlast ⟨h0, hmt⟩
    omega

lemma Ok.ivEventPost (h : s.Ok mt) (hs : s.ivEventPost this = some s') : s'.Ok mt := by
  have hcount : ThreadState.Counted { s with pending := s.pending ++ [this] } :=
    ⟨h.fds, h.timer, h.task, h.events, h.count⟩
  simp only [ThreadState.ivEventPost] at hs
  split_ifs at hs with hlinked hpost
  · obtain rfl := Option.some.inj hs
    exact h
  · have hcount' := hcount.taskStep hs
    obtain ⟨t, hstep, rfl⟩ := Option.map_eq_some_iff.mp hs
    exact h.of_counted hcount' h.rx rfl rfl (TaskLoopStep.of_step hstep).pc_eq
  · obtain rfl := Option.some.inj hs
    exact h.of_counted hcount h.rx rfl rfl rfl

end Receiver

/-! ### The thread -/

section Thread

variable {P : Poller μ κ} {s s' : ThreadState μ} {mt : Bool} {a : ThreadLabel κ}

lemma Ok.timer_step {b : TimerLabel} {pc : MainPc} (h : s.Ok mt)
    (hpc : s.pc.onTimer s.userCode b = some pc) (hs : s.timerStep b = some s') :
    ({ s' with pc := pc } : ThreadState μ).Ok mt := by
  have hcount := h.toCounted.timerStep hs
  obtain ⟨t, hstep, rfl⟩ := Option.map_eq_some_iff.mp hs
  have htimer := (TimerLoopStep.of_step hstep).pc_eq
  obtain ⟨ht, ht'⟩ : (pc ≠ .timers → t.pc = .outside) ∧ (pc ≠ .tasks → s.pc ≠ .tasks) := by
    have hold := h.timerPc
    unfold MainPc.onTimer at hpc
    split at hpc <;> simp_all
  exact ⟨⟨hcount.fds, hcount.timer, hcount.task, hcount.events, hcount.count⟩, h.rx, ht,
    fun hne => h.taskPc (ht' hne)⟩

lemma Ok.task_step {b : TaskLabel} {pc : MainPc} (h : s.Ok mt)
    (hpc : s.pc.onTask s.userCode b = some pc) (hs : s.taskStep b = some s') :
    ({ s' with pc := pc } : ThreadState μ).Ok mt := by
  have hcount := h.toCounted.taskStep hs
  obtain ⟨t, hstep, rfl⟩ := Option.map_eq_some_iff.mp hs
  have htask := (TaskLoopStep.of_step hstep).pc_eq
  obtain ⟨ht, ht'⟩ : (pc ≠ .tasks → t.pc = .outside) ∧ (pc ≠ .timers → s.pc ≠ .timers) := by
    have hold := h.taskPc
    unfold MainPc.onTask at hpc
    split at hpc <;> simp_all
  exact ⟨⟨hcount.fds, hcount.timer, hcount.task, hcount.events, hcount.count⟩, h.rx,
    fun hne => h.timerPc (ht' hne), ht⟩

lemma Ok.goto (h : s.Ok mt) (quit : Bool) (pc : MainPc) (htimers : s.pc ≠ .timers)
    (htasks : s.pc ≠ .tasks) : ({ s with quit := quit, pc := pc } : ThreadState μ).Ok mt :=
  ⟨⟨h.fds, h.timer, h.task, h.events, h.count⟩, h.rx, fun _ => h.timerPc htimers,
    fun _ => h.taskPc htasks⟩

lemma Ok.poll (h : s.Ok mt) {fd : FdState μ} (fdPc : DispatchPc) (pc : MainPc)
    (hfd : SameCounts { s.fd with numobjs := s.numobjs } fd) (htimers : s.pc ≠ .timers)
    (htasks : s.pc ≠ .tasks) :
    ({ s with fd := fd, numobjs := fd.numobjs, fdPc := fdPc, pc := pc } : ThreadState μ).Ok mt :=
  ⟨h.toCounted.of_same hfd rfl rfl rfl rfl rfl rfl rfl, h.rx, fun _ => h.timerPc htimers,
    fun _ => h.taskPc htasks⟩

lemma Ok.step (h : s.Ok mt) (hs : threadStep mt P s a = some s') : s'.Ok mt := by
  cases a with
  | fdOp op => exact h.fdOp (Option.ite_none_right_eq_some.mp hs).2
  | timer b =>
    obtain ⟨pc, hpc, hs⟩ := Option.bind_eq_some_iff.mp hs
    obtain ⟨s₁, hs₁, rfl⟩ := Option.map_eq_some_iff.mp hs
    exact h.timer_step hpc hs₁
  | task b =>
    obtain ⟨pc, hpc, hs⟩ := Option.bind_eq_some_iff.mp hs
    obtain ⟨s₁, hs₁, rfl⟩ := Option.map_eq_some_iff.mp hs
    exact h.task_step hpc hs₁
  | eventRegister this rxOk num =>
    obtain ⟨⟨-, ht⟩, hs⟩ := Option.ite_none_right_eq_some.mp hs
    exact h.ivEventRegister ht hs
  | eventUnregister this refused =>
    obtain ⟨⟨-, ht⟩, hs⟩ := Option.ite_none_right_eq_some.mp hs
    exact h.ivEventUnregister ht hs
  | eventPost this => exact h.ivEventPost (Option.ite_none_right_eq_some.mp hs).2
  | stealEvents =>
    have hs := (Option.ite_none_right_eq_some.mp hs).2
    unfold ThreadState.stealEvents at hs
    split at hs
    · obtain rfl := Option.some.inj hs
      exact h.of_counted ⟨h.fds, h.timer, h.task, h.events, h.count⟩ h.rx rfl rfl rfl
    · cases hs
  | nextEvent =>
    have hs := (Option.ite_none_right_eq_some.mp hs).2
    unfold ThreadState.nextEvent at hs
    split at hs
    · cases hs
    · obtain rfl := Option.some.inj hs
      exact h.of_counted ⟨h.fds, h.timer, h.task, h.events, h.count⟩ h.rx rfl rfl rfl
  | quit =>
    obtain ⟨-, rfl⟩ := Option.ite_none_right_eq_some.mp hs |>.imp_right Option.some.inj
    exact h.of_counted ⟨h.fds, h.timer, h.task, h.events, h.count⟩ h.rx rfl rfl rfl
  | main =>
    obtain ⟨hpc, rfl⟩ := Option.ite_none_right_eq_some.mp hs |>.imp_right Option.some.inj
    exact h.goto _ _ (by simp [hpc]) (by simp [hpc])
  | check =>
    obtain ⟨hpc, rfl⟩ := Option.ite_none_right_eq_some.mp hs |>.imp_right Option.some.inj
    exact h.goto _ _ (by simp [hpc]) (by simp [hpc])
  | poll k =>
    obtain ⟨hpc, hs⟩ := Option.ite_none_right_eq_some.mp hs
    obtain ⟨res, hpoll, rfl⟩ := Option.map_eq_some_iff.mp hs
    exact h.poll _ _ (P.poll_same hpoll) (by simp [hpc]) (by simp [hpc])
  | round b =>
    obtain ⟨⟨hpc, hb⟩, hs⟩ := Option.ite_none_right_eq_some.mp hs
    obtain ⟨d, hstep, rfl⟩ := Option.map_eq_some_iff.mp hs
    have hsame := dispatchStep_sameRegs hb hstep
    exact h.poll d.pc _ (.of_same hsame) (by simp [hpc]) (by simp [hpc])
  | polled runTimers =>
    obtain ⟨⟨hpc, -⟩, rfl⟩ := Option.ite_none_right_eq_some.mp hs |>.imp_right Option.some.inj
    exact h.goto _ _ (by simp [hpc]) (by simp [hpc])

lemma ok_init (mt : Bool) (fds : FdPtr → Fd) (expires : TimerPtr → Timespec) (avail : ℕ)
    (method : μ) : (ivInit fds expires avail method).Ok mt := by
  have htimer : (timerLoopLts expires avail).Run [] ⟨ivTimerInit expires avail, .outside⟩ := rfl
  have htask : (taskLts 0).Run [] ⟨ivTaskInit 0, .outside⟩ := rfl
  exact ⟨⟨(fdsOk_init fds method).toFdCount, timerLoop_ok htimer,
    (taskLoop_ok htask).initTask eventsLocal 0, rfl, rfl⟩, nofun, fun _ => rfl, fun _ => rfl⟩

/-! ### Nothing is registered -/

lemma Ok.timers_empty_iff (h : s.Ok mt) (hpc : s.pc ≠ .timers) :
    s.timer.st.numTimers = 0 ↔ ∀ t, s.timer.st.index t = -1 := by
  have hindex := h.timer.timers.index_of_expired_nil (h.timer.outside (h.timerPc hpc))
  constructor
  · intro h0 t
    rcases hindex t with hoff | ⟨h1, hle, -⟩
    · exact hoff
    · omega
  · intro hall
    by_contra hne
    obtain ⟨A, -, hv⟩ := h.timer.timers.heap
    obtain ⟨t, ht⟩ := hv.filled 1 le_rfl (by simp only [TimerState.array]; omega)
    have h1 : s.timer.st.index t = 1 := hv.index_of_slot 1 t le_rfl ht
    have := hall t
    omega

lemma Ok.fds_empty_iff (h : s.Ok mt) :
    s.fd.numfds = 0 ↔ ∀ p, (s.fd.fds p).registered = false := by
  rw [h.fds.numfds, Nat.cast_eq_zero, Finset.card_eq_zero, Finset.eq_empty_iff_forall_notMem]
  exact forall_congr' fun p => by rw [h.fds.mem_iff, Bool.not_eq_true]

/-- `numobjs` is zero when nothing is registered, and then only. -/
lemma Ok.numobjs_eq_zero_iff (h : s.Ok mt) (hpc : s.pc ≠ .timers) :
    s.numobjs = 0 ↔ (∀ p, (s.fd.fds p).registered = false) ∧ (∀ t, s.timer.st.index t = -1) ∧
      (∀ t, s.task.st.registered t = false) ∧ s.eventRegs = ∅ := by
  have hfds := h.fds.numfds
  have htasks : s.task.st.current.length + s.task.st.tasks.length = 0 ↔
      ∀ t, s.task.st.registered t = false := by
    rw [← List.length_append, List.length_eq_zero_iff, List.eq_nil_iff_forall_not_mem]
    exact forall_congr' fun t => by rw [← TaskState.registered_iff, Bool.not_eq_true]
  have hevents : s.eventCount = 0 ↔ s.eventRegs = ∅ := by rw [h.events, Finset.card_eq_zero]
  have hrx : s.eventCount = 0 → s.eventRxOn.toNat = 0 := by
    intro h0
    cases hon : s.eventRxOn with
    | false => rfl
    | true =>
      have := (h.rx hon).2.2
      omega
  rw [h.count, objects, ← h.fds_empty_iff, ← h.timers_empty_iff hpc, ← htasks, ← hevents]
  omega

end Thread

end ThreadState

section Runs

variable {mt : Bool} {P : Poller μ κ} {fds : FdPtr → Fd} {expires : TimerPtr → Timespec} {avail : ℕ}
  {method : μ} {tr : List (ThreadLabel κ)} {s : ThreadState μ}

/-- In every state of a thread `numobjs` is the number of objects, and so `iv_main` returns at the
exit check, if it has not been told to quit, exactly when nothing is registered. -/
theorem objectAccounting_of_run
    (h : (threadLts mt P (ivInit fds expires avail method)).Run tr s) :
    s.numobjs = s.fd.numfds + s.timer.st.numTimers
      + (s.task.st.current.length + s.task.st.tasks.length : ℕ) + s.eventCount
      + s.eventRxOn.toNat ∧
    0 ≤ s.numobjs ∧
    (s.pc = .check → s.quit = false → ∃ s', threadStep mt P s .check = some s' ∧
      (s'.pc = .outside ↔ (∀ p, (s.fd.fds p).registered = false) ∧
        (∀ t, s.timer.st.index t = -1) ∧ (∀ t, s.task.st.registered t = false) ∧
        s.eventRegs = ∅)) := by
  have hok : s.Ok mt := h.reachable.invariant (P := ThreadState.Ok mt)
    (ThreadState.ok_init mt fds expires avail method) fun s a s' hok hs => hok.step hs
  refine ⟨hok.count, ?_, fun hpc hquit => ?_⟩
  · have hfds := hok.fds.numfds
    rw [hok.count, ThreadState.objects]
    omega
  · refine ⟨_, if_pos hpc, ?_⟩
    rw [← hok.numobjs_eq_zero_iff (by simp [hpc])]
    simp [hquit]

/-- What `iv_init` sets up, with descriptors that have a handler for input and timers that expire at
`5`. -/
def inputThread (method : μ) : ThreadState μ :=
  ivInit (fun p => ⟨p, some 0, none, none, ∅, false, ∅, ∅⟩) (fun _ => ⟨5, 0⟩) 1 method

def epollThread : ThreadState EpollState := inputThread ⟨[], fun _ => none, []⟩

/-- The thread registers a descriptor, a timer and an event, posts the event, and enters `iv_main`,
where the event is run. -/
def postedEvent : List (ThreadLabel κ) :=
  [.fdOp (.register 3), .timer (.op (.register 1)), .eventRegister 9 true none, .eventPost 9, .main,
    .timer (.run ⟨2, 0⟩), .timer .finish, .task .run, .task (.call eventsLocal), .stealEvents,
    .task .ret, .task .finish]

/-- After that there are four objects, and `iv_main` goes on. -/
def GoesOn (P : Poller μ κ) (method : μ) : Prop :=
  ∃ s, (threadLts true P (inputThread method)).Run postedEvent s ∧ s.pc = .check ∧ s.numobjs = 4 ∧
    ∃ s', threadStep true P s .check = some s' ∧ s'.pc ≠ .outside

theorem objectAccounting_of_run_postedEvent :
    GoesOn epollPoller ⟨[], fun _ => none, []⟩ ∧ GoesOn portPoller ⟨[], fun _ => none, []⟩ ∧
      GoesOn kqueuePoller ⟨[], ⟨fun _ _ => none, false, []⟩, [], ⟨false, fun _ => true⟩⟩ ∧
      GoesOn devPollPoller ⟨[], fun _ => none, [], emptyNodes⟩ ∧ GoesOn pollPoller noPolls := by
  have hcheck {μ κ : Type} {P : Poller μ κ} {method : μ}
      (hexec : ((threadLts true P (inputThread method)).exec (inputThread method) postedEvent).map
        (fun s => decide (s.pc = .check ∧ s.numobjs = 4 ∧ s.quit = false ∧ 9 ∈ s.eventRegs))
        = some true) : GoesOn P method := by
    refine Kit.Lts.exists_run_of_decide _ hexec fun s hrun ⟨hpc, hnumobjs, hquit, hmem⟩ => ?_
    obtain ⟨s', hstep, hiff⟩ := (objectAccounting_of_run hrun).2.2 hpc hquit
    refine ⟨hpc, hnumobjs, s', hstep, fun hout => ?_⟩
    rw [(hiff.mp hout).2.2.2] at hmem
    exact absurd hmem (Finset.notMem_empty 9)
  exact ⟨hcheck (by decide), hcheck (by decide), hcheck (by decide), hcheck (by decide),
    hcheck (by decide)⟩

end Runs

end Ivykis
