import Ivykis.Thread.Accounting

/-!
# Steps of a thread

What the steps of a thread do to the cached time and to the expiry times of the timers, and how they
move the thread along in `iv_main`.
-/

namespace Ivykis

variable {μ κ : Type}

/-! ### The cached time -/

section Cached

variable {s s' : TimerLoop} {a : TimerLabel}

lemma TimersOk.unregister_frame {st st' : TimerState} {t : TimerPtr} (h : TimersOk st)
    (hst : ivTimerUnregister st t = .ok st') :
    st'.expires = st.expires ∧ st'.time = st.time ∧ st'.timeValid = st.timeValid := by
  have hne : st.index t ≠ -1 := by
    intro ht
    rw [ivTimerUnregister, if_pos ht] at hst
    cases hst
  have hlow := h.low t
  by_cases ht : st.index t = 0
  · obtain rfl := Except.ok.inj ((TimersOk.cancel ht).symm.trans hst)
    exact ⟨rfl, rfl, rfl⟩
  · obtain ⟨st₁, heq, -, -, hframe, -⟩ := h.unregister (t := t) (by omega)
    obtain rfl := Except.ok.inj (heq.symm.trans hst)
    exact ⟨hframe.expires, hframe.time, hframe.timeValid⟩

/-- A valid cached time has been there before, or has just been read. -/
lemma TimerLoopStep.cached {p : Timespec → Prop} (h : TimerLoopStep s a s') (hok : s.Ok)
    (hold : s.st.timeValid = true → p s.st.time)
    (hread : ∀ now, a = .run now ∨ a = .validateNow now → p now) :
    s'.st.timeValid = true → p s'.st.time := by
  cases h with
  | register hpc hst =>
    obtain ⟨-, -, hframe, -⟩ := hok.timers.register hst
    rwa [hframe.time, hframe.timeValid]
  | unregister hpc hst =>
    obtain ⟨-, htime, hvalid⟩ := hok.timers.unregister_frame hst
    rwa [htime, hvalid]
  | setExpires | call | ret | finish => exact hold
  | invalidateNow => nofun
  | validateNow now =>
    dsimp only [TimerState.validateNow]
    split_ifs
    · exact hold
    · exact fun _ => hread now (Or.inr rfl)
  | @run st st' now hst =>
    by_cases hn : st.numTimers = 0
    · rw [runTimersStart, if_pos hn] at hst
      obtain rfl := Except.ok.inj hst
      exact hold
    · obtain ⟨st₁, heq, -, hmoved, -⟩ := hok.timers.runTimersStart_eq (hok.outside rfl) now
      obtain rfl := Except.ok.inj (heq.symm.trans hst)
      rw [hmoved.time hn]
      split_ifs with hvalid
      · exact fun _ => hold hvalid
      · exact fun _ => hread now (Or.inl rfl)

/-- The expiry times are those that user code has written. -/
lemma TimerLoopStep.expires {p : Timespec → Prop} (h : TimerLoopStep s a s') (hok : s.Ok)
    (hold : ∀ t, p (s.st.expires t)) (hset : ∀ t e, a = .op (.setExpires t e) → p e)
    (u : TimerPtr) : p (s'.st.expires u) := by
  cases h with
  | register hpc hst =>
    obtain ⟨-, -, hframe, -⟩ := hok.timers.register hst
    rw [hframe.expires]
    exact hold u
  | unregister hpc hst =>
    rw [(hok.timers.unregister_frame hst).1]
    exact hold u
  | invalidateNow | call | ret | finish => exact hold u
  | @setExpires s t e =>
    dsimp only
    rw [Function.update_apply]
    split_ifs
    · exact hset t e rfl
    · exact hold u
  | validateNow now =>
    dsimp only [TimerState.validateNow]
    split_ifs <;> exact hold u
  | @run st st' now hst =>
    obtain ⟨st₁, heq, -, hmoved, -⟩ := hok.timers.runTimersStart_eq (hok.outside rfl) now
    obtain rfl := Except.ok.inj (heq.symm.trans hst)
    rw [hmoved.expires]
    exact hold u

/-- Only the cached time changes. -/
lemma TimerLoopStep.same_heap (h : TimerLoopStep s a s')
    (ha : a = .invalidateNow ∨ ∃ now, a = .validateNow now) :
    s'.st.index = s.st.index ∧ s'.st.expires = s.st.expires := by
  rcases ha with rfl | ⟨now, rfl⟩
  · cases h
    exact ⟨rfl, rfl⟩
  · cases h
    dsimp only [TimerState.validateNow]
    split_ifs <;> exact ⟨rfl, rfl⟩

lemma TimerLoopStep.invalidated (h : TimerLoopStep s .invalidateNow s') :
    s'.st.timeValid = false := by
  cases h
  rfl

end Cached

/-! ### Steps that leave the timers alone -/

namespace ThreadState

/-- The timers and the place in `iv_main` are as before. -/
structure SamePlace (s s' : ThreadState μ) : Prop where
  timer : s'.timer = s.timer
  pc    : s'.pc = s.pc

section Place

variable {m : PollMethod μ} {s s' : ThreadState μ} {mt : Bool} {this : EventPtr}

lemma SamePlace.of_fdOnly (h : FdOnly s s') : SamePlace s s' :=
  ⟨h.timer, h.pc⟩

lemma SamePlace.trans {s₁ s₂ s₃ : ThreadState μ} (h : SamePlace s₁ s₂) (h' : SamePlace s₂ s₃) :
    SamePlace s₁ s₃ :=
  ⟨h'.timer.trans h.timer, h'.pc.trans h.pc⟩

lemma SamePlace.rawRegister {num : Option ℤ} (h : s.rawRegister m num = some s') :
    SamePlace s s' := by
  simp only [ThreadState.rawRegister, Option.bind_eq_bind, Option.bind_eq_some_iff] at h
  obtain ⟨n, -, s₁, h₁, h₂⟩ := h
  exact (of_fdOnly (fdOp_only h₁)).trans (of_fdOnly (fdOp_only h₂))

lemma SamePlace.enableRx {rxOk : Bool} {num : Option ℤ} (h : s.enableRx m rxOk num = some s') :
    SamePlace s s' := by
  unfold ThreadState.enableRx at h
  split_ifs at h
  · exact .rawRegister h
  · obtain rfl := Option.some.inj h
    exact ⟨rfl, rfl⟩
  · obtain ⟨htimer, hpc⟩ := SamePlace.rawRegister h
    exact ⟨htimer, hpc⟩

lemma SamePlace.ivEventRegister {rxOk : Bool} {num : Option ℤ}
    (h : s.ivEventRegister mt m this rxOk num = some s') : SamePlace s s' := by
  unfold ThreadState.ivEventRegister at h
  split_ifs at h
  · obtain ⟨htimer, hpc⟩ := SamePlace.enableRx h
    exact ⟨htimer, hpc⟩
  · obtain rfl := Option.some.inj h
    exact ⟨rfl, rfl⟩

lemma SamePlace.disableRx {refused : Bool} (h : s.disableRx m refused = some s') :
    SamePlace s s' := by
  unfold ThreadState.disableRx ThreadState.rxTurnOff at h
  split_ifs at h
  · exact of_fdOnly (fdOp_only h)
  · obtain rfl := Option.some.inj h
    exact ⟨rfl, rfl⟩

lemma SamePlace.ivEventUnregister {refused : Bool}
    (h : s.ivEventUnregister mt m this refused = some s') : SamePlace s s' := by
  unfold ThreadState.ivEventUnregister at h
  split_ifs at h
  · obtain ⟨htimer, hpc⟩ := SamePlace.disableRx h
    exact ⟨htimer, hpc⟩
  · obtain rfl := Option.some.inj h
    exact ⟨rfl, rfl⟩

lemma SamePlace.taskStep {a : TaskLabel} (h : s.taskStep a = some s') : SamePlace s s' := by
  obtain ⟨t, -, rfl⟩ := Option.map_eq_some_iff.mp h
  exact ⟨rfl, rfl⟩

lemma SamePlace.ivEventPost (h : s.ivEventPost this = some s') : SamePlace s s' := by
  unfold ThreadState.ivEventPost at h
  dsimp only at h
  split_ifs at h
  · obtain rfl := Option.some.inj h
    exact ⟨rfl, rfl⟩
  · obtain ⟨htimer, hpc⟩ := SamePlace.taskStep h
    exact ⟨htimer, hpc⟩
  · obtain rfl := Option.some.inj h
    exact ⟨rfl, rfl⟩

lemma SamePlace.stealEvents (h : s.stealEvents = some s') : SamePlace s s' := by
  unfold ThreadState.stealEvents at h
  split at h
  · obtain rfl := Option.some.inj h
    exact ⟨rfl, rfl⟩
  · cases h

lemma SamePlace.nextEvent (h : s.nextEvent = some s') : SamePlace s s' := by
  unfold ThreadState.nextEvent at h
  split at h
  · cases h
  · obtain rfl := Option.some.inj h
    exact ⟨rfl, rfl⟩

/-- User code makes a call about descriptors or events. -/
def isUserCall : ThreadLabel κ → Bool
  | .fdOp _ | .eventRegister _ _ _ | .eventUnregister _ _ | .eventPost _ => true
  | .stealEvents | .nextEvent | .quit => true
  | _ => false

/-- The steps of a thread by what they do to the timers and to the place in `iv_main`. -/
inductive Advance (s : ThreadState μ) : ThreadLabel κ → ThreadState μ → Prop where
  | user {a : ThreadLabel κ} {s' : ThreadState μ} (ha : isUserCall a = true) (h : SamePlace s s')
      (huser : s.userCode = true) : Advance s a s'
  | timer {b : TimerLabel} {s' : ThreadState μ} {t : TimerLoop}
      (hpc : s.pc.onTimer s.userCode b = some s'.pc)
      (ht : TimerLoopStep { s.timer with st := { s.timer.st with numobjs := s.numobjs } } b t)
      (h : s'.timer = t) (htask : s'.task = s.task) : Advance s (.timer b) s'
  | task {b : TaskLabel} {s' : ThreadState μ} {t : TaskLoop}
      (hpc : s.pc.onTask s.userCode b = some s'.pc)
      (ht : TaskLoopStep { s.task with st := { s.task.st with numobjs := s.numobjs } } b t)
      (h : s'.task = t) (htimer : s'.timer = s.timer) : Advance s (.task b) s'
  | main {s' : ThreadState μ} (hpc : s.pc = .outside) (hpc' : s'.pc = .beforeTimers)
      (htimer : s'.timer = s.timer) : Advance s .main s'
  | check {s' : ThreadState μ} (hpc : s.pc = .check) (hpc' : s'.pc = .outside ∨ s'.pc = .poll)
      (htimer : s'.timer = s.timer) (htask : s'.task = s.task) : Advance s .check s'
  | poll {k : κ} {s' : ThreadState μ} (hpc : s.pc = .poll)
      (hpc' : s'.pc = .poll ∨ s'.pc = .dispatch) (htimer : s'.timer = s.timer)
      (htask : s'.task = s.task) : Advance s (.poll k) s'
  | round {a : DispatchLabel} {s' : ThreadState μ} (hpc : s.pc = .dispatch) (hpc' : s'.pc = s.pc)
      (htimer : s'.timer = s.timer) : Advance s (.round a) s'
  | polled {runTimers : Bool} {s' : ThreadState μ} (hpc : s.pc = .dispatch)
      (hpc' : s'.pc = if runTimers then .beforeTimers else .beforeTasks)
      (htimer : s'.timer = s.timer) : Advance s (.polled runTimers) s'

lemma Advance.of_step {P : Poller μ κ} {a : ThreadLabel κ} (h : threadStep mt P s a = some s') :
    Advance s a s' := by
  cases a with
  | fdOp op =>
    obtain ⟨huser, h⟩ := Option.ite_none_right_eq_some.mp h
    exact .user rfl (.of_fdOnly (fdOp_only h)) huser
  | timer b =>
    obtain ⟨pc, hpc, h⟩ := Option.bind_eq_some_iff.mp h
    obtain ⟨s₁, h₁, rfl⟩ := Option.map_eq_some_iff.mp h
    obtain ⟨t, ht, rfl⟩ := Option.map_eq_some_iff.mp h₁
    exact .timer hpc (.of_step ht) rfl rfl
  | task b =>
    obtain ⟨pc, hpc, h⟩ := Option.bind_eq_some_iff.mp h
    obtain ⟨s₁, h₁, rfl⟩ := Option.map_eq_some_iff.mp h
    obtain ⟨t, ht, rfl⟩ := Option.map_eq_some_iff.mp h₁
    exact .task hpc (.of_step ht) rfl rfl
  | eventRegister this rxOk num =>
    obtain ⟨⟨huser, -⟩, h⟩ := Option.ite_none_right_eq_some.mp h
    exact .user rfl (.ivEventRegister h) huser
  | eventUnregister this refused =>
    obtain ⟨⟨huser, -⟩, h⟩ := Option.ite_none_right_eq_some.mp h
    exact .user rfl (.ivEventUnregister h) huser
  | eventPost this =>
    obtain ⟨⟨huser, -⟩, h⟩ := Option.ite_none_right_eq_some.mp h
    exact .user rfl (.ivEventPost h) huser
  | stealEvents =>
    obtain ⟨huser, h⟩ := Option.ite_none_right_eq_some.mp h
    exact .user rfl (.stealEvents h) huser
  | nextEvent =>
    obtain ⟨huser, h⟩ := Option.ite_none_right_eq_some.mp h
    exact .user rfl (.nextEvent h) huser
  | quit =>
    obtain ⟨huser, h⟩ := Option.ite_none_right_eq_some.mp h
    obtain rfl := Option.some.inj h
    exact .user rfl ⟨rfl, rfl⟩ huser
  | main =>
    obtain ⟨hpc, h⟩ := Option.ite_none_right_eq_some.mp h
    obtain rfl := Option.some.inj h
    exact .main hpc rfl rfl
  | check =>
    obtain ⟨hpc, h⟩ := Option.ite_none_right_eq_some.mp h
    obtain rfl := Option.some.inj h
    refine .check hpc ?_ rfl rfl
    dsimp only
    split_ifs
    · exact Or.inl rfl
    · exact Or.inr rfl
  | poll k =>
    obtain ⟨hpc, h⟩ := Option.ite_none_right_eq_some.mp h
    obtain ⟨res, -, rfl⟩ := Option.map_eq_some_iff.mp h
    refine .poll hpc ?_ rfl rfl
    dsimp only
    split_ifs
    · exact Or.inl rfl
    · exact Or.inr rfl
  | round b =>
    obtain ⟨⟨hpc, -⟩, h⟩ := Option.ite_none_right_eq_some.mp h
    obtain ⟨d, -, rfl⟩ := Option.map_eq_some_iff.mp h
    exact .round hpc rfl rfl
  | polled runTimers =>
    obtain ⟨⟨hpc, -⟩, h⟩ := Option.ite_none_right_eq_some.mp h
    obtain rfl := Option.some.inj h
    exact .polled hpc rfl rfl

end Place

end ThreadState

lemma MainPc.onTimer_cases {pc pc' : MainPc} {userCode : Bool} {b : TimerLabel}
    (h : pc.onTimer userCode b = some pc') :
    (pc' = pc ∧ (userCode = true ∨ b = .invalidateNow ∨ ∃ now, b = .validateNow now)) ∨
      ((pc = .beforeTimers ∨ pc = .timers) ∧ (pc' = .timers ∨ pc' = .beforeTasks)) := by
  unfold MainPc.onTimer at h
  split at h <;> simp_all

lemma MainPc.onTask_cases {pc pc' : MainPc} {userCode : Bool} {b : TaskLabel}
    (h : pc.onTask userCode b = some pc') :
    (pc' = pc ∧ (userCode = true ∨ ∃ t e, b = .initElsewhere t e)) ∨
      ((pc = .beforeTasks ∨ pc = .tasks) ∧ (pc' = .tasks ∨ pc' = .check)) := by
  unfold MainPc.onTask at h
  split at h <;> simp_all

lemma TaskLoopStep.initElsewhere_tasks {s s' : TaskLoop} {t : TaskPtr} {e : BitVec 32}
    (h : TaskLoopStep s (.initElsewhere t e) s') : s'.st.tasks = s.st.tasks := by
  cases h
  rfl

end Ivykis
