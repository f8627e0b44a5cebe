import Ivykis.Kit.Drain
import Ivykis.Timer.Properties

/-!
# Running timers

`iv_run_timers` first moves the timers that are due from the heap to a list of its own, and then
takes one timer after the other off this list and calls its handler. The handler is user code,
and may register and unregister timers, those on the list included. The field `index` says where
a timer is: on the heap, on the list (`0`), or nowhere (`-1`).
-/

namespace Ivykis

/-! ### The program -/

/-- `iv_validate_now`, when `iv_time_get` finds the time `now`. -/
def TimerState.validateNow (st : TimerState) (now : Timespec) : TimerState :=
  if st.timeValid then st else { st with timeValid := true, time := now }

/-- `iv_run_timers` up to its second loop. -/
def runTimersStart (now : Timespec) (st : TimerState) : Except Fault TimerState :=
  if st.numTimers = 0 then .ok st
  else runTimersCollect (st.numTimers + 1) { st.validateNow now with expired := [] }

/-- What user code does with a timer. The library is called whenever the user likes, but the
expiry time is written only while the timer is not registered. -/
def timerCall (st : TimerState) : TimerOp → Option TimerState
  | .register t     => (ivTimerRegister st t).toOption
  | .unregister t   => (ivTimerUnregister st t).toOption
  | .setExpires t e =>
    if st.index t = -1 then some { st with expires := Function.update st.expires t e } else none

/-- Where a thread is with respect to `iv_run_timers`. -/
inductive TimerPc where
  | outside
  /-- At the head of the second loop. -/
  | loop
  /-- In the handler of `t`. -/
  | handler (t : TimerPtr)
  deriving DecidableEq, Repr

structure TimerLoop where
  st : TimerState
  pc : TimerPc

/-- What a thread can do next. -/
inductive TimerLabel where
  | op (op : TimerOp)
  | invalidateNow
  | validateNow (now : Timespec)
  /-- `iv_run_timers` is called; if it asks for the time, it is `now`. -/
  | run (now : Timespec)
  /-- The second loop takes `t` off the list and calls its handler. -/
  | call (t : TimerPtr)
  /-- The handler returns. -/
  | ret
  /-- `iv_run_timers` returns. -/
  | finish
  deriving DecidableEq, Repr

def timerLoopStep (s : TimerLoop) : TimerLabel → Option TimerLoop
  | .op op =>
    if s.pc = .loop then none else (timerCall s.st op).map fun st => { s with st := st }
  | .invalidateNow =>
    if s.pc = .loop then none else some { s with st := { s.st with timeValid := false } }
  | .validateNow now =>
    if s.pc = .loop then none else some { s with st := s.st.validateNow now }
  | .run now =>
    if s.pc = .outside then
      (runTimersStart now s.st).toOption.map fun st => ⟨st, .loop⟩
    else none
  | .call t =>
    match s.pc, s.st.expired with
    | .loop, u :: rest =>
      if u = t then
        some ⟨({ s.st with expired := rest } : TimerState).setIndex t (-1), .handler t⟩
      else none
    | _, _ => none
  | .ret =>
    match s.pc with
    | .handler _ => some { s with pc := .loop }
    | _          => none
  | .finish =>
    if s.pc = .loop ∧ s.st.expired = [] then some { s with pc := .outside } else none

/-- A thread that uses timers and calls `iv_run_timers` any number of times. -/
def timerLoopLts (expires : TimerPtr → Timespec) (avail : ℕ) : Kit.Lts TimerLoop TimerLabel where
  init := ⟨ivTimerInit expires avail, .outside⟩
  step := timerLoopStep

/-! ### Steps -/

/-- `timerLoopStep` by cases. -/
inductive TimerLoopStep : TimerLoop → TimerLabel → TimerLoop → Prop where
  | register {s : TimerLoop} {t : TimerPtr} {st' : TimerState} (hpc : s.pc ≠ .loop)
      (h : ivTimerRegister s.st t = .ok st') :
      TimerLoopStep s (.op (.register t)) { s with st := st' }
  | unregister {s : TimerLoop} {t : TimerPtr} {st' : TimerState} (hpc : s.pc ≠ .loop)
      (h : ivTimerUnregister s.st t = .ok st') :
      TimerLoopStep s (.op (.unregister t)) { s with st := st' }
  | setExpires {s : TimerLoop} {t : TimerPtr} (e : Timespec) (hpc : s.pc ≠ .loop)
      (h : s.st.index t = -1) : TimerLoopStep s (.op (.setExpires t e))
        { s with st := { s.st with expires := Function.update s.st.expires t e } }
  | invalidateNow {s : TimerLoop} (hpc : s.pc ≠ .loop) :
      TimerLoopStep s .invalidateNow { s with st := { s.st with timeValid := false } }
  | validateNow {s : TimerLoop} (now : Timespec) (hpc : s.pc ≠ .loop) :
      TimerLoopStep s (.validateNow now) { s with st := s.st.validateNow now }
  | run {st st' : TimerState} {now : Timespec} (h : runTimersStart now st = .ok st') :
      TimerLoopStep ⟨st, .outside⟩ (.run now) ⟨st', .loop⟩
  | call {st : TimerState} {t : TimerPtr} {rest : List TimerPtr} (h : st.expired = t :: rest) :
      TimerLoopStep ⟨st, .loop⟩ (.call t)
        ⟨({ st with expired := rest } : TimerState).setIndex t (-1), .handler t⟩
  | ret {st : TimerState} (t : TimerPtr) : TimerLoopStep ⟨st, .handler t⟩ .ret ⟨st, .loop⟩
  | finish {st : TimerState} (h : st.expired = []) :
      TimerLoopStep ⟨st, .loop⟩ .finish ⟨st, .outside⟩

lemma TimerLoopStep.of_step {s s' : TimerLoop} {a : TimerLabel}
    (h : timerLoopStep s a = some s') : TimerLoopStep s a s' := by
  cases a with
  | op op =>
    simp only [timerLoopStep, Option.ite_none_left_eq_some, Option.map_eq_some_iff] at h
    obtain ⟨hpc, st', hst, rfl⟩ := h
    cases op with
    | register t => exact .register hpc (toOption_eq_some.mp hst)
    | unregister t => exact .unregister hpc (toOption_eq_some.mp hst)
    | setExpires t e =>
      simp only [timerCall, Option.ite_none_right_eq_some, Option.some.injEq] at hst
      obtain ⟨hidx, rfl⟩ := hst
      exact .setExpires e hpc hidx
  | invalidateNow =>
    simp only [timerLoopStep, Option.ite_none_left_eq_some, Option.some.injEq] at h
    obtain ⟨hpc, rfl⟩ := h
    exact .invalidateNow hpc
  | validateNow now =>
    simp only [timerLoopStep, Option.ite_none_left_eq_some, Option.some.injEq] at h
    obtain ⟨hpc, rfl⟩ := h
    exact .validateNow now hpc
  | run now =>
    obtain ⟨st, pc⟩ := s
    simp only [timerLoopStep, Option.ite_none_right_eq_some, Option.map_eq_some_iff,
      toOption_eq_some] at h
    obtain ⟨rfl, st', hst, rfl⟩ := h
    exact .run hst
  | call t =>
    obtain ⟨st, pc⟩ := s
    simp only [timerLoopStep] at h
    split at h
    · rename_i u rest hexp
      simp only [Option.ite_none_right_eq_some, Option.some.injEq] at h
      obtain ⟨rfl, rfl⟩ := h
      exact .call hexp
    · cases h
  | ret =>
    obtain ⟨st, pc⟩ := s
    cases pc with
    | handler t =>
      obtain rfl := Option.some.inj h
      exact .ret t
    | outside => cases h
    | loop => cases h
  | finish =>
    obtain ⟨st, pc⟩ := s
    simp only [timerLoopStep, Option.ite_none_right_eq_some, Option.some.injEq] at h
    obtain ⟨⟨rfl, hexp⟩, rfl⟩ := h
    exact .finish hexp

/-! ### The three places of a timer -/

/-- The heap is in order, and `index` is `0` for the timers on the list of `iv_run_timers`, `-1`
for those that are not registered, and the number of the slot for those on the heap. -/
structure TimersOk (st : TimerState) : Prop where
  heap    : ∃ A, TimerTree st A ∧ (st.array A).Valid
  waiting : ∀ t, st.index t = 0 ↔ t ∈ st.expired
  low     : ∀ t, -1 ≤ st.index t
  nodup   : st.expired.Nodup

/-- Between `st` and `st'` only `t` has come or gone. -/
structure Moved (t : TimerPtr) (st st' : TimerState) : Prop where
  onHeap : ∀ u, u ≠ t → (1 ≤ st'.index u ↔ 1 ≤ st.index u)
  off    : ∀ u, u ≠ t → st'.index u < 1 → st'.index u = st.index u

namespace TimersOk

variable {st st' : TimerState} {t : TimerPtr}

/-- A move to or from the heap does not touch the list. -/
lemma of_moved (h : TimersOk st) (hheap : ∃ A, TimerTree st' A ∧ (st'.array A).Valid)
    (hexp : st'.expired = st.expired) (hm : Moved t st st') (ht : st.index t ≠ 0)
    (ht' : st'.index t ≠ 0) (hlow : -1 ≤ st'.index t) : TimersOk st' where
  heap := hheap
  waiting u := by
    rw [hexp, ← h.waiting]
    by_cases hut : u = t
    · rw [hut]
      exact iff_of_false ht' ht
    · have hon := hm.onHeap u hut
      have hoff := hm.off u hut
      constructor <;> intro hu <;> omega
  low u := by
    by_cases hut : u = t
    · rwa [hut]
    · have hoff := hm.off u hut
      have := h.low u
      omega
  nodup := by
    rw [hexp]
    exact h.nodup

lemma register (h : TimersOk st) (hst : ivTimerRegister st t = .ok st') :
    TimersOk st' ∧ Moved t st st' ∧ TimerFrame 1 st st' ∧ st.index t = -1 ∧ 1 ≤ st'.index t := by
  obtain ⟨A, htree, hv⟩ := h.heap
  have ht : st.index t = -1 := by
    by_contra hne
    rw [ivTimerRegister, if_pos hne] at hst
    cases hst
  have hn : st.numTimers + 1 < 128 ^ 4 := by
    by_contra hn
    rcases htree.register_full ht (by have := htree.small; omega) with ⟨hfull, -⟩ | hfull <;>
      cases hst.symm.trans hfull
  rcases htree.register_eq hv ht hn with ⟨hoom, -⟩ | ⟨st₁, A', heq, htree', harr, hframe, -⟩
  · rw [hoom] at hst
    cases hst
  · obtain rfl : st₁ = st' := Except.ok.inj (heq.symm.trans hst)
    obtain ⟨hv', -, -, hon, hoff⟩ := hv.register (t := t) (by
      change st.index t < 1
      omega)
    rw [← harr] at hv' hon hoff
    have hon' : ∀ u, 1 ≤ st₁.index u ↔ u = t ∨ 1 ≤ st.index u := fun u =>
      hv'.onHeap_iff.symm.trans ((hon u).trans (or_congr_right hv.onHeap_iff))
    have hm : Moved t st st₁ := ⟨fun u hut => by rw [hon' u, or_iff_right hut], fun u _ hu =>
      hoff u fun hon => by
        have : 1 ≤ st₁.index u := hv'.onHeap_iff.mp hon
        omega⟩
    have ht' := (hon' t).mpr (Or.inl rfl)
    exact ⟨h.of_moved ⟨A', htree', hv'⟩ hframe.expired hm (by omega) (by omega) (by omega), hm,
      hframe, ht, ht'⟩

/-- `iv_timer_unregister` for a timer on the heap. -/
lemma unregister (h : TimersOk st) (ht : 1 ≤ st.index t) :
    ∃ st', ivTimerUnregister st t = .ok st' ∧ TimersOk st' ∧ Moved t st st' ∧
      TimerFrame (-1) st st' ∧ st'.index t = -1 := by
  obtain ⟨A, htree, hv⟩ := h.heap
  obtain ⟨st', A', heq, htree', harr, hframe⟩ := htree.unregister_eq hv ht
  obtain ⟨hv', -, -, ht', hon, hoff⟩ := hv.unregister (t := t) ht
  rw [← harr] at hv' hon hoff ht'
  have hm : Moved t st st' := by
    refine ⟨fun u hut => ?_, fun u hut hu => ?_⟩
    · refine hv'.onHeap_iff.symm.trans ((hon u).trans ?_)
      rw [and_iff_right hut]
      exact hv.onHeap_iff
    · refine hoff u hut fun hon => ?_
      have : 1 ≤ st'.index u := hv'.onHeap_iff.mp hon
      omega
  change st'.index t = -1 at ht'
  exact ⟨st', heq, h.of_moved ⟨A', htree', hv'⟩ hframe.expired hm (by omega) (by omega)
    (by omega), hm, hframe, ht'⟩

/-- A timer on the list is taken off it, by `iv_timer_unregister` or to be run. -/
lemma takeOff (h : TimersOk st) (ht : t ∈ st.expired) :
    TimersOk (({ st with expired := st.expired.erase t } : TimerState).setIndex t (-1)) := by
  obtain ⟨A, htree, hv⟩ := h.heap
  have ht0 := (h.waiting t).mpr ht
  have hoff : ¬ (st.array A).OnHeap t := fun hon => by
    have : 1 ≤ st.index t := hv.onHeap_iff.mp hon
    omega
  refine ⟨⟨A, htree.congr rfl rfl rfl rfl rfl, hv.setIndex hoff (by norm_num)⟩, fun u => ?_,
    fun u => ?_, h.nodup.erase t⟩
  · simp only [TimerState.setIndex]
    by_cases hut : u = t
    · simp [hut, h.nodup.not_mem_erase]
    · rw [Function.update_of_ne hut, List.mem_erase_of_ne hut, h.waiting]
  · simp only [TimerState.setIndex, Function.update_apply]
    split_ifs
    · exact le_rfl
    · exact h.low u

lemma cancel (ht : st.index t = 0) : ivTimerUnregister st t
    = .ok (({ st with expired := st.expired.erase t } : TimerState).setIndex t (-1)) := by
  rw [ivTimerUnregister, if_neg (by omega), if_neg (not_not.mpr ht)]

/-- Both kinds of `iv_timer_unregister` at once. -/
lemma unregister_of_ok (h : TimersOk st) (hst : ivTimerUnregister st t = .ok st') :
    TimersOk st' ∧ st'.expired = st.expired.erase t ∧ st'.index t = -1 ∧
      st'.numobjs - st'.numTimers = st.numobjs - st.numTimers := by
  have hne : st.index t ≠ -1 := by
    intro ht
    rw [ivTimerUnregister, if_pos ht] at hst
    cases hst
  have hlow := h.low t
  by_cases ht : st.index t = 0
  · obtain rfl := Except.ok.inj ((cancel ht).symm.trans hst)
    exact ⟨h.takeOff ((h.waiting t).mp ht), rfl, Function.update_self .., rfl⟩
  · obtain ⟨st₁, heq, hok, -, hframe, ht'⟩ := h.unregister (t := t) (by omega)
    obtain rfl := Except.ok.inj (heq.symm.trans hst)
    refine ⟨hok, ?_, ht', ?_⟩
    · rw [hframe.expired, List.erase_of_not_mem fun hm => ht ((h.waiting t).mpr hm)]
    · rw [hframe.numobjs, hframe.numTimers]
      omega

lemma setExpires (h : TimersOk st) (ht : st.index t = -1) (e : Timespec) :
    TimersOk { st with expires := Function.update st.expires t e } := by
  obtain ⟨A, htree, hv⟩ := h.heap
  have hoff : ¬ (st.array A).OnHeap t := fun hon => by
    have : 1 ≤ st.index t := hv.onHeap_iff.mp hon
    omega
  exact ⟨⟨A, htree.congr rfl rfl rfl rfl rfl, hv.setExpires hoff e⟩, h.waiting, h.low, h.nodup⟩

lemma of_same (h : TimersOk st) (now : Timespec) (valid : Bool) (n : ℤ) :
    TimersOk { st with time := now, timeValid := valid, numobjs := n } := by
  obtain ⟨A, htree, hv⟩ := h.heap
  exact ⟨⟨A, htree.congr rfl rfl rfl rfl rfl, hv⟩, h.waiting, h.low, h.nodup⟩

lemma validateNow (h : TimersOk st) (now : Timespec) : TimersOk (st.validateNow now) := by
  rw [TimerState.validateNow]
  split_ifs
  · exact h
  · exact h.of_same now true st.numobjs

end TimersOk

/-! ### The first loop -/

/-- What has happened when the second loop starts: the timers that are due have moved from the
heap to the list, in the order in which they expire. -/
structure DueMoved (now : Timespec) (st st' : TimerState) : Prop where
  time    : st.numTimers ≠ 0 → st'.time = if st.timeValid then st.time else now
  due     : ∀ t, t ∈ st'.expired ↔ 1 ≤ st.index t ∧ st.expires t ≤ st'.time
  nodup   : st'.expired.Nodup
  sorted  : st'.expired.Pairwise fun t u => st.expires t ≤ st.expires u
  onHeap  : ∀ t, 1 ≤ st'.index t ↔ 1 ≤ st.index t ∧ st'.time < st.expires t
  expires : st'.expires = st.expires

namespace TimersOk

variable {st : TimerState}

/-- The first loop keeps every timer in one place. -/
lemma of_collected {st' : TimerState} {L : List TimerPtr} (h : TimersOk st)
    (hheap : ∃ A, TimerTree st' A ∧ (st'.array A).Valid) (hL : Collected L st st') :
    TimersOk st' := by
  have hplace : ∀ t, t ∈ L ∨ 1 ≤ st'.index t ∨ st'.index t = st.index t := by
    intro t
    by_cases ht : 1 ≤ st.index t
    · rcases le_or_gt (st.expires t) st.time with hdue | hnot
      · exact Or.inl ((hL.due t).mpr ⟨ht, hdue⟩)
      · exact Or.inr (Or.inl ((hL.onHeap t).mpr ⟨ht, hnot⟩))
    · exact Or.inr (Or.inr (hL.off t (by omega)))
  refine ⟨hheap, fun t => ?_, fun t => ?_, ?_⟩
  · rw [hL.expired, List.mem_append, ← h.waiting]
    constructor
    · intro ht
      rcases hplace t with hm | hle | heq
      · exact Or.inr hm
      · omega
      · exact Or.inl (by omega)
    · rintro (ht | ht)
      · rw [hL.off t (by omega), ht]
      · exact hL.waiting t ht
  · have hlow := h.low t
    rcases hplace t with hm | hle | heq
    · have := hL.waiting t hm
      omega
    · omega
    · omega
  · rw [hL.expired]
    refine List.nodup_append'.mpr ⟨h.nodup, hL.nodup, fun t ht hm => ?_⟩
    have h0 := (h.waiting t).mpr ht
    have := ((hL.due t).mp hm).1
    omega

/-- `iv_run_timers` reaches its second loop without a fault. -/
lemma runTimersStart_eq (h : TimersOk st) (hexp : st.expired = []) (now : Timespec) :
    ∃ st', runTimersStart now st = .ok st' ∧ TimersOk st' ∧ DueMoved now st st' ∧
      st'.numobjs - st'.numTimers = st.numobjs - st.numTimers := by
  have hnow : ({ st.validateNow now with expired := [] } : TimerState)
      = { st with time := if st.timeValid then st.time else now, timeValid := true } := by
    cases st
    simp only at hexp
    subst hexp
    simp only [TimerState.validateNow]
    split_ifs with hvalid
    · simp [hvalid]
    · rfl
  rw [runTimersStart]
  split_ifs with hn
  · refine ⟨st, rfl, h, ?_, rfl⟩
    obtain ⟨A, -, hv⟩ := h.heap
    have hoff : ∀ t, ¬ 1 ≤ st.index t := fun t ht => by
      have : st.index t ≤ st.numTimers := hv.index_le ht
      omega
    exact ⟨fun hne => absurd hn hne, fun t => by simp [hexp, hoff], h.nodup, by simp [hexp],
      fun t => by simp [hoff], rfl⟩
  · rw [hnow]
    have hok : TimersOk
        { st with time := if st.timeValid then st.time else now, timeValid := true } :=
      h.of_same _ true st.numobjs
    obtain ⟨A, htree, hv⟩ := hok.heap
    obtain ⟨st', A', L, hrun, htree', hv', hL⟩ := htree.runTimersCollect_eq hv
      (Nat.lt_succ_self _)
    have hexp' : st'.expired = L := by simpa [hexp] using hL.expired
    refine ⟨st', hrun, hok.of_collected ⟨A', htree', hv'⟩ hL, ?_, hL.numobjs⟩
    refine ⟨fun _ => hL.time, fun t => ?_, ?_, ?_, fun t => ?_, hL.expires⟩
    · rw [hexp', hL.due, hL.time]
    · rw [hexp']
      exact hL.nodup
    · rw [hexp']
      exact hL.sorted
    · rw [hL.onHeap, hL.time]

end TimersOk

/-! ### The second loop -/

/-- Outside of `iv_run_timers` nothing is on its list. -/
structure TimerLoop.Ok (s : TimerLoop) : Prop where
  timers  : TimersOk s.st
  outside : s.pc = .outside → s.st.expired = []

namespace TimerLoopStep

variable {s s' : TimerLoop} {a : TimerLabel}

lemma ok (h : TimerLoopStep s a s') (hok : s.Ok) : s'.Ok := by
  cases h with
  | register _ h =>
    obtain ⟨hok', -, hframe, -⟩ := hok.timers.register h
    exact ⟨hok', fun hpc => hframe.expired.trans (hok.outside hpc)⟩
  | unregister _ h =>
    obtain ⟨hok', hexp, -⟩ := hok.timers.unregister_of_ok h
    refine ⟨hok', fun hpc => ?_⟩
    change _ = _ at hpc
    rw [hexp, hok.outside hpc]
    rfl
  | setExpires e _ h => exact ⟨hok.timers.setExpires h e, hok.outside⟩
  | invalidateNow => exact ⟨hok.timers.of_same _ _ _, hok.outside⟩
  | validateNow now =>
    refine ⟨hok.timers.validateNow now, fun hpc => ?_⟩
    have := hok.outside hpc
    simp only [TimerState.validateNow]
    split_ifs <;> exact this
  | run h =>
    obtain ⟨st₁, heq, hok', -⟩ := hok.timers.runTimersStart_eq (hok.outside rfl) _
    obtain rfl := Except.ok.inj (heq.symm.trans h)
    exact ⟨hok', fun hpc => by cases hpc⟩
  | @call st t rest h =>
    have ht := hok.timers.takeOff (t := t) (by rw [h]; exact List.mem_cons_self)
    rw [h, List.erase_cons_head] at ht
    exact ⟨ht, fun hpc => by cases hpc⟩
  | ret => exact ⟨hok.timers, fun hpc => by cases hpc⟩
  | finish h => exact ⟨hok.timers, fun _ => h⟩

/-- Timers are counted while they are on the heap, and not on the list. -/
lemma numobjs (h : TimerLoopStep s a s') (hok : s.Ok) :
    s'.st.numobjs - s'.st.numTimers = s.st.numobjs - s.st.numTimers := by
  cases h with
  | register _ h =>
    obtain ⟨-, -, hframe, -⟩ := hok.timers.register h
    rw [hframe.numobjs, hframe.numTimers]
    omega
  | unregister _ h => exact (hok.timers.unregister_of_ok h).2.2.2
  | validateNow now =>
    simp only [TimerState.validateNow]
    split_ifs <;> rfl
  | run h =>
    obtain ⟨st₁, heq, -, -, hnum⟩ := hok.timers.runTimersStart_eq (hok.outside rfl) _
    obtain rfl := Except.ok.inj (heq.symm.trans h)
    exact hnum
  | setExpires | invalidateNow | call | ret | finish => rfl

lemma pc_ne_outside (h : TimerLoopStep s a s') (hpc : s.pc ≠ .outside) (ha : a ≠ .finish) :
    s'.pc ≠ .outside := by
  cases h with
  | register | unregister | setExpires | invalidateNow | validateNow => exact hpc
  | run | call | ret => nofun
  | finish => exact absurd rfl ha

lemma pc_eq (h : TimerLoopStep s a s') :
    match a with
    | .op _ | .invalidateNow | .validateNow _ => s'.pc = s.pc
    | .finish                                 => s'.pc = .outside
    | _                                       => True := by
  cases h <;> trivial

end TimerLoopStep

/-- What a step does to the list of `iv_run_timers`. -/
def TimerLabel.act : TimerLabel → Kit.DrainAct TimerPtr
  | .call t             => .take t
  | .op (.unregister t) => .drop t
  | _                   => .other

/-- The timers whose handlers are called, in this order. -/
def timerCalls (tr : List TimerLabel) : List TimerPtr :=
  Kit.taken TimerLabel.act tr

/-- Whether `t` is unregistered before its handler is called. -/
def timerCancelled (tr : List TimerLabel) (t : TimerPtr) : Bool :=
  Kit.dropped TimerLabel.act t tr

section Inside

variable {expires : TimerPtr → Timespec} {avail : ℕ} {s s' : TimerLoop} {tr : List TimerLabel}
  {t : TimerPtr}

/-- Until it returns, `iv_run_timers` works off its list, and nothing is added to it. -/
lemma timerLoop_drains : Kit.Drains (timerLoopLts expires avail)
    (fun s => s.Ok ∧ s.pc ≠ .outside) (· = .finish) (fun s => s.st.expired) TimerLabel.act
    fun _ => False where
  inv s a s' hI ha hs := by
    have hstep : TimerLoopStep s a s' := .of_step hs
    exact ⟨hstep.ok hI.1, hstep.pc_ne_outside hI.2 ha⟩
  nodup s hI := hI.1.timers.nodup
  step s a s' hI _ hs := by
    have hkeep : s'.st.expired = s.st.expired →
        ∃ later : List TimerPtr, (∀ t ∈ later, False) ∧ s'.st.expired = s.st.expired ++ later :=
      fun h => ⟨[], nofun, by rw [h, List.append_nil]⟩
    cases TimerLoopStep.of_step hs with
    | register _ h => exact hkeep (hI.1.timers.register h).2.2.1.expired
    | unregister _ h => exact (hI.1.timers.unregister_of_ok h).2.1
    | validateNow now =>
      refine hkeep ?_
      simp only [TimerState.validateNow]
      split_ifs <;> rfl
    | run => exact absurd rfl hI.2
    | call h => exact h
    | setExpires | invalidateNow | ret | finish => exact hkeep rfl

/-- A timer that is registered during the call is not run by it afterwards. -/
lemma not_called_of_registered {tr₁ tr₂ : List TimerLabel} (hok : s.Ok) (hpc : s.pc ≠ .outside)
    (hfin : ∀ a ∈ tr, a ≠ .finish) (h : (timerLoopLts expires avail).exec s tr = some s')
    (htr : tr = tr₁ ++ .op (.register t) :: tr₂) : t ∉ timerCalls tr₂ := by
  subst htr
  rw [Kit.Lts.exec_append, Option.bind_eq_some_iff] at h
  obtain ⟨s₁, h₁, h⟩ := h
  obtain ⟨s₂, h₂, h⟩ := Option.bind_eq_some_iff.mp h
  obtain ⟨hok₁, hpc₁⟩ := timerLoop_drains.inv_exec ⟨hok, hpc⟩
    (fun a ha => hfin a (List.mem_append_left _ ha)) h₁
  have hstep : TimerLoopStep s₁ (.op (.register t)) s₂ := .of_step h₂
  have hok₂ := hstep.ok hok₁
  have hcalls := timerLoop_drains.taken_append_todo_eq
    ⟨hok₂, hstep.pc_ne_outside hpc₁ nofun⟩
    (fun a ha => hfin a (List.mem_append_right _ (List.mem_cons_of_mem _ ha))) h
  have hoff : t ∉ s₂.st.expired := by
    cases hstep with
    | register _ hreg =>
      have ht := (hok₁.timers.register hreg).2.2.2.2
      intro hm
      have h0 := (hok₂.timers.waiting t).mpr hm
      simp only at h0 ht
      omega
  intro hm
  have hmem : t ∈ Kit.taken TimerLabel.act tr₂ ++ s'.st.expired := List.mem_append_left _ hm
  rw [hcalls] at hmem
  exact hoff (List.mem_filter.mp hmem).1

/-- `iv_run_timers` never stops short of its end: it can call a handler or return. -/
lemma TimerLoop.progress (hpc : s.pc ≠ .outside) :
    ∃ a, (a = .ret ∨ a = .finish ∨ ∃ t, a = .call t) ∧ (timerLoopStep s a).isSome := by
  obtain ⟨st, pc⟩ := s
  cases pc with
  | outside => exact absurd rfl hpc
  | handler t => exact ⟨.ret, Or.inl rfl, rfl⟩
  | loop =>
    cases hexp : st.expired with
    | nil => exact ⟨.finish, Or.inr (Or.inl rfl), by simp [timerLoopStep, hexp]⟩
    | cons t rest =>
      exact ⟨.call t, Or.inr (Or.inr ⟨t, rfl⟩), by simp [timerLoopStep, hexp]⟩

end Inside

namespace TimersOk

variable {st : TimerState} {t : TimerPtr}

/-- With nothing on the list, a timer is on the heap or not registered. -/
lemma index_of_expired_nil (h : TimersOk st) (hexp : st.expired = []) (t : TimerPtr) :
    st.index t = -1 ∨ 1 ≤ st.index t ∧ st.index t ≤ st.numTimers ∧
      st.timerAt (st.index t).toNat = some t := by
  obtain ⟨A, htree, hv⟩ := h.heap
  have hlow := h.low t
  have h0 : st.index t ≠ 0 := fun h0 => by simpa [hexp] using (h.waiting t).mp h0
  by_cases ht : 1 ≤ st.index t
  · refine Or.inr ⟨ht, hv.index_le ht, ?_⟩
    rw [htree.tree.timerAt_eq]
    exact hv.slot_index ht
  · exact Or.inl (by omega)

/-- No call that user code may make faults, except for lack of memory. -/
lemma register_returns (h : TimersOk st) (ht : st.index t = -1)
    (hn : st.numTimers + 1 < 2 ^ 28) :
    ivTimerRegister st t = .error outOfMemory ∨ ∃ st', ivTimerRegister st t = .ok st' := by
  obtain ⟨A, htree, hv⟩ := h.heap
  rcases htree.register_eq hv ht (by norm_num at hn ⊢; omega) with ⟨hoom, -⟩ | ⟨st', -, heq, -⟩
  · exact Or.inl hoom
  · exact Or.inr ⟨st', heq⟩

lemma unregister_returns (h : TimersOk st) (ht : st.index t ≠ -1) :
    ∃ st', ivTimerUnregister st t = .ok st' := by
  have hlow := h.low t
  by_cases h0 : st.index t = 0
  · exact ⟨_, cancel h0⟩
  · obtain ⟨st', heq, -⟩ := h.unregister (t := t) (by omega)
    exact ⟨st', heq⟩

end TimersOk

/-! ### Whole calls -/

/-- What holds when `iv_run_timers` has taken the steps `tr` of its second loop, starting with
`L` on its list, and has come to `s`. -/
structure ExpiryOk (L : List TimerPtr) (tr : List TimerLabel) (s : TimerLoop) : Prop where
  /-- Handlers are called in the order of `L`, but not those of timers unregistered before. -/
  calls      : timerCalls tr ++ s.st.expired = L.filter fun t => !timerCancelled tr t
  /-- A timer that is registered by a handler waits for the next call. -/
  registered : ∀ t tr₁ tr₂, tr = tr₁ ++ .op (.register t) :: tr₂ → t ∉ timerCalls tr₂
  register   : ∀ t, s.st.index t = -1 → s.st.numTimers + 1 < 2 ^ 28 →
    ivTimerRegister s.st t = .error outOfMemory ∨ ∃ st', ivTimerRegister s.st t = .ok st'
  unregister : ∀ t, s.st.index t ≠ -1 → ∃ st', ivTimerUnregister s.st t = .ok st'
  /-- The call ends, once the handlers return. -/
  progress   : ∃ a, (a = .ret ∨ a = .finish ∨ ∃ t, a = .call t) ∧ (timerLoopStep s a).isSome
  bounded    : (timerCalls tr).length ≤ L.length
  /-- When the second loop ends. -/
  finish     : (timerLoopStep s .finish).isSome →
    timerCalls tr = (L.filter fun t => !timerCancelled tr t) ∧
    ∀ t, s.st.index t = -1 ∨ 1 ≤ s.st.index t ∧ s.st.index t ≤ s.st.numTimers ∧
      s.st.timerAt (s.st.index t).toNat = some t

section Runs

variable {expires : TimerPtr → Timespec} {avail : ℕ} {s₀ : TimerLoop} {tr₀ : List TimerLabel}

lemma timerLoop_ok (h : (timerLoopLts expires avail).Run tr₀ s₀) : s₀.Ok := by
  refine h.reachable.invariant (P := TimerLoop.Ok) ?_ fun s a s' hok hstep =>
    (TimerLoopStep.of_step hstep).ok hok
  have hinv := timerInv_init expires avail
  exact ⟨⟨⟨initMap, hinv.tree, hinv.valid⟩, fun t => by simp [timerLoopLts, ivTimerInit],
    fun t => le_rfl, List.nodup_nil⟩, fun _ => rfl⟩

/-- Whenever `iv_run_timers` is called, whatever the handlers do: it takes what is due off the
heap, in order, and calls the handlers in that order, except for the timers that are
unregistered before. -/
theorem timerExpiry_of_run (h : (timerLoopLts expires avail).Run tr₀ s₀)
    (hpc : s₀.pc = .outside) (now : Timespec) :
    ∃ s₁, (timerLoopLts expires avail).step s₀ (.run now) = some s₁ ∧
      DueMoved now s₀.st s₁.st ∧
      ∀ tr s, (timerLoopLts expires avail).exec s₁ tr = some s → .finish ∉ tr →
        ExpiryOk s₁.st.expired tr s := by
  have hok := timerLoop_ok h
  obtain ⟨st₁, hstart, hok₁, hdue, -⟩ := hok.timers.runTimersStart_eq (hok.outside hpc) now
  refine ⟨⟨st₁, .loop⟩, ?_, hdue, fun tr s hexec hfin => ?_⟩
  · simp [timerLoopLts, timerLoopStep, hpc, hstart, Except.toOption]
  · have hpc₁ : (TimerLoop.mk st₁ .loop).pc ≠ .outside := by simp
    have hok₁ : TimerLoop.Ok ⟨st₁, .loop⟩ := ⟨hok₁, fun hout => absurd hout hpc₁⟩
    have hfin' : ∀ a ∈ tr, a ≠ .finish := fun a ha h => hfin (h ▸ ha)
    obtain ⟨hoks, hpcs⟩ := timerLoop_drains.inv_exec ⟨hok₁, hpc₁⟩ hfin' hexec
    have hcalls : timerCalls tr ++ s.st.expired = st₁.expired.filter fun t =>
        !timerCancelled tr t :=
      timerLoop_drains.taken_append_todo_eq ⟨hok₁, hpc₁⟩ hfin' hexec
    refine ⟨hcalls, fun t tr₁ tr₂ htr => ?_, fun t => hoks.timers.register_returns,
      fun t => hoks.timers.unregister_returns, TimerLoop.progress hpcs, ?_, fun hend => ?_⟩
    · exact not_called_of_registered hok₁ hpc₁ hfin' hexec htr
    · have hlen := congrArg List.length hcalls
      have hle := List.length_filter_le (fun t => !timerCancelled tr t) st₁.expired
      rw [List.length_append] at hlen
      dsimp only
      omega
    · obtain ⟨s', hs'⟩ := Option.isSome_iff_exists.mp hend
      cases TimerLoopStep.of_step hs' with
      | finish hexp =>
        exact ⟨by simpa [hexp] using hcalls, hoks.timers.index_of_expired_nil hexp⟩

/-- Of three timers two are due; the handler of the first unregisters the second, and registers
the first again. -/
theorem timerExpiry_of_run_three :
    ∃ s₀ s₁ s, (timerLoopLts (fun t => ⟨t, 0⟩) 1).Run
        [.op (.register 3), .op (.register 1), .op (.register 2)] s₀ ∧
      (timerLoopLts (fun t => ⟨t, 0⟩) 1).step s₀ (.run ⟨2, 0⟩) = some s₁ ∧
      (timerLoopLts (fun t => ⟨t, 0⟩) 1).exec s₁
        [.call 1, .op (.unregister 2), .op (.register 1), .ret] = some s ∧
      ExpiryOk s₁.st.expired [.call 1, .op (.unregister 2), .op (.register 1), .ret] s := by
  have hrun : ((timerLoopLts (fun t => ⟨t, 0⟩) 1).exec (timerLoopLts (fun t => ⟨t, 0⟩) 1).init
      ([.op (.register 3), .op (.register 1), .op (.register 2)] ++ .run ⟨2, 0⟩ ::
        [.call 1, .op (.unregister 2), .op (.register 1), .ret])).map
        (fun s => s.st.expired) = some [] := by decide
  obtain ⟨s₀, s₁, s, hrun, hstep, hexec, -⟩ := Kit.Lts.exists_step_of_map hrun
  have hpc : s₀.pc = .outside := by
    have hrel : TimerLoopStep s₀ (.run ⟨2, 0⟩) s₁ := .of_step hstep
    cases hrel
    rfl
  obtain ⟨s₁', hstep', -, hall⟩ := timerExpiry_of_run hrun hpc ⟨2, 0⟩
  obtain rfl := Option.some.inj (hstep.symm.trans hstep')
  exact ⟨s₀, s₁, s, hrun, hstep, hexec, hall _ s hexec (by decide)⟩

end Runs

end Ivykis
