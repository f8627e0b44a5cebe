import Ivykis.Timer.Properties

/-!
# How many timers there can be

`iv_timer_get_node` shifts an index by seven bits for each level of the tree and for one more. As
long as there are fewer than `2 ^ 28` timers the tree has at most four levels, and all shifts and
all indices are those of an `int`. The manual promises no limit on the number of timers, but the
registration of the timer with index `2 ^ 28` adds a fifth level and then shifts by `35`.
-/

namespace Ivykis

variable {expires : TimerPtr → Timespec} {tr : List TimerOp} {st st' : TimerState}

lemma timerStep_mono {cap cap' : ℕ} (hcap : cap ≤ cap') {op : TimerOp}
    (h : timerStep cap st op = some st') : timerStep cap' st op = some st' := by
  cases op with
  | register t =>
    simp only [timerStep] at h ⊢
    split_ifs at h with ht
    rw [if_pos ⟨ht.1, by omega⟩, h]
  | unregister t => exact h
  | setExpires t e => exact h

lemma run_mono {cap cap' a : ℕ} (hcap : cap ≤ cap') (h : (timerLts cap expires a).Run tr st) :
    (timerLts cap' expires a).Run tr st := by
  refine Kit.Lts.Run.induct (L := timerLts cap expires a)
    (P := fun tr st => (timerLts cap' expires a).Run tr st) rfl ?_ h
  intro tr st op st' _ hrun hstep
  exact Kit.Lts.run_snoc.mpr ⟨st, hrun, timerStep_mono hcap hstep⟩

/-- The arithmetic of the next call stays within `int`: a register or unregister that shifted by
`32` or more, or whose sums overflowed, would fault. -/
structure ArithmeticOk (st : TimerState) : Prop where
  shift      : (st.ratDepth + 1) * timerSplitBits < 32
  boundary   : shiftLeftOne (st.ratDepth * timerSplitBits) = .ok (128 ^ st.ratDepth)
  children   : ∀ i ≤ st.numTimers, 2 * i + 1 ≤ intMax
  register   : ∀ t e, st.index t = -1 → st.numTimers + 1 < 2 ^ 28 →
    ivTimerRegister st t = .error e → e = outOfMemory
  unregister : ∀ t, 1 ≤ st.index t → ∃ st', ivTimerUnregister st t = .ok st'

theorem timerArithmetic_of_run {a : ℕ} (h : (timerLts (2 ^ 28) expires a).Run tr st) :
    ArithmeticOk st := by
  obtain ⟨A, hinv⟩ := timerInv_of_run h
  have hdepth := hinv.tree.ratDepth_le
  have hsmall := hinv.tree.small
  refine ⟨?_, ?_, fun i hi => ?_, fun t e ht hn he => ?_, fun t ht => ?_⟩
  · rw [timerSplitBits_eq]
    omega
  · rw [shiftLeftOne, if_pos (by rw [timerSplitBits_eq]; omega), Nat.one_shiftLeft,
      timerSplitBits_eq, mul_comm, pow_mul]
    norm_num
  · simp only [intMax]
    omega
  · rcases hinv.tree.register_eq hinv.valid ht (by norm_num at hn ⊢; omega) with
      ⟨hoom, -⟩ | ⟨st', A', heq, -⟩
    · exact Except.error.inj (he.symm.trans hoom)
    · cases he.symm.trans heq
  · obtain ⟨st', A', heq, -⟩ := hinv.tree.unregister_eq hinv.valid ht
    exact ⟨st', heq⟩

theorem timerArithmetic_of_run_mostTimers :
    ∃ st, (timerLts (2 ^ 28) (fun _ => ⟨0, 0⟩) (2 ^ 31)).Run
        ((List.range (2 ^ 28 - 1)).map .register) st ∧
      st.numTimers = 2 ^ 28 - 1 ∧ ArithmeticOk st := by
  obtain ⟨st, hrun, hn, -⟩ := exists_run (fun _ => ⟨0, 0⟩) (n := 2 ^ 28 - 1) (a := 2 ^ 31)
    (by norm_num) (by norm_num)
  exact ⟨st, hrun, hn, timerArithmetic_of_run hrun⟩

/-- With `2 ^ 28 - 1` timers registered and memory to spare, no further timer can be registered:
the call shifts an `int` by more than its width. -/
theorem register_shifts_by_35 :
    ∃ tr st, (timerLts (2 ^ 31) (fun _ => ⟨0, 0⟩) (2 ^ 31)).Run tr st ∧
      st.numTimers = 2 ^ 28 - 1 ∧
      ∃ t, st.index t = -1 ∧ ivTimerRegister st t = .error .undefinedShift := by
  obtain ⟨st, hrun, hn, hindex, havail⟩ := exists_run (fun _ => ⟨0, 0⟩) (n := 2 ^ 28 - 1)
    (a := 2 ^ 31) (by norm_num) (by norm_num)
  refine ⟨_, st, run_mono (by norm_num) hrun, hn, 2 ^ 28 - 1, hindex _ le_rfl, ?_⟩
  obtain ⟨A, hinv⟩ := timerInv_of_run hrun
  rcases hinv.tree.register_full (hindex _ le_rfl) (by rw [hn]; norm_num) with ⟨-, hfew⟩ | hshift
  · omega
  · exact hshift

end Ivykis
