import Mathlib.Data.List.Count
import Mathlib.Order.Nat
import Ivykis.Kit.Lts

/-!
# A pool of addresses

An allocator hands out fresh addresses, as long as there is room, and takes back what is in use.
Addresses below `base` are in use from the beginning and are never taken back.

No address is handed out or taken back twice, so if nothing but the base is in use at the end of a
run, then every address that was handed out has been taken back exactly once.
-/

namespace Kit

/-- The addresses in use, the next one to be handed out, and how many more there is room for. -/
structure Pool where
  live  : ℕ → Bool
  brk   : ℕ
  avail : ℕ

inductive PoolOp where
  | alloc (n : ℕ)
  | free (n : ℕ)
  deriving DecidableEq, Repr

def Pool.step (base : ℕ) (p : Pool) : PoolOp → Option Pool
  | .alloc n =>
    if n = p.brk ∧ p.avail ≠ 0 then
      some ⟨Function.update p.live n true, p.brk + 1, p.avail - 1⟩
    else none
  | .free n =>
    if base ≤ n ∧ p.live n = true then
      some ⟨Function.update p.live n false, p.brk, p.avail + 1⟩
    else none

def poolLts (base avail : ℕ) : Lts Pool PoolOp where
  init := ⟨fun n => decide (n < base), base, avail⟩
  step := Pool.step base

/-- How often each address has been handed out and taken back. -/
structure PoolInv (base : ℕ) (ops : List PoolOp) (p : Pool) : Prop where
  base_le : base ≤ p.brk
  alloc   : ∀ n, ops.count (.alloc n) = if base ≤ n ∧ n < p.brk then 1 else 0
  free    : ∀ n, base ≤ n → ops.count (.free n) + (p.live n).toNat = ops.count (.alloc n)
  fixed   : ∀ n < base, .free n ∉ ops

namespace PoolInv

variable {base avail : ℕ} {ops : List PoolOp} {p p' : Pool} {op : PoolOp}

lemma init (base avail : ℕ) : PoolInv base [] (poolLts base avail).init where
  base_le := le_rfl
  alloc n := by
    rw [if_neg (by simp only [poolLts]; omega), List.count_nil]
  free n hn := by simp [poolLts, not_lt.mpr hn]
  fixed n _ := List.not_mem_nil

/-- What is in use has been handed out. -/
lemma lt_brk {n : ℕ} (h : PoolInv base ops p) (hn : base ≤ n) (hlive : p.live n = true) :
    n < p.brk := by
  have hfree := h.free n hn
  rw [h.alloc n, hlive] at hfree
  by_contra hlt
  simp [hlt] at hfree

lemma snoc (h : PoolInv base ops p) (hstep : p.step base op = some p') :
    PoolInv base (ops ++ [op]) p' := by
  have hcount : ∀ a, (ops ++ [op]).count a = ops.count a + if op = a then 1 else 0 := by
    intro a
    simp [List.count_append, List.count_singleton]
  cases op with
  | alloc m =>
    simp only [Pool.step] at hstep
    split_ifs at hstep with hm
    obtain ⟨rfl, -⟩ := hm
    obtain rfl := Option.some.inj hstep
    have hdead : base ≤ p.brk → (p.live p.brk).toNat = 0 := fun hb => by
      cases hl : p.live p.brk with
      | false => rfl
      | true => exact absurd (h.lt_brk hb hl) (lt_irrefl _)
    refine ⟨h.base_le.trans (Nat.le_succ _), fun n => ?_, fun n hn => ?_, fun n hn hmem => ?_⟩
    · rw [hcount, h.alloc n]
      simp only [PoolOp.alloc.injEq]
      have := h.base_le
      split_ifs <;> omega
    · rw [hcount, hcount, ← h.free n hn]
      simp only [PoolOp.alloc.injEq, reduceCtorEq, if_false, Function.update_apply]
      by_cases hnm : n = p.brk
      · subst hnm
        simp [hdead hn]
      · simp [hnm, Ne.symm hnm]
    · simp only [List.mem_append, List.mem_singleton, reduceCtorEq, or_false] at hmem
      exact h.fixed n hn hmem
  | free m =>
    simp only [Pool.step] at hstep
    split_ifs at hstep with hm
    obtain ⟨hbase, hlive⟩ := hm
    obtain rfl := Option.some.inj hstep
    refine ⟨h.base_le, fun n => ?_, fun n hn => ?_, fun n hn hmem => ?_⟩
    · rw [hcount, h.alloc n]
      simp
    · rw [hcount, hcount, ← h.free n hn]
      simp only [PoolOp.free.injEq, reduceCtorEq, if_false, Function.update_apply]
      by_cases hnm : n = m
      · subst hnm
        simp [hlive]
      · simp [hnm, Ne.symm hnm]
    · simp only [List.mem_append, List.mem_singleton, PoolOp.free.injEq] at hmem
      rcases hmem with hmem | rfl
      · exact h.fixed n hn hmem
      · omega

theorem of_run (h : (poolLts base avail).Run ops p) : PoolInv base ops p :=
  h.induct (init base avail) fun _ _ _ _ _ hinv hstep => hinv.snoc hstep

end PoolInv

/-- Every address that the pool has handed out has been handed out once and taken back once, and
nothing else has been taken back. -/
structure Pool.Balanced (base : ℕ) (p : Pool) (ops : List PoolOp) : Prop where
  alloc : ∀ n, ops.count (.alloc n) = if base ≤ n ∧ n < p.brk then 1 else 0
  free  : ∀ n, ops.count (.free n) = ops.count (.alloc n)

theorem Pool.Balanced.of_run {base avail : ℕ} {ops : List PoolOp} {p : Pool}
    (h : (poolLts base avail).Run ops p) (hlive : ∀ n, p.live n = true → n < base) :
    p.Balanced base ops := by
  have hinv := PoolInv.of_run h
  refine ⟨hinv.alloc, fun n => ?_⟩
  rcases lt_or_ge n base with hn | hn
  · rw [List.count_eq_zero.mpr (hinv.fixed n hn), hinv.alloc n, if_neg (by omega)]
  · rw [← hinv.free n hn]
    cases hl : p.live n with
    | false => rfl
    | true => exact absurd (hlive n hl) (not_lt.mpr hn)

end Kit
