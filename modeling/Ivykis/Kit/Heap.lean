import Mathlib.Order.Lattice
import Mathlib.Tactic.Common

/-!
# Implicit binary heaps

A heap is a function `f : ℕ → κ` into a linear order whose positions start at `1`: position `j`
has parent `j / 2` and children `2 * j` and `2 * j + 1`. A heap of finite size has `⊤` in the
positions above its size, so no size appears here.

Sifting keeps all pairs in order that do not touch one position, and what the two directions
need of that position is `UpReady` and `DownReady`.
-/

namespace Kit.Heap

section Swap

variable {β : Type*} {f : ℕ → β} {i j k : ℕ}

/-- Exchange the contents of two positions. -/
def swap (f : ℕ → β) (i j : ℕ) : ℕ → β :=
  fun k => if k = i then f j else if k = j then f i else f k

@[simp] lemma swap_left (f : ℕ → β) (i j : ℕ) : swap f i j i = f j := by
  simp [swap]

@[simp] lemma swap_right (f : ℕ → β) (i j : ℕ) : swap f i j j = f i := by
  simp only [swap]
  split_ifs with h
  · rw [h]
  · rfl

lemma swap_of_ne (hi : k ≠ i) (hj : k ≠ j) : swap f i j k = f k := by
  simp [swap, hi, hj]

end Swap

variable {κ : Type*} [LinearOrder κ] {f : ℕ → κ} {i j c : ℕ}

/-- No position comes before its parent. -/
def Ordered (f : ℕ → κ) : Prop :=
  ∀ j, 2 ≤ j → f (j / 2) ≤ f j

/-- All pairs that do not touch `i` are in order, and so are the pairs across it. -/
structure OrderedExcept (f : ℕ → κ) (i : ℕ) : Prop where
  apart  : ∀ j, 2 ≤ j → j ≠ i → j / 2 ≠ i → f (j / 2) ≤ f j
  across : 2 ≤ i → ∀ j, 2 ≤ j → j / 2 = i → f (i / 2) ≤ f j

/-- Only the pair of `i` and its parent may be out of order. -/
structure UpReady (f : ℕ → κ) (i : ℕ) : Prop extends OrderedExcept f i where
  below : ∀ j, 2 ≤ j → j / 2 = i → f i ≤ f j

/-- Only the pairs of `i` and its children may be out of order. -/
structure DownReady (f : ℕ → κ) (i : ℕ) : Prop extends OrderedExcept f i where
  above : 2 ≤ i → f (i / 2) ≤ f i

/-! ### The root -/

/-- The root of an ordered heap is its minimum. -/
theorem Ordered.root_le (h : Ordered f) (hj : 1 ≤ j) : f 1 ≤ f j := by
  induction j using Nat.strongRecOn with
  | ind j ih =>
    by_cases h1 : j = 1
    · rw [h1]
    · exact (ih (j / 2) (by omega) (by omega)).trans (h j (by omega))

/-! ### Sifting up -/

lemma Ordered.orderedExcept (h : Ordered f) (i : ℕ) : OrderedExcept f i where
  apart j hj _ _ := h j hj
  across hi j hj hji := by
    subst hji
    exact (h _ hi).trans (h j hj)

/-- A late position that comes before its parent changes places with it. -/
lemma OrderedExcept.up (h : OrderedExcept f i) (hi : 2 ≤ i) (hlt : f i < f (i / 2)) :
    UpReady (swap f i (i / 2)) (i / 2) where
  apart j hj hjp hjq := by
    by_cases hji : j = i
    · exact absurd (congrArg (· / 2) hji) hjq
    · rw [swap_of_ne hji hjp]
      by_cases hj2 : j / 2 = i
      · rw [hj2, swap_left]
        exact h.across hi j hj hj2
      · rw [swap_of_ne hj2 hjq]
        exact h.apart j hj hji hj2
  across hp j hj hjp := by
    have hpp : f (i / 2 / 2) ≤ f (i / 2) := h.apart (i / 2) hp (by omega) (by omega)
    rw [swap_of_ne (show i / 2 / 2 ≠ i by omega) (show i / 2 / 2 ≠ i / 2 by omega)]
    by_cases hji : j = i
    · rw [hji, swap_left]
      exact hpp
    · rw [swap_of_ne hji (by omega)]
      exact hpp.trans (hjp ▸ h.apart j hj hji (by omega))
  below j hj hjp := by
    rw [swap_right]
    by_cases hji : j = i
    · rw [hji, swap_left]
      exact hlt.le
    · rw [swap_of_ne hji (by omega)]
      exact hlt.le.trans (hjp ▸ h.apart j hj hji (by omega))

/-- Sifting up ends in an ordered heap. -/
lemma UpReady.ordered (h : UpReady f i) (hstop : 2 ≤ i → f (i / 2) ≤ f i) : Ordered f := by
  intro j hj
  by_cases hji : j = i
  · subst hji
    exact hstop hj
  · by_cases hj2 : j / 2 = i
    · rw [hj2]
      exact h.below j hj hj2
    · exact h.apart j hj hji hj2

/-! ### Sifting down -/

/-- A position that comes after its least child changes places with it. -/
lemma DownReady.down (h : DownReady f i) (hi : 1 ≤ i) (hc : c / 2 = i) (hlt : f c < f i)
    (hmin : ∀ j, 2 ≤ j → j / 2 = i → f c ≤ f j) : DownReady (swap f i c) c where
  apart j hj hjc hj2 := by
    by_cases hji : j = i
    · subst hji
      rw [swap_left, swap_of_ne (by omega) hj2]
      exact h.across hj c (by omega) hc
    · rw [swap_of_ne hji hjc]
      by_cases hjc2 : j / 2 = i
      · rw [hjc2, swap_left]
        exact hmin j hj hjc2
      · rw [swap_of_ne hjc2 hj2]
        exact h.apart j hj hji hjc2
  across hc2 j hj hjc := by
    rw [hc, swap_left, swap_of_ne (by omega) (by omega)]
    exact hjc ▸ h.apart j hj (by omega) (by omega)
  above hc2 := by
    rw [hc, swap_left, swap_right]
    exact hlt.le

/-- Sifting down ends in an ordered heap. -/
lemma DownReady.ordered (h : DownReady f i)
    (hstop : ∀ j, 2 ≤ j → j / 2 = i → f i ≤ f j) : Ordered f := by
  intro j hj
  by_cases hji : j = i
  · subst hji
    exact h.above hj
  · by_cases hj2 : j / 2 = i
    · rw [hj2]
      exact hstop j hj hj2
    · exact h.apart j hj hji hj2

end Kit.Heap
