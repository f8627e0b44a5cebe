import Mathlib.Data.List.Nodup
import Mathlib.Tactic.Common

/-!
# Objects in places

Objects that have been handed out are each in exactly one place, and occur there once. Places are
lists: queues, local variables of threads, or the objects that have been given back. An object
that is given back twice, or that is lost, would break this.
-/

namespace Kit

variable {π ι : Type*}

/-- Each object that satisfies `issued` is in exactly one place, once, and nothing else is. -/
structure Placed (holds : π → List ι) (issued : ι → Prop) : Prop where
  nodup  : ∀ p, (holds p).Nodup
  unique : ∀ p q x, x ∈ holds p → x ∈ holds q → p = q
  issued : ∀ x, issued x ↔ ∃ p, x ∈ holds p

namespace Placed

variable {holds holds' : π → List ι} {issued issued' : ι → Prop} {a b : π}

lemma empty (h : ∀ x, ¬ issued x) : Placed (fun _ : π => ([] : List ι)) issued where
  nodup _ := List.nodup_nil
  unique _ _ _ hx := absurd hx List.not_mem_nil
  issued x := by simp [h x]

lemma congr (h : Placed holds issued) (heq : ∀ p, holds' p = holds p) : Placed holds' issued := by
  obtain rfl : holds' = holds := funext heq
  exact h

/-- A new object is put somewhere. -/
lemma add (h : Placed holds issued) {x : ι} (hx : ¬ issued x)
    (hissued : ∀ y, issued' y ↔ issued y ∨ y = x) (ha : (holds' a).Perm (x :: holds a))
    (hother : ∀ p, p ≠ a → holds' p = holds p) : Placed holds' issued' := by
  have hnew : ∀ p, x ∉ holds p := fun p hp => hx ((h.issued x).mpr ⟨p, hp⟩)
  have hmem : ∀ p y, y ∈ holds' p ↔ y ∈ holds p ∨ (p = a ∧ y = x) := by
    intro p y
    by_cases hp : p = a
    · rw [hp, ha.mem_iff, List.mem_cons]
      tauto
    · rw [hother p hp]
      tauto
  refine ⟨fun p => ?_, fun p q y hyp hyq => ?_, fun y => ?_⟩
  · by_cases hp : p = a
    · rw [hp, ha.nodup_iff]
      exact List.nodup_cons.mpr ⟨hnew a, h.nodup a⟩
    · rw [hother p hp]
      exact h.nodup p
  · rcases (hmem p y).mp hyp with hyp | ⟨hp, rfl⟩ <;>
      rcases (hmem q y).mp hyq with hyq | ⟨hq, hyx⟩
    · exact h.unique p q y hyp hyq
    · exact absurd (hyx ▸ hyp) (hnew p)
    · exact absurd hyq (hnew q)
    · rw [hp, hq]
  · rw [hissued, h.issued]
    simp only [hmem]
    constructor
    · rintro (⟨p, hp⟩ | rfl)
      · exact ⟨p, Or.inl hp⟩
      · exact ⟨a, Or.inr ⟨rfl, rfl⟩⟩
    · rintro ⟨p, hp | ⟨-, rfl⟩⟩
      · exact Or.inl ⟨p, hp⟩
      · exact Or.inr rfl

/-- Objects are moved between two places. -/
lemma move (h : Placed holds issued) (hab : a ≠ b)
    (hperm : (holds' a ++ holds' b).Perm (holds a ++ holds b))
    (hother : ∀ p, p ≠ a → p ≠ b → holds' p = holds p) : Placed holds' issued := by
  have hnd : (holds' a ++ holds' b).Nodup := by
    refine hperm.nodup_iff.mpr (List.nodup_append.mpr ⟨h.nodup a, h.nodup b, ?_⟩)
    rintro x hxa y hyb rfl
    exact hab (h.unique a b x hxa hyb)
  have hmem : ∀ y, y ∈ holds' a ∨ y ∈ holds' b ↔ y ∈ holds a ∨ y ∈ holds b := by
    intro y
    rw [← List.mem_append, ← List.mem_append, hperm.mem_iff]
  -- an object at one of the two places was at one of them before
  have hback : ∀ p y, (p = a ∨ p = b) → y ∈ holds' p → y ∈ holds a ∨ y ∈ holds b := by
    rintro p y (rfl | rfl) hy
    · exact (hmem y).mp (Or.inl hy)
    · exact (hmem y).mp (Or.inr hy)
  have hfar : ∀ p q y, (p = a ∨ p = b) → ¬ (q = a ∨ q = b) → y ∈ holds' p → y ∉ holds' q := by
    intro p q y hp hq hyp hyq
    rw [hother q (fun he => hq (Or.inl he)) fun he => hq (Or.inr he)] at hyq
    rcases hback p y hp hyp with hy | hy
    · exact hq (Or.inl (h.unique q a y hyq hy))
    · exact hq (Or.inr (h.unique q b y hyq hy))
  refine ⟨fun p => ?_, fun p q y hyp hyq => ?_, fun y => ?_⟩
  · by_cases hp : p = a ∨ p = b
    · rcases hp with rfl | rfl
      · exact (List.nodup_append.mp hnd).1
      · exact (List.nodup_append.mp hnd).2.1
    · rw [hother p (fun he => hp (Or.inl he)) fun he => hp (Or.inr he)]
      exact h.nodup p
  · by_cases hp : p = a ∨ p = b <;> by_cases hq : q = a ∨ q = b
    · have hdisj := (List.nodup_append.mp hnd).2.2
      rcases hp with rfl | rfl <;> rcases hq with rfl | rfl
      · rfl
      · exact absurd rfl (hdisj y hyp y hyq)
      · exact absurd rfl (hdisj y hyq y hyp)
      · rfl
    · exact absurd hyq (hfar p q y hp hq hyp)
    · exact absurd hyp (hfar q p y hq hp hyq)
    · rw [hother p (fun he => hp (Or.inl he)) fun he => hp (Or.inr he)] at hyp
      rw [hother q (fun he => hq (Or.inl he)) fun he => hq (Or.inr he)] at hyq
      exact h.unique p q y hyp hyq
  · rw [h.issued]
    constructor
    · rintro ⟨p, hp⟩
      by_cases hpab : p = a ∨ p = b
      · have hy : y ∈ holds a ∨ y ∈ holds b := by
          rcases hpab with rfl | rfl
          · exact Or.inl hp
          · exact Or.inr hp
        rcases (hmem y).mpr hy with hy | hy
        · exact ⟨a, hy⟩
        · exact ⟨b, hy⟩
      · refine ⟨p, ?_⟩
        rwa [hother p (fun he => hpab (Or.inl he)) fun he => hpab (Or.inr he)]
    · rintro ⟨p, hp⟩
      by_cases hpab : p = a ∨ p = b
      · rcases hback p y hpab hp with hy | hy
        · exact ⟨a, hy⟩
        · exact ⟨b, hy⟩
      · refine ⟨p, ?_⟩
        rwa [hother p (fun he => hpab (Or.inl he)) fun he => hpab (Or.inr he)] at hp

end Placed
end Kit
