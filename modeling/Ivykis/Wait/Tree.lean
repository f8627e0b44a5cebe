import Ivykis.Avl.Search
import Ivykis.Wait.Basic

/-!
# The tree of interests

Interests with different pids are in a search tree, in which `__iv_wait_interest_find` finds the
one that has a given pid.
-/

namespace Ivykis

/-- Interests in the order of their pids. -/
def pidOrder (pid : InterestPtr → ℤ) : AvlCompare where
  compare     := ivWaitInterestCompare pid
  swap a b    := (keyOrder pid).swap a b
  trans a b c := (keyOrder pid).trans a b c

/-- `interests` is a tree of the interests in `T`, ordered by pid. -/
def InterestTree (pid : InterestPtr → ℤ) (interests : AvlState) (T : Finset InterestPtr) : Prop :=
  ∃ t, AvlInv (pidOrder pid) ⟨interests, T⟩ t

lemma interestFindLoop_eq (pid : InterestPtr → ℤ) (interests : AvlState) (num : ℤ) (fuel : ℕ)
    (an : Option InterestPtr) :
    interestFindLoop pid interests num fuel an = findKey pid interests num fuel an := by
  induction fuel generalizing an with
  | zero => cases an <;> rfl
  | succ fuel ih =>
    cases an with
    | none => rfl
    | some an => simp only [interestFindLoop, findKey, ih]

namespace InterestTree

variable {pid pid' : InterestPtr → ℤ} {interests : AvlState} {T : Finset InterestPtr}
  {i : InterestPtr}

lemma iff_keyTree : InterestTree pid interests T ↔ KeyTree pid interests T :=
  Iff.rfl

lemma empty (pid : InterestPtr → ℤ) (nodes : AvlState) :
    InterestTree pid { nodes with root := none } ∅ :=
  iff_keyTree.mpr (.empty pid nodes)

lemma congr (h : InterestTree pid interests T) (hpid : ∀ i ∈ T, pid' i = pid i) :
    InterestTree pid' interests T :=
  iff_keyTree.mpr ((iff_keyTree.mp h).congr hpid)

lemma insert (h : InterestTree pid interests T) (hi : i ∉ T) (hpid : ∀ j ∈ T, pid j ≠ pid i) :
    ∃ interests', ivAvlTreeInsert (ivWaitInterestCompare pid) avlFuel interests i
        = .ok (0, interests') ∧ InterestTree pid interests' (Insert.insert i T) :=
  (iff_keyTree.mp h).insert hi hpid

lemma delete (h : InterestTree pid interests T) (hi : i ∈ T) :
    ∃ interests', ivAvlTreeDelete avlFuel interests i = .ok interests' ∧
      InterestTree pid interests' (T.erase i) :=
  (iff_keyTree.mp h).delete hi

end InterestTree

/-! ### Finding an interest -/

section Find

variable {st : WaitState} {pid : ℤ} {T : Finset InterestPtr} {i j : InterestPtr}

lemma InterestTree.find_of_mem (h : InterestTree st.pid st.interests T) (hi : i ∈ T) :
    ivWaitInterestFind st (st.pid i) = .ok (some i) := by
  rw [ivWaitInterestFind, interestFindLoop_eq]
  exact (iff_keyTree.mp h).find_of_mem hi

lemma InterestTree.pid_inj (h : InterestTree st.pid st.interests T) (hi : i ∈ T) (hj : j ∈ T)
    (hij : st.pid i = st.pid j) : i = j :=
  (iff_keyTree.mp h).key_inj hi hj hij

lemma InterestTree.find_of_forall_ne (h : InterestTree st.pid st.interests T)
    (hne : ∀ i ∈ T, st.pid i ≠ pid) : ivWaitInterestFind st pid = .ok none := by
  rw [ivWaitInterestFind, interestFindLoop_eq]
  exact (iff_keyTree.mp h).find_of_forall_ne hne

/-- What `__iv_wait_interest_find` returns. -/
lemma InterestTree.find_eq (h : InterestTree st.pid st.interests T) (pid : ℤ) :
    (∃ i ∈ T, st.pid i = pid ∧ ivWaitInterestFind st pid = .ok (some i)) ∨
      ((∀ i ∈ T, st.pid i ≠ pid) ∧ ivWaitInterestFind st pid = .ok none) := by
  by_cases hex : ∃ i ∈ T, st.pid i = pid
  · obtain ⟨i, hi, rfl⟩ := hex
    exact Or.inl ⟨i, hi, rfl, h.find_of_mem hi⟩
  · have hne : ∀ i ∈ T, st.pid i ≠ pid := fun i hi he => hex ⟨i, hi, he⟩
    exact Or.inr ⟨hne, h.find_of_forall_ne hne⟩

end Find

end Ivykis
