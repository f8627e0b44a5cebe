import Ivykis.Signal.Fork

/-!
# The interests that a signal selects

What `__iv_signal_find_first` and `__iv_signal_do_wake` do with any tree of interests that is in
order: the first of the interests in a signal is found, and it alone is woken if it is exclusive.
Exclusive interests come first, so otherwise there are none, and all interests in the signal are
woken, each once.
-/

namespace Ivykis

open Kit.Avl

variable {m : SigMem} {tree : AvlState} {T : Finset SigPtr} {t : HTree AvlPtr} {s : ℤ}

/-- `first` is what `__iv_signal_find_first` is to return for the signal `s`. -/
structure SigMem.First (m : SigMem) (T : Finset SigPtr) (s : ℤ) (first : Option SigPtr) :
    Prop where
  none_iff : first = none ↔ ∀ i ∈ T, m.signum i ≠ s
  least    : ∀ i, first = some i → i ∈ T ∧ m.signum i = s ∧
    ∀ j ∈ T, m.signum j = s → j ≠ i → ivSignalCompare m.signum m.flags i j < 0

lemma AvlInv.sigTree (h : AvlInv m.order ⟨tree, T⟩ t) : m.Tree tree T :=
  ⟨t, m.order_eq ▸ h⟩

lemma SigMem.Tree.findFirst (h : m.Tree tree T) (s : ℤ) :
    ∃ first, ivSignalFindFirst m.signum tree s = .ok first ∧ m.First T s first := by
  obtain ⟨t, ht⟩ := h
  refine ⟨_, ht.findFirst s, ?_, fun i hi => ?_⟩
  · rw [List.head?_eq_none_iff, List.eq_nil_iff_forall_not_mem]
    simp only [ht.mem_signal, not_and, ne_eq]
  · obtain ⟨F, hF⟩ := List.head?_eq_some_iff.mp hi
    obtain ⟨hiT, his⟩ := (ht.mem_signal s i).mp (hF ▸ List.mem_cons_self)
    refine ⟨hiT, his, fun j hj hjs hne => ?_⟩
    have hjF : j ∈ F := by
      have hj := (ht.mem_signal s j).mpr ⟨hj, hjs⟩
      rw [hF] at hj
      exact (List.mem_cons.mp hj).resolve_left hne
    have hsorted := ht.rank_sorted.sublist
      (List.filter_sublist (p := fun a => decide (m.signum a = s)))
    rw [hF, List.pairwise_cons] at hsorted
    rw [ivSignalCompare_eq, compareKeys_neg]
    exact hsorted.1 j hjF

/-- What is woken is the first interest if it is exclusive, and all interests otherwise. -/
structure SigMem.Selects (m : SigMem) (T : Finset SigPtr) (s : ℤ) (first : Option SigPtr)
    (W : List SigPtr) : Prop where
  nodup     : W.Nodup
  exclusive : (∃ i ∈ T, m.signum i = s ∧ (m.flags i).exclusive = true) →
    ∃ i, first = some i ∧ (m.flags i).exclusive = true ∧ W = [i]
  others    : (∀ i ∈ T, m.signum i = s → (m.flags i).exclusive = false) →
    ∀ i, i ∈ W ↔ i ∈ T ∧ m.signum i = s

lemma SigMem.Wakes.selects {first : Option SigPtr} {W : List SigPtr} (h : m.Wakes T s W)
    (hfirst : m.First T s first) : m.Selects T s first W := by
  refine ⟨h.nodup, fun hex => ?_, fun hnone i => ⟨h.mem i, fun hi => h.all hnone i hi.1 hi.2⟩⟩
  obtain ⟨i, rfl, hiex, hle⟩ := h.first hex
  obtain ⟨hiT, his⟩ := h.mem i List.mem_cons_self
  refine ⟨i, ?_, hiex, rfl⟩
  cases hf : first with
  | none => exact absurd his (hfirst.none_iff.mp hf i hiT)
  | some j =>
    obtain ⟨hjT, hjs, hlt⟩ := hfirst.least j hf
    by_contra hne
    have hij : i ≠ j := fun he => hne (by rw [he])
    have hrank := hlt i hiT his hij
    rw [ivSignalCompare_eq, compareKeys_neg] at hrank
    exact absurd (hle j hjT hjs) (not_le.mpr hrank)

/-- In every tree of interests that is in order, `__iv_signal_find_first` finds the first interest
in a signal, and `__iv_signal_do_wake` sets the flags of the interests that are selected, posts the
raw event of each of them once, and returns how many there are. Nothing else changes. -/
theorem signalWake_selects {v : SigView} (h : AvlInv v.mem.order ⟨tree, T⟩ t) (s : ℤ) :
    ∃ first W v', ivSignalFindFirst v.mem.signum tree s = .ok first ∧ v.mem.First T s first ∧
      ivSignalDoWake tree s v = .ok (W.length, v') ∧ v.mem.Selects T s first W ∧
      v'.mem = { v.mem with active := fun i => v.mem.active i || decide (i ∈ W) } ∧
      ∀ r, v'.unread r = v.unread r + (W.map v.mem.ev).count r := by
  obtain ⟨first, hfind, hfirst⟩ := h.sigTree.findFirst s
  obtain ⟨W, hwake, hW⟩ := h.sigTree.doWake s
  exact ⟨first, W, v.wake W, hfind, hfirst, hwake, hW.selects hfirst, v.wake_mem W,
    v.wake_unread W⟩

/-- Two interests in the signal `10`, one of them exclusive, and one in the signal `12`. -/
def threeSignals : SigMem :=
  { blankMem with
    signum := fun i => if i = 24 then 12 else 10
    flags  := fun i => ⟨i = 16, false⟩ }

theorem signalWake_selects_exclusive : ∃ tree T t v',
    AvlInv threeSignals.order ⟨tree, T⟩ t ∧ T = {8, 16, 24} ∧
    ivSignalFindFirst threeSignals.signum tree 10 = .ok (some 16) ∧
    ivSignalDoWake tree 10 ⟨threeSignals, fun _ => 0⟩ = .ok (1, v') ∧
    v'.mem.active 16 = true ∧ v'.mem.active 8 = false := by
  have hmap : ((avlLts threeSignals.order (blankMem.sigs none)).exec
      (avlLts threeSignals.order (blankMem.sigs none)).init
        [.insert 8, .insert 16, .insert 24]).map AvlSystem.inTree = some {8, 16, 24} := by
    decide +kernel
  obtain ⟨⟨tree, T⟩, hrun, rfl⟩ := Option.map_eq_some_iff.mp hmap
  obtain ⟨t, ht⟩ := avlInv_of_run hrun
  obtain ⟨first, W, v', hfind, hfirst, hwake, hsel, hmem, -⟩ :=
    signalWake_selects (v := ⟨threeSignals, fun _ => 0⟩) ht 10
  obtain ⟨i, rfl, hiex, rfl⟩ := hsel.exclusive ⟨16, by decide, by decide, by decide⟩
  obtain rfl : i = 16 := of_decide_eq_true hiex
  refine ⟨tree, _, t, v', ht, rfl, hfind, hwake, ?_, ?_⟩
  · rw [hmem]
    decide
  · rw [hmem]
    decide

end Ivykis
