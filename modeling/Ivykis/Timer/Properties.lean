import Mathlib.Order.Bounds.Basic
import Ivykis.Timer.Operations

/-!
# The timer heap over whole runs

What holds after every sequence of `iv_timer_register` and `iv_timer_unregister` calls that
keeps the number of timers below `2 ^ 28`: the slots are a heap of exactly the registered
timers, and the radix tree is an array of slots.
-/

namespace Ivykis

/-! ### Reading slots -/

/-- The way from level `i` down to the leaf of a slot, over the nodes that exist. -/
def lookupLoop (st : TimerState) (index : ℕ) : ℕ → NodePtr → Option NodePtr
  | 0, r => some r
  | i + 1, r =>
    match st.child r ((index >>> ((i + 1) * timerSplitBits)) &&& (timerSplitNodes - 1)) with
    | .node c => lookupLoop st index i c
    | _       => none

/-- The address of slot `index`, if its leaf is allocated. -/
def TimerState.lookupSlot (st : TimerState) (index : ℕ) : Option Slot :=
  if index >>> ((st.ratDepth + 1) * timerSplitBits) = 0 then
    match st.child firstLeaf 0 with
    | .node r => (lookupLoop st index st.ratDepth r).map
        fun n => ⟨n, index &&& (timerSplitNodes - 1)⟩
    | _       => none
  else none

/-- The timer in slot `index`. -/
def TimerState.timerAt (st : TimerState) (index : ℕ) : Option TimerPtr :=
  (st.lookupSlot index).bind fun p => match st.child p.node p.off with
    | .timer t => some t
    | _        => none

lemma shiftRight_bits (n k : ℕ) : n >>> (k * timerSplitBits) = n / 128 ^ k := by
  rw [Nat.shiftRight_eq_div_pow, timerSplitBits_eq, mul_comm, pow_mul]
  norm_num

namespace RadixTree

variable {st : TimerState} {A : NodeMap} {i k : ℕ} {r : NodePtr}

lemma lookupLoop_eq (h : RadixTree st A) (hk : k ≤ st.ratDepth)
    (hr : A k (i / 128 ^ (k + 1)) = some r) : lookupLoop st i k r = A 0 (i / 128) := by
  induction k generalizing r with
  | zero =>
    rw [zero_add, pow_one] at hr
    rw [hr]
    rfl
  | succ k ih =>
    rw [lookupLoop, shiftRight_bits, and_splitNodes,
      h.link _ hr (Nat.mod_lt _ (by norm_num)), digit]
    cases hc : A k (i / 128 ^ (k + 1)) with
    | some c => exact ih (by omega) hc
    | none =>
      -- no leaf without a node above it
      by_contra hne
      exact h.path (i := i) (k := k) (fun h0 => hne h0.symm) (by omega) hc

/-- Exactly the slots of leaves in the tree can be found. -/
lemma lookupSlot_eq (h : RadixTree st A) :
    st.lookupSlot i = (A 0 (i / 128)).map fun n => ⟨n, i % 128⟩ := by
  obtain ⟨r, hr, hroot⟩ := h.root
  rw [TimerState.lookupSlot, shiftRight_bits, and_splitNodes, hroot]
  split_ifs with hi
  · dsimp only
    rw [h.lookupLoop_eq le_rfl (by rw [hi, hr])]
  · cases hc : A 0 (i / 128) with
    | none => rfl
    | some n => exact absurd ((h.below _ _ (h.path (by simp [hc]) le_rfl)).2 rfl) hi

lemma timerAt_eq (h : RadixTree st A) : st.timerAt i = st.slotAt A i := by
  rw [TimerState.timerAt, h.lookupSlot_eq, TimerState.slotAt]
  cases A 0 (i / 128) <;> rfl

end RadixTree

/-! ### Runs -/

/-- An operation on the array. -/
def arrayStep (a : TimerArray) : TimerOp → TimerArray
  | .register t     => a.register t
  | .unregister t   => a.unregister t
  | .setExpires t e => { a with expires := Function.update a.expires t e }

/-- The array after a sequence of operations, starting with no timers. -/
def arrayRun (expires : TimerPtr → Timespec) : List TimerOp → TimerArray :=
  List.foldl arrayStep ⟨0, fun _ => none, fun _ => -1, expires⟩

lemma registeredTimers_snoc (tr : List TimerOp) (op : TimerOp) :
    registeredTimers (tr ++ [op]) = match op with
      | .register t     => insert t (registeredTimers tr)
      | .unregister t   => (registeredTimers tr).erase t
      | .setExpires _ _ => registeredTimers tr := by
  rw [registeredTimers, List.foldl_append]
  rfl

lemma arrayRun_snoc (expires : TimerPtr → Timespec) (tr : List TimerOp) (op : TimerOp) :
    arrayRun expires (tr ++ [op]) = arrayStep (arrayRun expires tr) op := by
  rw [arrayRun, List.foldl_append]
  rfl

/-- The invariant of a run: the tree is an array, the array is a heap, and the heap holds the
registered timers. -/
structure TimerInv (expires : TimerPtr → Timespec) (tr : List TimerOp) (st : TimerState)
    (A : NodeMap) : Prop where
  tree  : TimerTree st A
  array : st.array A = arrayRun expires tr
  valid : (st.array A).Valid
  on    : ∀ t, (st.array A).OnHeap t ↔ t ∈ registeredTimers tr
  off   : ∀ t, t ∉ registeredTimers tr → st.index t = -1

/-- The tree of `iv_timer_init`. -/
def initMap : NodeMap := fun k q => if k = 0 ∧ q = 0 then some firstLeaf else none

lemma initMap_eq_some {k q : ℕ} {n : NodePtr} :
    initMap k q = some n ↔ k = 0 ∧ q = 0 ∧ n = firstLeaf := by
  rw [initMap]
  split_ifs with h
  · simp [h, eq_comm]
  · simp only [false_iff]
    exact fun hn => h ⟨hn.1, hn.2.1⟩

lemma initMap_ne_none {k q : ℕ} (h : initMap k q ≠ none) : k = 0 ∧ q = 0 := by
  by_contra hkq
  exact h (if_neg hkq)

lemma radixTree_init (expires : TimerPtr → Timespec) (avail : ℕ) :
    RadixTree (ivTimerInit expires avail) initMap where
  root := ⟨firstLeaf, rfl, rfl⟩
  leaf := rfl
  live_iff n := by
    simp [ivTimerInit, initMap_eq_some]
  below k q hne := by
    have := initMap_ne_none hne
    simp only [ivTimerInit]
    omega
  inj h₁ h₂ := by
    obtain ⟨hk₁, hq₁, -⟩ := initMap_eq_some.mp h₁
    obtain ⟨hk₂, hq₂, -⟩ := initMap_eq_some.mp h₂
    omega
  link j hn _ := by
    have := (initMap_eq_some.mp hn).1
    omega
  up k q _ hk := by
    simp only [ivTimerInit] at hk
    omega
  contig k q q' hne hle := by
    obtain ⟨rfl, rfl⟩ := initMap_ne_none hne
    rwa [Nat.le_zero.mp hle]
  slots q n j hn hj hne := by
    obtain ⟨-, rfl, rfl⟩ := initMap_eq_some.mp hn
    left
    exact if_neg fun h => hne ⟨rfl, h.2⟩
  lt_brk n hn := by
    simp only [ivTimerInit, beq_iff_eq] at hn ⊢
    rw [hn]
    exact Nat.one_pos

lemma timerInv_init (expires : TimerPtr → Timespec) (avail : ℕ) :
    TimerInv expires [] (ivTimerInit expires avail) initMap := by
  have hslot : (ivTimerInit expires avail).slotAt initMap = fun _ => none := by
    funext i
    simp only [TimerState.slotAt]
    cases hn : initMap 0 (i / 128) with
    | none => rfl
    | some n =>
      obtain ⟨-, -, rfl⟩ := initMap_eq_some.mp hn
      simp only [Option.bind_some, ivTimerInit]
      split_ifs <;> rfl
  have harr : (ivTimerInit expires avail).array initMap = arrayRun expires [] :=
    TimerArray.ext rfl hslot rfl rfl
  refine ⟨⟨radixTree_init expires avail, ?_, ?_, Or.inl rfl, fun i hi => ?_⟩,
    harr, ?_, fun t => ?_, fun _ _ => rfl⟩
  · exact Nat.pow_pos (by norm_num)
  · exact Nat.pow_pos (by norm_num)
  · obtain rfl : i = 0 := Nat.le_zero.mp hi
    exact Option.some_ne_none _
  · rw [harr]
    refine ⟨⟨fun i t _ hs => ?_, fun i hi hi' => ?_, fun _ _ => rfl⟩, fun t ht => ?_,
      fun _ _ => le_rfl⟩
    · cases hs
    · change i ≤ 0 at hi'
      omega
    · change 1 ≤ (-1 : ℤ) at ht
      omega
  · rw [harr]
    constructor
    · rintro ⟨i, -, hs⟩
      cases hs
    · intro ht
      simp [registeredTimers] at ht

/-- Changing the expiry time of a timer that is off the heap changes no key. -/
lemma TimerArray.Valid.setExpires {a : TimerArray} {t : TimerPtr} (h : a.Valid)
    (ht : ¬ a.OnHeap t) (e : Timespec) :
    TimerArray.Valid { a with expires := Function.update a.expires t e } where
  index_of_slot := h.index_of_slot
  filled := h.filled
  empty := h.empty
  onHeap := h.onHeap
  ordered := by
    have hkey : ∀ i, 1 ≤ i →
        TimerArray.key { a with expires := Function.update a.expires t e } i = a.key i := by
      intro i hi
      cases hs : a.slot i with
      | none => simp [TimerArray.key, hs]
      | some u =>
        have hut : u ≠ t := fun hut => ht ⟨i, hi, hut ▸ hs⟩
        simp [TimerArray.key, hs, hut]
    intro j hj
    rw [hkey j (by omega), hkey (j / 2) (by omega)]
    exact h.ordered j hj

namespace TimerInv

variable {expires : TimerPtr → Timespec} {tr : List TimerOp} {st st' : TimerState} {A : NodeMap}
  {t : TimerPtr}

lemma register (h : TimerInv expires tr st A) (ht : st.index t = -1)
    (hn : st.numTimers + 1 < 128 ^ 4) (hst : ivTimerRegister st t = .ok st') :
    ∃ A', TimerInv expires (tr ++ [.register t]) st' A' := by
  rcases h.tree.register_eq h.valid ht hn with ⟨hoom, -⟩ | ⟨st₁, A', heq, htree, harr, -⟩
  · rw [hoom] at hst
    cases hst
  · obtain rfl : st₁ = st' := by rwa [heq, Except.ok.injEq] at hst
    have hlt : (st.array A).index t < 1 := by
      simp only [TimerState.array, ht]
      norm_num
    obtain ⟨hv, -, -, hon, hidx⟩ := h.valid.register hlt
    have hon' : ∀ u, (st₁.array A').OnHeap u ↔ u ∈ registeredTimers (tr ++ [.register t]) := by
      intro u
      rw [harr, hon, h.on, registeredTimers_snoc, Finset.mem_insert]
    refine ⟨A', htree, ?_, by rwa [harr], hon', fun u hu => ?_⟩
    · rw [harr, arrayRun_snoc, arrayStep, h.array]
    · have hoff : ¬ ((st.array A).register t).OnHeap u := by rwa [← harr, hon']
      have hold : u ∉ registeredTimers tr := fun hm => hoff ((hon u).mpr (Or.inr ((h.on u).mpr hm)))
      change (st₁.array A').index u = -1
      rw [harr, hidx u hoff]
      exact h.off u hold

lemma unregister (h : TimerInv expires tr st A) (ht : 1 ≤ st.index t)
    (hst : ivTimerUnregister st t = .ok st') :
    ∃ A', TimerInv expires (tr ++ [.unregister t]) st' A' := by
  obtain ⟨st₁, A', heq, htree, harr, -⟩ := h.tree.unregister_eq h.valid ht
  obtain rfl : st₁ = st' := by rwa [heq, Except.ok.injEq] at hst
  obtain ⟨hv, -, -, hidx₀, hon, hidx⟩ := h.valid.unregister (t := t) ht
  have hon' : ∀ u, (st₁.array A').OnHeap u ↔ u ∈ registeredTimers (tr ++ [.unregister t]) := by
    intro u
    rw [harr, hon, h.on, registeredTimers_snoc, Finset.mem_erase]
  refine ⟨A', htree, ?_, by rwa [harr], hon', fun u hu => ?_⟩
  · rw [harr, arrayRun_snoc, arrayStep, h.array]
  · have hoff : ¬ ((st.array A).unregister t).OnHeap u := by rwa [← harr, hon']
    change (st₁.array A').index u = -1
    rw [harr]
    by_cases hut : u = t
    · rw [hut, hidx₀]
    · rw [hidx u hut hoff]
      exact h.off u fun hm => hoff ((hon u).mpr ⟨hut, (h.on u).mpr hm⟩)

lemma setExpires (h : TimerInv expires tr st A) (ht : st.index t = -1) (e : Timespec) :
    TimerInv expires (tr ++ [.setExpires t e])
      { st with expires := Function.update st.expires t e } A := by
  have hoff : ¬ (st.array A).OnHeap t := by
    rw [h.valid.onHeap_iff]
    simp only [TimerState.array, ht]
    norm_num
  have harr : TimerState.array { st with expires := Function.update st.expires t e } A
      = { st.array A with expires := Function.update (st.array A).expires t e } := rfl
  refine ⟨h.tree.congr rfl rfl rfl rfl rfl, ?_, ?_, fun u => ?_, fun u hu => ?_⟩
  · rw [harr, arrayRun_snoc, arrayStep, h.array]
  · rw [harr]
    exact h.valid.setExpires hoff e
  · rw [registeredTimers_snoc]
    exact h.on u
  · rw [registeredTimers_snoc] at hu
    exact h.off u hu

lemma step {op : TimerOp} (h : TimerInv expires tr st A)
    (hst : timerStep (2 ^ 28) st op = some st') :
    ∃ A', TimerInv expires (tr ++ [op]) st' A' := by
  cases op with
  | register t =>
    simp only [timerStep, Option.ite_none_right_eq_some, toOption_eq_some] at hst
    exact h.register hst.1.1 (by have := hst.1.2; norm_num at this ⊢; omega) hst.2
  | unregister t =>
    simp only [timerStep, Option.ite_none_right_eq_some, toOption_eq_some] at hst
    exact h.unregister hst.1 hst.2
  | setExpires t e =>
    simp only [timerStep, Option.ite_none_right_eq_some, Option.some.injEq] at hst
    rw [← hst.2]
    exact ⟨A, h.setExpires hst.1 e⟩

end TimerInv

theorem timerInv_of_run {expires : TimerPtr → Timespec} {avail : ℕ} {tr : List TimerOp}
    {st : TimerState} (h : (timerLts (2 ^ 28) expires avail).Run tr st) :
    ∃ A, TimerInv expires tr st A := by
  refine h.induct (P := fun tr st => ∃ A, TimerInv expires tr st A)
    ⟨initMap, timerInv_init expires avail⟩ ?_
  rintro tr st op st' - ⟨A, hinv⟩ hst
  exact hinv.step hst

/-! ### The heap -/

/-- The slots of `st` are a heap of the timers in `R`. -/
structure HeapOk (st : TimerState) (R : Finset TimerPtr) : Prop where
  filled     : ∀ i, 1 ≤ i → i ≤ st.numTimers → ∃ t, st.timerAt i = some t
  distinct   : ∀ i j t, 1 ≤ i → 1 ≤ j → st.timerAt i = some t → st.timerAt j = some t → i = j
  slot_iff   : ∀ i t, 1 ≤ i → i ≤ st.numTimers → (st.timerAt i = some t ↔ st.index t = i)
  ordered    : ∀ i t u, 2 ≤ i → i ≤ st.numTimers → st.timerAt (i / 2) = some t →
    st.timerAt i = some u → timerPtrGt st t u = false
  above_null : ∀ i p, st.numTimers < i → st.lookupSlot i = some p → st.child p.node p.off = .null
  registered : ∀ t, (∃ i, 1 ≤ i ∧ i ≤ st.numTimers ∧ st.timerAt i = some t) ↔ t ∈ R

namespace TimerInv

variable {expires : TimerPtr → Timespec} {tr : List TimerOp} {st : TimerState} {A : NodeMap}
  {t : TimerPtr}

lemma heapOk (h : TimerInv expires tr st A) : HeapOk st (registeredTimers tr) where
  filled i hi hin := by
    rw [h.tree.tree.timerAt_eq]
    exact h.valid.filled i hi hin
  distinct i j t hi hj hti htj := by
    rw [h.tree.tree.timerAt_eq] at hti htj
    exact h.valid.slot_inj hi hj hti htj
  slot_iff i t hi hin := by
    rw [h.tree.tree.timerAt_eq]
    exact h.valid.slot_iff hi
  ordered i t u hi hin ht hu := by
    rw [h.tree.tree.timerAt_eq] at ht hu
    rw [← Bool.not_eq_true, TimerTree.timerPtrGt_iff hu ht, not_lt]
    exact h.valid.ordered i hi
  above_null i p hi hp := by
    rw [h.tree.tree.lookupSlot_eq, Option.map_eq_some_iff] at hp
    obtain ⟨n, hn, rfl⟩ := hp
    have hempty : st.slotAt A i = none := h.valid.empty i hi
    rw [h.tree.tree.child_of_slotAt (by omega) hn, hempty]
    rfl
  registered t := by
    rw [← h.on t]
    constructor
    · rintro ⟨i, hi, -, hs⟩
      rw [h.tree.tree.timerAt_eq] at hs
      exact ⟨i, hi, hs⟩
    · rintro ⟨i, hi, hs⟩
      refine ⟨i, hi, h.valid.le_numTimers hs, ?_⟩
      rw [h.tree.tree.timerAt_eq]
      exact hs

lemma one_le_index_iff (h : TimerInv expires tr st A) :
    1 ≤ st.index t ↔ t ∈ registeredTimers tr :=
  h.valid.onHeap_iff.symm.trans (h.on t)

end TimerInv

namespace TimerTree

variable {st : TimerState} {A : NodeMap} {t : TimerPtr}

lemma slotPtr_one (h : TimerTree st A) : A.slotPtr 1 = ⟨firstLeaf, 1⟩ :=
  A.slotPtr_eq h.tree.leaf

lemma loadTimer_one (h : TimerTree st A) (hn : st.numTimers ≠ 0) (ht : st.slotAt A 1 = some t) :
    st.loadTimer ⟨firstLeaf, 1⟩ = .ok t := by
  rw [← h.slotPtr_one]
  exact h.loadTimer (by omega) ht

/-- No timer on the heap comes before the one in slot `1`. -/
lemma expires_root_le (hv : (st.array A).Valid) (ht : st.slotAt A 1 = some t) {u : TimerPtr}
    (hu : 1 ≤ st.index u) : st.expires t ≤ st.expires u := by
  have hslot := hv.slot_index hu
  have hle := hv.ordered.root_le (j := (st.index u).toNat) (by omega)
  rw [← not_lt, ← timespecGt_iff]
  exact fun hgt => not_lt.mpr hle ((timerPtrGt_iff hslot ht).mp hgt)

/-- `iv_get_soonest_timeout` finds a timer that no other timer on the heap comes before. -/
lemma getSoonestTimeout_eq (h : TimerTree st A) (hv : (st.array A).Valid)
    (hn : st.numTimers ≠ 0) :
    ∃ t, 1 ≤ st.index t ∧ ivGetSoonestTimeout st = .ok (some (st.expires t)) ∧
      ∀ u, 1 ≤ st.index u → timespecGt (st.expires t) (st.expires u) = false := by
  obtain ⟨t, ht⟩ := hv.filled 1 le_rfl (by simp only [TimerState.array]; omega)
  have hidx : st.index t = 1 := hv.index_of_slot 1 t le_rfl ht
  refine ⟨t, hidx.ge, ?_, fun u hu => expires_root_le hv ht hu⟩
  rw [ivGetSoonestTimeout, if_pos hn, h.loadTimer_one hn ht]
  rfl

end TimerTree

/-! ### What is due -/

/-- From `st` to `st'` the timers `L` have moved from the heap to the list of `iv_run_timers`:
those that are due, the one that expires first at the front. -/
structure Collected (L : List TimerPtr) (st st' : TimerState) : Prop where
  expired   : st'.expired = st.expired ++ L
  nodup     : L.Nodup
  due       : ∀ t, t ∈ L ↔ 1 ≤ st.index t ∧ st.expires t ≤ st.time
  sorted    : L.Pairwise fun t u => st.expires t ≤ st.expires u
  onHeap    : ∀ t, 1 ≤ st'.index t ↔ 1 ≤ st.index t ∧ st.time < st.expires t
  waiting   : ∀ t ∈ L, st'.index t = 0
  off       : ∀ t, st.index t < 1 → st'.index t = st.index t
  expires   : st'.expires = st.expires
  time      : st'.time = st.time
  numobjs   : st'.numobjs - st'.numTimers = st.numobjs - st.numTimers

namespace Collected

variable {st st₁ st' : TimerState} {L : List TimerPtr} {t : TimerPtr}

lemma nil (h : ∀ t, 1 ≤ st.index t → st.time < st.expires t) : Collected [] st st where
  expired := (List.append_nil _).symm
  nodup := List.nodup_nil
  due t := by
    simp only [List.not_mem_nil, false_iff, not_and, not_le]
    exact h t
  sorted := List.Pairwise.nil
  onHeap t := ⟨fun ht => ⟨ht, h t ht⟩, And.left⟩
  waiting t ht := absurd ht List.not_mem_nil
  off _ _ := rfl
  expires := rfl
  time := rfl
  numobjs := rfl

/-- One iteration: `t` is due, nothing on the heap comes before it, and `iv_timer_unregister`
has made `st₁` of `st`. -/
lemma cons (h : Collected L
      (({ st₁ with expired := st₁.expired ++ [t] } : TimerState).setIndex t 0) st')
    (ht : 1 ≤ st.index t) (hdue : st.expires t ≤ st.time)
    (hmin : ∀ u, 1 ≤ st.index u → st.expires t ≤ st.expires u) (hframe : TimerFrame (-1) st st₁)
    (hon : ∀ u, 1 ≤ st₁.index u ↔ u ≠ t ∧ 1 ≤ st.index u)
    (hoff : ∀ u, u ≠ t → ¬ 1 ≤ st₁.index u → st₁.index u = st.index u) :
    Collected (t :: L) st st' := by
  have hL : ∀ u, u ∈ L ↔ u ≠ t ∧ 1 ≤ st.index u ∧ st.expires u ≤ st.time := by
    intro u
    rw [h.due]
    simp only [TimerState.setIndex, hframe.expires, hframe.time]
    by_cases hut : u = t
    · simp [hut]
    · rw [Function.update_of_ne hut, hon, and_assoc]
  refine ⟨?_, ?_, fun u => ?_, ?_, fun u => ?_, ?_, fun u hu => ?_, ?_, ?_, ?_⟩
  · rw [h.expired]
    simp [TimerState.setIndex, hframe.expired]
  · exact List.nodup_cons.mpr ⟨fun ht => ((hL t).mp ht).1 rfl, h.nodup⟩
  · rw [List.mem_cons, hL]
    by_cases hut : u = t
    · simp [hut, ht, hdue]
    · simp [hut]
  · refine List.pairwise_cons.mpr ⟨fun u hu => hmin u ((hL u).mp hu).2.1, ?_⟩
    have := h.sorted
    simpa only [TimerState.setIndex, hframe.expires] using this
  · rw [h.onHeap]
    simp only [TimerState.setIndex, hframe.expires, hframe.time]
    by_cases hut : u = t
    · subst hut
      simp [hdue]
    · simp [hut, hon]
  · intro u hu
    rcases List.mem_cons.mp hu with rfl | hu
    · rw [h.off u (by simp [TimerState.setIndex])]
      simp [TimerState.setIndex]
    · exact h.waiting u hu
  · have hut : u ≠ t := by
      rintro rfl
      omega
    have hu₁ : st₁.index u = st.index u := hoff u hut fun h => by
      have := ((hon u).mp h).2
      omega
    rw [h.off u (by simpa [TimerState.setIndex, hut, hu₁] using hu)]
    simpa [TimerState.setIndex, hut] using hu₁
  · rw [h.expires]
    exact hframe.expires
  · rw [h.time]
    exact hframe.time
  · rw [h.numobjs]
    simp only [TimerState.setIndex, hframe.numobjs, hframe.numTimers]
    omega

end Collected

namespace TimerTree

variable {st : TimerState} {A : NodeMap} {t : TimerPtr}

/-- The first loop of `iv_run_timers` empties what is due of the heap without a fault. -/
lemma runTimersCollect_eq {fuel : ℕ} (h : TimerTree st A) (hv : (st.array A).Valid)
    (hfuel : st.numTimers < fuel) :
    ∃ st' A' L, runTimersCollect fuel st = .ok st' ∧ TimerTree st' A' ∧ (st'.array A').Valid ∧
      Collected L st st' := by
  induction fuel generalizing st A with
  | zero => omega
  | succ fuel ih =>
    rw [runTimersCollect]
    split_ifs with hn
    · refine ⟨st, A, [], rfl, h, hv, Collected.nil fun t ht => ?_⟩
      have : st.index t ≤ st.numTimers := hv.index_le ht
      omega
    · obtain ⟨t, ht⟩ := hv.filled 1 le_rfl (by simp only [TimerState.array]; omega)
      have hidx : st.index t = 1 := hv.index_of_slot 1 t le_rfl ht
      have hmin : ∀ u, 1 ≤ st.index u → st.expires t ≤ st.expires u := fun u hu =>
        expires_root_le hv ht hu
      rw [h.loadTimer_one hn ht, ok_bind, if_neg (not_not.mpr hidx)]
      split_ifs with hdue
      · refine ⟨st, A, [], rfl, h, hv, Collected.nil fun u hu => ?_⟩
        exact (timespecGt_iff.mp hdue).trans_le (hmin u hu)
      · obtain ⟨st₁, A', heq, htree, harr, hframe⟩ := h.unregister_eq hv hidx.ge
        obtain ⟨hv', -, -, -, hon, hoff⟩ := hv.unregister (t := t) hidx.ge
        rw [← harr] at hv' hon hoff
        rw [heq, ok_bind]
        have hoff₁ : ¬ (st₁.array A').OnHeap t := fun ht => ((hon t).mp ht).1 rfl
        have hnum := hframe.numTimers
        have htree₂ : TimerTree
            (({ st₁ with expired := st₁.expired ++ [t] } : TimerState).setIndex t 0) A' :=
          htree.congr rfl rfl rfl rfl rfl
        obtain ⟨st', A'', L, hrun, htree'', hv'', hL⟩ := ih htree₂
          (hv'.setIndex hoff₁ (x := 0) (by norm_num)) (by
            change st₁.numTimers < fuel
            omega)
        refine ⟨st', A'', t :: L, hrun, htree'', hv'',
          hL.cons hidx.ge (not_lt.mp hdue) hmin hframe (fun u => ?_) fun u hut hu => ?_⟩
        · change 1 ≤ (st₁.array A').index u ↔ u ≠ t ∧ 1 ≤ (st.array A).index u
          rw [← hv'.onHeap_iff, ← hv.onHeap_iff, hon]
        · exact hoff u hut fun hon' => hu (hv'.onHeap_iff.mp hon')

end TimerTree

section Runs

variable {expires : TimerPtr → Timespec} {avail : ℕ} {tr : List TimerOp} {st : TimerState}

/-- In every run the slots are a heap of the registered timers. Hence no call that a program may
make next faults, except for lack of memory, and the root is a timer that expires first. -/
theorem timerHeap_of_run (h : (timerLts (2 ^ 28) expires avail).Run tr st) :
    HeapOk st (registeredTimers tr) ∧
    (∀ t, st.index t = -1 → st.numTimers + 1 < 2 ^ 28 →
      ivTimerRegister st t = .error outOfMemory ∨ ∃ st', ivTimerRegister st t = .ok st') ∧
    (∀ t, 1 ≤ st.index t → ∃ st', ivTimerUnregister st t = .ok st') ∧
    (∀ now, ∃ st', runTimersCollect (st.numTimers + 1) { st with time := now } = .ok st') ∧
    (st.numTimers = 0 → ivGetSoonestTimeout st = .ok none) ∧
    (st.numTimers ≠ 0 → ∃ t ∈ registeredTimers tr,
      ivGetSoonestTimeout st = .ok (some (st.expires t)) ∧
        ∀ u ∈ registeredTimers tr, timespecGt (st.expires t) (st.expires u) = false) := by
  obtain ⟨A, hinv⟩ := timerInv_of_run h
  refine ⟨hinv.heapOk, fun t ht hn => ?_, fun t ht => ?_, fun now => ?_, fun hn => ?_,
    fun hn => ?_⟩
  · rcases hinv.tree.register_eq hinv.valid ht (by norm_num at hn ⊢; omega) with
      ⟨hoom, -⟩ | ⟨st', A', heq, -⟩
    · exact Or.inl hoom
    · exact Or.inr ⟨st', heq⟩
  · obtain ⟨st', A', heq, -⟩ := hinv.tree.unregister_eq hinv.valid ht
    exact ⟨st', heq⟩
  · have htree : TimerTree { st with time := now } A := hinv.tree.congr rfl rfl rfl rfl rfl
    obtain ⟨st', A', L, heq, -⟩ := htree.runTimersCollect_eq hinv.valid (Nat.lt_succ_self _)
    exact ⟨st', heq⟩
  · rw [ivGetSoonestTimeout, if_neg (not_not.mpr hn)]
  · obtain ⟨t, ht, heq, hmin⟩ := hinv.tree.getSoonestTimeout_eq hinv.valid hn
    exact ⟨t, hinv.one_le_index_iff.mp ht, heq, fun u hu => hmin u (hinv.one_le_index_iff.mpr hu)⟩

theorem timerHeap_of_run_four :
    ∃ st, (timerLts (2 ^ 28) (fun t => ⟨10 - t, 0⟩) 1).Run
        [.register 1, .register 2, .register 3, .register 4, .unregister 2] st ∧
      HeapOk st {1, 3, 4} := by
  refine Kit.Lts.exists_run_of_decide (fun _ => True) (by decide) fun st hst _ => ?_
  have hreg : registeredTimers
      [.register 1, .register 2, .register 3, .register 4, .unregister 2] = {1, 3, 4} := by decide
  exact hreg ▸ (timerHeap_of_run hst).1

end Runs

/-! ### The radix tree -/

/-- The radix tree of `st` is an array of slots: `iv_timer_get_node` is the address computation,
and neither a new level nor the removal of one moves or changes a slot. -/
structure RadixOk (st : TimerState) : Prop where
  depth   : IsLeast {d | st.numTimers < 128 ^ (d + 1)} st.ratDepth
  getNode : ∀ i, 1 ≤ i → i ≤ st.numTimers → ∃ p, ivTimerGetNode st i = .ok (p, st) ∧
    st.live p.node = true ∧ p.off < timerSplitNodes ∧ p ≠ timerRoot
  getNode_inj : ∀ i j p, 1 ≤ i → i ≤ st.numTimers → 1 ≤ j → j ≤ st.numTimers →
    ivTimerGetNode st i = .ok (p, st) → ivTimerGetNode st j = .ok (p, st) → i = j
  getNode_one : st.numTimers ≠ 0 → ivTimerGetNode st 1 = .ok (⟨firstLeaf, 1⟩, st)
  /-- The slot that aliases `timer_root` holds the root. -/
  root : ∃ r, st.child firstLeaf 0 = .node r ∧ st.live r = true
  /-- `iv_timer_register` gets a slot for one more timer. -/
  grow : ∀ st₁, st₁ = { st with numobjs := st.numobjs + 1, numTimers := st.numTimers + 1 } →
    st₁.numTimers < 2 ^ 28 → ivTimerGetNode st₁ st₁.numTimers = .error outOfMemory ∨
      ∃ p st₂, ivTimerGetNode st₁ st₁.numTimers = .ok (p, st₂) ∧ p ≠ timerRoot ∧
        ∀ i, 1 ≤ i → i ≤ st.numTimers →
          st₂.lookupSlot i = st.lookupSlot i ∧ st₂.timerAt i = st.timerAt i
  /-- `iv_timer_unregister` keeps `p`, the slot of `t`, across the removal of a level. -/
  shrink : ∀ t, 1 ≤ st.index t → ∃ p m st₁ st₂,
    unregisterUnlink st t = .ok (p, m, st₁) ∧ unregisterShrink st₁ = .ok st₂ ∧
      (∀ i, 1 ≤ i → i ≤ st.numTimers - 1 →
        st₂.lookupSlot i = st₁.lookupSlot i ∧ st₂.timerAt i = st₁.timerAt i) ∧
      (p ≠ m → st₂.live p.node = true ∧ st₂.lookupSlot (st.index t).toNat = some p ∧
        ∃ u, st₂.loadTimer p = .ok u)

namespace TimerTree

variable {st : TimerState} {A : NodeMap} {i : ℕ} {t : TimerPtr}

lemma lookupSlot (h : TimerTree st A) (hi : i ≤ st.numTimers) :
    st.lookupSlot i = some (A.slotPtr i) := by
  obtain ⟨n, hn, hp⟩ := h.slotPtr_eq hi
  rw [h.tree.lookupSlot_eq, hn, hp]
  rfl

lemma isLeast_ratDepth (h : TimerTree st A) :
    IsLeast {d | st.numTimers < 128 ^ (d + 1)} st.ratDepth := by
  refine ⟨h.fits, fun d hd => ?_⟩
  rcases h.least with h0 | hle
  · omega
  · have := (Nat.pow_lt_pow_iff_right (a := 128) (by norm_num)).mp (hle.trans_lt hd)
    omega

lemma slotPtr_ne_timerRoot (h : TimerTree st A) (hi : 1 ≤ i) (hn : i ≤ st.numTimers) :
    A.slotPtr i ≠ timerRoot := by
  have h0 : A.slotPtr 0 = timerRoot := A.slotPtr_eq h.tree.leaf
  intro heq
  have := h.slotPtr_inj hn (Nat.zero_le _) (heq.trans h0.symm)
  omega

lemma grow (h : TimerTree st A) {st₁ : TimerState}
    (hst₁ : st₁ = { st with numobjs := st.numobjs + 1, numTimers := st.numTimers + 1 })
    (hn : st₁.numTimers < 2 ^ 28) :
    ivTimerGetNode st₁ st₁.numTimers = .error outOfMemory ∨
      ∃ p st₂, ivTimerGetNode st₁ st₁.numTimers = .ok (p, st₂) ∧ p ≠ timerRoot ∧
        ∀ i, 1 ≤ i → i ≤ st.numTimers →
          st₂.lookupSlot i = st.lookupSlot i ∧ st₂.timerAt i = st.timerAt i := by
  have hnum : st₁.numTimers = st.numTimers + 1 := by rw [hst₁]
  rw [hnum] at hn ⊢
  rcases h.getNode_register (by norm_num at hn ⊢; omega) hst₁ with
    ⟨hoom, -⟩ | ⟨st₂, A', hget, htree, hext, -⟩
  · exact Or.inl hoom
  · have hnum₂ : st₂.numTimers = st.numTimers + 1 := by rw [hext.frame, hnum]
    refine Or.inr ⟨_, st₂, hget, htree.slotPtr_ne_timerRoot (by omega) hnum₂.ge,
      fun i _ hi' => ⟨?_, ?_⟩⟩
    · obtain ⟨n, hleaf, -⟩ := h.slotPtr_eq hi'
      rw [htree.tree.lookupSlot_eq, h.tree.lookupSlot_eq, hleaf, hext.sub hleaf]
    · rw [htree.tree.timerAt_eq, h.tree.timerAt_eq, hext.slotAt, hst₁]
      rfl

lemma shrink (h : TimerTree st A) (hv : (st.array A).Valid) (ht : 1 ≤ st.index t) :
    ∃ p m st₁ st₂, unregisterUnlink st t = .ok (p, m, st₁) ∧ unregisterShrink st₁ = .ok st₂ ∧
      (∀ i, 1 ≤ i → i ≤ st.numTimers - 1 →
        st₂.lookupSlot i = st₁.lookupSlot i ∧ st₂.timerAt i = st₁.timerAt i) ∧
      (p ≠ m → st₂.live p.node = true ∧ st₂.lookupSlot (st.index t).toNat = some p ∧
        ∃ u, st₂.loadTimer p = .ok u) := by
  have hle : st.index t ≤ st.numTimers := hv.index_le ht
  obtain ⟨i, hi⟩ : ∃ i, i = (st.index t).toNat := ⟨_, rfl⟩
  obtain ⟨st₁, hunlink, htree₁, hsame₁, hslot₁, -⟩ := h.unlink_eq hv ht
  rw [← hi] at hunlink hslot₁ ⊢
  have hfill : ((st.array A).fill i).Slots := hv.toSlots.fill (by omega) (by
    change i ≤ st.numTimers
    omega)
  have hnum₁ : st₁.numTimers = st.numTimers := by rw [hsame₁]
  obtain ⟨st₂, A', hshrink, htree₂, hptr, hslot₂, -⟩ := htree₁.shrink_eq (by omega)
    fun j hj => by
      rw [hslot₁]
      exact hfill.empty j (by simp only [TimerArray.fill_numTimers, TimerState.array]; omega)
  rw [hnum₁] at htree₂ hptr
  have hradix : RadixTree st₂ A' := htree₂.tree.congr rfl rfl rfl rfl
  have hlook : ∀ j, j ≤ st.numTimers - 1 → st₂.lookupSlot j = some (A'.slotPtr j) := by
    intro j hj
    obtain ⟨n, hn, hp⟩ := htree₂.slotPtr_eq hj
    rw [hradix.lookupSlot_eq, hn, hp]
    rfl
  refine ⟨_, _, st₁, st₂, hunlink, hshrink, fun j hj hj' => ⟨?_, ?_⟩, fun hne => ?_⟩
  · rw [hlook j hj', htree₁.lookupSlot (by omega), hptr j (by omega)]
  · rw [hradix.timerAt_eq, htree₁.tree.timerAt_eq, hslot₂]
  · -- `p ≠ m` says that `t` was not in the last slot
    have hin : i ≤ st.numTimers - 1 := by
      have hne' : i ≠ st.numTimers := fun heq => hne (by rw [heq])
      omega
    obtain ⟨u, hu⟩ := hfill.filled i (by omega) hin
    rw [← hptr i (by omega)]
    refine ⟨htree₂.live_slotPtr hin, hlook i hin, u, ?_⟩
    exact htree₂.loadTimer hin (by
      change st₂.slotAt A' i = some u
      rw [hslot₂, hslot₁, hu])

lemma radixOk (h : TimerTree st A) (hv : (st.array A).Valid) : RadixOk st where
  depth := h.isLeast_ratDepth
  getNode i hi hn := by
    refine ⟨A.slotPtr i, h.getNode hn, h.live_slotPtr hn, ?_, h.slotPtr_ne_timerRoot hi hn⟩
    obtain ⟨n, -, hp⟩ := h.slotPtr_eq hn
    rw [hp]
    exact Nat.mod_lt _ (by norm_num)
  getNode_inj i j p hi hin hj hjn hpi hpj := by
    rw [h.getNode hin, Except.ok.injEq, Prod.mk.injEq] at hpi
    rw [h.getNode hjn, Except.ok.injEq, Prod.mk.injEq] at hpj
    exact h.slotPtr_inj hin hjn (hpi.1.trans hpj.1.symm)
  getNode_one hn := by
    rw [h.getNode (by omega), h.slotPtr_one]
  root := by
    obtain ⟨r, hr, hroot⟩ := h.tree.root
    exact ⟨r, hroot, h.tree.live hr⟩
  grow _ hst₁ hn := h.grow hst₁ hn
  shrink _ ht := h.shrink hv ht

end TimerTree

section Runs

variable {expires : TimerPtr → Timespec} {avail : ℕ} {tr : List TimerOp} {st : TimerState}

/-- In every run the radix tree is an array of slots, and the slots, the number of timers and
the back pointers are those of the same operations on a plain array. -/
theorem timerRadixTree_of_run (h : (timerLts (2 ^ 28) expires avail).Run tr st) :
    RadixOk st ∧ st.numTimers = (arrayRun expires tr).numTimers ∧
      st.index = (arrayRun expires tr).index ∧
      ∀ i, 1 ≤ i → st.timerAt i = (arrayRun expires tr).slot i := by
  obtain ⟨A, hinv⟩ := timerInv_of_run h
  refine ⟨hinv.tree.radixOk hinv.valid, ?_, ?_, fun i _ => ?_⟩
  · rw [← hinv.array]
    rfl
  · rw [← hinv.array]
    rfl
  · rw [← hinv.array, hinv.tree.tree.timerAt_eq]
    rfl

/-- Any number of timers below `2 ^ 28` can be registered, with memory for five nodes each. -/
lemma exists_run (expires : TimerPtr → Timespec) {n a : ℕ} (hn : n < 2 ^ 28) (ha : 5 * n ≤ a) :
    ∃ st, (timerLts (2 ^ 28) expires a).Run ((List.range n).map .register) st ∧
      st.numTimers = n ∧ (∀ t, n ≤ t → st.index t = -1) ∧ a ≤ st.avail + 5 * n := by
  induction n with
  | zero => exact ⟨_, rfl, rfl, fun _ _ => rfl, le_rfl⟩
  | succ n ih =>
    obtain ⟨st, hrun, hnum, hindex, havail⟩ := ih (by omega) (by omega)
    obtain ⟨A, hinv⟩ := timerInv_of_run hrun
    rcases hinv.tree.register_eq hinv.valid (hindex n le_rfl)
      (by norm_num at hn ⊢; omega) with ⟨-, hfew⟩ | ⟨st', A', heq, -, harr, hframe, havail'⟩
    · omega
    · have hnum' : st'.numTimers = n + 1 := by
        have := hframe.numTimers
        omega
      refine ⟨st', ?_, hnum', fun t ht => ?_, by omega⟩
      · rw [List.range_succ, List.map_append]
        refine Kit.Lts.run_snoc.mpr ⟨st, hrun, ?_⟩
        change timerStep (2 ^ 28) st (.register n) = some st'
        rw [timerStep, if_pos ⟨hindex n le_rfl, by omega⟩, heq]
        rfl
      · -- only `n` has been added
        have hlt : (st.array A).index n < 1 := by
          simp only [TimerState.array, hindex n le_rfl]
          norm_num
        obtain ⟨-, -, -, hon, hidx⟩ := hinv.valid.register hlt
        have hoff : ¬ ((st.array A).register n).OnHeap t := by
          rw [hon, hinv.valid.onHeap_iff]
          rintro (rfl | hpos)
          · omega
          · have : 1 ≤ st.index t := hpos
            rw [hindex t (by omega)] at this
            omega
        change (st'.array A').index t = -1
        rw [harr, hidx t hoff]
        exact hindex t (by omega)

lemma TimerTree.ratDepth_eq {A : NodeMap} {d : ℕ} (h : TimerTree st A)
    (hlt : st.numTimers < 128 ^ (d + 1)) (hle : d = 0 ∨ 128 ^ d ≤ st.numTimers) :
    st.ratDepth = d := by
  refine h.isLeast_ratDepth.unique ⟨hlt, fun k hk => ?_⟩
  rcases hle with rfl | hle
  · exact Nat.zero_le k
  · by_contra hkd
    have hpow : 128 ^ (k + 1) ≤ 128 ^ d := Nat.pow_le_pow_right (by norm_num) (by omega)
    exact absurd (hpow.trans hle) (not_le.mpr hk)

/-- With `128` timers there is a second leaf and a node above the two, which go again when a timer
is unregistered. -/
theorem timerRadixTree_of_run_secondLevel :
    ∃ st st', (timerLts (2 ^ 28) (fun _ => ⟨0, 0⟩) 1000).Run ((List.range 128).map .register) st ∧
      (timerLts (2 ^ 28) (fun _ => ⟨0, 0⟩) 1000).Run
        ((List.range 128).map .register ++ [.unregister 5]) st' ∧
      st.ratDepth = 1 ∧ st'.ratDepth = 0 ∧ RadixOk st ∧ RadixOk st' := by
  obtain ⟨st, hrun, hn, -⟩ := exists_run (fun _ => ⟨0, 0⟩) (n := 128) (a := 1000) (by norm_num)
    (by norm_num)
  obtain ⟨A, hinv⟩ := timerInv_of_run hrun
  have hindex : 1 ≤ st.index 5 :=
    hinv.valid.onHeap_iff.mp ((hinv.on 5).mpr (by decide +kernel))
  obtain ⟨st', A', heq, htree', -, hframe⟩ := hinv.tree.unregister_eq hinv.valid hindex
  have hn' : st'.numTimers = 127 := by
    have := hframe.numTimers
    omega
  have hstep : (timerLts (2 ^ 28) (fun _ => ⟨0, 0⟩) 1000).step st (.unregister 5) = some st' := by
    change timerStep (2 ^ 28) st (.unregister 5) = some st'
    rw [timerStep, if_pos hindex, heq]
    rfl
  have hrun' := Kit.Lts.run_snoc.mpr ⟨st, hrun, hstep⟩
  refine ⟨st, st', hrun, hrun', ?_, ?_, (timerRadixTree_of_run hrun).1,
    (timerRadixTree_of_run hrun').1⟩
  · exact hinv.tree.ratDepth_eq (by rw [hn]; norm_num) (Or.inr (by rw [hn]; norm_num))
  · exact htree'.ratDepth_eq (by rw [hn']; norm_num) (Or.inl rfl)

end Runs

end Ivykis
