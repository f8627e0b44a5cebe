import Ivykis.Timer.Levels

/-!
# The radix tree refines the array

Between two calls of `iv_timer.c` the slots of the tree are an array, and each call does to them
what the array program of `Ivykis.Timer.Array` does. `TimerTree` is the invariant of the tree
that this rests on: the tree covers the slots in use and is as shallow as that allows.
-/

namespace Ivykis

/-- The array that the tree stands for. -/
def TimerState.array (st : TimerState) (A : NodeMap) : TimerArray where
  numTimers := st.numTimers
  slot      := st.slotAt A
  index     := st.index
  expires   := st.expires

/-- The address of slot `i`. -/
def NodeMap.slotPtr (A : NodeMap) (i : ℕ) : Slot :=
  ⟨(A 0 (i / 128)).getD firstLeaf, i % 128⟩

lemma NodeMap.slotPtr_eq (A : NodeMap) {i : ℕ} {n : NodePtr} (h : A 0 (i / 128) = some n) :
    A.slotPtr i = ⟨n, i % 128⟩ := by
  rw [NodeMap.slotPtr, h]
  rfl

/-- The four writes with which `pull_up` and `push_down` exchange the timers `ti` and `tj` of two
slots. -/
def TimerState.exchange (st : TimerState) (A : NodeMap) (i j : ℕ) (ti tj : TimerPtr) :
    TimerState :=
  (((st.setChild (A.slotPtr i) (.timer tj)).setChild (A.slotPtr j) (.timer ti)).setIndex tj
    i).setIndex ti j

/-- The tree covers the slots in use, and has no more levels than it needs for that. -/
structure TimerTree (st : TimerState) (A : NodeMap) : Prop where
  tree  : RadixTree st A
  small : st.numTimers < 128 ^ 4
  fits  : st.numTimers < 128 ^ (st.ratDepth + 1)
  least : st.ratDepth = 0 ∨ 128 ^ st.ratDepth ≤ st.numTimers
  cover : ∀ i ≤ st.numTimers, A 0 (i / 128) ≠ none

namespace TimerTree

variable {st : TimerState} {A : NodeMap} {i j : ℕ} {t : TimerPtr}

lemma ratDepth_le (h : TimerTree st A) : st.ratDepth ≤ 3 := by
  rcases h.least with h0 | hle
  · omega
  · have := (Nat.pow_lt_pow_iff_right (a := 128) (by norm_num)).mp (hle.trans_lt h.small)
    omega

lemma slotPtr_eq (h : TimerTree st A) (hi : i ≤ st.numTimers) :
    ∃ n, A 0 (i / 128) = some n ∧ A.slotPtr i = ⟨n, i % 128⟩ := by
  obtain ⟨n, hn⟩ := Option.ne_none_iff_exists'.mp (h.cover i hi)
  exact ⟨n, hn, A.slotPtr_eq hn⟩

/-- In the range of the heap, `iv_timer_get_node` is a pure function of the index. -/
lemma getNode (h : TimerTree st A) (hi : i ≤ st.numTimers) :
    ivTimerGetNode st i = .ok (A.slotPtr i, st) := by
  obtain ⟨n, hn, hp⟩ := h.slotPtr_eq hi
  rw [hp]
  exact h.tree.getNode_eq h.ratDepth_le (hi.trans_lt h.fits) hn

lemma slotPtr_inj (h : TimerTree st A) (hi : i ≤ st.numTimers) (hj : j ≤ st.numTimers)
    (hij : A.slotPtr i = A.slotPtr j) : i = j := by
  obtain ⟨n, hn, hp⟩ := h.slotPtr_eq hi
  obtain ⟨m, hm, hq⟩ := h.slotPtr_eq hj
  rw [hp, hq, Slot.mk.injEq] at hij
  obtain ⟨rfl, hmod⟩ := hij
  have hdiv := (h.tree.inj hn hm).2
  omega

lemma live_slotPtr (h : TimerTree st A) (hi : i ≤ st.numTimers) :
    st.live (A.slotPtr i).node = true := by
  obtain ⟨n, hn, hp⟩ := h.slotPtr_eq hi
  rw [hp]
  exact h.tree.live hn

lemma loadTimer (h : TimerTree st A) (hi : i ≤ st.numTimers) (ht : st.slotAt A i = some t) :
    st.loadTimer (A.slotPtr i) = .ok t := by
  obtain ⟨n, hn, hp⟩ := h.slotPtr_eq hi
  rw [hp]
  exact h.tree.loadTimer_eq hn ht

lemma load (h : TimerTree st A) (hi : 1 ≤ i) (hi' : i ≤ st.numTimers) :
    st.load (A.slotPtr i) = .ok ((st.slotAt A i).elim .null .timer) := by
  obtain ⟨n, hn, hp⟩ := h.slotPtr_eq hi'
  rw [hp, h.tree.load hn (Nat.mod_lt _ (by norm_num)), h.tree.child_of_slotAt hi hn]

lemma store (h : TimerTree st A) (hi : i ≤ st.numTimers) (c : Child) :
    st.store (A.slotPtr i) c = .ok (st.setChild (A.slotPtr i) c) := by
  obtain ⟨n, hn, hp⟩ := h.slotPtr_eq hi
  rw [hp]
  exact h.tree.store hn (Nat.mod_lt _ (by norm_num)) c

/-- Only the tree and `num_timers` matter for the tree invariant. -/
lemma congr {st' : TimerState} (h : TimerTree st A) (hn : st'.numTimers = st.numTimers)
    (hdepth : st'.ratDepth = st.ratDepth) (hchild : st'.child = st.child)
    (hlive : st'.live = st.live) (hbrk : st'.brk = st.brk) : TimerTree st' A where
  tree := h.tree.congr hdepth hchild hlive hbrk
  small := by rw [hn]; exact h.small
  fits := by rw [hn, hdepth]; exact h.fits
  least := by rw [hn, hdepth]; exact h.least
  cover := by rw [hn]; exact h.cover

lemma setIndex (h : TimerTree st A) (t : TimerPtr) (x : ℤ) : TimerTree (st.setIndex t x) A :=
  h.congr rfl rfl rfl rfl rfl

lemma setChild (h : TimerTree st A) (hi : 1 ≤ i) (hi' : i ≤ st.numTimers) {c : Child}
    (hc : c = .null ∨ ∃ t, c = .timer t) : TimerTree (st.setChild (A.slotPtr i) c) A where
  tree := by
    obtain ⟨n, hn, hp⟩ := h.slotPtr_eq hi'
    rw [hp]
    exact h.tree.setChild_slot hi hn hc
  small := h.small
  fits := h.fits
  least := h.least
  cover := h.cover

lemma slotAt_setChild (h : TimerTree st A) (hi : i ≤ st.numTimers) (c : Child) (j : ℕ) :
    (st.setChild (A.slotPtr i) c).slotAt A j
      = if j = i then (match c with | .timer t => some t | _ => none) else st.slotAt A j := by
  obtain ⟨n, hn, hp⟩ := h.slotPtr_eq hi
  rw [hp]
  exact h.tree.slotAt_setChild hn c j

/-! ### Comparing and exchanging slots -/

lemma timerPtrGt_iff {ti tj : TimerPtr} (hi : st.slotAt A i = some ti)
    (hj : st.slotAt A j = some tj) :
    timerPtrGt st tj ti = true ↔ (st.array A).key i < (st.array A).key j := by
  have hki : (st.array A).key i = (st.expires ti : WithTop Timespec) :=
    TimerArray.key_of_slot (a := st.array A) hi
  have hkj : (st.array A).key j = (st.expires tj : WithTop Timespec) :=
    TimerArray.key_of_slot (a := st.array A) hj
  rw [timerPtrGt, timespecGt_iff, hki, hkj, WithTop.coe_lt_coe]

lemma exchange (h : TimerTree st A) (hi : 1 ≤ i) (hi' : i ≤ st.numTimers) (hj : 1 ≤ j)
    (hj' : j ≤ st.numTimers) (ti tj : TimerPtr) : TimerTree (st.exchange A i j ti tj) A :=
  (((h.setChild hi hi' (Or.inr ⟨tj, rfl⟩)).setChild hj hj' (Or.inr ⟨ti, rfl⟩)).setIndex tj
    i).setIndex ti j

lemma array_exchange (h : TimerTree st A) (hi : 1 ≤ i) (hi' : i ≤ st.numTimers)
    (hj' : j ≤ st.numTimers) (hij : i ≠ j) {ti tj : TimerPtr} (hti : st.slotAt A i = some ti)
    (htj : st.slotAt A j = some tj) :
    (st.exchange A i j ti tj).array A = (st.array A).exchange i j := by
  have hslot : (st.exchange A i j ti tj).slotAt A = Kit.Heap.swap (st.slotAt A) i j := by
    funext k
    have h₁ := h.setChild hi hi' (c := .timer tj) (Or.inr ⟨tj, rfl⟩)
    refine (h₁.slotAt_setChild hj' (.timer ti) k).trans ?_
    rw [h.slotAt_setChild hi', Kit.Heap.swap, hti, htj]
    by_cases hkj : k = j
    · rw [if_pos hkj, if_neg (by omega), if_pos hkj]
    · rw [if_neg hkj, if_neg hkj]
  have hindex : (st.exchange A i j ti tj).index = ((st.array A).exchange i j).index := by
    funext u
    simp only [TimerState.exchange, TimerState.setIndex, TimerState.setChild, TimerState.array,
      TimerArray.exchange, hti, htj, Option.some.injEq, Function.update_apply, eq_comm (a := u)]
  simp only [TimerState.array, TimerArray.exchange, hslot]
  congr 1

/-! ### `pull_up` and `push_down` -/

/-- `st'` differs from `st` only in the contents of slots and in back pointers. -/
def SameButSlots (st st' : TimerState) : Prop :=
  st' = { st with child := st'.child, index := st'.index }

lemma SameButSlots.trans {st₁ st₂ st₃ : TimerState} (h₁₂ : SameButSlots st₁ st₂)
    (h₂₃ : SameButSlots st₂ st₃) : SameButSlots st₁ st₃ := by
  unfold SameButSlots at *
  rw [h₁₂] at h₂₃
  exact h₂₃

lemma sameButSlots_exchange (i j : ℕ) (ti tj : TimerPtr) :
    SameButSlots st (st.exchange A i j ti tj) := rfl

/-- `pull_up` does what it does on the array. -/
theorem pullUp_eq {fuel : ℕ} (h : TimerTree st A) (hs : (st.array A).Slots) (hi : 1 ≤ i)
    (hi' : i ≤ st.numTimers) (hfuel : i ≤ fuel) :
    ∃ st', pullUp fuel st i (A.slotPtr i) = .ok st' ∧ TimerTree st' A ∧
      st'.array A = (st.array A).pullUp i ∧ SameButSlots st st' := by
  induction fuel generalizing st i with
  | zero => omega
  | succ fuel ih =>
    rw [pullUp, TimerArray.pullUp]
    by_cases h1 : i = 1
    · rw [if_pos h1, if_neg (by omega)]
      exact ⟨st, rfl, h, rfl, rfl⟩
    · obtain ⟨ti, hti⟩ := hs.filled i hi hi'
      obtain ⟨tp, htp⟩ := hs.filled (i / 2) (by omega) (show i / 2 ≤ st.numTimers by omega)
      have hgt := timerPtrGt_iff (A := A) hti htp
      simp only [if_neg h1, h.getNode (show i / 2 ≤ st.numTimers by omega), ok_bind,
        h.loadTimer (show i / 2 ≤ st.numTimers by omega) htp, h.loadTimer hi' hti]
      by_cases hlt : (st.array A).key i < (st.array A).key (i / 2)
      · have h₁ := h.setChild hi hi' (c := .timer tp) (Or.inr ⟨tp, rfl⟩)
        have hex := h.exchange hi hi' (j := i / 2) (by omega) (by omega) ti tp
        have harr := h.array_exchange hi hi' (j := i / 2) (by omega) (by omega) hti htp
        rw [hgt.mpr hlt, Bool.not_true, if_neg Bool.false_ne_true, if_pos ⟨by omega, hlt⟩,
          h.store hi', ok_bind, h₁.store (show i / 2 ≤ st.numTimers by omega), ok_bind]
        obtain ⟨st', hst, htree, harr', hframe⟩ := ih hex
          (harr ▸ hs.exchange hi hi' (by omega) (show i / 2 ≤ st.numTimers by omega)) (i := i / 2)
          (by omega) (show i / 2 ≤ st.numTimers by omega) (by omega)
        exact ⟨st', hst, htree, by rw [harr', harr], (sameButSlots_exchange i _ ti tp).trans hframe⟩
      · have hgt' : timerPtrGt st tp ti = false := by
          rw [Bool.eq_false_iff]
          exact fun hg => hlt (hgt.mp hg)
        rw [hgt', Bool.not_false, if_pos rfl, if_neg fun hb => hlt hb.2]
        exact ⟨st, rfl, h, rfl, rfl⟩

/-- The slot after an even slot is the next word of memory. -/
lemma next_slotPtr (A : NodeMap) (i : ℕ) : (A.slotPtr (2 * i)).next = A.slotPtr (2 * i + 1) := by
  simp only [NodeMap.slotPtr, Slot.next, Slot.mk.injEq]
  rw [show (2 * i + 1) / 128 = 2 * i / 128 by omega]
  exact ⟨rfl, by omega⟩

/-- The right child is there to be read even when it is above `num_timers`. -/
lemma load_next (h : TimerTree st A) (hi : 2 * i ≤ st.numTimers) :
    st.load (A.slotPtr (2 * i + 1)) = .ok ((st.slotAt A (2 * i + 1)).elim .null .timer) := by
  obtain ⟨n, hn, hp⟩ := h.slotPtr_eq hi
  have hn' : A 0 ((2 * i + 1) / 128) = some n := by
    rw [← hn]
    congr 1
    omega
  rw [A.slotPtr_eq hn', h.tree.load hn' (Nat.mod_lt _ (by norm_num)),
    h.tree.child_of_slotAt (by omega) hn']

lemma selectMin_eq (h : TimerTree st A) (hs : (st.array A).Slots) (hi : 1 ≤ i)
    (hi' : i ≤ st.numTimers) :
    selectMin st i (A.slotPtr i)
      = .ok (if 2 * i ≤ st.numTimers then ((st.array A).minChild i,
          A.slotPtr ((st.array A).minChild i), st) else (i, A.slotPtr i, st)) := by
  have hint : checkInt (2 * i) = .ok (2 * i) := by
    have := h.small
    rw [checkInt, if_pos]
    simp only [intMax]
    omega
  rw [selectMin, hint, ok_bind]
  by_cases hn : 2 * i ≤ st.numTimers
  · obtain ⟨ti, hti⟩ := hs.filled i hi hi'
    obtain ⟨t0, ht0⟩ := hs.filled (2 * i) (by omega) hn
    have hgt := timerPtrGt_iff (A := A) ht0 hti
    simp only [if_pos hn, h.getNode hn, ok_bind, h.loadTimer hi' hti, h.loadTimer hn ht0,
      next_slotPtr, h.load_next hn, TimerArray.minChild]
    -- the least of the slot and its left child
    obtain ⟨m, hm⟩ : ∃ m, m = if (st.array A).key (2 * i) < (st.array A).key i then 2 * i else i :=
      ⟨_, rfl⟩
    have hsel : (if timerPtrGt st ti t0 = true then (2 * i, A.slotPtr (2 * i))
        else (i, A.slotPtr i)) = (m, A.slotPtr m) := by
      rw [hm]
      by_cases hlt : (st.array A).key (2 * i) < (st.array A).key i
      · rw [if_pos (hgt.mpr hlt), if_pos hlt]
      · rw [if_neg fun hg => hlt (hgt.mp hg), if_neg hlt]
    rw [hsel, ← hm]
    cases ht1 : st.slotAt A (2 * i + 1) with
    | none =>
      have hlast : ¬ (st.array A).key (2 * i + 1) < (st.array A).key m := by
        rw [TimerArray.key_eq_top_iff.mpr ht1]
        exact not_top_lt
      rw [if_neg hlast]
      rfl
    | some t1 =>
      have hmn : m ≤ st.numTimers := by
        rw [hm]
        split_ifs <;> omega
      obtain ⟨tm, htm⟩ := hs.filled m (by rw [hm]; split_ifs <;> omega) hmn
      have hgt1 := timerPtrGt_iff (A := A) ht1 htm
      have hload1 : st.loadTimer (A.slotPtr (2 * i + 1)) = .ok t1 := by
        rw [TimerState.loadTimer, h.load_next hn, ht1]
        rfl
      simp only [Option.elim_some, h.loadTimer hmn htm, ok_bind, hload1]
      by_cases hlt : (st.array A).key (2 * i + 1) < (st.array A).key m
      · rw [if_pos (hgt1.mpr hlt), if_pos hlt]
      · rw [if_neg fun hg => hlt (hgt1.mp hg), if_neg hlt]
  · rw [if_neg hn, if_neg hn]

/-- `push_down` does what it does on the array. -/
theorem pushDown_eq {fuel : ℕ} (h : TimerTree st A) (hs : (st.array A).Slots) (hi : 1 ≤ i)
    (hi' : i ≤ st.numTimers) (hfuel : st.numTimers + 1 ≤ fuel + i) :
    ∃ st', pushDown fuel st i (A.slotPtr i) = .ok st' ∧ TimerTree st' A ∧
      st'.array A = (st.array A).pushDown i ∧ SameButSlots st st' := by
  induction fuel generalizing st i with
  | zero => omega
  | succ fuel ih =>
    rw [pushDown, TimerArray.pushDown, h.selectMin_eq hs hi hi']
    by_cases hmove : 2 * i ≤ st.numTimers ∧ (st.array A).minChild i ≠ i
    · obtain ⟨hn, hne⟩ := hmove
      have hge := (st.array A).le_minChild i
      have hmn : (st.array A).minChild i ≤ st.numTimers :=
        hs.le_numTimers_of_key_lt (TimerArray.key_minChild_lt hne)
      rw [if_pos hn, if_pos ⟨hn, hne⟩]
      generalize (st.array A).minChild i = m at hne hge hmn
      obtain ⟨ti, hti⟩ := hs.filled i hi hi'
      obtain ⟨tm, htm⟩ := hs.filled m (by omega) hmn
      have h₁ := h.setChild hi hi' (c := .timer tm) (Or.inr ⟨tm, rfl⟩)
      have hex := h.exchange hi hi' (j := m) (by omega) hmn ti tm
      have harr := h.array_exchange hi hi' hmn hne.symm hti htm
      simp only [ok_bind, if_neg hne.symm, h.loadTimer hi' hti, h.loadTimer hmn htm, h.store hi',
        h₁.store (i := m) hmn]
      obtain ⟨st', hst, htree, harr', hframe⟩ := ih hex
        (harr ▸ hs.exchange hi hi' (by omega) hmn) (i := m) (by omega) hmn
        (by simp only [TimerState.exchange, TimerState.setIndex, TimerState.setChild]; omega)
      exact ⟨st', hst, htree, by rw [harr', harr], (sameButSlots_exchange i m ti tm).trans hframe⟩
    · rw [if_neg (c := 2 * i ≤ (st.array A).numTimers ∧ _) hmove]
      refine ⟨st, ?_, h, rfl, rfl⟩
      by_cases hn : 2 * i ≤ st.numTimers
      · have hm : (st.array A).minChild i = i := by
          by_contra hne
          exact hmove ⟨hn, hne⟩
        rw [if_pos hn, hm, ok_bind]
        exact if_pos rfl
      · rw [if_neg hn, ok_bind]
        exact if_pos rfl

end TimerTree
end Ivykis
