import Ivykis.Timer.Refinement

/-!
# Registering and unregistering timers

`iv_timer_register` and `iv_timer_unregister` on the radix tree are `register` and `unregister`
on the array. The tree changes its depth in both, and `iv_timer_unregister` holds a pointer to a
slot while it does.
-/

namespace Ivykis

/-- A change of the heap by `δ` timers, as the rest of the state sees it. -/
structure TimerFrame (δ : ℤ) (st st' : TimerState) : Prop where
  numobjs   : st'.numobjs = st.numobjs + δ
  numTimers : (st'.numTimers : ℤ) = st.numTimers + δ
  expires   : st'.expires = st.expires
  time      : st'.time = st.time
  timeValid : st'.timeValid = st.timeValid
  expired   : st'.expired = st.expired

namespace TimerTree

variable {st : TimerState} {A : NodeMap} {i : ℕ} {t : TimerPtr}

/-! ### `iv_timer_register` -/

/-- The slot after the last, as `iv_timer_register` asks for it. -/
lemma getNode_register (h : TimerTree st A) (hn : st.numTimers + 1 < 128 ^ 4) {st₁ : TimerState}
    (hst₁ : st₁ = { st with numobjs := st.numobjs + 1, numTimers := st.numTimers + 1 }) :
    (ivTimerGetNode st₁ (st.numTimers + 1) = .error outOfMemory ∧ st.avail ≤ 4) ∨
      ∃ st₂ A', ivTimerGetNode st₁ (st.numTimers + 1)
          = .ok (A'.slotPtr (st.numTimers + 1), st₂) ∧
        TimerTree st₂ A' ∧ Extends st₁ A st₂ A' ∧ st.avail ≤ st₂.avail + 5 := by
  have htree : RadixTree st₁ A := h.tree.congr (by rw [hst₁]) (by rw [hst₁]) (by rw [hst₁])
    (by rw [hst₁])
  have hdepth : st₁.ratDepth = st.ratDepth := by rw [hst₁]
  have havail₁ : st₁.avail = st.avail := by rw [hst₁]
  rcases htree.getNode_succ (i := st.numTimers) h.cover (by rw [hdepth]; exact h.fits)
    (by rw [hdepth]; exact h.ratDepth_le) with hoom | ⟨leaf, st₂, A', hget, hext, hleaf, hd, havail⟩
  · exact Or.inl (havail₁ ▸ hoom)
  · right
    refine ⟨st₂, A', by rw [hget, A'.slotPtr_eq hleaf], ?_, hext, havail₁ ▸ havail⟩
    have hnum : st₂.numTimers = st.numTimers + 1 := by rw [hext.frame, hst₁]
    have hfits := h.fits
    rw [hdepth] at hd
    refine ⟨hext.tree, by omega, ?_, ?_, fun j hj => ?_⟩
    · rw [hnum, hd]
      split_ifs with hgrow
      · rw [hgrow]
        exact Nat.pow_lt_pow_right (by norm_num) (by omega)
      · omega
    · rw [hnum, hd]
      split_ifs with hgrow
      · exact Or.inr hgrow.ge
      · exact h.least.imp_right fun hle => by omega
    · rw [hnum] at hj
      rcases Nat.lt_or_eq_of_le hj with hlt | rfl
      · exact hext.ne_none (h.cover j (by omega))
      · simp [hleaf]

/-- `iv_timer_register` does what it does on the array, unless there is no memory for the
nodes that lead to the new slot. -/
theorem register_eq (h : TimerTree st A) (hv : (st.array A).Valid) (ht : st.index t = -1)
    (hn : st.numTimers + 1 < 128 ^ 4) :
    (ivTimerRegister st t = .error outOfMemory ∧ st.avail ≤ 4) ∨
      ∃ st' A', ivTimerRegister st t = .ok st' ∧ TimerTree st' A' ∧
        st'.array A' = (st.array A).register t ∧ TimerFrame 1 st st' ∧
        st.avail ≤ st'.avail + 5 := by
  have hint : checkInt (st.numTimers + 1) = .ok (st.numTimers + 1) := by
    rw [checkInt, if_pos]
    simp only [intMax]
    omega
  have hoff : ¬ (st.array A).OnHeap t := fun hon => by
    have := hv.onHeap_iff.mp hon
    simp only [TimerState.array] at this
    omega
  simp only [ivTimerRegister, ht, ne_eq, not_true_eq_false, if_false, hint, ok_bind]
  rcases h.getNode_register hn rfl with ⟨hoom, havail⟩ | ⟨st₂, A', hget, htree, hext, havail⟩
  · left
    rw [hoom, error_bind]
    exact ⟨rfl, havail⟩
  · right
    have hframe := hext.frame
    have hnum : st₂.numTimers = st.numTimers + 1 := by rw [hframe]
    have hindex : st₂.index = st.index := by rw [hframe]
    have hexpires : st₂.expires = st.expires := by rw [hframe]
    have hslotAt : st₂.slotAt A' = st.slotAt A := hext.slotAt
    have htree₃ := (htree.setChild (i := st.numTimers + 1) (c := .timer t) (by omega) hnum.ge
      (Or.inr ⟨t, rfl⟩)).setIndex t ((st.numTimers + 1 : ℕ) : ℤ)
    have harr : ((st₂.setChild (A'.slotPtr (st.numTimers + 1)) (.timer t)).setIndex t
        ((st.numTimers + 1 : ℕ) : ℤ)).array A' = (st.array A).push t := by
      have hslot : (st₂.setChild (A'.slotPtr (st.numTimers + 1)) (.timer t)).slotAt A'
          = Function.update (st.slotAt A) (st.numTimers + 1) (some t) := by
        funext k
        rw [htree.slotAt_setChild hnum.ge, hslotAt, Function.update_apply]
      refine TimerArray.ext hnum hslot ?_ hexpires
      exact congrArg (fun f => Function.update f t ((st.numTimers + 1 : ℕ) : ℤ)) hindex
    obtain ⟨st', hst, htree', harr', hsame⟩ := htree₃.pullUp_eq (i := st.numTimers + 1)
      (by rw [harr]; exact hv.toSlots.push hoff) (by omega) hnum.ge le_rfl
    refine ⟨st', A', ?_, htree', ?_, ?_, ?_⟩
    · rw [hget, ok_bind, htree.store hnum.ge, ok_bind]
      exact hst
    · rw [harr', harr]
      rfl
    · constructor <;> rw [hsame] <;>
        simp only [TimerState.setIndex, TimerState.setChild] <;> rw [hframe]
      push_cast
      rfl
    · rw [hsame]
      exact havail

/-! ### Too many timers

With `2 ^ 28` timers the tree gets a fifth level, and the next address computation shifts an
`int` by `35`. -/

/-- In a tree of depth four no slot can be looked up. -/
lemma pullUp_depthFour (hdepth : st.ratDepth = 4) (hi : i ≠ 1) (fuel : ℕ) (p : Slot) :
    pullUp (fuel + 1) st i p = .error .undefinedShift := by
  have hshift : ivTimerGetNode st (i / 2) = .error .undefinedShift := by
    simp only [ivTimerGetNode, hdepth, shiftRight]
    rw [if_neg (by decide), error_bind]
  simp only [pullUp, if_neg hi, hshift, error_bind]

/-- `iv_timer_register` does not return when it would make `2 ^ 28` timers: the parent of the new
slot is looked up in a tree of depth four. -/
lemma register_full (h : TimerTree st A) (ht : st.index t = -1)
    (hn : st.numTimers + 1 = 128 ^ 4) :
    (ivTimerRegister st t = .error outOfMemory ∧ st.avail ≤ 4) ∨
      ivTimerRegister st t = .error .undefinedShift := by
  have hdepth : st.ratDepth = 3 := by
    have hfits := (Nat.pow_le_pow_iff_right (a := 128) (by norm_num)).mp (hn.symm.le.trans h.fits)
    have := h.ratDepth_le
    omega
  have hint : checkInt (st.numTimers + 1) = .ok (st.numTimers + 1) := by
    rw [checkInt, if_pos]
    simp only [intMax]
    omega
  set st₁ : TimerState :=
    { st with numobjs := st.numobjs + 1, numTimers := st.numTimers + 1 } with hst₁
  have htree : RadixTree st₁ A := h.tree.congr rfl rfl rfl rfl
  simp only [ivTimerRegister, ht, ne_eq, not_true_eq_false, if_false, hint, ok_bind]
  rw [← hst₁]
  rcases htree.getNode_succ (i := st.numTimers) h.cover h.fits h.ratDepth_le with
    ⟨hoom, havail⟩ | ⟨leaf, st₂, A', hget, hext, hleaf, hd, -⟩
  · left
    rw [hoom, error_bind]
    exact ⟨rfl, havail⟩
  · right
    have hd₂ : st₂.ratDepth = 4 := by
      rw [hd, hst₁]
      simp only [hdepth, hn, if_true]
    have hlive := (hext.tree.live_iff leaf).mpr ⟨0, _, hleaf⟩
    rw [hget, ok_bind, TimerState.store_eq hlive (Nat.mod_lt _ (by norm_num)), ok_bind]
    exact pullUp_depthFour (by exact hd₂) (by omega) _ _

/-! ### `iv_timer_unregister` -/

/-- The last timer moves to the slot of the one that is unregistered. -/
lemma unlink_eq (h : TimerTree st A) (hv : (st.array A).Valid) (ht : 1 ≤ st.index t) :
    ∃ st₁, unregisterUnlink st t
        = .ok (A.slotPtr (st.index t).toNat, A.slotPtr st.numTimers, st₁) ∧
      TimerTree st₁ A ∧ SameButSlots st st₁ ∧
      st₁.slotAt A = ((st.array A).fill (st.index t).toNat).slot ∧
      st₁.index = ((st.array A).fill (st.index t).toNat).index := by
  have hle : st.index t ≤ st.numTimers := hv.index_le ht
  have hslot : st.slotAt A (st.index t).toNat = some t := hv.slot_index ht
  obtain ⟨i, hi⟩ : ∃ i, i = (st.index t).toNat := ⟨_, rfl⟩
  obtain ⟨last, hlast⟩ := hv.filled st.numTimers (by omega) le_rfl
  rw [← hi] at hslot ⊢
  have hin : i ≤ st.numTimers := by omega
  have h₁ := h.setChild (i := i) (c := .timer last) (by omega) hin (Or.inr ⟨last, rfl⟩)
  have h₂ := h₁.setIndex last (st.index t)
  have h₃ := h₂.setChild (i := st.numTimers) (c := .null) (by omega) le_rfl (Or.inl rfl)
  refine ⟨_, ?_, h₃, rfl, ?_, ?_⟩
  · rw [unregisterUnlink, if_neg (by omega), ← hi, h.getNode hin]
    simp only [ok_bind, h.load (i := i) (by omega) hin, hslot, Option.elim_some, ne_eq,
      not_true_eq_false, if_false, h.getNode le_rfl, h.loadTimer le_rfl hlast, h.store hin]
    exact congrArg (· >>= _) (h₂.store (i := st.numTimers) le_rfl .null)
  · funext k
    refine (h₂.slotAt_setChild (i := st.numTimers) le_rfl .null k).trans ?_
    simp only [TimerArray.fill, TimerState.array, Function.update_apply]
    split_ifs with hk hki
    · rfl
    · refine (h.slotAt_setChild hin (.timer last) k).trans ?_
      rw [if_pos hki]
      exact hlast.symm
    · refine (h.slotAt_setChild hin (.timer last) k).trans ?_
      rw [if_neg hki]
  · funext u
    have hlast' : (st.array A).slot (st.array A).numTimers = some last := hlast
    simp only [TimerArray.fill, TimerState.setChild, TimerState.setIndex, Function.update_apply,
      hlast', Option.some.injEq, eq_comm (a := u)]
    split_ifs
    · omega
    · rfl

/-- Level removal keeps the addresses and the contents of all slots below the last, which is
empty by now. -/
lemma shrink_eq (h : TimerTree st A) (hn : 1 ≤ st.numTimers)
    (hempty : ∀ i, st.numTimers ≤ i → st.slotAt A i = none) :
    ∃ st₂ A', unregisterShrink st = .ok st₂ ∧
      TimerTree { st₂ with numTimers := st.numTimers - 1 } A' ∧
      (∀ i < st.numTimers, A'.slotPtr i = A.slotPtr i) ∧ st₂.slotAt A' = st.slotAt A ∧
      st₂ = { st with ratDepth := st₂.ratDepth, child := st₂.child, live := st₂.live,
                      avail := st₂.avail } := by
  have hfits := h.fits
  have hsmall := h.small
  by_cases hshrink : 0 < st.ratDepth ∧ st.numTimers = 128 ^ st.ratDepth
  · obtain ⟨e, he⟩ : ∃ e, st.ratDepth = e + 1 := ⟨st.ratDepth - 1, by omega⟩
    have hd := h.ratDepth_le
    have hnum : st.numTimers = 128 ^ (e + 1) := by rw [← he]; exact hshrink.2
    have hshift : shiftLeftOne (st.ratDepth * timerSplitBits) = .ok (128 ^ (e + 1)) := by
      rw [shiftLeftOne, if_pos (by rw [timerSplitBits_eq]; omega), Nat.one_shiftLeft, he,
        timerSplitBits_eq, mul_comm, pow_mul]
      norm_num
    obtain ⟨st₂, hrem, htree, hdepth, hslots, hframe⟩ := h.tree.removeLevel_eq he
    have hle : 128 ^ e ≤ 128 ^ (e + 1) - 1 := by
      have hpos : 0 < 128 ^ e := by positivity
      rw [pow_succ]
      omega
    -- below `128 ^ (e + 1)` nothing is cut off
    have hkeep : ∀ i < st.numTimers, A.truncate e 0 (i / 128) = A 0 (i / 128) := by
      intro i hi
      refine A.truncate_eq (Nat.zero_le _) ?_
      rw [Nat.sub_zero, Nat.div_div_eq_div_mul, ← pow_succ', ← hnum]
      exact Nat.div_eq_of_lt hi
    refine ⟨st₂, A.truncate e, ?_, ⟨htree.congr rfl rfl rfl rfl, ?_, ?_, ?_, fun i hi => ?_⟩,
      fun i hi => ?_, ?_, hframe⟩
    · rw [unregisterShrink, if_pos hshrink.1, hshift, ok_bind, if_pos hnum, hrem]
    · show st.numTimers - 1 < 128 ^ 4
      omega
    · show st.numTimers - 1 < 128 ^ (st₂.ratDepth + 1)
      rw [hdepth]
      omega
    · show st₂.ratDepth = 0 ∨ 128 ^ st₂.ratDepth ≤ st.numTimers - 1
      rw [hdepth]
      omega
    · have hi' : i < st.numTimers := by
        change i ≤ st.numTimers - 1 at hi
        omega
      rw [hkeep i hi']
      exact h.cover i hi'.le
    · rw [NodeMap.slotPtr, hkeep i hi]
      rfl
    · funext i
      by_cases hi : i < st.numTimers
      · exact hslots i (hnum ▸ hi)
      · rw [hempty i (by omega), TimerState.slotAt, NodeMap.truncate, if_neg]
        · rfl
        · rintro ⟨-, hq⟩
          rw [Nat.sub_zero, Nat.div_div_eq_div_mul, ← pow_succ', ← hnum,
            Nat.div_eq_zero_iff] at hq
          omega
  · refine ⟨st, A, ?_, ⟨h.tree.congr rfl rfl rfl rfl, ?_, ?_, ?_, fun i hi => ?_⟩,
      fun _ _ => rfl, rfl, rfl⟩
    · rw [unregisterShrink]
      split_ifs with hd
      · have := h.ratDepth_le
        rw [shiftLeftOne, if_pos (by rw [timerSplitBits_eq]; omega), ok_bind, if_neg]
        intro hnum
        refine hshrink ⟨hd, hnum.trans ?_⟩
        rw [Nat.one_shiftLeft, timerSplitBits_eq, mul_comm, pow_mul]
        norm_num
      · rfl
    · show st.numTimers - 1 < 128 ^ 4
      omega
    · show st.numTimers - 1 < 128 ^ (st.ratDepth + 1)
      omega
    · show st.ratDepth = 0 ∨ 128 ^ st.ratDepth ≤ st.numTimers - 1
      have := h.least
      omega
    · change i ≤ st.numTimers - 1 at hi
      exact h.cover i (by omega)

/-- With the last timer in slot `i`, the heap order is restored around that slot. -/
lemma restore_eq {st₂ : TimerState} {p m : Slot}
    (h : TimerTree { st₂ with numTimers := st₂.numTimers - 1 } A)
    (hs : (TimerState.array { st₂ with numTimers := st₂.numTimers - 1 } A).Slots) (hi : 1 ≤ i)
    (hp : p ≠ m → p = A.slotPtr i ∧ i ≤ st₂.numTimers - 1) :
    ∃ st', unregisterRestore st₂ p m = .ok st' ∧ TimerTree st' A ∧
      st'.array A = (if p ≠ m then
          ((TimerState.array { st₂ with numTimers := st₂.numTimers - 1 } A).pullUp i).pushDown i
        else TimerState.array { st₂ with numTimers := st₂.numTimers - 1 } A) ∧
      SameButSlots { st₂ with numTimers := st₂.numTimers - 1 } st' := by
  obtain ⟨st₃, hst₃⟩ : ∃ st₃ : TimerState, st₃ = { st₂ with numTimers := st₂.numTimers - 1 } :=
    ⟨_, rfl⟩
  rw [← hst₃] at h hs
  have hnum : st₃.numTimers = st₂.numTimers - 1 := by rw [hst₃]
  simp only [unregisterRestore, ← hst₃]
  split_ifs with hne
  · obtain ⟨rfl, hin⟩ := hp hne
    rw [← hnum] at hin
    obtain ⟨u, hu⟩ := hs.filled i hi hin
    have hidx : st₃.index u = i := hs.index_of_slot i u hi hu
    have hidx₂ : st₂.index u = i := by
      rw [← hidx, hst₃]
    obtain ⟨st₄, hst₄, htree₄, harr₄, hsame₄⟩ := h.pullUp_eq hs hi hin le_rfl
    have hs₄ : (st₄.array A).Slots := by
      rw [harr₄]
      exact (hs.pullUp hi hin).1
    have hin₄ : i ≤ st₄.numTimers := by
      rw [hsame₄]
      exact hin
    obtain ⟨v, hv⟩ := hs₄.filled i hi hin₄
    have hidx₄ : st₄.index v = i := hs₄.index_of_slot i v hi hv
    obtain ⟨st₅, hst₅, htree₅, harr₅, hsame₅⟩ := htree₄.pushDown_eq
      hs₄ hi hin₄ (show st₄.numTimers + 1 ≤ st₄.numTimers + 1 + i by omega)
    refine ⟨st₅, ?_, htree₅, by rw [harr₅, harr₄], hsame₄.trans hsame₅⟩
    rw [h.loadTimer hin hu, ok_bind, hidx₂, Int.toNat_natCast, hst₄, ok_bind,
      htree₄.loadTimer hin₄ hv, ok_bind, hidx₄, Int.toNat_natCast, hst₅]
  · exact ⟨st₃, rfl, h, rfl, rfl⟩

/-- `iv_timer_unregister` does what it does on the array. -/
theorem unregister_eq (h : TimerTree st A) (hv : (st.array A).Valid) (ht : 1 ≤ st.index t) :
    ∃ st' A', ivTimerUnregister st t = .ok st' ∧ TimerTree st' A' ∧
      st'.array A' = (st.array A).unregister t ∧ TimerFrame (-1) st st' := by
  have hle : st.index t ≤ st.numTimers := hv.index_le ht
  obtain ⟨st₁, hunlink, htree₁, hsame₁, hslot₁, hindex₁⟩ := h.unlink_eq hv ht
  obtain ⟨i, hi⟩ : ∃ i, i = (st.index t).toNat := ⟨_, rfl⟩
  rw [← hi] at hunlink hslot₁ hindex₁
  have hin : i ≤ st.numTimers := by omega
  have hfill : ((st.array A).fill i).Slots := hv.toSlots.fill (by omega) hin
  have hnum₁ : st₁.numTimers = st.numTimers := by rw [hsame₁]
  obtain ⟨st₂, A', hshrink, htree₂, hptr, hslot₂, hframe₂⟩ := htree₁.shrink_eq (by omega)
    fun j hj => by
      rw [hslot₁]
      exact hfill.empty j (by simp only [TimerArray.fill_numTimers, TimerState.array]; omega)
  have hnum₂ : st₂.numTimers = st.numTimers := by rw [hframe₂, hnum₁]
  have harr : TimerState.array { st₂ with numTimers := st₂.numTimers - 1 } A'
      = (st.array A).fill i := by
    refine TimerArray.ext ?_ (hslot₂.trans hslot₁) ?_ ?_
    · show st₂.numTimers - 1 = st.numTimers - 1
      rw [hnum₂]
    · show st₂.index = _
      rw [hframe₂, hindex₁]
    · show st₂.expires = st.expires
      rw [hframe₂, hsame₁]
  rw [hnum₁, ← hnum₂] at htree₂
  -- the slot that is refilled is the last one exactly when the two pointers agree
  have hne : A.slotPtr i ≠ A.slotPtr st.numTimers ↔ i ≠ st.numTimers := by
    refine not_congr ⟨h.slotPtr_inj hin le_rfl, ?_⟩
    rintro rfl
    rfl
  obtain ⟨st₃, hrestore, htree₃, harr₃, hsame₃⟩ := htree₂.restore_eq (i := i)
    (p := A.slotPtr i) (m := A.slotPtr st.numTimers) (by rw [harr]; exact hfill) (by omega)
    fun hp => ⟨(hptr i (by have := hne.mp hp; omega)).symm, by have := hne.mp hp; omega⟩
  refine ⟨({ st₃ with numobjs := st₃.numobjs - 1 } : TimerState).setIndex t (-1), A', ?_,
    htree₃.congr rfl rfl rfl rfl rfl, ?_, ?_⟩
  · rw [ivTimerUnregister, if_neg (by omega), if_pos (by omega), hunlink]
    simp only [ok_bind, hshrink, hrestore]
  · have hb : (st₃.array A') = if i ≠ st.numTimers then
        (((st.array A).fill i).pullUp i).pushDown i else (st.array A).fill i := by
      rw [harr₃, harr]
      exact if_congr hne rfl rfl
    rw [hi] at hb
    exact congrArg (TimerArray.setIndex · t (-1)) hb
  · constructor <;> simp only [TimerState.setIndex] <;> rw [hsame₃] <;> dsimp only <;>
      rw [hframe₂] <;> dsimp only <;> rw [hsame₁]
    · rfl
    · dsimp only
      omega

end TimerTree
end Ivykis
