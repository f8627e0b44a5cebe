import Ivykis.Timer.RadixTree

/-!
# Growing and shrinking the radix tree

`iv_timer_get_node` adds the nodes that lead to a slot, and a level on top when the index needs
one; `iv_timer_radix_tree_remove_level` takes the top level off again and frees all that hung
below it except its first child. Neither changes what is in a slot that stays.
-/

namespace Ivykis

/-- The tree with one more node. -/
def NodeMap.insert (A : NodeMap) (k q : ℕ) (n : NodePtr) : NodeMap :=
  fun k' q' => if k' = k ∧ q' = q then some n else A k' q'

@[simp] lemma NodeMap.insert_self (A : NodeMap) (k q : ℕ) (n : NodePtr) :
    A.insert k q n k q = some n := by
  simp [NodeMap.insert]

lemma NodeMap.insert_of_ne (A : NodeMap) {k q k' q' : ℕ} (n : NodePtr)
    (h : ¬ (k' = k ∧ q' = q)) : A.insert k q n k' q' = A k' q' := by
  simp [NodeMap.insert, h]

lemma NodeMap.insert_ne_none (A : NodeMap) {k q k' q' : ℕ} (n : NodePtr) (h : A k' q' ≠ none) :
    A.insert k q n k' q' ≠ none := by
  simp only [NodeMap.insert]
  split_ifs
  · simp
  · exact h

lemma NodeMap.insert_of_eq_some (A : NodeMap) {k q k' q' : ℕ} (n : NodePtr) {m : NodePtr}
    (hnone : A k q = none) (h : A k' q' = some m) : A.insert k q n k' q' = some m := by
  rw [NodeMap.insert_of_ne, h]
  rintro ⟨rfl, rfl⟩
  rw [hnone] at h
  cases h

lemma NodeMap.insert_eq_some (A : NodeMap) {k q k' q' : ℕ} {n m : NodePtr}
    (h : A.insert k q n k' q' = some m) : (k' = k ∧ q' = q ∧ m = n) ∨ A k' q' = some m := by
  simp only [NodeMap.insert] at h
  split_ifs at h with hkq
  · left
    exact ⟨hkq.1, hkq.2, (Option.some.inj h).symm⟩
  · exact Or.inr h

/-- `st'` has more tree nodes than `st`, and the same slots. -/
structure Extends (st : TimerState) (A : NodeMap) (st' : TimerState) (A' : NodeMap) : Prop where
  tree   : RadixTree st' A'
  slotAt : st'.slotAt A' = st.slotAt A
  sub    : ∀ {k q n}, A k q = some n → A' k q = some n
  frame  : st' = { st with ratDepth := st'.ratDepth, child := st'.child, live := st'.live,
                           brk := st'.brk, avail := st'.avail }

lemma RadixTree.extends_refl {st : TimerState} {A : NodeMap} (h : RadixTree st A) :
    Extends st A st A :=
  ⟨h, rfl, id, rfl⟩

lemma Extends.trans {st₁ st₂ st₃ : TimerState} {A₁ A₂ A₃ : NodeMap}
    (h₁₂ : Extends st₁ A₁ st₂ A₂) (h₂₃ : Extends st₂ A₂ st₃ A₃) : Extends st₁ A₁ st₃ A₃ where
  tree := h₂₃.tree
  slotAt := h₂₃.slotAt.trans h₁₂.slotAt
  sub h := h₂₃.sub (h₁₂.sub h)
  frame := by
    have h₂ := h₂₃.frame
    rw [h₁₂.frame] at h₂
    exact h₂

lemma Extends.ne_none {st st' : TimerState} {A A' : NodeMap} {k q : ℕ} (h : Extends st A st' A')
    (hkq : A k q ≠ none) : A' k q ≠ none := by
  obtain ⟨n, hn⟩ := Option.ne_none_iff_exists'.mp hkq
  simp [h.sub hn]

namespace RadixTree

variable {st : TimerState} {A : NodeMap} {i k q : ℕ} {n r : NodePtr}

lemma brk_fresh (h : RadixTree st A) : A k q ≠ some st.brk := fun hb =>
  absurd (h.lt_brk _ (h.live hb)) (lt_irrefl _)

lemma leftmost (h : RadixTree st A) (hk : k ≤ st.ratDepth) : A k 0 ≠ none := by
  have hp := h.path (i := 0) (k := k) (by simp [h.leaf]) hk
  rwa [Nat.zero_div] at hp

lemma ne_firstLeaf (h : RadixTree st A) (hn : A (k + 1) q = some n) : n ≠ firstLeaf := by
  rintro rfl
  have := (h.inj hn h.leaf).1
  omega

/-! ### One more node -/

lemma insert_inj (h : RadixTree st A) {k₁ q₁ k₂ q₂ : ℕ} (h₁ : A.insert k q st.brk k₁ q₁ = some n)
    (h₂ : A.insert k q st.brk k₂ q₂ = some n) : k₁ = k₂ ∧ q₁ = q₂ := by
  rcases NodeMap.insert_eq_some A h₁ with ⟨rfl, rfl, hm₁⟩ | h₁'
  · rcases NodeMap.insert_eq_some A h₂ with ⟨rfl, rfl, -⟩ | h₂'
    · exact ⟨rfl, rfl⟩
    · exact absurd (hm₁ ▸ h₂') h.brk_fresh
  · rcases NodeMap.insert_eq_some A h₂ with ⟨rfl, rfl, hm₂⟩ | h₂'
    · exact absurd (hm₂ ▸ h₁') h.brk_fresh
    · exact h.inj h₁' h₂'

lemma insert_live_iff (h : RadixTree st A) (hnone : A k q = none) (m : NodePtr) :
    st.calloc.live m = true ↔ ∃ k' q', A.insert k q st.brk k' q' = some m := by
  simp only [TimerState.calloc, Function.update_apply]
  constructor
  · intro hm
    split_ifs at hm with hb
    · exact ⟨k, q, by rw [NodeMap.insert_self, hb]⟩
    · obtain ⟨k', q', hm'⟩ := (h.live_iff m).mp hm
      refine ⟨k', q', ?_⟩
      rw [NodeMap.insert_of_ne _ _ ?_, hm']
      rintro ⟨rfl, rfl⟩
      rw [hnone] at hm'
      cases hm'
  · rintro ⟨k', q', hm'⟩
    rcases NodeMap.insert_eq_some A hm' with ⟨-, -, hm⟩ | hm
    · rw [if_pos hm]
    · rw [if_neg fun hb => h.brk_fresh (hb ▸ hm)]
      exact h.live hm

lemma calloc_lt_brk (h : RadixTree st A) (m : NodePtr) (hm : st.calloc.live m = true) :
    m < st.calloc.brk := by
  simp only [TimerState.calloc, Function.update_apply] at hm ⊢
  split_ifs at hm with hb
  · exact hb ▸ Nat.lt_succ_self _
  · exact Nat.lt_succ_of_lt (h.lt_brk m hm)

/-! ### One more node on the way to a slot -/

/-- The new node is not a leaf that was there before, and neither is its parent. -/
lemma allocChild_leaf (h : RadixTree st A) (hr : A (k + 1) (q / 128) = some r) {q' : ℕ}
    {m : NodePtr} (j : ℕ) (hm : A 0 q' = some m) :
    (st.calloc.setChild ⟨r, q % 128⟩ (.node st.brk)).child m j = st.child m j := by
  have hmb : m ≠ st.brk := fun hb => h.brk_fresh (hb ▸ hm)
  have hmr : m ≠ r := by
    rintro rfl
    have := (h.inj hm hr).1
    omega
  simp [TimerState.setChild, TimerState.calloc, hmb, hmr]

/-- The new node is linked from its parent, and has no children. -/
lemma allocChild_link (h : RadixTree st A) (hr : A (k + 1) (q / 128) = some r)
    (hnone : A k q = none) {k' q' : ℕ} {m : NodePtr} (j : ℕ)
    (hm : A.insert k q st.brk (k' + 1) q' = some m) (hj : j < 128) :
    (st.calloc.setChild ⟨r, q % 128⟩ (.node st.brk)).child m j =
      (A.insert k q st.brk k' (128 * q' + j)).elim .null .node := by
  have hkd := (h.below (k + 1) (q / 128) (by simp [hr])).1
  have hr_brk : r ≠ st.brk := fun hb => h.brk_fresh (hb ▸ hr)
  simp only [TimerState.setChild, TimerState.calloc]
  rcases NodeMap.insert_eq_some A hm with ⟨hk', rfl, rfl⟩ | hm'
  · -- the new node has no children: one would have had a parent before
    rw [if_neg fun hb => hr_brk hb.1.symm, if_pos rfl, NodeMap.insert_of_ne _ _ (by omega)]
    cases hc : A k' (128 * q' + j) with
    | none => rfl
    | some c =>
      have hup := h.up k' (128 * q' + j) (by simp [hc]) (by omega)
      rw [show (128 * q' + j) / 128 = q' by omega, hk', hnone] at hup
      exact absurd rfl hup
  · rw [if_neg (c := m = st.brk) fun hb => h.brk_fresh (hb ▸ hm')]
    by_cases hmr : m = r
    · subst hmr
      obtain ⟨hk', hq'⟩ := h.inj hm' hr
      by_cases hjq : j = q % 128
      · rw [if_pos ⟨rfl, hjq⟩, show k' = k by omega, show 128 * q' + j = q by omega,
          NodeMap.insert_self]
        rfl
      · rw [if_neg fun hb => hjq hb.2, NodeMap.insert_of_ne _ _ (by omega)]
        exact h.link j hm' hj
    · rw [if_neg fun hb => hmr hb.1, NodeMap.insert_of_ne _ _ ?_]
      · exact h.link j hm' hj
      · rintro ⟨rfl, hq'⟩
        rw [show q' = q / 128 by omega, hr, Option.some.injEq] at hm'
        exact hmr hm'.symm

/-- The state after `r->child[bits] = iv_timer_allocate_ratnode()`. -/
lemma allocChild (h : RadixTree st A) (hr : A (k + 1) (q / 128) = some r) (hnone : A k q = none)
    (hlow : ∀ q' < q, A k q' ≠ none) :
    Extends st A (st.calloc.setChild ⟨r, q % 128⟩ (.node st.brk)) (A.insert k q st.brk) := by
  have hkd : k < st.ratDepth := by
    have := (h.below (k + 1) (q / 128) (by simp [hr])).1
    omega
  have hq : q ≠ 0 := by
    rintro rfl
    exact h.leftmost hkd.le hnone
  have hr_brk : r ≠ st.brk := fun hb => h.brk_fresh (hb ▸ hr)
  refine ⟨⟨?_, ?_, ?_, ?_, ?_, ?_, ?_, ?_, ?_, ?_⟩, ?_, ?_, ?_⟩
  · obtain ⟨r', hr', hc⟩ := h.root
    refine ⟨r', ?_, ?_⟩
    · rwa [NodeMap.insert_of_ne _ _ (by omega)]
    · rw [h.allocChild_leaf hr 0 h.leaf, hc]
  · rw [NodeMap.insert_of_ne _ _ (by omega)]
    exact h.leaf
  · exact h.insert_live_iff hnone
  · intro k' q' hne
    by_cases hkq : k' = k ∧ q' = q
    · exact ⟨by simp only [TimerState.setChild, TimerState.calloc]; omega,
        fun hk => by simp only [TimerState.setChild, TimerState.calloc] at hk; omega⟩
    · rw [NodeMap.insert_of_ne _ _ hkq] at hne
      exact h.below k' q' hne
  · exact h.insert_inj
  · exact h.allocChild_link hr hnone
  · intro k' q' hne hk'
    by_cases hkq : k' = k ∧ q' = q
    · obtain ⟨rfl, rfl⟩ := hkq
      exact NodeMap.insert_ne_none A _ (by simp [hr])
    · rw [NodeMap.insert_of_ne _ _ hkq] at hne
      exact NodeMap.insert_ne_none A _ (h.up k' q' hne hk')
  · intro k' q₁ q₂ hne hle
    by_cases hkq : k' = k ∧ q₁ = q
    · obtain ⟨rfl, rfl⟩ := hkq
      rcases Nat.lt_or_eq_of_le hle with hlt | rfl
      · exact NodeMap.insert_ne_none A _ (hlow q₂ hlt)
      · simp
    · rw [NodeMap.insert_of_ne _ _ hkq] at hne
      exact NodeMap.insert_ne_none A _ (h.contig k' q₁ q₂ hne hle)
  · intro q' m j hm hj hne
    rcases NodeMap.insert_eq_some A hm with ⟨-, -, rfl⟩ | hm'
    · left
      simp [TimerState.setChild, TimerState.calloc, hr_brk.symm]
    · rw [h.allocChild_leaf hr j hm']
      exact h.slots q' m j hm' hj hne
  · exact h.calloc_lt_brk
  · funext i
    simp only [TimerState.slotAt]
    by_cases hkq : 0 = k ∧ i / 128 = q
    · -- the slots of a new leaf are empty
      obtain ⟨rfl, rfl⟩ := hkq
      simp [hnone, TimerState.setChild, TimerState.calloc, hr_brk.symm]
    · rw [NodeMap.insert_of_ne _ _ hkq]
      cases hm : A 0 (i / 128) with
      | none => rfl
      | some m => simp only [Option.bind_some, h.allocChild_leaf hr _ hm]
  · exact NodeMap.insert_of_eq_some A _ hnone
  · rfl

lemma allocateRatnode_eq (st : TimerState) :
    (ivTimerAllocateRatnode st = .error outOfMemory ∧ st.avail = 0) ∨
      ivTimerAllocateRatnode st = .ok (st.brk, st.calloc) := by
  rw [ivTimerAllocateRatnode]
  split_ifs with havail
  · exact Or.inl ⟨rfl, havail⟩
  · exact Or.inr rfl

/-- The loop of `iv_timer_get_node` adds the nodes that are missing on the way down to a slot,
if all nodes to the left of the way exist. It adds at most one on each level. -/
lemma getNodeLoop_alloc (h : RadixTree st A) (hdepth : st.ratDepth ≤ 4) (hk : k ≤ st.ratDepth)
    (hr : A k (i / 128 ^ (k + 1)) = some r)
    (hlow : ∀ k' < k, ∀ q' < i / 128 ^ (k' + 1), A k' q' ≠ none) :
    (getNodeLoop i k r st = .error outOfMemory ∧ st.avail < k) ∨
      ∃ leaf st' A', getNodeLoop i k r st = .ok (leaf, st') ∧ Extends st A st' A' ∧
        st'.ratDepth = st.ratDepth ∧ A' 0 (i / 128) = some leaf ∧
        st.avail ≤ st'.avail + k := by
  induction k generalizing r st A with
  | zero =>
    right
    rw [zero_add, pow_one] at hr
    exact ⟨r, st, A, rfl, h.extends_refl, rfl, hr, le_rfl⟩
  | succ k ih =>
    have hbits : i / 128 ^ (k + 1) % 128 < 128 := Nat.mod_lt _ (by norm_num)
    have hchild : st.child r (i / 128 ^ (k + 1) % 128)
        = (A k (i / 128 ^ (k + 1))).elim .null .node := by
      rw [h.link _ hr hbits, digit]
    simp only [getNodeLoop, shiftRight_eq (show (k + 1) * timerSplitBits < 32 by simp; omega),
      ok_bind, and_splitNodes, h.load hr hbits, hchild]
    cases hc : A k (i / 128 ^ (k + 1)) with
    | some c =>
      rcases ih h hdepth (by omega) hc fun k' hk' => hlow k' (by omega) with ⟨he, havail⟩ |
        ⟨l, st', A', hl, hext, hd, hleaf, havail⟩
      · exact Or.inl ⟨he, by omega⟩
      · exact Or.inr ⟨l, st', A', hl, hext, hd, hleaf, by omega⟩
    | none =>
      simp only [Option.elim_none]
      rcases allocateRatnode_eq st with ⟨ha, havail⟩ | ha
      · left
        rw [ha, error_bind]
        exact ⟨rfl, by omega⟩
      · have hr' : A (k + 1) (i / 128 ^ (k + 1) / 128) = some r := by
          rw [Nat.div_div_eq_div_mul, ← pow_succ]
          exact hr
        have hext := h.allocChild hr' hc (hlow k (by omega))
        have hstore : st.calloc.store ⟨r, i / 128 ^ (k + 1) % 128⟩ (.node st.brk)
            = .ok (st.calloc.setChild ⟨r, i / 128 ^ (k + 1) % 128⟩ (.node st.brk)) := by
          refine TimerState.store_eq
            ((h.insert_live_iff hc r).mpr ⟨k + 1, i / 128 ^ (k + 1 + 1), ?_⟩) hbits _
          rw [NodeMap.insert_of_ne _ _ (by omega), hr]
        rw [ha]
        simp only [ok_bind, hstore]
        -- the new node is on the way, and the nodes to the left of the way are still there
        rcases ih hext.tree hdepth (by simp only [TimerState.setChild, TimerState.calloc]; omega)
            (NodeMap.insert_self A k _ st.brk)
            fun k' hk' q' hq' => hext.ne_none (hlow k' (by omega) q' hq') with ⟨he, havail⟩ |
              ⟨l, st', A', hl, hext', hd, hleaf, havail⟩
        · simp only [TimerState.setChild, TimerState.calloc] at havail
          exact Or.inl ⟨he, by omega⟩
        · simp only [TimerState.setChild, TimerState.calloc] at havail
          exact Or.inr ⟨l, st', A', hl, hext.trans hext', hd, hleaf, by omega⟩

/-! ### One more level -/

/-- The state after `iv_timer_get_node` has put a new root on top of the tree. -/
lemma addLevel (h : RadixTree st A) {old : Child} (hold : st.child firstLeaf 0 = old) :
    Extends st A ((({ st with ratDepth := st.ratDepth + 1 }.calloc).setChild ⟨st.brk, 0⟩
      old).setChild timerRoot (.node st.brk)) (A.insert (st.ratDepth + 1) 0 st.brk) := by
  obtain ⟨r, hr, hroot⟩ := h.root
  rw [hroot] at hold
  subst hold
  have hnone : A (st.ratDepth + 1) 0 = none := by
    by_contra hne
    have := (h.below _ _ hne).1
    omega
  have hleaf_brk : firstLeaf ≠ st.brk := fun hb => h.brk_fresh (hb ▸ h.leaf)
  have hlive := h.insert_live_iff hnone
  -- all slots stay as they are but the root pointer, which is none
  have hchild : ∀ k q m j, A k q = some m → ¬ (m = firstLeaf ∧ j = 0) →
      ((({ st with ratDepth := st.ratDepth + 1 }.calloc).setChild ⟨st.brk, 0⟩
        (.node r)).setChild timerRoot (.node st.brk)).child m j = st.child m j := by
    intro k q m j hm hne
    have hmb : m ≠ st.brk := fun hb => h.brk_fresh (hb ▸ hm)
    simp [TimerState.setChild, TimerState.calloc, timerRoot, hmb, hne]
  refine ⟨⟨?_, ?_, hlive, ?_, h.insert_inj, ?_, ?_, ?_, ?_, h.calloc_lt_brk⟩, ?_, ?_, rfl⟩
  · refine ⟨st.brk, ?_, ?_⟩
    · simp [TimerState.setChild, TimerState.calloc]
    · simp [TimerState.setChild, timerRoot]
  · rw [NodeMap.insert_of_ne _ _ (by omega)]
    exact h.leaf
  · intro k q hne
    simp only [TimerState.setChild, TimerState.calloc]
    by_cases hkq : k = st.ratDepth + 1 ∧ q = 0
    · omega
    · rw [NodeMap.insert_of_ne _ _ hkq] at hne
      have := h.below k q hne
      omega
  · intro k q m j hm hj
    rcases NodeMap.insert_eq_some A hm with ⟨hk, rfl, rfl⟩ | hm'
    · -- the new root has the old one as its only child
      obtain rfl : k = st.ratDepth := by omega
      rw [NodeMap.insert_of_ne _ _ (by omega), Nat.mul_zero, Nat.zero_add]
      by_cases hj0 : j = 0
      · subst hj0
        simp [TimerState.setChild, timerRoot, hleaf_brk.symm, hr]
      · have hnone' : A st.ratDepth j = none := by
          by_contra hne
          exact hj0 ((h.below _ _ hne).2 rfl)
        simp [TimerState.setChild, TimerState.calloc, timerRoot, hleaf_brk.symm, hj0, hnone']
    · have hkd := (h.below (k + 1) q (by simp [hm'])).1
      rw [hchild _ _ m j hm' fun hl => h.ne_firstLeaf hm' hl.1,
        NodeMap.insert_of_ne _ _ (by omega)]
      exact h.link j hm' hj
  · intro k q hne hk
    simp only [TimerState.setChild, TimerState.calloc] at hk
    by_cases hkq : k = st.ratDepth + 1 ∧ q = 0
    · omega
    · rw [NodeMap.insert_of_ne _ _ hkq] at hne
      by_cases hkd : k = st.ratDepth
      · rw [hkd, (h.below k q hne).2 hkd, Nat.zero_div, NodeMap.insert_self]
        simp
      · exact NodeMap.insert_ne_none A _ (h.up k q hne (by omega))
  · intro k q₁ q₂ hne hle
    by_cases hkq : k = st.ratDepth + 1 ∧ q₁ = 0
    · obtain ⟨rfl, rfl⟩ := hkq
      rw [Nat.le_zero.mp hle]
      exact hne
    · rw [NodeMap.insert_of_ne _ _ hkq] at hne
      exact NodeMap.insert_ne_none A _ (h.contig k q₁ q₂ hne hle)
  · intro q m j hm hj hne
    rw [NodeMap.insert_of_ne _ _ (by omega)] at hm
    rw [hchild 0 q m j hm]
    · exact h.slots q m j hm hj hne
    · rintro ⟨rfl, rfl⟩
      exact hne ⟨(h.inj hm h.leaf).2, rfl⟩
  · funext i
    simp only [TimerState.slotAt]
    rw [NodeMap.insert_of_ne _ _ (by omega)]
    cases hm : A 0 (i / 128) with
    | none => rfl
    | some m =>
      by_cases hmi : m = firstLeaf ∧ i % 128 = 0
      · rw [hmi.1, hmi.2]
        simp [TimerState.setChild, timerRoot, hroot]
      · simp only [Option.bind_some, hchild 0 _ m _ hm hmi]
  · exact NodeMap.insert_of_eq_some A _ hnone

lemma getNodeGrow_eq (h : RadixTree st A) :
    (getNodeGrow st = .error outOfMemory ∧ st.avail = 0) ∨
      ∃ st' A', getNodeGrow st = .ok st' ∧ Extends st A st' A' ∧
        st'.ratDepth = st.ratDepth + 1 ∧ st.avail ≤ st'.avail + 1 := by
  have hnone : A (st.ratDepth + 1) 0 = none := by
    by_contra hne
    have := (h.below _ _ hne).1
    omega
  have hleaf : (st.calloc).live firstLeaf = true :=
    (h.insert_live_iff hnone firstLeaf).mpr
      ⟨0, 0, by rw [NodeMap.insert_of_ne _ _ (by omega), h.leaf]⟩
  have hbrk : (st.calloc).live st.brk = true := by simp [TimerState.calloc]
  rcases allocateRatnode_eq { st with ratDepth := st.ratDepth + 1 } with ⟨ha, havail⟩ | ha
  · left
    simp only [getNodeGrow, ha, error_bind]
    exact ⟨trivial, havail⟩
  · right
    have hload : { st with ratDepth := st.ratDepth + 1 }.calloc.load timerRoot
        = .ok (st.child firstLeaf 0) := by
      refine (TimerState.load_eq hleaf (by norm_num [timerRoot])).trans (congrArg _ ?_)
      exact if_neg fun hb => h.brk_fresh (h.leaf.trans (congrArg some hb))
    refine ⟨_, _, ?_, h.addLevel rfl, rfl, ?_⟩
    · simp only [getNodeGrow, ha, ok_bind, hload]
      rw [TimerState.store_eq hbrk (by norm_num), ok_bind,
        TimerState.store_eq hleaf (by norm_num [timerRoot])]
    · simp only [TimerState.setChild, TimerState.calloc]
      omega

/-! ### The slot after the last -/

/-- `iv_timer_get_node` on the index after the last: it finds the slot or runs out of memory,
and the slots keep their contents. The tree gets a new level exactly at a power of `128`. -/
theorem getNode_succ (h : RadixTree st A) (hcov : ∀ j ≤ i, A 0 (j / 128) ≠ none)
    (hi : i < 128 ^ (st.ratDepth + 1)) (hdepth : st.ratDepth ≤ 3) :
    (ivTimerGetNode st (i + 1) = .error outOfMemory ∧ st.avail ≤ 4) ∨
      ∃ leaf st' A', ivTimerGetNode st (i + 1) = .ok (⟨leaf, (i + 1) % 128⟩, st') ∧
        Extends st A st' A' ∧ A' 0 ((i + 1) / 128) = some leaf ∧
        st'.ratDepth = (if i + 1 = 128 ^ (st.ratDepth + 1) then st.ratDepth + 1
          else st.ratDepth) ∧ st.avail ≤ st'.avail + 5 := by
  have hlow : ∀ k, k ≤ st.ratDepth → ∀ q' < (i + 1) / 128 ^ (k + 1), A k q' ≠ none := by
    intro k hk q' hq'
    refine h.contig k _ q' (h.path (hcov i le_rfl) hk) ?_
    have hmul := (Nat.le_div_iff_mul_le (by positivity)).mp (Nat.succ_le_of_lt hq')
    rw [Nat.le_div_iff_mul_le (by positivity)]
    have hpos : 0 < 128 ^ (k + 1) := by positivity
    rw [Nat.succ_mul] at hmul
    omega
  have hshift : (st.ratDepth + 1) * timerSplitBits < 32 := by
    rw [timerSplitBits_eq]
    omega
  by_cases hgrow : i + 1 = 128 ^ (st.ratDepth + 1)
  · rw [if_pos hgrow]
    have habove : (i + 1) / 128 ^ (st.ratDepth + 1) = 1 := by
      rw [hgrow]
      exact Nat.div_self (by positivity)
    rcases h.getNodeGrow_eq with ⟨hg, havail⟩ | ⟨st₁, A₁, hg, hext, hd₁, havail₁⟩
    · left
      simp only [ivTimerGetNode, shiftRight_eq hshift, ok_bind, habove, ne_eq, one_ne_zero,
        not_false_eq_true, if_true, hg, error_bind]
      exact ⟨trivial, by omega⟩
    · obtain ⟨r, hr, -⟩ := hext.tree.root
      have hr' : A₁ st₁.ratDepth ((i + 1) / 128 ^ (st₁.ratDepth + 1)) = some r := by
        rw [Nat.div_eq_of_lt, hr]
        rw [hd₁, hgrow]
        exact Nat.pow_lt_pow_right (by norm_num) (by omega)
      have hloop := hext.tree.getNodeLoop_alloc (by omega) le_rfl hr' fun k' hk' q' hq' =>
        hext.ne_none (hlow k' (by omega) q' hq')
      simp only [ivTimerGetNode, shiftRight_eq hshift, ok_bind, habove, ne_eq, one_ne_zero,
        not_false_eq_true, if_true, hg, hext.tree.loadNode_timerRoot hr, and_splitNodes]
      rcases hloop with ⟨hl, havail⟩ | ⟨leaf, st', A', hl, hext', hd, hleaf, havail⟩
      · left
        rw [hl, error_bind]
        exact ⟨rfl, by omega⟩
      · right
        exact ⟨leaf, st', A', by rw [hl, ok_bind], hext.trans hext', hleaf, hd.trans hd₁, by omega⟩
  · rw [if_neg hgrow]
    have hlt : i + 1 < 128 ^ (st.ratDepth + 1) := by omega
    obtain ⟨r, hr, -⟩ := h.root
    have hr' : A st.ratDepth ((i + 1) / 128 ^ (st.ratDepth + 1)) = some r := by
      rwa [Nat.div_eq_of_lt hlt]
    have hloop := h.getNodeLoop_alloc (by omega) le_rfl hr' fun k' hk' => hlow k' (by omega)
    simp only [ivTimerGetNode, shiftRight_eq hshift, ok_bind, Nat.div_eq_of_lt hlt, ne_eq,
      not_true_eq_false, if_false, h.loadNode_timerRoot hr, and_splitNodes]
    rcases hloop with ⟨hl, havail⟩ | ⟨leaf, st', A', hl, hext', hd, hleaf, havail⟩
    · left
      rw [hl, error_bind]
      exact ⟨rfl, by omega⟩
    · right
      exact ⟨leaf, st', A', by rw [hl, ok_bind], hext', hleaf, hd, by omega⟩

end RadixTree

/-! ### Freeing a subtree -/

/-- `m` is the node with number `q` on level `k` or a node below it. -/
def NodeMap.Below (A : NodeMap) (k q : ℕ) (m : NodePtr) : Prop :=
  ∃ k' q', k' ≤ k ∧ A k' q' = some m ∧ q' / 128 ^ (k - k') = q

lemma NodeMap.below_zero (A : NodeMap) {q : ℕ} {m : NodePtr} :
    A.Below 0 q m ↔ A 0 q = some m := by
  constructor
  · rintro ⟨k', q', hk, hm, hq⟩
    obtain rfl := Nat.le_zero.mp hk
    rw [Nat.sub_self, pow_zero, Nat.div_one] at hq
    rwa [← hq]
  · intro hm
    exact ⟨0, q, le_rfl, hm, by simp⟩

lemma NodeMap.below_succ (A : NodeMap) {k q : ℕ} {m : NodePtr} :
    A.Below (k + 1) q m ↔ A (k + 1) q = some m ∨ ∃ j < 128, A.Below k (128 * q + j) m := by
  have hdiv : ∀ k' q', k' ≤ k → q' / 128 ^ (k + 1 - k') = q' / 128 ^ (k - k') / 128 := by
    intro k' q' hk
    rw [Nat.div_div_eq_div_mul, ← pow_succ, Nat.sub_add_comm hk]
  constructor
  · rintro ⟨k', q', hk, hm, hq⟩
    by_cases hkk : k' ≤ k
    · right
      rw [hdiv k' q' hkk] at hq
      exact ⟨q' / 128 ^ (k - k') % 128, Nat.mod_lt _ (by norm_num), k', q', hkk, hm, by omega⟩
    · left
      obtain rfl : k' = k + 1 := by omega
      rw [Nat.sub_self, pow_zero, Nat.div_one] at hq
      rwa [← hq]
  · rintro (hm | ⟨j, hj, k', q', hk, hm, hq⟩)
    · exact ⟨k + 1, q, le_rfl, hm, by simp⟩
    · refine ⟨k', q', by omega, hm, ?_⟩
      rw [hdiv k' q' hk]
      omega

/-- `st'` is `st` after the nodes in `S` have been freed. -/
structure Freed (S : NodePtr → Prop) (st st' : TimerState) : Prop where
  frame    : st' = { st with live := st'.live, avail := st'.avail }
  live_iff : ∀ n, st'.live n = true ↔ st.live n = true ∧ ¬ S n

lemma Freed.of_empty {S : NodePtr → Prop} (st : TimerState) (hS : ∀ n, ¬ S n) : Freed S st st :=
  ⟨rfl, fun n => by simp [hS n]⟩

lemma Freed.trans {S T U : NodePtr → Prop} {st₁ st₂ st₃ : TimerState} (h₁₂ : Freed S st₁ st₂)
    (h₂₃ : Freed T st₂ st₃) (hU : ∀ n, U n ↔ S n ∨ T n) : Freed U st₁ st₃ where
  frame := by
    have h₂ := h₂₃.frame
    rw [h₁₂.frame] at h₂
    exact h₂
  live_iff n := by
    rw [h₂₃.live_iff, h₁₂.live_iff, hU]
    tauto

lemma Freed.child {S : NodePtr → Prop} {st st' : TimerState} (h : Freed S st st') :
    st'.child = st.child := by
  rw [h.frame]

lemma freed_free {st : TimerState} {n : NodePtr} (hn : n ≠ firstLeaf) (hl : st.live n = true) :
    ∃ st', st.free n = .ok st' ∧ Freed (· = n) st st' := by
  refine ⟨_, by rw [TimerState.free, if_pos ⟨hn, hl⟩], rfl, fun m => ?_⟩
  simp only [Function.update_apply]
  split_ifs with hm
  · simp [hm]
  · simp [hm]

namespace RadixTree

variable {st₀ st : TimerState} {A : NodeMap} {k q : ℕ} {n m : NodePtr}

lemma below_ne_none (h : RadixTree st₀ A) (hk : k ≤ st₀.ratDepth) (hb : A.Below k q m) :
    A k q ≠ none := by
  induction k generalizing q with
  | zero =>
    rw [NodeMap.below_zero] at hb
    simp [hb]
  | succ k ih =>
    rcases A.below_succ.mp hb with hm | ⟨j, hj, hb'⟩
    · simp [hm]
    · have hup := h.up k _ (ih (by omega) hb') (by omega)
      rwa [show (128 * q + j) / 128 = q by omega] at hup

lemma below_inj (h : RadixTree st₀ A) {q' : ℕ} (hb : A.Below k q m) (hb' : A.Below k q' m) :
    q = q' := by
  obtain ⟨k₁, q₁, hk₁, hm₁, rfl⟩ := hb
  obtain ⟨k₂, q₂, hk₂, hm₂, rfl⟩ := hb'
  obtain ⟨rfl, rfl⟩ := h.inj hm₁ hm₂
  rfl

lemma not_below (h : RadixTree st₀ A) {q' : ℕ} (hn : A (k + 1) q = some n) :
    ¬ A.Below k q' n := by
  rintro ⟨k', q'', hk, hm, -⟩
  have := (h.inj hn hm).1
  omega

lemma firstLeaf_below (h : RadixTree st₀ A) (hb : A.Below k q firstLeaf) : q = 0 := by
  obtain ⟨k', q', -, hm, rfl⟩ := hb
  obtain ⟨rfl, rfl⟩ := h.inj h.leaf hm
  exact Nat.zero_div _

/-- The loop over the children of a node frees everything below the children from `i` on: it
stops at the first null, and there is nothing after it. -/
lemma freeChildren_eq (h : RadixTree st₀ A) (hn : A (k + 1) q = some n)
    {f : TimerState → NodePtr → Except Fault TimerState}
    (hf : ∀ j c st, 1 ≤ 128 * q + j → A k (128 * q + j) = some c → st.child = st₀.child →
      (∀ m, A.Below k (128 * q + j) m → st.live m = true) →
      ∃ st', f st c = .ok st' ∧ Freed (A.Below k (128 * q + j)) st st')
    {c i : ℕ} (hc : i + c = 128) (hi : 1 ≤ 128 * q + i) (hchild : st.child = st₀.child)
    (hl : st.live n = true)
    (hlive : ∀ j, i ≤ j → j < 128 → ∀ m, A.Below k (128 * q + j) m → st.live m = true) :
    ∃ st', freeChildren f n c i st = .ok st' ∧
      Freed (fun m => ∃ j, i ≤ j ∧ j < 128 ∧ A.Below k (128 * q + j) m) st st' := by
  induction c generalizing i st with
  | zero =>
    refine ⟨st, rfl, Freed.of_empty st ?_⟩
    rintro m ⟨j, hj, hj', -⟩
    omega
  | succ c ih =>
    have hk : k ≤ st₀.ratDepth := by
      have := (h.below (k + 1) q (by simp [hn])).1
      omega
    rw [freeChildren, TimerState.load_eq hl (by simp; omega), ok_bind, hchild,
      h.link i hn (by omega)]
    cases hci : A k (128 * q + i) with
    | none =>
      refine ⟨st, rfl, Freed.of_empty st ?_⟩
      rintro m ⟨j, hj, hj', hb⟩
      exact h.contig k _ (128 * q + i) (h.below_ne_none hk hb) (by omega) hci
    | some ci =>
      obtain ⟨st₁, hf₁, hfreed₁⟩ := hf i ci st hi hci hchild (hlive i le_rfl (by omega))
      obtain ⟨st₂, hloop, hfreed₂⟩ := ih (i := i + 1) (by omega) (by omega)
        (hfreed₁.child.trans hchild) ((hfreed₁.live_iff n).mpr ⟨hl, h.not_below hn⟩)
        fun j hj hj' m hb => (hfreed₁.live_iff m).mpr ⟨hlive j (by omega) hj' m hb, fun hb' => by
            have := h.below_inj hb hb'
            omega⟩
      refine ⟨st₂, ?_, hfreed₁.trans hfreed₂ fun m => ?_⟩
      · simp only [Option.elim_some, hf₁, ok_bind, hloop]
      · constructor
        · rintro ⟨j, hj, hj', hb⟩
          rcases Nat.lt_or_eq_of_le hj with hlt | rfl
          · exact Or.inr ⟨j, hlt, hj', hb⟩
          · exact Or.inl hb
        · rintro (hb | ⟨j, hj, hj', hb⟩)
          · exact ⟨i, le_rfl, by omega, hb⟩
          · exact ⟨j, by omega, hj', hb⟩

/-- `iv_timer_free_ratnode` frees a node and all that is below it, each once. -/
theorem freeRatnode_eq (h : RadixTree st₀ A) (hn : A k q = some n) (hq : 1 ≤ q)
    (hchild : st.child = st₀.child) (hlive : ∀ m, A.Below k q m → st.live m = true) :
    ∃ st', ivTimerFreeRatnode k st n = .ok st' ∧ Freed (A.Below k q) st st' := by
  have hleaf : n ≠ firstLeaf := by
    rintro rfl
    have := (h.inj hn h.leaf).2
    omega
  induction k generalizing q n st with
  | zero =>
    obtain ⟨st', hst, hfreed⟩ := freed_free hleaf (hlive n (A.below_zero.mpr hn))
    refine ⟨st', hst, hfreed.frame, fun m => ?_⟩
    rw [hfreed.live_iff, A.below_zero, hn, Option.some.injEq, eq_comm (a := n)]
  | succ k ih =>
    have hl : st.live n = true := hlive n (A.below_succ.mpr (Or.inl hn))
    obtain ⟨st₁, hloop, hfreed₁⟩ := h.freeChildren_eq hn (f := ivTimerFreeRatnode k)
      (fun j c st hj hc hst hlv => ih hc hj hst hlv fun hcl => by
        have := (h.inj hc (hcl ▸ h.leaf)).2
        omega)
      (c := 128) (i := 0) rfl (by omega) hchild hl
      fun j _ hj m hb => hlive m (A.below_succ.mpr (Or.inr ⟨j, hj, hb⟩))
    have hl₁ : st₁.live n = true := (hfreed₁.live_iff n).mpr
      ⟨hl, fun ⟨_, _, _, hb⟩ => h.not_below hn hb⟩
    obtain ⟨st₂, hst, hfreed₂⟩ := freed_free hleaf hl₁
    refine ⟨st₂, ?_, hfreed₁.trans hfreed₂ fun m => ?_⟩
    · rw [ivTimerFreeRatnode, timerSplitNodes_eq, hloop, ok_bind, hst]
    · rw [A.below_succ, hn, Option.some.injEq, eq_comm (a := n), or_comm]
      simp

end RadixTree

/-! ### One level less -/

/-- What is left of the tree when the root is replaced by its first child, on level `e`. -/
def NodeMap.truncate (A : NodeMap) (e : ℕ) : NodeMap :=
  fun k q => if k ≤ e ∧ q / 128 ^ (e - k) = 0 then A k q else none

lemma NodeMap.truncate_eq (A : NodeMap) {e k q : ℕ} (hk : k ≤ e) (hq : q / 128 ^ (e - k) = 0) :
    A.truncate e k q = A k q :=
  if_pos ⟨hk, hq⟩

lemma NodeMap.truncate_ne_none (A : NodeMap) {e k q : ℕ} (h : A.truncate e k q ≠ none) :
    k ≤ e ∧ q / 128 ^ (e - k) = 0 ∧ A k q ≠ none := by
  simp only [NodeMap.truncate] at h
  split_ifs at h with hkq
  · exact ⟨hkq.1, hkq.2, h⟩
  · exact absurd rfl h

lemma NodeMap.truncate_eq_some (A : NodeMap) {e k q : ℕ} {m : NodePtr} :
    A.truncate e k q = some m ↔ A k q = some m ∧ k ≤ e ∧ q / 128 ^ (e - k) = 0 := by
  simp only [NodeMap.truncate]
  split_ifs with hkq
  · simp [hkq]
  · simp only [false_iff, not_and]
    exact fun _ hk hq => hkq ⟨hk, hq⟩

namespace RadixTree

variable {st : TimerState} {A : NodeMap} {e : ℕ} {r : NodePtr}

/-- The live nodes that do not hang below the root's other children are those of the first. -/
lemma truncate_live_iff (h : RadixTree st A) (he : st.ratDepth = e + 1)
    (hr : A st.ratDepth 0 = some r) (m : NodePtr) :
    (st.live m = true ∧ ¬ ((∃ j, 1 ≤ j ∧ j < 128 ∧ A.Below e (128 * 0 + j) m) ∨ m = r)) ↔
      ∃ k q, A.truncate e k q = some m := by
  constructor
  · rintro ⟨hl, hnot⟩
    obtain ⟨k, q, hm⟩ := (h.live_iff m).mp hl
    have hbelow := h.below k q (by simp [hm])
    have hk : k ≤ e := by
      by_contra hk
      obtain rfl : k = st.ratDepth := by omega
      rw [hbelow.2 rfl, hr, Option.some.injEq] at hm
      exact hnot (Or.inr hm.symm)
    refine ⟨k, q, A.truncate_eq_some.mpr ⟨hm, hk, ?_⟩⟩
    by_contra hq
    have hb : A.Below e (q / 128 ^ (e - k)) m := ⟨k, q, hk, hm, rfl⟩
    have hup := h.up e _ (h.below_ne_none (by omega) hb) (by omega)
    have h0 := (h.below (e + 1) _ hup).2 he.symm
    exact hnot (Or.inl ⟨q / 128 ^ (e - k), by omega, by omega, by rwa [Nat.mul_zero, Nat.zero_add]⟩)
  · rintro ⟨k, q, hm⟩
    obtain ⟨hm, hk, hq⟩ := A.truncate_eq_some.mp hm
    refine ⟨h.live hm, ?_⟩
    rintro (⟨j, hj, -, hb⟩ | rfl)
    · have := h.below_inj hb ⟨k, q, hk, hm, hq⟩
      omega
    · have := (h.inj hm hr).1
      omega

/-- The tree after the root has been replaced by its first child. -/
lemma truncate {st' : TimerState} (h : RadixTree st A) (he : st.ratDepth = e + 1)
    (hdepth : st'.ratDepth = e) (hbrk : st'.brk = st.brk)
    (hlive : ∀ m, st'.live m = true ↔ ∃ k q, A.truncate e k q = some m)
    (hroot : st'.child firstLeaf 0 = (A e 0).elim .null .node)
    (hchild : ∀ m j, ¬ (m = firstLeaf ∧ j = 0) → st'.child m j = st.child m j) :
    RadixTree st' (A.truncate e) where
  root := by
    obtain ⟨c, hc⟩ := Option.ne_none_iff_exists'.mp (h.leftmost (k := e) (by omega))
    refine ⟨c, ?_, ?_⟩
    · rw [hdepth, A.truncate_eq le_rfl (Nat.zero_div _), hc]
    · rw [hroot, hc]
      rfl
  leaf := by
    rw [A.truncate_eq (Nat.zero_le _) (Nat.zero_div _)]
    exact h.leaf
  live_iff := hlive
  below k q hne := by
    obtain ⟨hk, hq, -⟩ := A.truncate_ne_none hne
    refine ⟨by omega, fun hke => ?_⟩
    rwa [hke, hdepth, Nat.sub_self, pow_zero, Nat.div_one] at hq
  inj h₁ h₂ := h.inj (A.truncate_eq_some.mp h₁).1 (A.truncate_eq_some.mp h₂).1
  link {k q n} j hn hj := by
    obtain ⟨hn, hk, hq⟩ := A.truncate_eq_some.mp hn
    rw [hchild n j fun hl => h.ne_firstLeaf hn hl.1, h.link j hn hj,
      A.truncate_eq (by omega)]
    -- the child's number has the digits of its parent's and one more
    rw [show e - k = e - (k + 1) + 1 by omega, pow_succ', ← Nat.div_div_eq_div_mul,
      show (128 * q + j) / 128 = q by omega, hq]
  up k q hne hk := by
    obtain ⟨hke, hq, hne⟩ := A.truncate_ne_none hne
    rw [A.truncate_eq (by omega)]
    · exact h.up k q hne (by omega)
    · rwa [Nat.div_div_eq_div_mul, ← pow_succ', show e - (k + 1) + 1 = e - k by omega]
  contig k q q' hne hle := by
    obtain ⟨hk, hq, hne⟩ := A.truncate_ne_none hne
    rw [A.truncate_eq hk (Nat.le_zero.mp (hq ▸ Nat.div_le_div_right hle))]
    exact h.contig k q q' hne hle
  slots q n j hn hj hne := by
    obtain ⟨hn, -, -⟩ := A.truncate_eq_some.mp hn
    rw [hchild n j]
    · exact h.slots q n j hn hj hne
    · rintro ⟨rfl, rfl⟩
      exact hne ⟨(h.inj hn h.leaf).2, rfl⟩
  lt_brk n hn := by
    obtain ⟨k, q, hm⟩ := (hlive n).mp hn
    rw [hbrk]
    exact h.lt_brk n (h.live (A.truncate_eq_some.mp hm).1)

/-- `iv_timer_radix_tree_remove_level` leaves the tree below the root's first child, with the
slots of that part as they were. -/
theorem removeLevel_eq (h : RadixTree st A) (he : st.ratDepth = e + 1) :
    ∃ st', ivTimerRadixTreeRemoveLevel st = .ok st' ∧ RadixTree st' (A.truncate e) ∧
      st'.ratDepth = e ∧ (∀ i < 128 ^ (e + 1), st'.slotAt (A.truncate e) i = st.slotAt A i) ∧
      st' = { st with ratDepth := st'.ratDepth, child := st'.child, live := st'.live,
                      avail := st'.avail } := by
  obtain ⟨r, hr, hroot⟩ := h.root
  have hr' : A (e + 1) 0 = some r := he ▸ hr
  have hrleaf : r ≠ firstLeaf := h.ne_firstLeaf hr'
  have hload : { st with ratDepth := e }.loadNode timerRoot = .ok r := h.loadNode_timerRoot hr
  obtain ⟨st₁, hloop, hfreed⟩ : ∃ st₁,
      freeChildren (ivTimerFreeRatnode e) r 127 1 { st with ratDepth := e } = .ok st₁ ∧
        Freed (fun m => ∃ j, 1 ≤ j ∧ j < 128 ∧ A.Below e (128 * 0 + j) m)
          { st with ratDepth := e } st₁ := by
    refine h.freeChildren_eq hr' (fun j c st hj hc hst hlv => h.freeRatnode_eq hc hj hst hlv) rfl
      (by omega) rfl (h.live hr) fun j _ _ m hb => ?_
    obtain ⟨k', q', -, hm, -⟩ := hb
    exact h.live hm
  have hlive_r : st₁.live r = true :=
    (hfreed.live_iff r).mpr ⟨h.live hr, fun ⟨_, _, _, hb⟩ => h.not_below hr' hb⟩
  have hlive_leaf : st₁.live firstLeaf = true :=
    (hfreed.live_iff firstLeaf).mpr ⟨h.live h.leaf, fun ⟨_, _, _, hb⟩ => by
      have := h.firstLeaf_below hb
      omega⟩
  obtain ⟨st₂, hfree, hfreed₂⟩ := freed_free hrleaf
    (show (st₁.setChild timerRoot (st.child r 0)).live r = true from hlive_r)
  have hchild₁ : st₁.child = st.child := hfreed.child
  have hc0 : st.child r 0 = (A e 0).elim .null .node := h.link 0 hr' (by norm_num)
  have hchild : ∀ m j, st₂.child m j
      = if m = firstLeaf ∧ j = 0 then st.child r 0 else st.child m j := by
    intro m j
    rw [hfreed₂.child, TimerState.setChild, hchild₁]
    rfl
  have hframe₁ := hfreed.frame
  have hframe₂ := hfreed₂.frame
  have htree : RadixTree st₂ (A.truncate e) := by
    refine h.truncate he ?_ ?_ (fun m => ?_) ?_ fun m j hne => ?_
    · rw [hframe₂, TimerState.setChild, hframe₁]
    · rw [hframe₂, TimerState.setChild, hframe₁]
    · rw [← h.truncate_live_iff he hr, hfreed₂.live_iff, not_or, ← and_assoc]
      exact and_congr_left' (hfreed.live_iff m)
    · rw [hchild, if_pos ⟨rfl, rfl⟩, hc0]
    · rw [hchild, if_neg hne]
  refine ⟨st₂, ?_, htree, ?_, fun i hi => ?_, ?_⟩
  · simp only [ivTimerRadixTreeRemoveLevel, he, Nat.add_sub_cancel, hload, ok_bind,
      timerSplitNodes_eq, Nat.reduceSub, hloop]
    rw [TimerState.load_eq hlive_r (by norm_num), ok_bind,
      TimerState.store_eq hlive_leaf (by norm_num [timerRoot]), ok_bind, hchild₁, hfree]
  · rw [hframe₂, TimerState.setChild, hframe₁]
  · simp only [TimerState.slotAt]
    rw [A.truncate_eq (Nat.zero_le _)]
    · cases hm : A 0 (i / 128) with
      | none => rfl
      | some m =>
        simp only [Option.bind_some, hchild]
        split_ifs with hmi
        · -- the root pointer is not a timer, before and after
          obtain ⟨c, hc⟩ := Option.ne_none_iff_exists'.mp (h.leftmost (k := e) (by omega))
          rw [hmi.1, hmi.2, hroot, hc0, hc]
          rfl
        · rfl
    · rw [Nat.sub_zero, Nat.div_div_eq_div_mul, ← pow_succ']
      exact Nat.div_eq_of_lt hi
  · rw [hframe₂, TimerState.setChild, hframe₁]

end RadixTree
end Ivykis
