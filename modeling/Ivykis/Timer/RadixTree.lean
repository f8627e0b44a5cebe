import Ivykis.Timer.Array

/-!
# The radix tree of timer slots

A node of the tree is determined by its level `k` above the leaves and by its number `q` on that
level: it covers the slots `i` with `i / 128 ^ (k + 1) = q`. A map `A` from these positions to
the addresses of the nodes says which nodes there are, and `RadixTree st A` that the memory of
`st` holds exactly this tree.
-/

namespace Ivykis

@[simp] lemma timerSplitNodes_eq : timerSplitNodes = 128 := rfl

@[simp] lemma timerSplitBits_eq : timerSplitBits = 7 := rfl

lemma shiftRight_eq {n k : ℕ} (hk : k * timerSplitBits < 32) :
    shiftRight n (k * timerSplitBits) = .ok (n / 128 ^ k) := by
  rw [shiftRight, if_pos hk, Nat.shiftRight_eq_div_pow, timerSplitBits_eq, mul_comm, pow_mul]
  norm_num

lemma and_splitNodes (n : ℕ) : n &&& (timerSplitNodes - 1) = n % 128 := by
  rw [timerSplitNodes_eq]
  exact Nat.and_two_pow_sub_one_eq_mod n 7

/-- Which node, if any, has number `q` on level `k`. -/
abbrev NodeMap := ℕ → ℕ → Option NodePtr

/-- The memory of `st` holds the tree `A`. -/
structure RadixTree (st : TimerState) (A : NodeMap) : Prop where
  root     : ∃ r, A st.ratDepth 0 = some r ∧ st.child firstLeaf 0 = .node r
  leaf     : A 0 0 = some firstLeaf
  live_iff : ∀ n, st.live n = true ↔ ∃ k q, A k q = some n
  below    : ∀ k q, A k q ≠ none → k ≤ st.ratDepth ∧ (k = st.ratDepth → q = 0)
  inj      : ∀ {k q k' q' n}, A k q = some n → A k' q' = some n → k = k' ∧ q = q'
  link     : ∀ {k q n} j, A (k + 1) q = some n → j < 128 →
    st.child n j = (A k (128 * q + j)).elim .null .node
  up       : ∀ k q, A k q ≠ none → k < st.ratDepth → A (k + 1) (q / 128) ≠ none
  contig   : ∀ k q q', A k q ≠ none → q' ≤ q → A k q' ≠ none
  slots    : ∀ q n j, A 0 q = some n → j < 128 → ¬ (q = 0 ∧ j = 0) →
    st.child n j = .null ∨ ∃ t, st.child n j = .timer t
  lt_brk   : ∀ n, st.live n = true → n < st.brk

/-- The timer in slot `i`. -/
def TimerState.slotAt (st : TimerState) (A : NodeMap) (i : ℕ) : Option TimerPtr :=
  (A 0 (i / 128)).bind fun n => match st.child n (i % 128) with
    | .timer t => some t
    | _        => none

lemma TimerState.load_eq {st : TimerState} {p : Slot} (hl : st.live p.node = true)
    (ho : p.off < 128) : st.load p = .ok (st.child p.node p.off) := by
  rw [TimerState.load, if_pos ⟨hl, ho⟩]

lemma TimerState.store_eq {st : TimerState} {p : Slot} (hl : st.live p.node = true)
    (ho : p.off < 128) (c : Child) : st.store p c = .ok (st.setChild p c) := by
  rw [TimerState.store, if_pos ⟨hl, ho⟩]

namespace RadixTree

variable {st : TimerState} {A : NodeMap} {i k q : ℕ} {n : NodePtr}

lemma live (h : RadixTree st A) (hn : A k q = some n) : st.live n = true :=
  (h.live_iff n).mpr ⟨k, q, hn⟩

lemma load (h : RadixTree st A) (hn : A k q = some n) {j : ℕ} (hj : j < 128) :
    st.load ⟨n, j⟩ = .ok (st.child n j) :=
  TimerState.load_eq (h.live hn) hj

lemma store (h : RadixTree st A) (hn : A k q = some n) {j : ℕ} (hj : j < 128) (c : Child) :
    st.store ⟨n, j⟩ c = .ok (st.setChild ⟨n, j⟩ c) :=
  TimerState.store_eq (h.live hn) hj c

lemma loadNode_timerRoot (h : RadixTree st A) {r : NodePtr} (hr : A st.ratDepth 0 = some r) :
    st.loadNode timerRoot = .ok r := by
  obtain ⟨r', hr', hc⟩ := h.root
  rw [hr, Option.some.injEq] at hr'
  subst hr'
  rw [TimerState.loadNode, timerRoot, h.load h.leaf (by norm_num), hc]
  rfl

/-! ### Looking up a slot -/

/-- Above a leaf there is a node on every level. -/
lemma path (h : RadixTree st A) (hi : A 0 (i / 128) ≠ none) (hk : k ≤ st.ratDepth) :
    A k (i / 128 ^ (k + 1)) ≠ none := by
  induction k with
  | zero => simpa using hi
  | succ k ih =>
    have hup := h.up k _ (ih (by omega)) (by omega)
    rwa [Nat.div_div_eq_div_mul, ← pow_succ] at hup

/-- The number of the child that leads to slot `i` is the next digit of `i`. -/
lemma digit (i k : ℕ) : 128 * (i / 128 ^ (k + 1 + 1)) + i / 128 ^ (k + 1) % 128
    = i / 128 ^ (k + 1) := by
  rw [pow_succ, ← Nat.div_div_eq_div_mul]
  exact Nat.div_add_mod _ 128

lemma getNodeLoop_eq (h : RadixTree st A) (hdepth : st.ratDepth ≤ 3) {leaf r : NodePtr}
    (hleaf : A 0 (i / 128) = some leaf) (hk : k ≤ st.ratDepth)
    (hr : A k (i / 128 ^ (k + 1)) = some r) :
    getNodeLoop i k r st = .ok (leaf, st) := by
  induction k generalizing r with
  | zero =>
    rw [zero_add, pow_one, hleaf, Option.some.injEq] at hr
    rw [getNodeLoop, hr]
  | succ k ih =>
    obtain ⟨c, hc⟩ := Option.ne_none_iff_exists'.mp
      (h.path (k := k) (i := i) (by simp [hleaf]) (by omega))
    have hchild : st.child r (i / 128 ^ (k + 1) % 128) = .node c := by
      rw [h.link _ hr (Nat.mod_lt _ (by norm_num)), digit, hc]
      rfl
    simp only [getNodeLoop, shiftRight_eq (show (k + 1) * timerSplitBits < 32 by simp; omega),
      ok_bind, and_splitNodes, h.load hr (Nat.mod_lt _ (by norm_num)), hchild]
    exact ih (by omega) hc

/-- `iv_timer_get_node` finds the slot of an index whose leaf exists, and changes nothing. -/
theorem getNode_eq (h : RadixTree st A) (hdepth : st.ratDepth ≤ 3)
    (hi : i < 128 ^ (st.ratDepth + 1)) (hleaf : A 0 (i / 128) = some n) :
    ivTimerGetNode st i = .ok (⟨n, i % 128⟩, st) := by
  obtain ⟨r, hr, -⟩ := h.root
  have hr' : A st.ratDepth (i / 128 ^ (st.ratDepth + 1)) = some r := by
    rwa [Nat.div_eq_of_lt hi]
  simp only [ivTimerGetNode,
    shiftRight_eq (show (st.ratDepth + 1) * timerSplitBits < 32 by simp; omega), ok_bind,
    Nat.div_eq_of_lt hi, ne_eq, not_true_eq_false, if_false, h.loadNode_timerRoot hr,
    h.getNodeLoop_eq hdepth hleaf le_rfl hr', and_splitNodes]

/-! ### Writing a slot -/

/-- Only the tree part of the state matters for the tree. -/
lemma congr {st' : TimerState} (h : RadixTree st A) (hdepth : st'.ratDepth = st.ratDepth)
    (hchild : st'.child = st.child) (hlive : st'.live = st.live) (hbrk : st'.brk = st.brk) :
    RadixTree st' A where
  root := by rw [hdepth, hchild]; exact h.root
  leaf := h.leaf
  live_iff := by rw [hlive]; exact h.live_iff
  below := by rw [hdepth]; exact h.below
  inj := h.inj
  link := by rw [hchild]; exact h.link
  up := by rw [hdepth]; exact h.up
  contig := h.contig
  slots := by rw [hchild]; exact h.slots
  lt_brk := by rw [hlive, hbrk]; exact h.lt_brk

lemma setChild_slot (h : RadixTree st A) (hi : 1 ≤ i) (hn : A 0 (i / 128) = some n) {c : Child}
    (hc : c = .null ∨ ∃ t, c = .timer t) : RadixTree (st.setChild ⟨n, i % 128⟩ c) A where
  root := by
    obtain ⟨r, hr, hroot⟩ := h.root
    refine ⟨r, hr, ?_⟩
    simp only [TimerState.setChild]
    rw [if_neg, hroot]
    -- slot `0` of the first leaf is no slot of an index from `1` on
    rintro ⟨hnl, h0⟩
    have hq := (h.inj hn (hnl ▸ h.leaf)).2
    omega
  leaf := h.leaf
  live_iff := h.live_iff
  below := h.below
  inj := h.inj
  link j hk hj := by
    simp only [TimerState.setChild]
    rw [if_neg, h.link j hk hj]
    rintro ⟨rfl, -⟩
    have := (h.inj hk hn).1
    omega
  up := h.up
  contig := h.contig
  slots q m j hm hj hne := by
    simp only [TimerState.setChild]
    split_ifs
    · exact hc
    · exact h.slots q m j hm hj hne
  lt_brk := h.lt_brk

lemma slotAt_setChild (h : RadixTree st A) (hn : A 0 (i / 128) = some n) (c : Child) (j : ℕ) :
    (st.setChild ⟨n, i % 128⟩ c).slotAt A j
      = if j = i then (match c with | .timer t => some t | _ => none) else st.slotAt A j := by
  simp only [TimerState.slotAt]
  by_cases hji : j = i
  · subst hji
    simp [hn, TimerState.setChild]
  · rw [if_neg hji]
    cases hm : A 0 (j / 128) with
    | none => rfl
    | some m =>
      have hne : ¬ (m = n ∧ j % 128 = i % 128) := by
        rintro ⟨rfl, hmod⟩
        have hdiv := (h.inj hm hn).2
        omega
      simp [TimerState.setChild, hne]

/-! ### A slot as an array cell -/

lemma loadTimer_eq (h : RadixTree st A) (hn : A 0 (i / 128) = some n) {t : TimerPtr}
    (ht : st.slotAt A i = some t) : st.loadTimer ⟨n, i % 128⟩ = .ok t := by
  rw [TimerState.loadTimer, h.load hn (Nat.mod_lt _ (by norm_num))]
  simp only [TimerState.slotAt, hn, Option.bind_some] at ht
  cases hc : st.child n (i % 128) with
  | null => simp [hc] at ht
  | node m => simp [hc] at ht
  | timer u =>
    rw [hc, Option.some.injEq] at ht
    rw [ht]
    rfl

lemma child_of_slotAt (h : RadixTree st A) (hi : 1 ≤ i) (hn : A 0 (i / 128) = some n) :
    st.child n (i % 128) = (st.slotAt A i).elim .null .timer := by
  simp only [TimerState.slotAt, hn, Option.bind_some]
  have hslots := h.slots (i / 128) n (i % 128) hn (Nat.mod_lt _ (by norm_num)) (by omega)
  rcases hslots with hc | ⟨t, hc⟩
  · simp [hc]
  · simp [hc]

end RadixTree
end Ivykis
