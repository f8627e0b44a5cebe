import Ivykis.Avl.Properties

/-!
# Heights fit their byte

A node stores its height in a `uint8_t`, and `recalc_height` assigns an `int` to it. The operations
are taken here with a check wherever they calculate with heights: a height that is written fits the
byte, and the balance of a node is the difference of the heights of its subtrees. There are not
enough addresses for a tree in which a check could fail.
-/

namespace Ivykis

open Kit.Avl

/-! ### The operations with checks -/

/-- The height of the nodes below a pointer, whatever they store. -/
def trueHeight (st : AvlState) : ℕ → Option AvlPtr → ℕ
  | _, none => 0
  | 0, some _ => 0
  | fuel + 1, some an =>
    1 + max (trueHeight st fuel (st.left an)) (trueHeight st fuel (st.right an))

/-- `recalc_height`, if the height fits, and `balance`, if it is the difference of the heights. -/
@[simps]
def HeightOps.checked : HeightOps where
  recalc st an :=
    if 1 + max (avlHeight st (st.left an)) (avlHeight st (st.right an)) < 256 then
      .ok (recalcHeight st an)
    else .error .intOverflow
  balance st an :=
    if avlBalance st an = (trueHeight st avlFuel (st.right an) : ℤ) -
        trueHeight st avlFuel (st.left an) then .ok (avlBalance st an)
    else .error .intOverflow

/-- `iv_avl_tree_insert`. -/
abbrev ivAvlTreeInsertChecked := ivAvlTreeInsertWith .checked

/-- `iv_avl_tree_delete`. -/
abbrev ivAvlTreeDeleteChecked := ivAvlTreeDeleteWith .checked

/-! ### Rotations of low nodes -/

/-- A set of nodes that has the children of its nodes, whose heights are at most `H`. -/
structure Low (st : AvlState) (L : List AvlPtr) (H : ℕ) : Prop where
  left   : ∀ x ∈ L, ∀ y ∈ st.left x, y ∈ L
  right  : ∀ x ∈ L, ∀ y ∈ st.right x, y ∈ L
  height : ∀ x ∈ L, (st.height x).toNat ≤ H

namespace Low

variable {st : AvlState} {L : List AvlPtr} {H : ℕ} {a b d f : AvlPtr} {p q : Option AvlPtr}
  {ref : AvlRef}

lemma avlHeight_le (h : Low st L H) (hp : ∀ y ∈ p, y ∈ L) : avlHeight st p ≤ H := by
  cases p with
  | none => exact Nat.zero_le H
  | some y => exact h.height y (hp y rfl)

lemma setLeft (h : Low st L H) (hp : ∀ y ∈ p, y ∈ L) : Low (st.setLeft a p) L H := by
  refine ⟨fun x hx => ?_, h.right, h.height⟩
  rw [setLeft_left, Function.update_apply]
  split_ifs
  · exact hp
  · exact h.left x hx

lemma setRight (h : Low st L H) (hp : ∀ y ∈ p, y ∈ L) : Low (st.setRight a p) L H := by
  refine ⟨h.left, fun x hx => ?_, h.height⟩
  rw [setRight_right, Function.update_apply]
  split_ifs
  · exact hp
  · exact h.right x hx

lemma setParent (h : Low st L H) : Low (st.setParent a p) L H := ⟨h.left, h.right, h.height⟩

lemma setParentOf (h : Low st L H) : Low (st.setParentOf q p) L H := ⟨h.left, h.right, h.height⟩

lemma newHeight_le (h : Low st L H) (ha : a ∈ L) :
    1 + max (avlHeight st (st.left a)) (avlHeight st (st.right a)) ≤ H + 1 := by
  have hl := h.avlHeight_le (h.left a ha)
  have hr := h.avlHeight_le (h.right a ha)
  omega

lemma recalc_eq (h : Low st L H) (ha : a ∈ L) (hH : H < 255) :
    HeightOps.checked.recalc st a = .ok (recalcHeight st a) :=
  if_pos ((h.newHeight_le ha).trans_lt (by omega))

lemma recalcHeight (h : Low st L H) (ha : a ∈ L) (hH : H < 255) :
    Low (recalcHeight st a) L (H + 1) := by
  refine ⟨h.left, h.right, fun x hx => ?_⟩
  by_cases hxa : x = a
  · subst hxa
    have hle := h.newHeight_le hx
    rw [Ivykis.recalcHeight, setHeight_height, Function.update_self, UInt8.toNat_ofNat']
    split_ifs <;> omega
  · rw [recalcHeight_height_of_ne st hxa]
    exact (h.height x hx).trans (Nat.le_succ H)

lemma attachLeft (h : Low st L H) (ha : a ∈ L) (hp : ∀ y ∈ p, y ∈ L) (hH : H < 255) :
    HeightOps.checked.recalc ((st.setLeft a p).setParentOf p (some a)) a =
        .ok (attachLeft st a p) ∧
      Low (attachLeft st a p) L (H + 1) :=
  ⟨(h.setLeft hp).setParentOf.recalc_eq ha hH,
    (h.setLeft hp).setParentOf.recalcHeight ha hH⟩

lemma attachRight (h : Low st L H) (ha : a ∈ L) (hp : ∀ y ∈ p, y ∈ L) (hH : H < 255) :
    HeightOps.checked.recalc ((st.setRight a p).setParentOf p (some a)) a =
        .ok (attachRight st a p) ∧
      Low (attachRight st a p) L (H + 1) :=
  ⟨(h.setRight hp).setParentOf.recalc_eq ha hH,
    (h.setRight hp).setParentOf.recalcHeight ha hH⟩

lemma rotateLeft_eq (h : Low st L H) (hb : st.get ref = some b) (hbL : b ∈ L) (hH : H < 252) :
    rotateLeftWith .checked st ref = rotateLeft st ref := by
  cases hd : st.right b with
  | none => simp [rotateLeftWith, hb, hd, derefNode]
  | some d =>
    have hdL := h.right b hbL d hd
    obtain ⟨hrec, h₁⟩ := h.attachRight hbL (h.left d hdL) (by omega)
    have h₂ := h₁.setLeft (a := d) (p := some b) (by simpa using hbL)
    simp only [rotateLeftWith, HeightOps.plain_recalc, hb, hd, derefNode, ok_bind, hrec]
    rw [(h₂.setParent.setParent).recalc_eq hdL (by omega)]
    rfl

lemma rotateRight_eq (h : Low st L H) (hd : st.get ref = some d) (hdL : d ∈ L) (hH : H < 252) :
    rotateRightWith .checked st ref = rotateRight st ref := by
  cases hb : st.left d with
  | none => simp [rotateRightWith, hb, hd, derefNode]
  | some b =>
    have hbL := h.left d hdL b hb
    obtain ⟨hrec, h₁⟩ := h.attachLeft hdL (h.right b hbL) (by omega)
    have h₂ := h₁.setRight (a := b) (p := some d) (by simpa using hdL)
    simp only [rotateRightWith, HeightOps.plain_recalc, hb, hd, derefNode, ok_bind, hrec]
    rw [(h₂.setParent.setParent).recalc_eq hbL (by omega)]
    rfl

/-- The last node of a double rotation, after the other two have got their new children. -/
lemma attachBoth (h : Low st L H) (hbL : b ∈ L) (hfL : f ∈ L) (hdL : d ∈ L) (hH : H < 254) :
    HeightOps.checked.recalc (((((st.setLeft d (some b)).setRight d (some f)).setParent d
      p).setParent b (some d)).setParent f (some d)) d = .ok (attachBoth st d b f p) := by
  have h₁ := (h.setLeft (a := d) (p := some b) (by simpa using hbL)).setRight (a := d)
    (p := some f) (by simpa using hfL)
  exact (h₁.setParent.setParent.setParent).recalc_eq hdL (by omega)

lemma rotateLeftRight_eq (h : Low st L H) (hf : st.get ref = some f) (hfL : f ∈ L)
    (hb : st.left f = some b) (hH : H < 252) :
    rotateLeftRightWith .checked st ref = rotateLeftRight st ref := by
  have hbL := h.left f hfL b hb
  cases hd : st.right b with
  | none => simp [rotateLeftRightWith, hf, hb, hd, derefNode]
  | some d =>
    have hdL := h.right b hbL d hd
    obtain ⟨hrec₁, h₁⟩ := h.attachRight hbL (h.left d hdL) (by omega)
    obtain ⟨hrec₂, h₂⟩ := h₁.attachLeft hfL (h₁.right d hdL) (by omega)
    simp only [rotateLeftRightWith, HeightOps.plain_recalc, hf, hb, hd, derefNode, ok_bind, hrec₁,
      hrec₂, h₂.attachBoth hbL hfL hdL (by omega)]
    rfl

lemma rotateRightLeft_eq (h : Low st L H) (hb : st.get ref = some b) (hbL : b ∈ L)
    (hf : st.right b = some f) (hH : H < 252) :
    rotateRightLeftWith .checked st ref = rotateRightLeft st ref := by
  have hfL := h.right b hbL f hf
  cases hd : st.left f with
  | none => simp [rotateRightLeftWith, hf, hb, hd, derefNode]
  | some d =>
    have hdL := h.left f hfL d hd
    obtain ⟨hrec₁, h₁⟩ := h.attachRight hbL (h.left d hdL) (by omega)
    obtain ⟨hrec₂, h₂⟩ := h₁.attachLeft hfL (h₁.right d hdL) (by omega)
    simp only [rotateRightLeftWith, HeightOps.plain_recalc, hf, hb, hd, derefNode, ok_bind, hrec₁,
      hrec₂, h₂.attachBoth hbL hfL hdL (by omega)]
    rfl

end Low

/-! ### Nodes with valid subtrees -/

section Valid

variable {st : AvlState} {p : Option AvlPtr} {l r t : HTree AvlPtr} {a : AvlPtr} {s fuel : ℕ}

lemma Low.mono {L : List AvlPtr} {H H' : ℕ} (h : Low st L H) (hle : H ≤ H') : Low st L H' :=
  ⟨h.left, h.right, fun x hx => (h.height x hx).trans hle⟩

lemma Low.node {H : ℕ} (h : Rep st p (.node l a s r)) (hl : Low st l.toList H)
    (hr : Low st r.toList H) (hs : s ≤ H) : Low st (HTree.node l a s r).toList H := by
  obtain ⟨hl', hr', -, hs', -, -⟩ := h
  constructor <;> simp only [HTree.mem_toList_node]
  · rintro x (hx | rfl | hx) y hy
    · exact Or.inl (hl.left x hx y hy)
    · exact Or.inl (HTree.root_mem (hl' ▸ hy))
    · exact Or.inr (Or.inr (hr.left x hx y hy))
  · rintro x (hx | rfl | hx) y hy
    · exact Or.inl (hl.right x hx y hy)
    · exact Or.inr (Or.inr (HTree.root_mem (hr' ▸ hy)))
    · exact Or.inr (Or.inr (hr.right x hx y hy))
  · rintro x (hx | rfl | hx)
    · exact hl.height x hx
    · exact hs'.trans_le hs
    · exact hr.height x hx

/-- The nodes of a valid tree are no higher than the tree. -/
lemma Rep.low (h : Rep st p t) (hv : t.Valid) : Low st t.toList t.stored := by
  induction t generalizing p with
  | nil => exact ⟨by simp, by simp, by simp⟩
  | node l a s r ihl ihr =>
    obtain ⟨hvl, hvr, hs, -, -⟩ := hv
    have hll := (ihl h.2.2.2.2.1 hvl).mono (show l.stored ≤ s by omega)
    have hrr := (ihr h.2.2.2.2.2 hvr).mono (show r.stored ≤ s by omega)
    exact Low.node h hll hrr le_rfl

lemma Rep.trueHeight (h : Rep st p t) (hfuel : t.height ≤ fuel) :
    trueHeight st fuel t.root = t.height := by
  induction t generalizing p fuel with
  | nil => cases fuel <;> rfl
  | node l a s r ihl ihr =>
    obtain ⟨hl, hr, -, -, hrl, hrr⟩ := h
    simp only [HTree.height] at hfuel ⊢
    obtain ⟨fuel, rfl⟩ : ∃ n, fuel = n + 1 := ⟨fuel - 1, by omega⟩
    rw [HTree.root_node, Ivykis.trueHeight, hl, hr, ihl hrl (by omega), ihr hrr (by omega)]

/-- The balance of a node with valid subtrees is exact. -/
lemma Rep.balance_eq (h : Rep st p (.node l a s r)) (hl : l.Valid) (hr : r.Valid)
    (hbl : l.stored < 254) (hbr : r.stored < 254) :
    HeightOps.checked.balance st a = .ok (Ivykis.avlBalance st a) := by
  obtain ⟨hl', hr', -, -, hrl, hrr⟩ := h
  rw [hl.stored_eq] at hbl
  rw [hr.stored_eq] at hbr
  refine if_pos ?_
  rw [Ivykis.avlBalance, hl', hr', hrl.avlHeight, hrr.avlHeight,
    hrl.trueHeight (by rw [avlFuel]; omega), hrr.trueHeight (by rw [avlFuel]; omega),
    hl.stored_eq, hr.stored_eq]

/-- `rebalance_node` on a node whose children are valid. -/
lemma rebalanceNodeChecked_eq {ref : AvlRef} (h : Rep st p (.join l a r))
    (hget : st.get ref = some a) (hl : l.Valid) (hr : r.Valid) (hbl : l.stored ≤ 91)
    (hbr : r.stored ≤ 91) : rebalanceNodeWith .checked st ref = rebalanceNode st ref := by
  rw [HTree.join] at h
  have hlow : Low st (HTree.node l a (1 + max l.stored r.stored) r).toList 92 :=
    Low.node h ((h.2.2.2.2.1.low hl).mono (by omega)) ((h.2.2.2.2.2.low hr).mono (by omega))
      (by omega)
  have ha : a ∈ (HTree.node l a (1 + max l.stored r.stored) r).toList := by simp
  simp only [rebalanceNodeWith, HeightOps.plain_balance, hget, derefNode, ok_bind,
    h.balance_eq hl hr (by omega) (by omega)]
  obtain ⟨hl', hr', -, -, hrl, hrr⟩ := h
  split_ifs with hneg hpos
  · cases l with
    | nil => simp [hl']
    | node x b u c =>
      obtain ⟨hvx, hvc, hu, -, -⟩ := hl
      simp only [HTree.stored_node] at hbl
      rw [HTree.root_node] at hl'
      simp only [hl', ok_bind, hrl.balance_eq hvx hvc (by omega) (by omega)]
      split_ifs
      · exact hlow.rotateRight_eq hget ha (by omega)
      · exact hlow.rotateLeftRight_eq hget ha hl' (by omega)
  · cases r with
    | nil => simp [hr']
    | node c d u e =>
      obtain ⟨hvc, hve, hu, -, -⟩ := hr
      simp only [HTree.stored_node] at hbr
      rw [HTree.root_node] at hr'
      simp only [hr', ok_bind, hrr.balance_eq hvc hve (by omega) (by omega)]
      split_ifs
      · exact hlow.rotateRightLeft_eq hget ha hr' (by omega)
      · exact hlow.rotateLeft_eq hget ha (by omega)
  · rfl

end Valid

/-! ### Whole operations -/

namespace Unbalanced

variable {st : AvlState} {c : Path AvlPtr} {t : HTree AvlPtr} {f : Frame AvlPtr} {u fuel : ℕ}

/-- In an iteration of `rebalance_path` all heights fit, that of the node above the hole before it
is rotated included. -/
lemma iterateChecked (h : Unbalanced st fuel (f :: c) t u) :
    HeightOps.checked.recalc st f.label = .ok (Ivykis.recalcHeight st f.label) ∧
      rebalanceNodeWith .checked (Ivykis.recalcHeight st f.label) (pathRef c) =
        rebalanceNode (Ivykis.recalcHeight st f.label) (pathRef c) := by
  obtain ⟨hbt, hbo⟩ := h.stored_le
  obtain ⟨hpath, hrep⟩ := holds_plug.mp h.holds
  obtain ⟨hpath₁, hrep₁⟩ := holds_plug.mp h.recalcHeight.1
  cases f with
  | left a s r =>
    rw [Frame.other] at hbo
    obtain ⟨hl, hr, -, -, hrr, -⟩ := hpath
    refine ⟨if_pos ?_, rebalanceNodeChecked_eq hrep₁ hpath₁.get h.valid h.path_valid.1 hbt hbo⟩
    simp only [Frame.label, hl, hr, hrep.avlHeight, hrr.avlHeight]
    omega
  | right l a s =>
    rw [Frame.other] at hbo
    obtain ⟨hl, hr, -, -, hrl, -⟩ := hpath
    refine ⟨if_pos ?_, rebalanceNodeChecked_eq hrep₁ hpath₁.get h.path_valid.1 h.valid hbo hbt⟩
    simp only [Frame.label, hl, hr, hrep.avlHeight, hrl.avlHeight]
    omega

lemma rebalancePathChecked_eq (h : Unbalanced st fuel c t u) :
    rebalancePathWith .checked fuel st (Path.parent c) = rebalancePath fuel st (Path.parent c) := by
  induction c generalizing st t u fuel with
  | nil => cases fuel <;> rfl
  | cons f c ih =>
    obtain ⟨fuel, rfl⟩ : ∃ n, fuel = n + 1 := ⟨fuel - 1, by have := h.length; simp at this; omega⟩
    obtain ⟨hrecalc, hnode'⟩ := h.iterateChecked
    obtain ⟨st₁, l, a, s, r, hroot, hnode, hget, hparent, hstop, h₁⟩ := h.iterate
    simp only [rebalancePathWith, HeightOps.plain_recalc, Path.parent, hrecalc,
      h.recalcHeight.2.2, hnode', hnode, hget, derefNode, ok_bind]
    split_ifs
    · rfl
    · rw [hparent]
      exact ih h₁

end Unbalanced

section Main

variable {cmp : AvlCompare} {s : AvlSystem} {t : HTree AvlPtr} {an : AvlPtr}

lemma AvlInv.insertChecked_eq (h : AvlInv cmp s t) (han : an ∉ s.inTree) :
    ivAvlTreeInsertChecked cmp.compare avlFuel s.mem an =
      ivAvlTreeInsert cmp.compare avlFuel s.mem an := by
  have hplace := insertPlace_eq cmp.compare an (c := []) h.holds (h.valid.stored_eq ▸ h.stored_lt)
  rw [Path.parent, pathRef] at hplace
  simp only [ivAvlTreeInsertWith, hplace]
  cases hloc : Path.locate (cmp.compare an) t [] with
  | none => rfl
  | some c =>
    have hplug : Path.plug c .nil = t := Path.plug_locate hloc
    have hunb : Unbalanced (linkLeaf s.mem c an) avlFuel c (.node .nil an 1 .nil) 0 :=
      linkLeaf_unbalanced (hplug ▸ h.holds) (hplug ▸ h.valid) (hplug ▸ h.sorted.nodup cmp)
        (hplug ▸ fun hm => han ((h.nodes an).mpr hm)) (hplug ▸ h.stored_lt)
    have hpath := hunb.rebalancePathChecked_eq
    simp only [linkLeaf] at hpath
    simp only [Option.map_some, ok_bind, hpath]

lemma AvlInv.deleteChecked_eq (h : AvlInv cmp s t) (han : an ∈ s.inTree) :
    ivAvlTreeDeleteChecked avlFuel s.mem an = ivAvlTreeDelete avlFuel s.mem an := by
  obtain ⟨c, l, u, r, rfl⟩ := Path.exists_plug_of_mem ((h.nodes an).mp han)
  obtain ⟨st₁, c', w, heq, hd⟩ := deleteUnlink_eq h.holds h.valid (h.sorted.nodup cmp)
    (h.valid.stored_eq ▸ h.stored_lt)
  have hpath := hd.unbalanced.rebalancePathChecked_eq
  simp only [ivAvlTreeDeleteWith]
  split_ifs at heq ⊢
  · rw [Except.ok.inj heq]
    exact hpath
  · rw [heq]
    exact hpath

/-- A balanced tree of height `h` has at least `fib (h + 2) - 1` nodes. So in every run no height is
cut off when it is stored, that of a node that is about to be rotated included, and the balances
that are calculated from the heights are exact. -/
theorem avlHeights_of_run {nodes : AvlState} {tr : List AvlOp}
    (h : (avlLts cmp nodes).Run tr s) :
    (∀ t : HTree AvlPtr, t.Balanced → Nat.fib (t.height + 2) - 1 ≤ t.toList.length) ∧
    (∃ t, AvlOk cmp s.mem s.inTree t ∧ t.Balanced ∧ t.height < 256) ∧
    (∀ an, an ∉ s.inTree → ∃ res, ivAvlTreeInsert cmp.compare avlFuel s.mem an = .ok res ∧
      ivAvlTreeInsertChecked cmp.compare avlFuel s.mem an = .ok res) ∧
    ∀ an, an ∈ s.inTree → ∃ mem, ivAvlTreeDelete avlFuel s.mem an = .ok mem ∧
      ivAvlTreeDeleteChecked avlFuel s.mem an = .ok mem := by
  obtain ⟨t, hinv⟩ := avlInv_of_run h
  refine ⟨fun t ht => Nat.sub_le_of_le_add ht.fib_le, ⟨t, hinv.avlOk, hinv.valid.balanced, ?_⟩,
    fun an han => ?_, fun an han => ?_⟩
  · exact hinv.valid.stored_eq ▸ hinv.stored_lt
  · rw [hinv.insertChecked_eq han]
    rcases hinv.insert han with ⟨-, heq⟩ | ⟨-, mem, t', heq, -⟩
    · exact ⟨_, heq, heq⟩
    · exact ⟨_, heq, heq⟩
  · obtain ⟨mem, t', heq, -⟩ := hinv.delete han
    exact ⟨mem, heq, (hinv.deleteChecked_eq han).trans heq⟩

/-- The last of three insertions makes the balance of the root `2`. -/
theorem avlHeights_of_run_rotated :
    ∃ s, (avlLts compareHalves emptyNodes).Run [.insert 2, .insert 4] s ∧
      ∃ res, ivAvlTreeInsertChecked compareHalves.compare avlFuel s.mem 6 = .ok res := by
  refine Kit.Lts.exists_run_of_decide (·.inTree = {2, 4}) (by decide) fun s hs hin => ?_
  obtain ⟨-, -, hinsert, -⟩ := avlHeights_of_run hs
  obtain ⟨res, -, hres⟩ := hinsert 6 (by rw [hin]; decide)
  exact ⟨res, hres⟩

end Main

end Ivykis
