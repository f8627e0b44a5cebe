import Mathlib.Data.Fintype.Card
import Ivykis.Avl.Memory

/-!
# Rotating and rebalancing in memory

The rotations of `iv_avl.c` and the walk of `rebalance_path` do to the nodes in memory what their
counterparts in `Kit.Avl` do to the tree that the nodes hold.
-/

namespace Ivykis

open Kit.Avl

variable {st : AvlState} {p q q' : Option AvlPtr} {ref : AvlRef} {A C E G : HTree AvlPtr}
  {a b d f x : AvlPtr} {h s u : ℕ}

/-! ### Hanging subtrees below a node -/

/-- `a->left = l; if (l != NULL) l->parent = a; recalc_height(a);` -/
def attachLeft (st : AvlState) (a : AvlPtr) (l : Option AvlPtr) : AvlState :=
  recalcHeight ((st.setLeft a l).setParentOf l (some a)) a

/-- `a->right = r; if (r != NULL) r->parent = a; recalc_height(a);` -/
def attachRight (st : AvlState) (a : AvlPtr) (r : Option AvlPtr) : AvlState :=
  recalcHeight ((st.setRight a r).setParentOf r (some a)) a

@[simp] lemma attachLeft_root : (attachLeft st a q).root = st.root := rfl

@[simp] lemma attachRight_root : (attachRight st a q).root = st.root := rfl

lemma sameNode_attachLeft (hxa : x ≠ a) (hx : q ≠ some x) :
    SameNode st (attachLeft st a q) x := by
  simp [SameNode, attachLeft, hxa, hx, recalcHeight_height_of_ne]

lemma sameNode_attachRight (hxa : x ≠ a) (hx : q ≠ some x) :
    SameNode st (attachRight st a q) x := by
  simp [SameNode, attachRight, hxa, hx, recalcHeight_height_of_ne]

lemma Rep.attachLeft (hr : st.right a = C.root) (hp : st.parent a = p) (hrA : Rep st q A)
    (hrC : Rep st (some a) C) (hnd : (HTree.node A a h C).toList.Nodup) (hA : A.stored < 255)
    (hC : C.stored < 255) : Rep (attachLeft st a A.root) p (.join A a C) := by
  rw [HTree.nodup_node] at hnd
  have hxA : ∀ x ∈ A.toList, x ≠ a := by grind
  have hxC : ∀ x ∈ C.toList, x ≠ a ∧ A.root ≠ some x := by grind [HTree.root_mem]
  have haA : A.root ≠ some a := by grind [HTree.root_mem]
  refine Rep.recalcHeight ?_ ?_ ?_ ?_ ?_ ?_ ?_ hA hC
  · simp
  · simpa using hr
  · simpa [haA] using hp
  · refine hrA.reparent (by tauto) (fun x hx => ?_) (fun x hx => ?_)
    · simp [hxA x hx]
    · simp
  · refine hrC.congr fun x hx => ?_
    simp [SameNode, hxC x hx]
  · exact fun ha => hxA a ha rfl
  · exact fun ha => (hxC a ha).1 rfl

lemma Rep.attachRight (hl : st.left a = A.root) (hp : st.parent a = p) (hrA : Rep st (some a) A)
    (hrC : Rep st q C) (hnd : (HTree.node A a h C).toList.Nodup) (hA : A.stored < 255)
    (hC : C.stored < 255) : Rep (attachRight st a C.root) p (.join A a C) := by
  rw [HTree.nodup_node] at hnd
  have hxA : ∀ x ∈ A.toList, x ≠ a ∧ C.root ≠ some x := by grind [HTree.root_mem]
  have hxC : ∀ x ∈ C.toList, x ≠ a := by grind
  have haC : C.root ≠ some a := by grind [HTree.root_mem]
  refine Rep.recalcHeight ?_ ?_ ?_ ?_ ?_ ?_ ?_ hA hC
  · simpa using hl
  · simp
  · simpa [haC] using hp
  · refine hrA.congr fun x hx => ?_
    simp [SameNode, hxA x hx]
  · refine hrC.reparent (by tauto) (fun x hx => ?_) (fun x hx => ?_)
    · simp [hxC x hx]
    · simp
  · exact fun ha => (hxA a ha).1 rfl
  · exact fun ha => hxC a ha rfl

/-- The last lines of the double rotations: `a` gets two children. -/
def attachBoth (st : AvlState) (a l r : AvlPtr) (p : Option AvlPtr) : AvlState :=
  recalcHeight (((((st.setLeft a (some l)).setRight a (some r)).setParent a p).setParent l
    (some a)).setParent r (some a)) a

@[simp] lemma attachBoth_root : (attachBoth st a b d p).root = st.root := rfl

lemma sameNode_attachBoth (hxa : x ≠ a) (hxb : x ≠ b) (hxd : x ≠ d) :
    SameNode st (attachBoth st a b d p) x := by
  simp [SameNode, attachBoth, hxa, hxb, hxd, recalcHeight_height_of_ne]

lemma Rep.attachBoth (hb : A.root = some b) (hd : C.root = some d) (hrA : Rep st q A)
    (hrC : Rep st q' C) (hnd : (HTree.node A a h C).toList.Nodup) (hA : A.stored < 255)
    (hC : C.stored < 255) : Rep (attachBoth st a b d p) p (.join A a C) := by
  rw [HTree.nodup_node] at hnd
  have hbA := HTree.root_mem hb
  have hdC := HTree.root_mem hd
  have hxA : ∀ x ∈ A.toList, x ≠ a ∧ x ≠ d := by grind
  have hxC : ∀ x ∈ C.toList, x ≠ a ∧ x ≠ b := by grind
  have hab : a ≠ b := (hxA b hbA).1.symm
  have had : a ≠ d := (hxC d hdC).1.symm
  refine Rep.recalcHeight ?_ ?_ ?_ ?_ ?_ ?_ ?_ hA hC
  · simp [hb]
  · simp [hd]
  · simp [hab, had]
  · refine hrA.reparent (by tauto) (fun x hx => ?_) (fun x hx => ?_)
    · simp [hxA x hx]
    · simp [hxA x hx, hb, Function.update_apply, eq_comm]
  · refine hrC.reparent (by tauto) (fun x hx => ?_) (fun x hx => ?_)
    · simp [hxC x hx]
    · simp [hxC x hx, hd, Function.update_apply, eq_comm]
  · exact fun ha => (hxA a ha).1 rfl
  · exact fun ha => (hxC a ha).1 rfl

/-! ### Rotations -/

/-- Two states differ at most in the nodes of `L`. -/
def SameOutside (L : List AvlPtr) (st st' : AvlState) : Prop :=
  st'.root = st.root ∧ ∀ x ∉ L, SameNode st st' x

lemma rotateLeft_eq (hget : st.get ref = some b)
    (hrep : Rep st p (.node A b h (.node C d s E)))
    (hnd : (HTree.node A b h (.node C d s E)).toList.Nodup)
    (hA : A.stored < 254) (hC : C.stored < 254) (hE : E.stored < 254) :
    ∃ st₁, rotateLeft st ref = .ok (st₁.set ref (some d)) ∧
      Rep st₁ p (.join (.join A b C) d E) ∧
      SameOutside (HTree.node A b h (.node C d s E)).toList st st₁ := by
  obtain ⟨hbl, hbr, hbp, -, hrA, hdl, hdr, -, -, hrC, hrE⟩ := hrep
  have hnd' : (HTree.node (.node A b h C) d s E).toList.Nodup := by simpa using hnd
  simp only [HTree.nodup_node, HTree.mem_toList_node] at hnd
  have hbC : C.root ≠ some b := by grind [HTree.root_mem]
  have hdC : C.root ≠ some d := by grind [HTree.root_mem]
  have hdb : d ≠ b := by grind
  -- what the lines up to `recalc_height(b)` and the write to `d->parent` leave alone
  have hkeep : ∀ x, x ≠ b → x ≠ d → C.root ≠ some x →
      SameNode st ((attachRight st b C.root).setParent d p) x := fun x hxb hxd hxC =>
    (sameNode_attachRight hxb hxC).trans (sameNode_setParent _ hxd p)
  have h₁ : Rep (attachRight st b C.root) p (.join A b C) :=
    Rep.attachRight (h := h) hbl hbp hrA hrC (HTree.nodup_node.mp hnd').1 (by omega) (by omega)
  refine ⟨attachLeft ((attachRight st b C.root).setParent d p) d (some b), ?_, ?_, by simp,
    fun x hx => ?_⟩
  · have hparent : (attachRight st b C.root).parent b = p := by simp [attachRight, hbC, hbp]
    simp only [rotateLeftWith, HeightOps.plain_recalc, hget, derefNode, ok_bind, hbr,
      HTree.root_node, hdl]
    rw [← hparent]
    rfl
  · refine Rep.attachLeft (A := .join A b C) (q := p) (h := s) ?_ ?_ ?_ ?_ hnd' ?_ (by omega)
    · rw [setParent_right, (sameNode_attachRight hdb hdC).2.1, hdr]
    · simp
    · refine h₁.congr fun x hx => sameNode_setParent _ (ne_of_mem_of_not_mem hx ?_) p
      exact (HTree.nodup_node.mp hnd').2.2.1
    · refine hrE.congr fun x hx => hkeep x ?_ ?_ ?_ <;> grind [HTree.root_mem]
    · rw [HTree.stored_join]
      omega
  · simp only [HTree.mem_toList_node, not_or] at hx
    refine (hkeep x ?_ ?_ ?_).trans (sameNode_attachLeft ?_ ?_) <;> grind [HTree.root_mem]

lemma rotateRight_eq (hget : st.get ref = some d)
    (hrep : Rep st p (.node (.node A b s C) d h E))
    (hnd : (HTree.node (.node A b s C) d h E).toList.Nodup)
    (hA : A.stored < 254) (hC : C.stored < 254) (hE : E.stored < 254) :
    ∃ st₁, rotateRight st ref = .ok (st₁.set ref (some b)) ∧
      Rep st₁ p (.join A b (.join C d E)) ∧
      SameOutside (HTree.node (.node A b s C) d h E).toList st st₁ := by
  obtain ⟨hdl, hdr, hdp, -, ⟨hbl, hbr, -, -, hrA, hrC⟩, hrE⟩ := hrep
  have hnd' : (HTree.node A b s (.node C d h E)).toList.Nodup := by simpa using hnd
  simp only [HTree.nodup_node, HTree.mem_toList_node] at hnd
  have hdC : C.root ≠ some d := by grind [HTree.root_mem]
  have hbC : C.root ≠ some b := by grind [HTree.root_mem]
  have hbd : b ≠ d := by grind
  have hkeep : ∀ x, x ≠ d → x ≠ b → C.root ≠ some x →
      SameNode st ((attachLeft st d C.root).setParent b p) x := fun x hxd hxb hxC =>
    (sameNode_attachLeft hxd hxC).trans (sameNode_setParent _ hxb p)
  have h₁ : Rep (attachLeft st d C.root) p (.join C d E) :=
    Rep.attachLeft (h := h) hdr hdp hrC hrE (HTree.nodup_node.mp hnd').2.1 (by omega) (by omega)
  refine ⟨attachRight ((attachLeft st d C.root).setParent b p) b (some d), ?_, ?_, by simp,
    fun x hx => ?_⟩
  · have hparent : (attachLeft st d C.root).parent d = p := by simp [attachLeft, hdC, hdp]
    simp only [rotateRightWith, HeightOps.plain_recalc, hget, derefNode, ok_bind, hdl,
      HTree.root_node, hbr]
    rw [← hparent]
    rfl
  · refine Rep.attachRight (C := .join C d E) (q := p) (h := s) ?_ ?_ ?_ ?_ hnd' (by omega) ?_
    · rw [setParent_left, (sameNode_attachLeft hbd hbC).1, hbl]
    · simp
    · refine hrA.congr fun x hx => hkeep x ?_ ?_ ?_ <;> grind [HTree.root_mem]
    · refine h₁.congr fun x hx => sameNode_setParent _ (ne_of_mem_of_not_mem hx ?_) p
      exact (HTree.nodup_node.mp hnd').2.2.2.1
    · rw [HTree.stored_join]
      omega
  · simp only [HTree.mem_toList_node, not_or] at hx
    refine (hkeep x ?_ ?_ ?_).trans (sameNode_attachRight ?_ ?_) <;> grind [HTree.root_mem]

/-- The state after a double rotation, but for the reference to the root. -/
def doubleRotation (st : AvlState) (b d f : AvlPtr) (c e p : Option AvlPtr) : AvlState :=
  attachBoth (attachLeft (attachRight st b c) f e) d b f p

/-- A double rotation builds the two subtrees while `b` and `f` keep their parent pointers, and
then links them below `d`. -/
lemma Rep.doubleRotation (hbl : st.left b = A.root) (hfr : st.right f = G.root)
    (hbp : st.parent b = q) (hfp : st.parent f = q') (hrA : Rep st (some b) A)
    (hrC : Rep st (some d) C) (hrE : Rep st (some d) E) (hrG : Rep st (some f) G)
    (hnd : (HTree.node (.node A b h C) d s (.node E f u G)).toList.Nodup)
    (hA : A.stored < 254) (hC : C.stored < 254) (hE : E.stored < 254) (hG : G.stored < 254) :
    (Ivykis.attachRight st b C.root).right d = st.right d ∧
      (Ivykis.attachLeft (Ivykis.attachRight st b C.root) f E.root).parent b = q ∧
      (Ivykis.attachLeft (Ivykis.attachRight st b C.root) f E.root).parent f = q' ∧
      Rep (doubleRotation st b d f C.root E.root p) p (.join (.join A b C) d (.join E f G)) ∧
      SameOutside (HTree.node (.node A b h C) d s (.node E f u G)).toList st
        (doubleRotation st b d f C.root E.root p) := by
  have hndC := (HTree.nodup_node.mp hnd).1
  have hndE := (HTree.nodup_node.mp hnd).2.1
  have hnd' := hnd
  simp only [HTree.nodup_node, HTree.mem_toList_node] at hnd'
  have hkeep : ∀ x, x ≠ b → C.root ≠ some x → SameNode st (Ivykis.attachRight st b C.root) x :=
    fun x hx hxC => sameNode_attachRight hx hxC
  obtain ⟨-, hdr, -, -⟩ := hkeep d (by grind) (by grind [HTree.root_mem])
  obtain ⟨-, hfr', hfp', -⟩ := hkeep f (by grind) (by grind [HTree.root_mem])
  have h₁ : Rep (Ivykis.attachRight st b C.root) q (.join A b C) :=
    Rep.attachRight (h := h) hbl hbp hrA hrC hndC (by omega) (by omega)
  have h₂ : Rep (Ivykis.attachLeft (Ivykis.attachRight st b C.root) f E.root) q' (.join E f G) := by
    refine Rep.attachLeft (h := u) (q := some d) (hfr'.trans hfr) (hfp'.trans hfp) ?_ ?_ hndE
      (by omega) (by omega)
    · refine hrE.congr fun x hx => hkeep x ?_ ?_ <;> grind [HTree.root_mem]
    · refine hrG.congr fun x hx => hkeep x ?_ ?_ <;> grind [HTree.root_mem]
  have h₁' : Rep (Ivykis.attachLeft (Ivykis.attachRight st b C.root) f E.root) q (.join A b C) := by
    refine h₁.congr fun x hx => ?_
    simp only [HTree.join, HTree.mem_toList_node] at hx
    refine sameNode_attachLeft ?_ ?_ <;> grind [HTree.root_mem]
  refine ⟨hdr, h₁'.2.2.1, h₂.2.2.1, Rep.attachBoth (h := s) rfl rfl h₁' h₂ hnd ?_ ?_,
    by simp [Ivykis.doubleRotation], fun x hx => ?_⟩
  · rw [HTree.stored_join]
    omega
  · rw [HTree.stored_join]
    omega
  · simp only [HTree.mem_toList_node, not_or] at hx
    refine (sameNode_attachRight ?_ ?_).trans ((sameNode_attachLeft ?_ ?_).trans
      (sameNode_attachBoth ?_ ?_ ?_)) <;> grind [HTree.root_mem]

lemma rotateLeftRight_eq (hget : st.get ref = some f)
    (hrep : Rep st p (.node (.node A b s (.node C d u E)) f h G))
    (hnd : (HTree.node (.node A b s (.node C d u E)) f h G).toList.Nodup)
    (hA : A.stored < 254) (hC : C.stored < 254) (hE : E.stored < 254) (hG : G.stored < 254) :
    ∃ st₁, rotateLeftRight st ref = .ok (st₁.set ref (some d)) ∧
      Rep st₁ p (.join (.join A b C) d (.join E f G)) ∧
      SameOutside (HTree.node (.node A b s (.node C d u E)) f h G).toList st st₁ := by
  obtain ⟨hfl, hfr, hfp, -, ⟨hbl, hbr, hbp, -, hrA, hdl, hdr, -, -, hrC, hrE⟩, hrG⟩ := hrep
  have hnd' : (HTree.node (.node A b s C) d u (.node E f h G)).toList.Nodup := by simpa using hnd
  obtain ⟨hright, -, hparent, hrep', hout⟩ :=
    Rep.doubleRotation (p := p) hbl hfr hbp hfp hrA hrC hrE hrG hnd' hA hC hE hG
  refine ⟨_, ?_, hrep', by simpa using hout⟩
  simp only [rotateLeftRightWith, HeightOps.plain_recalc, hget, derefNode, ok_bind, hfl,
    HTree.root_node, hbr, hdl]
  rw [← hparent, ← hright.trans hdr]
  rfl

lemma rotateRightLeft_eq (hget : st.get ref = some b)
    (hrep : Rep st p (.node A b h (.node (.node C d u E) f s G)))
    (hnd : (HTree.node A b h (.node (.node C d u E) f s G)).toList.Nodup)
    (hA : A.stored < 254) (hC : C.stored < 254) (hE : E.stored < 254) (hG : G.stored < 254) :
    ∃ st₁, rotateRightLeft st ref = .ok (st₁.set ref (some d)) ∧
      Rep st₁ p (.join (.join A b C) d (.join E f G)) ∧
      SameOutside (HTree.node A b h (.node (.node C d u E) f s G)).toList st st₁ := by
  obtain ⟨hbl, hbr, hbp, -, hrA, hfl, hfr, hfp, -, ⟨hdl, hdr, -, -, hrC, hrE⟩, hrG⟩ := hrep
  have hnd' : (HTree.node (.node A b h C) d u (.node E f s G)).toList.Nodup := by simpa using hnd
  obtain ⟨hright, hparent, -, hrep', hout⟩ :=
    Rep.doubleRotation (p := p) hbl hfr hbp hfp hrA hrC hrE hrG hnd' hA hC hE hG
  refine ⟨_, ?_, hrep', by simpa using hout⟩
  simp only [rotateRightLeftWith, HeightOps.plain_recalc, hget, derefNode, ok_bind, hfl,
    HTree.root_node, hbr, hdl]
  rw [← hparent, ← hright.trans hdr]
  rfl

/-! ### Heights fit their byte -/

lemma nodup_length_le {L : List AvlPtr} (h : L.Nodup) : L.length ≤ 2 ^ 64 := by
  have hinj : Function.Injective (BitVec.toFin : AvlPtr → Fin (2 ^ 64)) := fun x y hxy =>
    BitVec.eq_of_toFin_eq hxy
  have hcard := (h.map hinj).length_le_card
  rwa [List.length_map, Fintype.card_fin] at hcard

/-- There are not enough addresses for a balanced tree of height `92`. -/
lemma stored_le {t : HTree AvlPtr} (hv : t.Valid) (hnd : t.toList.Nodup) : t.stored ≤ 91 := by
  by_contra hgt
  have hfib : 2 ^ 64 + 1 < Nat.fib 94 := by decide +kernel
  have hmono := Nat.fib_mono (show 94 ≤ t.stored + 2 by omega)
  have hle := hv.fib_le
  have hlen := nodup_length_le hnd
  omega

/-! ### Rebalancing -/

variable {c : Path AvlPtr} {t w l r : HTree AvlPtr} {st₁ : AvlState} {L : List AvlPtr}

/-- A subtree that was rebuilt in place, and the reference to it written. -/
lemma PathRep.holds_set {hole : Option AvlPtr} (h : PathRep st c hole)
    (hnd : (Path.elems c).Nodup) (hout : SameOutside L st st₁) (hL : ∀ x ∈ L, x ∉ Path.elems c)
    (hrep : Rep st₁ (Path.parent c) w) (hw : ∀ x ∈ w.toList, x ∈ L) :
    Holds (st₁.set (pathRef c) w.root) (Path.plug c w) := by
  obtain ⟨hroot, hsame⟩ := hout
  refine h.replace hnd (fun x hx => ?_) ?_ (hrep.congr fun x hx => ?_)
  · exact SameNode.set (hsame x fun hxL => hL x hxL hx) _ _
  · match c with
    | [] => rfl
    | .left a s r :: c => exact hroot
    | .right l a s :: c => exact hroot
  · exact sameNode_set (fun hp => hL x (hw x hx) (parent_mem hp)) _

lemma Rep.avlBalance (h : Rep st p (.node l a s r)) :
    avlBalance st a = (HTree.node l a s r).balance := by
  obtain ⟨hl, hr, -, -, hrl, hrr⟩ := h
  rw [Ivykis.avlBalance, hl, hr, hrl.avlHeight, hrr.avlHeight, HTree.balance]

/-- `rebalance_node` on a node whose children are valid. -/
lemma rebalanceNode_eq (h : Holds st (Path.plug c (.join l a r)))
    (hnd : (Path.plug c (HTree.join l a r)).toList.Nodup) (hl : l.Valid) (hr : r.Valid)
    (hbl : l.stored < 254) (hbr : r.stored < 254) :
    ∃ st', rebalanceNode st (pathRef c) = .ok st' ∧
      Holds st' (Path.plug c (HTree.join l a r).rebalance) := by
  obtain ⟨hpath, hrep⟩ := holds_plug.mp h
  obtain ⟨hndt, hndc, hdisj⟩ := Path.nodup_plug.mp hnd
  have hget : st.get (pathRef c) = some a := hpath.get
  have hbal := Rep.avlBalance hrep
  have hlist := HTree.toList_rebalance (HTree.join l a r)
  -- what a rotation leaves to show
  have hdone : ∀ (st₁ : AvlState) (t' : HTree AvlPtr), t' = (HTree.join l a r).rebalance →
      Rep st₁ (Path.parent c) t' → SameOutside (HTree.join l a r).toList st st₁ →
      Holds (st₁.set (pathRef c) t'.root) (Path.plug c (HTree.join l a r).rebalance) := by
    rintro st₁ t' rfl hrep' hout
    exact hpath.holds_set hndc hout hdisj hrep' fun x hx => hlist ▸ hx
  simp only [rebalanceNodeWith, HeightOps.plain_balance, hget, derefNode, ok_bind]
  rw [HTree.join] at *
  rw [hbal]
  simp only [HTree.rebalance] at hdone ⊢
  by_cases h₁ : (HTree.node l a (1 + max l.stored r.stored) r).balance = -2
  · simp only [h₁, if_true] at hdone ⊢
    obtain ⟨A, b, s, C, rfl⟩ := HTree.exists_left (h₁.trans_lt (by decide))
    obtain ⟨hvA, hvC, hs, -, -⟩ := hl
    simp only [HTree.stored_node] at hbl
    rw [hrep.1, HTree.root_node]
    simp only [ok_bind, Rep.avlBalance hrep.2.2.2.2.1]
    by_cases h₂ : (HTree.node A b s C).balance ≤ 0
    · simp only [h₂, if_true] at hdone ⊢
      obtain ⟨st₁, heq, hrep', hout⟩ := rotateRight_eq hget hrep hndt (by omega) (by omega) hbr
      exact ⟨_, heq, hdone st₁ _ rfl hrep' hout⟩
    · simp only [h₂, if_false] at hdone ⊢
      obtain ⟨C, d, u, E, rfl⟩ := HTree.exists_right (not_le.mp h₂)
      obtain ⟨-, -, hu, -, -⟩ := hvC
      simp only [HTree.stored_node] at hs
      obtain ⟨st₁, heq, hrep', hout⟩ := rotateLeftRight_eq hget hrep hndt (by omega)
        (by omega) (by omega) hbr
      exact ⟨_, heq, hdone st₁ _ rfl hrep' hout⟩
  · by_cases h₂ : (HTree.node l a (1 + max l.stored r.stored) r).balance = 2
    · simp only [h₂, if_true] at hdone ⊢
      rw [if_neg (by omega)] at hdone ⊢
      obtain ⟨C, d, s, E, rfl⟩ := HTree.exists_right (zero_lt_two.trans_eq h₂.symm)
      obtain ⟨hvC, hvE, hs, -, -⟩ := hr
      simp only [HTree.stored_node] at hbr
      rw [hrep.2.1, HTree.root_node]
      simp only [ok_bind, Rep.avlBalance hrep.2.2.2.2.2]
      by_cases h₃ : (HTree.node C d s E).balance < 0
      · simp only [h₃, if_true] at hdone ⊢
        obtain ⟨C, f, u, G, rfl⟩ := HTree.exists_left h₃
        obtain ⟨-, -, hu, -, -⟩ := hvC
        simp only [HTree.stored_node] at hs
        obtain ⟨st₁, heq, hrep', hout⟩ := rotateRightLeft_eq hget hrep hndt hbl (by omega)
          (by omega) (by omega)
        exact ⟨_, heq, hdone st₁ _ rfl hrep' hout⟩
      · simp only [h₃, if_false] at hdone ⊢
        obtain ⟨st₁, heq, hrep', hout⟩ := rotateLeft_eq hget hrep hndt hbl (by omega) (by omega)
        exact ⟨_, heq, hdone st₁ _ rfl hrep' hout⟩
    · simp only [h₁, h₂, if_false] at hdone ⊢
      exact ⟨st, rfl, h⟩

/-- The first line of an iteration of `rebalance_path`. -/
lemma recalcHeight_eq {f : Frame AvlPtr} (h : Holds st (Path.plug (f :: c) t))
    (hnd : (Path.plug (f :: c) t).toList.Nodup) (ht : t.stored < 255)
    (ho : f.other.stored < 255) :
    Holds (recalcHeight st f.label) (Path.plug c (f.join t)) := by
  obtain ⟨hpath, hrep⟩ := holds_plug.mp (show Holds st (Path.plug c (f.fill t)) from h)
  obtain ⟨hndt, -, hdisj⟩ := Path.nodup_plug.mp
    (show (Path.plug c (f.fill t)).toList.Nodup from hnd)
  refine holds_plug.mpr ⟨?_, ?_⟩
  · have hlabel : f.label ∉ Path.elems c := by
      refine hdisj f.label ?_
      cases f <;> simp [Frame.label, Frame.fill]
    have hroot : (f.join t).root = (f.fill t).root := by cases f <;> rfl
    rw [hroot]
    refine hpath.congr (fun x hx => ⟨rfl, rfl, rfl, ?_⟩) rfl
    exact recalcHeight_height_of_ne st (ne_of_mem_of_not_mem hx hlabel)
  · cases f with
    | left a s r =>
      obtain ⟨hl, hr, hp, -, hrl, hrr⟩ := hrep
      obtain ⟨-, -, hal, har, -⟩ := HTree.nodup_node.mp hndt
      exact Rep.recalcHeight hl hr hp hrl hrr hal har ht ho
    | right l a s =>
      obtain ⟨hl, hr, hp, -, hrl, hrr⟩ := hrep
      obtain ⟨-, -, hal, har, -⟩ := HTree.nodup_node.mp hndt
      exact Rep.recalcHeight hl hr hp hrl hrr hal har ho ht

lemma rebalanceNode_frame {f : Frame AvlPtr} (h : Holds st (Path.plug c (f.join t)))
    (hnd : (Path.plug c (f.join t)).toList.Nodup) (ht : t.Valid) (ho : f.other.Valid)
    (hbt : t.stored < 254) (hbo : f.other.stored < 254) :
    ∃ st', rebalanceNode st (pathRef c) = .ok st' ∧
      Holds st' (Path.plug c (f.join t).rebalance) := by
  cases f with
  | left a s r => exact rebalanceNode_eq h hnd ht ho hbt hbo
  | right l a s => exact rebalanceNode_eq h hnd ho ht hbo hbt

/-- In the hole of the path `c`, a subtree of height `u` has been replaced by `t`, and the heights
stored on the path are those from before. -/
structure Unbalanced (st : AvlState) (fuel : ℕ) (c : Path AvlPtr) (t : HTree AvlPtr) (u : ℕ) :
    Prop where
  holds      : Holds st (Path.plug c t)
  nodup      : (Path.plug c t).toList.Nodup
  path_valid : Path.Valid c u
  valid      : t.Valid
  low        : u ≤ t.stored + 1
  high       : t.stored ≤ u + 1
  length     : c.length ≤ fuel

namespace Unbalanced

variable {f : Frame AvlPtr} {fuel : ℕ}

lemma stored_le (h : Unbalanced st fuel (f :: c) t u) : t.stored ≤ 91 ∧ f.other.stored ≤ 91 := by
  obtain ⟨hndt, hndc, -⟩ := Path.nodup_plug.mp h.nodup
  have hndo : f.other.toList.Nodup := (List.nodup_append'.mp (List.nodup_cons.mp hndc).2).1
  exact ⟨Ivykis.stored_le h.valid hndt, Ivykis.stored_le h.path_valid.1 hndo⟩

/-- The node above the hole, after its height has been recalculated. -/
lemma recalcHeight (h : Unbalanced st fuel (f :: c) t u) :
    Holds (recalcHeight st f.label) (Path.plug c (f.join t)) ∧
      (Path.plug c (f.join t)).toList.Nodup ∧
      findReference (Ivykis.recalcHeight st f.label) f.label = pathRef c := by
  obtain ⟨hbt, hbo⟩ := h.stored_le
  have h₁ := recalcHeight_eq h.holds h.nodup (by omega) (by omega)
  have hlist : (f.join t).toList = (f.fill t).toList := by cases f <;> rfl
  have hnd₁ : (Path.plug c (f.join t)).toList.Nodup := by
    rw [Path.toList_plug, hlist, ← Path.toList_plug]
    exact h.nodup
  obtain ⟨hpath, hrep⟩ := holds_plug.mp h₁
  obtain ⟨-, -, hdisj⟩ := Path.nodup_plug.mp hnd₁
  refine ⟨h₁, hnd₁, ?_⟩
  cases f with
  | left a s r => exact hpath.findReference hrep.2.2.1 (hdisj a (by simp [Frame.join]))
  | right l a s => exact hpath.findReference hrep.2.2.1 (hdisj a (by simp [Frame.join]))

/-- An iteration of `rebalance_path`, up to the test whether the height has changed. -/
lemma iterate (h : Unbalanced st (fuel + 1) (f :: c) t u) :
    ∃ st₁ l a s r, (f.join t).rebalance = .node l a s r ∧
      rebalanceNode (Ivykis.recalcHeight st f.label) (pathRef c) = .ok st₁ ∧
      st₁.get (pathRef c) = some a ∧ st₁.parent a = Path.parent c ∧
      (st.height f.label = st₁.height a ↔ f.stored = s) ∧
      Unbalanced st₁ fuel c (.node l a s r) f.stored := by
  obtain ⟨hbt, hbo⟩ := h.stored_le
  obtain ⟨h₁, hnd₁, -⟩ := h.recalcHeight
  obtain ⟨st₁, hnode, h₂⟩ := rebalanceNode_frame h₁ hnd₁ h.valid h.path_valid.1 (by omega)
    (by omega)
  obtain ⟨hv, hlow, hhigh⟩ := Path.valid_step h.path_valid h.valid h.low h.high
  have hlist := HTree.toList_rebalance (f.join t)
  have hnd₂ : (Path.plug c (f.join t).rebalance).toList.Nodup := by
    rw [Path.toList_plug, hlist, ← Path.toList_plug]
    exact hnd₁
  have hold : (st.height f.label).toNat = f.stored := by
    obtain ⟨hpath, -⟩ := holds_plug.mp h.holds
    cases f with
    | left a s r => exact hpath.2.2.2.1
    | right l a s => exact hpath.2.2.2.1
  have hlen := h.length
  rw [List.length_cons] at hlen
  -- the node that `*ref` leads to now
  cases hroot : (f.join t).rebalance with
  | nil =>
    rw [hroot] at hlist
    cases f <;> simp [Frame.join] at hlist
  | node l a s r =>
    rw [hroot] at h₂ hv hlow hhigh hnd₂
    obtain ⟨hpath, hrep⟩ := holds_plug.mp h₂
    refine ⟨st₁, l, a, s, r, rfl, hnode, hpath.get, hrep.2.2.1, ?_, h₂, hnd₂,
      h.path_valid.2.2.2.2, hv, hlow, hhigh, by omega⟩
    rw [← UInt8.toNat_inj, hold, hrep.2.2.2.1]

/-- `rebalance_path` from right above the hole. -/
theorem rebalancePath_eq (h : Unbalanced st fuel c t u) :
    ∃ st', rebalancePath fuel st (Path.parent c) = .ok st' ∧
      Holds st' (Path.rebalanceUp c t) := by
  induction c generalizing st t u fuel with
  | nil => exact ⟨st, by cases fuel <;> rfl, h.holds⟩
  | cons f c ih =>
    obtain ⟨fuel, rfl⟩ : ∃ n, fuel = n + 1 := ⟨fuel - 1, by have := h.length; simp at this; omega⟩
    obtain ⟨st₁, l, a, s, r, hroot, hnode, hget, hparent, hstop, h₁⟩ := h.iterate
    rw [Path.rebalanceUp, hroot]
    simp only [rebalancePathWith, HeightOps.plain_recalc, Path.parent, h.recalcHeight.2.2, hnode,
      ok_bind, hget, derefNode, hstop, HTree.stored_node]
    by_cases hs : f.stored = s
    · simp only [hs, if_true]
      exact ⟨st₁, rfl, h₁.holds⟩
    · simp only [hs, if_false, hparent]
      exact ih h₁

end Unbalanced

end Ivykis
