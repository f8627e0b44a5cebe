import Ivykis.Avl.Basic
import Ivykis.Kit.Avl

/-!
# The nodes of a tree in memory

`Holds st t` says that the root pointer and the nodes of `st` are the tree `t`: all child and
parent pointers and all height fields. A tree with a hole is a path, and what is below the hole
can be exchanged by writing the one reference that leads there.
-/

namespace Ivykis

open Kit.Avl

/-! ### Writing fields -/

section Fields

variable (st : AvlState) (a : AvlPtr) (p c : Option AvlPtr) (h : UInt8) (ref : AvlRef)

@[simp] lemma setLeft_root : (st.setLeft a p).root = st.root := rfl
@[simp] lemma setLeft_left : (st.setLeft a p).left = Function.update st.left a p := rfl
@[simp] lemma setLeft_right : (st.setLeft a p).right = st.right := rfl
@[simp] lemma setLeft_parent : (st.setLeft a p).parent = st.parent := rfl
@[simp] lemma setLeft_height : (st.setLeft a p).height = st.height := rfl
@[simp] lemma setRight_root : (st.setRight a p).root = st.root := rfl
@[simp] lemma setRight_left : (st.setRight a p).left = st.left := rfl
@[simp] lemma setRight_right : (st.setRight a p).right = Function.update st.right a p := rfl
@[simp] lemma setRight_parent : (st.setRight a p).parent = st.parent := rfl
@[simp] lemma setRight_height : (st.setRight a p).height = st.height := rfl
@[simp] lemma setParent_root : (st.setParent a p).root = st.root := rfl
@[simp] lemma setParent_left : (st.setParent a p).left = st.left := rfl
@[simp] lemma setParent_right : (st.setParent a p).right = st.right := rfl
@[simp] lemma setParent_parent : (st.setParent a p).parent = Function.update st.parent a p := rfl
@[simp] lemma setParent_height : (st.setParent a p).height = st.height := rfl
@[simp] lemma setHeight_root : (st.setHeight a h).root = st.root := rfl
@[simp] lemma setHeight_left : (st.setHeight a h).left = st.left := rfl
@[simp] lemma setHeight_right : (st.setHeight a h).right = st.right := rfl
@[simp] lemma setHeight_parent : (st.setHeight a h).parent = st.parent := rfl
@[simp] lemma setHeight_height : (st.setHeight a h).height = Function.update st.height a h := rfl
@[simp] lemma setParentOf_root : (st.setParentOf c p).root = st.root := rfl
@[simp] lemma setParentOf_left : (st.setParentOf c p).left = st.left := rfl
@[simp] lemma setParentOf_right : (st.setParentOf c p).right = st.right := rfl
@[simp] lemma setParentOf_height : (st.setParentOf c p).height = st.height := rfl

@[simp] lemma setParentOf_parent :
    (st.setParentOf c p).parent a = if c = some a then p else st.parent a := by
  cases c with
  | none => rfl
  | some b => simp [AvlState.setParentOf, Function.update_apply, eq_comm]

@[simp] lemma recalcHeight_root : (recalcHeight st a).root = st.root := rfl
@[simp] lemma recalcHeight_left : (recalcHeight st a).left = st.left := rfl
@[simp] lemma recalcHeight_right : (recalcHeight st a).right = st.right := rfl
@[simp] lemma recalcHeight_parent : (recalcHeight st a).parent = st.parent := rfl

lemma recalcHeight_height_of_ne {a x : AvlPtr} (hx : x ≠ a) :
    (recalcHeight st a).height x = st.height x := by
  simp [recalcHeight, hx]

@[simp] lemma set_parent : (st.set ref p).parent = st.parent := by
  cases ref <;> rfl

@[simp] lemma set_height : (st.set ref p).height = st.height := by
  cases ref <;> rfl

end Fields

/-- A node has the same fields in two states. -/
def SameNode (st st' : AvlState) (x : AvlPtr) : Prop :=
  st'.left x = st.left x ∧ st'.right x = st.right x ∧ st'.parent x = st.parent x ∧
    st'.height x = st.height x

lemma SameNode.refl (st : AvlState) (x : AvlPtr) : SameNode st st x :=
  ⟨rfl, rfl, rfl, rfl⟩

lemma SameNode.trans {st₁ st₂ st₃ : AvlState} {x : AvlPtr} (h₁₂ : SameNode st₁ st₂ x)
    (h₂₃ : SameNode st₂ st₃ x) : SameNode st₁ st₃ x := by
  obtain ⟨hl, hr, hp, hh⟩ := h₁₂
  obtain ⟨hl', hr', hp', hh'⟩ := h₂₃
  exact ⟨hl'.trans hl, hr'.trans hr, hp'.trans hp, hh'.trans hh⟩

lemma SameNode.set {st st' : AvlState} {x : AvlPtr} (h : SameNode st st' x) (ref : AvlRef)
    (p : Option AvlPtr) : SameNode (st.set ref p) (st'.set ref p) x := by
  obtain ⟨hl, hr, hp, hh⟩ := h
  cases ref with
  | root => exact ⟨hl, hr, hp, hh⟩
  | left a => exact ⟨by simp [AvlState.set, Function.update_apply, hl], hr, hp, hh⟩
  | right a => exact ⟨hl, by simp [AvlState.set, Function.update_apply, hr], hp, hh⟩

lemma sameNode_setParent (st : AvlState) {a x : AvlPtr} (hx : x ≠ a) (p : Option AvlPtr) :
    SameNode st (st.setParent a p) x := by
  simp [SameNode, hx]

/-! ### Trees -/

/-- The nodes of `st` are the tree `t`, and the parent pointer at its root is `p`. -/
def Rep (st : AvlState) (p : Option AvlPtr) : HTree AvlPtr → Prop
  | .nil          => True
  | .node l a h r => st.left a = l.root ∧ st.right a = r.root ∧ st.parent a = p ∧
      (st.height a).toNat = h ∧ Rep st (some a) l ∧ Rep st (some a) r

section Rep

variable {st st' : AvlState} {p q : Option AvlPtr} {l r t : HTree AvlPtr} {a : AvlPtr}

lemma Rep.avlHeight (h : Rep st p t) : avlHeight st t.root = t.stored := by
  cases t with
  | nil => rfl
  | node l a s r => exact h.2.2.2.1

lemma Rep.congr (h : Rep st p t) (hsame : ∀ x ∈ t.toList, SameNode st st' x) : Rep st' p t := by
  induction t generalizing p with
  | nil => trivial
  | node l a s r ihl ihr =>
    obtain ⟨hl, hr, hp, hs, hrl, hrr⟩ := h
    obtain ⟨hl', hr', hp', hs'⟩ := hsame a (by simp)
    refine ⟨hl'.trans hl, hr'.trans hr, hp'.trans hp, by rw [hs', hs], ihl hrl fun x hx => ?_,
      ihr hrr fun x hx => ?_⟩
    · exact hsame x (by simp [hx])
    · exact hsame x (by simp [hx])

/-- A subtree that changes its parent changes nothing else. -/
lemma Rep.reparent (h : Rep st p t) (hnd : t.toList.Nodup)
    (hsame : ∀ x ∈ t.toList, st'.left x = st.left x ∧ st'.right x = st.right x ∧
      st'.height x = st.height x)
    (hpar : ∀ x ∈ t.toList, st'.parent x = if t.root = some x then q else st.parent x) :
    Rep st' q t := by
  cases t with
  | nil => trivial
  | node l a s r =>
    obtain ⟨hl, hr, hp, hs, hrl, hrr⟩ := h
    obtain ⟨hl', hr', hs'⟩ := hsame a (by simp)
    rw [HTree.toList_node, List.nodup_middle, List.nodup_cons, List.mem_append, not_or] at hnd
    have hsub : ∀ x ∈ l.toList ++ r.toList, SameNode st st' x := by
      intro x hx
      have hx' : x ∈ (HTree.node l a s r).toList := by
        simp only [HTree.toList_node, List.mem_append, List.mem_cons] at hx ⊢
        tauto
      have hxa : a ≠ x := by
        rintro rfl
        exact (List.mem_append.mp hx).elim hnd.1.1 hnd.1.2
      obtain ⟨h₁, h₂, h₃⟩ := hsame x hx'
      refine ⟨h₁, h₂, ?_, h₃⟩
      rw [hpar x hx', HTree.root_node, if_neg fun he => hxa (Option.some.inj he)]
    refine ⟨hl'.trans hl, hr'.trans hr, ?_, by rw [hs', hs], hrl.congr fun x hx => ?_,
      hrr.congr fun x hx => ?_⟩
    · rw [hpar a (by simp), HTree.root_node, if_pos rfl]
    · exact hsub x (List.mem_append_left _ hx)
    · exact hsub x (List.mem_append_right _ hx)

/-- `recalc_height` makes a node store what its children give, if that fits the field. -/
lemma Rep.recalcHeight (hl : st.left a = l.root) (hr : st.right a = r.root)
    (hp : st.parent a = p) (hrl : Rep st (some a) l) (hrr : Rep st (some a) r)
    (hal : a ∉ l.toList) (har : a ∉ r.toList) (hbl : l.stored < 255) (hbr : r.stored < 255) :
    Rep (recalcHeight st a) p (.join l a r) := by
  have hkeep : ∀ x, x ≠ a → SameNode st (Ivykis.recalcHeight st a) x := fun x hx =>
    ⟨rfl, rfl, rfl, recalcHeight_height_of_ne st hx⟩
  refine ⟨hl, hr, hp, ?_, hrl.congr fun x hx => hkeep x ?_, hrr.congr fun x hx => hkeep x ?_⟩
  · rw [Ivykis.recalcHeight, setHeight_height, Function.update_self, hl, hr, hrl.avlHeight,
      hrr.avlHeight, UInt8.toNat_ofNat']
    split_ifs <;> omega
  · exact ne_of_mem_of_not_mem hx hal
  · exact ne_of_mem_of_not_mem hx har

end Rep

/-! ### Paths -/

/-- The nodes of `st` above a hole are the path `c`, and the reference to the hole is `hole`. -/
def PathRep (st : AvlState) : Path AvlPtr → Option AvlPtr → Prop
  | [], hole                => st.root = hole
  | .left a h r :: c, hole  => st.left a = hole ∧ st.right a = r.root ∧
      st.parent a = Path.parent c ∧ (st.height a).toNat = h ∧ Rep st (some a) r ∧
      PathRep st c (some a)
  | .right l a h :: c, hole => st.left a = l.root ∧ st.right a = hole ∧
      st.parent a = Path.parent c ∧ (st.height a).toNat = h ∧ Rep st (some a) l ∧
      PathRep st c (some a)

/-- The reference that leads to the hole. -/
def pathRef : Path AvlPtr → AvlRef
  | []               => .root
  | .left a _ _ :: _  => .left a
  | .right _ a _ :: _ => .right a

/-- The tree of `st` is `t`. -/
def Holds (st : AvlState) (t : HTree AvlPtr) : Prop :=
  st.root = t.root ∧ Rep st none t

/-- The nodes with left and right exchanged. -/
def AvlState.mirror (st : AvlState) : AvlState :=
  { st with left := st.right, right := st.left }

lemma Rep.mirror {st : AvlState} {p : Option AvlPtr} {t : HTree AvlPtr} (h : Rep st p t) :
    Rep st.mirror p t.mirror := by
  induction t generalizing p with
  | nil => trivial
  | node l a s r ihl ihr =>
    obtain ⟨hl, hr, hp, hs, hrl, hrr⟩ := h
    exact ⟨hr.trans r.root_mirror.symm, hl.trans l.root_mirror.symm, hp, hs, ihr hrr, ihl hrl⟩

lemma Holds.mirror {st : AvlState} {t : HTree AvlPtr} (h : Holds st t) :
    Holds st.mirror t.mirror :=
  ⟨h.1.trans t.root_mirror.symm, h.2.mirror⟩

section Path

variable {st st' : AvlState} {hole : Option AvlPtr} {c : Path AvlPtr} {t : HTree AvlPtr}
  {a : AvlPtr}

/-- The tree in memory falls apart at every node into a path and a subtree. -/
lemma holds_plug : Holds st (Path.plug c t) ↔ PathRep st c t.root ∧ Rep st (Path.parent c) t := by
  induction c generalizing t with
  | nil => rfl
  | cons f c ih =>
    rw [Path.plug, ih]
    cases f with
    | left a h r =>
      simp only [Frame.fill, PathRep, Rep, HTree.root_node, Path.parent, Frame.label]
      tauto
    | right l a h =>
      simp only [Frame.fill, PathRep, Rep, HTree.root_node, Path.parent, Frame.label]
      tauto

lemma PathRep.get (h : PathRep st c hole) : st.get (pathRef c) = hole := by
  match c, h with
  | [], h => exact h
  | .left a s r :: c, h => exact h.1
  | .right l a s :: c, h => exact h.2.1

lemma PathRep.congr (h : PathRep st c hole) (hsame : ∀ x ∈ Path.elems c, SameNode st st' x)
    (hroot : st'.root = st.root) : PathRep st' c hole := by
  induction c generalizing hole with
  | nil => exact hroot.trans h
  | cons f c ih =>
    have hlabel := hsame f.label (by simp [Path.elems])
    have hother : ∀ x ∈ f.other.toList, SameNode st st' x := fun x hx =>
      hsame x (by simp [Path.elems, hx])
    have hrest : ∀ x ∈ Path.elems c, SameNode st st' x := fun x hx =>
      hsame x (by simp [Path.elems, hx])
    cases f with
    | left a s r =>
      obtain ⟨hl, hr, hp, hs, hrep, hc⟩ := h
      obtain ⟨hl', hr', hp', hs'⟩ := hlabel
      exact ⟨hl'.trans hl, hr'.trans hr, hp'.trans hp, (congrArg UInt8.toNat hs').trans hs,
        hrep.congr hother, ih hc hrest⟩
    | right l a s =>
      obtain ⟨hl, hr, hp, hs, hrep, hc⟩ := h
      obtain ⟨hl', hr', hp', hs'⟩ := hlabel
      exact ⟨hl'.trans hl, hr'.trans hr, hp'.trans hp, (congrArg UInt8.toNat hs').trans hs,
        hrep.congr hother, ih hc hrest⟩

/-- Only the innermost node of a path changes when the reference to the hole is written. -/
lemma sameNode_set {x : AvlPtr} (hx : Path.parent c ≠ some x) (p : Option AvlPtr) :
    SameNode st (st.set (pathRef c) p) x := by
  match c, hx with
  | [], _ => exact SameNode.refl st x
  | .left a s r :: c, hx =>
    have hxa : x ≠ a := fun he => hx (he ▸ rfl)
    exact ⟨Function.update_of_ne hxa _ _, rfl, rfl, rfl⟩
  | .right l a s :: c, hx =>
    have hxa : x ≠ a := fun he => hx (he ▸ rfl)
    exact ⟨rfl, Function.update_of_ne hxa _ _, rfl, rfl⟩

lemma parent_mem (h : Path.parent c = some a) : a ∈ Path.elems c := by
  cases c with
  | nil => cases h
  | cons f c =>
    obtain rfl : f.label = a := Option.some.inj h
    simp [Path.elems]

lemma PathRep.set (h : PathRep st c hole) (hnd : (Path.elems c).Nodup) (p : Option AvlPtr) :
    PathRep (st.set (pathRef c) p) c p := by
  cases c with
  | nil => rfl
  | cons f c =>
    rw [Path.elems, List.nodup_cons, List.mem_append, not_or] at hnd
    have hsame : ∀ x, x ≠ f.label → SameNode st (st.set (pathRef (f :: c)) p) x := fun x hx =>
      sameNode_set (c := f :: c) (fun he => hx (Option.some.inj he).symm) p
    have hother : ∀ x ∈ f.other.toList, SameNode st (st.set (pathRef (f :: c)) p) x :=
      fun x hx => hsame x (ne_of_mem_of_not_mem hx hnd.1.1)
    have hrest : ∀ x ∈ Path.elems c, SameNode st (st.set (pathRef (f :: c)) p) x :=
      fun x hx => hsame x (ne_of_mem_of_not_mem hx hnd.1.2)
    cases f with
    | left a s r =>
      obtain ⟨hl, hr, hp, hs, hrep, hc⟩ := h
      exact ⟨Function.update_self _ _ _, hr, hp, hs, hrep.congr hother, hc.congr hrest rfl⟩
    | right l a s =>
      obtain ⟨hl, hr, hp, hs, hrep, hc⟩ := h
      exact ⟨hl, Function.update_self _ _ _, hp, hs, hrep.congr hother, hc.congr hrest rfl⟩

/-- Exchange what is below a hole: `st'` is `st` with the reference to the hole written, as far
as the nodes of the path are concerned, and has the new tree below it. -/
lemma PathRep.replace (h : PathRep st c hole) (hnd : (Path.elems c).Nodup)
    (hsame : ∀ x ∈ Path.elems c, SameNode (st.set (pathRef c) t.root) st' x)
    (hroot : st'.root = (st.set (pathRef c) t.root).root) (hrep : Rep st' (Path.parent c) t) :
    Holds st' (Path.plug c t) :=
  holds_plug.mpr ⟨(h.set hnd t.root).congr hsame hroot, hrep⟩

/-- `find_reference` finds the reference to a node. -/
lemma PathRep.findReference (h : PathRep st c (some a)) (hp : st.parent a = Path.parent c)
    (ha : a ∉ Path.elems c) : findReference st a = pathRef c := by
  match c, h with
  | [], _ => simp [Ivykis.findReference, hp, Path.parent, pathRef]
  | .left b s r :: c, h => simp [Ivykis.findReference, hp, Path.parent, pathRef, Frame.label, h.1]
  | .right l b s :: c, h =>
    have hl : st.left b ≠ some a := by
      rw [h.1]
      intro hroot
      exact ha (by simp [Path.elems, Frame.other, HTree.root_mem hroot])
    simp [Ivykis.findReference, hp, Path.parent, pathRef, Frame.label, hl]

end Path

end Ivykis
