import Ivykis.Avl.Rotations

/-!
# Inserting and deleting

`iv_avl_tree_insert` puts a node in the place that the comparisons lead to, and
`iv_avl_tree_delete` takes a node out of the sequence, both without a fault and in such a way that
memory holds a valid tree again.
-/

namespace Ivykis

open Kit.Avl

variable {st : AvlState} {c : Path AvlPtr} {l r t : HTree AvlPtr} {an a v : AvlPtr} {s fuel : ℕ}
  {compare : AvlPtr → AvlPtr → ℤ}

/-! ### Insertion -/

/-- The walk of `iv_avl_tree_insert` is the search in the tree. -/
lemma insertPlace_eq (compare : AvlPtr → AvlPtr → ℤ) (an : AvlPtr)
    (h : Holds st (Path.plug c t)) (hfuel : t.height < fuel) :
    insertPlace compare st an fuel (Path.parent c) (pathRef c)
      = .ok ((Path.locate (compare an) t c).map fun c => (Path.parent c, pathRef c)) := by
  induction t generalizing c fuel with
  | nil =>
    obtain ⟨fuel, rfl⟩ : ∃ n, fuel = n + 1 := ⟨fuel - 1, by omega⟩
    have hget : st.get (pathRef c) = none := (holds_plug.mp h).1.get
    simp [insertPlace, hget, Path.locate]
  | node l b s r ihl ihr =>
    obtain ⟨fuel, rfl⟩ : ∃ n, fuel = n + 1 := ⟨fuel - 1, by omega⟩
    have hget : st.get (pathRef c) = some b := (holds_plug.mp h).1.get
    simp only [HTree.height] at hfuel
    rw [insertPlace, hget, Path.locate]
    dsimp only
    split_ifs
    · exact ihl (c := .left b s r :: c) h (by omega)
    · exact ihr (c := .right l b s :: c) h (by omega)
    · rfl

/-- The tree with a new leaf, before it is rebalanced. -/
def linkLeaf (st : AvlState) (c : Path AvlPtr) (an : AvlPtr) : AvlState :=
  ((((st.setLeft an none).setRight an none).setParent an (Path.parent c)).setHeight an 1).set
    (pathRef c) (some an)

lemma holds_linkLeaf (h : Holds st (Path.plug c .nil)) (hnd : (Path.elems c).Nodup)
    (han : an ∉ Path.elems c) :
    Holds (linkLeaf st c an) (Path.plug c (.node .nil an 1 .nil)) := by
  refine (holds_plug.mp h).1.holds_set (L := [an]) (w := .node .nil an 1 .nil) hnd
    ⟨rfl, fun x hx => ?_⟩ ?_ ?_ ?_
  · have hxa : x ≠ an := by simpa using hx
    simp [SameNode, hxa]
  · simpa using han
  · simp [Rep]
  · simp

/-- What `iv_avl_tree_insert` leaves for `rebalance_path`. -/
lemma linkLeaf_unbalanced (h : Holds st (Path.plug c .nil)) (hv : (Path.plug c .nil).Valid)
    (hnd : (Path.plug c .nil).toList.Nodup) (han : an ∉ (Path.plug c .nil).toList)
    (hfuel : (Path.plug c .nil).stored < fuel) :
    Unbalanced (linkLeaf st c an) fuel c (.node .nil an 1 .nil) 0 := by
  obtain ⟨-, hndc, -⟩ := Path.nodup_plug.mp hnd
  have hanc : an ∉ Path.elems c := fun hmem =>
    han ((Path.perm_plug c .nil).mem_iff.mpr (by simpa using hmem))
  have hlen := Path.length_le_height c .nil
  rw [← hv.stored_eq] at hlen
  refine ⟨holds_linkLeaf h hndc hanc, ?_, (Path.valid_plug.mp hv).1, by simp [HTree.Valid],
    by simp, by simp, by omega⟩
  exact Path.nodup_plug.mpr ⟨by simp, hndc, by simpa using hanc⟩

/-- `iv_avl_tree_insert` of a node that is not in the tree. -/
theorem insert_eq (h : Holds st t) (hv : t.Valid) (hnd : t.toList.Nodup) (han : an ∉ t.toList)
    (hcut : Path.Cuts (compare an) t.toList) (hfuel : t.stored < fuel) :
    ((∃ b ∈ t.toList, compare an b = 0) ∧ ivAvlTreeInsert compare fuel st an = .ok (-1, st)) ∨
      ((¬ ∃ b ∈ t.toList, compare an b = 0) ∧
        ∃ st' t' X Y, ivAvlTreeInsert compare fuel st an = .ok (0, st') ∧ Holds st' t' ∧
          t'.Valid ∧ t.toList = X ++ Y ∧ t'.toList = X ++ an :: Y ∧
          (∀ x ∈ X, 0 < compare an x) ∧ ∀ y ∈ Y, compare an y < 0) := by
  have hplace := insertPlace_eq compare an (c := []) h
    (hv.stored_eq ▸ hfuel)
  have hnone := Path.locate_eq_none_iff (c := []) hcut
  rw [Path.parent, pathRef] at hplace
  cases hloc : Path.locate (compare an) t [] with
  | none =>
    refine Or.inl ⟨hnone.mp hloc, ?_⟩
    rw [ivAvlTreeInsert, ivAvlTreeInsertWith, hplace, hloc]
    rfl
  | some c =>
    refine Or.inr ⟨fun he => by simp [hnone.mpr he] at hloc, ?_⟩
    have hplug : Path.plug c .nil = t := Path.plug_locate hloc
    obtain ⟨hbefore, hafter⟩ := Path.locate_sides hloc hcut (by simp [Path.before])
      (by simp [Path.after])
    have hlist : t.toList = Path.before c ++ Path.after c := by
      rw [← hplug, Path.toList_plug]
      simp
    rw [← hplug] at h hv hnd han hfuel
    have hunb := linkLeaf_unbalanced h hv hnd han hfuel
    obtain ⟨st', hpath, hst'⟩ := hunb.rebalancePath_eq
    refine ⟨st', _, Path.before c, Path.after c, ?_, hst', ?_, hlist, ?_, hbefore, hafter⟩
    · rw [ivAvlTreeInsert, ivAvlTreeInsertWith, hplace, hloc]
      simp only [linkLeaf] at hpath
      simp only [Option.map_some, ok_bind, hpath]
    · exact Path.valid_rebalanceUp hunb.path_valid hunb.valid hunb.low hunb.high
    · rw [Path.toList_rebalanceUp, Path.toList_plug]
      simp

/-! ### Deletion -/

/-- `iv_avl_tree_delete_leaf`. -/
lemma deleteLeaf_eq (h : Holds st (Path.plug c (.node .nil an s .nil)))
    (hnd : (Path.plug c (.node .nil an s .nil)).toList.Nodup) :
    ∃ st', ivAvlTreeDeleteLeaf st an = (Path.parent c, st') ∧ Holds st' (Path.plug c .nil) := by
  obtain ⟨hpath, hrep⟩ := holds_plug.mp h
  obtain ⟨-, hndc, hdisj⟩ := Path.nodup_plug.mp hnd
  have href := hpath.findReference hrep.2.2.1 (hdisj an (by simp))
  refine ⟨st.set (pathRef c) none, ?_, ?_⟩
  · simp only [ivAvlTreeDeleteLeaf, replaceReference, href, set_parent, hrep.2.2.1]
  · exact hpath.holds_set (L := []) (w := .nil) hndc ⟨rfl, fun x _ => SameNode.refl st x⟩
      (by simp) trivial (by simp)

/-- The way to the last node of a subtree. -/
lemma walkDown_right {p : Option AvlPtr} (h : Rep st p (.node l a s r)) (hfuel : r.height < fuel) :
    ∃ c w v u, HTree.node l a s r = Path.plug c (.node w v u .nil) ∧ Path.after c = [] ∧
      walkDown st.right fuel a = .ok v := by
  induction r generalizing l a s p fuel with
  | nil =>
    obtain ⟨fuel, rfl⟩ : ∃ n, fuel = n + 1 := ⟨fuel - 1, by omega⟩
    refine ⟨[], l, a, s, rfl, rfl, ?_⟩
    simp [walkDown, h.2.1]
  | node l' b s' r' _ ih =>
    obtain ⟨fuel, rfl⟩ : ∃ n, fuel = n + 1 := ⟨fuel - 1, by omega⟩
    simp only [HTree.height] at hfuel
    obtain ⟨c, w, v, u, hplug, hside, hwalk⟩ := ih h.2.2.2.2.2
      (show r'.height < fuel by omega)
    refine ⟨c ++ [.right l a s], w, v, u, ?_, ?_, ?_⟩
    · rw [Path.plug_append, ← hplug]
      rfl
    · rw [Path.after_append, hside]
      rfl
    · rw [walkDown, h.2.1]
      exact hwalk

/-- The way to the first node of a subtree. -/
lemma walkDown_left {p : Option AvlPtr} (h : Rep st p (.node l a s r)) (hfuel : l.height < fuel) :
    ∃ c w v u, HTree.node l a s r = Path.plug c (.node .nil v u w) ∧ Path.before c = [] ∧
      walkDown st.left fuel a = .ok v := by
  induction l generalizing r a s p fuel with
  | nil =>
    obtain ⟨fuel, rfl⟩ : ∃ n, fuel = n + 1 := ⟨fuel - 1, by omega⟩
    refine ⟨[], r, a, s, rfl, rfl, ?_⟩
    simp [walkDown, h.1]
  | node l' b s' r' ih _ =>
    obtain ⟨fuel, rfl⟩ : ∃ n, fuel = n + 1 := ⟨fuel - 1, by omega⟩
    simp only [HTree.height] at hfuel
    obtain ⟨c, w, v, u, hplug, hside, hwalk⟩ := ih h.2.2.2.2.1
      (show l'.height < fuel by omega)
    refine ⟨c ++ [.left a s r], w, v, u, ?_, ?_, ?_⟩
    · rw [Path.plug_append, ← hplug]
      rfl
    · rw [Path.before_append, hside]
      rfl
    · rw [walkDown, h.1]
      exact hwalk

/-- A node is replaced by its only child `w`. -/
lemma spliceOut {hole : Option AvlPtr} {w : HTree AvlPtr} (hpath : PathRep st c hole)
    (hndc : (Path.elems c).Nodup) (hrep : Rep st (some v) w) (hndw : w.toList.Nodup)
    (hdisj : ∀ x ∈ w.toList, x ∉ Path.elems c) :
    Holds ((st.set (pathRef c) w.root).setParentOf w.root (Path.parent c)) (Path.plug c w) := by
  refine hpath.replace hndc (fun x hx => ?_) (by simp) ?_
  · have hxw : w.root ≠ some x := fun he => hdisj x (HTree.root_mem he) hx
    simp [SameNode, hxw]
  · have hkeep : ∀ x ∈ w.toList, SameNode st (st.set (pathRef c) w.root) x := fun x hx =>
      sameNode_set (fun hp => hdisj x hx (parent_mem hp)) _
    refine hrep.reparent hndw (fun x hx => ?_) (fun x hx => ?_)
    · obtain ⟨hl, hr, -, hh⟩ := hkeep x hx
      exact ⟨hl, hr, hh⟩
    · simp

/-- The second half of `iv_avl_tree_delete_nonleaf`: `v` takes the place of `an`. -/
lemma replaceByVictim_eq (h : Holds st (Path.plug c (.node l an s r)))
    (hnd : (Path.plug c (.node l v s r)).toList.Nodup) (han : an ∉ Path.elems c) :
    Holds (replaceByVictim st an v) (Path.plug c (.node l v s r)) := by
  obtain ⟨hpath, hl, hr, hp, hs, hrl, hrr⟩ := holds_plug.mp h
  obtain ⟨hndt, hndc, hdisj⟩ := Path.nodup_plug.mp hnd
  obtain ⟨hndl, hndr, hvl, hvr, hlr⟩ := HTree.nodup_node.mp hndt
  have hdisjl : ∀ x ∈ l.toList, x ∉ Path.elems c := fun x hx => hdisj x (by simp [hx])
  have hdisjr : ∀ x ∈ r.toList, x ∉ Path.elems c := fun x hx => hdisj x (by simp [hx])
  have hv : v ∉ Path.elems c := hdisj v (by simp)
  have hkeep : ∀ x, x ∉ Path.elems c → SameNode st (st.set (pathRef c) (some v)) x := fun x hx =>
    sameNode_set (fun hp => hx (parent_mem hp)) _
  obtain ⟨hl', hr', hp', hs'⟩ := hkeep an han
  have href := hpath.findReference hp han
  have heq : replaceByVictim st an v =
      ((((((st.set (pathRef c) (some v)).setLeft v l.root).setRight v r.root).setParent v
        (Path.parent c)).setHeight v (st.height an)).setParentOf l.root (some v)).setParentOf r.root
        (some v) := by
    simp [replaceByVictim, replaceReference, href, hl', hr', hl, hr, hp]
  rw [heq]
  have hlx : ∀ x, x ∉ l.toList → l.root ≠ some x := fun x hx he => hx (HTree.root_mem he)
  have hrx : ∀ x, x ∉ r.toList → r.root ≠ some x := fun x hx he => hx (HTree.root_mem he)
  refine hpath.replace hndc (fun x hx => ?_) (by simp) ⟨?_, ?_, ?_, ?_, ?_, ?_⟩
  · have hxv : x ≠ v := ne_of_mem_of_not_mem hx hv
    have hxl := hlx x fun he => hdisjl x he hx
    have hxr := hrx x fun he => hdisjr x he hx
    simp [SameNode, hxv, hxl, hxr]
  · simp
  · simp
  · simp [hlx v hvl, hrx v hvr]
  · simpa using hs
  · refine hrl.reparent hndl (fun x hx => ?_) (fun x hx => ?_)
    · obtain ⟨h₁, h₂, -, h₃⟩ := hkeep x (hdisjl x hx)
      simpa [ne_of_mem_of_not_mem hx hvl] using ⟨h₁, h₂⟩
    · simp [ne_of_mem_of_not_mem hx hvl, hrx x (hlr x hx)]
  · refine hrr.reparent hndr (fun x hx => ?_) (fun x hx => ?_)
    · obtain ⟨h₁, h₂, -, h₃⟩ := hkeep x (hdisjr x hx)
      simpa [ne_of_mem_of_not_mem hx hvr] using ⟨h₁, h₂⟩
    · simp [ne_of_mem_of_not_mem hx hvr, hlx x fun he => hlr x he hx]

/-- The victim `v`, which is the root of the subtree `t` and has the one child `w`, leaves its place
and takes that of the node of the frame `f` above. -/
lemma victim_eq {f : Frame AvlPtr} {d : Path AvlPtr} {w : HTree AvlPtr}
    (h : Holds st (Path.plug (c ++ f :: d) t)) (hnd : (Path.plug (c ++ f :: d) t).toList.Nodup)
    (hrep : Rep st (some v) w) (hp : st.parent v = Path.parent (c ++ f :: d))
    (hperm : t.toList.Perm (v :: w.toList)) {st₁ : AvlState}
    (hst₁ : st₁ = (st.set (pathRef (c ++ f :: d)) w.root).setParentOf w.root (st.parent v)) :
    (if st₁.parent v = some f.label then some v else st₁.parent v)
        = Path.parent (c ++ f.relabel v :: d) ∧
      Holds (replaceByVictim st₁ f.label v) (Path.plug (c ++ f.relabel v :: d) w) ∧
      (Path.plug (c ++ f.relabel v :: d) w).toList.Nodup := by
  obtain ⟨hndt, hndc, hdisj⟩ := Path.nodup_plug.mp hnd
  obtain ⟨hnd', hlabel⟩ := Path.nodup_relabel hperm hnd
  have hndv := hperm.nodup_iff.mp hndt
  rw [List.nodup_cons] at hndv
  have hwv : w.root ≠ some v := fun he => hndv.1 (HTree.root_mem he)
  have hsub : ∀ x ∈ w.toList, x ∉ Path.elems (c ++ f :: d) := fun x hx =>
    hdisj x (hperm.mem_iff.mpr (by simp [hx]))
  have hpar : st₁.parent v = Path.parent (c ++ f :: d) := by
    rw [hst₁, setParentOf_parent, if_neg hwv, set_parent, hp]
  have hholds : Holds st₁ (Path.plug (c ++ f :: d) w) := by
    rw [hst₁, hp]
    exact spliceOut (holds_plug.mp h).1 hndc hrep hndv.2 hsub
  refine ⟨?_, ?_, hnd'⟩
  · -- the parent of the victim is the node that goes, or one that stays
    rw [hpar]
    cases c with
    | nil =>
      have : (f.relabel v).label = v := by cases f <;> rfl
      simp [Path.parent, this]
    | cons g c =>
      have hgf : g.label ≠ f.label := fun he => hlabel (by simp [Path.elems, ← he])
      simp [Path.parent, hgf]
  · rw [Path.elems_append, List.mem_append, not_or] at hlabel
    have hd : f.label ∉ Path.elems d := fun he => hlabel.2 (by simp [Path.elems, he])
    rw [Path.plug_append] at hholds hnd' ⊢
    cases f with
    | left a s r => exact replaceByVictim_eq hholds hnd' hd
    | right l a s => exact replaceByVictim_eq hholds hnd' hd

/-- What `iv_avl_tree_delete_nonleaf` leaves for `rebalance_path`: in the hole of the path `c`, to
whose innermost node it returns a pointer, the tree `w` is one level lower than what was there. -/
structure Deleted (st : AvlState) (L : List AvlPtr) (fuel : ℕ) (c : Path AvlPtr)
    (w : HTree AvlPtr) : Prop where
  holds      : Holds st (Path.plug c w)
  nodup      : (Path.plug c w).toList.Nodup
  path_valid : Path.Valid c (w.stored + 1)
  valid      : w.Valid
  length     : c.length ≤ fuel
  toList     : (Path.plug c w).toList = L

/-- The victim comes from the left subtree. -/
lemma deleteNonleaf_left (h : Holds st (Path.plug c (.node l an s r)))
    (hv : (Path.plug c (.node l an s r)).Valid)
    (hnd : (Path.plug c (.node l an s r)).toList.Nodup) (hgt : r.stored < l.stored)
    (hfuel : (Path.plug c (.node l an s r)).height < fuel) :
    ∃ st' c' w, ivAvlTreeDeleteNonleaf fuel st an = .ok (Path.parent c', st') ∧
      Deleted st' (Path.before c ++ (l.toList ++ r.toList) ++ Path.after c) fuel c' w := by
  obtain ⟨-, hl, hr, -, -, hrl, hrr⟩ := holds_plug.mp h
  have hheight := Path.length_le_height c (.node l an s r)
  simp only [ivAvlTreeDeleteNonleaf, unlinkVictim, hl, hr, hrl.avlHeight, hrr.avlHeight]
  rw [if_pos hgt]
  cases l with
  | nil => simp at hgt
  | node l a u m =>
    simp only [HTree.height] at hheight
    obtain ⟨d, w, v, u', hplug, hside, hwalk⟩ :=
      walkDown_right hrl (show m.height < fuel by omega)
    simp only [HTree.root_node, derefNode, ok_bind, hwalk]
    have hsplit : Path.plug c (.node (Path.plug d (.node w v u' .nil)) an s r)
        = Path.plug (d ++ .left an s r :: c) (.node w v u' .nil) := by
      rw [Path.plug_append]
      rfl
    rw [hplug, hsplit] at h hv hnd hfuel
    obtain ⟨hpath, hvl, -, hvp, -, hrw, -⟩ := holds_plug.mp h
    obtain ⟨-, -, hdisj⟩ := Path.nodup_plug.mp hnd
    have href := hpath.findReference hvp (hdisj v (by simp))
    have hvl' : (st.set (pathRef (d ++ .left an s r :: c)) w.root).left v = w.root :=
      (sameNode_set (fun hp => hdisj v (by simp) (parent_mem hp)) _).1.trans hvl
    obtain ⟨hc, hw, -, hu', -, -⟩ := Path.valid_plug.mp hv
    obtain ⟨hparent, hholds, hnd'⟩ := victim_eq h hnd hrw hvp (by simp) rfl
    have hlen := Path.length_le_height (d ++ .left an s r :: c) (.node w v u' .nil)
    refine ⟨_, d ++ .left v s r :: c, w, ?_, hholds, hnd', ?_, hw, ?_, ?_⟩
    · simp only [replaceReference, href, hvl, hvl', set_parent]
      exact congrArg (fun p => Except.ok (p, _)) hparent
    · refine Path.valid_relabel (f := .left an s r).mpr ?_
      rwa [HTree.stored_node, hu', HTree.stored_nil, max_eq_left (Nat.zero_le _),
        Nat.add_comm 1] at hc
    · simp only [List.length_append, List.length_cons] at hlen ⊢
      omega
    · simp [hplug, Path.plug_append, Path.toList_plug, Path.plug, Frame.fill, hside]

/-- The victim comes from the right subtree. -/
lemma deleteNonleaf_right (h : Holds st (Path.plug c (.node l an s r)))
    (hv : (Path.plug c (.node l an s r)).Valid)
    (hnd : (Path.plug c (.node l an s r)).toList.Nodup) (hle : l.stored ≤ r.stored)
    (hr : r ≠ .nil) (hfuel : (Path.plug c (.node l an s r)).height < fuel) :
    ∃ st' c' w, ivAvlTreeDeleteNonleaf fuel st an = .ok (Path.parent c', st') ∧
      Deleted st' (Path.before c ++ (l.toList ++ r.toList) ++ Path.after c) fuel c' w := by
  obtain ⟨-, hl, hr', -, -, hrl, hrr⟩ := holds_plug.mp h
  have hheight := Path.length_le_height c (.node l an s r)
  simp only [ivAvlTreeDeleteNonleaf, unlinkVictim, hl, hr', hrl.avlHeight, hrr.avlHeight]
  rw [if_neg (not_lt.mpr hle)]
  cases r with
  | nil => exact absurd rfl hr
  | node m a u r =>
    simp only [HTree.height] at hheight
    obtain ⟨d, w, v, u', hplug, hside, hwalk⟩ := walkDown_left hrr (show m.height < fuel by omega)
    simp only [HTree.root_node, derefNode, ok_bind, hwalk]
    have hsplit : Path.plug c (.node l an s (Path.plug d (.node .nil v u' w)))
        = Path.plug (d ++ .right l an s :: c) (.node .nil v u' w) := by
      rw [Path.plug_append]
      rfl
    rw [hplug, hsplit] at h hv hnd hfuel
    obtain ⟨hpath, -, hvr, hvp, -, -, hrw⟩ := holds_plug.mp h
    obtain ⟨-, -, hdisj⟩ := Path.nodup_plug.mp hnd
    have href := hpath.findReference hvp (hdisj v (by simp))
    have hvr' : (st.set (pathRef (d ++ .right l an s :: c)) w.root).right v = w.root :=
      (sameNode_set (fun hp => hdisj v (by simp) (parent_mem hp)) _).2.1.trans hvr
    obtain ⟨hc, -, hw, hu', -, -⟩ := Path.valid_plug.mp hv
    obtain ⟨hparent, hholds, hnd'⟩ := victim_eq h hnd hrw hvp (by simp) rfl
    have hlen := Path.length_le_height (d ++ .right l an s :: c) (.node .nil v u' w)
    refine ⟨_, d ++ .right l v s :: c, w, ?_, hholds, hnd', ?_, hw, ?_, ?_⟩
    · simp only [replaceReference, href, hvr, hvr', set_parent]
      exact congrArg (fun p => Except.ok (p, _)) hparent
    · refine Path.valid_relabel (f := .right l an s).mpr ?_
      rwa [HTree.stored_node, hu', HTree.stored_nil, max_eq_right (Nat.zero_le _),
        Nat.add_comm 1] at hc
    · simp only [List.length_append, List.length_cons] at hlen ⊢
      omega
    · simp [hplug, Path.plug_append, Path.toList_plug, Path.plug, Frame.fill, hside]

lemma Deleted.unbalanced {L : List AvlPtr} {w : HTree AvlPtr} (h : Deleted st L fuel c w) :
    Unbalanced st fuel c w (w.stored + 1) :=
  ⟨h.holds, h.nodup, h.path_valid, h.valid, le_rfl, by omega, h.length⟩

/-- `iv_avl_tree_delete`, up to the call of `rebalance_path`. -/
lemma deleteUnlink_eq (h : Holds st (Path.plug c (.node l an s r)))
    (hv : (Path.plug c (.node l an s r)).Valid)
    (hnd : (Path.plug c (.node l an s r)).toList.Nodup)
    (hfuel : (Path.plug c (.node l an s r)).height < fuel) :
    ∃ st₁ c' w, (if st.left an = none ∧ st.right an = none
        then .ok (ivAvlTreeDeleteLeaf st an) else ivAvlTreeDeleteNonleaf fuel st an)
        = (.ok (Path.parent c', st₁) : Except Fault _) ∧
      Deleted st₁ (Path.before c ++ (l.toList ++ r.toList) ++ Path.after c) fuel c' w := by
  obtain ⟨-, hl, hr, hp, -, hrl, hrr⟩ := holds_plug.mp h
  have hroot : ∀ t : HTree AvlPtr, t.root = none ↔ t = .nil := fun t => by cases t <;> simp
  split_ifs with hleaf
  all_goals rw [hl, hr, hroot, hroot] at hleaf
  · obtain ⟨rfl, rfl⟩ := hleaf
    obtain ⟨st₁, heq, hholds⟩ := deleteLeaf_eq h hnd
    obtain ⟨-, hndc, -⟩ := Path.nodup_plug.mp hnd
    obtain ⟨hc, -, -, hs, -, -⟩ := Path.valid_plug.mp hv
    have hlen := Path.length_le_height c (.node .nil an s .nil)
    refine ⟨st₁, c, .nil, by rw [heq], hholds, ?_, ?_, trivial, by omega, ?_⟩
    · exact Path.nodup_plug.mpr ⟨by simp, hndc, by simp⟩
    · rwa [HTree.stored_node, hs] at hc
    · simp [Path.toList_plug]
  · by_cases hgt : r.stored < l.stored
    · exact deleteNonleaf_left h hv hnd hgt hfuel
    · have hr' : r ≠ .nil := by
        rintro rfl
        have hl0 := (Path.valid_plug.mp hv).2.1.eq_nil (by simpa using hgt)
        exact hleaf ⟨hl0, rfl⟩
      exact deleteNonleaf_right h hv hnd (not_lt.mp hgt) hr' hfuel

/-- `iv_avl_tree_delete` of a node that is in the tree. -/
theorem delete_eq (h : Holds st t) (hv : t.Valid) (hnd : t.toList.Nodup) (han : an ∈ t.toList)
    (hfuel : t.stored < fuel) :
    ∃ st' t' X Y, ivAvlTreeDelete fuel st an = .ok st' ∧ Holds st' t' ∧ t'.Valid ∧
      t.toList = X ++ an :: Y ∧ t'.toList = X ++ Y := by
  obtain ⟨c, l, s, r, rfl⟩ := Path.exists_plug_of_mem han
  rw [hv.stored_eq] at hfuel
  obtain ⟨st₁, c', w, heq, hd⟩ := deleteUnlink_eq h hv hnd hfuel
  obtain ⟨st', hpath, hst'⟩ := hd.unbalanced.rebalancePath_eq
  refine ⟨st', _, Path.before c ++ l.toList, r.toList ++ Path.after c, ?_, hst', ?_, ?_, ?_⟩
  · rw [ivAvlTreeDelete, ivAvlTreeDeleteWith]
    split_ifs at heq ⊢
    · rw [heq]
      exact hpath
    · rw [heq]
      exact hpath
  · exact Path.valid_rebalanceUp hd.path_valid hd.valid le_rfl (by omega)
  · simp [Path.toList_plug]
  · rw [Path.toList_rebalanceUp, hd.toList]
    simp

end Ivykis
