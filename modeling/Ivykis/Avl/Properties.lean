import Ivykis.Avl.Operations

/-!
# AVL trees over whole runs

Whatever is inserted and deleted in whatever order, memory holds a search tree of exactly the
nodes that are in it, with true heights and siblings whose heights differ by at most one.
-/

namespace Ivykis

open Kit.Avl

namespace AvlCompare

variable (cmp : AvlCompare) {a b c : AvlPtr}

lemma compare_self (a : AvlPtr) : cmp.compare a a = 0 := by
  have := cmp.swap a a
  omega

lemma lt_of_lt_of_le (hab : cmp.compare a b < 0) (hbc : cmp.compare b c ≤ 0) :
    cmp.compare a c < 0 := by
  have hac := cmp.trans a b c hab.le hbc
  by_contra hge
  -- otherwise `c` is not after `a`, so `b` is not after `a`
  have hca : cmp.compare c a ≤ 0 := by
    have := cmp.swap a c
    have := cmp.swap c a
    omega
  have hba := cmp.trans b c a hbc hca
  have := cmp.swap a b
  omega

lemma lt_of_le_of_lt (hab : cmp.compare a b ≤ 0) (hbc : cmp.compare b c < 0) :
    cmp.compare a c < 0 := by
  by_contra hge
  have hca : cmp.compare c a ≤ 0 := by
    have := cmp.swap a c
    have := cmp.swap c a
    omega
  have hcb := cmp.trans c a b hca hab
  have := cmp.swap b c
  omega

/-- A sequence in strictly increasing order. -/
def Sorted (L : List AvlPtr) : Prop :=
  L.Pairwise fun a b => cmp.compare a b < 0

lemma Sorted.nodup {L : List AvlPtr} (h : cmp.Sorted L) : L.Nodup := by
  refine h.imp fun {a b} hab he => ?_
  rw [he, cmp.compare_self] at hab
  exact lt_irrefl 0 hab

/-- Every node cuts a sorted sequence in two. -/
lemma Sorted.cuts {L : List AvlPtr} (h : cmp.Sorted L) (an : AvlPtr) :
    Path.Cuts (cmp.compare an) L := by
  refine h.imp fun {a b} hab => ⟨fun ha => cmp.lt_of_le_of_lt ha hab, fun hb => ?_⟩
  have hb' : cmp.compare b an ≤ 0 := by
    have := cmp.swap b an
    have := cmp.swap an b
    omega
  have := cmp.lt_of_lt_of_le hab hb'
  exact (cmp.swap a an).mp this

lemma Sorted.insert {X Y : List AvlPtr} {an : AvlPtr} (h : cmp.Sorted (X ++ Y))
    (hX : ∀ x ∈ X, 0 < cmp.compare an x) (hY : ∀ y ∈ Y, cmp.compare an y < 0) :
    cmp.Sorted (X ++ an :: Y) := by
  obtain ⟨hx, hy, hxy⟩ := List.pairwise_append.mp h
  refine List.pairwise_append.mpr ⟨hx, List.pairwise_cons.mpr ⟨hY, hy⟩, fun a ha b hb => ?_⟩
  rcases List.mem_cons.mp hb with rfl | hb
  · exact (cmp.swap a b).mpr (hX a ha)
  · exact hxy a ha b hb

lemma Sorted.erase {X Y : List AvlPtr} {an : AvlPtr} (h : cmp.Sorted (X ++ an :: Y)) :
    cmp.Sorted (X ++ Y) :=
  h.sublist (List.Sublist.append_left (List.sublist_cons_self an Y) X)

end AvlCompare

/-- The invariant of a run. -/
structure AvlInv (cmp : AvlCompare) (s : AvlSystem) (t : HTree AvlPtr) : Prop where
  holds  : Holds s.mem t
  valid  : t.Valid
  sorted : cmp.Sorted t.toList
  nodes  : ∀ a, a ∈ s.inTree ↔ a ∈ t.toList

namespace AvlInv

variable {cmp : AvlCompare} {s s' : AvlSystem} {t : HTree AvlPtr} {an : AvlPtr}

lemma stored_lt (h : AvlInv cmp s t) : t.stored < avlFuel := by
  have := stored_le h.valid (h.sorted.nodup cmp)
  rw [avlFuel]
  omega

/-- What `iv_avl_tree_insert` returns. -/
lemma insert (h : AvlInv cmp s t) (han : an ∉ s.inTree) :
    ((∃ b ∈ s.inTree, cmp.compare an b = 0) ∧
      ivAvlTreeInsert cmp.compare avlFuel s.mem an = .ok (-1, s.mem)) ∨
    ((¬ ∃ b ∈ s.inTree, cmp.compare an b = 0) ∧
      ∃ mem t', ivAvlTreeInsert cmp.compare avlFuel s.mem an = .ok (0, mem) ∧
        AvlInv cmp ⟨mem, Insert.insert an s.inTree⟩ t') := by
  have han' : an ∉ t.toList := fun hm => han ((h.nodes an).mpr hm)
  have hex : (∃ b ∈ s.inTree, cmp.compare an b = 0) ↔ ∃ b ∈ t.toList, cmp.compare an b = 0 := by
    simp only [h.nodes]
  rw [hex]
  refine (insert_eq h.holds h.valid (h.sorted.nodup cmp) han' (h.sorted.cuts cmp an)
    h.stored_lt).imp_right ?_
  rintro ⟨hne, mem, t', X, Y, heq, hholds, hv, hlist, hlist', hX, hY⟩
  refine ⟨hne, mem, t', heq, hholds, hv, ?_, fun a => ?_⟩
  · rw [hlist']
    exact AvlCompare.Sorted.insert cmp (hlist ▸ h.sorted) hX hY
  · have := h.nodes a
    rw [hlist, List.mem_append] at this
    simp only [Finset.mem_insert, hlist', List.mem_append, List.mem_cons]
    tauto

lemma delete (h : AvlInv cmp s t) (han : an ∈ s.inTree) :
    ∃ mem t', ivAvlTreeDelete avlFuel s.mem an = .ok mem ∧
      AvlInv cmp ⟨mem, s.inTree.erase an⟩ t' := by
  have hnd := h.sorted.nodup cmp
  obtain ⟨mem, t', X, Y, heq, hholds, hv, hlist, hlist'⟩ := delete_eq h.holds h.valid hnd
    ((h.nodes an).mp han) h.stored_lt
  refine ⟨mem, t', heq, hholds, hv, ?_, fun a => ?_⟩
  · rw [hlist']
    exact AvlCompare.Sorted.erase cmp (hlist ▸ h.sorted)
  · have hnodes := h.nodes a
    rw [hlist, List.nodup_middle, List.nodup_cons, List.mem_append] at hnd
    rw [hlist, List.mem_append, List.mem_cons] at hnodes
    simp only [Finset.mem_erase, hlist', List.mem_append]
    constructor
    · tauto
    · intro ha
      refine ⟨?_, by tauto⟩
      rintro rfl
      exact hnd.1 ha

lemma step {op : AvlOp} (h : AvlInv cmp s t) (hs : avlStep cmp s op = some s') :
    ∃ t', AvlInv cmp s' t' := by
  cases op with
  | insert an =>
    simp only [avlStep] at hs
    split_ifs at hs with han
    rcases h.insert han with ⟨-, heq⟩ | ⟨-, mem, t', heq, hinv⟩
    · rw [heq, Option.some.injEq] at hs
      rw [← hs]
      exact ⟨t, h⟩
    · rw [heq, Option.some.injEq] at hs
      rw [← hs]
      exact ⟨t', hinv⟩
  | delete an =>
    simp only [avlStep] at hs
    split_ifs at hs with han
    obtain ⟨mem, t', heq, hinv⟩ := h.delete han
    rw [heq, Option.some.injEq] at hs
    rw [← hs]
    exact ⟨t', hinv⟩
  | scribble an left right parent height =>
    simp only [avlStep] at hs
    split_ifs at hs with han
    rw [Option.some.injEq] at hs
    rw [← hs]
    refine ⟨t, ⟨h.holds.1, h.holds.2.congr fun x hx => ?_⟩, h.valid, h.sorted, h.nodes⟩
    have hx : x ≠ an := fun he => han ((h.nodes an).mpr (he ▸ hx))
    simp [SameNode, hx]

end AvlInv

theorem avlInv_of_run {cmp : AvlCompare} {nodes : AvlState} {tr : List AvlOp} {s : AvlSystem}
    (h : (avlLts cmp nodes).Run tr s) : ∃ t, AvlInv cmp s t := by
  refine h.induct (P := fun _ s => ∃ t, AvlInv cmp s t) ?_ ?_
  · exact ⟨.nil, ⟨rfl, trivial⟩, trivial, List.Pairwise.nil, fun a => by simp [avlLts]⟩
  · rintro tr s op s' - ⟨t, hinv⟩ hs
    exact hinv.step hs

/-- The nodes in memory are the tree `t`, which is an AVL tree of the nodes in `S`. A node `a` of
`t` with the subtrees `l` and `r`, and with `c` the nodes above it, is written
`t = Path.plug c (.node l a h r)`. -/
structure AvlOk (cmp : AvlCompare) (st : AvlState) (S : Finset AvlPtr) (t : HTree AvlPtr) :
    Prop where
  root     : st.root = t.root
  pointers : ∀ c l a h r, t = Path.plug c (.node l a h r) →
    st.left a = l.root ∧ st.right a = r.root ∧ st.parent a = Path.parent c
  heights  : ∀ c l a h r, t = Path.plug c (.node l a h r) →
    (st.height a).toNat = 1 + max l.height r.height
  balanced : ∀ c l a h r, t = Path.plug c (.node l a h r) →
    l.height ≤ r.height + 1 ∧ r.height ≤ l.height + 1
  sorted   : t.toList.Pairwise fun a b => cmp.compare a b < 0
  nodes    : t.toList.toFinset = S

lemma AvlInv.avlOk {cmp : AvlCompare} {s : AvlSystem} {t : HTree AvlPtr} (h : AvlInv cmp s t) :
    AvlOk cmp s.mem s.inTree t where
  root := h.holds.1
  pointers := by
    rintro c l a h' r rfl
    obtain ⟨-, hl, hr, hp, -⟩ := holds_plug.mp h.holds
    exact ⟨hl, hr, hp⟩
  heights := by
    rintro c l a h' r rfl
    obtain ⟨-, -, -, -, hh, -⟩ := holds_plug.mp h.holds
    obtain ⟨-, hl, hr, hs, -⟩ := Path.valid_plug.mp h.valid
    rw [hh, hs, hl.stored_eq, hr.stored_eq]
  balanced := by
    rintro c l a h' r rfl
    obtain ⟨-, hl, hr, -, hlr, hrl⟩ := Path.valid_plug.mp h.valid
    rw [hl.stored_eq, hr.stored_eq] at hlr hrl
    exact ⟨hlr, hrl⟩
  sorted := h.sorted
  nodes := by
    ext a
    rw [List.mem_toFinset, h.nodes]

/-- In every run the nodes in memory are an AVL tree of the nodes inserted and not since deleted.
Insertion fails exactly when an equal node is present, and then it changes nothing; and no call
follows a null pointer or runs on forever. -/
theorem avlTree_of_run {cmp : AvlCompare} {nodes : AvlState} {tr : List AvlOp} {s : AvlSystem}
    (h : (avlLts cmp nodes).Run tr s) :
    (∃ t, AvlOk cmp s.mem s.inTree t) ∧
    (∀ an, an ∉ s.inTree → ∃ ret mem,
      ivAvlTreeInsert cmp.compare avlFuel s.mem an = .ok (ret, mem) ∧ (ret = 0 ∨ ret = -1) ∧
        (ret = -1 ↔ ∃ b ∈ s.inTree, cmp.compare an b = 0) ∧ (ret = -1 → mem = s.mem)) ∧
    ∀ an, an ∈ s.inTree → ∃ mem, ivAvlTreeDelete avlFuel s.mem an = .ok mem := by
  obtain ⟨t, hinv⟩ := avlInv_of_run h
  refine ⟨⟨t, hinv.avlOk⟩, fun an han => ?_, fun an han => ?_⟩
  · rcases hinv.insert han with ⟨hex, heq⟩ | ⟨hne, mem, t', heq, -⟩
    · exact ⟨-1, s.mem, heq, Or.inr rfl, by simp [hex], fun _ => rfl⟩
    · exact ⟨0, mem, heq, Or.inl rfl, by simpa using hne, by simp⟩
  · obtain ⟨mem, -, heq, -⟩ := hinv.delete han
    exact ⟨mem, heq⟩

/-- Nodes in the order of their addresses, where the lowest bit does not count. -/
def compareHalves : AvlCompare where
  compare a b := (a.toNat / 2 : ℕ) - (b.toNat / 2 : ℕ)
  swap a b    := by omega
  trans a b c := by omega

theorem avlTree_of_run_five :
    ∃ s, (avlLts compareHalves emptyNodes).Run
        [.insert 2, .insert 4, .insert 6, .insert 7, .insert 8, .delete 4] s ∧
      s.inTree = {2, 6, 8} ∧ ∃ t, AvlOk compareHalves s.mem {2, 6, 8} t := by
  refine Kit.Lts.exists_run_of_decide (·.inTree = {2, 6, 8}) (by decide) fun s hs hin => ?_
  exact ⟨hin, hin ▸ (avlTree_of_run hs).1⟩

end Ivykis
