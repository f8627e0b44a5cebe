import Ivykis.Avl.Properties

/-!
# Going through a tree in order

A node has no link to its successor: the way there goes down into the right subtree, or up along
the parent pointers. The way to its predecessor is the same in the mirror.

A loop that may delete the node it has reached fetches the next node before. That node may be the
one that `iv_avl_tree_delete` moves to the place of the deleted node, and rotations may take place
around it; its place in the sequence stays what it was.
-/

namespace Ivykis

open Kit.Avl

/-- `while (p != NULL && an == p->right) { an = p; p = an->parent; }` and its mirror image. -/
def climb (side parent : AvlPtr → Option AvlPtr) :
    ℕ → AvlPtr → Option AvlPtr → Except Fault (Option AvlPtr)
  | _, _, none => .ok none
  | 0, _, some _ => .error .stuck
  | fuel + 1, an, some p =>
    if side p = some an then climb side parent fuel p (parent p)
    else .ok (some p)

/-- `iv_avl_tree_next`. -/
def ivAvlTreeNext (fuel : ℕ) (st : AvlState) (an : AvlPtr) : Except Fault (Option AvlPtr) :=
  match st.right an with
  | some r => (walkDown st.left fuel r).map some
  | none   => climb st.right st.parent fuel an (st.parent an)

/-- `iv_avl_tree_prev`. -/
def ivAvlTreePrev (fuel : ℕ) (st : AvlState) (an : AvlPtr) : Except Fault (Option AvlPtr) :=
  match st.left an with
  | some l => (walkDown st.right fuel l).map some
  | none   => climb st.left st.parent fuel an (st.parent an)

/-- `iv_avl_tree_min`. -/
def ivAvlTreeMin (fuel : ℕ) (st : AvlState) : Except Fault (Option AvlPtr) :=
  match st.root with
  | some an => (walkDown st.left fuel an).map some
  | none    => .ok none

/-- `iv_avl_tree_max`. -/
def ivAvlTreeMax (fuel : ℕ) (st : AvlState) : Except Fault (Option AvlPtr) :=
  match st.root with
  | some an => (walkDown st.right fuel an).map some
  | none    => .ok none

/-- The nodes that `an` goes through in `for (; an != NULL; an = next(an))`. The number bounds the
iterations. -/
def visitFrom (next : AvlPtr → Except Fault (Option AvlPtr)) :
    ℕ → Option AvlPtr → Except Fault (List AvlPtr)
  | _, none => .ok []
  | 0, some _ => .error .stuck
  | n + 1, some an => do
    let visited ← visitFrom next n (← next an)
    .ok (an :: visited)

/-- `iv_avl_tree_for_each`. -/
def ivAvlTreeForEach (fuel n : ℕ) (st : AvlState) : Except Fault (List AvlPtr) := do
  visitFrom (ivAvlTreeNext fuel st) n (← ivAvlTreeMin fuel st)

/-- The loop from `iv_avl_tree_max` with `iv_avl_tree_prev`. -/
def forEachBackwards (fuel n : ℕ) (st : AvlState) : Except Fault (List AvlPtr) := do
  visitFrom (ivAvlTreePrev fuel st) n (← ivAvlTreeMax fuel st)

/-- `iv_avl_tree_next_safe`. -/
def ivAvlTreeNextSafe (fuel : ℕ) (st : AvlState) : Option AvlPtr → Except Fault (Option AvlPtr)
  | some an => ivAvlTreeNext fuel st an
  | none    => .ok none

/-- The loop of `iv_avl_tree_for_each_safe`, with a body that deletes the nodes that `del` says. -/
def forEachSafeLoop (fuel : ℕ) (del : AvlPtr → Bool) :
    ℕ → AvlState → Option AvlPtr → Option AvlPtr → Except Fault (List AvlPtr × AvlState)
  | _, st, none, _ => .ok ([], st)
  | 0, _, some _, _ => .error .stuck
  | n + 1, st, some an, an2 => do
    let st ← if del an then ivAvlTreeDelete fuel st an else .ok st
    let an3 ← ivAvlTreeNextSafe fuel st an2
    let (visited, st) ← forEachSafeLoop fuel del n st an2 an3
    .ok (an :: visited, st)

/-- `iv_avl_tree_for_each_safe`. -/
def ivAvlTreeForEachSafe (fuel : ℕ) (del : AvlPtr → Bool) (n : ℕ) (st : AvlState) :
    Except Fault (List AvlPtr × AvlState) := do
  let an ← ivAvlTreeMin fuel st
  let an2 ← ivAvlTreeNextSafe fuel st an
  forEachSafeLoop fuel del n st an an2

section Next

variable {st : AvlState} {c : Path AvlPtr} {t : HTree AvlPtr} {a : AvlPtr} {fuel : ℕ}

/-- The way up from a subtree ends at the first node that stands to the right of it. -/
lemma climb_right (h : Holds st (Path.plug c t)) (hnd : (Path.plug c t).toList.Nodup)
    (ha : t.root = some a) (hfuel : c.length ≤ fuel) :
    climb st.right st.parent fuel a (Path.parent c) = .ok (Path.after c).head? := by
  induction c generalizing t a fuel with
  | nil => rw [Path.parent, climb, Path.after, List.head?_nil]
  | cons f c ih =>
    rw [List.length_cons] at hfuel
    obtain ⟨fuel, rfl⟩ : ∃ n, fuel = n + 1 := ⟨fuel - 1, by omega⟩
    obtain ⟨hpath, -⟩ := holds_plug.mp h
    cases f with
    | left b s r =>
      have hne : st.right b ≠ some a := by
        rw [hpath.2.1]
        intro hr
        refine (Path.nodup_plug.mp hnd).2.2 a (HTree.root_mem ha) ?_
        simp [Path.elems, Frame.other, HTree.root_mem hr]
      rw [Path.parent, Frame.label, climb, if_neg hne]
      rfl
    | right l b s =>
      rw [Path.parent, Frame.label, climb, if_pos (hpath.2.1.trans ha), hpath.2.2.1]
      exact ih h hnd rfl (by omega)

/-- `iv_avl_tree_next` returns the node that follows in order. -/
lemma ivAvlTreeNext_eq {X Y : List AvlPtr} (h : Holds st t) (hnd : t.toList.Nodup)
    (hfuel : t.height ≤ fuel) (hlist : t.toList = X ++ a :: Y) :
    ivAvlTreeNext fuel st a = .ok Y.head? := by
  obtain ⟨c, l, s, r, rfl⟩ := Path.exists_plug_of_mem (t := t) (a := a) (by simp [hlist])
  obtain ⟨-, -, hr, hp, -, -, hrr⟩ := holds_plug.mp h
  have hlen := Path.length_le_height c (.node l a s r)
  simp only [HTree.height] at hlen
  -- what follows `a` is its right subtree and what the path has to the right
  rw [Path.toList_plug, HTree.toList_node, List.append_assoc, List.append_assoc,
    List.cons_append, ← List.append_assoc] at hlist
  have hY : r.toList ++ Path.after c = Y := by
    have hnd' := Path.toList_plug c (.node l a s r) ▸ hnd
    rw [HTree.toList_node, List.append_assoc, List.append_assoc, List.cons_append,
      ← List.append_assoc, List.nodup_middle, List.nodup_cons, List.mem_append, not_or] at hnd'
    exact ((List.append_cons_inj_of_notMem hnd'.1.1 hnd'.1.2).mp hlist).2.2
  subst hY
  cases r with
  | nil =>
    rw [ivAvlTreeNext, hr, hp]
    exact climb_right h hnd rfl (by omega)
  | node rl b rs rr =>
    rw [ivAvlTreeNext]
    have hfuel : rl.height < fuel := by
      simp only [HTree.height] at hlen
      omega
    obtain ⟨d, w, v, u, hplug, hbefore, hwalk⟩ := walkDown_left hrr hfuel
    rw [HTree.root_node] at hr
    simp only [hr, hwalk, Except.map, hplug, Path.toList_plug, hbefore]
    simp

/-- `iv_avl_tree_prev` is `iv_avl_tree_next` in the mirror. -/
lemma ivAvlTreePrev_eq_next (fuel : ℕ) (st : AvlState) (an : AvlPtr) :
    ivAvlTreePrev fuel st an = ivAvlTreeNext fuel st.mirror an := rfl

lemma ivAvlTreePrev_eq {X Y : List AvlPtr} (h : Holds st t) (hnd : t.toList.Nodup)
    (hfuel : t.height ≤ fuel) (hlist : t.toList = X ++ a :: Y) :
    ivAvlTreePrev fuel st a = .ok X.getLast? := by
  rw [ivAvlTreePrev_eq_next, ← List.head?_reverse]
  refine ivAvlTreeNext_eq (X := Y.reverse) h.mirror ?_ ?_ ?_
  · rwa [HTree.toList_mirror, List.nodup_reverse]
  · rwa [HTree.height_mirror]
  · simp [hlist]

lemma ivAvlTreeMin_eq (h : Holds st t) (hfuel : t.height ≤ fuel) :
    ivAvlTreeMin fuel st = .ok t.toList.head? := by
  cases t with
  | nil => simp [ivAvlTreeMin, h.1]
  | node l b s r =>
    simp only [HTree.height] at hfuel
    obtain ⟨d, w, v, u, hplug, hbefore, hwalk⟩ := walkDown_left h.2 (show l.height < fuel by omega)
    rw [ivAvlTreeMin, h.1, HTree.root_node]
    simp only [hwalk, Except.map, hplug, Path.toList_plug, hbefore]
    simp

lemma ivAvlTreeMax_eq (h : Holds st t) (hfuel : t.height ≤ fuel) :
    ivAvlTreeMax fuel st = .ok t.toList.getLast? := by
  rw [← List.head?_reverse, ← HTree.toList_mirror]
  exact ivAvlTreeMin_eq h.mirror (by rwa [HTree.height_mirror])

end Next

/-! ### Trees that can be gone through -/

/-- The nodes in memory are the tree `t`, which is balanced and has its heights stored. -/
structure AvlRep (st : AvlState) (t : HTree AvlPtr) : Prop where
  holds : Holds st t
  valid : t.Valid
  nodup : t.toList.Nodup

lemma AvlInv.avlRep {cmp : AvlCompare} {s : AvlSystem} {t : HTree AvlPtr} (h : AvlInv cmp s t) :
    AvlRep s.mem t :=
  ⟨h.holds, h.valid, h.sorted.nodup cmp⟩

namespace AvlRep

variable {st : AvlState} {t : HTree AvlPtr} {a : AvlPtr} {X Y : List AvlPtr}

lemma stored_lt (h : AvlRep st t) : t.stored < avlFuel := by
  have := stored_le h.valid h.nodup
  rw [avlFuel]
  omega

lemma height_le (h : AvlRep st t) : t.height ≤ avlFuel :=
  h.valid.stored_eq ▸ h.stored_lt.le

lemma next (h : AvlRep st t) (hlist : t.toList = X ++ a :: Y) :
    ivAvlTreeNext avlFuel st a = .ok Y.head? :=
  ivAvlTreeNext_eq h.holds h.nodup h.height_le hlist

lemma prev (h : AvlRep st t) (hlist : t.toList = X ++ a :: Y) :
    ivAvlTreePrev avlFuel st a = .ok X.getLast? :=
  ivAvlTreePrev_eq h.holds h.nodup h.height_le hlist

lemma min (h : AvlRep st t) : ivAvlTreeMin avlFuel st = .ok t.toList.head? :=
  ivAvlTreeMin_eq h.holds h.height_le

lemma max (h : AvlRep st t) : ivAvlTreeMax avlFuel st = .ok t.toList.getLast? :=
  ivAvlTreeMax_eq h.holds h.height_le

lemma nextSafe (h : AvlRep st t) (hlist : t.toList = X ++ Y) :
    ivAvlTreeNextSafe avlFuel st Y.head? = .ok Y.tail.head? := by
  cases Y with
  | nil => rfl
  | cons b Y => exact h.next hlist

/-- A node is taken out of the sequence. -/
lemma delete (h : AvlRep st t) (hlist : t.toList = X ++ a :: Y) :
    ∃ st' t', ivAvlTreeDelete avlFuel st a = .ok st' ∧ AvlRep st' t' ∧ t'.toList = X ++ Y := by
  obtain ⟨st', t', X', Y', heq, hholds, hv, hlist', hrest⟩ := delete_eq h.holds h.valid h.nodup
    (hlist ▸ List.mem_append_right X List.mem_cons_self) h.stored_lt
  have hnd := h.nodup
  rw [hlist, List.nodup_middle, List.nodup_cons, List.mem_append, not_or] at hnd
  obtain ⟨rfl, -, rfl⟩ := (List.append_cons_inj_of_notMem hnd.1.1 hnd.1.2).mp
    (hlist.symm.trans hlist')
  exact ⟨st', t', heq, ⟨hholds, hv, hrest ▸ hnd.2⟩, hrest⟩

end AvlRep

/-- The loop visits what is left of a sequence, if `next` goes along it. -/
lemma visitFrom_eq {next : AvlPtr → Except Fault (Option AvlPtr)} {L : List AvlPtr}
    (hnext : ∀ X a Y, L = X ++ a :: Y → next a = .ok Y.head?) {X Y : List AvlPtr} {n : ℕ}
    (hlist : L = X ++ Y) (hn : Y.length ≤ n) : visitFrom next n Y.head? = .ok Y := by
  induction Y generalizing X n with
  | nil => rw [List.head?_nil, visitFrom]
  | cons a Y ih =>
    rw [List.length_cons] at hn
    obtain ⟨n, rfl⟩ : ∃ k, n = k + 1 := ⟨n - 1, by omega⟩
    rw [List.head?_cons, visitFrom, hnext X a Y hlist, ok_bind,
      ih (hlist.trans (List.append_cons X a Y)) (by omega), ok_bind]

section Iteration

variable {st : AvlState} {t : HTree AvlPtr}

/-- Going through a tree forwards visits every node once, in order, and going through it backwards
visits them in the reverse order. The two steps are inverse to each other. -/
theorem avl_iteration (h : AvlRep st t) :
    t.toList.Nodup ∧
    (∀ n, t.toList.length ≤ n → ivAvlTreeForEach avlFuel n st = .ok t.toList) ∧
    (∀ n, t.toList.length ≤ n → forEachBackwards avlFuel n st = .ok t.toList.reverse) ∧
    ∀ a ∈ t.toList, ∃ p q, ivAvlTreePrev avlFuel st a = .ok p ∧
      ivAvlTreeNext avlFuel st a = .ok q ∧
      (∀ b, p = some b → ivAvlTreeNext avlFuel st b = .ok (some a)) ∧
      ∀ b, q = some b → ivAvlTreePrev avlFuel st b = .ok (some a) := by
  refine ⟨h.nodup, fun n hn => ?_, fun n hn => ?_, fun a ha => ?_⟩
  · rw [ivAvlTreeForEach, h.min, ok_bind]
    exact visitFrom_eq (fun X a Y => h.next) (List.nil_append _).symm hn
  · rw [forEachBackwards, h.max, ok_bind, ← List.head?_reverse]
    refine visitFrom_eq (fun X a Y hlist => ?_) (List.nil_append _).symm (by simpa using hn)
    rw [List.reverse_eq_iff, List.reverse_append, List.reverse_cons, List.append_assoc,
      List.singleton_append] at hlist
    rw [h.prev hlist, List.getLast?_reverse]
  · obtain ⟨X, Y, hlist⟩ := List.append_of_mem ha
    refine ⟨X.getLast?, Y.head?, h.prev hlist, h.next hlist, fun b hb => ?_, fun b hb => ?_⟩
    · obtain ⟨X, rfl⟩ := List.getLast?_eq_some_iff.mp hb
      rw [List.append_assoc, List.singleton_append] at hlist
      exact h.next hlist
    · obtain ⟨Y, rfl⟩ := List.head?_eq_some_iff.mp hb
      rw [List.append_cons] at hlist
      rw [h.prev hlist, List.getLast?_concat]

/-- Four nodes, of which the right one of the root has a right child. -/
def fourNodes : AvlState where
  root     := some 4
  left a   := if a = 4 then some 2 else none
  right a  := if a = 4 then some 6 else if a = 6 then some 8 else none
  parent a := if a = 2 ∨ a = 6 then some 4 else if a = 8 then some 6 else none
  height a := if a = 4 then 3 else if a = 6 then 2 else 1

def fourTree : HTree AvlPtr :=
  .node (.node .nil 2 1 .nil) 4 3 (.node .nil 6 2 (.node .nil 8 1 .nil))

lemma fourNodes_avlInv : AvlInv compareHalves ⟨fourNodes, {2, 4, 6, 8}⟩ fourTree where
  holds  := by simp [Holds, Rep, fourNodes, fourTree]
  valid  := by simp [HTree.Valid, fourTree]
  sorted := by
    unfold AvlCompare.Sorted
    decide
  nodes  := by simp [fourTree]

theorem avl_iteration_four :
    ivAvlTreeForEach avlFuel 4 fourNodes = .ok [2, 4, 6, 8] ∧
      forEachBackwards avlFuel 4 fourNodes = .ok [8, 6, 4, 2] := by
  obtain ⟨-, hforwards, hbackwards, -⟩ := avl_iteration fourNodes_avlInv.avlRep
  exact ⟨hforwards 4 le_rfl, hbackwards 4 le_rfl⟩

/-- What the loop does from the point on where it has reached the nodes `Y`. -/
lemma forEachSafeLoop_eq (del : AvlPtr → Bool) {X Y : List AvlPtr} {n : ℕ} (h : AvlRep st t)
    (hlist : t.toList = X ++ Y) (hn : Y.length ≤ n) :
    ∃ st' t', forEachSafeLoop avlFuel del n st Y.head? Y.tail.head? = .ok (Y, st') ∧
      AvlRep st' t' ∧ t'.toList = X ++ Y.filter (!del ·) := by
  induction Y generalizing st t X n with
  | nil => exact ⟨st, t, by rw [List.head?_nil, forEachSafeLoop], h, hlist⟩
  | cons a Y ih =>
    rw [List.length_cons] at hn
    obtain ⟨n, rfl⟩ : ∃ k, n = k + 1 := ⟨n - 1, by omega⟩
    simp only [List.head?_cons, List.tail_cons, forEachSafeLoop]
    cases hdel : del a with
    | true =>
      obtain ⟨st₁, t₁, heq, h₁, hlist₁⟩ := h.delete hlist
      obtain ⟨st', t', hloop, h', hlist'⟩ := ih h₁ hlist₁ (n := n) (by omega)
      refine ⟨st', t', ?_, h', by simpa [hdel] using hlist'⟩
      rw [if_pos rfl, heq, ok_bind, h₁.nextSafe hlist₁, ok_bind, hloop, ok_bind]
    | false =>
      have hlist₁ := hlist.trans (List.append_cons X a Y)
      obtain ⟨st', t', hloop, h', hlist'⟩ := ih h hlist₁ (n := n) (by omega)
      refine ⟨st', t', ?_, h', by simpa [hdel] using hlist'⟩
      rw [if_neg Bool.false_ne_true, ok_bind, h.nextSafe hlist₁, ok_bind, hloop, ok_bind]

variable {cmp : AvlCompare} {S : Finset AvlPtr}

/-- A tree that is a sorted part of a sorted sequence. -/
lemma AvlRep.avlInv {st' : AvlState} {t' : HTree AvlPtr} (h : AvlRep st' t')
    (hinv : AvlInv cmp ⟨st, S⟩ t) {p : AvlPtr → Bool} (hlist : t'.toList = t.toList.filter p) :
    AvlInv cmp ⟨st', S.filter (p · = true)⟩ t' where
  holds  := h.holds
  valid  := h.valid
  sorted := hlist ▸ hinv.sorted.filter p
  nodes a := by
    have hnodes : a ∈ S ↔ a ∈ t.toList := hinv.nodes a
    rw [Finset.mem_filter, hlist, List.mem_filter, hnodes]

/-- A loop that deletes some of the nodes it visits still visits all nodes of the tree once and in
order, and the tree is left with the others. A deletion does not take away the next node, which has
been fetched before, and does not change what comes after it. -/
theorem avl_safeIteration (h : AvlInv cmp ⟨st, S⟩ t) (del : AvlPtr → Bool) :
    t.toList.Pairwise (fun a b => cmp.compare a b < 0) ∧ t.toList.toFinset = S ∧
    (∀ n, t.toList.length ≤ n → ∃ st' t',
      ivAvlTreeForEachSafe avlFuel del n st = .ok (t.toList, st') ∧
      AvlInv cmp ⟨st', S.filter fun a => ¬ del a⟩ t') ∧
    ∀ X an an2 Y, t.toList = X ++ an :: an2 :: Y →
      ivAvlTreeNext avlFuel st an = .ok (some an2) ∧
      ∃ st' t', ivAvlTreeDelete avlFuel st an = .ok st' ∧ AvlInv cmp ⟨st', S.erase an⟩ t' ∧
        an2 ∈ S.erase an ∧ ivAvlTreeNext avlFuel st' an2 = ivAvlTreeNext avlFuel st an2 := by
  have hrep := h.avlRep
  refine ⟨h.sorted, h.avlOk.nodes, fun n hn => ?_, fun X an an2 Y hlist => ?_⟩
  · obtain ⟨st', t', hloop, h', hlist'⟩ := forEachSafeLoop_eq del hrep (List.nil_append _).symm hn
    refine ⟨st', t', ?_, ?_⟩
    · rw [ivAvlTreeForEachSafe, hrep.min, ok_bind, hrep.nextSafe (List.nil_append _).symm, ok_bind,
        hloop]
    · have hinv := h'.avlInv h hlist'
      simpa only [Bool.not_eq_true', Bool.not_eq_true] using hinv
  · have hmem : ∀ a, a = an ∨ a = an2 → a ∈ S := by
      rintro a (rfl | rfl) <;> exact (h.nodes _).mpr (by simp [hlist])
    obtain ⟨st', t', heq, h', hlist'⟩ := hrep.delete hlist
    obtain ⟨mem, t'', heq', hinv⟩ := h.delete (hmem an (Or.inl rfl))
    obtain rfl : st' = mem := Except.ok.inj (heq.symm.trans heq')
    refine ⟨hrep.next hlist, st', t'', heq, hinv, ?_, ?_⟩
    · refine Finset.mem_erase.mpr ⟨?_, hmem an2 (Or.inr rfl)⟩
      rintro rfl
      have hnd := hrep.nodup
      rw [hlist, List.nodup_middle, List.nodup_cons] at hnd
      exact hnd.1 (by simp)
    · rw [h'.next hlist', hrep.next (hlist.trans (List.append_cons X an (an2 :: Y)))]

/-- The node `6`, which takes the place of the deleted node `4`, is the one visited next. -/
theorem avl_safeIteration_successorMoves :
    ∃ st' t', ivAvlTreeForEachSafe avlFuel (· == 4) 4 fourNodes = .ok ([2, 4, 6, 8], st') ∧
      AvlInv compareHalves ⟨st', ({2, 4, 6, 8} : Finset AvlPtr).filter fun a => ¬ (a == 4)⟩ t' := by
  obtain ⟨-, -, hloop, -⟩ := avl_safeIteration fourNodes_avlInv (· == 4)
  exact hloop 4 le_rfl

end Iteration

end Ivykis
