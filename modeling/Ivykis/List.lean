import Ivykis.Basic
import Ivykis.Kit.Ring

/-!
# Intrusive lists (`iv_list.h`)

A list is a head and the cells that are linked to it in a ring. A cell that is on no list is often
linked to itself, as the head of an empty list is. The operations do not know heads from elements:
they only move pointers.

The model has the pointers of all cells, which is what `Kit.Links` is. A null pointer that is
followed is a fault.
-/

namespace Ivykis

open Kit

/-- The address of a `struct iv_list_head`. -/
abbrev ListPtr := ℕ

/-- The `next` and `prev` fields of all cells. -/
abbrev ListHeap := Links ListPtr

/-- Follow a pointer. -/
def derefCell : Option ListPtr → Except Fault ListPtr
  | none   => .error .invalidAccess
  | some p => .ok p

/-- `INIT_IV_LIST_HEAD`. -/
def initIvListHead (ilh : ListPtr) (m : ListHeap) : ListHeap :=
  let m := m.setNext ilh (some ilh)
  m.setPrev ilh (some ilh)

/-- `iv_list_add`. -/
def ivListAdd (ilh head : ListPtr) (m : ListHeap) : Except Fault ListHeap := do
  let m := m.setNext ilh (m.next head)
  let m := m.setPrev ilh (some head)
  let m := m.setPrev (← derefCell (m.next head)) (some ilh)
  .ok (m.setNext head (some ilh))

/-- `iv_list_add_tail`. -/
def ivListAddTail (ilh head : ListPtr) (m : ListHeap) : Except Fault ListHeap := do
  let m := m.setNext ilh (some head)
  let m := m.setPrev ilh (m.prev head)
  let m := m.setNext (← derefCell (m.prev head)) (some ilh)
  .ok (m.setPrev head (some ilh))

/-- What `iv_list_del` and `iv_list_del_init` begin with. -/
def listUnlink (ilh : ListPtr) (m : ListHeap) : Except Fault ListHeap := do
  let m := m.setNext (← derefCell (m.prev ilh)) (m.next ilh)
  let m := m.setPrev (← derefCell (m.next ilh)) (m.prev ilh)
  .ok m

/-- `iv_list_del`. -/
def ivListDel (ilh : ListPtr) (m : ListHeap) : Except Fault ListHeap := do
  let m ← listUnlink ilh m
  let m := m.setPrev ilh none
  .ok (m.setNext ilh none)

/-- `iv_list_del_init`. -/
def ivListDelInit (ilh : ListPtr) (m : ListHeap) : Except Fault ListHeap := do
  let m ← listUnlink ilh m
  .ok (initIvListHead ilh m)

/-- `iv_list_empty`. -/
def ivListEmpty (head : ListPtr) (m : ListHeap) : Bool :=
  m.next head == some head

/-- `__iv_list_splice`. -/
def ivListSpliceBetween (ilh : ListPtr) (prev next : Option ListPtr) (m : ListHeap) :
    Except Fault ListHeap := do
  let first := m.next ilh
  let last := m.prev ilh
  let m := m.setPrev (← derefCell first) prev
  let m := m.setNext (← derefCell prev) first
  let m := m.setNext (← derefCell last) next
  .ok (m.setPrev (← derefCell next) last)

/-- `iv_list_splice`. -/
def ivListSplice (ilh head : ListPtr) (m : ListHeap) : Except Fault ListHeap :=
  if !ivListEmpty ilh m then ivListSpliceBetween ilh (some head) (m.next head) m
  else .ok m

/-- `iv_list_splice_init`. -/
def ivListSpliceInit (ilh head : ListPtr) (m : ListHeap) : Except Fault ListHeap := do
  if !ivListEmpty ilh m then
    let m ← ivListSpliceBetween ilh (some head) (m.next head) m
    .ok (initIvListHead ilh m)
  else .ok m

/-- `iv_list_splice_tail`. -/
def ivListSpliceTail (ilh head : ListPtr) (m : ListHeap) : Except Fault ListHeap :=
  if !ivListEmpty ilh m then ivListSpliceBetween ilh (m.prev head) (some head) m
  else .ok m

/-- `iv_list_splice_tail_init`. -/
def ivListSpliceTailInit (ilh head : ListPtr) (m : ListHeap) : Except Fault ListHeap := do
  if !ivListEmpty ilh m then
    let m ← ivListSpliceBetween ilh (m.prev head) (some head) m
    .ok (initIvListHead ilh m)
  else .ok m

/-- `__iv_list_steal_elements`. -/
def ivListStealElements (oldh newh : ListPtr) (m : ListHeap) : Except Fault ListHeap := do
  let first := m.next oldh
  let last := m.prev oldh
  let m := m.setNext (← derefCell last) (some newh)
  let m := m.setPrev (← derefCell first) (some newh)
  let m := m.setNext newh (m.next oldh)
  let m := m.setPrev newh (m.prev oldh)
  let m := m.setNext oldh (some oldh)
  .ok (m.setPrev oldh (some oldh))

inductive ListOp where
  | init (ilh : ListPtr)
  | add (ilh head : ListPtr)
  | addTail (ilh head : ListPtr)
  | del (ilh : ListPtr)
  | delInit (ilh : ListPtr)
  | splice (ilh head : ListPtr)
  | spliceInit (ilh head : ListPtr)
  | spliceTail (ilh head : ListPtr)
  | spliceTailInit (ilh head : ListPtr)
  | stealElements (oldh newh : ListPtr)
  deriving DecidableEq, Repr

def listStep (m : ListHeap) : ListOp → Except Fault ListHeap
  | .init ilh                => .ok (initIvListHead ilh m)
  | .add ilh head            => ivListAdd ilh head m
  | .addTail ilh head        => ivListAddTail ilh head m
  | .del ilh                 => ivListDel ilh m
  | .delInit ilh             => ivListDelInit ilh m
  | .splice ilh head         => ivListSplice ilh head m
  | .spliceInit ilh head     => ivListSpliceInit ilh head m
  | .spliceTail ilh head     => ivListSpliceTail ilh head m
  | .spliceTailInit ilh head => ivListSpliceTailInit ilh head m
  | .stealElements oldh newh => ivListStealElements oldh newh m

/-! ### The operations as links -/

section Links

variable {m : ListHeap} {a h k : ListPtr} {L K : List ListPtr}

lemma derefCell_some (p : ListPtr) : derefCell (some p) = .ok p := rfl

lemma ivListAdd_eq (hr : LinkRing.In m (h, L)) (ha : a ∉ h :: L) :
    ivListAdd a h m = .ok ((m.link a (LinkRing.first (h, L))).link h a) := by
  have hne : h ≠ a := ne_of_mem_of_not_mem List.mem_cons_self ha
  have hf : LinkRing.first (h, L) ≠ a := ne_of_mem_of_not_mem (LinkRing.first_mem_cells _) ha
  have hnext : m.next h = some (LinkRing.first (h, L)) := hr.next_head
  simp only [ivListAdd, Links.setNext_next, Links.setPrev_next, Function.update_of_ne hne, hnext,
    derefCell_some, ok_bind]
  congr 1
  ext1
  · rfl
  · exact Function.update_comm hf.symm _ _ _

lemma ivListAddTail_eq (hr : LinkRing.In m (h, L)) (ha : a ∉ h :: L) :
    ivListAddTail a h m = .ok ((m.link (LinkRing.last (h, L)) a).link a h) := by
  have hne : h ≠ a := ne_of_mem_of_not_mem List.mem_cons_self ha
  have hl : LinkRing.last (h, L) ≠ a := ne_of_mem_of_not_mem (LinkRing.last_mem_cells _) ha
  have hprev : m.prev h = some (LinkRing.last (h, L)) := hr.prev_head
  simp only [ivListAddTail, Links.setNext_prev, Links.setPrev_prev, Function.update_of_ne hne,
    hprev, derefCell_some, ok_bind]
  congr 1
  ext1
  · exact Function.update_comm hl.symm _ _ _
  · rfl

/-- Taking `a` out links the cells before and after it, which may be `a` itself. -/
lemma listUnlink_eq {p n : ListPtr} (hp : m.prev a = some p) (hn : m.next a = some n) :
    listUnlink a m = .ok (m.link p n) := by
  have hnext : Function.update m.next p (some n) a = some n := by
    rw [Function.update_apply]
    split_ifs
    · rfl
    · exact hn
  simp only [listUnlink, hp, hn, derefCell_some, ok_bind, Links.setNext_next, Links.setNext_prev,
    hnext]
  rfl

lemma ivListEmpty_eq (hr : LinkRing.In m (k, K)) (hn : (k :: K).Nodup) :
    ivListEmpty k m = decide (K = []) := by
  have hnext : m.next k = some (LinkRing.first (k, K)) := hr.next_head
  rw [ivListEmpty, hnext]
  cases K with
  | nil => simp [LinkRing.first]
  | cons b K =>
    have hbk : b ≠ k := fun hbk => (List.nodup_cons.mp hn).1 (by simp [hbk])
    simpa [LinkRing.first] using hbk

/-- `__iv_list_splice` links both ends of the other list. -/
lemma ivListSpliceBetween_eq {p n : ListPtr} (hr : LinkRing.In m (k, K))
    (hp : p ≠ LinkRing.last (k, K)) (hn : n ≠ LinkRing.first (k, K)) :
    ivListSpliceBetween k (some p) (some n) m
      = .ok ((m.link (LinkRing.last (k, K)) n).link p (LinkRing.first (k, K))) := by
  have hnext : m.next k = some (LinkRing.first (k, K)) := hr.next_head
  have hprev : m.prev k = some (LinkRing.last (k, K)) := hr.prev_head
  simp only [ivListSpliceBetween, hnext, hprev, derefCell_some, ok_bind]
  congr 1
  ext1
  · exact Function.update_comm hp _ _ _
  · exact Function.update_comm hn.symm _ _ _

end Links

/-! ### The operations on rings -/

section Rings

variable {m : ListHeap} {R : List (LinkRing ListPtr)} {a h k : ListPtr} {L K : List ListPtr}

lemma perm_spliceFront (X : List ListPtr) :
    (K ++ (h :: L ++ X)).Perm (h :: (K ++ L) ++ X) := by
  rw [List.cons_append, List.cons_append, List.append_assoc]
  exact List.perm_middle

lemma perm_spliceBack (X : List ListPtr) :
    (K ++ (h :: L ++ X)).Perm (h :: (L ++ K) ++ X) :=
  (perm_spliceFront X).trans ((List.perm_append_comm.append_right X).cons h)

lemma rings_add (hm : Rings m ((h, L) :: R)) (ha : a ∉ ((h, L) :: R).flatMap LinkRing.cells) :
    ∃ m', ivListAdd a h m = .ok m' ∧ Rings m' ((h, a :: L) :: R) := by
  have hr := hm.ring _ List.mem_cons_self
  have hnodup := List.nodup_cons.mpr ⟨ha, hm.nodup⟩
  rw [List.flatMap_cons, List.mem_append, not_or] at ha
  refine ⟨_, ivListAdd_eq hr ha.1, Rings.cons ?_
    (hr.insertFront (.singleton a) rfl (List.nil_append [a]).symm ?_)
    ((perm_spliceFront (K := [a]) _).nodup_iff.mp hnodup)⟩
  · exact (hm.tail.link ha.2 (hm.not_mem_tail (LinkRing.first_mem_cells _))).link
      (hm.not_mem_tail List.mem_cons_self) ha.2
  · exact List.nodup_cons.mpr ⟨ha.1, hm.nodup_head⟩

lemma rings_addTail (hm : Rings m ((h, L) :: R)) (ha : a ∉ ((h, L) :: R).flatMap LinkRing.cells) :
    ∃ m', ivListAddTail a h m = .ok m' ∧ Rings m' ((h, L ++ [a]) :: R) := by
  have hr := hm.ring _ List.mem_cons_self
  have hnodup := List.nodup_cons.mpr ⟨ha, hm.nodup⟩
  rw [List.flatMap_cons, List.mem_append, not_or] at ha
  refine ⟨_, ivListAddTail_eq hr ha.1, Rings.cons ?_
    (hr.insertBack (.singleton a) rfl (List.nil_append [a]).symm ?_)
    ((perm_spliceBack (K := [a]) _).nodup_iff.mp hnodup)⟩
  · exact (hm.tail.link (hm.not_mem_tail (LinkRing.last_mem_cells _)) ha.2).link ha.2
      (hm.not_mem_tail List.mem_cons_self)
  · exact List.nodup_cons.mpr ⟨ha.1, hm.nodup_head⟩

/-- An element is taken out, and nothing points to it any more. -/
lemma rings_unlink (hm : Rings m ((h, L ++ a :: K) :: R)) :
    ∃ m', listUnlink a m = .ok m' ∧ Rings m' ((h, L ++ K) :: R) ∧
      a ∉ ((h, L ++ K) :: R).flatMap LinkRing.cells := by
  have hr := hm.ring _ List.mem_cons_self
  obtain ⟨-, hprev, hnext, -⟩ := hr.split
  have hperm : (LinkRing.cells (h, L ++ a :: K) ++ R.flatMap LinkRing.cells).Perm
      (a :: (LinkRing.cells (h, L ++ K) ++ R.flatMap LinkRing.cells)) := by
    have hmid : (L ++ a :: K).Perm (a :: (L ++ K)) := List.perm_middle
    exact ((hmid.cons h).trans (List.Perm.swap a h _)).append_right _
  obtain ⟨hnot, hnodup⟩ := List.nodup_cons.mp (hperm.nodup_iff.mp hm.nodup_append)
  have hp : LinkRing.last (h, L) ∈ LinkRing.cells (h, L ++ a :: K) :=
    List.cons_subset_cons h (List.subset_append_left L _) (LinkRing.last_mem_cells (h, L))
  have hn : LinkRing.first (h, K) ∈ LinkRing.cells (h, L ++ a :: K) := by
    have hsub : K ⊆ L ++ a :: K := fun x hx => by simp [hx]
    exact List.cons_subset_cons h hsub (LinkRing.first_mem_cells (h, K))
  exact ⟨_, listUnlink_eq hprev.2 hnext.1, (hm.tail.link (hm.not_mem_tail hp)
    (hm.not_mem_tail hn)).cons (hr.remove hm.nodup_head) hnodup, hnot⟩

lemma rings_clear (hm : Rings m R) (ha : a ∉ R.flatMap LinkRing.cells) :
    Rings ((m.setPrev a none).setNext a none) R :=
  hm.congr fun _ hz => ⟨Function.update_of_ne (ne_of_mem_of_not_mem hz ha) _ _,
    Function.update_of_ne (ne_of_mem_of_not_mem hz ha) _ _⟩

lemma rings_init (hm : Rings m R) (ha : a ∉ R.flatMap LinkRing.cells) :
    Rings (initIvListHead a m) ((a, []) :: R) :=
  (hm.link ha ha).cons (LinkRing.in_link_self m a) (List.nodup_cons.mpr ⟨ha, hm.nodup⟩)

/-- Taking out a cell that is linked to itself changes nothing. -/
lemma listUnlink_self (hm : Rings m ((a, []) :: R)) : listUnlink a m = .ok m := by
  have hr := List.isChain_pair.mp (hm.ring _ List.mem_cons_self)
  rw [listUnlink_eq hr.2 hr.1]
  congr 1
  ext1
  · exact Function.update_eq_self_iff.mpr hr.1.symm
  · exact Function.update_eq_self_iff.mpr hr.2.symm

/-- A list is put between two neighbours of another. -/
lemma rings_splice {p q : ListPtr} {L' : List ListPtr} (hm : Rings m ((k, K) :: (h, L) :: R))
    (hp : p ∈ LinkRing.cells (h, L)) (hq : q ∈ LinkRing.cells (h, L))
    (hperm : ∀ X : List ListPtr, (K ++ (h :: L ++ X)).Perm (h :: L' ++ X))
    (hring : (K ++ h :: L).Nodup →
      LinkRing.In ((m.link (LinkRing.last (k, K)) q).link p (LinkRing.first (k, K))) (h, L')) :
    ∃ m', ivListSpliceBetween k (some p) (some q) m = .ok m' ∧
      Rings m' ((h, L') :: R) ∧ k ∉ ((h, L') :: R).flatMap LinkRing.cells := by
  obtain ⟨hkY, hY⟩ := List.nodup_cons.mp hm.nodup_append
  have hlast := hm.not_mem_second (LinkRing.last_mem_cells (k, K))
  have hfirst := hm.not_mem_second (LinkRing.first_mem_cells (k, K))
  refine ⟨_, ivListSpliceBetween_eq (hm.ring _ List.mem_cons_self)
    (ne_of_mem_of_not_mem hp hlast.1) (ne_of_mem_of_not_mem hq hfirst.1), Rings.cons ?_ (hring ?_)
    ((hperm _).nodup_iff.mp hY), fun hmem => hkY ((hperm _).mem_iff.mpr hmem)⟩
  · exact (hm.tail.tail.link hlast.2 (hm.tail.not_mem_tail hq)).link (hm.tail.not_mem_tail hp)
      hfirst.2
  · exact hY.sublist ((List.sublist_append_left _ _).append_left _)

lemma rings_spliceFront (hm : Rings m ((k, K) :: (h, L) :: R)) (hK : K ≠ []) :
    ∃ m', ivListSpliceBetween k (some h) (m.next h) m = .ok m' ∧
      Rings m' ((h, K ++ L) :: R) ∧ k ∉ ((h, K ++ L) :: R).flatMap LinkRing.cells := by
  have hr := hm.tail.ring _ List.mem_cons_self
  obtain ⟨K₁, hx⟩ := LinkRing.exists_eq_first_cons (r := (k, K)) hK
  obtain ⟨K₂, hy⟩ := LinkRing.exists_eq_append_last (r := (k, K)) hK
  have hnext : m.next h = some (LinkRing.first (h, L)) := hr.next_head
  rw [hnext]
  exact rings_splice hm List.mem_cons_self (LinkRing.first_mem_cells _) perm_spliceFront
    (hr.insertFront (hm.ring _ List.mem_cons_self).path hx hy)

lemma rings_spliceBack (hm : Rings m ((k, K) :: (h, L) :: R)) (hK : K ≠ []) :
    ∃ m', ivListSpliceBetween k (m.prev h) (some h) m = .ok m' ∧
      Rings m' ((h, L ++ K) :: R) ∧ k ∉ ((h, L ++ K) :: R).flatMap LinkRing.cells := by
  have hr := hm.tail.ring _ List.mem_cons_self
  obtain ⟨K₁, hx⟩ := LinkRing.exists_eq_first_cons (r := (k, K)) hK
  obtain ⟨K₂, hy⟩ := LinkRing.exists_eq_append_last (r := (k, K)) hK
  have hprev : m.prev h = some (LinkRing.last (h, L)) := hr.prev_head
  have hne : LinkRing.last (h, L) ≠ LinkRing.last (k, K) := ne_of_mem_of_not_mem
    (LinkRing.last_mem_cells _) (hm.not_mem_second (LinkRing.last_mem_cells _)).1
  have hne' : h ≠ LinkRing.first (k, K) := ne_of_mem_of_not_mem List.mem_cons_self
    (hm.not_mem_second (LinkRing.first_mem_cells _)).1
  rw [hprev]
  refine rings_splice hm (LinkRing.last_mem_cells _) List.mem_cons_self perm_spliceBack fun hY => ?_
  rw [Links.link_comm m hne.symm hne']
  exact hr.insertBack (hm.ring _ List.mem_cons_self).path hx hy hY

/-- `__iv_list_steal_elements` on an empty list: the writes through `first` and `last` go to `h`,
and it is from there that `a` gets its own address. -/
lemma ivListStealElements_nil (hr : LinkRing.In m (h, [])) (ha : a ≠ h) :
    ivListStealElements h a m = .ok ((m.link a a).link h h) := by
  have hnext : m.next h = some h := hr.next_head
  have hprev : m.prev h = some h := hr.prev_head
  simp only [ivListStealElements, hnext, hprev, derefCell_some, ok_bind]
  congr 1
  ext1
  · simp only [Links.setPrev_next, Links.setNext_next, Links.link_next, Function.update_self]
    rw [Function.update_comm ha, Function.update_idem, Function.update_comm ha.symm]
  · simp only [Links.setPrev_prev, Links.setNext_prev, Links.link_prev, Function.update_self]
    rw [Function.update_comm ha, Function.update_idem, Function.update_comm ha.symm]

/-- `__iv_list_steal_elements` puts the elements into an empty list at `a`. -/
lemma ivListStealElements_eq (hr : LinkRing.In m (h, L)) (ha : a ∉ h :: L)
    (hn : (h :: L).Nodup) (hL : L ≠ []) :
    ivListStealElements h a m = .ok
      ((((m.link a a).link (LinkRing.last (h, L)) a).link a (LinkRing.first (h, L))).link h h) := by
  have hnext : m.next h = some (LinkRing.first (h, L)) := hr.next_head
  have hprev : m.prev h = some (LinkRing.last (h, L)) := hr.prev_head
  obtain ⟨T, hT⟩ := LinkRing.exists_eq_first_cons (r := (h, L)) hL
  obtain ⟨I, hI⟩ := LinkRing.exists_eq_append_last (r := (h, L)) hL
  have hhL := (List.nodup_cons.mp hn).1
  have hf : h ≠ LinkRing.first (h, L) := fun heq => hhL (by rw [show L = _ from hT, ← heq]; simp)
  have hl : h ≠ LinkRing.last (h, L) := fun heq => hhL (by rw [show L = _ from hI, ← heq]; simp)
  have hla : LinkRing.last (h, L) ≠ a := ne_of_mem_of_not_mem (LinkRing.last_mem_cells _) ha
  simp only [ivListStealElements, hnext, hprev, derefCell_some, ok_bind]
  congr 1
  ext1
  · simp only [Links.setPrev_next, Links.setNext_next, Links.link_next, Function.update_of_ne hl,
      hnext]
    rw [Function.update_comm hla.symm, Function.update_idem]
  · simp only [Links.setPrev_prev, Links.setNext_prev, Links.link_prev, Function.update_of_ne hf,
      hprev, Function.update_idem]
    rw [Function.update_comm (ne_of_mem_of_not_mem (LinkRing.first_mem_cells _) ha)]

lemma rings_stealElements (hm : Rings m ((h, L) :: R))
    (ha : a ∉ ((h, L) :: R).flatMap LinkRing.cells) :
    ∃ m', ivListStealElements h a m = .ok m' ∧ Rings m' ((h, []) :: (a, L) :: R) := by
  have hr := hm.ring _ List.mem_cons_self
  obtain ⟨hh, haL⟩ : h ∉ a :: (L ++ R.flatMap LinkRing.cells) ∧
      (a :: (L ++ R.flatMap LinkRing.cells)).Nodup :=
    List.nodup_cons.mp ((List.Perm.swap h a _).nodup_iff.mp (List.nodup_cons.mpr ⟨ha, hm.nodup⟩))
  rw [List.flatMap_cons, List.mem_append, not_or] at ha
  have hah : a ≠ h := (ne_of_mem_of_not_mem List.mem_cons_self ha.1).symm
  have hempty := rings_init hm.tail ha.2
  by_cases hL : L = []
  · subst hL
    exact ⟨_, ivListStealElements_nil hr hah, rings_init hempty hh⟩
  · obtain ⟨T, hT⟩ := LinkRing.exists_eq_first_cons (r := (h, L)) hL
    obtain ⟨I, hI⟩ := LinkRing.exists_eq_append_last (r := (h, L)) hL
    have haL' : a ∉ L := fun hmem => ha.1 (List.mem_cons_of_mem _ hmem)
    have hpath : LinkPath (m.link a a) L := hr.path.congr
      (fun x hx => Function.update_of_ne
        (ne_of_mem_of_not_mem (List.dropLast_subset _ hx) haL') _ _)
      fun x hx => Function.update_of_ne (ne_of_mem_of_not_mem (List.mem_of_mem_tail hx) haL') _ _
    have hself := hempty.ring _ List.mem_cons_self
    have hnew := LinkRing.In.insertFront hself hpath hT hI (by
      have hsub : (a :: L).Nodup := haL.sublist ((List.sublist_append_left L _).cons_cons a)
      exact (List.perm_append_singleton a L).nodup_iff.mpr hsub)
    rw [List.append_nil] at hnew
    have hlast := hm.not_mem_tail (LinkRing.last_mem_cells (h, L))
    have hfirst := hm.not_mem_tail (LinkRing.first_mem_cells (h, L))
    exact ⟨_, ivListStealElements_eq hr ha.1 hm.nodup_head hL, rings_init
      ((((hm.tail.link ha.2 ha.2).link hlast ha.2).link ha.2 hfirst).cons hnew haL) hh⟩

end Rings

/-! ### Sequences -/

/-- The lists of a heap as sequences: the elements of the list at each head. A cell that is linked
to itself is the head of an empty list. -/
abbrev SeqHeap := ListPtr → Option (List ListPtr)

/-- `a` is on no list and has none of its own, or an empty one. -/
def Loose (A : SeqHeap) (a : ListPtr) : Prop :=
  (A a = none ∨ A a = some []) ∧ ∀ h L, A h = some L → a ∉ L

open Function in
/-- What the operations mean for sequences. A head that has lost its elements without being
initialised again heads no list. -/
inductive SeqStep (A : SeqHeap) : ListOp → SeqHeap → Prop
  | init {a} : Loose A a →
      SeqStep A (.init a) (update A a (some []))
  | add {a h L} : Loose A a → a ≠ h → A h = some L →
      SeqStep A (.add a h) (update (update A a none) h (some (a :: L)))
  | addTail {a h L} : Loose A a → a ≠ h → A h = some L →
      SeqStep A (.addTail a h) (update (update A a none) h (some (L ++ [a])))
  | del {a h L K} : A h = some (L ++ a :: K) →
      SeqStep A (.del a) (update A h (some (L ++ K)))
  | delSelf {a} : A a = some [] →
      SeqStep A (.del a) (update A a none)
  | delInit {a h L K} : A h = some (L ++ a :: K) →
      SeqStep A (.delInit a) (update (update A h (some (L ++ K))) a (some []))
  | delInitSelf {a} : A a = some [] →
      SeqStep A (.delInit a) A
  | splice {k h K L} : k ≠ h → A k = some K → A h = some L →
      SeqStep A (.splice k h)
        (update (update A h (some (K ++ L))) k (if K = [] then some [] else none))
  | spliceInit {k h K L} : k ≠ h → A k = some K → A h = some L →
      SeqStep A (.spliceInit k h) (update (update A h (some (K ++ L))) k (some []))
  | spliceTail {k h K L} : k ≠ h → A k = some K → A h = some L →
      SeqStep A (.spliceTail k h)
        (update (update A h (some (L ++ K))) k (if K = [] then some [] else none))
  | spliceTailInit {k h K L} : k ≠ h → A k = some K → A h = some L →
      SeqStep A (.spliceTailInit k h) (update (update A h (some (L ++ K))) k (some []))
  | stealElements {o n L} : Loose A n → n ≠ o → A o = some L →
      SeqStep A (.stealElements o n) (update (update A n (some L)) o (some []))

/-- The rings of `R` are the lists of `A`. -/
def Models (R : List (LinkRing ListPtr)) (A : SeqHeap) : Prop :=
  ∀ h L, A h = some L ↔ (h, L) ∈ R

/-- The heap holds the lists of `A`, as rings that share no cells. -/
def Represents (m : ListHeap) (A : SeqHeap) : Prop :=
  ∃ R, Rings m R ∧ Models R A

namespace Models

variable {R R' : List (LinkRing ListPtr)} {A : SeqHeap} {h : ListPtr} {L L' : List ListPtr}

lemma perm (hA : Models R A) (hR : R.Perm R') : Models R' A :=
  fun h L => (hA h L).trans hR.mem_iff

lemma cons (hA : Models R A) (hh : h ∉ R.flatMap LinkRing.cells) :
    Models ((h, L) :: R) (Function.update A h (some L)) := by
  intro h' L'
  rw [Function.update_apply, List.mem_cons, Prod.mk.injEq]
  split_ifs with heq
  · subst heq
    have hnot : (h', L') ∉ R := fun hmem =>
      hh (List.mem_flatMap.mpr ⟨_, hmem, List.mem_cons_self⟩)
    simp [hnot, eq_comm]
  · simp [heq, hA h' L']

lemma tail (hA : Models ((h, L) :: R) A) (hh : h ∉ R.flatMap LinkRing.cells) :
    Models R (Function.update A h none) := by
  intro h' L'
  rw [Function.update_apply]
  split_ifs with heq
  · subst heq
    have hnot : (h', L') ∉ R := fun hmem =>
      hh (List.mem_flatMap.mpr ⟨_, hmem, List.mem_cons_self⟩)
    simp [hnot]
  · rw [hA h' L']
    simp [heq]

lemma replace (hA : Models ((h, L) :: R) A) (hh : h ∉ R.flatMap LinkRing.cells) :
    Models ((h, L') :: R) (Function.update A h (some L')) := by
  have hcons := (hA.tail hh).cons (L := L') hh
  rwa [Function.update_idem] at hcons

/-- A cell that is neither a head nor on a list is in no ring. -/
lemma not_mem {a : ListPtr} (hA : Models R A) (ha : A a = none)
    (hon : ∀ h L, A h = some L → a ∉ L) : a ∉ R.flatMap LinkRing.cells := by
  intro hmem
  obtain ⟨⟨h, L⟩, hr, hcell⟩ := List.mem_flatMap.mp hmem
  have hh := (hA h L).mpr hr
  rcases List.mem_cons.mp hcell with rfl | hcell
  · cases ha.symm.trans hh
  · exact hon h L hh hcell

/-- Two lists have become one, with the elements `L'`. -/
lemma splice {k : ListPtr} {K : List ListPtr} (hA : Models ((k, K) :: (h, L) :: R) A)
    (hk : k ∉ ((h, L) :: R).flatMap LinkRing.cells) (hh : h ∉ R.flatMap LinkRing.cells) :
    Models ((h, L') :: R) (Function.update (Function.update A h (some L')) k none) := by
  have hkh : h ≠ k := fun heq => hk (by simp [LinkRing.cells, heq])
  rw [Function.update_comm hkh]
  exact (hA.tail hk).replace hh

end Models

lemma Loose.not_mem {A : SeqHeap} {a : ListPtr} {R : List (LinkRing ListPtr)} (ha : Loose A a)
    (hA : Models R (Function.update A a none)) : a ∉ R.flatMap LinkRing.cells := by
  refine hA.not_mem (Function.update_self ..) fun h L hh => ha.2 h L ?_
  rw [Function.update_apply] at hh
  split_ifs at hh
  exact hh

namespace Represents

variable {m : ListHeap} {A A' : SeqHeap} {a h k : ListPtr} {L K : List ListPtr}

lemma focus (hm : Represents m A) (hh : A h = some L) :
    ∃ R, Rings m ((h, L) :: R) ∧ Models ((h, L) :: R) A := by
  obtain ⟨R, hR, hA⟩ := hm
  have hperm := List.perm_cons_erase ((hA h L).mp hh)
  exact ⟨_, hR.perm hperm, hA.perm hperm⟩

lemma focusTwo (hm : Represents m A) (hkh : k ≠ h) (hk : A k = some K) (hh : A h = some L) :
    ∃ R, Rings m ((k, K) :: (h, L) :: R) ∧ Models ((k, K) :: (h, L) :: R) A := by
  obtain ⟨R, hR, hA⟩ := hm.focus hk
  have hmem : (h, L) ∈ R := by
    have hmem := (hA h L).mp hh
    simpa [hkh.symm] using hmem
  have hperm := (List.perm_cons_erase hmem).cons (k, K)
  exact ⟨_, hR.perm hperm, hA.perm hperm⟩

lemma forget (hm : Represents m A) (ha : Loose A a) :
    Represents m (Function.update A a none) := by
  rcases ha.1 with hnone | hempty
  · rwa [Function.update_eq_self_iff.mpr hnone.symm]
  · obtain ⟨R, hR, hA⟩ := hm.focus hempty
    exact ⟨R, hR.tail, hA.tail (hR.not_mem_tail List.mem_cons_self)⟩

/-- A loose cell can be put on a list, by an operation that does so for rings. -/
lemma insert {f : ListHeap → Except Fault ListHeap} {L' : List ListPtr} (hm : Represents m A)
    (ha : Loose A a) (hne : a ≠ h) (hh : A h = some L)
    (hf : ∀ R, Rings m ((h, L) :: R) → a ∉ ((h, L) :: R).flatMap LinkRing.cells →
      ∃ m', f m = .ok m' ∧ Rings m' ((h, L') :: R)) :
    ∃ m', f m = .ok m' ∧
      Represents m' (Function.update (Function.update A a none) h (some L')) := by
  have hh' : Function.update A a none h = some L := by
    rw [Function.update_of_ne hne.symm, hh]
  obtain ⟨R, hR, hA⟩ := (hm.forget ha).focus hh'
  obtain ⟨m', heq, hR'⟩ := hf R hR (ha.not_mem hA)
  exact ⟨m', heq, _, hR', hA.replace (hR.not_mem_tail List.mem_cons_self)⟩

lemma del (hm : Represents m A) (hh : A h = some (L ++ a :: K)) :
    ∃ m', ivListDel a m = .ok m' ∧ Represents m' (Function.update A h (some (L ++ K))) := by
  obtain ⟨R, hR, hA⟩ := hm.focus hh
  obtain ⟨m', heq, hR', hnot⟩ := rings_unlink hR
  refine ⟨_, ?_, _, rings_clear hR' hnot, hA.replace (hR.not_mem_tail List.mem_cons_self)⟩
  rw [ivListDel, heq, ok_bind]

lemma delInit (hm : Represents m A) (hh : A h = some (L ++ a :: K)) :
    ∃ m', ivListDelInit a m = .ok m' ∧
      Represents m' (Function.update (Function.update A h (some (L ++ K))) a (some [])) := by
  obtain ⟨R, hR, hA⟩ := hm.focus hh
  obtain ⟨m', heq, hR', hnot⟩ := rings_unlink hR
  refine ⟨_, ?_, _, rings_init hR' hnot,
    (hA.replace (hR.not_mem_tail List.mem_cons_self)).cons hnot⟩
  rw [ivListDelInit, heq, ok_bind]

/-- An empty list is spliced by doing nothing. -/
lemma splice_nil (hm : Represents m A) (hk : A k = some []) (hh : A h = some L) :
    ivListEmpty k m = true ∧
      Represents m (Function.update (Function.update A h (some L)) k (some [])) := by
  obtain ⟨R, hR, -⟩ := hm.focus hk
  refine ⟨by simp [ivListEmpty_eq (hR.ring _ List.mem_cons_self) hR.nodup_head], ?_⟩
  have hh' : Function.update A h (some L) = A := Function.update_eq_self_iff.mpr hh.symm
  have hk' : Function.update A k (some []) = A := Function.update_eq_self_iff.mpr hk.symm
  rwa [hh', hk']

/-- The four splices of a non-empty list, with the outcome for rings. -/
lemma splice_cons {f : ListHeap → Except Fault ListHeap} {L' : List ListPtr}
    (hm : Represents m A) (hkh : k ≠ h) (hk : A k = some K) (hh : A h = some L) (hK : K ≠ [])
    (hf : ∀ R, Rings m ((k, K) :: (h, L) :: R) → ∃ m', f m = .ok m' ∧
      Rings m' ((h, L') :: R) ∧ k ∉ ((h, L') :: R).flatMap LinkRing.cells) :
    ivListEmpty k m = false ∧ ∃ m', f m = .ok m' ∧
      Represents m' (Function.update (Function.update A h (some L')) k none) ∧
      Represents (initIvListHead k m')
        (Function.update (Function.update A h (some L')) k (some [])) := by
  obtain ⟨R, hR, hA⟩ := hm.focusTwo hkh hk hh
  obtain ⟨m', heq, hR', hnot⟩ := hf R hR
  have hA' : Models ((h, L') :: R) (Function.update (Function.update A h (some L')) k none) :=
    hA.splice (hR.not_mem_tail List.mem_cons_self) (hR.tail.not_mem_tail List.mem_cons_self)
  refine ⟨by simp [ivListEmpty_eq (hR.ring _ List.mem_cons_self) hR.nodup_head, hK], m', heq,
    ⟨_, hR', hA'⟩, _, rings_init hR' hnot, ?_⟩
  have hcons := hA'.cons (L := []) hnot
  rwa [Function.update_idem] at hcons

lemma stealElements (hm : Represents m A) (ha : Loose A a) (hne : a ≠ h) (hh : A h = some L) :
    ∃ m', ivListStealElements h a m = .ok m' ∧
      Represents m' (Function.update (Function.update A a (some L)) h (some [])) := by
  have hh' : Function.update A a none h = some L := by
    rw [Function.update_of_ne hne.symm, hh]
  obtain ⟨R, hR, hA⟩ := (hm.forget ha).focus hh'
  have hnot := ha.not_mem hA
  obtain ⟨m', heq, hR'⟩ := rings_stealElements hR hnot
  refine ⟨m', heq, _, hR', ?_⟩
  rw [List.flatMap_cons, List.mem_append, not_or] at hnot
  have hA' := ((hA.tail (hR.not_mem_tail List.mem_cons_self)).cons (L := L) hnot.2).cons (L := [])
    (hR'.not_mem_tail List.mem_cons_self)
  rwa [Function.update_comm hne.symm, Function.update_idem, Function.update_idem] at hA'

/-- Every operation does to the rings what it means for the sequences. -/
theorem step {op : ListOp} (hm : Represents m A) (hstep : SeqStep A op A') :
    ∃ m', listStep m op = .ok m' ∧ Represents m' A' := by
  cases hstep with
  | @init a ha =>
    obtain ⟨R, hR, hA⟩ := hm.forget ha
    have hnot := ha.not_mem hA
    have hcons := hA.cons (L := []) hnot
    rw [Function.update_idem] at hcons
    exact ⟨_, rfl, _, rings_init hR hnot, hcons⟩
  | add ha hne hh => exact hm.insert ha hne hh fun R hR hnot => rings_add hR hnot
  | addTail ha hne hh => exact hm.insert ha hne hh fun R hR hnot => rings_addTail hR hnot
  | del hh => exact hm.del hh
  | @delSelf a ha =>
    obtain ⟨R, hR, hA⟩ := hm.focus ha
    have hnot := hR.not_mem_tail List.mem_cons_self
    refine ⟨_, ?_, _, rings_clear hR.tail hnot, hA.tail hnot⟩
    rw [listStep, ivListDel, listUnlink_self hR, ok_bind]
  | delInit hh => exact hm.delInit hh
  | @delInitSelf a ha =>
    obtain ⟨R, hR, hA⟩ := hm.focus ha
    refine ⟨_, ?_, _, rings_init hR.tail (hR.not_mem_tail List.mem_cons_self), hA⟩
    rw [listStep, ivListDelInit, listUnlink_self hR, ok_bind]
  | @splice k h K L hkh hk hh =>
    by_cases hK : K = []
    · subst hK
      obtain ⟨hempty, hm'⟩ := hm.splice_nil hk hh
      exact ⟨m, by simp [listStep, ivListSplice, hempty], hm'⟩
    · obtain ⟨hempty, m', heq, hm', -⟩ := hm.splice_cons hkh hk hh hK fun R hR =>
        rings_spliceFront hR hK
      exact ⟨m', by simp [listStep, ivListSplice, hempty, heq], by rwa [if_neg hK]⟩
  | @spliceInit k h K L hkh hk hh =>
    by_cases hK : K = []
    · subst hK
      obtain ⟨hempty, hm'⟩ := hm.splice_nil hk hh
      exact ⟨m, by simp [listStep, ivListSpliceInit, hempty], hm'⟩
    · obtain ⟨hempty, m', heq, -, hm'⟩ := hm.splice_cons hkh hk hh hK fun R hR =>
        rings_spliceFront hR hK
      exact ⟨_, by simp [listStep, ivListSpliceInit, hempty, heq], hm'⟩
  | @spliceTail k h K L hkh hk hh =>
    by_cases hK : K = []
    · subst hK
      obtain ⟨hempty, hm'⟩ := hm.splice_nil hk hh
      exact ⟨m, by simp [listStep, ivListSpliceTail, hempty], by rwa [if_pos rfl, List.append_nil]⟩
    · obtain ⟨hempty, m', heq, hm', -⟩ := hm.splice_cons hkh hk hh hK fun R hR =>
        rings_spliceBack hR hK
      exact ⟨m', by simp [listStep, ivListSpliceTail, hempty, heq], by rwa [if_neg hK]⟩
  | @spliceTailInit k h K L hkh hk hh =>
    by_cases hK : K = []
    · subst hK
      obtain ⟨hempty, hm'⟩ := hm.splice_nil hk hh
      exact ⟨m, by simp [listStep, ivListSpliceTailInit, hempty], by rwa [List.append_nil]⟩
    · obtain ⟨hempty, m', heq, -, hm'⟩ := hm.splice_cons hkh hk hh hK fun R hR =>
        rings_spliceBack hR hK
      exact ⟨_, by simp [listStep, ivListSpliceTailInit, hempty, heq], hm'⟩
  | stealElements ha hne hh => exact hm.stealElements ha hne hh

end Represents

/-- In the cells `C` of a list, `next` and `prev` are inverse to each other. -/
def MutuallyInverse (m : ListHeap) (C : List ListPtr) : Prop :=
  ∀ x ∈ C, (∃ y ∈ C, m.next x = some y ∧ m.prev y = some x) ∧
    ∃ y ∈ C, m.prev x = some y ∧ m.next y = some x

lemma Represents.mutuallyInverse {m : ListHeap} {A : SeqHeap} {h : ListPtr} {L : List ListPtr}
    (hm : Represents m A) (hh : A h = some L) : MutuallyInverse m (h :: L) := by
  obtain ⟨R, hR, -⟩ := hm.focus hh
  have hr := hR.ring _ List.mem_cons_self
  intro x hx
  obtain ⟨y, hy, hxy⟩ := hr.next hx
  obtain ⟨z, hz, hzx⟩ := hr.prev hx
  exact ⟨⟨y, hy, hxy⟩, z, hz, hzx.symm⟩

/-! ### Runs -/

/-- A sequence of operations and what it means for sequences. -/
inductive SeqRun : SeqHeap → List ListOp → SeqHeap → Prop
  | nil {A} : SeqRun A [] A
  | cons {A A₁ A₂ op ops} : SeqStep A op A₁ → SeqRun A₁ ops A₂ → SeqRun A (op :: ops) A₂

/-- Memory that nothing has been initialised in holds no lists. -/
lemma represents_nothing (m : ListHeap) : Represents m fun _ => none :=
  ⟨[], ⟨List.nodup_nil, fun _ hr => absurd hr List.not_mem_nil⟩, fun _ _ => by simp⟩

theorem Represents.run {m : ListHeap} {A A' : SeqHeap} {ops : List ListOp} (hm : Represents m A)
    (hrun : SeqRun A ops A') :
    ∃ m', ops.foldlM listStep m = .ok m' ∧ Represents m' A' := by
  induction hrun generalizing m with
  | nil => exact ⟨m, rfl, hm⟩
  | cons hstep _ ih =>
    obtain ⟨m₁, heq, hm₁⟩ := hm.step hstep
    obtain ⟨m', heq', hm'⟩ := ih hm₁
    exact ⟨m', by rw [List.foldlM_cons, heq, ok_bind, heq'], hm'⟩

/-- The operations of `iv_list.h` refine those on sequences, in any heap of lists that share no
cells: the lists that an operation names change as the sequences do, and no other list changes. -/
theorem ivList_refines {m : ListHeap} {A A' : SeqHeap} {op : ListOp} (hm : Represents m A)
    (hstep : SeqStep A op A') :
    ∃ m', listStep m op = .ok m' ∧ Represents m' A' ∧
      ∀ h L, A' h = some L → MutuallyInverse m' (h :: L) := by
  obtain ⟨m', heq, hm'⟩ := hm.step hstep
  exact ⟨m', heq, hm', fun h L hh => hm'.mutuallyInverse hh⟩

/-- An empty list at `1` and the list of `4` at `3`. -/
def twoSeqs : SeqHeap := fun p => if p = 1 then some [] else if p = 3 then some [4] else none

def twoLists : ListHeap where
  next p := if p = 1 then some 1 else if p = 3 then some 4 else if p = 4 then some 3 else none
  prev p := if p = 1 then some 1 else if p = 3 then some 4 else if p = 4 then some 3 else none

lemma twoLists_represents : Represents twoLists twoSeqs := by
  refine ⟨[(1, []), (3, [4])], ⟨by decide, ?_⟩, fun h L => ?_⟩
  · simp [LinkRing.In, LinkPath, Linked, twoLists]
  · simp only [twoSeqs, List.mem_cons, Prod.mk.injEq, List.not_mem_nil, or_false]
    split_ifs with h1 h3
    · simp [h1, eq_comm]
    · simp [h3, eq_comm]
    · simp [h1, h3]

/-- The empty list at `1` is moved to `2`, next to the list at `3`. -/
theorem ivList_refines_emptySource :
    ∃ m' A', listStep twoLists (.stealElements 1 2) = .ok m' ∧ Represents m' A' ∧
      A' 1 = some [] ∧ A' 2 = some [] ∧ A' 3 = some [4] ∧ MutuallyInverse m' [3, 4] := by
  have hloose : Loose twoSeqs 2 := by
    refine ⟨Or.inl rfl, fun h L hh => ?_⟩
    rw [twoSeqs] at hh
    split_ifs at hh <;> simp [← Option.some.inj hh]
  obtain ⟨m', heq, hm', hinv⟩ := ivList_refines twoLists_represents
    (.stealElements (o := 1) hloose (by decide) rfl)
  exact ⟨m', _, heq, hm', rfl, rfl, rfl, hinv 3 [4] rfl⟩

end Ivykis
