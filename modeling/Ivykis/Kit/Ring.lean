import Mathlib.Data.List.Chain
import Mathlib.Data.List.Flatten
import Mathlib.Data.List.Nodup
import Mathlib.Logic.Function.Basic

/-!
# Doubly linked rings

A store of cells with a `next` and a `prev` pointer each. A path is a list of cells each of which
is linked, in both directions, to the one after it. A ring is a head and the cells after it, on a
path that leads back to the head.

All changes of a ring come down to one operation: `Links.link x y` makes `y` the successor of `x`,
and thereby joins a path that ends in `x` and a path that begins with `y`.
-/

namespace Kit

/-- The pointers of all cells; `none` is a null pointer. -/
@[ext]
structure Links (α : Type*) where
  next : α → Option α
  prev : α → Option α

variable {α : Type*}

/-- The pointers between `x` and `y` lead from one to the other. -/
def Linked (m : Links α) (x y : α) : Prop :=
  m.next x = some y ∧ m.prev y = some x

/-- Each cell of the list is linked to the one after it. -/
def LinkPath (m : Links α) (l : List α) : Prop :=
  l.IsChain (Linked m)

/-- A head and the cells after it. -/
abbrev LinkRing (α : Type*) := α × List α

namespace LinkRing

def cells (r : LinkRing α) : List α := r.1 :: r.2

/-- The cell after the head. -/
def first (r : LinkRing α) : α := r.2.headD r.1

/-- The cell before the head. -/
def last (r : LinkRing α) : α := r.2.getLastD r.1

/-- The links of `r` are those of `m`. -/
def In (m : Links α) (r : LinkRing α) : Prop :=
  LinkPath m (r.1 :: (r.2 ++ [r.1]))

end LinkRing

/-- The store holds the rings of `R`, and no two of them share a cell. -/
structure Rings (m : Links α) (R : List (LinkRing α)) : Prop where
  nodup : (R.flatMap LinkRing.cells).Nodup
  ring  : ∀ r ∈ R, r.In m

/-! ### Writing pointers -/

section Write

variable [DecidableEq α]

namespace Links

def setNext (m : Links α) (x : α) (y : Option α) : Links α :=
  { m with next := Function.update m.next x y }

def setPrev (m : Links α) (x : α) (y : Option α) : Links α :=
  { m with prev := Function.update m.prev x y }

/-- Make `y` the successor of `x`. -/
def link (m : Links α) (x y : α) : Links α :=
  (m.setNext x (some y)).setPrev y (some x)

variable (m : Links α) (x y z : α) (p : Option α)

@[simp] lemma setNext_next : (m.setNext x p).next = Function.update m.next x p := rfl

@[simp] lemma setNext_prev : (m.setNext x p).prev = m.prev := rfl

@[simp] lemma setPrev_next : (m.setPrev x p).next = m.next := rfl

@[simp] lemma setPrev_prev : (m.setPrev x p).prev = Function.update m.prev x p := rfl

@[simp] lemma link_next : (m.link x y).next = Function.update m.next x (some y) := rfl

@[simp] lemma link_prev : (m.link x y).prev = Function.update m.prev y (some x) := rfl

end Links

lemma Links.link_comm (m : Links α) {x y x' y' : α} (hx : x ≠ x') (hy : y ≠ y') :
    (m.link x y).link x' y' = (m.link x' y').link x y := by
  ext1
  · exact Function.update_comm hx _ _ _
  · exact Function.update_comm hy _ _ _

lemma linked_link (m : Links α) (x y : α) : Linked (m.link x y) x y := by
  simp [Linked]

end Write

/-! ### Paths -/

namespace LinkPath

variable {m m' : Links α} {l A B : List α} {x y : α}

/-- A path depends on the `next` pointers of all its cells but the last, and on the `prev` pointers
of all but the first. -/
lemma congr (h : LinkPath m l) (hnext : ∀ x ∈ l.dropLast, m'.next x = m.next x)
    (hprev : ∀ x ∈ l.tail, m'.prev x = m.prev x) : LinkPath m' l := by
  induction l with
  | nil => exact .nil
  | cons x l ih =>
    cases l with
    | nil => exact .singleton x
    | cons y l =>
      obtain ⟨hxy, hpath⟩ := List.isChain_cons_cons.mp h
      refine List.isChain_cons_cons.mpr ⟨⟨?_, ?_⟩, ih hpath ?_ ?_⟩
      · rw [hnext x (by simp), hxy.1]
      · rw [hprev y (by simp), hxy.2]
      · intro z hz
        exact hnext z (by simp [hz])
      · intro z hz
        exact hprev z (by simp [List.mem_of_mem_tail hz])

lemma infix_of (h : LinkPath m l) (A B : List α) {l' : List α} (hl : l = A ++ l' ++ B) :
    LinkPath m l' :=
  List.IsChain.infix h ⟨A, B, hl.symm⟩

variable [DecidableEq α]

/-- Linking the last cell of one path to the first of another makes one path of the two. -/
theorem link (hA : LinkPath m (A ++ [x])) (hB : LinkPath m (y :: B)) (hxA : x ∉ A)
    (hxB : x ∉ (y :: B).dropLast) (hyA : y ∉ (A ++ [x]).tail) (hyB : y ∉ B) :
    LinkPath (m.link x y) (A ++ x :: y :: B) := by
  refine List.isChain_append_cons_cons.mpr ⟨?_, linked_link m x y, ?_⟩
  · refine hA.congr (fun z hz => ?_) fun z hz => ?_
    · rw [List.dropLast_concat] at hz
      exact Function.update_of_ne (ne_of_mem_of_not_mem hz hxA) _ _
    · exact Function.update_of_ne (ne_of_mem_of_not_mem hz hyA) _ _
  · refine hB.congr (fun z hz => ?_) fun z hz => ?_
    · exact Function.update_of_ne (ne_of_mem_of_not_mem hz hxB) _ _
    · exact Function.update_of_ne (ne_of_mem_of_not_mem hz hyB) _ _

end LinkPath

/-! ### Rings -/

namespace LinkRing.In

variable {m m' : Links α} {r : LinkRing α} {x : α}

lemma congr (h : r.In m)
    (hsame : ∀ x ∈ r.cells, m'.next x = m.next x ∧ m'.prev x = m.prev x) : r.In m' := by
  refine LinkPath.congr h (fun x hx => ?_) fun x hx => ?_
  · rw [← List.cons_append, List.dropLast_concat] at hx
    exact (hsame x hx).1
  · refine (hsame x ?_).2
    simpa [cells, or_comm] using hx

/-- Going forward from a cell of a ring and back leads to the cell. -/
lemma next (h : r.In m) (hx : x ∈ r.cells) : ∃ y ∈ r.cells, Linked m x y := by
  obtain ⟨A, B, hcells⟩ := List.append_of_mem hx
  obtain ⟨y, B', hB⟩ : ∃ y B', B ++ [r.1] = y :: B' :=
    List.exists_cons_of_ne_nil (by simp)
  have hpath : r.1 :: (r.2 ++ [r.1]) = A ++ x :: y :: B' := by
    rw [← List.cons_append]
    change r.cells ++ [r.1] = _
    rw [hcells, List.append_assoc, List.cons_append, hB]
  rw [In, hpath] at h
  refine ⟨y, ?_, (List.isChain_append_cons_cons.mp h).2.1⟩
  have hy : y ∈ B ++ [r.1] := by simp [hB]
  rw [List.mem_append, List.mem_singleton] at hy
  rcases hy with hy | rfl
  · simp [hcells, hy]
  · exact List.mem_cons_self

/-- Going back from a cell of a ring and forward again leads to the cell. -/
lemma prev (h : r.In m) (hx : x ∈ r.cells) : ∃ y ∈ r.cells, Linked m y x := by
  have hx' : x ∈ r.2 ++ [r.1] := by simpa [cells, or_comm] using hx
  obtain ⟨A, B, htail⟩ := List.append_of_mem hx'
  obtain ⟨A', y, hA⟩ : ∃ A' y, r.1 :: A = A' ++ [y] :=
    ⟨_, _, (List.dropLast_append_getLast (List.cons_ne_nil r.1 A)).symm⟩
  have hpath : r.1 :: (r.2 ++ [r.1]) = A' ++ y :: x :: B := by
    rw [htail, ← List.cons_append, hA, List.append_assoc, List.singleton_append]
  rw [In, hpath] at h
  refine ⟨y, ?_, (List.isChain_append_cons_cons.mp h).2.1⟩
  have hy : y ∈ r.1 :: A := by simp [hA]
  rcases List.mem_cons.mp hy with rfl | hy
  · exact List.mem_cons_self
  · have hmem : y ∈ (r.2 ++ [r.1]) := by simp [htail, hy]
    simpa [cells, or_comm] using hmem

end LinkRing.In

/-! ### Inserting into a ring and removing from it -/

namespace LinkRing

variable {m : Links α} {r : LinkRing α} {x y h : α} {S S₁ S₂ L K : List α}

lemma exists_first (r : LinkRing α) : ∃ T, r.2 ++ [r.1] = r.first :: T := by
  obtain ⟨h, L⟩ := r
  cases L with
  | nil => exact ⟨[], rfl⟩
  | cons a L => exact ⟨L ++ [h], rfl⟩

lemma exists_last (r : LinkRing α) : ∃ I, r.1 :: r.2 = I ++ [r.last] := by
  obtain ⟨h, L⟩ := r
  rcases List.eq_nil_or_concat L with rfl | ⟨I, a, rfl⟩
  · exact ⟨[], rfl⟩
  · exact ⟨h :: I, by simp [last]⟩

lemma exists_eq_first_cons (hr : r.2 ≠ []) : ∃ T, r.2 = r.first :: T := by
  obtain ⟨h, L⟩ := r
  obtain ⟨a, T, rfl⟩ := List.exists_cons_of_ne_nil hr
  exact ⟨T, rfl⟩

lemma exists_eq_append_last (hr : r.2 ≠ []) : ∃ I, r.2 = I ++ [r.last] := by
  obtain ⟨h, L⟩ := r
  obtain ⟨I, a, rfl⟩ := (List.eq_nil_or_concat L).resolve_left hr
  exact ⟨I, by simp [last]⟩

lemma first_mem_cells (r : LinkRing α) : r.first ∈ r.cells := by
  obtain ⟨T, hT⟩ := r.exists_first
  have hmem : r.first ∈ r.2 ++ [r.1] := by simp [hT]
  simpa [cells, or_comm] using hmem

lemma last_mem_cells (r : LinkRing α) : r.last ∈ r.cells := by
  obtain ⟨I, hI⟩ := r.exists_last
  simp [cells, hI]

lemma In.next_head (hr : r.In m) : m.next r.1 = some r.first := by
  obtain ⟨T, hT⟩ := r.exists_first
  rw [In, hT] at hr
  exact (List.isChain_cons_cons.mp hr).1.1

lemma In.prev_head (hr : r.In m) : m.prev r.1 = some r.last := by
  obtain ⟨I, hI⟩ := r.exists_last
  rw [In, ← List.cons_append, hI, List.append_assoc, List.singleton_append] at hr
  exact (List.isChain_append_cons_cons.mp hr).2.1.2

/-- A ring on both sides of the cell `x`. -/
lemma In.split (hr : In m (h, L ++ x :: K)) :
    LinkPath m (h :: L) ∧ Linked m (last (h, L)) x ∧ Linked m x (first (h, K)) ∧
      LinkPath m (K ++ [h]) := by
  obtain ⟨I, hI⟩ := exists_last (h, L)
  obtain ⟨T, hT⟩ := exists_first (h, K)
  simp only at hI hT
  have hpath : h :: (L ++ x :: K ++ [h]) = I ++ last (h, L) :: x :: first (h, K) :: T := by
    rw [List.append_assoc, List.cons_append, hT, ← List.cons_append, hI]
    simp
  rw [In, hpath, LinkPath, List.isChain_append_cons_cons, List.isChain_cons_cons] at hr
  obtain ⟨hfront, hprev, hnext, hback⟩ := hr
  exact ⟨hI ▸ hfront, hprev, hnext, hT ▸ hback⟩

/-- The cells of a ring without the head. -/
lemma In.path (hr : r.In m) : LinkPath m r.2 :=
  LinkPath.infix_of hr [r.1] [r.1] (by simp)

variable [DecidableEq α]

lemma in_link_self (m : Links α) (x : α) : In (m.link x x) (x, []) :=
  List.isChain_pair.mpr (linked_link m x x)

/-- Put the path `S`, from `x` to `y`, after the head. -/
theorem In.insertFront (hr : r.In m) (hS : LinkPath m S) (hx : S = x :: S₁) (hy : S = S₂ ++ [y])
    (hnodup : (S ++ r.cells).Nodup) :
    In ((m.link y r.first).link r.1 x) (r.1, S ++ r.2) := by
  obtain ⟨hSn, hrn, hdisj⟩ := List.nodup_append'.mp hnodup
  obtain ⟨T, hT⟩ := r.exists_first
  have hTn : (r.first :: T).Nodup := by
    rw [← hT, ← List.concat_eq_append, List.nodup_concat]
    exact List.nodup_cons.mp hrn
  have hTd : (r.first :: T).dropLast = r.2 := by rw [← hT, List.dropLast_concat]
  have hback : LinkPath m (r.first :: T) := by
    rw [← hT]
    exact List.IsChain.tail hr
  have hfront : LinkPath (m.link y r.first) (x :: (S₁ ++ r.first :: T)) := by
    have hjoin := LinkPath.link (hy ▸ hS) hback ?_ ?_ ?_ (List.nodup_cons.mp hTn).1
    · rw [← List.cons_append, ← hx, hy, List.append_assoc]
      exact hjoin
    · exact fun hmem => (List.nodup_append'.mp (hy ▸ hSn)).2.2 hmem (by simp)
    · rw [hTd]
      exact fun hmem => hdisj (a := y) (by simp [hy]) (List.mem_cons_of_mem _ hmem)
    · rw [← hy]
      exact fun hmem => hdisj (List.mem_of_mem_tail hmem) r.first_mem_cells
  have hhead : LinkPath (m.link y r.first) ([] ++ [r.1]) := .singleton r.1
  have hjoin := hhead.link hfront List.not_mem_nil ?_ List.not_mem_nil ?_
  · rw [In, List.append_assoc, hT, hx]
    exact hjoin
  · rw [← List.cons_append, ← hx, ← hT, ← List.append_assoc, List.dropLast_concat]
    rintro hmem
    rcases List.mem_append.mp hmem with hmem | hmem
    · exact hdisj hmem List.mem_cons_self
    · exact (List.nodup_cons.mp hrn).1 hmem
  · have hxS : x ∈ S := by simp [hx]
    rw [← hT]
    intro hmem
    rcases List.mem_append.mp hmem with hmem | hmem
    · exact (List.nodup_cons.mp (hx ▸ hSn)).1 hmem
    · exact hdisj hxS (by simpa [cells, or_comm] using hmem)

/-- Put the path `S`, from `x` to `y`, before the head. -/
theorem In.insertBack (hr : r.In m) (hS : LinkPath m S) (hx : S = x :: S₁) (hy : S = S₂ ++ [y])
    (hnodup : (S ++ r.cells).Nodup) :
    In ((m.link r.last x).link y r.1) (r.1, r.2 ++ S) := by
  obtain ⟨hSn, hrn, hdisj⟩ := List.nodup_append'.mp hnodup
  obtain ⟨I, hI⟩ := r.exists_last
  have hIn : (I ++ [r.last]).Nodup := hI ▸ hrn
  have hfront : LinkPath m (I ++ [r.last]) := by
    rw [← hI]
    exact LinkPath.infix_of hr [] [r.1] (by simp)
  have hjoin := LinkPath.link hfront (hx ▸ hS) ?_ ?_ ?_ (List.nodup_cons.mp (hx ▸ hSn)).1
  · have hall : LinkPath (m.link r.last x) ((r.1 :: r.2 ++ S₂) ++ [y]) := by
      rw [List.append_assoc, ← hy, hx, hI, List.append_assoc]
      exact hjoin
    have hjoin' := LinkPath.link hall (.singleton r.1) ?_ List.not_mem_nil ?_ List.not_mem_nil
    · rw [In, hy]
      simpa using hjoin'
    · intro hmem
      rcases List.mem_append.mp hmem with hmem | hmem
      · exact hdisj (a := y) (by simp [hy]) hmem
      · exact (List.nodup_append'.mp (hy ▸ hSn)).2.2 hmem (by simp)
    · intro hmem
      rw [List.append_assoc, ← hy, List.cons_append, List.tail_cons] at hmem
      rcases List.mem_append.mp hmem with hmem | hmem
      · exact (List.nodup_cons.mp hrn).1 hmem
      · exact hdisj hmem List.mem_cons_self
  · exact fun hmem => (List.nodup_append'.mp hIn).2.2 hmem (by simp)
  · rw [← hx]
    exact fun hmem => hdisj (List.dropLast_subset _ hmem) r.last_mem_cells
  · rw [← hI, List.tail_cons]
    exact fun hmem => hdisj (a := x) (by simp [hx]) (List.mem_cons_of_mem _ hmem)

/-- Take the cell `x` out. -/
theorem In.remove (hr : In m (h, L ++ x :: K)) (hnodup : (h :: (L ++ x :: K)).Nodup) :
    In (m.link (last (h, L)) (first (h, K))) (h, L ++ K) := by
  obtain ⟨hfront, -, -, hback⟩ := hr.split
  obtain ⟨I, hI⟩ := exists_last (h, L)
  obtain ⟨T, hT⟩ := exists_first (h, K)
  simp only at hI hT
  obtain ⟨hLn, hxKn, hdisj⟩ := List.nodup_append'.mp (show ((h :: L) ++ x :: K).Nodup from hnodup)
  have hLK : (h :: L).Disjoint K := fun y hy hyK => hdisj hy (List.mem_cons_of_mem _ hyK)
  have hKn : (K ++ [h]).Nodup := by
    rw [← List.concat_eq_append, List.nodup_concat]
    exact ⟨hLK List.mem_cons_self, (List.nodup_cons.mp hxKn).2⟩
  rw [hI] at hfront
  rw [hT] at hback
  have hjoin := LinkPath.link hfront hback ?_ ?_ ?_ (List.nodup_cons.mp (hT ▸ hKn)).1
  · rw [In]
    simp only [List.append_assoc]
    rw [hT, ← List.cons_append, hI, List.append_assoc]
    exact hjoin
  · exact fun hmem => (List.nodup_append'.mp (hI ▸ hLn)).2.2 hmem (by simp)
  · rw [← hT, List.dropLast_concat]
    exact fun hmem => hLK (last_mem_cells (h, L)) hmem
  · rw [← hI, List.tail_cons]
    intro hmem
    have hfirst := first_mem_cells (h, K)
    rcases List.mem_cons.mp hfirst with heq | hK
    · rw [heq] at hmem
      exact (List.nodup_cons.mp hLn).1 hmem
    · exact hLK (List.mem_cons_of_mem _ hmem) hK

end LinkRing

namespace Rings

variable {m m' : Links α} {R R' : List (LinkRing α)} {r : LinkRing α}

lemma perm (h : Rings m R) (hR : R.Perm R') : Rings m R' where
  nodup := (hR.flatMap_right LinkRing.cells).nodup_iff.mp h.nodup
  ring r hr := h.ring r (hR.mem_iff.mpr hr)

lemma tail (h : Rings m (r :: R)) : Rings m R where
  nodup := (List.nodup_append'.mp (by simpa using h.nodup)).2.1
  ring r hr := h.ring r (List.mem_cons_of_mem _ hr)

lemma nodup_append (h : Rings m (r :: R)) : (r.cells ++ R.flatMap LinkRing.cells).Nodup := by
  simpa using h.nodup

lemma nodup_head (h : Rings m (r :: R)) : r.cells.Nodup :=
  (List.nodup_append'.mp h.nodup_append).1

lemma not_mem_tail {x : α} (h : Rings m (r :: R)) (hx : x ∈ r.cells) :
    x ∉ R.flatMap LinkRing.cells :=
  (List.nodup_append'.mp h.nodup_append).2.2 hx

lemma not_mem_second {s : LinkRing α} {x : α} (h : Rings m (r :: s :: R)) (hx : x ∈ r.cells) :
    x ∉ s.cells ∧ x ∉ R.flatMap LinkRing.cells := by
  have hnot := h.not_mem_tail hx
  rwa [List.flatMap_cons, List.mem_append, not_or] at hnot

lemma congr (h : Rings m R)
    (hsame : ∀ x ∈ R.flatMap LinkRing.cells, m'.next x = m.next x ∧ m'.prev x = m.prev x) :
    Rings m' R where
  nodup := h.nodup
  ring r hr := (h.ring r hr).congr fun x hx => hsame x (List.mem_flatMap.mpr ⟨r, hr, hx⟩)

lemma cons (h : Rings m R) (hr : r.In m)
    (hnodup : (r.cells ++ R.flatMap LinkRing.cells).Nodup) : Rings m (r :: R) where
  nodup := by simpa using hnodup
  ring s hs := by
    rcases List.mem_cons.mp hs with rfl | hs
    · exact hr
    · exact h.ring s hs

/-- Linking cells that are in no ring changes no ring. -/
lemma link [DecidableEq α] {x y : α} (h : Rings m R) (hx : x ∉ R.flatMap LinkRing.cells)
    (hy : y ∉ R.flatMap LinkRing.cells) : Rings (m.link x y) R :=
  h.congr fun _ hz => ⟨Function.update_of_ne (ne_of_mem_of_not_mem hz hx) _ _,
    Function.update_of_ne (ne_of_mem_of_not_mem hz hy) _ _⟩

end Rings

end Kit
