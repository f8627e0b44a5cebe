import Mathlib.Data.Nat.Fib.Basic
import Mathlib.Tactic.Common
import Mathlib.Tactic.Linarith

/-!
# AVL trees with stored heights

Every node stores the height of its subtree. An update changes the subtree in one hole of a tree,
which leaves the heights stored on the path above the hole out of date, and a walk along that
path recalculates and rotates. The walk stops early, at the first node whose stored height comes
out unchanged.
-/

namespace Kit.Avl

/-- A binary tree whose nodes store a height, right or wrong. -/
inductive HTree (α : Type*) where
  | nil
  | node (l : HTree α) (a : α) (h : ℕ) (r : HTree α)

variable {α : Type*}

namespace HTree

/-- The height that the root stores. -/
def stored : HTree α → ℕ
  | nil          => 0
  | node _ _ h _ => h

/-- The height of a tree, whatever its nodes store. -/
def height : HTree α → ℕ
  | nil          => 0
  | node l _ _ r => 1 + max l.height r.height

/-- The in-order sequence. -/
def toList : HTree α → List α
  | nil          => []
  | node l a _ r => l.toList ++ a :: r.toList

/-- The label of the root. -/
def root : HTree α → Option α
  | nil          => none
  | node _ a _ _ => some a

/-- A node that stores what its children's stored heights give. -/
def join (l : HTree α) (a : α) (r : HTree α) : HTree α :=
  node l a (1 + max l.stored r.stored) r

/-- All stored heights are true and siblings differ by at most `1`. -/
def Valid : HTree α → Prop
  | nil          => True
  | node l _ h r => l.Valid ∧ r.Valid ∧ h = 1 + max l.stored r.stored ∧
      l.stored ≤ r.stored + 1 ∧ r.stored ≤ l.stored + 1

@[simp] lemma stored_nil : (nil : HTree α).stored = 0 := rfl

@[simp] lemma stored_node (l : HTree α) (a : α) (h : ℕ) (r : HTree α) :
    (node l a h r).stored = h := rfl

@[simp] lemma stored_join (l : HTree α) (a : α) (r : HTree α) :
    (join l a r).stored = 1 + max l.stored r.stored := rfl

@[simp] lemma toList_nil : (nil : HTree α).toList = [] := rfl

@[simp] lemma toList_node (l : HTree α) (a : α) (h : ℕ) (r : HTree α) :
    (node l a h r).toList = l.toList ++ a :: r.toList := rfl

@[simp] lemma toList_join (l : HTree α) (a : α) (r : HTree α) :
    (join l a r).toList = l.toList ++ a :: r.toList := rfl

@[simp] lemma root_nil : (nil : HTree α).root = none := rfl

@[simp] lemma root_node (l : HTree α) (a : α) (h : ℕ) (r : HTree α) :
    (node l a h r).root = some a := rfl

lemma mem_toList_node {l r : HTree α} {a x : α} {h : ℕ} :
    x ∈ (node l a h r).toList ↔ x ∈ l.toList ∨ x = a ∨ x ∈ r.toList := by
  simp

lemma nodup_node {l r : HTree α} {a : α} {h : ℕ} : (node l a h r).toList.Nodup ↔
    l.toList.Nodup ∧ r.toList.Nodup ∧ a ∉ l.toList ∧ a ∉ r.toList ∧
      ∀ x ∈ l.toList, x ∉ r.toList := by
  rw [toList_node, List.nodup_middle, List.nodup_cons, List.mem_append, not_or,
    List.nodup_append']
  simp only [List.Disjoint]
  tauto

lemma root_mem {t : HTree α} {a : α} (h : t.root = some a) : a ∈ t.toList := by
  cases t with
  | nil => cases h
  | node l b s r =>
    obtain rfl : b = a := Option.some.inj h
    simp

/-- The tree seen from behind. -/
def mirror : HTree α → HTree α
  | nil          => nil
  | node l a h r => node r.mirror a h l.mirror

@[simp] lemma toList_mirror (t : HTree α) : t.mirror.toList = t.toList.reverse := by
  induction t with
  | nil => rfl
  | node l a h r ihl ihr => simp [mirror, ihl, ihr]

@[simp] lemma height_mirror (t : HTree α) : t.mirror.height = t.height := by
  induction t with
  | nil => rfl
  | node l a h r ihl ihr => rw [mirror, height, height, ihl, ihr, max_comm]

@[simp] lemma root_mirror (t : HTree α) : t.mirror.root = t.root := by
  cases t <;> rfl

lemma valid_join {l r : HTree α} {a : α} (hl : l.Valid) (hr : r.Valid)
    (hlr : l.stored ≤ r.stored + 1) (hrl : r.stored ≤ l.stored + 1) : (join l a r).Valid :=
  ⟨hl, hr, rfl, hlr, hrl⟩

lemma Valid.stored_eq {t : HTree α} (h : t.Valid) : t.stored = t.height := by
  induction t with
  | nil => rfl
  | node l a s r ihl ihr =>
    obtain ⟨hl, hr, hs, -, -⟩ := h
    rw [stored_node, height, hs, ihl hl, ihr hr]

lemma Valid.eq_nil {t : HTree α} (h : t.Valid) (h0 : t.stored = 0) : t = nil := by
  cases t with
  | nil => rfl
  | node l a s r =>
    have hs := h.2.2.1
    simp only [stored_node] at h0
    omega

/-- The heights of siblings differ by at most `1`, whatever the nodes store. -/
def Balanced : HTree α → Prop
  | nil          => True
  | node l _ _ r => l.Balanced ∧ r.Balanced ∧ l.height ≤ r.height + 1 ∧ r.height ≤ l.height + 1

lemma Valid.balanced {t : HTree α} (h : t.Valid) : t.Balanced := by
  induction t with
  | nil => trivial
  | node l a s r ihl ihr =>
    obtain ⟨hl, hr, -, hlr, hrl⟩ := h
    rw [hl.stored_eq, hr.stored_eq] at hlr hrl
    exact ⟨ihl hl, ihr hr, hlr, hrl⟩

/-- The least number of nodes of a tree that is balanced. -/
theorem Balanced.fib_le {t : HTree α} (h : t.Balanced) :
    Nat.fib (t.height + 2) ≤ t.toList.length + 1 := by
  induction t with
  | nil => simp [height]
  | node l a s r ihl ihr =>
    obtain ⟨hl, hr, hlr, hrl⟩ := h
    have ihl := ihl hl
    have ihr := ihr hr
    -- the larger subtree is one level lower, and the other one at most two
    have hfib : ∀ n, Nat.fib (n + 1 + 2) = Nat.fib (n + 1) + Nat.fib (n + 2) := fun n =>
      Nat.fib_add_two
    rw [height, Nat.add_comm 1, hfib, toList_node, List.length_append, List.length_cons]
    rcases le_total l.height r.height with hle | hle
    · rw [max_eq_right hle]
      have := Nat.fib_mono (show r.height + 1 ≤ l.height + 2 by omega)
      omega
    · rw [max_eq_left hle]
      have := Nat.fib_mono (show l.height + 1 ≤ r.height + 2 by omega)
      omega

lemma Valid.fib_le {t : HTree α} (h : t.Valid) :
    Nat.fib (t.stored + 2) ≤ t.toList.length + 1 :=
  h.stored_eq ▸ h.balanced.fib_le

/-! ### Rotations -/

def rotateLeft : HTree α → HTree α
  | node a b _ (node c d _ e) => join (join a b c) d e
  | t                         => t

def rotateRight : HTree α → HTree α
  | node (node a b _ c) d _ e => join a b (join c d e)
  | t                         => t

def rotateLeftRight : HTree α → HTree α
  | node (node a b _ (node c d _ e)) f _ g => join (join a b c) d (join e f g)
  | t                                      => t

def rotateRightLeft : HTree α → HTree α
  | node a b _ (node (node c d _ e) f _ g) => join (join a b c) d (join e f g)
  | t                                      => t

/-- The difference of the heights that the children of the root store. -/
def balance : HTree α → ℤ
  | nil          => 0
  | node l _ _ r => (r.stored : ℤ) - l.stored

/-- Rotate at the root if the children's stored heights differ by two. -/
def rebalance : HTree α → HTree α
  | nil => nil
  | node l a h r =>
    if (node l a h r).balance = -2 then
      if l.balance ≤ 0 then (node l a h r).rotateRight else (node l a h r).rotateLeftRight
    else if (node l a h r).balance = 2 then
      if r.balance < 0 then (node l a h r).rotateRightLeft else (node l a h r).rotateLeft
    else node l a h r

variable {l r t : HTree α} {a : α} {h : ℕ}

/-- A node that leans to the left has a left child. -/
lemma exists_left (hneg : (node l a h r).balance < 0) : ∃ l' b s r', l = node l' b s r' := by
  cases l with
  | nil =>
    simp only [balance, stored_nil] at hneg
    omega
  | node l' b s r' => exact ⟨l', b, s, r', rfl⟩

lemma exists_right (hpos : 0 < (node l a h r).balance) : ∃ l' b s r', r = node l' b s r' := by
  cases r with
  | nil =>
    simp only [balance, stored_nil] at hpos
    omega
  | node l' b s r' => exact ⟨l', b, s, r', rfl⟩

lemma toList_rebalance (t : HTree α) : t.rebalance.toList = t.toList := by
  have hl : ∀ t : HTree α, t.rotateLeft.toList = t.toList := fun t => by
    unfold rotateLeft
    split <;> simp
  have hr : ∀ t : HTree α, t.rotateRight.toList = t.toList := fun t => by
    unfold rotateRight
    split <;> simp
  have hlr : ∀ t : HTree α, t.rotateLeftRight.toList = t.toList := fun t => by
    unfold rotateLeftRight
    split <;> simp
  have hrl : ∀ t : HTree α, t.rotateRightLeft.toList = t.toList := fun t => by
    unfold rotateRightLeft
    split <;> simp
  cases t with
  | nil => rfl
  | node l a h r =>
    rw [rebalance]
    split_ifs
    · exact hr _
    · exact hlr _
    · exact hrl _
    · exact hl _
    · rfl

/-- What a rotation at a node with children `l` and `r` makes of it: the tree is valid, and at most
one level lower, which it is not if there was nothing to do. -/
def Restores (l r t : HTree α) : Prop :=
  t.Valid ∧ t.stored ≤ 1 + max l.stored r.stored ∧ max l.stored r.stored ≤ t.stored ∧
    (l.stored ≤ r.stored + 1 → r.stored ≤ l.stored + 1 → t.stored = 1 + max l.stored r.stored)

lemma restores_left (hl : l.Valid) (hr : r.Valid) (hbal : r.stored = l.stored + 2) (a : α) :
    Restores l r (join l a r).rebalance := by
  cases r with
  | nil => simp at hbal
  | node c d s e =>
    obtain ⟨hc, he, hs, hce, hec⟩ := hr
    rw [stored_node] at hbal
    have h2 : (join l a (node c d s e)).balance = 2 := by
      simp only [join, balance, stored_node]
      omega
    rw [join] at h2 ⊢
    rw [rebalance, if_neg (by omega), if_pos h2]
    split_ifs with hneg
    · -- the inner grandchild is the higher one
      obtain ⟨c', d', s', e', rfl⟩ := exists_left hneg
      obtain ⟨hc', he', hs', hce', hec'⟩ := hc
      simp only [balance, stored_node] at *
      refine ⟨valid_join (valid_join hl hc' (by omega) (by omega))
        (valid_join he' he (by omega) (by omega)) ?_ ?_, ?_, ?_, ?_⟩
      all_goals
        simp only [rotateRightLeft, stored_join, stored_node]
        omega
    · simp only [balance] at hneg
      refine ⟨valid_join (valid_join hl hc (by omega) (by omega)) he ?_ ?_, ?_, ?_, ?_⟩
      all_goals
        simp only [rotateLeft, stored_join, stored_node]
        omega

lemma restores_right (hl : l.Valid) (hr : r.Valid) (hbal : l.stored = r.stored + 2) (a : α) :
    Restores l r (join l a r).rebalance := by
  cases l with
  | nil => simp at hbal
  | node x b s c =>
    obtain ⟨hx, hc, hs, hxc, hcx⟩ := hl
    rw [stored_node] at hbal
    have h2 : (join (node x b s c) a r).balance = -2 := by
      simp only [join, balance, stored_node]
      omega
    rw [join] at h2 ⊢
    rw [rebalance, if_pos h2]
    split_ifs with hpos
    · simp only [balance] at hpos
      refine ⟨valid_join hx (valid_join hc hr (by omega) (by omega)) ?_ ?_, ?_, ?_, ?_⟩
      all_goals
        simp only [rotateRight, stored_join, stored_node]
        omega
    · -- the inner grandchild is the higher one
      obtain ⟨c', d', s', e', rfl⟩ := exists_right (not_le.mp hpos)
      obtain ⟨hc', he', hs', hce', hec'⟩ := hc
      simp only [balance, stored_node] at *
      refine ⟨valid_join (valid_join hx hc' (by omega) (by omega))
        (valid_join he' hr (by omega) (by omega)) ?_ ?_, ?_, ?_, ?_⟩
      all_goals
        simp only [rotateLeftRight, stored_join, stored_node]
        omega

lemma rebalance_join_of_balanced (hlr : l.stored ≤ r.stored + 1) (hrl : r.stored ≤ l.stored + 1)
    (a : α) : (join l a r).rebalance = join l a r := by
  rw [join, rebalance, if_neg, if_neg]
  · simp only [balance]
    omega
  · simp only [balance]
    omega

/-- Recalculating and rotating at one node. -/
theorem restores_rebalance (hl : l.Valid) (hr : r.Valid) (hlr : l.stored ≤ r.stored + 2)
    (hrl : r.stored ≤ l.stored + 2) (a : α) : Restores l r (join l a r).rebalance := by
  by_cases h₁ : r.stored = l.stored + 2
  · exact restores_left hl hr h₁ a
  · by_cases h₂ : l.stored = r.stored + 2
    · exact restores_right hl hr h₂ a
    · rw [rebalance_join_of_balanced (by omega) (by omega)]
      refine ⟨valid_join hl hr (by omega) (by omega), le_rfl, ?_, fun _ _ => rfl⟩
      rw [stored_join]
      omega

end HTree

/-! ### Paths -/

/-- A node above a hole, with its other subtree. -/
inductive Frame (α : Type*) where
  | left (a : α) (h : ℕ) (r : HTree α)
  | right (l : HTree α) (a : α) (h : ℕ)

namespace Frame

def label : Frame α → α
  | left a _ _  => a
  | right _ a _ => a

def stored : Frame α → ℕ
  | left _ h _  => h
  | right _ _ h => h

/-- The other subtree. -/
def other : Frame α → HTree α
  | left _ _ r  => r
  | right l _ _ => l

/-- Put `t` in the hole. -/
def fill : Frame α → HTree α → HTree α
  | left a h r, t  => .node t a h r
  | right l a h, t => .node l a h t

/-- Put `t` in the hole and recalculate the stored height. -/
def join : Frame α → HTree α → HTree α
  | left a _ r, t  => HTree.join t a r
  | right l a _, t => HTree.join l a t

/-- Exchange the label. -/
def relabel : Frame α → α → Frame α
  | left _ h r, a  => left a h r
  | right l _ h, a => right l a h

/-- What stands in the sequence before and after the hole. -/
def before : Frame α → List α
  | left _ _ _  => []
  | right l a _ => l.toList ++ [a]

def after : Frame α → List α
  | left a _ r  => a :: r.toList
  | right _ _ _ => []

end Frame

/-- The nodes above a hole, innermost first. -/
abbrev Path (α : Type*) := List (Frame α)

namespace Path

/-- Put `t` in the hole of a path. -/
def plug : Path α → HTree α → HTree α
  | [], t     => t
  | f :: c, t => plug c (f.fill t)

def before : Path α → List α
  | []     => []
  | f :: c => before c ++ f.before

def after : Path α → List α
  | []     => []
  | f :: c => f.after ++ after c

/-- The labels of a path, in no particular order. -/
def elems : Path α → List α
  | []     => []
  | f :: c => f.label :: (f.other.toList ++ elems c)

/-- The label of the node right above the hole. -/
def parent : Path α → Option α
  | []     => none
  | f :: _ => some f.label

/-- The path is the one of a valid tree that had a subtree of height `h` in the hole. -/
def Valid : Path α → ℕ → Prop
  | [], _     => True
  | f :: c, h => f.other.Valid ∧ f.stored = 1 + max h f.other.stored ∧
      h ≤ f.other.stored + 1 ∧ f.other.stored ≤ h + 1 ∧ Valid c f.stored

/-- Walk up from a changed subtree: recalculate, rotate, and stop at the first node whose height
comes out as it was. -/
def rebalanceUp : Path α → HTree α → HTree α
  | [], t     => t
  | f :: c, t =>
    if f.stored = (f.join t).rebalance.stored then plug c (f.join t).rebalance
    else rebalanceUp c (f.join t).rebalance

variable {c : Path α} {f : Frame α} {t : HTree α} {a : α} {h : ℕ}

lemma toList_plug (c : Path α) (t : HTree α) :
    (plug c t).toList = before c ++ t.toList ++ after c := by
  induction c generalizing t with
  | nil => simp [plug, before, after]
  | cons f c ih => cases f <;> simp [plug, before, after, ih, Frame.fill, Frame.before, Frame.after]

lemma perm_plug (c : Path α) (t : HTree α) : (plug c t).toList.Perm (t.toList ++ elems c) := by
  induction c generalizing t with
  | nil => simp [plug, elems]
  | cons f c ih =>
    refine (ih (f.fill t)).trans ?_
    cases f with
    | left a h r => simp [elems, Frame.fill, Frame.label, Frame.other]
    | right l a h =>
      simp only [elems, Frame.fill, Frame.label, Frame.other, HTree.toList_node]
      rw [← List.cons_append, ← List.append_assoc]
      refine List.Perm.append_right _ ?_
      exact List.perm_append_comm.trans List.perm_middle.symm

lemma before_append (c d : Path α) : before (c ++ d) = before d ++ before c := by
  induction c with
  | nil => simp [before]
  | cons f c ih => simp [before, ih]

lemma after_append (c d : Path α) : after (c ++ d) = after c ++ after d := by
  induction c with
  | nil => rfl
  | cons f c ih => simp [after, ih]

lemma elems_append (c d : Path α) : elems (c ++ d) = elems c ++ elems d := by
  induction c with
  | nil => rfl
  | cons f c ih => simp [elems, ih]

lemma nodup_plug : (plug c t).toList.Nodup ↔
    t.toList.Nodup ∧ (elems c).Nodup ∧ ∀ x ∈ t.toList, x ∉ elems c := by
  rw [(perm_plug c t).nodup_iff, List.nodup_append']
  exact Iff.rfl

lemma plug_append (c d : Path α) (t : HTree α) : plug (c ++ d) t = plug d (plug c t) := by
  induction c generalizing t with
  | nil => rfl
  | cons f c ih => exact ih (f.fill t)

/-- A valid tree falls apart into a valid subtree and a valid path. -/
lemma valid_plug : (plug c t).Valid ↔ Valid c t.stored ∧ t.Valid := by
  induction c generalizing t with
  | nil => simp [plug, Valid]
  | cons f c ih =>
    rw [plug, ih, Valid]
    cases f with
    | left a h r =>
      simp only [Frame.fill, HTree.stored_node, HTree.Valid, Frame.other, Frame.stored]
      tauto
    | right l a h =>
      simp only [Frame.fill, HTree.stored_node, HTree.Valid, Frame.other, Frame.stored,
        max_comm t.stored]
      tauto

/-- The recalculated and rotated node: valid, and its height changes by at most one. -/
lemma valid_step (hc : Valid (f :: c) h) (ht : t.Valid) (hlow : h ≤ t.stored + 1)
    (hhigh : t.stored ≤ h + 1) :
    (f.join t).rebalance.Valid ∧ f.stored ≤ (f.join t).rebalance.stored + 1 ∧
      (f.join t).rebalance.stored ≤ f.stored + 1 := by
  obtain ⟨ho, hs, hle, hge, -⟩ := hc
  have hres : HTree.Restores t f.other (f.join t).rebalance := by
    cases f with
    | left a s r => exact HTree.restores_rebalance ht ho (by omega) (by omega) a
    | right l a s =>
      have hres := HTree.restores_rebalance ho ht (by omega) (by omega) a
      rw [HTree.Restores, max_comm] at hres
      exact ⟨hres.1, hres.2.1, hres.2.2.1, fun h₁ h₂ => hres.2.2.2 h₂ h₁⟩
  obtain ⟨hv, hub, hlb, heq⟩ := hres
  exact ⟨hv, by omega, by omega⟩

theorem valid_rebalanceUp (hc : Valid c h) (ht : t.Valid) (hlow : h ≤ t.stored + 1)
    (hhigh : t.stored ≤ h + 1) : (rebalanceUp c t).Valid := by
  induction c generalizing t h with
  | nil => exact ht
  | cons f c ih =>
    obtain ⟨hv, hlow', hhigh'⟩ := valid_step hc ht hlow hhigh
    rw [rebalanceUp]
    split_ifs with heq
    · exact valid_plug.mpr ⟨heq ▸ hc.2.2.2.2, hv⟩
    · exact ih hc.2.2.2.2 hv hlow' hhigh'

theorem toList_rebalanceUp (c : Path α) (t : HTree α) :
    (rebalanceUp c t).toList = (plug c t).toList := by
  induction c generalizing t with
  | nil => rfl
  | cons f c ih =>
    have hf : (f.join t).rebalance.toList = (f.fill t).toList := by
      rw [HTree.toList_rebalance]
      cases f <;> rfl
    rw [rebalanceUp, plug]
    split_ifs
    · rw [toList_plug, toList_plug, hf]
    · rw [ih, toList_plug, toList_plug, hf]

lemma length_le_height (c : Path α) (t : HTree α) :
    c.length + t.height ≤ (plug c t).height := by
  induction c generalizing t with
  | nil => simp [plug]
  | cons f c ih =>
    have hf : t.height + 1 ≤ (f.fill t).height := by
      cases f <;> simp only [Frame.fill, HTree.height] <;> omega
    have := ih (f.fill t)
    rw [plug, List.length_cons]
    omega

/-- Validity of a path does not depend on the labels. -/
lemma valid_relabel {d : Path α} {u : ℕ} {b : α} :
    Valid (c ++ f.relabel b :: d) u ↔ Valid (c ++ f :: d) u := by
  induction c generalizing u with
  | nil => cases f <;> rfl
  | cons e c ih => simp only [List.cons_append, Valid, ih]

/-- The label `a` of `f` gives way to the label `b` of the subtree `t` in the hole, of which `w` is
all that is left. -/
lemma nodup_relabel {d : Path α} {w : HTree α} {b : α} (hb : t.toList.Perm (b :: w.toList))
    (h : (plug (c ++ f :: d) t).toList.Nodup) :
    (plug (c ++ f.relabel b :: d) w).toList.Nodup ∧ f.label ∉ elems (c ++ f.relabel b :: d) := by
  have hlabel : (f.relabel b).label = b := by cases f <;> rfl
  have hother : (f.relabel b).other = f.other := by cases f <;> rfl
  have hold : (f.label :: b :: (w.toList ++ elems c ++ (f.other.toList ++ elems d))).Nodup := by
    refine List.Perm.nodup ?_ h
    refine (perm_plug _ _).trans ((hb.append_right _).trans ?_)
    rw [elems_append, elems, List.cons_append, ← List.append_assoc]
    exact (List.perm_middle.cons b).trans (List.Perm.swap _ _ _)
  have hnew : (elems (c ++ f.relabel b :: d)).Perm
      (b :: (elems c ++ (f.other.toList ++ elems d))) := by
    rw [elems_append, elems, hlabel, hother]
    exact List.perm_middle
  obtain ⟨ha, hnd⟩ := List.nodup_cons.mp hold
  refine ⟨?_, fun hmem => ha ?_⟩
  · refine List.Perm.nodup (List.Perm.symm ?_) hnd
    refine (perm_plug _ _).trans ((hnew.append_left _).trans ?_)
    rw [List.append_assoc]
    exact List.perm_middle
  · have := hnew.mem_iff.mp hmem
    simp only [List.mem_cons, List.mem_append] at this ⊢
    tauto

/-- Every label has its place in the tree. -/
lemma exists_plug_of_mem (ha : a ∈ t.toList) : ∃ c l s r, t = plug c (.node l a s r) := by
  induction t with
  | nil => simp at ha
  | node l b s r ihl ihr =>
    rcases HTree.mem_toList_node.mp ha with hl | rfl | hr
    · obtain ⟨c, l', s', r', hc⟩ := ihl hl
      refine ⟨c ++ [.left b s r], l', s', r', ?_⟩
      rw [plug_append, ← hc]
      rfl
    · exact ⟨[], l, s, r, rfl⟩
    · obtain ⟨c, l', s', r', hc⟩ := ihr hr
      refine ⟨c ++ [.right l b s], l', s', r', ?_⟩
      rw [plug_append, ← hc]
      rfl

/-! ### Searching -/

/-- Walk down to the place of a new label. `cut b` says on which side of `b` it belongs; there is
no place if it is `0`. -/
def locate (cut : α → ℤ) : HTree α → Path α → Option (Path α)
  | .nil, c          => some c
  | .node l b h r, c =>
    if cut b < 0 then locate cut l (.left b h r :: c)
    else if 0 < cut b then locate cut r (.right l b h :: c)
    else none

/-- `cut` is positive, then zero at most once, then negative. -/
def Cuts (cut : α → ℤ) (L : List α) : Prop :=
  L.Pairwise fun x y => (cut x ≤ 0 → cut y < 0) ∧ (0 ≤ cut y → 0 < cut x)

variable {cut : α → ℤ} {c' : Path α}

lemma plug_locate (h : locate cut t c = some c') : plug c' .nil = plug c t := by
  induction t generalizing c with
  | nil =>
    obtain rfl : c = c' := Option.some.inj h
    rfl
  | node l b s r ihl ihr =>
    rw [locate] at h
    split_ifs at h
    · exact ihl h
    · exact ihr h

lemma cuts_node {l r : HTree α} {b : α} {s : ℕ} (h : Cuts cut (HTree.node l b s r).toList) :
    Cuts cut l.toList ∧ Cuts cut r.toList ∧ (0 ≤ cut b → ∀ x ∈ l.toList, 0 < cut x) ∧
      (cut b ≤ 0 → ∀ x ∈ r.toList, cut x < 0) := by
  rw [Cuts, HTree.toList_node, List.pairwise_append, List.pairwise_cons] at h
  obtain ⟨hl, ⟨hb, hr⟩, hlr⟩ := h
  exact ⟨hl, hr, fun hb0 x hx => (hlr x hx b (by simp)).2 hb0, fun hb0 x hx => (hb x hx).1 hb0⟩

/-- The place found is the one between what comes before and what comes after. -/
lemma locate_sides (h : locate cut t c = some c') (ht : Cuts cut t.toList)
    (hb : ∀ x ∈ before c, 0 < cut x) (ha : ∀ x ∈ after c, cut x < 0) :
    (∀ x ∈ before c', 0 < cut x) ∧ ∀ x ∈ after c', cut x < 0 := by
  induction t generalizing c with
  | nil =>
    obtain rfl : c = c' := Option.some.inj h
    exact ⟨hb, ha⟩
  | node l b s r ihl ihr =>
    obtain ⟨hl, hr, hlb, hrb⟩ := cuts_node ht
    rw [locate] at h
    split_ifs at h with hneg hpos
    · refine ihl h hl ?_ ?_
      · simpa [before, Frame.before] using hb
      · intro x hx
        simp only [after, Frame.after, List.cons_append, List.mem_cons, List.mem_append] at hx
        rcases hx with rfl | hx | hx
        · exact hneg
        · exact hrb hneg.le x hx
        · exact ha x hx
    · refine ihr h hr ?_ ?_
      · intro x hx
        simp only [before, Frame.before, List.mem_append, List.mem_singleton] at hx
        rcases hx with hx | hx | rfl
        · exact hb x hx
        · exact hlb hpos.le x hx
        · exact hpos
      · simpa [after, Frame.after] using ha

/-- There is no place exactly when there is an equal label. -/
lemma locate_eq_none_iff (ht : Cuts cut t.toList) :
    locate cut t c = none ↔ ∃ x ∈ t.toList, cut x = 0 := by
  induction t generalizing c with
  | nil => simp [locate]
  | node l b s r ihl ihr =>
    obtain ⟨hl, hr, hlb, hrb⟩ := cuts_node ht
    simp only [HTree.mem_toList_node]
    rw [locate]
    split_ifs with hneg hpos
    · rw [ihl hl]
      constructor
      · rintro ⟨x, hx, hx0⟩
        exact ⟨x, Or.inl hx, hx0⟩
      · rintro ⟨x, hx | rfl | hx, hx0⟩
        · exact ⟨x, hx, hx0⟩
        · omega
        · have := hrb hneg.le x hx
          omega
    · rw [ihr hr]
      constructor
      · rintro ⟨x, hx, hx0⟩
        exact ⟨x, Or.inr (Or.inr hx), hx0⟩
      · rintro ⟨x, hx | rfl | hx, hx0⟩
        · have := hlb hpos.le x hx
          omega
        · omega
        · exact ⟨x, hx, hx0⟩
    · simp only [true_iff]
      exact ⟨b, Or.inr (Or.inl rfl), by omega⟩

end Path
end Kit.Avl
