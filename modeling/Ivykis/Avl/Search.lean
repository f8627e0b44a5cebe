import Ivykis.Avl.Properties

/-!
# Trees that are searched by number

The users of `iv_avl.c` order their nodes by a number that is kept beside the node, and look for a
node with a given number by a walk from the root.
-/

namespace Ivykis

open Kit.Avl

/-- The compare function of such a tree. -/
def compareKeys (key : AvlPtr → ℤ) (a b : AvlPtr) : ℤ :=
  if key a < key b then -1
  else if key a > key b then 1
  else 0

/-- The walk from the root to the node with a number. -/
def findKey (key : AvlPtr → ℤ) (tree : AvlState) (num : ℤ) :
    ℕ → Option AvlPtr → Except Fault (Option AvlPtr)
  | _, none => .ok none
  | 0, some _ => .error .stuck
  | fuel + 1, some an =>
    if num = key an then .ok (some an)
    else if num < key an then findKey key tree num fuel (tree.left an)
    else findKey key tree num fuel (tree.right an)

@[simps]
def keyOrder (key : AvlPtr → ℤ) : AvlCompare where
  compare     := compareKeys key
  swap a b    := by
    simp only [compareKeys]
    split_ifs <;> omega
  trans a b c := by
    simp only [compareKeys]
    split_ifs <;> omega

lemma compareKeys_neg {key : AvlPtr → ℤ} {a b : AvlPtr} :
    compareKeys key a b < 0 ↔ key a < key b := by
  simp only [compareKeys]
  split_ifs <;> simp_all

lemma compareKeys_eq_zero {key : AvlPtr → ℤ} {a b : AvlPtr} :
    compareKeys key a b = 0 ↔ key a = key b := by
  simp only [compareKeys]
  split_ifs with hlt hgt
  · simp [hlt.ne]
  · simp [hgt.ne']
  · simp [le_antisymm (not_lt.mp hgt) (not_lt.mp hlt)]

/-- `tree` is a tree of the nodes in `T`, ordered by number. -/
def KeyTree (key : AvlPtr → ℤ) (tree : AvlState) (T : Finset AvlPtr) : Prop :=
  ∃ t, AvlInv (keyOrder key) ⟨tree, T⟩ t

section Find

variable {key : AvlPtr → ℤ} {tree : AvlState} {num : ℤ} {a : AvlPtr} {fuel : ℕ} {p : Option AvlPtr}
  {t : HTree AvlPtr}

/-- The walk goes down to the node with this number. -/
lemma findKey_of_mem (h : Rep tree p t) (hsorted : t.toList.Pairwise fun a b => key a < key b)
    (hfuel : t.height ≤ fuel) (ha : a ∈ t.toList) :
    findKey key tree (key a) fuel t.root = .ok (some a) := by
  induction t generalizing p fuel with
  | nil => simp at ha
  | node l b s r ihl ihr =>
    simp only [HTree.height] at hfuel
    obtain ⟨fuel, rfl⟩ : ∃ n, fuel = n + 1 := ⟨fuel - 1, by omega⟩
    obtain ⟨hl, hr, -, -, hrl, hrr⟩ := h
    rw [HTree.toList_node, List.pairwise_append, List.pairwise_cons] at hsorted
    obtain ⟨hsl, ⟨hbr, hsr⟩, hlr⟩ := hsorted
    simp only [HTree.mem_toList_node] at ha
    rw [HTree.root_node, findKey, hl, hr]
    rcases ha with ha | rfl | ha
    · have hab := hlr a ha b List.mem_cons_self
      rw [if_neg (by omega), if_pos hab]
      exact ihl hrl hsl (by omega) ha
    · rw [if_pos rfl]
    · have hba := hbr a ha
      rw [if_neg (by omega), if_neg (by omega)]
      exact ihr hrr hsr (by omega) ha

lemma findKey_of_forall_ne (h : Rep tree p t) (hfuel : t.height ≤ fuel)
    (hne : ∀ a ∈ t.toList, key a ≠ num) : findKey key tree num fuel t.root = .ok none := by
  induction t generalizing p fuel with
  | nil => rw [HTree.root, findKey]
  | node l b s r ihl ihr =>
    simp only [HTree.height] at hfuel
    obtain ⟨fuel, rfl⟩ : ∃ n, fuel = n + 1 := ⟨fuel - 1, by omega⟩
    obtain ⟨hl, hr, -, -, hrl, hrr⟩ := h
    rw [HTree.root_node, findKey, hl, hr, if_neg (hne b (by simp)).symm]
    split_ifs
    · exact ihl hrl (by omega) fun a ha => hne a (by simp [ha])
    · exact ihr hrr (by omega) fun a ha => hne a (by simp [ha])

end Find

namespace KeyTree

variable {key key' : AvlPtr → ℤ} {tree : AvlState} {T : Finset AvlPtr} {num : ℤ} {a b : AvlPtr}

lemma empty (key : AvlPtr → ℤ) (nodes : AvlState) : KeyTree key { nodes with root := none } ∅ :=
  ⟨.nil, ⟨rfl, trivial⟩, trivial, List.Pairwise.nil, fun a => by simp⟩

lemma congr (h : KeyTree key tree T) (hkey : ∀ a ∈ T, key' a = key a) : KeyTree key' tree T := by
  obtain ⟨t, ht⟩ := h
  refine ⟨t, ht.holds, ht.valid, ht.sorted.imp_of_mem fun {a b} ha hb hab => ?_, ht.nodes⟩
  rw [keyOrder_compare, compareKeys_neg] at hab ⊢
  rwa [hkey a ((ht.nodes a).mpr ha), hkey b ((ht.nodes b).mpr hb)]

lemma insert (h : KeyTree key tree T) (ha : a ∉ T) (hkey : ∀ b ∈ T, key b ≠ key a) :
    ∃ tree', ivAvlTreeInsert (compareKeys key) avlFuel tree a = .ok (0, tree') ∧
      KeyTree key tree' (Insert.insert a T) := by
  obtain ⟨t, ht⟩ := h
  rcases ht.insert ha with ⟨⟨b, hb, heq⟩, -⟩ | ⟨-, tree', t', heq, ht'⟩
  · exact absurd (compareKeys_eq_zero.mp heq).symm (hkey b hb)
  · exact ⟨tree', heq, t', ht'⟩

lemma insert_used (h : KeyTree key tree T) (ha : a ∉ T) (hb : b ∈ T) (hkey : key b = key a) :
    ivAvlTreeInsert (compareKeys key) avlFuel tree a = .ok (-1, tree) := by
  obtain ⟨t, ht⟩ := h
  rcases ht.insert ha with ⟨-, heq⟩ | ⟨hne, -⟩
  · exact heq
  · exact absurd ⟨b, hb, compareKeys_eq_zero.mpr hkey.symm⟩ hne

lemma key_ne_of_insert (h : KeyTree key tree T) (ha : a ∉ T) {tree' : AvlState}
    (hinsert : ivAvlTreeInsert (compareKeys key) avlFuel tree a = .ok (0, tree')) :
    ∀ b ∈ T, key b ≠ key a := by
  intro b hb hkey
  cases hinsert.symm.trans (h.insert_used ha hb hkey)

lemma delete (h : KeyTree key tree T) (ha : a ∈ T) :
    ∃ tree', ivAvlTreeDelete avlFuel tree a = .ok tree' ∧ KeyTree key tree' (T.erase a) := by
  obtain ⟨t, ht⟩ := h
  obtain ⟨tree', t', heq, ht'⟩ := ht.delete ha
  exact ⟨tree', heq, t', ht'⟩

/-- A node of the tree is found. -/
lemma find_of_mem (h : KeyTree key tree T) (ha : a ∈ T) :
    findKey key tree (key a) avlFuel tree.root = .ok (some a) := by
  obtain ⟨t, ht⟩ := h
  have hsorted : t.toList.Pairwise fun a b => key a < key b :=
    ht.sorted.imp fun {a b} hab => compareKeys_neg.mp hab
  have hfuel := ht.stored_lt
  rw [ht.valid.stored_eq] at hfuel
  rw [ht.holds.1]
  exact findKey_of_mem ht.holds.2 hsorted hfuel.le ((ht.nodes a).mp ha)

lemma find_of_forall_ne (h : KeyTree key tree T) (hne : ∀ a ∈ T, key a ≠ num) :
    findKey key tree num avlFuel tree.root = .ok none := by
  obtain ⟨t, ht⟩ := h
  have hfuel := ht.stored_lt
  rw [ht.valid.stored_eq] at hfuel
  rw [ht.holds.1]
  exact findKey_of_forall_ne ht.holds.2 hfuel.le fun a ha => hne a ((ht.nodes a).mpr ha)

lemma key_inj (h : KeyTree key tree T) (ha : a ∈ T) (hb : b ∈ T) (hab : key a = key b) :
    a = b := by
  have hfind := h.find_of_mem ha
  rw [hab, h.find_of_mem hb] at hfind
  exact (Option.some.inj (Except.ok.inj hfind)).symm

end KeyTree

end Ivykis
