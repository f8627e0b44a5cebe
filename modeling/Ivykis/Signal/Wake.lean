import Ivykis.Avl.Search
import Ivykis.Signal.Basic

/-!
# Which interests a signal wakes

`iv_signal_compare` is the order of a number, so that a tree of interests is a tree that is
searched by number. `__iv_signal_do_wake` wakes the first of the exclusive interests in a signal,
or all interests in it if none is exclusive.
-/

namespace Ivykis

open Kit.Avl

/-- The place of an interest in the order: signal number, then exclusive ones first, then
address. -/
def sigRank (signum : SigPtr → ℤ) (flags : SigPtr → SigFlags) (a : SigPtr) : ℤ :=
  signum a * 2 ^ 65 + (if (flags a).exclusive then 0 else 2 ^ 64) + a.toNat

section Rank

variable {signum : SigPtr → ℤ} {flags : SigPtr → SigFlags} {a b : SigPtr}

lemma ivSignalCompare_eq (signum : SigPtr → ℤ) (flags : SigPtr → SigFlags) :
    ivSignalCompare signum flags = compareKeys (sigRank signum flags) := by
  funext a b
  have ha := a.isLt
  have hb := b.isLt
  simp only [ivSignalCompare, compareKeys, sigRank, BitVec.lt_def, gt_iff_lt]
  cases (flags a).exclusive <;> cases (flags b).exclusive <;>
    simp only [Bool.false_eq_true, if_true, if_false, not_true, not_false_iff, and_true,
      and_false] <;> split_ifs <;> omega

lemma sigRank_inj (h : sigRank signum flags a = sigRank signum flags b) : a = b := by
  have ha := a.isLt
  have hb := b.isLt
  refine BitVec.eq_of_toNat_eq ?_
  simp only [sigRank] at h
  split_ifs at h <;> omega

lemma signum_le_of_rank_lt (h : sigRank signum flags a < sigRank signum flags b) :
    signum a ≤ signum b := by
  have ha := a.isLt
  have hb := b.isLt
  simp only [sigRank] at h
  split_ifs at h <;> omega

/-- Exclusive interests come first. -/
lemma exclusive_of_rank_lt (h : sigRank signum flags a < sigRank signum flags b)
    (hsig : signum a = signum b) (hb : (flags b).exclusive = true) :
    (flags a).exclusive = true := by
  have hlt := b.isLt
  by_contra ha
  rw [sigRank, sigRank, hsig, hb, if_neg ha, if_pos rfl] at h
  omega

end Rank

/-- `tree` is a tree of the interests in `T`. -/
def SigMem.Tree (m : SigMem) (tree : AvlState) (T : Finset SigPtr) : Prop :=
  KeyTree (sigRank m.signum m.flags) tree T

/-! ### The first interest in a signal -/

/-- The walk remembers the last node with this signal that it has come by. -/
lemma findFirstLoop_eq {signumOf : SigPtr → ℤ} {tree : AvlState} {p : Option SigPtr}
    {t : HTree AvlPtr} {fuel : ℕ} (best : Option SigPtr) (s : ℤ) (h : Rep tree p t)
    (hsorted : t.toList.Pairwise fun a b => signumOf a ≤ signumOf b) (hfuel : t.height ≤ fuel) :
    findFirstLoop signumOf tree s fuel t.root best =
      .ok ((t.toList.filter fun a => signumOf a = s).head?.or best) := by
  induction t generalizing p best fuel with
  | nil => rw [HTree.root, findFirstLoop, HTree.toList_nil, List.filter_nil, List.head?_nil,
      Option.none_or]
  | node l b h r ihl ihr =>
    simp only [HTree.height] at hfuel
    obtain ⟨fuel, rfl⟩ : ∃ n, fuel = n + 1 := ⟨fuel - 1, by omega⟩
    obtain ⟨hl, hr, -, -, hrl, hrr⟩ := h
    rw [HTree.toList_node, List.pairwise_append, List.pairwise_cons] at hsorted
    obtain ⟨hsl, ⟨hbr, hsr⟩, hlr⟩ := hsorted
    rw [HTree.root_node, findFirstLoop, hl, hr, HTree.toList_node, List.filter_append]
    rcases lt_trichotomy s (signumOf b) with hlt | rfl | hgt
    · -- what is not to the left has a greater number
      have hnone : (b :: r.toList).filter (fun a => signumOf a = s) = [] := by
        refine List.filter_eq_nil_iff.mpr fun a ha => ?_
        rcases List.mem_cons.mp ha with rfl | ha
        · simp [hlt.ne']
        · simp [(hlt.trans_le (hbr a ha)).ne']
      rw [if_neg hlt.ne, if_pos hlt.le, ihl _ hrl hsl (by omega), hnone, List.append_nil]
    · rw [if_pos rfl, if_pos le_rfl, ihl _ hrl hsl (by omega), List.head?_append,
        List.filter_cons_of_pos (by simp), List.head?_cons]
      simp
    · -- what is not to the right has a lesser number
      have hnone : l.toList.filter (fun a => signumOf a = s) = [] := by
        refine List.filter_eq_nil_iff.mpr fun a ha => ?_
        simp [((hlr a ha b List.mem_cons_self).trans_lt hgt).ne]
      rw [if_neg hgt.ne', if_neg (not_le.mpr hgt), ihr _ hrr hsr (by omega), hnone,
        List.nil_append, List.filter_cons_of_neg (by simp [hgt.ne])]

/-! ### The interests that are woken -/

namespace SigView

/-- Wake these interests, one after the other. -/
def wake (v : SigView) (W : List SigPtr) : SigView :=
  W.foldl wakeOne v

variable {v : SigView} {W : List SigPtr} {i : SigPtr} {r : RawId}

lemma wake_mem (v : SigView) (W : List SigPtr) :
    (v.wake W).mem = { v.mem with active := fun i => v.mem.active i || decide (i ∈ W) } := by
  induction W generalizing v with
  | nil => simp [wake]
  | cons a W ih =>
    rw [wake, List.foldl_cons, ← wake, ih]
    simp only [wakeOne, SigMem.mk.injEq, true_and, and_true]
    funext i
    by_cases hi : i = a <;> simp [hi]

/-- Each of them is posted once. -/
lemma wake_unread (v : SigView) (W : List SigPtr) (r : RawId) :
    (v.wake W).unread r = v.unread r + (W.map v.mem.ev).count r := by
  induction W generalizing v with
  | nil => rfl
  | cons a W ih =>
    have hW : ((v.wakeOne a).wake W).unread r = _ := ih (v.wakeOne a)
    rw [wake, List.foldl_cons, ← wake, hW, List.map_cons, List.count_cons]
    simp only [wakeOne, Function.update_apply]
    by_cases hr : r = v.mem.ev a
    · simp only [hr, if_true, beq_self_eq_true]
      omega
    · simp only [hr, if_false, beq_eq_false_iff_ne.mpr (Ne.symm hr), Bool.false_eq_true]
      omega

lemma wake_unread_le (v : SigView) (W : List SigPtr) (r : RawId) :
    v.unread r ≤ (v.wake W).unread r := by
  rw [wake_unread]
  exact Nat.le_add_right _ _

lemma wake_unread_pos (hi : i ∈ W) : 0 < (v.wake W).unread (v.mem.ev i) := by
  have hcount := List.count_pos_iff.mpr (List.mem_map_of_mem (f := v.mem.ev) hi)
  rw [wake_unread]
  omega

lemma wake_unread_of_ne (hr : ∀ i ∈ W, v.mem.ev i ≠ r) : (v.wake W).unread r = v.unread r := by
  rw [wake_unread, List.count_eq_zero.mpr, Nat.add_zero]
  simpa [List.mem_map] using hr

end SigView

/-- The interests of a list up to the first exclusive one. -/
def upToExclusive (flags : SigPtr → SigFlags) : List SigPtr → List SigPtr
  | []     => []
  | a :: L => if (flags a).exclusive then [a] else a :: upToExclusive flags L

lemma upToExclusive_of_not {flags : SigPtr → SigFlags} {L : List SigPtr}
    (h : ∀ a ∈ L, ¬ (flags a).exclusive) : upToExclusive flags L = L := by
  induction L with
  | nil => rfl
  | cons a L ih =>
    rw [upToExclusive, if_neg (h a List.mem_cons_self),
      ih fun b hb => h b (List.mem_cons_of_mem _ hb)]

/-- The loop goes through the interests from a given one on, in order. -/
lemma doWakeLoop_eq {cmp : AvlCompare} {tree : AvlState} {T : Finset SigPtr} {t : HTree AvlPtr}
    {X S : List SigPtr} {fuel : ℕ} (s : ℤ) (n : ℕ) (v : SigView)
    (h : AvlInv cmp ⟨tree, T⟩ t) (hlist : t.toList = X ++ S) (hfuel : S.length ≤ fuel) :
    doWakeLoop tree s fuel S.head? n v =
      let W := upToExclusive v.mem.flags (S.takeWhile fun a => v.mem.signum a = s)
      .ok (n + W.length, v.wake W) := by
  induction S generalizing X n v fuel with
  | nil =>
    rw [List.head?_nil, doWakeLoop]
    rfl
  | cons a S ih =>
    rw [List.length_cons] at hfuel
    obtain ⟨fuel, rfl⟩ : ∃ n, fuel = n + 1 := ⟨fuel - 1, by omega⟩
    rw [List.head?_cons, doWakeLoop]
    by_cases ha : v.mem.signum a = s
    · rw [if_neg (not_not.mpr ha), List.takeWhile_cons_of_pos (by simp [ha]), upToExclusive]
      by_cases hex : (v.mem.flags a).exclusive
      · rw [if_pos hex, if_pos hex]
        rfl
      · have hnext := h.avlRep.next hlist
        rw [if_neg hex, if_neg hex, hnext, ok_bind,
          ih (X := X ++ [a]) (n + 1) (v.wakeOne a) (by simp [hlist]) (by omega)]
        exact congrArg Except.ok (Prod.ext (Nat.add_right_comm n 1 _) rfl)
    · rw [if_pos ha, List.takeWhile_cons_of_neg (by simp [ha])]
      rfl

/-- `__iv_signal_do_wake` wakes the interests in `W` out of those in `T`. -/
structure SigMem.Wakes (m : SigMem) (T : Finset SigPtr) (s : ℤ) (W : List SigPtr) : Prop where
  nodup : W.Nodup
  mem   : ∀ i ∈ W, i ∈ T ∧ m.signum i = s
  /-- The first exclusive one, if there are any. -/
  first : (∃ i ∈ T, m.signum i = s ∧ (m.flags i).exclusive = true) →
    ∃ i, W = [i] ∧ (m.flags i).exclusive = true ∧
      ∀ j ∈ T, m.signum j = s → sigRank m.signum m.flags i ≤ sigRank m.signum m.flags j
  /-- All of them otherwise. -/
  all   : (∀ i ∈ T, m.signum i = s → (m.flags i).exclusive = false) →
    ∀ i ∈ T, m.signum i = s → i ∈ W

lemma takeWhile_eq_filter {f : SigPtr → ℤ} {s : ℤ} {L : List SigPtr}
    (hsorted : L.Pairwise fun a b => f a ≤ f b) (hle : ∀ a ∈ L, s ≤ f a) :
    (L.takeWhile fun a => f a = s) = L.filter fun a => f a = s := by
  induction L with
  | nil => rfl
  | cons a L ih =>
    obtain ⟨haL, hL⟩ := List.pairwise_cons.mp hsorted
    by_cases ha : f a = s
    · rw [List.takeWhile_cons_of_pos (by simp [ha]), List.filter_cons_of_pos (by simp [ha]),
        ih hL fun b hb => hle b (List.mem_cons_of_mem _ hb)]
    · rw [List.takeWhile_cons_of_neg (by simp [ha]), List.filter_cons_of_neg (by simp [ha])]
      refine (List.filter_eq_nil_iff.mpr fun b hb => ?_).symm
      have := hle a List.mem_cons_self
      have := haL b hb
      simp only [decide_eq_true_eq]
      omega

/-- What is woken among the interests in a signal, which stand in order. -/
lemma wakes_upToExclusive {m : SigMem} {T : Finset SigPtr} {s : ℤ} {F : List SigPtr}
    (hsorted : F.Pairwise fun a b => sigRank m.signum m.flags a < sigRank m.signum m.flags b)
    (hmem : ∀ i, i ∈ F ↔ i ∈ T ∧ m.signum i = s) : m.Wakes T s (upToExclusive m.flags F) := by
  cases F with
  | nil =>
    refine ⟨List.nodup_nil, by simp [upToExclusive], ?_, ?_⟩
    · rintro ⟨i, hi, hs, -⟩
      simpa using (hmem i).mpr ⟨hi, hs⟩
    · intro _ i hi hs
      exact (hmem i).mpr ⟨hi, hs⟩
  | cons a F =>
    obtain ⟨haF, -⟩ := List.pairwise_cons.mp hsorted
    have hfirst : ∀ j ∈ T, m.signum j = s →
        sigRank m.signum m.flags a ≤ sigRank m.signum m.flags j := by
      intro j hj hs
      rcases List.mem_cons.mp ((hmem j).mpr ⟨hj, hs⟩) with rfl | hj
      · exact le_rfl
      · exact (haF j hj).le
    by_cases hex : (m.flags a).exclusive = true
    · rw [upToExclusive, if_pos hex]
      refine ⟨List.nodup_singleton a, ?_, fun _ => ⟨a, rfl, hex, hfirst⟩, ?_⟩
      · simpa using (hmem a).mp List.mem_cons_self
      · intro hnone
        obtain ⟨ha, hs⟩ := (hmem a).mp List.mem_cons_self
        rw [hnone a ha hs] at hex
        cases hex
    · -- the first one is not exclusive, so none is
      have hnot : ∀ b ∈ a :: F, ¬ (m.flags b).exclusive := by
        intro b hb hbex
        rcases List.mem_cons.mp hb with rfl | hbF
        · exact hex hbex
        · refine hex (exclusive_of_rank_lt (haF b hbF) ?_ hbex)
          rw [((hmem a).mp List.mem_cons_self).2, ((hmem b).mp hb).2]
      rw [upToExclusive_of_not hnot]
      refine ⟨?_, fun i hi => (hmem i).mp hi, ?_, fun _ i hi hs => (hmem i).mpr ⟨hi, hs⟩⟩
      · exact hsorted.imp fun {i j} hij he => absurd hij (by rw [he]; exact lt_irrefl _)
      · rintro ⟨i, hi, hs, hiex⟩
        exact absurd hiex (hnot i ((hmem i).mpr ⟨hi, hs⟩))

section Tree

variable {m : SigMem} {tree : AvlState} {T : Finset SigPtr} {t : HTree AvlPtr}

lemma AvlInv.rank_sorted (ht : AvlInv (keyOrder (sigRank m.signum m.flags)) ⟨tree, T⟩ t) :
    t.toList.Pairwise fun a b => sigRank m.signum m.flags a < sigRank m.signum m.flags b :=
  ht.sorted.imp fun hab => compareKeys_neg.mp hab

lemma AvlInv.signum_sorted (ht : AvlInv (keyOrder (sigRank m.signum m.flags)) ⟨tree, T⟩ t) :
    t.toList.Pairwise fun a b => m.signum a ≤ m.signum b :=
  ht.rank_sorted.imp fun hab => signum_le_of_rank_lt hab

lemma AvlInv.mem_signal (ht : AvlInv (keyOrder (sigRank m.signum m.flags)) ⟨tree, T⟩ t) (s : ℤ)
    (i : SigPtr) : i ∈ t.toList.filter (fun a => m.signum a = s) ↔ i ∈ T ∧ m.signum i = s := by
  rw [List.mem_filter, ← ht.nodes i, decide_eq_true_iff]

lemma AvlInv.findFirst (ht : AvlInv (keyOrder (sigRank m.signum m.flags)) ⟨tree, T⟩ t) (s : ℤ) :
    ivSignalFindFirst m.signum tree s =
      .ok (t.toList.filter fun a => m.signum a = s).head? := by
  have hfuel := ht.stored_lt
  rw [ht.valid.stored_eq] at hfuel
  rw [ivSignalFindFirst, ht.holds.1,
    findFirstLoop_eq none s ht.holds.2 ht.signum_sorted hfuel.le, Option.or_none]

lemma SigMem.Tree.doWake {v : SigView} (h : v.mem.Tree tree T) (s : ℤ) :
    ∃ W, ivSignalDoWake tree s v = .ok (W.length, v.wake W) ∧ v.mem.Wakes T s W := by
  obtain ⟨t, ht⟩ := h
  have hwakes := wakes_upToExclusive (ht.rank_sorted.sublist List.filter_sublist)
    (ht.mem_signal s)
  refine ⟨_, ?_, hwakes⟩
  rw [ivSignalDoWake, ht.findFirst, ok_bind]
  rcases hF : t.toList.filter (fun a => v.mem.signum a = s) with _ | ⟨a, F⟩
  · rw [List.head?_nil, doWakeLoop]
    rfl
  · obtain ⟨X, Y, hlist, -, ha, rfl⟩ := List.filter_eq_cons_iff.mp hF
    have hlen : (a :: Y).length ≤ 2 ^ 64 := by
      have := nodup_length_le (ht.sorted.nodup _)
      rw [hlist, List.length_append] at this
      omega
    rw [List.head?_cons, ← List.head?_cons (l := Y), doWakeLoop_eq s 0 v ht hlist hlen]
    have hsignum := ht.signum_sorted
    rw [hlist, List.pairwise_append] at hsignum
    have hle : ∀ b ∈ a :: Y, s ≤ v.mem.signum b := by
      intro b hb
      rw [decide_eq_true_iff] at ha
      rcases List.mem_cons.mp hb with rfl | hb
      · exact ha.ge
      · exact ha ▸ (List.pairwise_cons.mp hsignum.2.1).1 b hb
    rw [takeWhile_eq_filter hsignum.2.1 hle,
      List.filter_cons_of_pos (p := fun a => decide (v.mem.signum a = s)) ha]
    simp only [Nat.zero_add]

end Tree

end Ivykis
