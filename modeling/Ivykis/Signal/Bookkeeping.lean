import Mathlib.Data.Finset.Option
import Ivykis.Signal.Wake

/-!
# Signal bookkeeping

A process that owns the data counts its interests right, and its signal handler is installed where
there is something to count. What each call does to such data is said once, by `register_cases`,
`unregister_cases` and `handler_of_owner`.
-/

namespace Ivykis

open Kit.Avl

namespace SigMem

variable {m : SigMem} {nsig : ℕ} {pid : Pid} {th : ThreadId} {this : SigPtr} {p : Option ThreadId}
  {s : ℤ}

/-- The tree that an interest is in. -/
def place (m : SigMem) (i : SigPtr) : Option ThreadId :=
  ivSignalTree (m.flags i) (m.home i)

/-- The trees of a process. -/
def places (m : SigMem) : Finset (Option ThreadId) :=
  Finset.insertNone m.threads

/-- The interests of this process in one of its trees. -/
def interestsAt (m : SigMem) (p : Option ThreadId) : Finset SigPtr :=
  m.mine.filter fun i => m.place i = p

lemma mem_interestsAt {i : SigPtr} : i ∈ m.interestsAt p ↔ i ∈ m.mine ∧ m.place i = p :=
  Finset.mem_filter

/-- The data of a process that owns them. -/
structure Own (m : SigMem) : Prop where
  trees : ∀ p ∈ m.places, m.Tree (m.sigs p) (m.interestsAt p)
  home  : ∀ i ∈ m.mine, m.home i ∈ m.threads
  total : ∀ s, m.totalNumInterests s = ((m.mine.filter fun i => m.signum i = s).card : ℤ)

/-- Every interest of the process `pid` has a raw event of its own, registered by this process. -/
structure Raws (m : SigMem) (pid : Pid) : Prop where
  pid   : ∀ i ∈ m.mine, (m.ev i).pid = pid
  num   : ∀ i ∈ m.mine, (m.ev i).num < m.numRaw
  inj   : Set.InjOn m.ev m.mine

lemma Raws.of_empty {pid : Pid} (hmine : m.mine = ∅) : m.Raws pid :=
  ⟨by simp [hmine], by simp [hmine], by simp [hmine]⟩

lemma Raws.mono {m' : SigMem} {pid : Pid} (h : m.Raws pid) (hmine : m'.mine ⊆ m.mine)
    (hev : m'.ev = m.ev) (hnum : m'.numRaw = m.numRaw) : m'.Raws pid where
  pid i hi := hev ▸ h.pid i (hmine hi)
  num i hi := by
    rw [hev, hnum]
    exact h.num i (hmine hi)
  inj      := by
    rw [hev]
    exact h.inj.mono (Finset.coe_subset.mpr hmine)

/-- What holds of the memory of the process `pid` at all times. -/
structure Ok (nsig : ℕ) (pid : Pid) (m : SigMem) : Prop where
  installed : ∀ s, m.installed s = true ↔ 0 < m.totalNumInterests s
  range     : ∀ s, m.totalNumInterests s ≠ 0 → 0 ≤ s ∧ s < nsig
  nonneg    : ∀ s, 0 ≤ m.totalNumInterests s
  idle      : m.sigOwnerPid = 0 →
    (∀ p ∈ m.places, (m.sigs p).root = none) ∧ ∀ s, m.totalNumInterests s = 0
  mine      : m.sigOwnerPid ≠ pid → m.mine = ∅
  own       : m.sigOwnerPid = pid → m.Own
  raws      : m.Raws pid

lemma Own.place_mem (h : m.Own) {i : SigPtr} (hi : i ∈ m.mine) : m.place i ∈ m.places := by
  rw [place, ivSignalTree, places]
  split_ifs
  · exact Finset.some_mem_insertNone.mpr (h.home i hi)
  · exact Finset.none_mem_insertNone

lemma Own.total_pos (h : m.Own) {i : SigPtr} (hi : i ∈ m.mine) :
    0 < m.totalNumInterests (m.signum i) := by
  have hcard : 0 < (m.mine.filter fun j => m.signum j = m.signum i).card :=
    Finset.card_pos.mpr ⟨i, Finset.mem_filter.mpr ⟨hi, rfl⟩⟩
  rw [h.total]
  exact_mod_cast hcard

lemma tree_of_root {tree : AvlState} (h : tree.root = none) : m.Tree tree ∅ := by
  have := KeyTree.empty (sigRank m.signum m.flags) tree
  rwa [← h] at this

/-- A process without interests of its own may take over trees without nodes. -/
lemma Own.of_empty (hroot : ∀ p ∈ m.places, (m.sigs p).root = none) (hmine : m.mine = ∅)
    (htotal : ∀ s, m.totalNumInterests s = 0) : m.Own where
  trees p hp := by
    rw [interestsAt, hmine, Finset.filter_empty]
    exact tree_of_root (hroot p hp)
  home i hi := by simp [hmine] at hi
  total s := by simp [hmine, htotal s]

/-! ### Steps -/

lemma ne_of_mem_mine (hthis : this ∉ m.mine) {i : SigPtr} (hi : i ∈ m.mine) : i ≠ this :=
  fun he => hthis (he ▸ hi)

/-- An interest may be filled in while it is not registered. -/
lemma Own.fillIn (h : m.Own) (hthis : this ∉ m.mine) (signum : ℤ) (flags : SigFlags) :
    (m.fillIn this signum flags).Own where
  trees p hp := by
    have hat : (m.fillIn this signum flags).interestsAt p = m.interestsAt p := by
      refine Finset.filter_congr fun i hi => ?_
      simp [place, SigMem.fillIn, ne_of_mem_mine hthis hi]
    rw [hat]
    refine KeyTree.congr (h.trees p hp) fun i hi => ?_
    simp [sigRank, SigMem.fillIn, ne_of_mem_mine hthis (mem_interestsAt.mp hi).1]
  home := h.home
  total s := by
    rw [SigMem.fillIn, h.total s]
    refine congrArg (fun T : Finset SigPtr => (T.card : ℤ)) (Finset.filter_congr fun i hi => ?_)
    simp [ne_of_mem_mine hthis hi]

lemma Ok.fillIn (h : m.Ok nsig pid) (hthis : this ∉ m.mine) (signum : ℤ) (flags : SigFlags) :
    (m.fillIn this signum flags).Ok nsig pid :=
  ⟨h.installed, h.range, h.nonneg, h.idle, h.mine, fun hown => (h.own hown).fillIn hthis _ _,
    h.raws.mono subset_rfl rfl rfl⟩

/-- `iv_signal_child_reset_postfork` leaves nothing behind if it is called in the only thread that
has anything to leave behind. -/
lemma Ok.reset (h : m.Ok nsig pid) (hforeign : m.sigOwnerPid ≠ pid)
    (halone : ∀ th' ∈ m.threads, th' ≠ th → (m.sigs (some th')).root = none) :
    (ivSignalChildResetPostfork nsig th m).Ok nsig pid := by
  have htotal : ∀ s, (ivSignalChildResetPostfork nsig th m).totalNumInterests s = 0 := by
    intro s
    simp only [ivSignalChildResetPostfork]
    split_ifs with hs
    · rfl
    · by_contra hne
      obtain ⟨h0, hlt⟩ := h.range s hne
      exact hs ⟨h0, hlt, hne⟩
  have hpid : (0 : ℤ) ≠ pid := pid.2.ne
  refine ⟨fun s => ?_, fun s hs => absurd (htotal s) hs, fun s => (htotal s).ge,
    fun _ => ⟨?_, htotal⟩, fun _ => h.mine hforeign, fun he => absurd he hpid,
    h.raws.mono subset_rfl rfl rfl⟩
  · rw [htotal s]
    simp only [ivSignalChildResetPostfork, lt_irrefl, iff_false]
    split_ifs with hs
    · simp
    · rw [h.installed s]
      intro hpos
      obtain ⟨h0, hlt⟩ := h.range s hpos.ne'
      exact hs ⟨h0, hlt, hpos.ne'⟩
  · intro p hp
    simp only [ivSignalChildResetPostfork]
    split_ifs with hdrop
    · rfl
    · rcases p with _ | th'
      · simp at hdrop
      · have hth' : th' ∈ m.threads := Finset.some_mem_insertNone.mp hp
        refine halone th' hth' ?_
        rintro rfl
        exact hdrop (Or.inr ⟨rfl, hth'⟩)

/-- From its first `iv_signal_register` on a process owns the data. -/
lemma Ok.claimOwner (h : m.Ok nsig pid) (th : ThreadId)
    (halone : m.sigOwnerPid ≠ 0 → m.sigOwnerPid ≠ pid →
      ∀ th' ∈ m.threads, th' ≠ th → (m.sigs (some th')).root = none) :
    (claimOwner nsig pid th m).Ok nsig pid ∧ (claimOwner nsig pid th m).sigOwnerPid = pid := by
  have hclaim : ∀ m : SigMem, m.Ok nsig pid → m.sigOwnerPid = 0 →
      SigMem.Ok nsig pid { m with sigOwnerPid := pid } := by
    intro m h hidle
    obtain ⟨hroot, htotal⟩ := h.idle hidle
    have hmine := h.mine (by rw [hidle]; exact pid.2.ne)
    exact ⟨h.installed, h.range, h.nonneg, fun he => absurd he pid.2.ne', fun he => absurd rfl he,
      fun _ => Own.of_empty hroot hmine htotal, h.raws.mono subset_rfl rfl rfl⟩
  rw [Ivykis.claimOwner]
  split_ifs with hforeign hidle
  · exact ⟨hclaim _ (h.reset hforeign.2 (halone hforeign.1 hforeign.2)) rfl, rfl⟩
  · exact ⟨hclaim m h hidle, rfl⟩
  · refine ⟨h, ?_⟩
    by_contra hne
    exact hforeign ⟨hidle, hne⟩

/-- Only the common data change hands; the interests stay as they are. -/
lemma claimOwner_eq (nsig : ℕ) (pid : Pid) (th : ThreadId) (m : SigMem) :
    ∃ owner total installed sigs, claimOwner nsig pid th m = { m with
      sigOwnerPid       := owner
      totalNumInterests := total
      installed         := installed
      sigs              := sigs } := by
  rw [claimOwner]
  split_ifs
  · exact ⟨_, _, _, _, rfl⟩
  · exact ⟨_, _, _, _, rfl⟩
  · exact ⟨_, _, _, _, rfl⟩

/-- What `iv_signal_register` does to the data of a process that owns them. -/
def enrolled (m : SigMem) (pid : Pid) (th : ThreadId) (this : SigPtr) (tree : AvlState) : SigMem :=
  { m with
    ev                := Function.update m.ev this ⟨pid, m.numRaw⟩
    numRaw            := m.numRaw + 1
    active            := Function.update m.active this false
    totalNumInterests := Function.update m.totalNumInterests (m.signum this)
      (m.totalNumInterests (m.signum this) + 1)
    installed         := Function.update m.installed (m.signum this) true
    sigs              := Function.update m.sigs (ivSignalTree (m.flags this) th) tree
    mine              := insert this m.mine
    home              := Function.update m.home this th }

lemma interestsAt_insert (m' : SigMem) (hmine : m'.mine = insert this m.mine)
    (hplace : ∀ i ∈ m.mine, m'.place i = m.place i) (p : Option ThreadId) :
    m'.interestsAt p =
      if m'.place this = p then insert this (m.interestsAt p) else m.interestsAt p := by
  rw [interestsAt, hmine, Finset.filter_insert, interestsAt,
    Finset.filter_congr fun i hi => by rw [hplace i hi]]

lemma Own.enrolled (h : m.Own) (pid : Pid) (hth : th ∈ m.threads) (hthis : this ∉ m.mine) :
    ∃ tree, ivAvlTreeInsert (ivSignalCompare m.signum m.flags) avlFuel
        (m.sigs (ivSignalTree (m.flags this) th)) this = .ok (0, tree) ∧
      (m.enrolled pid th this tree).Own := by
  have hmem : ivSignalTree (m.flags this) th ∈ m.places := by
    rw [ivSignalTree, places]
    split_ifs
    · exact Finset.some_mem_insertNone.mpr hth
    · exact Finset.none_mem_insertNone
  have hnot : this ∉ m.interestsAt (ivSignalTree (m.flags this) th) := fun hi =>
    hthis (mem_interestsAt.mp hi).1
  obtain ⟨tree, hinsert, htree⟩ := KeyTree.insert (h.trees _ hmem) hnot fun i hi he =>
    hnot (sigRank_inj he ▸ hi)
  rw [← ivSignalCompare_eq] at hinsert
  have hat := interestsAt_insert (m.enrolled pid th this tree) rfl fun i hi => by
    simp [place, SigMem.enrolled, ne_of_mem_mine hthis hi]
  have hplace : (m.enrolled pid th this tree).place this = ivSignalTree (m.flags this) th := by
    simp [place, SigMem.enrolled]
  refine ⟨tree, hinsert, fun p hp => ?_, fun i hi => ?_, fun s => ?_⟩
  · rw [hat p, hplace]
    by_cases hpeq : ivSignalTree (m.flags this) th = p
    · subst hpeq
      rw [if_pos rfl]
      simpa [SigMem.enrolled, SigMem.Tree] using htree
    · rw [if_neg hpeq]
      simpa [SigMem.enrolled, SigMem.Tree, Ne.symm hpeq] using h.trees p hp
  · rcases Finset.mem_insert.mp hi with rfl | hi
    · simpa [SigMem.enrolled] using hth
    · simpa [SigMem.enrolled, ne_of_mem_mine hthis hi] using h.home i hi
  · have hcard : this ∉ m.mine.filter fun i => m.signum i = s := fun hi =>
      hthis (Finset.mem_filter.mp hi).1
    change Function.update m.totalNumInterests (m.signum this)
        (m.totalNumInterests (m.signum this) + 1) s =
      (((insert this m.mine).filter fun i => m.signum i = s).card : ℤ)
    rw [Finset.filter_insert]
    by_cases hs : m.signum this = s
    · rw [if_pos hs, Finset.card_insert_of_notMem hcard, hs, Function.update_self, h.total s]
      push_cast
      rfl
    · rw [if_neg hs, Function.update_of_ne (Ne.symm hs), h.total s]

lemma Raws.enrolled {tree : AvlState} (h : m.Raws pid) (hthis : this ∉ m.mine) :
    (m.enrolled pid th this tree).Raws pid := by
  have hself : (m.enrolled pid th this tree).ev this = ⟨pid, m.numRaw⟩ :=
    Function.update_self _ _ _
  have hold : ∀ i ∈ m.mine, (m.enrolled pid th this tree).ev i = m.ev i := fun i hi =>
    Function.update_of_ne (ne_of_mem_mine hthis hi) _ _
  -- the new raw event is none of the old ones
  have hnew : ∀ i ∈ m.mine, m.ev i ≠ ⟨pid, m.numRaw⟩ := by
    intro i hi he
    have := h.num i hi
    rw [he] at this
    exact lt_irrefl _ this
  refine ⟨fun i hi => ?_, fun i hi => ?_, fun i hi j hj hij => ?_⟩
  · rcases Finset.mem_insert.mp hi with rfl | hi
    · rw [hself]
    · rw [hold i hi]
      exact h.pid i hi
  · rcases Finset.mem_insert.mp hi with rfl | hi
    · rw [hself]
      exact Nat.lt_succ_self _
    · rw [hold i hi]
      exact (h.num i hi).trans (Nat.lt_succ_self _)
  · rcases Finset.mem_insert.mp hi with hi | hi <;> rcases Finset.mem_insert.mp hj with hj | hj
    · rw [hi, hj]
    · rw [hi, hself, hold j hj] at hij
      exact absurd hij.symm (hnew j hj)
    · rw [hj, hself, hold i hi] at hij
      exact absurd hij (hnew i hi)
    · rw [hold i hi, hold j hj] at hij
      exact h.inj hi hj hij

lemma Ok.enrolled (h : m.Ok nsig pid) (th : ThreadId) (this : SigPtr)
    (hpid : m.sigOwnerPid = pid) (hth : th ∈ m.threads)
    (hthis : this ∉ m.mine) (hrange : 0 ≤ m.signum this ∧ m.signum this < nsig) :
    ∃ tree, ivAvlTreeInsert (ivSignalCompare m.signum m.flags) avlFuel
        (m.sigs (ivSignalTree (m.flags this) th)) this = .ok (0, tree) ∧
      (m.enrolled pid th this tree).Ok nsig pid := by
  obtain ⟨tree, hinsert, hown⟩ := (h.own hpid).enrolled pid hth hthis
  have hnonneg := h.nonneg (m.signum this)
  refine ⟨tree, hinsert, fun s => ?_, fun s hs => ?_, fun s => ?_, fun he => ?_,
    fun he => absurd hpid he, fun _ => hown, h.raws.enrolled hthis⟩
  · by_cases hs : s = m.signum this
    · subst hs
      simp only [SigMem.enrolled, Function.update_self, true_iff]
      omega
    · simp only [SigMem.enrolled, Function.update_of_ne hs]
      exact h.installed s
  · by_cases hsig : s = m.signum this
    · exact hsig ▸ hrange
    · simp only [SigMem.enrolled, Function.update_of_ne hsig] at hs
      exact h.range s hs
  · by_cases hs : s = m.signum this
    · subst hs
      simp only [SigMem.enrolled, Function.update_self]
      omega
    · simp only [SigMem.enrolled, Function.update_of_ne hs]
      exact h.nonneg s
  · exact absurd (hpid.symm.trans he) pid.2.ne'

/-- What `iv_signal_unregister` does, but for handing on a signal. -/
def dismissed (m : SigMem) (this : SigPtr) (tree : AvlState) : SigMem :=
  discountInterest (m.signum this)
    (SigMem.setTree { m with mine := m.mine.erase this } (m.place this) tree)

lemma Own.dismissed (h : m.Own) (hthis : this ∈ m.mine) :
    ∃ tree, ivAvlTreeDelete avlFuel (m.sigs (m.place this)) this = .ok tree ∧
      (m.dismissed this tree).Own := by
  have hmem : this ∈ m.interestsAt (m.place this) := mem_interestsAt.mpr ⟨hthis, rfl⟩
  obtain ⟨tree, hdelete, htree⟩ := KeyTree.delete (h.trees _ (h.place_mem hthis)) hmem
  have hat : ∀ p, (m.dismissed this tree).interestsAt p = (m.interestsAt p).erase this := fun p =>
    Finset.filter_erase _ _ _
  refine ⟨tree, hdelete, fun p hp => ?_, fun i hi => h.home i (Finset.mem_of_mem_erase hi),
    fun s => ?_⟩
  · rw [hat p]
    by_cases hpeq : p = m.place this
    · subst hpeq
      simpa [SigMem.dismissed, discountInterest, setTree, SigMem.Tree] using htree
    · rw [Finset.erase_eq_of_notMem fun hi => hpeq (mem_interestsAt.mp hi).2.symm]
      simpa [SigMem.dismissed, discountInterest, setTree, SigMem.Tree, hpeq] using h.trees p hp
  · change Function.update m.totalNumInterests (m.signum this)
        (m.totalNumInterests (m.signum this) - 1) s =
      (((m.mine.erase this).filter fun i => m.signum i = s).card : ℤ)
    rw [Finset.filter_erase]
    by_cases hs : s = m.signum this
    · subst hs
      have hin : this ∈ m.mine.filter fun i => m.signum i = m.signum this :=
        Finset.mem_filter.mpr ⟨hthis, rfl⟩
      have hpos := h.total_pos hthis
      rw [h.total] at hpos
      rw [Function.update_self, h.total, Finset.card_erase_of_mem hin]
      omega
    · rw [Function.update_of_ne hs, h.total s, Finset.erase_eq_of_notMem]
      exact fun hi => hs (Finset.mem_filter.mp hi).2.symm

lemma Ok.owner_of_mem (h : m.Ok nsig pid) (hthis : this ∈ m.mine) : m.sigOwnerPid = pid := by
  by_contra hne
  rw [h.mine hne] at hthis
  exact absurd hthis (Finset.notMem_empty this)

lemma discountInterest_installed {s₀ : ℤ}
    (h : ∀ s, m.installed s = true ↔ 0 < m.totalNumInterests s)
    (hpos : 0 < m.totalNumInterests s₀) (s : ℤ) :
    (discountInterest s₀ m).installed s = true ↔
      0 < (discountInterest s₀ m).totalNumInterests s := by
  simp only [discountInterest]
  by_cases hs : s = s₀
  · subst hs
    rw [Function.update_self]
    split_ifs with hzero
    · rw [Function.update_self]
      simp [hzero]
    · rw [h s]
      omega
  · rw [Function.update_of_ne hs, ← h s]
    split_ifs
    · rw [Function.update_of_ne hs]
    · rfl

lemma Ok.dismissed (h : m.Ok nsig pid) (hthis : this ∈ m.mine) :
    ∃ tree, ivAvlTreeDelete avlFuel (m.sigs (m.place this)) this = .ok tree ∧
      (m.dismissed this tree).Ok nsig pid := by
  have hpid := h.owner_of_mem hthis
  obtain ⟨tree, hdelete, hown⟩ := (h.own hpid).dismissed hthis
  have htotal : ∀ s, s ≠ m.signum this →
      (m.dismissed this tree).totalNumInterests s = m.totalNumInterests s := fun s hs =>
    Function.update_of_ne hs _ _
  have hpos := (h.own hpid).total_pos hthis
  refine ⟨tree, hdelete, fun s => ?_, fun s hs => ?_, fun s => ?_, fun he => ?_,
    fun he => absurd hpid he, fun _ => hown, h.raws.mono (Finset.erase_subset _ _) rfl rfl⟩
  · exact discountInterest_installed h.installed hpos s
  · by_cases hsig : s = m.signum this
    · exact h.range s (hsig ▸ hpos.ne')
    · exact h.range s (htotal s hsig ▸ hs)
  · rw [hown.total s]
    exact Int.natCast_nonneg _
  · exact absurd (hpid.symm.trans he) pid.2.ne'

lemma Wakes.eq_nil {T : Finset SigPtr} {W : List SigPtr} (h : m.Wakes T s W) :
    W = [] ↔ ∀ i ∈ T, m.signum i ≠ s := by
  constructor
  · rintro rfl i hi hs
    by_cases hex : ∃ i ∈ T, m.signum i = s ∧ (m.flags i).exclusive = true
    · obtain ⟨j, hj, -⟩ := h.first hex
      cases hj
    · refine absurd (h.all (fun j hj hsj => ?_) i hi hs) List.not_mem_nil
      exact Bool.eq_false_iff.mpr fun hjex => hex ⟨j, hj, hsj, hjex⟩
  · intro hne
    refine List.eq_nil_iff_forall_not_mem.mpr fun i hi => ?_
    obtain ⟨hi, hs⟩ := h.mem i hi
    exact hne i hi hs

/-- The tree whose interests a signal wakes in the thread `th`. -/
def Serves (m : SigMem) (th : ThreadId) (s : ℤ) (p : Option ThreadId) : Prop :=
  (p = some th ∧ th ∈ m.threads ∧ ∃ i ∈ m.interestsAt (some th), m.signum i = s) ∨
    (p = none ∧ (th ∈ m.threads → ∀ i ∈ m.interestsAt (some th), m.signum i ≠ s))

end SigMem

namespace SigView

variable {v v' : SigView} {nsig : ℕ} {pid : Pid} {th : ThreadId} {s : ℤ}

lemma handler_of_owner (th : ThreadId) (s : ℤ) (h : v.mem.Own) (hpid : v.mem.sigOwnerPid = pid) :
    ∃ p W, ivSignalHandler pid th s v = .ok (v.wake W) ∧ v.mem.Serves th s p ∧
      v.mem.Wakes (v.mem.interestsAt p) s W := by
  have howner : ¬ (v.mem.sigOwnerPid = 0 ∨ v.mem.sigOwnerPid ≠ pid) := by
    rw [hpid]
    simp [pid.2.ne']
  obtain ⟨W, hwake, hW⟩ := (h.trees none Finset.none_mem_insertNone).doWake s
  rw [ivSignalHandler, if_neg howner]
  by_cases hth : th ∈ v.mem.threads
  · obtain ⟨W', hwake', hW'⟩ := (h.trees (some th) (Finset.some_mem_insertNone.mpr hth)).doWake s
    rw [if_pos hth, hwake', ok_bind]
    by_cases hnil : W' = []
    · subst hnil
      refine ⟨none, W, ?_, Or.inr ⟨rfl, fun _ => hW'.eq_nil.mp rfl⟩, hW⟩
      change (ivSignalDoWake (v.mem.sigs none) s v).map Prod.snd = _
      rw [hwake]
      rfl
    · have hsome : ∃ i ∈ v.mem.interestsAt (some th), v.mem.signum i = s := by
        by_contra hnone
        exact hnil (hW'.eq_nil.mpr fun i hi hs => hnone ⟨i, hi, hs⟩)
      refine ⟨some th, W', ?_, Or.inl ⟨rfl, hth, hsome⟩, hW'⟩
      simp [hnil]
  · rw [if_neg hth]
    refine ⟨none, W, ?_, Or.inr ⟨rfl, fun hmem => absurd hmem hth⟩, hW⟩
    rw [hwake]
    rfl

lemma countInterest_eq {m m' : SigMem} {refused : Bool}
    (hinst : m.totalNumInterests s ≠ 0 → m.installed s = true)
    (h : countInterest refused s m = .ok m') :
    m' = { m with
      totalNumInterests := Function.update m.totalNumInterests s (m.totalNumInterests s + 1)
      installed         := Function.update m.installed s true } := by
  simp only [countInterest] at h
  split_ifs at h with hzero hrefused
  · exact (Except.ok.inj h).symm
  · rw [← Except.ok.inj h, ← hinst hzero, Function.update_eq_self]

/-- What `iv_signal_register` does. -/
lemma register_cases {this : SigPtr} {refused : Bool} {ret : ℤ} (h : v.mem.Ok nsig pid)
    (hth : th ∈ v.mem.threads) (hthis : this ∉ v.mem.mine)
    (halone : v.mem.sigOwnerPid ≠ 0 → v.mem.sigOwnerPid ≠ pid →
      0 ≤ v.mem.signum this → v.mem.signum this < nsig →
      ∀ th' ∈ v.mem.threads, th' ≠ th → (v.mem.sigs (some th')).root = none)
    (hreg : ivSignalRegister nsig pid th this refused v = .ok (ret, v')) :
    (ret = -1 ∧ v' = v) ∨
    (ret = 0 ∧ ∃ tree, ((claimOwner nsig pid th v.mem).enrolled pid th this tree).Ok nsig pid ∧
      { v'.mem with
        mine := insert this v'.mem.mine
        home := Function.update v'.mem.home this th } =
        (claimOwner nsig pid th v.mem).enrolled pid th this tree ∧
      v'.unread = Function.update v.unread ⟨pid, (claimOwner nsig pid th v.mem).numRaw⟩ 0) := by
  simp only [ivSignalRegister] at hreg
  split_ifs at hreg with hrange
  · simp only [Except.ok.injEq, Prod.mk.injEq] at hreg
    exact Or.inl ⟨hreg.1.symm, hreg.2.symm⟩
  · push Not at hrange
    obtain ⟨hok, hpid⟩ := h.claimOwner th fun h0 hne => halone h0 hne hrange.1 hrange.2
    obtain ⟨owner, total, installed, sigs, heq⟩ := SigMem.claimOwner_eq nsig pid th v.mem
    have hmine : (claimOwner nsig pid th v.mem).mine = v.mem.mine := by rw [heq]
    have hthreads : (claimOwner nsig pid th v.mem).threads = v.mem.threads := by rw [heq]
    have hsig : (claimOwner nsig pid th v.mem).signum = v.mem.signum := by rw [heq]
    set m := claimOwner nsig pid th v.mem with hm
    obtain ⟨tree, hinsert, hok'⟩ := hok.enrolled th this hpid (hthreads ▸ hth)
      (hmine ▸ hthis) (hsig ▸ hrange)
    rw [← hsig] at hreg
    obtain ⟨m', hcount, hreg⟩ := bind_eq_ok.mp hreg
    have hinst : m.totalNumInterests (m.signum this) ≠ 0 → m.installed (m.signum this) = true :=
      fun hne => (hok.installed _).mpr (lt_of_le_of_ne (hok.nonneg _) hne.symm)
    obtain rfl := countInterest_eq (m := (setUp ⟨m, v.unread⟩ pid this).mem) hinst hcount
    obtain ⟨⟨r, tree'⟩, hins, hreg⟩ := bind_eq_ok.mp hreg
    obtain ⟨-, rfl⟩ := Prod.mk.inj (Except.ok.inj (hinsert.symm.trans hins))
    obtain ⟨rfl, rfl⟩ := Prod.mk.inj (Except.ok.inj hreg)
    exact Or.inr ⟨rfl, tree, hok', rfl, rfl⟩

/-- What `iv_signal_unregister` does. If the interest was exclusive and active, the signal is handed
on to the others in it. -/
lemma unregister_cases {this : SigPtr} {m : SigMem} {u : RawId → ℕ} (h : m.Ok nsig pid)
    (hthis : this ∈ m.mine)
    (hunreg : ivSignalUnregister nsig (m.home this) this
      ⟨{ m with mine := m.mine.erase this }, u⟩ = .ok v') :
    ∃ tree W, (m.dismissed this tree).Ok nsig pid ∧
      v' = SigView.wake ⟨m.dismissed this tree, u⟩ W ∧
      (W = [] ∨ (m.dismissed this tree).Wakes
        ((m.dismissed this tree).interestsAt (m.place this)) (m.signum this) W) ∧
      ((m.dismissed this tree).totalNumInterests (m.signum this) ≠ 0 →
        (m.flags this).exclusive = true → m.active this = true → (m.dismissed this tree).Wakes
          ((m.dismissed this tree).interestsAt (m.place this)) (m.signum this) W) := by
  obtain ⟨tree, hdelete, hok⟩ := h.dismissed hthis
  have hpid := h.owner_of_mem hthis
  obtain ⟨h0, hlt⟩ := h.range _ ((h.own hpid).total_pos hthis).ne'
  have hrange : ¬ (m.signum this < 0 ∨ (nsig : ℤ) ≤ m.signum this) := by omega
  simp only [ivSignalUnregister] at hunreg
  rw [if_neg hrange] at hunreg
  obtain ⟨tree', hdel, hunreg⟩ := bind_eq_ok.mp hunreg
  obtain rfl := Except.ok.inj (hdelete.symm.trans hdel)
  refine ⟨tree, ?_⟩
  split_ifs at hunreg with hon
  · obtain ⟨W, hwake, hW⟩ := SigMem.Tree.doWake (v := ⟨m.dismissed this tree, u⟩)
      ((hok.own hpid).trees (m.place this) ((h.own hpid).place_mem hthis)) (m.signum this)
    refine ⟨W, hok, ?_, Or.inr hW, fun _ _ _ => hW⟩
    have hmap := congrArg (Except.map Prod.snd) hwake
    exact Except.ok.inj (hunreg.symm.trans hmap)
  · refine ⟨[], hok, (Except.ok.inj hunreg).symm, Or.inl rfl, fun htotal hex hact => ?_⟩
    exact absurd ⟨htotal, hex, hact⟩ hon

end SigView

end Ivykis
