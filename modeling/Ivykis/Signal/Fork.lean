import Mathlib.Algebra.BigOperators.Option
import Mathlib.Algebra.BigOperators.Ring.Finset
import Mathlib.Algebra.Order.BigOperators.Group.Finset
import Ivykis.Signal.Bookkeeping

/-!
# Signals across `fork`

Until a forked child owns the data, its copy of its parent's data is never used: the handler
returns early, and `iv_signal_register` starts by dropping what was inherited. It drops the tree of
the calling thread only, so this thread has to be the one that came out of `fork`, or the parent's
interests stay where the child's signals find them.
-/

namespace Ivykis

open Kit.Avl

/-! ### Steps of one process -/

/-- The operation calls `iv_signal_child_reset_postfork`. -/
def SigMem.Resets (m : SigMem) (nsig : ℕ) (pid : Pid) : SigOp → Prop
  | .reset                   => True
  | .register _ signum _ _   =>
    0 ≤ signum ∧ signum < nsig ∧ m.sigOwnerPid ≠ 0 ∧ m.sigOwnerPid ≠ pid
  | _                        => False

instance (m : SigMem) (nsig : ℕ) (pid : Pid) (op : SigOp) : Decidable (m.Resets nsig pid op) := by
  unfold SigMem.Resets
  split <;> infer_instance

/-- If the thread `th` calls `iv_signal_child_reset_postfork`, then its process has not registered
an interest before, and no other thread of it has a tree that is not empty. -/
def SigMem.ResetsAlone (m : SigMem) (nsig : ℕ) (pid : Pid) (th : ThreadId) (op : SigOp) : Prop :=
  m.Resets nsig pid op →
    m.sigOwnerPid ≠ pid ∧ ∀ th' ∈ m.threads, th' ≠ th → (m.sigs (some th')).root = none

instance (m : SigMem) (nsig : ℕ) (pid : Pid) (th : ThreadId) (op : SigOp) :
    Decidable (m.ResetsAlone nsig pid th op) :=
  inferInstanceAs (Decidable (_ → _ ∧ _))

/-- What a step does to a process whose data are in order. -/
inductive SigStepped (nsig : ℕ) (pid : Pid) (th : ThreadId) (v : SigView) : SigOp → SigView → Prop
  | start (hth : th ∉ v.mem.threads) : SigStepped nsig pid th v .start
      { v with mem := { v.mem.setTree (some th) (v.mem.sigs (some th)).dropNodes with
          threads := insert th v.mem.threads } }
  | exit (hhome : ∀ i ∈ v.mem.mine, v.mem.home i ≠ th) : SigStepped nsig pid th v .exit
      { v with mem := { v.mem with threads := v.mem.threads.erase th } }
  | refuse {this signum flags refused} (hthis : this ∉ v.mem.mine) :
      SigStepped nsig pid th v (.register this signum flags refused)
        { v with mem := v.mem.fillIn this signum flags }
  | register {this signum flags refused tree m} (hthis : this ∉ v.mem.mine)
      (hm : m = claimOwner nsig pid th (v.mem.fillIn this signum flags))
      (hok : (m.enrolled pid th this tree).Ok nsig pid) :
      SigStepped nsig pid th v (.register this signum flags refused)
        ⟨m.enrolled pid th this tree, Function.update v.unread ⟨pid, m.numRaw⟩ 0⟩
  | unregister {this tree W} (hthis : this ∈ v.mem.mine)
      (hok : (v.mem.dismissed this tree).Ok nsig pid)
      (hW : W = [] ∨ (v.mem.dismissed this tree).Wakes
        ((v.mem.dismissed this tree).interestsAt (v.mem.place this)) (v.mem.signum this) W)
      (hon : (v.mem.dismissed this tree).totalNumInterests (v.mem.signum this) ≠ 0 →
        (v.mem.flags this).exclusive = true → v.mem.active this = true →
        (v.mem.dismissed this tree).Wakes
          ((v.mem.dismissed this tree).interestsAt (v.mem.place this)) (v.mem.signum this) W) :
      SigStepped nsig pid th v (.unregister this)
        (SigView.wake ⟨v.mem.dismissed this tree, v.unread⟩ W)
  | ignore {s} (hpid : v.mem.sigOwnerPid ≠ pid) : SigStepped nsig pid th v (.deliver s) v
  | deliver {s p W} (hpid : v.mem.sigOwnerPid = pid) (hserves : v.mem.Serves th s p)
      (hW : v.mem.Wakes (v.mem.interestsAt p) s W) :
      SigStepped nsig pid th v (.deliver s) (v.wake W)
  | event {this left} (hthis : this ∈ v.mem.mine) :
      SigStepped nsig pid th v (.event this left)
        (ivSignalEvent this { v with unread := Function.update v.unread (v.mem.ev this) left })
  | reset : SigStepped nsig pid th v .reset
      { v with mem := ivSignalChildResetPostfork nsig th v.mem }

section Step

variable {nsig : ℕ} {pid : Pid} {th : ThreadId} {v v' : SigView} {op : SigOp}

lemma SigStepped.of_sigStep (h : v.mem.Ok nsig pid) (halone : v.mem.ResetsAlone nsig pid th op)
    (hstep : sigStep nsig pid th v op = some v') : SigStepped nsig pid th v op v' := by
  cases op with
  | start =>
    simp only [sigStep, Option.ite_none_left_eq_some, Option.some.injEq] at hstep
    obtain ⟨hth, rfl⟩ := hstep
    exact .start hth
  | exit =>
    simp only [sigStep, Option.ite_none_right_eq_some, Option.some.injEq] at hstep
    obtain ⟨⟨-, hhome⟩, rfl⟩ := hstep
    exact .exit hhome
  | register this signum flags refused =>
    simp only [sigStep, Option.ite_none_right_eq_some, Option.bind_eq_bind,
      Option.bind_eq_some_iff, toOption_eq_some] at hstep
    obtain ⟨⟨hth, hthis⟩, ⟨ret, w⟩, hreg, hstep⟩ := hstep
    have hsignum : (v.mem.fillIn this signum flags).signum this = signum :=
      Function.update_self _ _ _
    rcases SigView.register_cases (v := ⟨v.mem.fillIn this signum flags, v.unread⟩)
      (h.fillIn hthis _ _) hth hthis
      (fun h0 hne hnonneg hlt => (halone ⟨hsignum ▸ hnonneg, hsignum ▸ hlt, h0, hne⟩).2) hreg with
      ⟨rfl, rfl⟩ | ⟨rfl, tree, hok, hmem, hunread⟩
    · obtain rfl : _ = v' := Option.some.inj hstep
      exact .refuse hthis
    · rw [if_pos rfl, hmem, hunread, Option.some.injEq] at hstep
      rw [← hstep]
      exact .register hthis rfl hok
  | unregister this =>
    simp only [sigStep, Option.ite_none_right_eq_some, toOption_eq_some] at hstep
    obtain ⟨⟨hthis, rfl⟩, hunreg⟩ := hstep
    obtain ⟨tree, W, hok, rfl, hW, hon⟩ := SigView.unregister_cases h hthis hunreg
    exact .unregister hthis hok hW hon
  | deliver s =>
    simp only [sigStep, Option.ite_none_right_eq_some, toOption_eq_some] at hstep
    by_cases hpid : v.mem.sigOwnerPid = pid
    · obtain ⟨p, W, hwake, hserves, hW⟩ :=
        SigView.handler_of_owner th s (h.own hpid) hpid
      rw [hwake] at hstep
      rw [← Except.ok.inj hstep.2]
      exact .deliver hpid hserves hW
    · rw [ivSignalHandler, if_pos (Or.inr hpid)] at hstep
      rw [← Except.ok.inj hstep.2]
      exact .ignore hpid
  | event this left =>
    simp only [sigStep, Option.ite_none_right_eq_some, Option.some.injEq] at hstep
    obtain ⟨⟨hthis, -, -⟩, rfl⟩ := hstep
    exact .event hthis
  | reset =>
    obtain rfl := Option.some.inj hstep
    exact .reset

/-- Flags do not matter to the bookkeeping. -/
lemma SigMem.Ok.setActive {m : SigMem} (h : m.Ok nsig pid) (f : SigPtr → Bool) :
    SigMem.Ok nsig pid { m with active := f } :=
  ⟨h.installed, h.range, h.nonneg, h.idle, h.mine,
    fun hpid => ⟨(h.own hpid).trees, (h.own hpid).home, (h.own hpid).total⟩,
    h.raws.mono subset_rfl rfl rfl⟩

lemma SigView.wake_ok {m : SigMem} {u : RawId → ℕ} (h : m.Ok nsig pid) (W : List SigPtr) :
    (SigView.wake ⟨m, u⟩ W).mem.Ok nsig pid := by
  rw [SigView.wake_mem]
  exact h.setActive _

lemma eq_or_mem_of_mem_insert {p : Option ThreadId} {threads : Finset ThreadId}
    (hp : p ∈ Finset.insertNone (insert th threads)) :
    p = some th ∨ p ∈ Finset.insertNone threads := by
  rcases p with _ | th'
  · exact Or.inr Finset.none_mem_insertNone
  · rw [Finset.some_mem_insertNone, Finset.mem_insert] at hp
    rw [Finset.some_mem_insertNone, Option.some.injEq]
    exact hp

lemma SigMem.Own.start {m : SigMem} (h : m.Own) (hth : th ∉ m.threads) :
    SigMem.Own { m.setTree (some th) (m.sigs (some th)).dropNodes with
      threads := insert th m.threads } where
  trees p hp := by
    by_cases hpeq : p = some th
    · subst hpeq
      -- nothing is registered in a thread that has not started
      have hnone : m.interestsAt (some th) = ∅ := by
        refine Finset.eq_empty_of_forall_notMem fun i hi => hth ?_
        obtain ⟨hi, hplace⟩ := SigMem.mem_interestsAt.mp hi
        exact Finset.some_mem_insertNone.mp (hplace ▸ h.place_mem hi)
      change m.Tree (Function.update m.sigs (some th) _ (some th)) (m.interestsAt (some th))
      rw [hnone, Function.update_self]
      exact SigMem.tree_of_root rfl
    · have hp' : p ∈ m.places := (eq_or_mem_of_mem_insert hp).resolve_left hpeq
      change m.Tree (Function.update m.sigs (some th) _ p) (m.interestsAt p)
      rw [Function.update_of_ne hpeq]
      exact h.trees p hp'
  home i hi := Finset.mem_insert_of_mem (h.home i hi)
  total := h.total

lemma SigStepped.ok (h : v.mem.Ok nsig pid) (halone : v.mem.ResetsAlone nsig pid th op)
    (hstep : SigStepped nsig pid th v op v') : v'.mem.Ok nsig pid := by
  cases hstep with
  | start hth =>
    refine ⟨h.installed, h.range, h.nonneg, fun hidle => ⟨fun p hp => ?_, (h.idle hidle).2⟩, h.mine,
      fun hpid => (h.own hpid).start hth, h.raws.mono subset_rfl rfl rfl⟩
    change (Function.update v.mem.sigs (some th) _ p).root = none
    by_cases hpeq : p = some th
    · rw [hpeq, Function.update_self]
      rfl
    · rw [Function.update_of_ne hpeq]
      exact (h.idle hidle).1 p ((eq_or_mem_of_mem_insert hp).resolve_left hpeq)
  | exit hhome =>
    have hsub : ∀ p ∈ Finset.insertNone (v.mem.threads.erase th), p ∈ v.mem.places := by
      intro p hp
      rcases p with _ | th'
      · exact Finset.none_mem_insertNone
      · exact Finset.some_mem_insertNone.mpr
          (Finset.mem_of_mem_erase (Finset.some_mem_insertNone.mp hp))
    refine ⟨h.installed, h.range, h.nonneg,
      fun hidle => ⟨fun p hp => (h.idle hidle).1 p (hsub p hp), (h.idle hidle).2⟩, h.mine,
      fun hpid => ⟨fun p hp => (h.own hpid).trees p (hsub p hp), fun i hi => ?_,
        (h.own hpid).total⟩,
    h.raws.mono subset_rfl rfl rfl⟩
    exact Finset.mem_erase.mpr ⟨hhome i hi, (h.own hpid).home i hi⟩
  | refuse hthis => exact h.fillIn hthis _ _
  | register _ _ hok => exact hok
  | unregister _ hok _ _ => exact SigView.wake_ok hok _
  | ignore _ => exact h
  | deliver _ _ _ => exact SigView.wake_ok h _
  | event _ => exact h.setActive _
  | reset =>
    obtain ⟨hforeign, hroot⟩ := halone trivial
    exact h.reset hforeign hroot

lemma SigStepped.owner (hstep : SigStepped nsig pid th v op v') :
    v'.mem.sigOwnerPid = v.mem.sigOwnerPid ∨ v'.mem.sigOwnerPid = 0 ∨
      v'.mem.sigOwnerPid = pid := by
  cases hstep with
  | register _ hm _ =>
    rw [claimOwner] at hm
    split_ifs at hm
    · exact Or.inr (Or.inr (congrArg SigMem.sigOwnerPid hm))
    · exact Or.inr (Or.inr (congrArg SigMem.sigOwnerPid hm))
    · subst hm
      exact Or.inl rfl
  | unregister _ _ _ _ =>
    rw [SigView.wake_mem]
    exact Or.inl rfl
  | deliver _ _ _ =>
    rw [SigView.wake_mem]
    exact Or.inl rfl
  | reset => exact Or.inr (Or.inl rfl)
  | _ => exact Or.inl rfl

/-- A signal changes nothing outside its own process and the interests registered there. -/
lemma SigStepped.deliver_frame {s : ℤ} (h : v.mem.Ok nsig pid)
    (hstep : SigStepped nsig pid th v (.deliver s) v') :
    (∀ i, i ∉ v.mem.mine → v'.mem.active i = v.mem.active i) ∧
      ∀ r : RawId, r.pid ≠ pid → v'.unread r = v.unread r := by
  cases hstep with
  | ignore _ => exact ⟨fun _ _ => rfl, fun _ _ => rfl⟩
  | @deliver _ p W hpid _ hW =>
    have hmine : ∀ i ∈ W, i ∈ v.mem.mine := fun i hi =>
      (SigMem.mem_interestsAt.mp (hW.mem i hi).1).1
    refine ⟨fun i hi => ?_, fun r hr => SigView.wake_unread_of_ne fun i hi he => ?_⟩
    · have hnot : i ∉ W := fun hiW => hi (hmine i hiW)
      simp [SigView.wake_mem, hnot]
    · exact hr (he ▸ h.raws.pid i (hmine i hi))

end Step

/-- `iv_signal_child_reset_postfork` is called in a thread that is alone, see
`SigMem.ResetsAlone`. -/
def SigSystem.ResetsAlone (nsig : ℕ) (s : SigSystem) : SigLabel → Prop
  | .op pid th op => ∀ m ∈ s.procs pid, m.ResetsAlone nsig pid th op
  | .fork _ _ _   => True

instance (nsig : ℕ) (s : SigSystem) (a : SigLabel) : Decidable (s.ResetsAlone nsig a) := by
  unfold SigSystem.ResetsAlone
  split <;> infer_instance

/-- What holds of all processes: each has its data in order, and the owner of the data is nobody or
a process there is. -/
structure SigSystem.Ok (nsig : ℕ) (s : SigSystem) : Prop where
  procs  : ∀ pid m, s.procs pid = some m → m.Ok nsig pid
  owners : ∀ pid m, s.procs pid = some m →
    m.sigOwnerPid = 0 ∨ ∃ q : Pid, s.procs q ≠ none ∧ m.sigOwnerPid = q

section System

variable {nsig : ℕ} {first : Pid} {s s' : SigSystem} {a : SigLabel}

lemma forkStep_op {pid : Pid} {th : ThreadId} {op : SigOp}
    (h : forkStep nsig first s (.op pid th op) = some s') :
    ∃ m v, s.procs pid = some m ∧ sigStep nsig pid th ⟨m, s.unread⟩ op = some v ∧
      s' = ⟨Function.update s.procs pid (some v.mem), v.unread⟩ := by
  simp only [forkStep, Option.ite_none_left_eq_some, Option.bind_eq_bind,
    Option.bind_eq_some_iff, Option.some.injEq] at h
  obtain ⟨-, m, hm, v, hv, rfl⟩ := h
  exact ⟨m, v, hm, hv, rfl⟩

/-- A forked child has not registered anything, and somebody else owns the data. -/
lemma SigMem.Ok.forked {m : SigMem} {pid child : Pid} {th : ThreadId} (h : m.Ok nsig pid)
    (howner : m.sigOwnerPid ≠ child) : (m.forked th).Ok nsig child := by
  refine ⟨h.installed, h.range, h.nonneg, fun hidle => ⟨fun p hp => ?_, (h.idle hidle).2⟩,
    fun _ => rfl, fun hpid => absurd hpid howner, SigMem.Raws.of_empty rfl⟩
  refine (h.idle hidle).1 p ?_
  rcases p with _ | th'
  · exact Finset.none_mem_insertNone
  · exact Finset.some_mem_insertNone.mpr
      (Finset.mem_filter.mp (Finset.some_mem_insertNone.mp hp)).1

lemma SigSystem.Ok.step (h : s.Ok nsig) (halone : s.ResetsAlone nsig a)
    (hstep : forkStep nsig first s a = some s') : s'.Ok nsig := by
  cases a with
  | op pid th op =>
    obtain ⟨m, v, hm, hv, rfl⟩ := forkStep_op hstep
    have halone' := halone m hm
    have hstepped := SigStepped.of_sigStep (h.procs pid m hm) halone' hv
    refine ⟨fun q m' hq => ?_, fun q m' hq => ?_⟩
    · by_cases hqpid : q = pid
      · subst hqpid
        obtain rfl : v.mem = m' := by simpa using hq
        exact hstepped.ok (h.procs q m hm) halone'
      · exact h.procs q m' (by simpa [hqpid] using hq)
    · have hsome : ∀ q, s.procs q ≠ none → Function.update s.procs pid (some v.mem) q ≠ none := by
        intro q hne
        by_cases hqpid : q = pid <;> simp [hqpid, hne]
      have howner : m'.sigOwnerPid = 0 ∨ m'.sigOwnerPid = pid ∨
          ∃ q : Pid, s.procs q ≠ none ∧ m'.sigOwnerPid = q := by
        by_cases hqpid : q = pid
        · subst hqpid
          obtain rfl : v.mem = m' := by simpa using hq
          rcases hstepped.owner with he | he | he
          · rw [he]
            exact (h.owners q m hm).imp_right Or.inr
          · exact Or.inl he
          · exact Or.inr (Or.inl he)
        · exact (h.owners q m' (by simpa [hqpid] using hq)).imp_right Or.inr
      rcases howner with he | he | ⟨q', hq', he⟩
      · exact Or.inl he
      · exact Or.inr ⟨pid, by simp, he⟩
      · exact Or.inr ⟨q', hsome q' hq', he⟩
  | fork pid th child =>
    simp only [forkStep] at hstep
    split at hstep
    case h_2 => cases hstep
    case h_1 m hm hchild =>
      obtain rfl := Option.some.inj hstep
      have hsome : ∀ q, s.procs q ≠ none →
          Function.update s.procs child (some (m.forked th)) q ≠ none := by
        intro q hne
        by_cases hq : q = child <;> simp [hq, hne]
      have howner : m.sigOwnerPid ≠ child := by
        intro he
        rcases h.owners pid m hm with h0 | ⟨q, hq, heq⟩
        · exact child.2.ne' (he.symm.trans h0)
        · exact hq (Subtype.ext (heq.symm.trans he) ▸ hchild)
      refine ⟨fun q m' hq => ?_, fun q m' hq => ?_⟩
      · by_cases hqc : q = child
        · subst hqc
          obtain rfl : m.forked th = m' := by simpa using hq
          exact (h.procs pid m hm).forked howner
        · exact h.procs q m' (by simpa [hqc] using hq)
      · have hold : ∃ q m₀, s.procs q = some m₀ ∧ m'.sigOwnerPid = m₀.sigOwnerPid := by
          by_cases hqc : q = child
          · subst hqc
            obtain rfl : m.forked th = m' := by simpa using hq
            exact ⟨pid, m, hm, rfl⟩
          · exact ⟨q, m', by simpa [hqc] using hq, rfl⟩
        obtain ⟨q₀, m₀, hq₀, he⟩ := hold
        rw [he]
        refine (h.owners q₀ m₀ hq₀).imp_right ?_
        rintro ⟨q', hq', he'⟩
        exact ⟨q', hsome q' hq', he'⟩

lemma SigMem.Ok.initial (m : SigMem) (pid : Pid) : m.initial.Ok nsig pid where
  installed s := by simp [SigMem.initial]
  range s hs  := absurd rfl hs
  nonneg s    := le_rfl
  idle _      := ⟨fun _ _ => rfl, fun _ => rfl⟩
  mine _      := rfl
  own hpid    := absurd hpid pid.2.ne
  raws        := SigMem.Raws.of_empty rfl

lemma SigSystem.Ok.init (m : SigMem) : (sigLts nsig first m).init.Ok nsig := by
  have hmem : ∀ pid m', (sigLts nsig first m).init.procs pid = some m' → m' = m.initial := by
    intro pid m' hm'
    by_cases hpid : pid = first
    · subst hpid
      simpa [sigLts, eq_comm] using hm'
    · simp [sigLts, hpid] at hm'
  refine ⟨fun pid m' hm' => ?_, fun pid m' hm' => Or.inl ?_⟩
  · rw [hmem pid m' hm']
    exact SigMem.Ok.initial m pid
  · rw [hmem pid m' hm']
    rfl

lemma SigSystem.Ok.of_run {m : SigMem} {tr : List SigLabel}
    (h : ((sigLts nsig first m).restrict (SigSystem.ResetsAlone nsig)).Run tr s) : s.Ok nsig := by
  refine h.reachable.invariant (P := SigSystem.Ok nsig) ?_ ?_
  · exact (SigSystem.Ok.init m : (sigLts nsig first m).init.Ok nsig)
  · intro s a s' hok hstep
    obtain ⟨halone, hstep⟩ := Kit.Lts.restrict_step.mp hstep
    exact hok.step halone hstep

end System

/-- The order of the trees. -/
def SigMem.order (m : SigMem) : AvlCompare where
  compare     := ivSignalCompare m.signum m.flags
  swap a b    := by
    rw [ivSignalCompare_eq]
    exact (keyOrder _).swap a b
  trans a b c := by
    rw [ivSignalCompare_eq]
    exact (keyOrder _).trans a b c

/-- `T p` are the nodes of the trees, and for each signal `total_num_interests` is the number of
interests in it. The handler is installed where it is positive. -/
structure SigMem.Counted (m : SigMem) (T : Option ThreadId → Finset SigPtr) : Prop where
  process   : ∃ t, AvlOk m.order (m.sigs none) (T none) t
  threads   : ∀ th ∈ m.threads, ∃ t, AvlOk m.order (m.sigs (some th)) (T (some th)) t
  total     : ∀ s, m.totalNumInterests s = ((T none).filter fun i => m.signum i = s).card +
    ∑ th ∈ m.threads, (((T (some th)).filter fun i => m.signum i = s).card : ℤ)
  installed : ∀ s, m.installed s = true ↔ 0 < m.totalNumInterests s

section Main

variable {nsig : ℕ} {first pid : Pid} {m m₀ : SigMem} {s : SigSystem} {tr : List SigLabel}

lemma SigMem.order_eq (m : SigMem) : m.order = keyOrder (sigRank m.signum m.flags) := by
  simp only [SigMem.order, keyOrder, ivSignalCompare_eq]

lemma SigMem.Tree.avlOk {tree : AvlState} {T : Finset SigPtr} (h : m.Tree tree T) :
    ∃ t, AvlOk m.order tree T t := by
  obtain ⟨t, ht⟩ := h
  rw [m.order_eq]
  exact ⟨t, ht.avlOk⟩

lemma SigMem.Own.counted (h : m.Own)
    (hinst : ∀ s, m.installed s = true ↔ 0 < m.totalNumInterests s) :
    m.Counted m.interestsAt where
  process       := (h.trees none Finset.none_mem_insertNone).avlOk
  threads th hth := (h.trees (some th) (Finset.some_mem_insertNone.mpr hth)).avlOk
  total s       := by
    rw [h.total s, Finset.card_eq_sum_card_fiberwise (f := m.place) (t := m.places)
      fun i hi => h.place_mem (Finset.mem_filter.mp hi).1, SigMem.places, Finset.sum_insertNone,
      Nat.cast_add, Nat.cast_sum]
    simp only [SigMem.interestsAt, Finset.filter_comm]
  installed     := hinst

/-- In every run in which `iv_signal_child_reset_postfork` is called by threads that are alone, a
process that owns the data counts its interests right and has the signal handler installed for the
signals that it counts any for. A signal delivered in a process wakes no interest that the process
has not registered itself, and posts no raw event of another process. -/
theorem signals_of_run (h : ((sigLts nsig first m₀).restrict (SigSystem.ResetsAlone nsig)).Run tr s)
    (hm : s.procs pid = some m) :
    (m.sigOwnerPid = pid → ∃ T, m.Counted T) ∧
    ∀ th signum s', (sigLts nsig first m₀).step s (.op pid th (.deliver signum)) = some s' →
      ∃ m', s'.procs pid = some m' ∧ (∀ i, i ∉ m.mine → m'.active i = m.active i) ∧
        ∀ r : RawId, r.pid ≠ pid → s'.unread r = s.unread r := by
  have hok := (SigSystem.Ok.of_run h).procs pid m hm
  refine ⟨fun hpid => ⟨_, (hok.own hpid).counted hok.installed⟩, fun th signum s' hstep => ?_⟩
  have hstep : forkStep nsig first s (.op pid th (.deliver signum)) = some s' := hstep
  obtain ⟨m', v, hm', hv, rfl⟩ := forkStep_op hstep
  obtain rfl := Option.some.inj (hm.symm.trans hm')
  have hstepped : SigStepped nsig pid th _ (.deliver signum) v :=
    SigStepped.of_sigStep hok (fun hresets => hresets.elim) hv
  exact ⟨v.mem, Function.update_self _ _ _, hstepped.deliver_frame hok⟩

end Main

/-! ### Two processes -/

/-- Memory before `iv_signal_init`. -/
def blankMem : SigMem where
  sigOwnerPid       := 0
  totalNumInterests := fun _ => 0
  sigs              := fun _ => emptyNodes
  signum            := fun _ => 0
  flags             := fun _ => ⟨false, false⟩
  active            := fun _ => false
  ev                := fun _ => ⟨⟨1, by decide⟩, 0⟩
  numRaw            := 0
  installed         := fun _ => false
  threads           := ∅
  mine              := ∅
  home              := fun _ => 0

def parentPid : Pid := ⟨1, by decide⟩

def childPid : Pid := ⟨2, by decide⟩

/-- The thread `1` has registered a thread interest `8` and forks. -/
def forkedOnce : List SigLabel :=
  [.op parentPid 1 .start, .op parentPid 1 (.register 8 10 ⟨false, true⟩ false),
    .fork parentPid 1 childPid]

/-- In the child it is this thread that registers first, and then another one. -/
def registeredInOrder : List SigLabel :=
  forkedOnce ++ [.op childPid 1 (.register 16 10 ⟨true, false⟩ false), .op childPid 2 .start,
    .op childPid 2 (.register 24 10 ⟨false, true⟩ false)]

theorem signals_of_run_registeredInOrder :
    ∃ s m, ((sigLts 64 parentPid blankMem).restrict (SigSystem.ResetsAlone 64)).Run
        registeredInOrder s ∧
      s.procs childPid = some m ∧ m.sigOwnerPid = childPid ∧ m.totalNumInterests 10 = 2 ∧
      ∃ T, m.Counted T := by
  simp only [exists_and_left]
  refine Kit.Lts.exists_run_of_decide (fun s => ((s.procs childPid).map fun m =>
    (m.sigOwnerPid, m.totalNumInterests 10)) = some (2, 2)) (by decide +kernel) fun s hrun hs => ?_
  obtain ⟨m, hm, heq⟩ := Option.map_eq_some_iff.mp hs
  obtain ⟨hpid, htotal⟩ := Prod.mk.inj heq
  exact ⟨m, hm, hpid, htotal, (signals_of_run hrun hm).1 hpid⟩

/-- In the child another thread registers first. -/
def registeredByOther : List SigLabel :=
  forkedOnce ++ [.op childPid 2 .start, .op childPid 2 (.register 16 10 ⟨false, false⟩ false)]

/-- The child drops its own interests with the inherited ones. -/
def resetLate : List SigLabel :=
  forkedOnce ++ [.op childPid 1 (.register 16 10 ⟨false, false⟩ false), .op childPid 1 .reset,
    .op childPid 1 (.register 24 10 ⟨false, false⟩ false),
    .op childPid 1 (.register 32 10 ⟨false, false⟩ false), .op childPid 1 (.unregister 16)]

lemma AvlOk.root_mem {cmp : AvlCompare} {st : AvlState} {S : Finset AvlPtr} {t : HTree AvlPtr}
    {a : AvlPtr} (h : AvlOk cmp st S t) (ha : st.root = some a) : a ∈ S := by
  rw [← h.nodes, List.mem_toFinset]
  exact HTree.root_mem (h.root ▸ ha)

lemma AvlOk.eq_empty {cmp : AvlCompare} {st : AvlState} {S : Finset AvlPtr} {t : HTree AvlPtr}
    (h : AvlOk cmp st S t) (hroot : st.root = none) : S = ∅ := by
  rw [← h.nodes]
  cases t with
  | nil => rfl
  | node l a s r => simpa [hroot] using h.root

/-- Interests at the roots of two trees are counted. -/
lemma SigMem.Counted.two_le {m : SigMem} {T : Option ThreadId → Finset SigPtr} {i j : SigPtr}
    {th : ThreadId} (h : m.Counted T) (hi : (m.sigs none).root = some i)
    (hj : (m.sigs (some th)).root = some j) (hth : th ∈ m.threads) (hij : m.signum i = m.signum j) :
    2 ≤ m.totalNumInterests (m.signum j) := by
  obtain ⟨t, ht⟩ := h.process
  obtain ⟨t', ht'⟩ := h.threads th hth
  have hcard : 0 < ((T none).filter fun k => m.signum k = m.signum j).card :=
    Finset.card_pos.mpr ⟨i, Finset.mem_filter.mpr ⟨ht.root_mem hi, hij⟩⟩
  have hcard' : 0 < ((T (some th)).filter fun k => m.signum k = m.signum j).card :=
    Finset.card_pos.mpr ⟨j, Finset.mem_filter.mpr ⟨ht'.root_mem hj, rfl⟩⟩
  have hsum := Finset.single_le_sum
    (f := fun th => (((T (some th)).filter fun k => m.signum k = m.signum j).card : ℤ))
    (fun _ _ => Int.natCast_nonneg _) hth
  have htotal := h.total (m.signum j)
  omega

lemma SigMem.Counted.eq_zero {m : SigMem} {T : Option ThreadId → Finset SigPtr} (h : m.Counted T)
    (hroot : (m.sigs none).root = none) (hroots : ∀ th ∈ m.threads, (m.sigs (some th)).root = none)
    (s : ℤ) : m.totalNumInterests s = 0 := by
  obtain ⟨t, ht⟩ := h.process
  rw [h.total s, ht.eq_empty hroot]
  refine (zero_add _).trans (Finset.sum_eq_zero fun th hth => ?_)
  obtain ⟨t', ht'⟩ := h.threads th hth
  rw [ht'.eq_empty (hroots th hth)]
  rfl

/-- The tree of the forking thread still holds the interest of the parent: it is not counted, and a
signal that is delivered to this thread in the child wakes the parent. And when
`iv_signal_child_reset_postfork` comes late, the count and the tree no longer agree. -/
theorem signals_inherited :
    (∃ s s' m m', (sigLts 64 parentPid blankMem).Run registeredByOther s ∧
      (sigLts 64 parentPid blankMem).step s (.op childPid 1 (.deliver 10)) = some s' ∧
      s.procs childPid = some m ∧ s'.procs childPid = some m' ∧ m.sigOwnerPid = childPid ∧
      (¬ ∃ T, m.Counted T) ∧ 8 ∉ m.mine ∧ m.active 8 = false ∧ m'.active 8 = true ∧
      s.unread ⟨parentPid, 0⟩ = 0 ∧ s'.unread ⟨parentPid, 0⟩ = 1) ∧
    ∃ s m, (sigLts 64 parentPid blankMem).Run resetLate s ∧ s.procs childPid = some m ∧
      m.sigOwnerPid = childPid ∧ ¬ ∃ T, m.Counted T := by
  let uncounted : SigMem → Bool := fun m => m.sigOwnerPid = childPid ∧
    m.totalNumInterests 10 = 1 ∧ (m.sigs none).root = some 16 ∧ (m.sigs (some 1)).root = some 8 ∧
    1 ∈ m.threads ∧ m.signum 16 = 10 ∧ m.signum 8 = 10 ∧ 8 ∉ m.mine
  let seen : SigSystem → Option (Bool × Bool) × ℕ := fun s =>
    ((s.procs childPid).map fun m => (uncounted m, m.active 8), s.unread ⟨parentPid, 0⟩)
  have hbefore : ((sigLts 64 parentPid blankMem).exec (sigLts 64 parentPid blankMem).init
      registeredByOther).map seen = some (some (true, false), 0) := by
    decide +kernel
  have hafter : ((sigLts 64 parentPid blankMem).exec (sigLts 64 parentPid blankMem).init
      (registeredByOther ++ [.op childPid 1 (.deliver 10)])).map seen =
      some (some (true, true), 1) := by
    decide +kernel
  let emptied : SigMem → Bool := fun m => m.sigOwnerPid = childPid ∧
    m.totalNumInterests 10 = 1 ∧ (m.sigs none).root = none ∧
    ∀ th ∈ m.threads, (m.sigs (some th)).root = none
  have hlate : ((sigLts 64 parentPid blankMem).exec (sigLts 64 parentPid blankMem).init
      resetLate).map (fun s => (s.procs childPid).map emptied) = some (some true) := by
    decide +kernel
  constructor
  · obtain ⟨s, s', hrun, hstep, hs, hs'⟩ := Kit.Lts.exists_last_step_of_map hbefore hafter
    obtain ⟨hs, hunread⟩ := Prod.mk.inj hs
    obtain ⟨hs', hunread'⟩ := Prod.mk.inj hs'
    obtain ⟨m, hm, heq⟩ := Option.map_eq_some_iff.mp hs
    obtain ⟨m', hm', heq'⟩ := Option.map_eq_some_iff.mp hs'
    obtain ⟨hfacts, hactive⟩ := Prod.mk.inj heq
    obtain ⟨hpid, htotal, hroot, hroot', hth, hsig, hsig', hmine⟩ := of_decide_eq_true hfacts
    refine ⟨s, s', m, m', hrun, hstep, hm, hm', hpid, ?_, hmine, hactive, (Prod.mk.inj heq').2,
      hunread, hunread'⟩
    rintro ⟨T, hT⟩
    have := hT.two_le hroot hroot' hth (hsig.trans hsig'.symm)
    rw [hsig', htotal] at this
    omega
  · obtain ⟨s, hrun, hs⟩ := Option.map_eq_some_iff.mp hlate
    obtain ⟨m, hm, hfacts⟩ := Option.map_eq_some_iff.mp hs
    obtain ⟨hpid, htotal, hroot, hroots⟩ := of_decide_eq_true hfacts
    refine ⟨s, m, hrun, hm, hpid, ?_⟩
    rintro ⟨T, hT⟩
    rw [hT.eq_zero hroot hroots] at htotal
    omega

end Ivykis
