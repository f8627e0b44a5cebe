import Ivykis.Signal.Delivery

/-!
# Handing on a signal of a thread

A signal that is delivered to a thread goes to the interests of this thread, and if it has none to
the process-wide ones. When an exclusive interest that has got a signal is unregistered, the signal
is handed on, but only within the tree that the interest was in. If it was the last interest of its
thread in the signal, the process-wide ones are passed over.
-/

namespace Ivykis

/-! ### A signal that is dropped -/

/-- A thread has an exclusive interest of its own, which gets a signal, and there is a process-wide
interest in it as well. -/
def deliveredToThread : List SigLabel :=
  [.op parentPid 1 .start, .op parentPid 1 (.register 8 10 ⟨true, true⟩ false),
    .op parentPid 1 (.register 16 10 ⟨false, false⟩ false), .op parentPid 1 (.deliver 10)]

/-- When the interest of the thread is unregistered, the process-wide one is not woken, though it is
now the one that the signal would go to. -/
theorem signal_dropped :
    ∃ s s' m m' v, (sigLts 64 parentPid blankMem).Run deliveredToThread s ∧
      (sigLts 64 parentPid blankMem).step s (.op parentPid 1 (.unregister 8)) = some s' ∧
      s.procs parentPid = some m ∧ s'.procs parentPid = some m' ∧
      m.flags 8 = ⟨true, true⟩ ∧ m.signum 8 = 10 ∧ m.active 8 = true ∧ m'.mine = {16} ∧
      m'.active 16 = false ∧ s'.unread (m'.ev 16) = 0 ∧
      ivSignalHandler parentPid 1 10 ⟨m', s'.unread⟩ = .ok v ∧ v.mem.active 16 = true ∧
      v.unread (m'.ev 16) = 1 := by
  let before : SigMem → Bool := fun m =>
    m.flags 8 = ⟨true, true⟩ ∧ m.signum 8 = 10 ∧ m.active 8 = true
  let after : SigMem → (RawId → ℕ) → Bool := fun m unread =>
    m.mine = {16} ∧ m.active 16 = false ∧ unread (m.ev 16) = 0
  have hmap : ((sigLts 64 parentPid blankMem).exec (sigLts 64 parentPid blankMem).init
      deliveredToThread).bind (fun s => (s.procs parentPid).bind fun m =>
        ((sigLts 64 parentPid blankMem).step s (.op parentPid 1 (.unregister 8))).bind fun s' =>
        (s'.procs parentPid).bind fun m' =>
        (ivSignalHandler parentPid 1 10 ⟨m', s'.unread⟩).toOption.map fun v =>
          (before m, after m' s'.unread, v.mem.active 16, v.unread (m'.ev 16))) =
      some (true, true, true, 1) := by
    decide +kernel
  obtain ⟨s, hrun, hmap⟩ := Option.bind_eq_some_iff.mp hmap
  obtain ⟨m, hm, hmap⟩ := Option.bind_eq_some_iff.mp hmap
  obtain ⟨s', hstep, hmap⟩ := Option.bind_eq_some_iff.mp hmap
  obtain ⟨m', hm', hmap⟩ := Option.bind_eq_some_iff.mp hmap
  obtain ⟨v, hv, heq⟩ := Option.map_eq_some_iff.mp hmap
  simp only [Prod.mk.injEq] at heq
  obtain ⟨hbefore, hafter, hactive, hunread⟩ := heq
  obtain ⟨hflags, hsignum, hact⟩ := of_decide_eq_true hbefore
  obtain ⟨hmine, hact', hunread'⟩ := of_decide_eq_true hafter
  exact ⟨s, s', m, m', v, hrun, hstep, hm, hm', hflags, hsignum, hact, hmine, hact', hunread',
    toOption_eq_some.mp hv, hactive, hunread⟩

/-! ### When it is handed on -/

/-- If the thread `th` unregisters an exclusive interest of its own that has got a signal, then it
has another interest in this signal, or there is no process-wide one. This is more than is needed if
the process-wide interests that the signal would go to are awake already, for another reason. -/
def SigMem.HandsOn (m : SigMem) (th : ThreadId) : SigOp → Prop
  | .unregister this => m.flags this = ⟨true, true⟩ → m.active this = true →
    (∃ j ∈ m.mine, j ≠ this ∧ m.place j = some th ∧ m.signum j = m.signum this) ∨
      ∀ j ∈ m.mine, m.place j = none → m.signum j ≠ m.signum this
  | _                => True

instance (m : SigMem) (th : ThreadId) (op : SigOp) : Decidable (m.HandsOn th op) :=
  match op with
  | .unregister this  =>
    -- the interests there are, not all addresses
    letI _ : Decidable (∃ j ∈ m.mine, j ≠ this ∧ m.place j = some th ∧
        m.signum j = m.signum this) := Finset.decidableExistsAndFinset
    letI _ : Decidable (∀ j ∈ m.mine, m.place j = none → m.signum j ≠ m.signum this) :=
      Finset.decidableDforallFinset
    inferInstanceAs (Decidable (_ → _ → _ ∨ _))
  | .start            => .isTrue trivial
  | .exit             => .isTrue trivial
  | .register _ _ _ _ => .isTrue trivial
  | .deliver _        => .isTrue trivial
  | .event _ _        => .isTrue trivial
  | .reset            => .isTrue trivial

/-- The condition on a step of one of the processes, see `SigMem.ResetsAlone` for the first part. -/
def SigSystem.HandsOn (nsig : ℕ) (s : SigSystem) (a : SigLabel) : Prop :=
  s.ResetsAlone nsig a ∧
    match a with
    | .op pid th op => ∀ m ∈ s.procs pid, m.HandsOn th op
    | .fork _ _ _   => True

instance (nsig : ℕ) (s : SigSystem) (a : SigLabel) : Decidable (s.HandsOn nsig a) :=
  match a with
  | .op pid th op =>
    inferInstanceAs (Decidable (_ ∧ ∀ m ∈ s.procs pid, m.HandsOn th op))
  | .fork _ _ _   => inferInstanceAs (Decidable (_ ∧ True))

section Step

variable {m : SigMem} {T : Finset SigPtr} {nsig : ℕ} {pid : Pid} {th : ThreadId} {v v' : SigView}
  {this i : SigPtr} {s : ℤ} {W W' : List SigPtr}

/-- What is woken is determined by the interests there are. -/
lemma SigMem.Wakes.subset (h : m.Wakes T s W) (h' : m.Wakes T s W') (hi : i ∈ W') : i ∈ W := by
  obtain ⟨hiT, his⟩ := h'.mem i hi
  by_cases hex : ∃ i ∈ T, m.signum i = s ∧ (m.flags i).exclusive = true
  · obtain ⟨j, rfl, -, hle⟩ := h.first hex
    obtain ⟨j', rfl, -, hle'⟩ := h'.first hex
    obtain ⟨hjT, hjs⟩ := h.mem j List.mem_cons_self
    obtain rfl := List.mem_singleton.mp hi
    have hrank := le_antisymm (hle i hiT his) (hle' j hjT hjs)
    exact List.mem_singleton.mpr (sigRank_inj hrank).symm
  · refine h.all (fun j hj hjs => ?_) i hiT his
    exact Bool.eq_false_iff.mpr fun hjex => hex ⟨j, hj, hjs, hjex⟩

/-- Waking interests changes nothing about who is to be woken. -/
lemma SigMem.Wakes.of_wake {w : SigView} {p : Option ThreadId}
    (h : (w.wake W).mem.Wakes ((w.wake W).mem.interestsAt p) s W') :
    w.mem.Wakes (w.mem.interestsAt p) s W' := by
  rw [SigView.wake_mem] at h
  exact ⟨h.nodup, h.mem, h.first, h.all⟩

/-- After an exclusive interest of the thread `th` that has got a signal has been unregistered,
those to which the signal would go in this thread are awake. -/
lemma SigStepped.handsOn (h : v.mem.Ok nsig pid) (hhome : v.mem.home this = th)
    (hflags : v.mem.flags this = ⟨true, true⟩) (hactive : v.mem.active this = true)
    (hon : v.mem.HandsOn th (.unregister this))
    (hstep : SigStepped nsig pid th v (.unregister this) v') :
    ∃ W, ivSignalHandler pid th (v.mem.signum this) v' = .ok (v'.wake W) ∧
      (∀ i ∈ W, v'.Awake i) ∧
      (W = [] ↔ ∀ i ∈ v'.mem.mine, v'.mem.place i = some th ∨ v'.mem.place i = none →
        v'.mem.signum i ≠ v.mem.signum this) := by
  have halone : v.mem.ResetsAlone nsig pid th (.unregister this) := fun hresets => hresets.elim
  have hok' : v'.mem.Ok nsig pid := hstep.ok h halone
  cases hstep with
  | @unregister _ tree W hthis hok hW hwakes =>
    have hpid := h.owner_of_mem hthis
    have hplace : v.mem.place this = some th := by
      simp [SigMem.place, ivSignalTree, hflags, hhome]
    rw [hplace, hflags] at hwakes
    have hpid' : (SigView.wake ⟨v.mem.dismissed this tree, v.unread⟩ W).mem.sigOwnerPid = pid := by
      rw [SigView.wake_mem]
      exact hpid
    obtain ⟨p, W', hhandler, hserves, hW'⟩ :=
      SigView.handler_of_owner th (v.mem.signum this) (hok'.own hpid') hpid'
    have hW'' := hW'.of_wake
    rw [SigView.wake_mem] at hserves
    refine ⟨W', hhandler, fun i hi => SigView.awake_of_mem ?_, ?_⟩
    · obtain ⟨hi', his⟩ := hW''.mem i hi
      obtain ⟨himine, hiplace⟩ := SigMem.mem_interestsAt.mp hi'
      have htotal := (hok.own hpid).total_pos himine
      rw [his] at htotal
      have hW := hwakes htotal.ne' rfl hactive
      rcases hserves with ⟨rfl, -, -⟩ | ⟨rfl, hnone⟩
      · exact hW.subset hW'' hi
      · -- the thread has no other interest, and then there is no process-wide one
        have hth : th ∈ v.mem.threads := hhome ▸ (h.own hpid).home this hthis
        rcases hon hflags hactive with ⟨j, hj, hne, hjplace, hjs⟩ | hnowide
        · refine absurd hjs (hnone hth j (SigMem.mem_interestsAt.mpr ⟨?_, hjplace⟩))
          exact Finset.mem_erase.mpr ⟨hne, hj⟩
        · exact absurd his (hnowide i (Finset.mem_of_mem_erase himine) hiplace)
    · rw [hW''.eq_nil, SigView.wake_mem]
      have hth : th ∈ v.mem.threads := hhome ▸ (h.own hpid).home this hthis
      rcases hserves with ⟨rfl, -, j, hj, hjs⟩ | ⟨rfl, hnone⟩
      · obtain ⟨hjmine, hjplace⟩ := SigMem.mem_interestsAt.mp hj
        refine ⟨fun hall => absurd hjs (hall j hj), fun hall => ?_⟩
        exact absurd hjs (hall j hjmine (Or.inl hjplace))
      · refine ⟨fun hall i hi hiplace => ?_, fun hall i hi => ?_⟩
        · rcases hiplace with hiplace | hiplace
          · exact hnone hth i (SigMem.mem_interestsAt.mpr ⟨hi, hiplace⟩)
          · exact hall i (SigMem.mem_interestsAt.mpr ⟨hi, hiplace⟩)
        · obtain ⟨himine, hiplace⟩ := SigMem.mem_interestsAt.mp hi
          exact hall i himine (Or.inr hiplace)

end Step

section Main

variable {nsig : ℕ} {first pid : Pid} {m m₀ : SigMem} {s s' : SigSystem} {tr : List SigLabel}
  {th : ThreadId} {this : SigPtr}

/-- In every run under the condition, when a thread unregisters an exclusive interest of its own
that has got a signal, the interests to which the signal would go in this thread are awake
afterwards: their flags are set and their raw events are posted. There are such interests unless
neither the thread nor the process has one in the signal. -/
theorem signal_handedOn
    (h : ((sigLts nsig first m₀).restrict (SigSystem.HandsOn nsig)).Run tr s)
    (hm : s.procs pid = some m) (hflags : m.flags this = ⟨true, true⟩)
    (hactive : m.active this = true)
    (hstep : ((sigLts nsig first m₀).restrict (SigSystem.HandsOn nsig)).step s
      (.op pid th (.unregister this)) = some s') :
    ∃ m' W, s'.procs pid = some m' ∧
      ivSignalHandler pid th (m.signum this) ⟨m', s'.unread⟩ =
        .ok (SigView.wake ⟨m', s'.unread⟩ W) ∧
      (∀ i ∈ W, m'.active i = true ∧ 0 < s'.unread (m'.ev i)) ∧
      (W = [] ↔ ∀ i ∈ m'.mine, m'.place i = some th ∨ m'.place i = none →
        m'.signum i ≠ m.signum this) := by
  have hok := (SigSystem.Ok.of_run (h.restrict_mono fun _ _ hC => hC.1)).procs pid m hm
  obtain ⟨⟨halone, hon⟩, hstep⟩ := Kit.Lts.restrict_step.mp hstep
  have hstep : forkStep nsig first s (.op pid th (.unregister this)) = some s' := hstep
  obtain ⟨m₁, v, hm₁, hv, rfl⟩ := forkStep_op hstep
  obtain rfl := Option.some.inj (hm.symm.trans hm₁)
  have hhome : m.home this = th := by
    simp only [sigStep, Option.ite_none_right_eq_some] at hv
    exact hv.1.2
  have hstepped := SigStepped.of_sigStep hok (halone m hm) hv
  obtain ⟨W, hhandler, hawake, hnil⟩ := hstepped.handsOn hok hhome hflags hactive (hon m hm)
  exact ⟨v.mem, W, Function.update_self _ _ _, hhandler, hawake, hnil⟩

end Main

/-- A thread has two interests of its own in a signal. -/
def twoOwnInterests : List SigLabel :=
  [.op parentPid 1 .start, .op parentPid 1 (.register 8 10 ⟨true, true⟩ false),
    .op parentPid 1 (.register 16 10 ⟨false, true⟩ false), .op parentPid 1 (.deliver 10)]

theorem signal_handedOn_twoOwnInterests :
    ∃ s s' m m' W, ((sigLts 64 parentPid blankMem).restrict (SigSystem.HandsOn 64)).Run
        twoOwnInterests s ∧
      s.procs parentPid = some m ∧ m.flags 8 = ⟨true, true⟩ ∧ m.active 8 = true ∧
      ((sigLts 64 parentPid blankMem).restrict (SigSystem.HandsOn 64)).step s
        (.op parentPid 1 (.unregister 8)) = some s' ∧
      s'.procs parentPid = some m' ∧
      ivSignalHandler parentPid 1 (m.signum 8) ⟨m', s'.unread⟩ =
        .ok (SigView.wake ⟨m', s'.unread⟩ W) ∧
      ∀ i ∈ W, m'.active i = true ∧ 0 < s'.unread (m'.ev i) := by
  have hmap : (((sigLts 64 parentPid blankMem).restrict (SigSystem.HandsOn 64)).exec
      (sigLts 64 parentPid blankMem).init twoOwnInterests).bind (fun s =>
        (s.procs parentPid).bind fun m =>
        (((sigLts 64 parentPid blankMem).restrict (SigSystem.HandsOn 64)).step s
          (.op parentPid 1 (.unregister 8))).map fun _ =>
        decide (m.flags 8 = ⟨true, true⟩ ∧ m.active 8 = true)) = some true := by
    decide +kernel
  obtain ⟨s, hrun, hmap⟩ := Option.bind_eq_some_iff.mp hmap
  obtain ⟨m, hm, hmap⟩ := Option.bind_eq_some_iff.mp hmap
  obtain ⟨s', hstep, hfacts⟩ := Option.map_eq_some_iff.mp hmap
  obtain ⟨hflags, hactive⟩ := of_decide_eq_true hfacts
  obtain ⟨m', W, hm', hhandler, hawake, -⟩ := signal_handedOn hrun hm hflags hactive hstep
  exact ⟨s, s', m, m', W, hrun, hm, hflags, hactive, hstep, hm', hhandler, hawake⟩

end Ivykis
