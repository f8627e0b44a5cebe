import Ivykis.Signal.Fork

/-!
# No process-wide signal is lost

A signal wakes one exclusive interest only, and this one may be unregistered before its thread
gets to see the event. The signal is then handed on, so that as long as an interest stays registered
and no handler has run, some interest is awake.
-/

namespace Ivykis

/-- Steps of one process in which all interests are process-wide. -/
def SigLabel.processWide : SigLabel → Bool
  | .op _ _ (.register _ _ flags _) => !flags.thisThread
  | .op _ _ .reset                  => false
  | .op _ _ _                       => true
  | .fork _ _ _                     => false

/-- Runs of one process in which all interests are process-wide. -/
def wideLts (nsig : ℕ) (first : Pid) (m : SigMem) : Kit.Lts SigSystem SigLabel :=
  (sigLts nsig first m).restrict fun _ a => a.processWide = true

/-- The step neither unregisters the interest `i`, nor clears the flag of an interest in the
signal `s`. -/
def SigSystem.keeps (s : ℤ) (i : SigPtr) (st : SigSystem) : SigLabel → Bool
  | .op _ _ (.unregister j) => j ≠ i
  | .op pid _ (.event j _)  => (st.procs pid).all fun m => !(m.signum j = s && m.active j)
  | _                       => true

/-- All interests of the process are process-wide, and nobody else owns its data. -/
structure SigMem.Wide (m : SigMem) (pid : Pid) : Prop where
  owner : m.sigOwnerPid = 0 ∨ m.sigOwnerPid = pid
  wide  : ∀ i ∈ m.mine, (m.flags i).thisThread = false

/-- The interest is awake: `iv_signal_event` will run for it. -/
def SigView.Awake (v : SigView) (i : SigPtr) : Prop :=
  v.mem.active i = true ∧ 0 < v.unread (v.mem.ev i)

/-- The signal `s` has been delivered while `i` was registered. Either it is an exclusive interest
that has got it, or `i` has. -/
structure SigView.Pending (v : SigView) (s : ℤ) (i : SigPtr) : Prop where
  mine   : i ∈ v.mem.mine
  signum : v.mem.signum i = s
  awake  : (∃ j ∈ v.mem.mine, v.mem.signum j = s ∧ (v.mem.flags j).exclusive = true ∧ v.Awake j) ∨
    v.Awake i

section Step

variable {nsig : ℕ} {pid : Pid} {th : ThreadId} {v v' : SigView} {op : SigOp} {s : ℤ} {i : SigPtr}

lemma SigMem.Wide.place {m : SigMem} (h : m.Wide pid) {j : SigPtr} (hj : j ∈ m.mine) :
    m.place j = none := by
  simp [SigMem.place, ivSignalTree, h.wide j hj]

lemma SigMem.Wide.resetsAlone {m : SigMem} (h : m.Wide pid)
    (hop : (SigLabel.op pid th op).processWide = true) : m.ResetsAlone nsig pid th op := by
  intro hresets
  cases op with
  | register this signum flags refused =>
    obtain ⟨-, -, h0, hne⟩ := hresets
    exact absurd h.owner (not_or.mpr ⟨h0, hne⟩)
  | reset => cases hop
  | _ => cases hresets

lemma SigStepped.wide (h : v.mem.Wide pid) (hop : (SigLabel.op pid th op).processWide = true)
    (hstep : SigStepped nsig pid th v op v') : v'.mem.Wide pid := by
  cases hstep with
  | refuse hthis =>
    refine ⟨h.owner, fun i hi => ?_⟩
    simpa [SigMem.fillIn, SigMem.ne_of_mem_mine hthis hi] using h.wide i hi
  | @register this signum flags refused tree m hthis hm hok =>
    obtain ⟨owner, total, installed, sigs, heq⟩ :=
      SigMem.claimOwner_eq nsig pid th (v.mem.fillIn this signum flags)
    have hflags : m.flags = Function.update v.mem.flags this flags := by
      rw [hm, heq]
      rfl
    have hmine : m.mine = v.mem.mine := by
      rw [hm, heq]
      rfl
    refine ⟨?_, fun i hi => ?_⟩
    · right
      change m.sigOwnerPid = pid
      rw [hm, claimOwner]
      split_ifs with hforeign hidle
      · rfl
      · rfl
      · exact h.owner.resolve_left hidle
    · change (m.flags i).thisThread = false
      rw [hflags]
      rcases Finset.mem_insert.mp hi with rfl | hi
      · simpa [SigLabel.processWide] using hop
      · rw [hmine] at hi
        rw [Function.update_of_ne (SigMem.ne_of_mem_mine hthis hi)]
        exact h.wide i hi
  | unregister _ _ _ _ =>
    rw [SigView.wake_mem]
    exact ⟨h.owner, fun i hi => h.wide i (Finset.mem_of_mem_erase hi)⟩
  | deliver _ _ _ =>
    rw [SigView.wake_mem]
    exact ⟨h.owner, h.wide⟩
  | reset => cases hop
  | start _ => exact ⟨h.owner, h.wide⟩
  | exit _ => exact ⟨h.owner, h.wide⟩
  | ignore _ => exact h
  | event _ => exact ⟨h.owner, h.wide⟩

lemma SigView.Awake.wake (h : v.Awake i) (W : List SigPtr) : (v.wake W).Awake i := by
  rw [Awake, SigView.wake_mem]
  exact ⟨by simp [h.1], h.2.trans_le (SigView.wake_unread_le v W _)⟩

lemma SigView.awake_of_mem {W : List SigPtr} (h : i ∈ W) : (v.wake W).Awake i := by
  rw [Awake, SigView.wake_mem]
  exact ⟨by simp [h], SigView.wake_unread_pos h⟩

/-- A step that keeps the interests and does not put the awake ones to sleep. -/
lemma SigView.Pending.mono (h : v.Pending s i)
    (hstays : ∀ j ∈ v.mem.mine, j ∈ v'.mem.mine ∧ v'.mem.signum j = v.mem.signum j ∧
      v'.mem.flags j = v.mem.flags j)
    (hawake : ∀ j ∈ v.mem.mine, v.mem.signum j = s → v.Awake j → v'.Awake j) :
    v'.Pending s i := by
  obtain ⟨hmine, hsignum, -⟩ := hstays i h.mine
  refine ⟨hmine, hsignum.trans h.signum, ?_⟩
  rcases h.awake with ⟨j, hj, hs, hex, hjawake⟩ | hiawake
  · obtain ⟨hmine, hsignum, hflags⟩ := hstays j hj
    exact Or.inl ⟨j, hmine, hsignum.trans hs, hflags ▸ hex, hawake j hj hs hjawake⟩
  · exact Or.inr (hawake i h.mine h.signum hiawake)

lemma SigView.Pending.wake (h : v.Pending s i) (W : List SigPtr) : (v.wake W).Pending s i := by
  refine h.mono (fun j hj => ?_) fun j _ _ hawake => hawake.wake W
  rw [SigView.wake_mem]
  exact ⟨hj, rfl, rfl⟩

/-- Waking the interests in a signal reaches an exclusive one, or all. -/
lemma SigView.pending_of_wakes {W : List SigPtr} (hi : i ∈ v.mem.mine) (hs : v.mem.signum i = s)
    (hplace : v.mem.place i = none) (hW : v.mem.Wakes (v.mem.interestsAt none) s W) :
    (v.wake W).Pending s i := by
  have hmem : i ∈ v.mem.interestsAt none := SigMem.mem_interestsAt.mpr ⟨hi, hplace⟩
  by_cases hex : ∃ j ∈ v.mem.interestsAt none, v.mem.signum j = s ∧
      (v.mem.flags j).exclusive = true
  · obtain ⟨j, rfl, hjex, -⟩ := hW.first hex
    obtain ⟨hj, hjs⟩ := hW.mem j List.mem_cons_self
    have hawake : (v.wake [j]).Awake j := SigView.awake_of_mem List.mem_cons_self
    exact ⟨hi, hs, Or.inl ⟨j, (SigMem.mem_interestsAt.mp hj).1, hjs, hjex, hawake⟩⟩
  · have hiW : i ∈ W := by
      refine hW.all (fun j hj hjs => ?_) i hmem hs
      exact Bool.eq_false_iff.mpr fun hjex => hex ⟨j, hj, hjs, hjex⟩
    have hawake : (v.wake W).Awake i := SigView.awake_of_mem hiW
    refine ⟨?_, ?_, Or.inr hawake⟩
    · rw [SigView.wake_mem]
      exact hi
    · rw [SigView.wake_mem]
      exact hs

lemma SigStepped.pending (h : v.mem.Ok nsig pid) (hwide : v.mem.Wide pid)
    (hop : (SigLabel.op pid th op).processWide = true)
    (hunregister : ∀ j, op = .unregister j → j ≠ i)
    (hevent : ∀ j left, op = .event j left → ¬ (v.mem.signum j = s ∧ v.mem.active j = true))
    (hpending : v.Pending s i) (hstep : SigStepped nsig pid th v op v') : v'.Pending s i := by
  cases hstep with
  | refuse hthis =>
    refine hpending.mono (fun j hj => ⟨hj, ?_, ?_⟩) fun j _ _ hawake => hawake
    · simp [SigMem.fillIn, SigMem.ne_of_mem_mine hthis hj]
    · simp [SigMem.fillIn, SigMem.ne_of_mem_mine hthis hj]
  | @register this signum flags refused tree m hthis hm hok =>
    obtain ⟨owner, total, installed, sigs, heq⟩ :=
      SigMem.claimOwner_eq nsig pid th (v.mem.fillIn this signum flags)
    rw [heq] at hm
    subst hm
    refine hpending.mono (fun j hj => ?_) fun j hj _ hawake => ?_
    · have hne := SigMem.ne_of_mem_mine hthis hj
      exact ⟨Finset.mem_insert_of_mem hj, Function.update_of_ne hne _ _,
        Function.update_of_ne hne _ _⟩
    · -- the new raw event is not the one of `j`
      have hne := SigMem.ne_of_mem_mine hthis hj
      have hev : v.mem.ev j ≠ ⟨pid, v.mem.numRaw⟩ := by
        intro he
        have := h.raws.num j hj
        rw [he] at this
        exact lt_irrefl _ this
      simpa [SigView.Awake, SigMem.enrolled, SigMem.fillIn, hne, hev] using hawake
  | @unregister this tree W hthis hok hW hon =>
    have hmine : ∀ j ∈ v.mem.mine, j ≠ this → j ∈ (v.mem.dismissed this tree).mine :=
      fun j hj hne => Finset.mem_erase.mpr ⟨hne, hj⟩
    have hi := hmine i hpending.mine (hunregister this rfl).symm
    rcases hpending.awake with ⟨j, hj, hs, hex, hawake⟩ | hawake
    · by_cases hjthis : j = this
      · -- the signal is handed on
        subst hjthis
        have htotal := (hok.own (h.owner_of_mem hthis)).total_pos hi
        have hWakes := hon (by rw [hs, ← hpending.signum]; exact htotal.ne') hex hawake.1
        rw [hwide.place hj, hs] at hWakes
        exact SigView.pending_of_wakes (v := ⟨v.mem.dismissed j tree, v.unread⟩) hi
          hpending.signum (hwide.place hpending.mine) hWakes
      · have hstill : SigView.Pending ⟨v.mem.dismissed this tree, v.unread⟩ s i :=
          ⟨hi, hpending.signum, Or.inl ⟨j, hmine j hj hjthis, hs, hex, hawake⟩⟩
        exact hstill.wake W
    · have hstill : SigView.Pending ⟨v.mem.dismissed this tree, v.unread⟩ s i :=
        ⟨hi, hpending.signum, Or.inr hawake⟩
      exact hstill.wake W
  | deliver _ _ _ => exact hpending.wake _
  | @event this left hthis =>
    refine hpending.mono (fun j hj => ⟨hj, rfl, rfl⟩) fun j hj hs hawake => ?_
    have hne : j ≠ this := by
      rintro rfl
      exact hevent j left rfl ⟨hs, hawake.1⟩
    have hev : v.mem.ev j ≠ v.mem.ev this := fun he => hne (h.raws.inj hj hthis he)
    simpa [SigView.Awake, ivSignalEvent, hne, hev] using hawake
  | reset => cases hop
  | start _ => exact hpending.mono (fun j hj => ⟨hj, rfl, rfl⟩) fun j _ _ hawake => hawake
  | exit _ => exact hpending.mono (fun j hj => ⟨hj, rfl, rfl⟩) fun j _ _ hawake => hawake
  | ignore _ => exact hpending

/-- A signal that is delivered while `i` is registered. -/
lemma SigStepped.deliver_pending (h : v.mem.Ok nsig pid) (hwide : v.mem.Wide pid)
    (hi : i ∈ v.mem.mine) (hs : v.mem.signum i = s)
    (hstep : SigStepped nsig pid th v (.deliver s) v') : v'.Pending s i := by
  cases hstep with
  | ignore hne => exact absurd (h.owner_of_mem hi) hne
  | deliver hpid hserves hW =>
    rcases hserves with ⟨rfl, -, j, hj, -⟩ | ⟨rfl, -⟩
    · -- there are no thread interests
      obtain ⟨hj, hplace⟩ := SigMem.mem_interestsAt.mp hj
      rw [hwide.place hj] at hplace
      cases hplace
    · exact SigView.pending_of_wakes hi hs (hwide.place hi) hW

end Step

/-- There is one process, and all its interests are process-wide. -/
structure SigSystem.Wide (nsig : ℕ) (first : Pid) (st : SigSystem) : Prop where
  ok   : st.Ok nsig
  only : ∀ pid m, st.procs pid = some m → pid = first
  wide : ∀ pid m, st.procs pid = some m → m.Wide pid

section Main

variable {nsig : ℕ} {first : Pid} {m m₀ : SigMem} {st st₁ st' : SigSystem} {th : ThreadId}
  {a : SigLabel} {s : ℤ} {i : SigPtr} {tr tr' : List SigLabel}

/-- A step of the only process. -/
lemma SigSystem.Wide.step_cases (h : st.Wide nsig first)
    (hstep : (wideLts nsig first m₀).step st a = some st') :
    ∃ th op m v, a = .op first th op ∧ a.processWide = true ∧ st.procs first = some m ∧
      SigStepped nsig first th ⟨m, st.unread⟩ op v ∧
      st' = ⟨Function.update st.procs first (some v.mem), v.unread⟩ := by
  obtain ⟨ha, hstep⟩ := Kit.Lts.restrict_step.mp hstep
  cases a with
  | fork _ _ _ => cases ha
  | op pid th op =>
    have hstep : forkStep nsig first st (.op pid th op) = some st' := hstep
    obtain ⟨m, v, hm, hv, rfl⟩ := forkStep_op hstep
    obtain rfl := h.only pid m hm
    have hstepped := SigStepped.of_sigStep (h.ok.procs pid m hm)
      ((h.wide pid m hm).resetsAlone ha) hv
    exact ⟨th, op, m, v, rfl, ha, hm, hstepped, rfl⟩

lemma SigSystem.Wide.step (h : st.Wide nsig first)
    (hstep : (wideLts nsig first m₀).step st a = some st') : st'.Wide nsig first := by
  obtain ⟨th, op, m, v, rfl, ha, hm, hstepped, rfl⟩ := h.step_cases hstep
  have hwide := h.wide first m hm
  have hprocs : ∀ pid m', Function.update st.procs first (some v.mem) pid = some m' →
      pid = first ∧ v.mem = m' := by
    intro pid m' hm'
    by_cases hpid : pid = first
    · subst hpid
      exact ⟨rfl, by simpa using hm'⟩
    · rw [Function.update_of_ne hpid] at hm'
      exact absurd (h.only pid m' hm') hpid
  refine ⟨?_, fun pid m' hm' => (hprocs pid m' hm').1, fun pid m' hm' => ?_⟩
  · refine h.ok.step (a := .op first th op) ?_ (Kit.Lts.restrict_step.mp hstep).2
    intro m' hm'
    obtain rfl := Option.some.inj (hm.symm.trans hm')
    exact hwide.resetsAlone ha
  · obtain ⟨rfl, rfl⟩ := hprocs pid m' hm'
    exact hstepped.wide hwide ha

lemma SigSystem.Wide.of_run (h : (wideLts nsig first m₀).Run tr st) : st.Wide nsig first := by
  refine h.reachable.invariant (P := SigSystem.Wide nsig first) ?_
    fun st a st' hwide hstep => hwide.step hstep
  have hprocs : ∀ pid m, (sigLts nsig first m₀).init.procs pid = some m →
      pid = first ∧ m₀.initial = m := by
    intro pid m hm
    by_cases hpid : pid = first
    · subst hpid
      exact ⟨rfl, by simpa [sigLts] using hm⟩
    · simp [sigLts, hpid] at hm
  refine ⟨SigSystem.Ok.init m₀, fun pid m hm => (hprocs pid m hm).1, fun pid m hm => ?_⟩
  obtain ⟨-, rfl⟩ := hprocs pid m hm
  exact ⟨Or.inl rfl, fun i hi => absurd hi (Finset.notMem_empty i)⟩

/-- If the signal `s` has been delivered while the interest `i` in it was registered, if `i` has not
been unregistered since and `iv_signal_event` has not cleared the flag of an interest in `s` since,
then some interest in `s` is registered, its flag is set and its raw event is posted and unread. -/
theorem signal_not_lost (hrun : (wideLts nsig first m₀).Run tr st)
    (hm : st.procs first = some m) (hi : i ∈ m.mine) (hs : m.signum i = s)
    (hdeliver : (wideLts nsig first m₀).step st (.op first th (.deliver s)) = some st₁)
    (hsince : ((wideLts nsig first m₀).restrict fun st a => st.keeps s i a = true).exec st₁ tr' =
      some st') :
    ∃ m', st'.procs first = some m' ∧ ∃ j ∈ m'.mine, m'.signum j = s ∧ m'.active j = true ∧
      0 < st'.unread (m'.ev j) := by
  have hwide := SigSystem.Wide.of_run hrun
  -- what holds from the delivery on
  have hpending : st'.Wide nsig first ∧
      ∃ m', st'.procs first = some m' ∧ SigView.Pending ⟨m', st'.unread⟩ s i := by
    refine Kit.Lts.exec_induct (P := fun _ st' => st'.Wide nsig first ∧
      ∃ m', st'.procs first = some m' ∧ SigView.Pending ⟨m', st'.unread⟩ s i) ?_ ?_ hsince
    · refine ⟨hwide.step hdeliver, ?_⟩
      obtain ⟨th', op, m', v, ha, -, hm', hstepped, rfl⟩ := hwide.step_cases hdeliver
      obtain ⟨-, rfl, rfl⟩ := SigLabel.op.inj ha
      obtain rfl := Option.some.inj (hm.symm.trans hm')
      exact ⟨v.mem, Function.update_self _ _ _,
        hstepped.deliver_pending (hwide.ok.procs first m hm) (hwide.wide first m hm) hi hs⟩
    · rintro tr st a st' - ⟨hwide, m, hm, hpending⟩ hstep
      obtain ⟨hkeeps, hstep⟩ := Kit.Lts.restrict_step.mp hstep
      refine ⟨hwide.step hstep, ?_⟩
      obtain ⟨th', op, m', v, rfl, ha, hm', hstepped, rfl⟩ := hwide.step_cases hstep
      obtain rfl := Option.some.inj (hm.symm.trans hm')
      refine ⟨v.mem, Function.update_self _ _ _, hstepped.pending (hwide.ok.procs first m hm)
        (hwide.wide first m hm) ha ?_ ?_ hpending⟩
      · rintro j rfl
        simpa [SigSystem.keeps] using hkeeps
      · rintro j left rfl
        simpa [SigSystem.keeps, hm, imp_iff_not_or] using hkeeps
  obtain ⟨-, m', hm', hmine, hsignum, hawake⟩ := hpending
  refine ⟨m', hm', ?_⟩
  rcases hawake with ⟨j, hj, hjs, -, hactive, hunread⟩ | ⟨hactive, hunread⟩
  · exact ⟨j, hj, hjs, hactive, hunread⟩
  · exact ⟨i, hmine, hsignum, hactive, hunread⟩

end Main

/-- Two threads register an interest each. -/
def twoInterests : List SigLabel :=
  [.op parentPid 1 .start, .op parentPid 2 .start,
    .op parentPid 1 (.register 8 10 ⟨true, false⟩ false),
    .op parentPid 2 (.register 16 10 ⟨false, false⟩ false)]

/-- The exclusive one gets the signal, and is unregistered. -/
theorem signal_not_lost_handedOn :
    ∃ st st₁ st' m, (wideLts 64 parentPid blankMem).Run twoInterests st ∧
      st.procs parentPid = some m ∧ 16 ∈ m.mine ∧ m.signum 16 = 10 ∧
      (wideLts 64 parentPid blankMem).step st (.op parentPid 3 (.deliver 10)) = some st₁ ∧
      ((wideLts 64 parentPid blankMem).restrict fun st a => st.keeps 10 16 a = true).exec st₁
        [.op parentPid 1 (.unregister 8)] = some st' ∧
      ∃ m', st'.procs parentPid = some m' ∧ ∃ j ∈ m'.mine, m'.signum j = 10 ∧
        m'.active j = true ∧ 0 < st'.unread (m'.ev j) := by
  have hmap : ((wideLts 64 parentPid blankMem).exec (wideLts 64 parentPid blankMem).init
      twoInterests).bind (fun st => (st.procs parentPid).bind fun m =>
        ((wideLts 64 parentPid blankMem).step st (.op parentPid 3 (.deliver 10))).bind fun st₁ =>
        (((wideLts 64 parentPid blankMem).restrict fun st a => st.keeps 10 16 a = true).exec st₁
          [.op parentPid 1 (.unregister 8)]).map fun _ =>
        decide (16 ∈ m.mine ∧ m.signum 16 = 10)) = some true := by
    decide +kernel
  obtain ⟨st, hrun, hmap⟩ := Option.bind_eq_some_iff.mp hmap
  obtain ⟨m, hm, hmap⟩ := Option.bind_eq_some_iff.mp hmap
  obtain ⟨st₁, hdeliver, hmap⟩ := Option.bind_eq_some_iff.mp hmap
  obtain ⟨st', hsince, hfacts⟩ := Option.map_eq_some_iff.mp hmap
  obtain ⟨hi, hs⟩ := of_decide_eq_true hfacts
  exact ⟨st, st₁, st', m, hrun, hm, hi, hs, hdeliver, hsince,
    signal_not_lost hrun hm hi hs hdeliver hsince⟩

end Ivykis
