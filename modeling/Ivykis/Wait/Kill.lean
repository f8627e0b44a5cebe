import Ivykis.Wait.Delivery

/-!
# `iv_wait_interest_kill`

The pid of a child is free for another process as soon as `wait4` has returned that the child is
dead. The flag of its interest is set under the same lock, so that `iv_wait_interest_kill` sends
signals to the child of the interest and to nobody else.

Processes are told apart by the number of the `fork` that made them. Here `wait4` may return
anything, also for children that have lost their interest and for children of others; if it
returns that one of these is dead then `iv_wait_got_sigchld` follows a null pointer, and the run
ends.
-/

namespace Ivykis

/-- `ESRCH`. -/
def esrch : ℤ := 3

/-- `iv_wait_interest_kill`: what it returns, and the arguments of the call of `kill`, if there is
one. -/
def ivWaitInterestKill (st : WaitState) (this : InterestPtr) (sig : ℤ) (kill : ℤ → ℤ → ℤ) :
    ℤ × Option (ℤ × ℤ) :=
  if !st.dead this then (kill (st.pid this) sig, some (st.pid this, sig))
  else (-esrch, none)

structure KillSystem where
  st      : WaitState
  /-- The spawned processes that have not been reaped, by their pid. -/
  procs   : ℤ → Option ℕ
  /-- The process that the interest has spawned. -/
  spawned : InterestPtr → ℕ
  /-- The number of processes that have been spawned. -/
  forks   : ℕ

/-- What the system does in a step: `fork` returns a pid that no spawned process has that has not
been reaped, and processes that are reported dead are gone. -/
def KillSystem.kernel (M : StatusMacros) (s : KillSystem) : WaitLabel → Option KillSystem
  | .register _ _ _       => none
  | .spawn _ i (some pid) =>
    if s.procs pid = none then
      some { s with
        procs   := Function.update s.procs pid (some s.forks)
        spawned := Function.update s.spawned i s.forks
        forks   := s.forks + 1 }
    else none
  | .reap _ results       =>
    some { s with procs := fun pid =>
      if results.any fun r => r.isDead M && r.pid = pid then none else s.procs pid }
  | _                     => some s

def killSystemStep (M : StatusMacros) (s : KillSystem) (a : WaitLabel) : Option KillSystem :=
  (s.kernel M a).bind fun s' => (waitStep M s.st a).map fun st => { s' with st := st }

/-- All threads, before anything is registered. -/
def killLts (M : StatusMacros) (nodes : AvlState) (pid : InterestPtr → ℤ) :
    Kit.Lts KillSystem WaitLabel where
  init := ⟨waitInit nodes pid, fun _ => none, fun _ => 0, 0⟩
  step := killSystemStep M

/-- An interest in the tree is that of the process with its pid, and the process of a registered
interest that is not in the tree is gone. -/
structure ProcsInv (s : KillSystem) (T : Finset InterestPtr) : Prop where
  lives  : ∀ i ∈ T, s.procs (s.st.pid i) = some (s.spawned i)
  gone   : ∀ i, s.st.Registered i → i ∉ T → ∀ p, s.procs p ≠ some (s.spawned i)
  procs  : ∀ p n, s.procs p = some n → n < s.forks
  forked : ∀ i, s.st.Registered i → s.spawned i < s.forks
  inj    : ∀ p q n, s.procs p = some n → s.procs q = some n → p = q

namespace ProcsInv

variable {M : StatusMacros} {s s' : KillSystem} {st' : WaitState} {T T' : Finset InterestPtr}
  {a : WaitLabel}

lemma kernel_adds {th : ThreadId} {i : InterestPtr} {p : ℤ} (hk : s.kernel M a = some s')
    (ha : a.adds = some (th, i, p)) : s.procs p = none ∧ s' = { s with
      procs   := Function.update s.procs p (some s.forks)
      spawned := Function.update s.spawned i s.forks
      forks   := s.forks + 1 } := by
  cases a with
  | register => cases hk
  | spawn th' j fork =>
    cases fork with
    | none => cases ha
    | some q =>
      obtain ⟨rfl, rfl, rfl⟩ : th' = th ∧ j = i ∧ q = p := by simpa [WaitLabel.adds] using ha
      simp only [KillSystem.kernel, Option.ite_none_right_eq_some, Option.some.injEq] at hk
      exact ⟨hk.1, hk.2.symm⟩
  | _ => cases ha

lemma pid_ne (h : ProcsInv s T) (hk : s.kernel M a = some s') (th : ThreadId) (i : InterestPtr)
    (p : ℤ) (ha : a.adds = some (th, i, p)) : ∀ j ∈ T, s.st.pid j ≠ p := by
  rintro j hj rfl
  have hlives := h.lives j hj
  rw [(kernel_adds hk ha).1] at hlives
  cases hlives

/-- A step that no process comes or goes in. -/
lemma congr (h : ProcsInv s T) (hpid : ∀ i ∈ T', st'.pid i = s.st.pid i) (hsub : T' ⊆ T)
    (hreg : ∀ i, st'.Registered i → s.st.Registered i)
    (hmem : ∀ i, st'.Registered i → i ∈ T → i ∈ T') : ProcsInv { s with st := st' } T' where
  lives i hi := by
    rw [hpid i hi]
    exact h.lives i (hsub hi)
  gone i hi hnot := h.gone i (hreg i hi) fun hT => hnot (hmem i hi hT)
  procs := h.procs
  forked i hi := h.forked i (hreg i hi)
  inj := h.inj

/-- A new process, with a number that no other has. -/
lemma spawn (h : ProcsInv s T) {i : InterestPtr} {p : ℤ} (hfree : s.procs p = none) (hi : i ∉ T)
    (hpid : st'.pid = Function.update s.st.pid i p)
    (hreg : ∀ j, j ≠ i → st'.Registered j → s.st.Registered j) :
    ProcsInv ⟨st', Function.update s.procs p (some s.forks),
      Function.update s.spawned i s.forks, s.forks + 1⟩ (insert i T) where
  lives j hj := by
    rcases Finset.mem_insert.mp hj with rfl | hj
    · simp [hpid]
    · have hji : j ≠ i := ne_of_mem_of_not_mem hj hi
      have hlives := h.lives j hj
      have hne : s.st.pid j ≠ p := by
        intro he
        rw [he, hfree] at hlives
        cases hlives
      simp [hpid, hji, hne, hlives]
  gone j hj hnot q := by
    rw [Finset.mem_insert, not_or] at hnot
    have hj := hreg j hnot.1 hj
    simp only [Function.update_of_ne hnot.1]
    by_cases hq : q = p
    · rw [hq, Function.update_self, ne_eq, Option.some.injEq]
      exact (h.forked j hj).ne'
    · rw [Function.update_of_ne hq]
      exact h.gone j hj hnot.2 q
  procs q n hn := by
    simp only [Function.update_apply] at hn
    split_ifs at hn with hq
    · exact Option.some.inj hn ▸ Nat.lt_succ_self _
    · exact (h.procs q n hn).trans (Nat.lt_succ_self _)
  forked j hj := by
    by_cases hji : j = i
    · simp [hji]
    · simp only [Function.update_of_ne hji]
      exact (h.forked j (hreg j hji hj)).trans (Nat.lt_succ_self _)
  inj q q' n hn hn' := by
    simp only [Function.update_apply] at hn hn'
    split_ifs at hn hn' with hq hq' hq'
    · rw [hq, hq']
    · exact absurd (h.procs q' n hn') (Option.some.inj hn ▸ lt_irrefl _)
    · exact absurd (h.procs q n hn) (Option.some.inj hn' ▸ lt_irrefl _)
    · exact h.inj q q' n hn hn'

/-- Processes that are reported dead are gone, and their interests leave the tree. -/
lemma reap (h : ProcsInv s T) {results : List WaitResult} {procs' : ℤ → Option ℕ}
    (hprocs : ∀ p, (DiedIn M results p → procs' p = none) ∧
      (¬ DiedIn M results p → procs' p = s.procs p))
    (hmem : ∀ i, i ∈ T' ↔ i ∈ T ∧ ¬ DiedIn M results (s.st.pid i)) (hpid : st'.pid = s.st.pid)
    (hreg : ∀ i, st'.Registered i → s.st.Registered i) :
    ProcsInv ⟨st', procs', s.spawned, s.forks⟩ T' := by
  have hold : ∀ p n, procs' p = some n → s.procs p = some n ∧ ¬ DiedIn M results p := by
    intro p n hn
    by_cases hd : DiedIn M results p
    · rw [(hprocs p).1 hd] at hn
      cases hn
    · exact ⟨(hprocs p).2 hd ▸ hn, hd⟩
  refine ⟨fun i hi => ?_, fun i hi hnot p hp => ?_, fun p n hn => h.procs p n (hold p n hn).1,
    fun i hi => h.forked i (hreg i hi),
    fun p q n hn hn' => h.inj p q n (hold p n hn).1 (hold q n hn').1⟩
  · obtain ⟨hi, hd⟩ := (hmem i).mp hi
    change procs' (st'.pid i) = some (s.spawned i)
    rw [hpid, (hprocs _).2 hd]
    exact h.lives i hi
  · obtain ⟨hp, hd⟩ := hold p _ hp
    by_cases hiT : i ∈ T
    · -- the process of `i` has just been reaped
      rw [h.inj p _ _ hp (h.lives i hiT)] at hd
      exact hnot ((hmem i).mpr ⟨hiT, hd⟩)
    · exact h.gone i (hreg i hi) hiT p hp

lemma step (h : ProcsInv s T) (hinv : WaitInv s.st T) (hs : WaitStep M s.st T a st' T')
    (hk : s.kernel M a = some s') : ProcsInv { s' with st := st' } T' := by
  have hreg := fun i => (hs.registered_iff hinv i).mp
  cases hs with
  | @add a th i p interests ha ho ht =>
    obtain ⟨hfree, rfl⟩ := kernel_adds hk ha
    refine h.spawn hfree (hinv.notMem_of_owner ho) rfl fun j hji hj => ?_
    rcases hreg j hj with ⟨th', p', ha'⟩ | ⟨hj, -⟩
    · rw [ha] at ha'
      exact absurd (Prod.mk.inj (Prod.mk.inj (Option.some.inj ha')).2).1.symm hji
    · exact hj
  | @reap th results st' T' hinv' hr =>
    obtain rfl := Option.some.inj hk
    refine h.reap (M := M) (fun p => ⟨fun hd => ?_, fun hd => ?_⟩) hr.mem hr.pid
      fun i hi => ?_
    · exact if_pos (by simpa [DiedIn] using hd)
    · exact if_neg (by simpa [DiedIn] using hd)
    · exact (WaitState.registered_congr hr.owner (fun th => by rw [hr.thread]) i).mp hi
  | @unregister th i interests hu ho ht =>
    obtain rfl := Option.some.inj hk
    have hreg' : ∀ j, _ → s.st.Registered j ∧ j ≠ i := fun j hj => by
      rcases hreg j hj with ⟨th', p', ha⟩ | ⟨hj, hne⟩
      · cases ha
      · exact ⟨hj, fun he => hne th (he ▸ rfl)⟩
    exact h.congr (fun _ _ => rfl) (Finset.erase_subset i T) (fun j hj => (hreg' j hj).1)
      fun j hj hjT => Finset.mem_erase.mpr ⟨(hreg' j hj).2, hjT⟩
  | _ =>
    obtain rfl := Option.some.inj hk
    refine h.congr (fun _ _ => rfl) subset_rfl (fun j hj => ?_) fun j _ hj => hj
    rcases hreg j hj with ⟨th', p', ha⟩ | ⟨hj, -⟩
    · cases ha
    · exact hj

end ProcsInv

section Main

variable {M : StatusMacros} {nodes : AvlState} {pid : InterestPtr → ℤ} {tr : List WaitLabel}
  {s s' : KillSystem} {this : InterestPtr}

lemma killSystemStep_eq_some {a : WaitLabel} (h : killSystemStep M s a = some s') :
    ∃ s₁ st, s.kernel M a = some s₁ ∧ waitStep M s.st a = some st ∧
      s' = { s₁ with st := st } := by
  simp only [killSystemStep, Option.bind_eq_some_iff, Option.map_eq_some_iff] at h
  obtain ⟨s₁, hk, st, hst, rfl⟩ := h
  exact ⟨s₁, st, hk, hst, rfl⟩

/-- The invariant of the threads and of the processes. -/
def KillInv (s : KillSystem) : Prop :=
  ∃ T, WaitInv s.st T ∧ ProcsInv s T

lemma killInv_init (M : StatusMacros) (nodes : AvlState) (pid : InterestPtr → ℤ) :
    KillInv (killLts M nodes pid).init := by
  have hreg : ∀ i, ¬ (waitInit nodes pid).Registered i := by
    rintro i ⟨th, ho, -⟩
    cases ho
  refine ⟨∅, waitInv_init nodes pid, ⟨by simp, fun i hi => absurd hi (hreg i), ?_,
    fun i hi => absurd hi (hreg i), ?_⟩⟩
  · intro p n hn
    cases hn
  · intro p q n hn
    cases hn

lemma KillInv.step {a : WaitLabel} (h : KillInv s) (hstep : killSystemStep M s a = some s') :
    KillInv s' ∧ ∃ T T', WaitInv s.st T ∧ WaitStep M s.st T a s'.st T' := by
  obtain ⟨T, hinv, hprocs⟩ := h
  obtain ⟨s₁, st, hk, hst, rfl⟩ := killSystemStep_eq_some hstep
  obtain ⟨T', hwait⟩ := WaitStep.of_step hinv (hprocs.pid_ne hk) hst
  exact ⟨⟨T', hinv.step hwait, hprocs.step hinv hwait hk⟩, T, T', hinv, hwait⟩

lemma procsInv_of_run (h : (killLts M nodes pid).Run tr s) : KillInv s :=
  h.induct (P := fun _ s => KillInv s) (killInv_init M nodes pid)
    fun _ _ _ _ _ hinv hstep => (hinv.step hstep).1

/-- In every state that is reached, `iv_wait_interest_kill` on a registered interest calls `kill`
with the pid of the process that the interest has spawned, and which has not been reaped. Once the
process has been reaped it calls nothing and returns a negative value. -/
theorem kill_of_run (h : (killLts M nodes pid).Run tr s) (hreg : s.st.Registered this) (sig : ℤ)
    (kill : ℤ → ℤ → ℤ) :
    (∀ p sig', (ivWaitInterestKill s.st this sig kill).2 = some (p, sig') →
      sig' = sig ∧ s.procs p = some (s.spawned this)) ∧
    ((∀ p, s.procs p ≠ some (s.spawned this)) →
      (ivWaitInterestKill s.st this sig kill).2 = none ∧
        (ivWaitInterestKill s.st this sig kill).1 < 0) := by
  obtain ⟨T, hinv, hprocs⟩ := procsInv_of_run h
  by_cases hdead : s.st.dead this
  · have hkill : ivWaitInterestKill s.st this sig kill = (-esrch, none) := by
      simp [ivWaitInterestKill, hdead]
    rw [hkill]
    exact ⟨by simp, fun _ => ⟨rfl, by decide⟩⟩
  · have hlives := hprocs.lives this ((hinv.mem this).mpr ⟨hreg, hdead⟩)
    have hkill : (ivWaitInterestKill s.st this sig kill).2 = some (s.st.pid this, sig) := by
      simp [ivWaitInterestKill, hdead]
    rw [hkill]
    refine ⟨fun p sig' heq => ?_, fun hgone => absurd hlives (hgone _)⟩
    obtain ⟨rfl, rfl⟩ := Prod.mk.inj (Option.some.inj heq)
    exact ⟨rfl, hlives⟩

end Main

/-- The child of the interest `1` exits, and a child of another thread gets its pid. A signal to the
second one goes to the second one, and a signal to the first one to nobody. -/
theorem kill_of_run_reused :
    ∃ s, (killLts linuxMacros emptyNodes fun _ => 0).Run
        [.spawn 0 1 (some 7), .reap 0 [⟨7, 0, 0⟩], .spawn 1 2 (some 7)] s ∧
      s.st.Registered 1 ∧ s.st.Registered 2 ∧ s.spawned 1 = 0 ∧ s.spawned 2 = 1 ∧
      s.procs 7 = some 1 ∧
      ((ivWaitInterestKill s.st 1 15 fun _ _ => 0).2 = none ∧
        (ivWaitInterestKill s.st 1 15 fun _ _ => 0).1 < 0) ∧
      ∀ p sig', (ivWaitInterestKill s.st 2 15 fun _ _ => 0).2 = some (p, sig') →
        sig' = 15 ∧ s.procs p = some (s.spawned 2) := by
  refine Kit.Lts.exists_run_of_decide (fun s =>
    (s.st.owner 1 = some 0 ∧ (s.st.thread 0).unregistering = none) ∧
      (s.st.owner 2 = some 1 ∧ (s.st.thread 1).unregistering = none) ∧
      s.spawned 1 = 0 ∧ s.spawned 2 = 1 ∧ s.procs 7 = some 1 ∧ s.st.dead 1 = true)
    (by decide +kernel) fun s hrun ⟨⟨ho₁, hu₁⟩, ⟨ho₂, hu₂⟩, hs₁, hs₂, hprocs, hdead⟩ => ?_
  have hreg₁ : s.st.Registered 1 := ⟨0, ho₁, by simp [hu₁]⟩
  have hreg₂ : s.st.Registered 2 := ⟨1, ho₂, by simp [hu₂]⟩
  obtain ⟨T, hinv, hT⟩ := procsInv_of_run hrun
  have hgone := hT.gone 1 hreg₁ fun hmem => ((hinv.mem 1).mp hmem).2 hdead
  exact ⟨hreg₁, hreg₂, hs₁, hs₂, hprocs, (kill_of_run hrun hreg₁ 15 _).2 hgone,
    (kill_of_run hrun hreg₂ 15 _).1⟩

end Ivykis
