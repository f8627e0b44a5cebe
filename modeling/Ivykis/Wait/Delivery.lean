import Ivykis.Wait.Invariant

/-!
# Delivery of the status of children

Children are spawned with `iv_wait_interest_register_spawn`, and `wait4` returns the status of
children whose interest is still registered. A pid can be used again once the child that had it has
been collected. Whatever the threads do, the handler of an interest gets every status of its own
child, up to the one that says that it is dead, and nothing else.
-/

namespace Ivykis

/-! ### Children -/

/-- The children that have not been collected: for each pid that is in use, the interest that the
child was spawned for, if this is still registered. -/
abbrev Children := ℤ → Option (Option InterestPtr)

/-- The results that `wait4` can return one after the other. -/
def collect (M : StatusMacros) : Children → List WaitResult → Option Children
  | c, [] => some c
  | c, r :: results =>
    if (c r.pid).join.isSome then
      collect M (if r.isDead M then Function.update c r.pid none else c) results
    else none

/-- The interest is unregistered, whether or not its child lives. -/
def Children.orphan (c : Children) (i : InterestPtr) : Children := fun pid =>
  if c pid = some (some i) then some none else c pid

structure WaitSystem where
  st       : WaitState
  children : Children

/-- What the system has to do with a step: `fork` returns a pid that is not in use, and `wait4` the
status of children whose interest is registered. -/
def systemStep (M : StatusMacros) (c : Children) : WaitLabel → Option Children
  | .register _ _ _       => none
  | .spawn _ i (some pid) =>
    if c pid = none then some (Function.update c pid (some (some i))) else none
  | .reap _ results       => collect M c results
  | .unregister _ i       => some (c.orphan i)
  | _                     => some c

def waitSystemStep (M : StatusMacros) (s : WaitSystem) (a : WaitLabel) : Option WaitSystem :=
  (systemStep M s.children a).bind fun c => (waitStep M s.st a).map fun st => ⟨st, c⟩

/-- All threads, before anything is registered. -/
def waitSystemLts (M : StatusMacros) (nodes : AvlState) (pid : InterestPtr → ℤ) :
    Kit.Lts WaitSystem WaitLabel where
  init := ⟨waitInit nodes pid, fun _ => none⟩
  step := waitSystemStep M

section Collect

variable {M : StatusMacros} {c c' : Children} {r : WaitResult} {results : List WaitResult}

lemma collect_cons : collect M c (r :: results) = some c' ↔ (c r.pid).join.isSome ∧
    collect M (if r.isDead M then Function.update c r.pid none else c) results = some c' := by
  simp only [collect, Option.ite_none_right_eq_some]

/-- Children that are dead are gone once they have been collected. -/
lemma collect_eq (h : collect M c results = some c') (pid : ℤ) :
    (DiedIn M results pid → c' pid = none) ∧ (¬ DiedIn M results pid → c' pid = c pid) := by
  induction results generalizing c with
  | nil =>
    obtain rfl := Option.some.inj h
    simp [DiedIn]
  | cons r results ih =>
    obtain ⟨-, h⟩ := collect_cons.mp h
    obtain ⟨hdied, hnot⟩ := ih h
    rw [diedIn_cons]
    by_cases hd : DiedIn M results pid
    · exact ⟨fun _ => hdied hd, fun hn => absurd (Or.inr hd) hn⟩
    · rw [hnot hd]
      constructor
      · intro hr
        obtain ⟨hr, hpid⟩ := hr.resolve_right hd
        simp [hr, hpid]
      · intro hr
        split_ifs with hdead
        · exact Function.update_of_ne (fun he => hr (Or.inl ⟨hdead, he.symm⟩)) _ _
        · rfl

/-- `wait4` returns nothing for a child after it has returned that it is dead. -/
lemma pairwise_of_collect (h : collect M c results = some c') :
    (∀ r ∈ results, (c r.pid).join.isSome) ∧
      results.Pairwise fun r r' => r.isDead M → r.pid ≠ r'.pid := by
  induction results generalizing c with
  | nil => simp
  | cons r results ih =>
    obtain ⟨hr, h⟩ := collect_cons.mp h
    obtain ⟨hall, hpw⟩ := ih h
    refine ⟨fun r' hr' => ?_, List.pairwise_cons.mpr ⟨fun r' hr' hd he => ?_, hpw⟩⟩
    · rcases List.mem_cons.mp hr' with rfl | hr'
      · exact hr
      · have hsome := hall r' hr'
        split_ifs at hsome with hd
        · by_cases he : r'.pid = r.pid
          · rw [he]
            exact hr
          · rwa [Function.update_of_ne he] at hsome
        · exact hsome
    · have hsome := hall r' hr'
      rw [if_pos hd, he, Function.update_self] at hsome
      simp at hsome

end Collect

/-! ### The tree and the children -/

/-- Interests are put into the tree for new children only. -/
lemma systemStep_of_adds {M : StatusMacros} {c c' : Children} {a : WaitLabel} {th : ThreadId}
    {i : InterestPtr} {p : ℤ} (hk : systemStep M c a = some c') (ha : a.adds = some (th, i, p)) :
    a = .spawn th i (some p) ∧ c p = none ∧ c' = Function.update c p (some (some i)) := by
  cases a with
  | register => cases hk
  | spawn th' j fork =>
    cases fork with
    | none => cases ha
    | some q =>
      obtain ⟨rfl, rfl, rfl⟩ : th' = th ∧ j = i ∧ q = p := by simpa [WaitLabel.adds] using ha
      simp only [systemStep, Option.ite_none_right_eq_some, Option.some.injEq] at hk
      exact ⟨rfl, hk.1, hk.2.symm⟩
  | _ => cases ha

/-- The interests in the tree are those whose child has not been collected. -/
def ChildrenInv (c : Children) (pid : InterestPtr → ℤ) (T : Finset InterestPtr) : Prop :=
  ∀ p i, c p = some (some i) ↔ i ∈ T ∧ pid i = p

namespace ChildrenInv

variable {M : StatusMacros} {c c' : Children} {st st' : WaitState} {T T' : Finset InterestPtr}
  {a : WaitLabel}

lemma deadMatched (hc : ChildrenInv c st.pid T) {results : List WaitResult}
    (h : collect M c results = some c') : DeadMatched M st.pid T results := by
  obtain ⟨hall, hpw⟩ := pairwise_of_collect h
  refine ⟨fun r hr _ => ?_, hpw.imp fun hne hd _ => hne hd⟩
  obtain ⟨i, hi⟩ := Option.isSome_iff_exists.mp (hall r hr)
  obtain ⟨hi, hpid⟩ := (hc r.pid i).mp (Option.join_eq_some_iff.mp hi)
  exact ⟨i, hi, hpid⟩

lemma pid_ne (hc : ChildrenInv c st.pid T) (hk : systemStep M c a = some c') (th : ThreadId)
    (i : InterestPtr) (p : ℤ) (ha : a.adds = some (th, i, p)) : ∀ j ∈ T, st.pid j ≠ p := by
  rintro j hj rfl
  have huse := (hc (st.pid j) j).mpr ⟨hj, rfl⟩
  rw [(systemStep_of_adds hk ha).2.1] at huse
  cases huse

lemma step (hc : ChildrenInv c st.pid T) (h : WaitInv st T) (hs : WaitStep M st T a st' T')
    (hk : systemStep M c a = some c') : ChildrenInv c' st'.pid T' := by
  cases hs with
  | @add a th i p interests ha ho ht =>
    have hi := h.notMem_of_owner ho
    obtain ⟨-, hfree, rfl⟩ := systemStep_of_adds hk ha
    intro q j
    simp only [WaitState.setInterests_pid, WaitState.register_pid, WaitState.setPid_pid,
      Finset.mem_insert]
    by_cases hj : j = i
    · subst hj
      by_cases hq : q = p
      · simp [hq]
      · simp [hq, hc q j, hi, Ne.symm hq]
    · by_cases hq : q = p
      · subst hq
        have hne := hc.pid_ne hk th i q ha
        simpa [hj, Ne.symm hj] using hne j
      · simp [hq, hj, hc q j]
  | @reap th results st' T' hinv hr =>
    intro p i
    obtain ⟨hdied, hnot⟩ := collect_eq hk p
    rw [hr.mem, hr.pid]
    by_cases hd : DiedIn M results p
    · rw [hdied hd]
      refine iff_of_false (by simp) ?_
      rintro ⟨⟨-, hn⟩, rfl⟩
      exact hn hd
    · rw [hnot hd, hc p i]
      constructor
      · rintro ⟨hi, rfl⟩
        exact ⟨⟨hi, hd⟩, rfl⟩
      · rintro ⟨⟨hi, -⟩, rfl⟩
        exact ⟨hi, rfl⟩
  | @unregister th i interests hu ho ht =>
    obtain rfl := Option.some.inj hk
    intro p j
    rw [Children.orphan, Finset.mem_erase, WaitState.setUnregistering_pid,
      WaitState.setInterests_pid]
    by_cases hp : c p = some (some i)
    · rw [if_pos hp]
      refine iff_of_false (by simp) ?_
      rintro ⟨⟨hji, hj⟩, rfl⟩
      rw [(hc _ j).mpr ⟨hj, rfl⟩] at hp
      exact hji (Option.some.inj (Option.some.inj hp))
    · rw [if_neg hp, hc p j]
      constructor
      · rintro ⟨hj, rfl⟩
        refine ⟨⟨?_, hj⟩, rfl⟩
        rintro rfl
        exact hp ((hc _ j).mpr ⟨hj, rfl⟩)
      · rintro ⟨⟨-, hj⟩, rfl⟩
        exact ⟨hj, rfl⟩
  | _ =>
    obtain rfl := Option.some.inj hk
    exact hc

end ChildrenInv

lemma waitSystemStep_eq_some {M : StatusMacros} {s s' : WaitSystem} {a : WaitLabel} :
    waitSystemStep M s a = some s' ↔
      systemStep M s.children a = some s'.children ∧ waitStep M s.st a = some s'.st := by
  simp only [waitSystemStep, Option.bind_eq_some_iff, Option.map_eq_some_iff]
  constructor
  · rintro ⟨c, hc, st, hst, rfl⟩
    exact ⟨hc, hst⟩
  · rintro ⟨hc, hst⟩
    exact ⟨s'.children, hc, s'.st, hst, rfl⟩

/-- Both invariants. -/
def SystemInv (s : WaitSystem) (T : Finset InterestPtr) : Prop :=
  WaitInv s.st T ∧ ChildrenInv s.children s.st.pid T

lemma SystemInv.step {M : StatusMacros} {s s' : WaitSystem} {a : WaitLabel}
    {T : Finset InterestPtr} (h : SystemInv s T) (hs : waitSystemStep M s a = some s') :
    ∃ T', WaitStep M s.st T a s'.st T' ∧ SystemInv s' T' := by
  obtain ⟨hk, hst⟩ := waitSystemStep_eq_some.mp hs
  obtain ⟨T', hstep⟩ := WaitStep.of_step h.1 (h.2.pid_ne hk) hst
  exact ⟨T', hstep, h.1.step hstep, h.2.step h.1 hstep hk⟩

theorem systemInv_of_run {M : StatusMacros} {nodes : AvlState} {pid : InterestPtr → ℤ}
    {tr : List WaitLabel} {s : WaitSystem} (h : (waitSystemLts M nodes pid).Run tr s) :
    ∃ T, SystemInv s T := by
  refine h.induct (P := fun _ s => ∃ T, SystemInv s T) ?_ ?_
  · exact ⟨∅, waitInv_init nodes pid, fun p i => by simp [waitSystemLts]⟩
  · rintro tr s a s' - ⟨T, hinv⟩ hs
    obtain ⟨T', -, hinv'⟩ := hinv.step hs
    exact ⟨T', hinv'⟩

/-! ### The queue of an interest -/

/-- The entries that `iv_wait_completion` has not got to. -/
def WaitPc.waiting : WaitPc → List WaitEvent
  | .outside            => []
  | .loop _ events      => events
  | .handler _ _ events => events

/-- The entries that the thread will call the handler of `i` for. -/
def WaitThread.batch (t : WaitThread) (i : InterestPtr) : List WaitEvent :=
  if t.handledWaitInterest = some i then t.pc.waiting else []

/-- What is queued for a registered interest. -/
def WaitState.queued (st : WaitState) (i : InterestPtr) : List WaitEvent :=
  (match st.owner i with
    | some th => (st.thread th).batch i
    | none    => []) ++ st.eventsPending i

/-- What the handler of `i` has been told. -/
def handledOf (i : InterestPtr) (tr : List WaitLabel) : List (ℤ × ℕ) :=
  tr.filterMap fun
    | .call _ j status rusage => if j = i then some (status, rusage) else none
    | _                       => none

/-- What `wait4` has returned for `pid`. -/
def returnedFor (pid : ℤ) (tr : List WaitLabel) : List (ℤ × ℕ) :=
  tr.flatMap fun
    | .reap _ results => reports pid results
    | _               => []

section Queue

variable {M : StatusMacros} {st st' : WaitState} {T T' : Finset InterestPtr} {a : WaitLabel}
  {th : ThreadId} {i : InterestPtr}

lemma queued_of_owner (ho : st.owner i = some th) :
    st.queued i = (st.thread th).batch i ++ st.eventsPending i := by
  simp only [WaitState.queued, ho]

lemma WaitState.Registered.owner_ne (h : st.Registered i) {j : InterestPtr}
    (ho : st.owner j = none) : i ≠ j := by
  rintro rfl
  obtain ⟨th, hth, -⟩ := h
  rw [ho] at hth
  cases hth

/-- A thread that is not in `iv_wait_completion` handles nothing. -/
lemma WaitInv.handled_eq_none (h : WaitInv st T) (hl : (st.thread th).inLoop) :
    (st.thread th).handledWaitInterest = none := by
  by_contra hne
  obtain ⟨j, hj⟩ := Option.ne_none_iff_exists'.mp hne
  have := (h.handled th j hj).2
  rw [(WaitThread.pc_of_inLoop hl).2] at this
  cases this

lemma WaitStep.pid_eq (hs : WaitStep M st T a st' T') (hreg : st.Registered i) :
    st'.pid i = st.pid i := by
  cases hs with
  | add ha ho ht => simp [hreg.owner_ne ho]
  | reap hinv hr => rw [hr.pid]
  | _ => rfl

/-- Interests come and go by being registered and unregistered. -/
lemma WaitStep.registered_iff (h : WaitInv st T) (hs : WaitStep M st T a st' T')
    (i : InterestPtr) : st'.Registered i ↔
      (∃ th pid, a.adds = some (th, i, pid)) ∨
        (st.Registered i ∧ ∀ th, a ≠ .unregister th i) := by
  cases hs with
  | @add a th j pid interests ha ho ht =>
    rw [h.registered_add ho, ha]
    have hne : ∀ th', a ≠ .unregister th' i := by
      rintro th' rfl
      cases ha
    simp [hne, eq_comm]
  | spawnFailed ho hu => simp [h.registered_spawnFailed ho hu, WaitLabel.adds]
  | reap hinv hr =>
    simp [WaitState.registered_congr hr.owner (fun th => by rw [hr.thread]) i, WaitLabel.adds]
  | steal hl ho => simp [WaitInv.registered_steal, WaitLabel.adds]
  | call hpc hh =>
    conv_lhs => rw [← WaitInv.addFreed_nil st]
    simp [WaitInv.registered_setPc, WaitLabel.adds]
  | skip hpc hh => simp [WaitInv.registered_setPc, WaitLabel.adds]
  | ret hpc hu => simp [WaitInv.registered_setPc, WaitLabel.adds]
  | finish hpc => simp [WaitInv.registered_finish, WaitLabel.adds]
  | @unregister th j interests hu ho ht =>
    rw [WaitInv.registered_unregister (WaitThread.unregistering_of_inUserCode hu).1 ho]
    simp [WaitLabel.adds, and_comm, eq_comm]
  | unregistered hi => simp [h.registered_remove hi, WaitLabel.adds]

lemma queued_congr (ho : st'.owner i = st.owner i)
    (hb : ∀ th, st.owner i = some th → (st'.thread th).batch i = (st.thread th).batch i)
    (hp : st'.eventsPending i = st.eventsPending i) : st'.queued i = st.queued i := by
  cases hi : st.owner i with
  | none => simp only [WaitState.queued, ho, hi, hp]
  | some th => rw [queued_of_owner (ho.trans hi), queued_of_owner hi, hb th hi, hp]

/-- A step of the thread `th` that only this thread notices. -/
lemma queued_of_thread {t : WaitThread} (ho : st'.owner = st.owner)
    (hp : st'.eventsPending i = st.eventsPending i)
    (ht : ∀ th', st'.thread th' = if th' = th then t else st.thread th')
    (hb : t.batch i = (st.thread th).batch i) : st'.queued i = st.queued i := by
  refine queued_congr (congrFun ho i) (fun th' _ => ?_) hp
  rw [ht]
  split_ifs with hth
  · rw [hth, hb]
  · rfl

/-- What a step does to the queue of a registered interest. -/
lemma WaitStep.queued (h : WaitInv st T) (hs : WaitStep M st T a st' T') (hreg : st.Registered i) :
    handledOf i [a] ++ (st'.queued i).map WaitEvent.report =
      (st.queued i).map WaitEvent.report ++
        if i ∈ T then upToDead M (returnedFor (st.pid i) [a]) else [] := by
  cases hs with
  | @add a th j pid interests ha ho ht =>
    have hij := hreg.owner_ne ho
    have hq : (((st.setPid j pid).register th j).setInterests interests).queued i =
        st.queued i := by
      refine queued_congr (by simp [hij]) (fun th' _ => ?_) (by simp [hij])
      simp [WaitThread.batch]
    have hreap : returnedFor (st.pid i) [a] = [] ∧ handledOf i [a] = [] := by
      cases a <;> simp_all [returnedFor, handledOf, WaitLabel.adds]
    simp [hq, hreap, upToDead]
  | @spawnFailed th j ho hu =>
    have hij := hreg.owner_ne ho
    have hq : ((st.register th j).unregister th j).queued i = st.queued i := by
      refine queued_congr (by simp [hij]) (fun th' _ => ?_) (by simp [hij])
      obtain ⟨-, hhandled, hpc⟩ := h.spawnFailed_thread ho hu th'
      rw [WaitThread.batch, hhandled, hpc]
      rfl
    simp [hq, handledOf, returnedFor, upToDead]
  | @reap th results st' T' hinv hr =>
    obtain ⟨th₀, ho₀, -⟩ := hreg
    rw [queued_of_owner ho₀, queued_of_owner (hr.owner ▸ ho₀), hr.thread, List.map_append,
      hr.pending]
    simp [handledOf, returnedFor]
  | @steal th j hl ho =>
    have hnone := h.handled_eq_none hl
    have hq : (st.steal th j).queued i = st.queued i := by
      by_cases hij : i = j
      · subst hij
        have ho' : (st.steal th i).owner i = some th := ho
        rw [queued_of_owner ho, queued_of_owner ho']
        simp [WaitThread.batch, hnone, WaitPc.waiting]
      · exact queued_of_thread rfl (by simp [hij]) (fun th' => WaitState.steal_thread ..)
          (by simp [WaitThread.batch, hnone, Ne.symm hij])
    simp [hq, handledOf, returnedFor, upToDead]
  | @call th j we events hpc hh =>
    obtain ⟨k, hk⟩ := Option.isSome_iff_exists.mp hh
    obtain ⟨ho, hthis⟩ := h.handled th k hk
    obtain rfl : j = k := by simpa [hpc, WaitPc.this] using hthis
    by_cases hij : i = j
    · subst hij
      have ho' : (st.setPc th (.handler i we events)).owner i = some th := ho
      rw [queued_of_owner ho, queued_of_owner ho']
      simp [WaitThread.batch, hk, hpc, WaitPc.waiting, handledOf, returnedFor, upToDead,
        WaitEvent.report]
    · have hq : (st.setPc th (.handler j we events)).queued i = st.queued i :=
        queued_of_thread rfl rfl (fun th' => WaitState.setPc_thread ..)
          (by simp [WaitThread.batch, hk, Ne.symm hij])
      simp [hq, handledOf, returnedFor, upToDead, Ne.symm hij]
  | @skip th j we events hpc hh =>
    have hq : ((st.addFreed [we.addr]).setPc th (.loop j events)).queued i = st.queued i :=
      queued_of_thread rfl rfl (fun th' => WaitState.setPc_thread ..)
        (by simp_all [WaitThread.batch])
    simp [hq, handledOf, returnedFor, upToDead]
  | @ret th j we events hpc hu =>
    have hq : ((st.addFreed [we.addr]).setPc th (.loop j events)).queued i = st.queued i :=
      queued_of_thread rfl rfl (fun th' => WaitState.setPc_thread ..)
        (by simp [WaitThread.batch, hpc, WaitPc.waiting])
    simp [hq, handledOf, returnedFor, upToDead]
  | @finish th j hpc =>
    have hq : (st.finish th).queued i = st.queued i :=
      queued_of_thread rfl rfl (fun th' => WaitState.finish_thread ..)
        (by simp [WaitThread.batch, hpc, WaitPc.waiting])
    simp [hq, handledOf, returnedFor, upToDead]
  | @unregister th j interests hu ho ht =>
    have hq : ((st.setInterests interests).setUnregistering th j).queued i = st.queued i :=
      queued_of_thread rfl rfl (fun th' => WaitState.setUnregistering_thread ..)
        (by simp [WaitThread.batch])
    simp [hq, handledOf, returnedFor, upToDead]
  | @unregistered th j hj =>
    -- the interest that goes is another one
    have hij : i ≠ j := by
      rintro rfl
      obtain ⟨th₀, ho₀, hu₀⟩ := hreg
      rw [(h.unregistering th i hj).1, Option.some.injEq] at ho₀
      exact hu₀ (ho₀ ▸ hj)
    have hq : ((st.addFreed ((st.eventsPending j).map WaitEvent.addr)).unregister th
        j).queued i = st.queued i := by
      refine queued_congr (by simp [hij]) (fun th' _ => ?_) (by simp [hij])
      simp only [WaitThread.batch, WaitState.unregister_thread_handled,
        WaitState.unregister_thread_pc, WaitState.addFreed_thread]
      split_ifs <;> simp_all
    simp [hq, handledOf, returnedFor, upToDead]

lemma WaitStep.mem_iff (hs : WaitStep M st T a st' T') (hreg : st.Registered i)
    (ha : ∀ th, a ≠ .unregister th i) : i ∈ T' ↔
      i ∈ T ∧ ¬ ∃ x ∈ returnedFor (st.pid i) [a], ivWaitStatusDead M x.1 := by
  cases hs with
  | @add a th j pid interests hadd ho ht =>
    have hreap : returnedFor (st.pid i) [a] = [] := by
      cases a <;> simp_all [returnedFor, WaitLabel.adds]
    simp [hreap, hreg.owner_ne ho]
  | @reap th results st' T' hinv hr =>
    rw [hr.mem, diedIn_iff]
    simp [returnedFor]
  | @unregister th j interests hu ho ht =>
    have hij : i ≠ j := fun he => ha th (he ▸ rfl)
    simp [returnedFor, hij]
  | _ => simp [returnedFor]

/-- The handler of an interest that is not registered is not called. -/
lemma WaitStep.handledOf_eq_nil (h : WaitInv st T) (hs : WaitStep M st T a st' T')
    (hreg : ¬ st.Registered i) : handledOf i [a] = [] := by
  cases hs with
  | add ha ho ht => cases a <;> simp_all [handledOf, WaitLabel.adds]
  | @call th j we events hpc hh =>
    obtain ⟨k, hk⟩ := Option.isSome_iff_exists.mp hh
    obtain ⟨ho, hthis⟩ := h.handled th k hk
    obtain rfl : j = k := by simpa [hpc, WaitPc.this] using hthis
    have hji : j ≠ i := by
      rintro rfl
      refine hreg ⟨th, ho, fun hu => ?_⟩
      have := (h.unregistering th j hu).2
      simp [hpc, WaitPc.isLoop] at this
    simp [handledOf, hji]
  | _ => simp [handledOf]

end Queue

/-! ### Runs -/

variable {M : StatusMacros} {nodes : AvlState} {pid : InterestPtr → ℤ} {tr tr' : List WaitLabel}
  {s s' : WaitSystem} {T : Finset InterestPtr} {i : InterestPtr}

lemma upToDead_append (L L' : List (ℤ × ℕ)) : upToDead M (L ++ L') =
    upToDead M L ++ if ∃ x ∈ L, ivWaitStatusDead M x.1 then [] else upToDead M L' := by
  induction L with
  | nil => simp [upToDead]
  | cons x L ih =>
    rw [List.cons_append, upToDead, upToDead, ih]
    by_cases hx : ivWaitStatusDead M x.1
    · simp [hx]
    · rw [if_neg hx, if_neg hx, List.cons_append]
      simp only [List.exists_mem_cons_iff, or_iff_right hx]

/-- From the time when `i` is registered for a child with the pid `p` until it is unregistered. -/
structure Delivered (M : StatusMacros) (i : InterestPtr) (p : ℤ) (tr : List WaitLabel)
    (s : WaitSystem) (T : Finset InterestPtr) : Prop where
  inv        : SystemInv s T
  registered : s.st.Registered i
  pid        : s.st.pid i = p
  alive      : i ∈ T ↔ ¬ ∃ x ∈ returnedFor p tr, ivWaitStatusDead M x.1
  delivered  :
    handledOf i tr ++ (s.st.queued i).map WaitEvent.report = upToDead M (returnedFor p tr)

lemma Delivered.init {th : ThreadId} {p : ℤ} (h : SystemInv s T)
    (hs : waitSystemStep M s (.spawn th i (some p)) = some s') :
    ∃ T', Delivered M i p [] s' T' := by
  obtain ⟨T', hstep, hinv⟩ := h.step hs
  have hreg := (hstep.registered_iff h.1 i).mpr (Or.inl ⟨th, p, rfl⟩)
  generalize hst : s'.st = st' at hstep
  cases hstep with
  | @add a th' j q interests ha ho ht =>
    obtain ⟨rfl, rfl, rfl⟩ : th = th' ∧ i = j ∧ p = q := by simpa [WaitLabel.adds] using ha
    refine ⟨_, hinv, hreg, ?_, ?_, ?_⟩
    · simp [hst]
    · simp [returnedFor]
    · have ho' : s'.st.owner i = some th := by simp [hst]
      rw [queued_of_owner ho', hst]
      simp [handledOf, returnedFor, upToDead, WaitThread.batch, h.1.handled_ne ho]

lemma Delivered.step {a : WaitLabel} {p : ℤ} (h : Delivered M i p tr s T)
    (ha : ∀ th, a ≠ .unregister th i) (hs : waitSystemStep M s a = some s') :
    ∃ T', Delivered M i p (tr ++ [a]) s' T' := by
  obtain ⟨T', hstep, hinv⟩ := h.inv.step hs
  have hret : returnedFor p (tr ++ [a]) = returnedFor p tr ++ returnedFor (s.st.pid i) [a] := by
    rw [h.pid, returnedFor, List.flatMap_append]
    rfl
  refine ⟨T', hinv, ?_, (hstep.pid_eq h.registered).trans h.pid, ?_, ?_⟩
  · exact (hstep.registered_iff h.inv.1 i).mpr (Or.inr ⟨h.registered, ha⟩)
  · rw [hstep.mem_iff h.registered ha, h.alive, hret]
    simp only [List.mem_append, or_and_right, exists_or, not_or]
  · have hcall : handledOf i (tr ++ [a]) = handledOf i tr ++ handledOf i [a] := by
      rw [handledOf, List.filterMap_append]
      rfl
    rw [hcall, List.append_assoc, hstep.queued h.inv.1 h.registered, ← List.append_assoc,
      h.delivered, hret, upToDead_append]
    congr 1
    simp only [h.alive]
    split_ifs <;> simp_all

lemma delivered_of_exec {p : ℤ} (h : ∃ T, Delivered M i p [] s T)
    (hexec : (waitSystemLts M nodes pid).exec s tr = some s')
    (hno : ∀ th, .unregister th i ∉ tr) : ∃ T, Delivered M i p tr s' T := by
  refine Kit.Lts.exec_induct (P := fun tr s => (∀ th, .unregister th i ∉ tr) →
    ∃ T, Delivered M i p tr s T) (fun _ => h) ?_ hexec hno
  intro tr s₁ a s₂ _ ih hs hno
  obtain ⟨T, hT⟩ := ih fun th hm => hno th (List.mem_append_left _ hm)
  exact hT.step (fun th he => hno th (by simp [he])) hs

/-- Nothing is delivered to an interest that is not registered. -/
lemma handledOf_of_exec (h : ∃ T, SystemInv s T) (hreg : ¬ s.st.Registered i)
    (hexec : (waitSystemLts M nodes pid).exec s tr = some s')
    (hno : ∀ th p, .spawn th i (some p) ∉ tr) : handledOf i tr = [] := by
  refine (Kit.Lts.exec_induct (P := fun tr s => (∀ th p, .spawn th i (some p) ∉ tr) →
    (∃ T, SystemInv s T) ∧ ¬ s.st.Registered i ∧ handledOf i tr = []) (fun _ => ⟨h, hreg, rfl⟩) ?_
    hexec hno).2.2
  intro tr s₁ a s₂ _ ih hs hno
  obtain ⟨⟨T, hinv⟩, hreg, hnil⟩ := ih fun th p hm => hno th p (List.mem_append_left _ hm)
  obtain ⟨T', hstep, hinv'⟩ := hinv.step hs
  refine ⟨⟨T', hinv'⟩, ?_, ?_⟩
  · rw [hstep.registered_iff hinv.1]
    rintro (⟨th, p, hadd⟩ | ⟨hreg', -⟩)
    · obtain ⟨rfl, -⟩ := systemStep_of_adds (waitSystemStep_eq_some.mp hs).1 hadd
      exact hno th p (by simp)
    · exact hreg hreg'
  · have hcall := hstep.handledOf_eq_nil hinv.1 hreg
    simp only [handledOf, List.filterMap_append, List.append_eq_nil_iff] at hnil hcall ⊢
    exact ⟨hnil, hcall⟩

/-- No call that can be made in `s` follows a null pointer or frees something twice. -/
structure WaitSafe (M : StatusMacros) (s : WaitSystem) : Prop where
  spawn        : ∀ th i p, s.st.owner i = none → s.children p = none →
    ∃ st', ivWaitInterestRegisterSpawn s.st th i (some p) = .ok st'
  reap         : ∀ results c, collect M s.children results = some c →
    ∃ st', ivWaitGotSigchld M s.st results = .ok st'
  free         : ∀ th, ∀ we ∈ (s.st.thread th).pc.events, ∃ st', s.st.free we.addr = .ok st'
  unregister   : ∀ th i, (s.st.thread th).inUserCode → s.st.owner i = some th →
    ∃ st', unregisterLocked s.st i = .ok st'
  unregistered : ∀ th i, (s.st.thread th).unregistering = some i →
    ∃ st', waitInterestUnregister s.st th i = .ok st'

lemma SystemInv.waitSafe (h : SystemInv s T) : WaitSafe M s where
  spawn th i p ho hp := by
    have hne : ∀ j ∈ T, s.st.pid j ≠ p := by
      rintro j hj rfl
      have huse := (h.2 (s.st.pid j) j).mpr ⟨hj, rfl⟩
      rw [hp] at huse
      cases huse
    obtain ⟨interests, heq, -⟩ := h.1.register_eq th ho hne
    exact ⟨_, heq⟩
  reap results c hc := h.1.reap_ok_iff.mpr (h.2.deadMatched hc)
  free th we hwe := by
    have hmem : we.addr ∈ s.st.holds (.thread th) := List.mem_map_of_mem hwe
    exact ⟨_, free_eq_ok.mpr ⟨⟨h.1.lt_mallocs hmem, h.1.notMem_freed (by simp) hmem⟩, rfl⟩⟩
  unregister th i hu ho := by
    obtain ⟨interests, heq, -⟩ := h.1.unregisterLocked_eq hu ho
    exact ⟨_, heq⟩
  unregistered th i _ := h.1.unregister_ok th i

/-- In every run, what has been passed to the handler of an interest since its child was spawned,
followed by what is queued for it, is what `wait4` has returned for its pid since then, up to the
first status that says that the child is dead. After it has been unregistered its handler is not
called. Every `struct wait_event` is in one queue, in the hands of one thread, or freed once; and
no call follows a null pointer or frees something twice. -/
theorem childStatus_of_run (h : (waitSystemLts M nodes pid).Run tr s) :
    (∀ tr₁ th i p tr₂, tr = tr₁ ++ .spawn th i (some p) :: tr₂ →
      (∀ th', .unregister th' i ∉ tr₂) →
      handledOf i tr₂ ++ (s.st.queued i).map WaitEvent.report =
        upToDead M (returnedFor p tr₂)) ∧
    (∀ tr₁ th i tr₂, tr = tr₁ ++ .unregister th i :: tr₂ →
      (∀ th' p, .spawn th' i (some p) ∉ tr₂) → handledOf i tr₂ = []) ∧
    (∀ addr < s.st.mallocs, ∃ p, (s.st.holds p).count addr = 1 ∧
      ∀ q, q ≠ p → addr ∉ s.st.holds q) ∧
    (∀ i, s.st.owner i = none → s.st.eventsPending i = []) ∧
    (∀ i, s.st.eventsPending i ≠ [] → s.st.posted i) ∧
    WaitSafe M s := by
  obtain ⟨T, hinv⟩ := systemInv_of_run h
  refine ⟨?_, ?_, fun addr haddr => ?_, hinv.1.idle, hinv.1.woken, hinv.waitSafe⟩
  · rintro tr₁ th i p tr₂ rfl hno
    obtain ⟨s₁, s₂, hrun, hstep, hexec⟩ := Kit.Lts.run_append_cons.mp h
    obtain ⟨T₁, hinv₁⟩ := systemInv_of_run hrun
    obtain ⟨T', hd⟩ := delivered_of_exec (Delivered.init hinv₁ hstep) hexec hno
    exact hd.delivered
  · rintro tr₁ th i tr₂ rfl hno
    obtain ⟨s₁, s₂, hrun, hstep, hexec⟩ := Kit.Lts.run_append_cons.mp h
    obtain ⟨T₁, hinv₁⟩ := systemInv_of_run hrun
    have hstep' : waitSystemStep M s₁ (.unregister th i) = some s₂ := hstep
    obtain ⟨T₂, hwait, hinv₂⟩ := hinv₁.step hstep'
    refine handledOf_of_exec ⟨T₂, hinv₂⟩ ?_ hexec hno
    rw [hwait.registered_iff hinv₁.1]
    rintro (⟨th', p, hadd⟩ | ⟨-, hne⟩)
    · cases hadd
    · exact hne th rfl
  · obtain ⟨p, hp⟩ := (hinv.1.placed.issued addr).mp haddr
    refine ⟨p, List.count_eq_one_of_mem (hinv.1.placed.nodup p) hp, fun q hq hmem => ?_⟩
    exact hq (hinv.1.placed.unique q p addr hmem hp)

/-- A child stops and exits, and another child of another thread gets its pid and stops. -/
theorem childStatus_of_run_reused : ∃ s, (waitSystemLts linuxMacros emptyNodes fun _ => 0).Run
      [.spawn 0 1 (some 7), .reap 0 [⟨7, 0x137f, 0⟩, ⟨7, 0, 0⟩], .spawn 1 2 (some 7),
        .reap 1 [⟨7, 0x137f, 0⟩], .steal 0 1, .call 0 1 0x137f 0] s ∧
    [(0x137f, 0)] ++ (s.st.queued 1).map WaitEvent.report = [(0x137f, 0), (0, 0)] ∧
    WaitSafe linuxMacros s := by
  refine Kit.Lts.exists_run_of_decide (fun _ => True) (by decide) fun s hs _ => ?_
  obtain ⟨hd, -, -, -, -, hsafe⟩ := childStatus_of_run hs
  exact ⟨hd [] 0 1 7 _ rfl (by simp), hsafe⟩

end Ivykis
