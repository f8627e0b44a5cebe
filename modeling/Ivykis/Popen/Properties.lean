import Ivykis.Popen.Invariant

/-!
# Records over whole runs

Each step keeps the invariant, and ends in no fault. Hence in every run a record is freed once, when
its child is gone or no signal can be sent to it, and is not used after that.
-/

namespace Ivykis

variable {M : StatusMacros} {s : PopenSystem} {th : ThreadId} {ch : InterestPtr} {c : RunningChild}

lemma WaitThread.inUserCode_of_inLoop {t : WaitThread} (h : t.inLoop) : t.inUserCode := by
  obtain ⟨hun, hpc⟩ := WaitThread.pc_of_inLoop h
  simp [WaitThread.inUserCode, hun, hpc]

lemma deref_eq (hc : s.heap ch = some c) : s.deref ch = .ok c := by
  rw [PopenSystem.deref, hc]

lemma free_eq (hc : s.heap ch = some c) : s.free ch = .ok (s.removeRecord ch c.serial) := by
  rw [PopenSystem.free, hc]

namespace PopenInv

/-! ### Steps of `iv_wait` -/

/-- The interests in records are not touched by steps that `iv_popen` does not take itself. -/
lemma env (h : PopenInv M s) {a : WaitLabel} {sys : KillSystem} {u : InterestPtr → Bool}
    (hs : killSystemStep M s.sys a = some sys)
    (hpc : s.pc a.thread = .outside ∨ s.pc a.thread = .waitReturn)
    (hu : ∀ i, u i = s.isUser i ∨ s.heap i = none ∧ u i = true)
    (hadd : ∀ th i pid, a.adds = some (th, i, pid) → s.heap i = none ∧ u i = true)
    (hun : ∀ th i, a = .unregister th i → s.isUser i) :
    PopenInv M { s with
      sys := sys, isUser := u, pc := Function.update s.pc a.thread .outside } := by
  obtain ⟨hsys, T, T', hinv, hwait⟩ := h.sys.step hs
  have hmono : ∀ i, s.isUser i = true → u i = true := fun i hi => by
    rcases hu i with he | ⟨-, he⟩
    · exact he.trans hi
    · exact he
  have hrecord : (s.pc a.thread).record = none := by
    rcases hpc with hpc | hpc <;> rw [hpc] <;> rfl
  -- what this thread is unregistering belongs to the user
  have hmine : ∀ i, (s.sys.st.thread a.thread).unregistering = some i → s.isUser i = true := by
    have hfits := (h.threads a.thread).fits
    rcases hpc with hpc | hpc <;> rw [hpc] at hfits
    · exact hfits
    · intro i hi
      rw [show _ = none from hfits] at hi
      cases hi
  -- threads in a handler of a record stay there
  have hpcs : ∀ th' i, (s.pc th').record = some i →
      Function.update s.pc a.thread .outside th' = s.pc th' := by
    intro th' i hi
    refine Function.update_of_ne (fun he => ?_) _ _
    rw [he, hrecord] at hi
    cases hi
  have htimer : ∀ th' i, (Function.update s.pc a.thread .outside th').timerOf = some i ↔
      (s.pc th').timerOf = some i := by
    intro th' i
    by_cases hth : th' = a.thread
    · rw [hth, Function.update_self]
      refine ⟨fun hi => ?_, fun hi => ?_⟩
      · cases hi
      · rw [PopenPc.record_of_timerOf hi] at hrecord
        cases hrecord
    · rw [Function.update_of_ne hth]
  refine ⟨hsys, fun i c hc => ?_, h.unique, fun th' => ⟨?_, fun i hi => ?_⟩, fun i hi => ?_,
    h.opened, h.lost, h.freed, h.cause, h.closed, h.handled, h.kills⟩
  · have hr := h.records i c hc
    have hne : s.heap i ≠ none := fun he => by
      rw [show s.heap i = some c from hc] at he
      cases he
    refine ⟨?_, hr.serial, hr.alive, ?_, hr.parent, hr.closed, ?_, hr.onHeap,
      fun ht => hr.timer ((htimer _ _).mp ht), fun hd => ?_⟩
    · exact ((hu i).resolve_right fun he => hne he.1).trans hr.isUser
    · rcases hwait.owner_eq i with he | ⟨th', pid, ha⟩ | ⟨hi, -⟩
      · exact he.trans hr.owner
      · exact absurd (hadd th' i pid ha).1 hne
      · exact absurd (hmine i hi) (by simp [hr.isUser])
    · rw [hr.armed]
      simp only [ne_eq, htimer]
    · have hf := hr.dead hd
      change (Function.update s.pc a.thread .outside c.thread).Frees M i
      rwa [hpcs _ i hf.record]
  · by_cases hth : th' = a.thread
    · subst hth
      change (Function.update s.pc a.thread .outside a.thread).Fits u _
      rw [Function.update_self]
      intro i hi
      rcases hwait.unregistering_eq a.thread with he | he | ⟨j, ha, he⟩
      · exact hmono i (hmine i (he ▸ hi))
      · rw [he] at hi
        cases hi
      · obtain rfl := Option.some.inj (he.symm.trans hi)
        exact hmono j (hun _ j ha)
    · have hfits := (h.threads th').fits
      change (Function.update s.pc a.thread .outside th').Fits u (sys.st.thread th')
      rw [Function.update_of_ne hth, hwait.thread_eq hth]
      cases hpc' : s.pc th' with
      | outside =>
        rw [hpc'] at hfits
        exact fun i hi => hmono i (hfits i hi)
      | _ =>
        rw [hpc'] at hfits
        exact hfits
  · have hi' : (Function.update s.pc a.thread .outside th').record = some i := hi
    change ∃ c, s.heap i = some c ∧ c.thread = th' ∧
      s.Reason M c.serial (Function.update s.pc a.thread .outside th')
    by_cases hth : th' = a.thread
    · rw [hth, Function.update_self] at hi'
      cases hi'
    · rw [Function.update_of_ne hth] at hi' ⊢
      exact (h.threads th').record i hi'
  · obtain ⟨harmed, howner⟩ := h.gone i hi
    refine ⟨harmed, fun hui => ?_⟩
    have hui : u i = false := hui
    have hui' : s.isUser i = false := by
      by_contra hne
      rw [hmono i (by simpa using hne)] at hui
      cases hui
    rcases hwait.owner_eq i with he | ⟨th', pid, ha⟩ | ⟨-, he⟩
    · exact he.trans (howner hui')
    · rw [(hadd th' i pid ha).2] at hui
      cases hui
    · exact he

lemma env_outside (h : PopenInv M s) {a : WaitLabel} {sys : KillSystem}
    (hs : killSystemStep M s.sys a = some sys) (hpc : s.pc a.thread = .outside)
    (hadd : a.adds = none) (hun : ∀ th i, a = .unregister th i → s.isUser i) :
    PopenInv M (s.setSys sys) := by
  have hinv := h.env (u := s.isUser) hs (Or.inl hpc) (fun i => Or.inl rfl)
    (fun th i pid ha => by rw [hadd] at ha; cases ha) hun
  rwa [← hpc, Function.update_eq_self] at hinv

/-- `iv_wait_interest_unregister` finds the interest of a record. -/
lemma unregisterWait_eq (h : PopenInv M s) (hc : s.heap ch = some c) (hth : c.thread = th)
    (hu : (s.sys.st.thread th).inUserCode) (pc : PopenPc) :
    ∃ st, unregisterWait s th ch pc = .ok ((s.setSt st).setPc th pc) ∧
      KillInv { s.sys with st := st } ∧ st.owner = s.sys.st.owner ∧
      (∀ th', th' ≠ th → st.thread th' = s.sys.st.thread th') ∧
      (st.thread th).unregistering = some ch := by
  have ho : s.sys.st.owner ch = some th := hth ▸ (h.records ch c hc).owner
  obtain ⟨T, hinv, -⟩ := h.sys
  obtain ⟨interests, heq, -⟩ := hinv.unregisterLocked_eq hu ho
  refine ⟨(s.sys.st.setInterests interests).setUnregistering th ch, ?_, ?_, rfl,
    fun th' hth' => ?_, ?_⟩
  · rw [unregisterWait, deref_eq hc, ok_bind, heq, ok_bind]
  · refine (h.sys.step (M := M) (a := .unregister th ch) ?_).1
    simp [killSystemStep, KillSystem.kernel, waitStep, hu, ho, heq, Except.toOption]
  · simp [hth']
  · simp

/-- What is queued for the interest of a record goes away with it. -/
lemma unregisteredWait_eq (h : PopenInv M s) (hc : s.heap ch = some c)
    (hun : (s.sys.st.thread th).unregistering = some ch) :
    ∃ st, unregisteredWait s th ch = .ok (s.setSt st) ∧ KillInv { s.sys with st := st } ∧
      st.owner = Function.update s.sys.st.owner ch none ∧
      (∀ th', th' ≠ th → st.thread th' = s.sys.st.thread th') ∧
      (st.thread th).unregistering = none := by
  obtain ⟨T, hinv, -⟩ := h.sys
  obtain ⟨st, heq⟩ := hinv.unregister_ok th ch
  have hstep : killSystemStep M s.sys (.unregistered th) = some { s.sys with st := st } := by
    simp [killSystemStep, KillSystem.kernel, waitStep, hun, heq, Except.toOption]
  obtain ⟨hsys, T₁, T₂, hinv₁, hwait⟩ := h.sys.step hstep
  refine ⟨st, ?_, hsys, ?_, fun th' hth' => hwait.thread_eq hth', ?_⟩
  · rw [unregisteredWait, deref_eq hc, ok_bind, heq, ok_bind]
  · cases hwait with
    | unregistered hi =>
      obtain rfl := Option.some.inj (hi.symm.trans hun)
      rfl
    | add ha => cases ha
  · cases hwait with
    | unregistered hi => simp
    | add ha => cases ha

/-! ### Submitting and closing -/

/-- Nothing has happened for a submission that is still to come. -/
lemma next_submit (h : PopenInv M s) : ¬ (s.Died M s.submits ∨ s.KillFailed s.submits) ∧
    s.submits ∉ s.freed ∧ s.submits ∉ s.closed := by
  refine ⟨?_, fun hn => absurd (h.cause _ hn).1 (lt_irrefl _),
    fun hn => absurd (h.closed _ hn) (lt_irrefl _)⟩
  rintro (⟨status, hmem, -⟩ | ⟨sig, ret, hmem, -⟩)
  · exact absurd (h.handled _ hmem) (lt_irrefl _)
  · exact absurd (h.kills _ hmem) (lt_irrefl _)

section Spawn

variable {this : RequestPtr} {ans : SubmitAnswers} {pid : ℤ} {sys : KillSystem}

/-- The interest in the new child is registered. -/
lemma owner_of_spawn (h : PopenInv M s)
    (hs : killSystemStep M s.sys (.spawn th ch (some pid)) = some sys) :
    s.sys.st.owner ch = none ∧ sys.st.owner = Function.update s.sys.st.owner ch (some th) := by
  obtain ⟨-, T, T', -, hwait⟩ := h.sys.step hs
  generalize hst : sys.st = st' at hwait
  cases hwait with
  | add ha ho ht =>
    obtain ⟨rfl, rfl, rfl⟩ : _ = _ ∧ _ = _ ∧ _ = _ := by simpa [WaitLabel.adds] using ha
    exact ⟨ho, rfl⟩

/-- The threads are where they were. -/
lemma fits_of_spawn (h : PopenInv M s) (hpc : s.pc th = .outside)
    (hs : killSystemStep M s.sys (.spawn th ch (some pid)) = some sys) (th' : ThreadId) :
    (s.pc th').Fits (Function.update s.isUser ch false) (sys.st.thread th') := by
  obtain ⟨-, T, T', hinv, hwait⟩ := h.sys.step hs
  have hfits := (h.threads th').fits
  -- an interest that is being unregistered is not the new one
  have hun : ∀ i, (s.sys.st.thread th').unregistering = some i → i ≠ ch := by
    rintro i hi rfl
    have ho := (h.owner_of_spawn hs).1
    rw [(hinv.unregistering th' i hi).1] at ho
    cases ho
  cases hpc' : s.pc th' with
  | outside =>
    rw [hpc'] at hfits
    intro i hi
    rcases hwait.unregistering_eq th' with he | he | ⟨j, ha, -⟩
    · rw [he] at hi
      rw [Function.update_of_ne (hun i hi)]
      exact hfits i hi
    · rw [he] at hi
      cases hi
    · cases ha
  | _ =>
    have hth : th' ≠ th := by
      rintro rfl
      rw [hpc] at hpc'
      cases hpc'
    rw [hpc'] at hfits
    rw [hwait.thread_eq hth]
    exact hfits

/-- The records are the new one and the old ones. -/
lemma heap_of_submitted {i : InterestPtr} {c : RunningChild}
    (hc : ((s.setSys sys).submitted th this ch ans).heap i = some c) :
    i = ch ∧ c = ⟨some this, ans.onHeap, ans.numKills, th, s.submits⟩ ∨
      i ≠ ch ∧ s.heap i = some c := by
  simp only [PopenSystem.submitted_heap, PopenSystem.setSys_heap, PopenSystem.setSys_submits,
    Function.update_apply] at hc
  split_ifs at hc with hi
  · exact Or.inl ⟨hi, (Option.some.inj hc).symm⟩
  · exact Or.inr ⟨hi, hc⟩

lemma recordInv_submitted (h : PopenInv M s) (hpc : s.pc th = .outside)
    (hop : s.opened this = none) (hfree : s.heap ch = none)
    (hs : killSystemStep M s.sys (.spawn th ch (some pid)) = some sys) {i : InterestPtr}
    {c : RunningChild} (hc : ((s.setSys sys).submitted th this ch ans).heap i = some c) :
    RecordInv M ((s.setSys sys).submitted th this ch ans) i c := by
  obtain ⟨hdead, hnotFreed, hclosed⟩ := h.next_submit
  have howner := (h.owner_of_spawn hs).2
  rcases heap_of_submitted hc with ⟨rfl, rfl⟩ | ⟨hi, hc⟩
  · refine ⟨by simp, by simp, hnotFreed, by simp [howner], fun r hr => ?_, ?_, ?_, ?_, ?_,
      fun hd => absurd hd hdead⟩
    · obtain rfl := Option.some.inj hr
      simp
    · simp [hclosed]
    · simp [(h.gone i hfree).1]
    · simp
    · simp [hpc, PopenPc.timerOf]
  · have hr := h.records i c hc
    refine ⟨by simp [hi, hr.isUser], hr.serial.trans (Nat.lt_succ_self _), hr.alive,
      by simp [howner, hi, hr.owner], fun r hp => ?_, hr.closed, hr.armed, hr.onHeap, hr.timer,
      hr.dead⟩
    obtain ⟨ho', hc'⟩ := hr.parent r hp
    have hrne : r ≠ this := by
      rintro rfl
      rw [hop] at ho'
      cases ho'
    simp [hrne, ho', hc']

/-- A new record, for a new child. -/
lemma submitted (h : PopenInv M s) (hpc : s.pc th = .outside) (hop : s.opened this = none)
    (hfree : s.heap ch = none) (hs : killSystemStep M s.sys (.spawn th ch (some pid)) = some sys) :
    PopenInv M ((s.setSys sys).submitted th this ch ans) := by
  have hnotFreed := h.next_submit.2.1
  have hold : ∀ i c, s.heap i = some c →
      ((s.setSys sys).submitted th this ch ans).heap i = some c := by
    intro i c hc
    have hi : i ≠ ch := by
      rintro rfl
      rw [hfree] at hc
      cases hc
    simp [hi, hc]
  refine ⟨(h.sys.step hs).1, fun i c hc => h.recordInv_submitted hpc hop hfree hs hc,
    fun i j c₁ c₂ h₁ h₂ heq => ?_, fun th' => ⟨h.fits_of_spawn hpc hs th', fun i hi => ?_⟩,
    fun i hi => ?_, fun r n th' hr => ?_, fun n hn hf => ?_, h.freed, fun n hn => ?_,
    fun n hn => (h.closed n hn).trans (Nat.lt_succ_self _),
    fun x hx => (h.handled x hx).trans (Nat.lt_succ_self _),
    fun x hx => (h.kills x hx).trans (Nat.lt_succ_self _)⟩
  · rcases heap_of_submitted h₁ with ⟨rfl, rfl⟩ | ⟨hi, hc₁⟩ <;>
      rcases heap_of_submitted h₂ with ⟨rfl, rfl⟩ | ⟨hj, hc₂⟩
    · rfl
    · exact absurd (heq ▸ (h.records j c₂ hc₂).serial) (lt_irrefl _)
    · exact absurd (heq ▸ (h.records i c₁ hc₁).serial) (lt_irrefl _)
    · exact h.unique i j c₁ c₂ hc₁ hc₂ heq
  · obtain ⟨c, hc, hthread, hreason⟩ := (h.threads th').record i hi
    exact ⟨c, hold i c hc, hthread, hreason⟩
  · have hich : i ≠ ch := by
      rintro rfl
      simp at hi
    have hi' : s.heap i = none := by simpa [hich] using hi
    simpa [hich, (h.owner_of_spawn hs).2] using h.gone i hi'
  · simp only [PopenSystem.submitted_opened, PopenSystem.setSys_opened, PopenSystem.setSys_submits,
      Function.update_apply] at hr
    split_ifs at hr with hrt
    · obtain ⟨rfl, rfl⟩ := Prod.mk.inj (Option.some.inj hr)
      refine ⟨fun hf => absurd hf hnotFreed, fun _ => ⟨ch, _, Function.update_self .., rfl, ?_⟩⟩
      rw [hrt]
    · obtain ⟨hf, hex⟩ := h.opened r n th' hr
      refine ⟨fun hn => by simpa [hrt] using hf hn, fun hn => ?_⟩
      obtain ⟨i, c, hc, hserial, hparent⟩ := hex hn
      exact ⟨i, c, hold i c hc, hserial, hparent⟩
  · rcases Nat.lt_succ_iff_lt_or_eq.mp hn with hn | rfl
    · obtain ⟨i, c, hc, hserial⟩ := h.lost n hn hf
      exact ⟨i, c, hold i c hc, hserial⟩
    · exact ⟨ch, _, Function.update_self .., rfl⟩
  · obtain ⟨hlt, hcause⟩ := h.cause n hn
    exact ⟨hlt.trans (Nat.lt_succ_self _), hcause⟩

end Spawn

/-- `iv_popen_request_submit`, whether or not it succeeds. -/
lemma submit (h : PopenInv M s) {this : RequestPtr} {type : String} {ans : SubmitAnswers}
    {x : ℤ × PopenSystem} (hpc : s.pc th = .outside) (hop : s.opened this = none)
    (hfree : ∀ ch ∈ ans.malloc, s.heap ch = none)
    (hx : ivPopenRequestSubmit M s th this type ans = some x) : PopenInv M x.2 := by
  rw [ivPopenRequestSubmit] at hx
  split at hx
  · obtain rfl := Option.some.inj hx
    exact h
  · rename_i ch hch
    by_cases htype : type ≠ "r" ∧ type ≠ "w"
    · rw [if_pos htype] at hx
      obtain rfl := Option.some.inj hx
      exact h
    · rw [if_neg htype] at hx
      split at hx
      · obtain rfl := Option.some.inj hx
        exact h
      · obtain ⟨sys, hs, rfl⟩ := Option.map_eq_some_iff.mp hx
        cases hfork : ans.fork with
        | none =>
          rw [hfork] at hs
          exact h.env_outside hs hpc rfl fun _ _ he => by cases he
        | some pid =>
          rw [hfork] at hs
          exact h.submitted hpc hop (hfree ch hch) hs

/-- `iv_popen_request_close`. -/
lemma close (h : PopenInv M s) {this : RequestPtr} {n : ℕ} (hpc : s.pc th = .outside)
    (hop : s.opened this = some (n, th)) :
    ∃ s', ivPopenRequestClose s th this = .ok s' ∧ PopenInv M { s' with
      opened := Function.update s'.opened this none, closed := n :: s'.closed } := by
  obtain ⟨hfreed, hex⟩ := h.opened this n th hop
  by_cases hn : n ∈ s.freed
  · -- the record has been freed before
    refine ⟨s, ?_, ?_⟩
    · rw [ivPopenRequestClose, hfreed hn]
    · have hne : ∀ ch c, s.heap ch = some c → c.serial ≠ n := by
        rintro ch c hc rfl
        exact (h.records ch c hc).alive hn
      refine ⟨h.sys, fun ch c hc => ?_, h.unique, fun th' => ⟨(h.threads th').fits,
        (h.threads th').record⟩, h.gone, fun r m th' hr => ?_, h.lost, h.freed, fun m hm => ?_,
        fun m hm => ?_, h.handled, h.kills⟩
      · have hr := h.records ch c hc
        refine ⟨hr.isUser, hr.serial, hr.alive, hr.owner, fun r hp => ?_, ?_, hr.armed, hr.onHeap,
          hr.timer, hr.dead⟩
        · obtain ⟨ho, hchild⟩ := hr.parent r hp
          refine ⟨?_, hchild⟩
          change Function.update s.opened this none r = _
          rw [Function.update_of_ne, ho]
          rintro rfl
          rw [hop] at ho
          exact hne ch c hc (Prod.mk.inj (Option.some.inj ho)).1.symm
        · rw [List.mem_cons, or_iff_right (hne ch c hc)]
          exact hr.closed
      · change Function.update s.opened this none r = _ at hr
        rw [Function.update_apply] at hr
        split_ifs at hr
        exact h.opened r m th' hr
      · obtain ⟨hlt, hcause⟩ := h.cause m hm
        exact ⟨hlt, hcause.imp id fun hk => ⟨List.mem_cons_of_mem _ hk.1, hk.2⟩⟩
      · rcases List.mem_cons.mp hm with rfl | hm
        · exact (h.cause m hn).1
        · exact h.closed m hm
  · obtain ⟨ch, c, hc, hserial, hparent⟩ := hex hn
    have hr := h.records ch c hc
    obtain ⟨ho, hchild⟩ := hr.parent this hparent
    obtain ⟨-, hth⟩ := Prod.mk.inj (Option.some.inj (hop.symm.trans ho))
    refine ⟨((s.setRecord ch { c with parent := none, onHeap := true }).setArmed ch
      (some th)).setRecord ch { c with parent := none, onHeap := true, numKills := 0 }, ?_, ?_⟩
    · rw [ivPopenRequestClose, hchild]
      dsimp only
      rw [deref_eq hc]
      rfl
    · refine LocalStep.popenInv h th ch c
        { c with parent := none, onHeap := true, numKills := 0 } ?_ h.sys ?_ ?_
      · refine ⟨hc, hth.symm, fun i hi => ?_, ?_, rfl, hth.symm, fun i hi => ?_, fun _ _ => rfl,
          fun i hi => ?_, ⟨rfl, rfl, rfl, rfl⟩, rfl, fun _ _ => rfl,
          Or.inr ⟨rfl, this, hparent, rfl⟩,
          ⟨fun m hm => List.mem_cons_of_mem _ hm, fun m hm => ?_⟩,
          ⟨fun x hx => hx, fun x => Or.inl⟩, fun x hx => hx, fun x => Or.inl⟩
        · rw [hpc] at hi
          cases hi
        · exact Function.update_idem ..
        · simp [hpc, PopenPc.record] at hi
        · simp [hi]
        · rcases List.mem_cons.mp hm with rfl | hm
          · exact Or.inr hserial.symm
          · exact Or.inl hm
      · refine ⟨hr.isUser, hr.serial, hr.alive, hr.owner, fun r hp => ?_, ?_, ?_, ?_, fun _ => rfl,
          hr.dead⟩
        · cases hp
        · simp [hserial]
        · simp [← hth, hpc, PopenPc.timerOf]
        · simp
      · refine ⟨(h.threads th).fits, fun i hi => ?_⟩
        simp [hpc, PopenPc.record] at hi

/-! ### The handlers -/

lemma record_of_pc (h : PopenInv M s) (th : ThreadId) (ch : InterestPtr)
    (hpc : (s.pc th).record = some ch) :
    ∃ c, s.heap ch = some c ∧ c.thread = th ∧ RecordInv M s ch c ∧
      s.Reason M c.serial (s.pc th) := by
  obtain ⟨c, hc, hth, hreason⟩ := (h.threads th).record ch hpc
  exact ⟨c, hc, hth, h.records ch c hc, hreason⟩

/-- The handler of the interest of a record is called: the record exists. -/
lemma called (h : PopenInv M s) {status : ℤ} {rusage : ℕ} {sys : KillSystem}
    (hpc : s.pc th = .outside)
    (hs : killSystemStep M s.sys (.call th ch status rusage) = some sys) :
    ∃ s', (s.setSys sys).called th ch status = .ok s' ∧ PopenInv M s' := by
  by_cases hu : s.isUser ch
  · refine ⟨s.setSys sys, if_pos hu, h.env_outside hs hpc rfl fun _ _ he => ?_⟩
    cases he
  obtain ⟨hsys, T, T', hinv, hwait⟩ := h.sys.step hs
  obtain ⟨hown, howner, hin⟩ : s.sys.st.owner ch = some th ∧ sys.st.owner = s.sys.st.owner ∧
      (sys.st.thread th).inUserCode := by
    generalize hst : sys.st = st' at hwait
    cases hwait with
    | add ha => cases ha
    | call hloop hh =>
      obtain ⟨j, hj⟩ := Option.isSome_iff_exists.mp hh
      obtain ⟨hown, hthis⟩ := hinv.handled th j hj
      rw [hloop] at hthis
      obtain rfl := Option.some.inj hthis
      have hun : (s.sys.st.thread th).unregistering = none := by
        by_contra hne
        obtain ⟨i, hi⟩ := Option.ne_none_iff_exists'.mp hne
        have := (hinv.unregistering th i hi).2
        simp [hloop, WaitPc.isLoop] at this
      exact ⟨hown, rfl, by simp [WaitThread.inUserCode, hun]⟩
  have hne : s.heap ch ≠ none := fun hnone => by
    rw [(h.gone ch hnone).2 (by simpa using hu)] at hown
    cases hown
  obtain ⟨c, hc⟩ := Option.ne_none_iff_exists'.mp hne
  have hr := h.records ch c hc
  have hth : c.thread = th := Option.some.inj (hr.owner.symm.trans hown)
  have hdead : ¬ (s.Died M c.serial ∨ s.KillFailed c.serial) := fun hd => by
    have := hr.dead hd
    rw [hth, hpc] at this
    exact this
  refine ⟨{ (s.setSys sys).setPc th (.wait ch status) with
    handled := s.handled ++ [(c.serial, status)] }, ?_, ?_⟩
  · rw [PopenSystem.called, if_neg (by simpa using hu), deref_eq (c := c) (by simpa using hc)]
    rfl
  · refine LocalStep.popenInv h th ch c c ?_ hsys ?_ ?_
    · refine ⟨hc, hth, fun i hi => ?_, ?_, rfl, hth, fun i hi => ?_, fun th' hne => ?_,
        fun _ _ => rfl, ⟨rfl, rfl, rfl, rfl⟩, howner, fun th' hne => hwait.thread_eq hne,
        Or.inl ⟨rfl, rfl⟩, ⟨fun _ hn => hn, fun _ => Or.inl⟩,
        ⟨fun x hx => List.mem_append_left _ hx, fun x hx => ?_⟩, fun _ hx => hx, fun _ => Or.inl⟩
      · rw [hpc] at hi
        cases hi
      · exact (Function.update_eq_self_iff.mpr hc.symm).symm
      · simpa [PopenPc.record, eq_comm] using hi
      · simp [hne]
      · rcases List.mem_append.mp hx with hx | hx
        · exact Or.inl hx
        · exact Or.inr (by rw [List.mem_singleton.mp hx])
    · refine ⟨hr.isUser, hr.serial, hr.alive, howner ▸ hr.owner, hr.parent, hr.closed, ?_,
        hr.onHeap, fun ht => ?_, ?_⟩
      · have harmed := hr.armed
        rw [hth, hpc] at harmed
        simpa [hth, PopenPc.timerOf] using harmed
      · simp [hth, PopenPc.timerOf] at ht
      · rintro (⟨status', hmem, hgone⟩ | hkill)
        · rcases List.mem_append.mp hmem with hmem | hmem
          · exact absurd (Or.inl ⟨status', hmem, hgone⟩) hdead
          · obtain ⟨-, rfl⟩ := Prod.mk.inj (List.mem_singleton.mp hmem)
            simpa [hth, PopenPc.Frees] using hgone
        · exact absurd (Or.inr hkill) hdead
    · refine ⟨by simpa [PopenPc.Fits] using hin, fun i hi => ?_⟩
      obtain rfl : ch = i := by simpa [PopenPc.record] using hi
      exact ⟨c, hc, hth, by simp [PopenSystem.Reason]⟩

/-- A step of a handler that keeps the record, and what has happened, as it is. -/
lemma stay (h : PopenInv M s) {pc' : PopenPc} (st : WaitState) (hc : s.heap ch = some c)
    (hth : c.thread = th) (hpc : (s.pc th).record = some ch)
    (hsys : KillInv { s.sys with st := st }) (howner : st.owner = s.sys.st.owner)
    (hthreads : ∀ th', th' ≠ th → st.thread th' = s.sys.st.thread th')
    (hrec : ∀ i, pc'.record = some i → i = ch) (htimer : pc'.timerOf = (s.pc th).timerOf)
    (hfrees : (s.pc th).Frees M ch → pc'.Frees M ch) (hfits : pc'.Fits s.isUser (st.thread th))
    (hreason : pc'.record = some ch → s.Reason M c.serial pc') :
    PopenInv M ((s.setSt st).setPc th pc') := by
  have hr := h.records ch c hc
  refine LocalStep.popenInv h th ch c c ?_ hsys ?_ ?_
  · refine ⟨hc, hth, fun i hi => ?_, (Function.update_eq_self_iff.mpr hc.symm).symm, rfl, hth,
      fun i hi => hrec i (by simpa using hi), fun th' hne => by simp [hne], fun _ _ => rfl,
      ⟨rfl, rfl, rfl, rfl⟩, howner, hthreads, Or.inl ⟨rfl, rfl⟩, ⟨fun _ hn => hn, fun _ => Or.inl⟩,
      ⟨fun _ hx => hx, fun _ => Or.inl⟩, fun _ hx => hx, fun _ => Or.inl⟩
    exact Option.some.inj (hi.symm.trans hpc)
  · refine ⟨hr.isUser, hr.serial, hr.alive, howner ▸ hr.owner, hr.parent, hr.closed, ?_, hr.onHeap,
      fun ht => hr.timer ?_, fun hd => ?_⟩
    · rw [PopenSystem.setPc_armed, PopenSystem.setSt_armed, hr.armed, hth]
      simp [htimer]
    · rw [hth, ← htimer]
      simpa [hth] using ht
    · have hf := hr.dead hd
      rw [hth] at hf
      simpa [hth] using hfrees hf
  · have hself : ((s.setSt st).setPc th pc').pc th = pc' := by simp
    refine ⟨?_, fun i hi => ?_⟩
    · rw [hself]
      exact hfits
    · rw [hself] at hi ⊢
      obtain rfl := hrec i hi
      exact ⟨c, hc, hth, hreason hi⟩

/-- `iv_popen_running_child_wait`, up to where it unregisters the interest. -/
lemma runWait (h : PopenInv M s) {status : ℤ} (hpc : s.pc th = .wait ch status) :
    ∃ s', runningChildWait M s th ch status = .ok s' ∧ PopenInv M s' := by
  obtain ⟨c, hc, hth, hr, hreason⟩ := h.record_of_pc th ch (by rw [hpc]; rfl)
  have hfits := (h.threads th).fits
  rw [hpc] at hreason hfits
  rw [runningChildWait]
  split_ifs with hgone
  · refine ⟨_, rfl, h.stay s.sys.st hc hth (by rw [hpc]; rfl) h.sys rfl (fun _ _ => rfl)
      (fun i hi => ?_) (by rw [hpc]; rfl) (fun hf => ?_) ?_ fun hi => ?_⟩
    · cases hi
    · rw [hpc] at hf
      rw [hf.2] at hgone
      cases hgone
    · exact (WaitThread.unregistering_of_inUserCode hfits).1
    · cases hi
  · obtain ⟨st, heq, hsys, howner, hthreads, hun⟩ :=
      h.unregisterWait_eq hc hth hfits (.waitUnregister ch)
    refine ⟨_, heq, h.stay st hc hth (by rw [hpc]; rfl) hsys howner hthreads (fun i hi => ?_)
      (by rw [hpc]; rfl) (fun _ => rfl) hun fun _ => ?_⟩
    · exact (Option.some.inj hi).symm
    · exact ⟨status, hreason, by simpa using hgone⟩

/-- `iv_popen_running_child_timer` unregisters the interest. -/
lemma runKillFailed (h : PopenInv M s) (hpc : s.pc th = .killFailed ch) :
    ∃ s', unregisterWait s th ch (.timerUnregister ch) = .ok s' ∧ PopenInv M s' := by
  obtain ⟨c, hc, hth, hr, hreason⟩ := h.record_of_pc th ch (by rw [hpc]; rfl)
  have hfits := (h.threads th).fits
  rw [hpc] at hreason hfits
  obtain ⟨st, heq, hsys, howner, hthreads, hun⟩ :=
    h.unregisterWait_eq hc hth hfits (.timerUnregister ch)
  refine ⟨_, heq, h.stay st hc hth (by rw [hpc]; rfl) hsys howner hthreads (fun i hi => ?_)
    (by rw [hpc]; rfl) (fun _ => rfl) hun fun _ => hreason⟩
  exact (Option.some.inj hi).symm

/-- The timer of a record expires: the record exists. -/
lemma expire (h : PopenInv M s) (hl : (s.sys.st.thread th).inLoop) (hpc : s.pc th = .outside)
    (harmed : s.armed ch = some th) :
    ∃ s', expireSignalTimer s th ch = .ok s' ∧ PopenInv M s' := by
  have hne : s.heap ch ≠ none := fun hnone => by
    rw [(h.gone ch hnone).1] at harmed
    cases harmed
  obtain ⟨c, hc⟩ := Option.ne_none_iff_exists'.mp hne
  have hr := h.records ch c hc
  obtain ⟨hparent, hth⟩ : c.parent = none ∧ c.thread = th := by
    have harmed' := hr.armed
    rw [harmed] at harmed'
    split_ifs at harmed' with hcond
    exact ⟨hcond.1, (Option.some.inj harmed').symm⟩
  refine ⟨((s.setRecord ch { c with onHeap := false }).setArmed ch none).setPc th (.timer ch), ?_,
    LocalStep.popenInv h th ch c { c with onHeap := false } ?_ h.sys ?_ ?_⟩
  · rw [expireSignalTimer, deref_eq hc]
    rfl
  · refine LocalStep.of_timer hc hth (fun i hi => ?_) ⟨rfl, rfl, rfl⟩ (by simp)
      (fun i hi => by simp [hi]) (Function.update_self ..) (fun i hi => ?_)
      (fun th' hne => by simp [hne]) (List.append_nil _).symm (by simp) (by simp) (by simp)
    · rw [hpc] at hi
      cases hi
    · exact (Option.some.inj hi).symm
  · refine ⟨hr.isUser, hr.serial, hr.alive, hr.owner, hr.parent, hr.closed, ?_, ?_,
      fun _ => hparent, fun hd => ?_⟩
    · simp [hth, PopenPc.timerOf]
    · simp
    · have hf := hr.dead hd
      rw [hth, hpc] at hf
      exact absurd hf id
  · refine ⟨by simpa [PopenPc.Fits] using WaitThread.inUserCode_of_inLoop hl, fun i hi => ?_⟩
    obtain rfl : ch = i := by simpa [PopenPc.record] using hi
    exact ⟨{ c with onHeap := false }, Function.update_self .., hth, by simp [PopenSystem.Reason]⟩

/-- `iv_popen_running_child_timer`, up to its end or to an error: the timer, which has expired, can
be registered again. -/
lemma runTimer (h : PopenInv M s) (hpc : s.pc th = .timer ch) (kill : ℤ → ℤ → ℤ) :
    ∃ s', runningChildTimer s th ch kill = .ok s' ∧ PopenInv M s' := by
  obtain ⟨c, hc, hth, hr, -⟩ := h.record_of_pc th ch (by rw [hpc]; rfl)
  have hfits := (h.threads th).fits
  rw [hpc] at hfits
  have htimer : (s.pc c.thread).timerOf = some ch := by rw [hth, hpc]; rfl
  have hparent := hr.timer htimer
  have harmed : s.armed ch = none := by rw [hr.armed, if_neg fun hcond => hcond.2 htimer]
  have honHeap : c.onHeap = false := by rw [hr.onHeap hparent, harmed]; rfl
  have hdead : ¬ (s.Died M c.serial ∨ s.KillFailed c.serial) := fun hd => by
    have := hr.dead hd
    rw [hth, hpc] at this
    exact this
  rw [runningChildTimer, deref_eq hc, ok_bind]
  dsimp only
  generalize (if c.numKills < maxSigtermCount then sigterm else sigkill) = signum
  generalize (ivWaitInterestKill s.sys.st ch signum kill).1 = ret
  have hrecord : ∀ i, (s.pc th).record = some i → i = ch := fun i hi => by
    rw [hpc] at hi
    exact (Option.some.inj hi).symm
  have hsent : ∀ x ∈ [(c.serial, signum, ret)], x.1 = c.serial := fun x hx => by
    rw [List.mem_singleton.mp hx]
  split_ifs with hret
  · refine ⟨_, rfl, ?_⟩
    refine LocalStep.popenInv h th ch c { c with numKills := c.numKills + 1 } ?_ h.sys ?_ ?_
    · refine LocalStep.of_timer hc hth hrecord ⟨rfl, rfl, rfl⟩ (by simp)
        (fun i hi => by simp [hi]) (Function.update_self ..) (fun i hi => ?_)
        (fun th' hne => by simp [hne]) (by simp) hsent (by simp) (by simp)
      exact (Option.some.inj hi).symm
    · refine ⟨hr.isUser, hr.serial, hr.alive, hr.owner, hr.parent, hr.closed, ?_, ?_,
        fun _ => hparent, fun _ => ?_⟩
      · simp [hth, PopenPc.timerOf, harmed]
      · simp [harmed, honHeap]
      · simp [hth, PopenPc.Frees]
    · refine ⟨by simpa [PopenPc.Fits] using hfits, fun i hi => ?_⟩
      obtain rfl : ch = i := by simpa [PopenPc.record] using hi
      refine ⟨{ c with numKills := c.numKills + 1 }, Function.update_self .., hth, ?_⟩
      simp only [PopenSystem.setPc_pc, Function.update_self, PopenSystem.Reason]
      exact ⟨signum, ret, by simp, hret⟩
  · rw [registerSignalTimer, if_neg (by simp [honHeap]), ok_bind]
    refine ⟨_, rfl, ?_⟩
    refine LocalStep.popenInv h th ch c { c with onHeap := true, numKills := c.numKills + 1 } ?_
      h.sys ?_ ?_
    · refine LocalStep.of_timer hc hth hrecord ⟨rfl, rfl, rfl⟩ (by simp)
        (fun i hi => by simp [hi]) (Function.update_self ..) (fun i hi => ?_)
        (fun th' hne => by simp [hne]) (by simp) hsent (by simp) (by simp)
      cases hi
    · refine ⟨hr.isUser, hr.serial, hr.alive, hr.owner, hr.parent, hr.closed, ?_, ?_,
        fun _ => hparent, ?_⟩
      · simp [hth, PopenPc.timerOf, hparent]
      · simp
      · rintro (hd | ⟨sig, ret', hmem, hret'⟩)
        · exact absurd (Or.inl hd) hdead
        · rcases List.mem_append.mp hmem with hmem | hmem
          · exact absurd (Or.inr ⟨sig, ret', hmem, hret'⟩) hdead
          · obtain ⟨-, rfl⟩ := Prod.mk.inj (Prod.mk.inj (List.mem_singleton.mp hmem)).2
            exact absurd hret' hret
    · refine ⟨?_, fun i hi => ?_⟩
      · simp only [PopenSystem.setPc_pc, Function.update_self]
        intro i hi
        have hi : (s.sys.st.thread th).unregistering = some i := hi
        rw [(WaitThread.unregistering_of_inUserCode hfits).1] at hi
        cases hi
      · simp [PopenPc.record] at hi

/-- The rest of `iv_popen_running_child_wait`: the request, if it is open, loses its child, and
otherwise the timer is registered. -/
lemma runWaitRest (h : PopenInv M s) (hpc : s.pc th = .waitUnregister ch) :
    ∃ s', runningChildWaitRest s th ch = .ok s' ∧ PopenInv M s' := by
  obtain ⟨c, hc, hth, hr, hreason⟩ := h.record_of_pc th ch (by rw [hpc]; rfl)
  have hfits := (h.threads th).fits
  rw [hpc] at hreason hfits
  have htimer : (s.pc c.thread).timerOf ≠ some ch := by
    rw [hth, hpc]
    simp [PopenPc.timerOf]
  obtain ⟨st, heq, hsys, howner, hthreads, hun⟩ := h.unregisteredWait_eq hc hfits
  have hpc' : ∀ i, (s.pc th).record = some i → i = ch := by
    intro i hi
    rw [hpc] at hi
    exact (Option.some.inj hi).symm
  rw [runningChildWaitRest, heq, ok_bind, deref_eq (c := c) (by simpa using hc), ok_bind]
  cases hparent : c.parent with
  | some this =>
    have harmed : s.armed ch = none := by rw [hr.armed, if_neg (by simp [hparent])]
    refine ⟨(((s.setSt st).setChild this none).removeRecord ch c.serial).setPc th .waitReturn,
      ?_, ?_⟩
    · dsimp only
      rw [ok_bind, free_eq (c := c) (by simpa using hc), ok_bind]
    · refine FreeStep.popenInv h th ch c ?_ hsys (Or.inl hreason) ?_
      · refine ⟨hc, hth, hpc', rfl, ?_, fun th' hne => by simp [hne], ⟨harmed, fun _ _ => rfl⟩,
          fun r => ?_, howner, hthreads, rfl, ⟨rfl, rfl, rfl⟩, rfl, rfl, rfl⟩
        · simp [PopenPc.record]
        · simp [hparent, Function.update_apply, eq_comm]
      · simpa [PopenPc.Fits] using hun
  | none =>
    have harmed : s.armed ch = some th := by rw [hr.armed, if_pos ⟨hparent, htimer⟩, hth]
    have honHeap : c.onHeap = true := by rw [hr.onHeap hparent, harmed]; rfl
    refine ⟨((((s.setSt st).setRecord ch { c with onHeap := false }).setArmed ch none).removeRecord
      ch c.serial).setPc th .waitReturn, ?_, ?_⟩
    · dsimp only
      rw [unregisterSignalTimer, if_neg (by simp [honHeap]), if_neg (by simp [harmed]), ok_bind,
        free_eq (c := { c with onHeap := false }) (Function.update_self ..), ok_bind]
    · refine FreeStep.popenInv h th ch c ?_ hsys (Or.inl hreason) ?_
      · refine ⟨hc, hth, hpc', Function.update_idem .., ?_, fun th' hne => by simp [hne],
          ⟨Function.update_self .., fun i hi => by simp [hi]⟩,
          fun r => ?_, howner, hthreads, rfl, ⟨rfl, rfl, rfl⟩, rfl, rfl, rfl⟩
        · simp [PopenPc.record]
        · simp [hparent]
      · simpa [PopenPc.Fits] using hun

/-- The rest of `iv_popen_running_child_timer` after an error: the timer is not registered. -/
lemma runTimerRest (h : PopenInv M s) (hpc : s.pc th = .timerUnregister ch) :
    ∃ s', runningChildTimerRest s th ch = .ok s' ∧ PopenInv M s' := by
  obtain ⟨c, hc, hth, hr, hreason⟩ := h.record_of_pc th ch (by rw [hpc]; rfl)
  have hfits := (h.threads th).fits
  rw [hpc] at hreason hfits
  have htimer : (s.pc c.thread).timerOf = some ch := by rw [hth, hpc]; rfl
  have hparent := hr.timer htimer
  have harmed : s.armed ch = none := by rw [hr.armed, if_neg fun hcond => hcond.2 htimer]
  obtain ⟨st, heq, hsys, howner, hthreads, hun⟩ := h.unregisteredWait_eq hc hfits
  refine ⟨((s.setSt st).removeRecord ch c.serial).setPc th .outside, ?_, ?_⟩
  · rw [runningChildTimerRest, heq, ok_bind, free_eq (c := c) (by simpa using hc), ok_bind]
  · refine FreeStep.popenInv h th ch c ?_ hsys
      (Or.inr ⟨hr.closed.mpr hparent, hreason⟩) ?_
    · refine ⟨hc, hth, fun i hi => ?_, rfl, ?_, fun th' hne => by simp [hne],
        ⟨harmed, fun _ _ => rfl⟩, fun r => ?_, howner, hthreads, rfl, ⟨rfl, rfl, rfl⟩, rfl, rfl,
        rfl⟩
      · rw [hpc] at hi
        exact (Option.some.inj hi).symm
      · simp [PopenPc.record]
      · simp [hparent]
    · simp [PopenPc.Fits, hun]

/-! ### All steps -/

/-- A step of `iv_wait`. -/
lemma waited (h : PopenInv M s) {a : WaitLabel} {sys : KillSystem} (hmay : s.mayWait a)
    (hs : killSystemStep M s.sys a = some sys) :
    ∃ s', (s.setSys sys).waited a = .ok s' ∧ PopenInv M s' := by
  cases a with
  | register th i pid => simp [killSystemStep, KillSystem.kernel] at hs
  | spawn th i fork =>
    obtain ⟨hpc, hfree⟩ : s.pc th = .outside ∧ s.heap i = none := by
      simpa [PopenSystem.mayWait] using hmay
    have hinv := h.env (u := Function.update s.isUser i true) hs (Or.inl hpc) (fun j => ?_)
      (fun th' j pid ha => ?_) fun _ _ he => ?_
    · rw [WaitLabel.thread, ← hpc, Function.update_eq_self] at hinv
      exact ⟨_, rfl, hinv⟩
    · by_cases hj : j = i
      · exact Or.inr ⟨hj ▸ hfree, by simp [hj]⟩
      · exact Or.inl (Function.update_of_ne hj _ _)
    · cases fork with
      | none => cases ha
      | some p =>
        obtain ⟨rfl, rfl, rfl⟩ : th = th' ∧ i = j ∧ p = pid := by simpa [WaitLabel.adds] using ha
        exact ⟨hfree, Function.update_self ..⟩
    · cases he
  | call th i status rusage => exact h.called (of_decide_eq_true hmay) hs
  | ret th =>
    have hpc : s.pc th = .outside ∨ s.pc th = .waitReturn := by
      simpa [PopenSystem.mayWait] using hmay
    refine ⟨_, rfl, h.env (u := s.isUser) hs hpc
      (fun i => Or.inl rfl) (fun th' j pid ha => ?_) fun _ _ he => ?_⟩
    · cases ha
    · cases he
  | unregister th i =>
    obtain ⟨hpc, hu⟩ : s.pc th = .outside ∧ s.isUser i = true := by
      simpa [PopenSystem.mayWait] using hmay
    refine ⟨_, rfl, h.env_outside hs hpc rfl fun th' j he => ?_⟩
    obtain ⟨-, rfl⟩ := WaitLabel.unregister.inj he
    exact hu
  | _ =>
    refine ⟨_, rfl, h.env_outside hs (by simpa [PopenSystem.mayWait] using hmay) rfl
      fun _ _ he => ?_⟩
    cases he

/-- No code that can run ends in a fault, and the invariant holds afterwards. -/
theorem code (h : PopenInv M s) {a : PopenLabel} {x : Except Fault PopenSystem}
    (hx : popenCode M s a = some x) : ∃ s', x = .ok s' ∧ PopenInv M s' := by
  cases a with
  | submit th this type ans =>
    simp only [popenCode, Option.ite_none_right_eq_some, Option.map_eq_some_iff] at hx
    obtain ⟨⟨hpc, hop, hfree⟩, y, hy, rfl⟩ := hx
    refine ⟨y.2, rfl, h.submit hpc hop (fun ch hch => ?_) hy⟩
    rw [hch] at hfree
    exact Option.isNone_iff_eq_none.mp hfree
  | close th this =>
    simp only [popenCode] at hx
    split at hx
    · cases hx
    · rename_i n th' hop
      simp only [Option.ite_none_right_eq_some, Option.some.injEq] at hx
      obtain ⟨⟨rfl, -, hpc⟩, rfl⟩ := hx
      obtain ⟨s', heq, hinv⟩ := h.close hpc hop
      exact ⟨_, by rw [heq]; rfl, hinv⟩
  | expire th ch =>
    simp only [popenCode, Option.ite_none_right_eq_some, Option.some.injEq] at hx
    obtain ⟨⟨hl, hpc, harmed⟩, rfl⟩ := hx
    exact h.expire hl hpc harmed
  | run th kill =>
    simp only [popenCode] at hx
    split at hx
    · rename_i ch status hpc
      obtain rfl := Option.some.inj hx
      exact h.runWait hpc
    · rename_i ch hpc
      obtain rfl := Option.some.inj hx
      exact h.runWaitRest hpc
    · rename_i ch hpc
      obtain rfl := Option.some.inj hx
      exact h.runTimer hpc kill
    · rename_i ch hpc
      obtain rfl := Option.some.inj hx
      exact h.runKillFailed hpc
    · rename_i ch hpc
      obtain rfl := Option.some.inj hx
      exact h.runTimerRest hpc
    · cases hx
  | wait a =>
    simp only [popenCode, Option.ite_none_right_eq_some, Option.map_eq_some_iff] at hx
    obtain ⟨hmay, sys, hs, rfl⟩ := hx
    exact h.waited hmay hs

end PopenInv

/-! ### Runs -/

section Main

variable {nodes : AvlState} {pid : InterestPtr → ℤ} {child : RequestPtr → Option InterestPtr}
  {tr : List PopenLabel}

lemma popenInv_init : PopenInv M (popenLts M nodes pid child).init where
  sys := killInv_init M nodes pid
  records ch c hc := by cases hc
  unique ch ch' c c' hc := by cases hc
  threads th := by
    refine ⟨fun i hi => ?_, fun ch hch => ?_⟩
    · cases hi
    · cases hch
  gone ch _ := ⟨rfl, fun _ => rfl⟩
  opened this n th ho := by cases ho
  lost n hn := absurd hn (Nat.not_lt_zero n)
  freed := List.nodup_nil
  cause n hn := by cases hn
  closed n hn := by cases hn
  handled x hx := by cases hx
  kills x hx := by cases hx

lemma popenInv_of_run (h : (popenLts M nodes pid child).Run tr s) : PopenInv M s := by
  refine h.induct (P := fun _ s => PopenInv M s) popenInv_init fun tr s a s' _ hinv hstep => ?_
  obtain ⟨x, hx, hs'⟩ := Option.bind_eq_some_iff.mp hstep
  obtain ⟨s₁, rfl, hinv₁⟩ := hinv.code hx
  obtain rfl := Except.ok.inj (toOption_eq_some.mp hs')
  exact hinv₁

/-- A status says that the child has exited, that it was ended by a signal, or that it continues,
and only one of these. -/
def StatusMacros.Exclusive (M : StatusMacros) : Prop :=
  ∀ status, ¬ (M.wifexited status ∧ M.wifsignaled status) ∧
    ¬ (M.wifexited status ∧ M.wifcontinued status) ∧
    ¬ (M.wifsignaled status ∧ M.wifcontinued status)

/-- `iv_popen` and `iv_wait` agree on who is dead. -/
lemma StatusMacros.Exclusive.gone_iff (hM : M.Exclusive) (status : ℤ) :
    M.gone status ↔ ivWaitStatusDead M status := by
  have := (hM status).2.2
  cases hs : M.wifsignaled status <;> cases hc : M.wifcontinued status <;>
    cases he : M.wifexited status <;> simp_all [StatusMacros.gone, ivWaitStatusDead]

/-- Records, requests and timers in a state. -/
structure PopenSafe (M : StatusMacros) (s : PopenSystem) : Prop where
  /-- A record is freed at most once, and exists until then. -/
  once   : s.freed.Nodup
  freed  : ∀ n, n ∈ s.freed ↔ n < s.submits ∧ ∀ ch c, s.heap ch = some c → c.serial ≠ n
  /-- Only when a dead status was handled or, after close, when a kill failed. -/
  cause  : ∀ n ∈ s.freed, (∃ status, (n, status) ∈ s.handled ∧ ivWaitStatusDead M status) ∨
    n ∈ s.closed ∧ ∃ sig ret, (n, sig, ret) ∈ s.kills ∧ ret < 0
  /-- And then it is freed, by the handler in which this happens. -/
  must   : ∀ n, ((∃ status, (n, status) ∈ s.handled ∧ ivWaitStatusDead M status) ∨
    ∃ sig ret, (n, sig, ret) ∈ s.kills ∧ ret < 0) → n ∈ s.freed ∨
      ∃ ch c, s.heap ch = some c ∧ c.serial = n ∧ (s.pc c.thread).Frees M ch
  /-- Outside of its handler, the timer is registered iff the request has been closed and the record
  exists. -/
  timer  : ∀ ch, (∀ th, (s.pc th).timerOf ≠ some ch) →
    ((s.armed ch).isSome ↔ ∃ c, s.heap ch = some c ∧ c.serial ∈ s.closed)
  /-- Before close, `this->child` is `NULL` iff the record has been freed. -/
  child  : ∀ this n th, s.opened this = some (n, th) → (s.child this = none ↔ n ∈ s.freed)
  /-- `iv_wait` does not refer to memory that is neither a record nor the user's. -/
  unused : ∀ i, s.isUser i = false → s.heap i = none →
    s.sys.st.owner i = none ∧ s.sys.st.eventsPending i = [] ∧
      (∀ th, (s.sys.st.thread th).handledWaitInterest ≠ some i) ∧
      ∃ T, InterestTree s.sys.st.pid s.sys.st.interests T ∧ i ∉ T

lemma PopenInv.popenSafe (h : PopenInv M s) (hM : M.Exclusive) : PopenSafe M s where
  once := h.freed
  freed n := by
    refine ⟨fun hn => ⟨(h.cause n hn).1, ?_⟩, fun ⟨hn, hne⟩ => ?_⟩
    · rintro ch c hc rfl
      exact (h.records ch c hc).alive hn
    · by_contra hf
      obtain ⟨ch, c, hc, hserial⟩ := h.lost n hn hf
      exact hne ch c hc hserial
  cause n hn := by
    refine (h.cause n hn).2.imp ?_ id
    rintro ⟨status, hmem, hgone⟩
    exact ⟨status, hmem, (hM.gone_iff status).mp hgone⟩
  must n hn := by
    have hdead : s.Died M n ∨ s.KillFailed n := by
      refine hn.imp ?_ id
      rintro ⟨status, hmem, hd⟩
      exact ⟨status, hmem, (hM.gone_iff status).mpr hd⟩
    have hlt : n < s.submits := by
      rcases hn with ⟨status, hmem, -⟩ | ⟨sig, ret, hmem, -⟩
      · exact h.handled _ hmem
      · exact h.kills _ hmem
    refine or_iff_not_imp_left.mpr fun hf => ?_
    obtain ⟨ch, c, hc, rfl⟩ := h.lost n hlt hf
    exact ⟨ch, c, hc, rfl, (h.records ch c hc).dead hdead⟩
  timer ch hth := by
    cases hc : s.heap ch with
    | none => simp [(h.gone ch hc).1]
    | some c =>
      have hr := h.records ch c hc
      rw [hr.armed]
      by_cases hp : c.parent = none
      · simp [hp, hth, hr.closed]
      · simp [hp, hr.closed]
  child this n th ho := by
    obtain ⟨hnone, hex⟩ := h.opened this n th ho
    refine ⟨fun hchild => ?_, hnone⟩
    by_contra hn
    obtain ⟨ch, c, hc, -, hparent⟩ := hex hn
    rw [((h.records ch c hc).parent this hparent).2] at hchild
    cases hchild
  unused i hu hi := by
    have ho := (h.gone i hi).2 hu
    obtain ⟨T, hinv, -⟩ := h.sys
    exact ⟨ho, hinv.idle i ho, hinv.handled_ne ho, T, hinv.tree, hinv.notMem_of_owner ho⟩

/-- In every run every record is freed once, when a dead status was handled or, after close, when a
signal could not be sent. No step that can be taken uses a record that has been freed, frees one
twice, or ends in a fatal error of the timers. -/
theorem popenSafe_of_run (hM : M.Exclusive) (h : (popenLts M nodes pid child).Run tr s) :
    PopenSafe M s ∧ ∀ a f, popenCode M s a ≠ some (.error f) := by
  have hinv := popenInv_of_run h
  refine ⟨hinv.popenSafe hM, fun a f hx => ?_⟩
  obtain ⟨s', heq, -⟩ := hinv.code hx
  cases heq

end Main

lemma linuxMacros_exclusive : linuxMacros.Exclusive := by
  intro status
  simp only [linuxMacros, decide_eq_true_eq]
  omega

/-- Two requests. The child of the first one exits, and its record is freed before the request is
closed. The second request is closed while its child lives; a signal is sent, and when the next one
cannot be sent the record is freed. -/
def twoRequests : List PopenLabel :=
  [.submit 0 0 "r" ⟨some 1, true, 0, some (3, 4), some 7⟩,
    .submit 0 1 "w" ⟨some 2, true, 0, some (5, 6), some 8⟩,
    .wait (.reap 0 [⟨7, 0, 0⟩]),
    .close 0 1, .expire 0 2, .run 0 fun _ _ => 0,
    .wait (.steal 0 1), .wait (.call 0 1 0 0), .run 0 fun _ _ => 0, .run 0 fun _ _ => 0,
    .wait (.ret 0), .wait (.finish 0),
    .expire 0 2, .run 0 fun _ _ => -1, .run 0 fun _ _ => 0, .run 0 fun _ _ => 0]

theorem popenSafe_of_run_two :
    ∃ s, (popenLts linuxMacros emptyNodes (fun _ => 0) fun _ => none).Run twoRequests s ∧
      s.freed = [0, 1] ∧ s.handled = [(0, 0)] ∧ s.kills = [(1, 15, 0), (1, 15, -1)] ∧
      s.child 0 = none ∧ s.armed 2 = none ∧ PopenSafe linuxMacros s ∧
      ∀ a f, popenCode linuxMacros s a ≠ some (.error f) := by
  refine Kit.Lts.exists_run_of_decide (fun s => s.freed = [0, 1] ∧ s.handled = [(0, 0)] ∧
    s.kills = [(1, 15, 0), (1, 15, -1)] ∧ s.child 0 = none ∧ s.armed 2 = none) (by decide +kernel)
    fun s hrun ⟨hfreed, hhandled, hkills, hchild, harmed⟩ => ?_
  exact ⟨hfreed, hhandled, hkills, hchild, harmed, popenSafe_of_run linuxMacros_exclusive hrun⟩

end Ivykis
