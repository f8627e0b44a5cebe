import Mathlib.Data.Int.Interval
import Ivykis.Fd.Poll

/-!
# The bounds of the arrays of the poll method (`iv_fd_poll.c`)

The arrays have room for `IV_FD_POLL_MAXFD` entries. Here `iv_fd_poll_notify_fd` is given a check of
every index that it uses. The indices never get too large, because the numbers of the registered
descriptors are distinct and below the bound. But for a descriptor without an index and without a
handler the index that is used is `-1`.
-/

namespace Ivykis

/-- The indices of `pfds` and `fds` that `iv_fd_poll_notify_fd` uses. -/
def notifyIndices (st : FdState PollState) (fd : FdPtr) : List ℤ :=
  let poll := st.method
  if poll.index fd = -1 ∧ (st.fds fd).wantedBands ≠ ∅ then [poll.numRegdFds]
  else if poll.index fd ≠ -1 ∧ (st.fds fd).wantedBands = ∅ then
    if poll.index fd ≠ poll.numRegdFds - 1 then [poll.index fd, poll.numRegdFds - 1] else []
  else [poll.index fd]

/-- All of them are inside the arrays. -/
def InBounds (st : FdState PollState) (fd : FdPtr) : Prop :=
  ∀ i ∈ notifyIndices st fd, 0 ≤ i ∧ i < ivFdPollMaxfd

instance (st : FdState PollState) (fd : FdPtr) : Decidable (InBounds st fd) :=
  inferInstanceAs (Decidable (∀ i ∈ notifyIndices st fd, _))

/-- `iv_fd_poll_notify_fd` with its indices checked. -/
def ivFdPollNotifyFdChecked (st : FdState PollState) (fd : FdPtr) :
    Except Fault (FdState PollState) :=
  if InBounds st fd then .ok (ivFdPollNotifyFd st fd) else .error .invalidAccess

/-- `iv_fd_poll_notify_fd_sync` with the indices of `iv_fd_poll_notify_fd` checked. -/
def ivFdPollNotifyFdSyncChecked (refused : Bool) (st : FdState PollState) (fd : FdPtr) :
    Except Fault (Bool × FdState PollState) :=
  if refused then .ok (true, st) else (ivFdPollNotifyFdChecked st fd).map fun st => (false, st)

section Method

variable {st st' : FdState PollState} {fd : FdPtr}

lemma ivFdPollNotifyFdChecked_eq_ok (h : ivFdPollNotifyFdChecked st fd = .ok st') :
    InBounds st fd ∧ st' = ivFdPollNotifyFd st fd := by
  unfold ivFdPollNotifyFdChecked at h
  split_ifs at h with hbounds
  exact ⟨hbounds, (Except.ok.inj h).symm⟩

lemma ivFdPollNotifyFdSyncChecked_core {refused ret : Bool}
    (h : ivFdPollNotifyFdSyncChecked refused st fd = .ok (ret, st')) : st.SameCore st' := by
  unfold ivFdPollNotifyFdSyncChecked ivFdPollNotifyFdChecked at h
  split_ifs at h
  · exact (Prod.mk.inj (Except.ok.inj h)).2 ▸ .refl st
  · exact (Prod.mk.inj (Except.ok.inj h)).2 ▸ ivFdPollNotifyFd_core st fd
  · cases h

/-- The poll method with the indices of its arrays checked. -/
def pollMethodChecked : PollMethod PollState where
  registerFd := ivFdPollRegisterFd
  unregisterFd _ st _ := .ok st
  notifyFd := ivFdPollNotifyFdChecked
  notifyFdSync := ivFdPollNotifyFdSyncChecked
  registerFd_core := @pollMethod.registerFd_core
  unregisterFd_core := @pollMethod.unregisterFd_core
  notifyFd_core h := (ivFdPollNotifyFdChecked_eq_ok h).2 ▸ ivFdPollNotifyFd_core _ _
  notifyFdSync_core := ivFdPollNotifyFdSyncChecked_core

end Method

/-- The calls after which the descriptor has a handler, or before which it had one. Without that
`iv_fd_poll_notify_fd` is asked to change an entry that is not there. -/
def FdOp.handled {μ : Type} (st : FdState μ) : FdOp → Prop
  | .register fd               => (st.fds fd).handlerBands ≠ ∅
  | .unregister fd _           => (st.fds fd).handlerBands ≠ ∅
  | .setHandler fd _ handler   => (st.fds fd).handlerBands ≠ ∅ ∨ handler ≠ none
  | .registerTry _ _           => True
  | .prepare _ _ _ _ _         => True

instance {μ : Type} (st : FdState μ) (op : FdOp) : Decidable (op.handled st) := by
  unfold FdOp.handled
  split <;> infer_instance

/-! ### There is room for all descriptors -/

/-- The numbers of the descriptors `T` are distinct, and below the bound. -/
structure Numbered {μ : Type} (st : FdState μ) (T : Finset FdPtr) : Prop where
  distinct : ∀ p ∈ T, ∀ q ∈ T, (st.fds p).fd = (st.fds q).fd → p = q
  nonneg : ∀ p ∈ T, 0 ≤ (st.fds p).fd
  below : ∀ p ∈ T, (st.fds p).fd < ivFdPollMaxfd

section Room

variable {μ : Type} {st st' : FdState μ} {T : Finset FdPtr} {fd : FdPtr}

lemma Numbered.card_le (h : Numbered st T) : (T.card : ℤ) ≤ ivFdPollMaxfd := by
  have hcard : T.card ≤ (Finset.Ico 0 ivFdPollMaxfd).card := by
    refine Finset.card_le_card_of_injOn (fun p => (st.fds p).fd) ?_ ?_
    · exact fun p hp => Finset.mem_coe.mpr (Finset.mem_Ico.mpr ⟨h.nonneg p hp, h.below p hp⟩)
    · exact fun p hp q hq heq => h.distinct p hp q hq heq
  rw [Int.card_Ico] at hcard
  have hmax : 0 ≤ ivFdPollMaxfd := by decide
  omega

lemma Numbered.congr (h : Numbered st T) (hnum : ∀ p ∈ T, (st'.fds p).fd = (st.fds p).fd) :
    Numbered st' T where
  distinct p hp q hq heq := h.distinct p hp q hq (by rw [← hnum p hp, ← hnum q hq, heq])
  nonneg p hp := hnum p hp ▸ h.nonneg p hp
  below p hp := hnum p hp ▸ h.below p hp

end Room

variable {st st' : FdState PollState} {T : Finset FdPtr} {dirty : Option FdPtr} {fd : FdPtr}

/-- The entries belong to different descriptors. -/
lemma PollOk.numRegdFds_le (h : PollOk st T dirty) {U : Finset FdPtr}
    (hU : ∀ p ∈ T, st.method.index p ≠ -1 → p ∈ U) : st.method.numRegdFds ≤ U.card := by
  have hnonneg := h.nonneg
  have hcard : (Finset.Ico 0 st.method.numRegdFds).card ≤ U.card := by
    refine Finset.card_le_card_of_injOn st.method.fds ?_ ?_
    · intro i hi
      obtain ⟨h0, hlt⟩ := Finset.mem_Ico.mp (Finset.mem_coe.mp hi)
      obtain ⟨hmem, hindex, -⟩ := h.entry i h0 hlt
      exact hU _ hmem (by omega)
    · intro i hi j hj heq
      obtain ⟨hi0, hi⟩ := Finset.mem_Ico.mp (Finset.mem_coe.mp hi)
      obtain ⟨hj0, hj⟩ := Finset.mem_Ico.mp (Finset.mem_coe.mp hj)
      rw [← (h.entry i hi0 hi).2.1, ← (h.entry j hj0 hj).2.1, heq]
  rw [Int.card_Ico] at hcard
  omega

/-- The indices are inside the arrays unless an entry is to be changed that is not there. -/
lemma PollOk.inBounds (h : PollOk st T dirty) (hnum : Numbered st T) (hmem : fd ∈ T)
    (hentry : st.method.index fd = -1 → (st.fds fd).wantedBands ≠ ∅) : InBounds st fd := by
  have hroom := hnum.card_le
  have hle : st.method.numRegdFds ≤ T.card := h.numRegdFds_le fun p hp _ => hp
  have hnonneg := h.nonneg
  intro i hi
  unfold notifyIndices at hi
  dsimp only at hi
  by_cases hindex : st.method.index fd = -1
  · -- the descriptor itself has no entry yet
    rw [if_pos ⟨hindex, hentry hindex⟩, List.mem_singleton] at hi
    have hlt : st.method.numRegdFds ≤ (T.erase fd).card :=
      h.numRegdFds_le fun p hp hne => Finset.mem_erase.mpr ⟨fun heq => hne (heq ▸ hindex), hp⟩
    have hcard := Finset.card_erase_add_one hmem
    omega
  · obtain ⟨h0, hlt, -⟩ := h.index fd hmem hindex
    rw [if_neg fun hadd => hindex hadd.1] at hi
    split_ifs at hi with hremove hlast
    · simp only [List.mem_cons, List.not_mem_nil, or_false] at hi
      omega
    · cases hi
    · rw [List.mem_singleton] at hi
      omega

/-! ### Calls -/

/-- A descriptor that has been accepted is below the bound. -/
lemma ivFdPollRegisterFd_below (h : ivFdPollRegisterFd (st.enrol fd) fd = .ok st') :
    (st.fds fd).fd < ivFdPollMaxfd := by
  unfold ivFdPollRegisterFd at h
  split_ifs at h with hmax
  simpa [FdState.enrol] using hmax

lemma Numbered.enrol (h : Numbered st T) (hnew : NewFd st T fd)
    (henrol : ivFdPollRegisterFd (st.enrol fd) fd = .ok st') : Numbered st' (insert fd T) := by
  have hnum : ∀ p, (st'.fds p).fd = (st.fds p).fd := by
    intro p
    rw [ivFdPollRegisterFd_eq_ok henrol]
    by_cases hp : p = fd
    · subst hp
      simp [FdState.enrol]
    · simp [FdState.enrol, hp]
  have hold : Numbered st (insert fd T) := by
    refine ⟨?_, ?_, ?_⟩
    · intro p hp q hq heq
      rcases Finset.mem_insert.mp hp with rfl | hpT <;>
        rcases Finset.mem_insert.mp hq with rfl | hqT
      · rfl
      · exact absurd heq.symm (hnew.free q hqT)
      · exact absurd heq (hnew.free p hpT)
      · exact h.distinct p hpT q hqT heq
    · intro p hp
      rcases Finset.mem_insert.mp hp with rfl | hp
      · exact hnew.nonneg
      · exact h.nonneg p hp
    · intro p hp
      rcases Finset.mem_insert.mp hp with rfl | hp
      · exact ivFdPollRegisterFd_below henrol
      · exact h.below p hp
  exact hold.congr fun p _ => hnum p

lemma Numbered.setFd {μ : Type} {st : FdState μ} (h : Numbered st T) {f : Fd → Fd}
    (hf : (f (st.fds fd)).fd = (st.fds fd).fd) : Numbered (st.setFd fd f) T := by
  refine h.congr fun p _ => ?_
  by_cases hp : p = fd
  · subst hp
    simpa using hf
  · simp [hp]

lemma notifyFd_checked (h : PollOk st T (some fd)) (hnum : Numbered st T) (hmem : fd ∈ T)
    (hentry : st.method.index fd = -1 → (st.fds fd).recomputeWantedFlags.wantedBands ≠ ∅) :
    notifyFd pollMethodChecked st fd = notifyFd pollMethod st fd := by
  have hset : PollOk (st.setFd fd Fd.recomputeWantedFlags) T (some fd) :=
    h.change (Or.inr rfl) ⟨rfl, rfl⟩
  exact if_pos (hset.inBounds (hnum.setFd rfl) hmem (by simpa using hentry))

/-- A thread in which every call so far has been in bounds. -/
structure BoundsInv (s : LoopState PollState) : Prop where
  poll : BackendInv PollOk s
  numbered : Numbered s.st s.regs

namespace BoundsInv

variable {s : LoopState PollState} {op : FdOp}

/-- The state after the prologue, if it returns. -/
lemma prologue (h : BoundsInv s) (hfree : ∀ q ∈ s.regs, (s.st.fds q).fd ≠ (s.st.fds fd).fd)
    {st₁ : FdState PollState} (hst₁ : ivFdRegisterPrologue pollMethod s.st fd = .ok st₁) :
    PollOk st₁ (insert fd s.regs) (some fd) ∧ Numbered st₁ (insert fd s.regs) ∧
      (st₁.fds fd).registered = true ∧
      (st₁.fds fd).handlerBands = (s.st.fds fd).handlerBands := by
  obtain ⟨hreg, hfd, henrol, hreg₁⟩ := ivFdRegisterPrologue_eq_ok hst₁
  have hnew : NewFd s.st s.regs fd := ⟨by simp [h.poll.fds.mem_iff, hreg], hfree, hfd⟩
  exact ⟨(h.poll.backend.enrol hnew.notMem henrol).1, h.numbered.enrol hnew henrol, hreg₁,
    MethodLaws.handlerBands_enrol (m := pollMethod) henrol⟩

lemma register (h : BoundsInv s) (hfree : ∀ q ∈ s.regs, (s.st.fds q).fd ≠ (s.st.fds fd).fd)
    (hhandled : (s.st.fds fd).handlerBands ≠ ∅) :
    ivFdRegister pollMethodChecked s.st fd = ivFdRegister pollMethod s.st fd := by
  have hprologue : ivFdRegisterPrologue pollMethodChecked s.st fd =
    ivFdRegisterPrologue pollMethod s.st fd := rfl
  unfold ivFdRegister
  rw [hprologue]
  cases hst₁ : ivFdRegisterPrologue pollMethod s.st fd with
  | error e => rfl
  | ok st₁ =>
    obtain ⟨hok, hnum, hreg₁, hbands⟩ := h.prologue hfree hst₁
    rw [ok_bind, ok_bind, notifyFd_checked hok hnum (Finset.mem_insert_self fd _)]
    rw [Fd.recomputeWantedFlags_wantedBands hreg₁, hbands]
    exact fun _ => hhandled

/-- A descriptor for which some band is asked for gets an index, which it loses again if it has no
handler. -/
lemma registerTry (h : BoundsInv s) (hfree : ∀ q ∈ s.regs, (s.st.fds q).fd ≠ (s.st.fds fd).fd)
    (refused : Bool) :
    ivFdRegisterTry pollMethodChecked refused s.st fd =
      ivFdRegisterTry pollMethod refused s.st fd := by
  have hprologue : ivFdRegisterPrologue pollMethodChecked s.st fd =
    ivFdRegisterPrologue pollMethod s.st fd := rfl
  unfold ivFdRegisterTry
  rw [hprologue]
  cases hst₁ : ivFdRegisterPrologue pollMethod s.st fd with
  | error e => rfl
  | ok st₁ =>
    obtain ⟨hok, hnum, hreg₁, hbands⟩ := h.prologue hfree hst₁
    have hmem := Finset.mem_insert_self fd s.regs
    simp only [ok_bind, FdState.setFd_fds, Function.update_self,
      Fd.recomputeWantedFlags_wantedBands hreg₁]
    rw [← FdState.ask_eq hreg₁]
    cases refused with
    | true => rfl
    | false =>
      have hwanted := FdState.ask_wantedBands_ne hreg₁
      have hnum' : Numbered (st₁.ask fd) (insert fd s.regs) :=
        FdState.ask_keeps (P := fun st => Numbered st (insert fd s.regs))
          (fun hst hf => hst.setFd hf.num) hnum
      have hbounds : InBounds (st₁.ask fd) fd := hok.ask.inBounds hnum' hmem fun _ => hwanted
      have hsync : pollMethodChecked.notifyFdSync false (st₁.ask fd) fd =
          .ok (false, ivFdPollNotifyFd (st₁.ask fd) fd) := by
        simp [pollMethodChecked, ivFdPollNotifyFdSyncChecked, ivFdPollNotifyFdChecked, hbounds,
          Except.map]
      have hsync' : pollMethod.notifyFdSync false (st₁.ask fd) fd =
          .ok (false, ivFdPollNotifyFd (st₁.ask fd) fd) := rfl
      rw [hsync, hsync']
      simp only [ok_bind, Bool.false_eq_true, if_false]
      split_ifs with hnone
      · -- the entry is there, since some band was asked for
        have hok₂ := hok.ask.notifyFd hmem
        have hcore := ivFdPollNotifyFd_core (st₁.ask fd) fd
        have hindex : (ivFdPollNotifyFd (st₁.ask fd) fd).method.index fd ≠ -1 := by
          rw [ne_eq, hok₂.wanted fd hmem (by simp), hcore.wantedBands]
          exact hwanted
        have hset : PollOk ((ivFdPollNotifyFd (st₁.ask fd) fd).setFd fd
            fun f => { f with wantedBands := ∅ }) (insert fd s.regs) (some fd) :=
          hok₂.change (Or.inl rfl) ⟨rfl, rfl⟩
        have hnum₂ : Numbered (ivFdPollNotifyFd (st₁.ask fd) fd) (insert fd s.regs) :=
          hnum'.congr fun p _ => hcore.fd p
        have hnotify : pollMethodChecked.notifyFd ((ivFdPollNotifyFd (st₁.ask fd) fd).setFd fd
            fun f => { f with wantedBands := ∅ }) fd = pollMethod.notifyFd _ fd :=
          if_pos (hset.inBounds (hnum₂.setFd rfl) hmem fun hnew => absurd hnew hindex)
        rw [hnotify]
      · rfl

lemma unregister (h : BoundsInv s) (hhandled : (s.st.fds fd).handlerBands ≠ ∅) (refused : Bool) :
    ivFdUnregister pollMethodChecked refused s.st fd =
      ivFdUnregister pollMethod refused s.st fd := by
  unfold ivFdUnregister
  split_ifs with hreg
  · have hmem := (h.poll.fds.mem_iff fd).mpr hreg
    have hset : PollOk (s.st.setFd fd fun f => { f with registered := false }) s.regs (some fd) :=
      h.poll.backend.change (Or.inl rfl) ⟨rfl, rfl⟩
    have hretire : PollOk (s.st.retire fd) s.regs (some fd) := hset.congr rfl rfl
    have hindex : s.st.method.index fd ≠ -1 := by
      rw [ne_eq, h.poll.backend.wanted fd hmem (by simp), h.poll.fds.wanted fd hmem]
      exact hhandled
    have hnum : Numbered (s.st.retire fd) s.regs :=
      (h.numbered.setFd (f := fun f => { f with registered := false }) rfl).congr fun _ _ => rfl
    have hnotify := notifyFd_checked hretire hnum hmem fun hnone => absurd hnone hindex
    exact congrArg (fun x => x >>= _) hnotify
  · rfl

lemma setHandler (h : BoundsInv s) {handler : FdHandler}
    (hhandled : (s.st.fds fd).handlerBands ≠ ∅ ∨ handler ≠ none) (band : Band) (error : String) :
    ivFdSetHandler pollMethodChecked band error s.st fd handler =
      ivFdSetHandler pollMethod band error s.st fd handler := by
  unfold ivFdSetHandler
  split_ifs with hreg
  · have hmem := (h.poll.fds.mem_iff fd).mpr hreg
    have hset : PollOk (s.st.setFd fd fun f => f.setHandler band handler) s.regs (some fd) :=
      h.poll.backend.change (Or.inl rfl) ⟨by simp, by simp⟩
    refine notifyFd_checked hset (h.numbered.setFd (by simp)) hmem fun hindex => ?_
    have hnone : (s.st.fds fd).handlerBands = ∅ := by
      rw [← h.poll.fds.wanted fd hmem]
      exact (h.poll.backend.wanted fd hmem (by simp)).mp hindex
    have hnew : handler ≠ none := hhandled.resolve_left (not_not.mpr hnone)
    rw [Fd.recomputeWantedFlags_wantedBands (by simpa using hreg), ne_eq,
      Fd.handlerBands_eq_empty_iff, not_not]
    refine ⟨band, ?_⟩
    cases band <;> simpa [Fd.setHandler, Fd.handler] using hnew
  · rfl

/-- No check fails in a call that meets the condition. -/
lemma call (h : BoundsInv s) (hdistinct : op.distinct s.st s.regs = true)
    (hhandled : op.handled s.st) :
    fdCall pollMethodChecked s.st op = fdCall pollMethod s.st op := by
  cases op with
  | prepare fd num hIn hOut hErr => rfl
  | register fd => exact h.register (of_decide_eq_true hdistinct) hhandled
  | registerTry fd refused =>
    exact congrArg (Except.map Prod.snd) (h.registerTry (of_decide_eq_true hdistinct) refused)
  | unregister fd refused => exact h.unregister hhandled refused
  | setHandler fd band handler =>
    cases band with
    | maskIn => exact h.setHandler hhandled _ _
    | maskOut => exact h.setHandler hhandled _ _
    | maskErr => exact h.setHandler hhandled _ _

end BoundsInv

/-! ### Runs -/

variable {fds : FdPtr → Fd} {poll : PollState} {tr : List (LoopLabel PollAnswer)}
  {s : LoopState PollState} {op : FdOp}

/-- A descriptor that a call has registered is below the bound. -/
lemma FdStep.below (h : FdStep pollMethod st op st') (hreg : (st.fds op.fd).registered = false)
    (hreg' : (st'.fds op.fd).registered = true) : (st.fds op.fd).fd < ivFdPollMaxfd := by
  cases h with
  | prepare hreg₀ => simp [FdOp.fd, hreg₀] at hreg'
  | register _ _ henrol _ => exact ivFdPollRegisterFd_below henrol
  | registerTry _ _ henrol _ _ => exact ivFdPollRegisterFd_below henrol
  | registerTryBare _ _ henrol _ _ _ => exact ivFdPollRegisterFd_below henrol
  | registerTryFailed _ _ henrol _ _ => exact ivFdPollRegisterFd_below henrol
  | unregister hreg₀ _ _ => simp [FdOp.fd, hreg₀] at hreg
  | setHandler hreg₀ _ => simp [FdOp.fd, hreg₀] at hreg

lemma below_of_run (h : (pollLts fds poll).Run tr s) :
    ∀ p ∈ s.regs, (s.st.fds p).fd < ivFdPollMaxfd := by
  refine Kit.Lts.Run.induct (P := fun _ s => ∀ p ∈ s.regs, (s.st.fds p).fd < ivFdPollMaxfd)
    ?_ ?_ h
  · exact fun p hp => absurd hp (Finset.notMem_empty p)
  · intro tr s a s' hrun hbelow hstep
    have hstep : LoopStep pollMethod ivFdPollPoll s a s' := .of_step hstep
    have hfds := (pollInv_of_run hrun).fds
    cases hstep with
    | @op o st' hpc hdistinct hop =>
      intro p hp
      rcases FdOp.mem_regsAfter.mp hp with ⟨rfl, hreg'⟩ | ⟨hne, hp⟩
      · cases hop.outcome with
        | idle _ hreg'' _ _ => simp [hreg''] at hreg'
        | added hreg _ _ hnum _ _ _ _ => exact hnum ▸ hop.below hreg hreg'
        | removed _ hreg'' _ _ => simp [hreg''] at hreg'
        | changed hreg _ hnum _ _ _ => exact hnum ▸ hbelow _ ((hfds.mem_iff _).mpr hreg)
      · rw [hop.fds_of_ne hne]
        exact hbelow p hp
    | @poll k st' pc' hpc hpoll =>
      have hnum : ∀ p, (st'.fds p).fd = (s.st.fds p).fd := by
        intro p
        cases k with
        | events revents =>
          obtain ⟨rfl, -⟩ := Prod.mk.inj (Option.some.inj hpoll)
          rw [ivFdPollActivateFds, (activateFds_sameRegs _ _).fds p]
          rfl
        | interrupted =>
          obtain ⟨rfl, -⟩ := Prod.mk.inj (Option.some.inj hpoll)
          rfl
      exact fun p hp => hnum p ▸ hbelow p hp
    | round hsame =>
      intro p hp
      rw [hsame.fds p]
      exact hbelow p hp

lemma boundsInv_of_run (h : (pollLts fds poll).Run tr s) : BoundsInv s :=
  have hinv := pollInv_of_run h
  ⟨hinv, hinv.fds.distinct, hinv.fds.nonneg, below_of_run h⟩

/-- The errors of the poll method without the checks are those of `iv_fatal`. -/
lemma fdCall_poll_ne (st : FdState PollState) (op : FdOp) :
    fdCall pollMethod st op ≠ .error .invalidAccess := by
  intro h
  cases op with
  | prepare fd num hIn hOut hErr => cases h
  | register fd =>
    simp only [fdCall, ivFdRegister, ivFdRegisterPrologue, pollMethod, ivFdPollRegisterFd] at h
    split_ifs at h <;> cases h
  | registerTry fd refused =>
    simp only [fdCall, ivFdRegisterTry, ivFdRegisterPrologue, pollMethod, ivFdPollRegisterFd] at h
    split_ifs at h
    · cases h
    · cases h
    · cases h
    · simp only [ok_bind] at h
      split_ifs at h <;> cases h
  | unregister fd refused =>
    simp only [fdCall, ivFdUnregister] at h
    split_ifs at h <;> cases h
  | setHandler fd band handler =>
    cases band <;>
    · simp only [fdCall, ivFdSetHandlerIn, ivFdSetHandlerOut, ivFdSetHandlerErr,
        ivFdSetHandler] at h
      split_ifs at h <;> cases h

/-- The calls of a step meet the condition. -/
def LoopState.handles (s : LoopState PollState) : LoopLabel PollAnswer → Prop
  | .op o => o.handled s.st
  | _     => True

instance (s : LoopState PollState) (a : LoopLabel PollAnswer) : Decidable (s.handles a) := by
  unfold LoopState.handles
  split <;> infer_instance

/-- If `iv_fd_register`, the handler setters and `iv_fd_unregister` are not called for a descriptor
that has no handler and is not given one, then `iv_fd_poll_notify_fd` uses no index outside of the
arrays, in any run. -/
theorem pollInBounds_of_run
    (h : ((pollLts fds poll).restrict LoopState.handles).Run tr s)
    (hdistinct : op.distinct s.st s.regs = true) (hhandled : op.handled s.st) :
    fdCall pollMethodChecked s.st op = fdCall pollMethod s.st op ∧
    fdCall pollMethodChecked s.st op ≠ .error .invalidAccess := by
  have hcall := (boundsInv_of_run h.of_restrict).call hdistinct hhandled
  exact ⟨hcall, hcall ▸ fdCall_poll_ne s.st op⟩

/-- A descriptor without a handler that has been tried gets one, and loses it again. -/
def triedThenHandled : List (LoopLabel PollAnswer) :=
  [.op (.prepare 5 3 none none none), .op (.registerTry 5 false),
    .op (.setHandler 5 .maskIn (some 1)), .op (.setHandler 5 .maskIn none)]

theorem pollInBounds_of_run_triedThenHandled :
    ∃ s, ((pollLts noFds noPolls).restrict LoopState.handles).Run triedThenHandled s ∧
      fdCall pollMethodChecked s.st (.setHandler 5 .maskOut (some 2)) ≠ .error .invalidAccess := by
  refine Kit.Lts.exists_run_of_decide (fun s =>
    (FdOp.setHandler 5 .maskOut (some 2)).distinct s.st s.regs = true ∧
      (FdOp.setHandler 5 .maskOut (some 2)).handled s.st) (by decide)
    fun s hrun ⟨hdistinct, hhandled⟩ => ?_
  exact (pollInBounds_of_run hrun hdistinct hhandled).2

/-- A descriptor without a handler is registered: `pfds[-1].events` is written to. -/
theorem poll_out_of_bounds :
    ∃ s, (pollLts noFds noPolls).Run [.op (.prepare 5 3 none none none)] s ∧
      (FdOp.register 5).distinct s.st s.regs = true ∧
      (∃ st, fdCall pollMethod s.st (.register 5) = .ok st) ∧
      fdCall pollMethodChecked s.st (.register 5) = .error .invalidAccess := by
  refine Kit.Lts.exists_run_of_decide (fun s => (FdOp.register 5).distinct s.st s.regs = true ∧
    faultOf (fdCall pollMethod s.st (.register 5)) = none ∧
      faultOf (fdCall pollMethodChecked s.st (.register 5)) = some .invalidAccess) (by decide)
    fun s _ ⟨hdistinct, hok, hfault⟩ => ?_
  refine ⟨hdistinct, ?_, faultOf_eq_some.mp hfault⟩
  cases hcall : fdCall pollMethod s.st (.register 5) with
  | error e => simp [hcall, faultOf] at hok
  | ok st => exact ⟨st, rfl⟩

end Ivykis
