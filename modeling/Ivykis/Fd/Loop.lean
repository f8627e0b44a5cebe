import Mathlib.Data.Finset.Card
import Ivykis.Fd.Dispatch

/-!
# A thread that polls

The calls of the user and the rounds of `iv_fd_poll_and_run`, one after another, for a given poll
method. What is left open here is what the method does until it has its reports.
-/

namespace Ivykis

variable {μ κ : Type}

/-- The state of a thread. It is inside a round unless `pc` is `done`. -/
structure LoopState (μ : Type) where
  st   : FdState μ
  pc   : DispatchPc
  /-- The descriptors that are registered. The code keeps no such set. -/
  regs : Finset FdPtr

inductive LoopLabel (κ : Type) where
  /-- A call of the user. -/
  | op (o : FdOp)
  /-- A step of `method->poll`. -/
  | poll (k : κ)
  /-- A step of the rest of the round. -/
  | round (a : DispatchLabel)

/-- Two descriptors that are registered at the same time differ in their number. -/
def FdOp.distinct (st : FdState μ) (regs : Finset FdPtr) : FdOp → Bool
  | .register fd      => decide (∀ q ∈ regs, (st.fds q).fd ≠ (st.fds fd).fd)
  | .registerTry fd _ => decide (∀ q ∈ regs, (st.fds q).fd ≠ (st.fds fd).fd)
  | _                 => true

/-- The registered descriptors after a call that has led to `st`. -/
def FdOp.regsAfter (st : FdState μ) (regs : Finset FdPtr) (op : FdOp) : Finset FdPtr :=
  if (st.fds op.fd).registered then insert op.fd regs else regs.erase op.fd

def loopStep (m : PollMethod μ) (poll : FdState μ → κ → Option (FdState μ × DispatchPc))
    (s : LoopState μ) : LoopLabel κ → Option (LoopState μ)
  | .op o =>
    if (s.pc = .done ∨ s.pc.inUser) ∧ o.distinct s.st s.regs then
      (fdStep m s.st o).map fun st => { s with st := st, regs := o.regsAfter st s.regs }
    else none
  | .poll k =>
    if s.pc = .done then (poll s.st k).map fun res => { s with st := res.1, pc := res.2 } else none
  | .round a =>
    if a.internal then
      (dispatchStep m ⟨s.st, s.pc⟩ a).map fun d => { s with st := d.st, pc := d.pc }
    else none

/-- Descriptors that have not been filled in. -/
def noFds : FdPtr → Fd := fun _ => ⟨-1, none, none, none, ∅, false, ∅, ∅⟩

/-- `iv_fd_init`, in a thread with descriptors of which none is registered. The method has set up
`method`. -/
def ivFdInit (fds : FdPtr → Fd) (method : μ) : LoopState μ where
  st :=
    { numobjs := 0
      numfds := 0
      handledFd := none
      fds := fun p => { fds p with registered := false }
      active := []
      method := method }
  pc := .done
  regs := ∅

/-- A report of a band, if there is a reason for it. -/
def makeReadyIf (reason : Bool) (st : FdState μ) (fd : FdPtr) (band : Band) : FdState μ :=
  if reason then ivFdMakeReady st fd {band} else st

/-! ### The descriptors of a thread -/

/-- `regs` are the registered descriptors, and `numfds` is their number. -/
structure FdCount (st : FdState μ) (regs : Finset FdPtr) : Prop where
  mem_iff : ∀ p, p ∈ regs ↔ (st.fds p).registered = true
  numfds : st.numfds = regs.card

/-- The invariant of the descriptors that does not depend on the poll method. -/
structure FdsOk (st : FdState μ) (regs : Finset FdPtr) : Prop extends FdCount st regs where
  distinct : ∀ p ∈ regs, ∀ q ∈ regs, (st.fds p).fd = (st.fds q).fd → p = q
  nonneg : ∀ p ∈ regs, 0 ≤ (st.fds p).fd
  wanted : ∀ p ∈ regs, (st.fds p).wantedBands = (st.fds p).handlerBands

lemma fdsOk_init (fds : FdPtr → Fd) (method : μ) : FdsOk (ivFdInit fds method).st ∅ := by
  refine ⟨⟨?_, ?_⟩, ?_, ?_, ?_⟩ <;> simp [ivFdInit]

section Calls

variable {m : PollMethod μ} {st st' : FdState μ} {op : FdOp} {regs : Finset FdPtr} {fd : FdPtr}

/-- What a call does to the descriptor that it is about, and to the counts. -/
inductive FdOutcome (st st' : FdState μ) (op : FdOp) : Prop
  | idle (hreg : (st.fds op.fd).registered = false) (hreg' : (st'.fds op.fd).registered = false)
      (hnumfds : st'.numfds = st.numfds) (hnumobjs : st'.numobjs = st.numobjs)
  | added (hreg : (st.fds op.fd).registered = false) (hreg' : (st'.fds op.fd).registered = true)
      (hfd : 0 ≤ (st.fds op.fd).fd) (hnum : (st'.fds op.fd).fd = (st.fds op.fd).fd)
      (hwanted : (st'.fds op.fd).wantedBands = (st'.fds op.fd).handlerBands)
      (hnumfds : st'.numfds = st.numfds + 1) (hnumobjs : st'.numobjs = st.numobjs + 1)
      (hdistinct : ∀ regs, op.distinct st regs = decide (∀ q ∈ regs, (st.fds q).fd ≠
        (st.fds op.fd).fd))
  | removed (hreg : (st.fds op.fd).registered = true) (hreg' : (st'.fds op.fd).registered = false)
      (hnumfds : st'.numfds = st.numfds - 1) (hnumobjs : st'.numobjs = st.numobjs - 1)
  | changed (hreg : (st.fds op.fd).registered = true) (hreg' : (st'.fds op.fd).registered = true)
      (hnum : (st'.fds op.fd).fd = (st.fds op.fd).fd)
      (hwanted : (st'.fds op.fd).wantedBands = (st'.fds op.fd).handlerBands)
      (hnumfds : st'.numfds = st.numfds) (hnumobjs : st'.numobjs = st.numobjs)

/-- Descriptors are counted in `numobjs` as in `numfds`. -/
lemma FdOutcome.numobjs_sub (h : FdOutcome st st' op) :
    st'.numobjs - st'.numfds = st.numobjs - st.numfds := by
  cases h <;> omega

/-- A registered descriptor after `notify_fd`. -/
lemma notifyFd_self (hreg : (st.fds fd).registered = true) (h : notifyFd m st fd = .ok st') :
    (st'.fds fd).registered = true ∧ (st'.fds fd).fd = (st.fds fd).fd ∧
      (st'.fds fd).wantedBands = (st'.fds fd).handlerBands ∧ st'.numfds = st.numfds ∧
      st'.numobjs = st.numobjs := by
  have hcore := m.notifyFd_core h
  rw [hcore.registered, hcore.fd, hcore.wantedBands, hcore.handlerBands, hcore.numfds,
    hcore.numobjs]
  simp [Fd.recomputeWantedFlags_wantedBands hreg, hreg]

lemma enrol_self {st₁ : FdState μ} (h : m.registerFd (st.enrol fd) fd = .ok st₁) :
    (st₁.fds fd).registered = true ∧ (st₁.fds fd).fd = (st.fds fd).fd ∧
      st₁.numfds = st.numfds ∧ st₁.numobjs = st.numobjs := by
  have hcore := m.registerFd_core h
  rw [hcore.registered, hcore.fd, hcore.numfds, hcore.numobjs]
  simp [FdState.enrol]

/-- A descriptor for which `iv_fd_register_try` asks: the bands may be borrowed. -/
lemma ask_self {st₁ : FdState μ} (hreg : (st₁.fds fd).registered = true) :
    ((st₁.ask fd).fds fd).registered = true ∧ ((st₁.ask fd).fds fd).fd = (st₁.fds fd).fd ∧
      ((st₁.ask fd).fds fd).handlerBands = (st₁.fds fd).handlerBands ∧
      ((st₁.fds fd).handlerBands ≠ ∅ →
        ((st₁.ask fd).fds fd).wantedBands = (st₁.fds fd).handlerBands) ∧
      (st₁.ask fd).numfds = st₁.numfds ∧ (st₁.ask fd).numobjs = st₁.numobjs := by
  rw [FdState.ask_eq hreg]
  split_ifs with hwanted
  · refine ⟨by simp [hreg], by simp, ?_, fun hne => absurd hwanted hne, rfl, rfl⟩
    simp only [FdState.setFd_fds, Function.update_self]
    rfl
  · simp [hreg, hwanted, Fd.recomputeWantedFlags_wantedBands hreg]

lemma FdStep.outcome (h : FdStep m st op st') : FdOutcome st st' op := by
  cases h with
  | prepare hreg => exact .idle hreg (by simpa [FdOp.fd] using hreg) rfl rfl
  | register hreg hfd henrol hnotify =>
    obtain ⟨hreg₁, hnum₁, hnumfds₁, hnumobjs₁⟩ := enrol_self henrol
    obtain ⟨hreg₂, hnum₂, hwanted, hnumfds₂, hnumobjs₂⟩ := notifyFd_self hreg₁ hnotify
    exact .added hreg hreg₂ hfd (hnum₂.trans hnum₁) hwanted
      (congrArg (· + 1) (hnumfds₂.trans hnumfds₁))
      (congrArg (· + 1) (hnumobjs₂.trans hnumobjs₁)) fun _ => rfl
  | @registerTry fd refused st₁ st₂ hreg hfd henrol hwanted hsync =>
    obtain ⟨hreg₁, hnum₁, hnumfds₁, hnumobjs₁⟩ := enrol_self henrol
    obtain ⟨hreg₂, hnum₂, hbands, hask, hnumfds₂, hnumobjs₂⟩ := ask_self hreg₁
    have hcore := m.notifyFdSync_core hsync
    refine .added hreg ?_ hfd ?_ ?_ ?_ ?_ fun _ => rfl
    · exact (hcore.registered fd).trans hreg₂
    · exact (hcore.fd fd).trans (hnum₂.trans hnum₁)
    · exact (hcore.wantedBands fd).trans ((hask hwanted).trans
        ((hcore.handlerBands fd).trans hbands).symm)
    · exact congrArg (· + 1) (hcore.numfds.trans (hnumfds₂.trans hnumfds₁))
    · exact congrArg (· + 1) (hcore.numobjs.trans (hnumobjs₂.trans hnumobjs₁))
  | @registerTryBare fd refused st₁ st₂ st₃ hreg hfd henrol hwanted hsync hnotify =>
    obtain ⟨hreg₁, hnum₁, hnumfds₁, hnumobjs₁⟩ := enrol_self henrol
    obtain ⟨hreg₂, hnum₂, hbands, -, hnumfds₂, hnumobjs₂⟩ := ask_self hreg₁
    have hcore := m.notifyFdSync_core hsync
    have hcore' := m.notifyFd_core hnotify
    refine .added hreg ?_ hfd ?_ ?_ ?_ ?_ fun _ => rfl
    · simpa [FdOp.fd, hcore'.registered, hcore.registered] using hreg₂
    · simpa [FdOp.fd, hcore'.fd, hcore.fd, hnum₂] using hnum₁
    · have hnone : (st₂.fds fd).handlerBands = ∅ :=
        (hcore.handlerBands fd).trans (hbands.trans hwanted)
      simp only [FdOp.fd, ivFdRegisterEpilogue_fds, hcore'.wantedBands, hcore'.handlerBands,
        FdState.setFd_fds, Function.update_self]
      exact hnone.symm
    · exact congrArg (· + 1) (hcore'.numfds.trans (hcore.numfds.trans (hnumfds₂.trans hnumfds₁)))
    · exact congrArg (· + 1)
        (hcore'.numobjs.trans (hcore.numobjs.trans (hnumobjs₂.trans hnumobjs₁)))
  | @registerTryFailed fd refused st₁ st₂ st₃ hreg hfd henrol hsync hunreg =>
    obtain ⟨hreg₁, -, hnumfds₁, hnumobjs₁⟩ := enrol_self henrol
    obtain ⟨-, -, -, -, hnumfds₂, hnumobjs₂⟩ := ask_self hreg₁
    have hcore := m.notifyFdSync_core hsync
    have hcore' := m.unregisterFd_core hunreg
    refine .idle hreg ?_ ?_ ?_
    · simp [FdOp.fd, hcore'.registered]
    · exact hcore'.numfds.trans (hcore.numfds.trans (hnumfds₂.trans hnumfds₁))
    · exact hcore'.numobjs.trans (hcore.numobjs.trans (hnumobjs₂.trans hnumobjs₁))
  | @unregister fd refused st₁ st₂ hreg hnotify hunreg =>
    have hcore := m.notifyFd_core hnotify
    have hcore' := m.unregisterFd_core hunreg
    refine .removed hreg ?_ ?_ ?_
    · simp [FdOp.fd, hcore'.registered, hcore.registered]
    · exact congrArg (· - 1) (hcore'.numfds.trans hcore.numfds)
    · exact congrArg (· - 1) (hcore'.numobjs.trans hcore.numobjs)
  | setHandler hreg hnotify =>
    obtain ⟨hreg₁, hnum, hwanted, hnumfds, hnumobjs⟩ :=
      notifyFd_self (by simpa using hreg) hnotify
    exact .changed hreg hreg₁ (by simpa [FdOp.fd] using hnum) hwanted hnumfds hnumobjs

lemma FdOp.mem_regsAfter {p : FdPtr} : p ∈ op.regsAfter st' regs ↔
    (p = op.fd ∧ (st'.fds op.fd).registered = true) ∨ (p ≠ op.fd ∧ p ∈ regs) := by
  unfold FdOp.regsAfter
  split_ifs with h
  · by_cases hp : p = op.fd <;> simp [hp, h]
  · simp [h]

lemma FdOp.regsAfter_of_registered (fd : FdPtr) (hfd : op.fd = fd)
    (h : (st'.fds fd).registered = true) : op.regsAfter st' regs = insert fd regs := by
  rw [FdOp.regsAfter, hfd, if_pos h]

lemma FdOp.regsAfter_of_not (fd : FdPtr) (hfd : op.fd = fd) (h : (st'.fds fd).registered = false) :
    op.regsAfter st' regs = regs.erase fd := by
  rw [FdOp.regsAfter, hfd, h, if_neg Bool.false_ne_true]

namespace FdCount

lemma mem_regsAfter_iff (h : FdCount st regs) (hstep : FdStep m st op st') (p : FdPtr) :
    p ∈ op.regsAfter st' regs ↔ (st'.fds p).registered = true := by
  rw [FdOp.mem_regsAfter]
  by_cases hp : p = op.fd
  · simp [hp]
  · rw [hstep.fds_of_ne hp]
    simp [hp, h.mem_iff]

lemma card_regsAfter (h : FdCount st regs) (hstep : FdStep m st op st') :
    st'.numfds = (op.regsAfter st' regs).card := by
  have hmem := h.mem_iff op.fd
  have hnumfds := h.numfds
  unfold FdOp.regsAfter
  cases hstep.outcome with
  | idle hreg hreg' hn _ =>
    have hnot : op.fd ∉ regs := by simp [hmem, hreg]
    rw [hreg', if_neg Bool.false_ne_true, Finset.erase_eq_of_notMem hnot, hn, hnumfds]
  | added hreg hreg' _ _ _ hn _ _ =>
    have hnot : op.fd ∉ regs := by simp [hmem, hreg]
    rw [hreg', if_pos rfl, Finset.card_insert_of_notMem hnot, hn, hnumfds]
    push_cast
    rfl
  | removed hreg hreg' hn _ =>
    have hcard := Finset.card_erase_add_one (hmem.mpr hreg)
    rw [hreg', if_neg Bool.false_ne_true, hn, hnumfds]
    omega
  | changed hreg hreg' _ _ hn _ =>
    rw [hreg', if_pos rfl, Finset.insert_eq_of_mem (hmem.mpr hreg), hn, hnumfds]

/-- A call keeps the count. -/
lemma step (h : FdCount st regs) (hstep : FdStep m st op st') :
    FdCount st' (op.regsAfter st' regs) :=
  ⟨h.mem_regsAfter_iff hstep, h.card_regsAfter hstep⟩

end FdCount

namespace FdsOk

/-- A call keeps the invariant. -/
lemma step (h : FdsOk st regs) (hstep : FdStep m st op st') (hop : op.distinct st regs = true) :
    FdsOk st' (op.regsAfter st' regs) := by
  have hother : ∀ p ∈ op.regsAfter st' regs, p ≠ op.fd → p ∈ regs := fun p hp hne =>
    ((FdOp.mem_regsAfter.mp hp).resolve_left fun hp => hne hp.1).2
  -- the number of the descriptor of the call is not used by another one
  have hself : ∀ q ∈ op.regsAfter st' regs, (st'.fds op.fd).registered = true →
      q ≠ op.fd → (st'.fds q).fd ≠ (st'.fds op.fd).fd := by
    intro q hq hreg' hne
    rw [hstep.fds_of_ne hne]
    cases hstep.outcome with
    | idle _ hnot _ _ | removed _ hnot _ _ => simp [hnot] at hreg'
    | added _ _ _ hnum _ _ _ hd =>
      rw [hd, decide_eq_true_eq] at hop
      rw [hnum]
      exact hop q (hother q hq hne)
    | changed hreg _ hnum _ _ _ =>
      rw [hnum]
      exact fun heq => hne (h.distinct q (hother q hq hne) op.fd ((h.mem_iff _).mpr hreg) heq)
  constructor
  case toFdCount => exact h.toFdCount.step hstep
  case distinct =>
    intro p hp q hq heq
    have hp' := (h.mem_regsAfter_iff hstep p).mp hp
    have hq' := (h.mem_regsAfter_iff hstep q).mp hq
    by_contra hne
    by_cases hpfd : p = op.fd
    · subst hpfd
      exact hself q hq hp' (Ne.symm hne) heq.symm
    · by_cases hqfd : q = op.fd
      · subst hqfd
        exact hself p hp hq' hne heq
      · rw [hstep.fds_of_ne hpfd, hstep.fds_of_ne hqfd] at heq
        exact hne (h.distinct p (hother p hp hpfd) q (hother q hq hqfd) heq)
  case nonneg =>
    intro p hp
    by_cases hpfd : p = op.fd
    · subst hpfd
      have hp' := (h.mem_regsAfter_iff hstep _).mp hp
      cases hstep.outcome with
      | idle _ hnot _ _ | removed _ hnot _ _ => simp [hnot] at hp'
      | added _ _ hfd hnum _ _ _ _ => exact hnum ▸ hfd
      | changed hreg _ hnum _ _ _ => exact hnum ▸ h.nonneg op.fd ((h.mem_iff _).mpr hreg)
    · rw [hstep.fds_of_ne hpfd]
      exact h.nonneg p (hother p hp hpfd)
  case wanted =>
    intro p hp
    by_cases hpfd : p = op.fd
    · subst hpfd
      have hp' := (h.mem_regsAfter_iff hstep _).mp hp
      cases hstep.outcome with
      | idle _ hnot _ _ | removed _ hnot _ _ => simp [hnot] at hp'
      | added _ _ _ _ hwanted _ _ _ | changed _ _ _ hwanted _ _ => exact hwanted
    · rw [hstep.fds_of_ne hpfd]
      exact h.wanted p (hother p hp hpfd)

end FdsOk

end Calls

/-! ### The steps of a thread -/

/-- Two states with the same registrations. What has been reported may differ. -/
structure SameRegs (st st' : FdState μ) : Prop where
  fds : ∀ p, st'.fds p = { st.fds p with readyBands := (st'.fds p).readyBands }
  method : st'.method = st.method
  numfds : st'.numfds = st.numfds
  numobjs : st'.numobjs = st.numobjs

namespace SameRegs

variable {st st' st'' : FdState μ}

lemma of_eq (hfds : st'.fds = st.fds) (hmethod : st'.method = st.method)
    (hnumfds : st'.numfds = st.numfds) (hnumobjs : st'.numobjs = st.numobjs) : SameRegs st st' :=
  ⟨fun p => by rw [hfds], hmethod, hnumfds, hnumobjs⟩

/-- A poll starts with an empty list of active descriptors. -/
lemma start (st : FdState μ) : SameRegs st { st with active := [] } :=
  .of_eq rfl rfl rfl rfl

lemma refl (st : FdState μ) : SameRegs st st :=
  .of_eq rfl rfl rfl rfl

lemma trans (h : SameRegs st st') (h' : SameRegs st' st'') : SameRegs st st'' where
  fds p := by rw [h'.fds p, h.fds p]
  method := h'.method.trans h.method
  numfds := h'.numfds.trans h.numfds
  numobjs := h'.numobjs.trans h.numobjs

lemma ivFdMakeReady (st : FdState μ) (fd : FdPtr) (bands : Finset Band) :
    SameRegs st (ivFdMakeReady st fd bands) := by
  unfold Ivykis.ivFdMakeReady
  dsimp only
  split_ifs with hmem <;> refine ⟨fun p => ?_, rfl, rfl, rfl⟩
  all_goals
    by_cases hp : p = fd
    · subst hp
      simp
    · simp [hp]

lemma makeReadyIf (reason : Bool) (st : FdState μ) (fd : FdPtr) (band : Band) :
    SameRegs st (makeReadyIf reason st fd band) := by
  unfold Ivykis.makeReadyIf
  split_ifs
  · exact .ivFdMakeReady st fd {band}
  · exact .refl st

end SameRegs

lemma mem_active_of_makeReadyIf {reason : Bool} {st : FdState μ} {fd p : FdPtr} {band : Band}
    (h : p ∈ (makeReadyIf reason st fd band).active) : p ∈ st.active ∨ p = fd := by
  unfold makeReadyIf at h
  split_ifs at h
  · by_cases hmem : fd ∈ st.active
    · rw [ivFdMakeReady_active_of_mem hmem] at h
      exact Or.inl h
    · simpa [ivFdMakeReady_active_of_notMem hmem] using h
  · exact Or.inl h

lemma dispatchStep_sameRegs {m : PollMethod μ} {s s' : DispatchState μ} {a : DispatchLabel}
    (ha : a.internal = true) (h : dispatchStep m s a = some s') : SameRegs s.st s'.st := by
  obtain ⟨st, pc⟩ := s
  obtain ⟨st', pc'⟩ := s'
  have hstep := DispatchStep.of_step h
  dsimp only at hstep
  cases hstep with
  | ready _ | op _ _ => cases ha
  | _ => exact .of_eq rfl rfl rfl rfl

inductive LoopStep (m : PollMethod μ) (poll : FdState μ → κ → Option (FdState μ × DispatchPc))
    (s : LoopState μ) : LoopLabel κ → LoopState μ → Prop
  | op {o : FdOp} {st' : FdState μ} (hpc : s.pc = .done ∨ s.pc.inUser = true)
      (hdistinct : o.distinct s.st s.regs = true) (hop : FdStep m s.st o st') :
      LoopStep m poll s (.op o) { s with st := st', regs := o.regsAfter st' s.regs }
  | poll {k : κ} {st' : FdState μ} {pc' : DispatchPc} (hpc : s.pc = .done)
      (hpoll : poll s.st k = some (st', pc')) :
      LoopStep m poll s (.poll k) { s with st := st', pc := pc' }
  | round {a : DispatchLabel} {st' : FdState μ} {pc' : DispatchPc} (hsame : SameRegs s.st st') :
      LoopStep m poll s (.round a) { s with st := st', pc := pc' }

lemma LoopStep.of_step {m : PollMethod μ} {poll : FdState μ → κ → Option (FdState μ × DispatchPc)}
    {s s' : LoopState μ} {a : LoopLabel κ} (h : loopStep m poll s a = some s') :
    LoopStep m poll s a s' := by
  cases a with
  | op o =>
    obtain ⟨⟨hpc, hdistinct⟩, h⟩ := Option.ite_none_right_eq_some.mp h
    obtain ⟨st', hop, rfl⟩ := Option.map_eq_some_iff.mp h
    exact .op hpc hdistinct (.of_step hop)
  | poll k =>
    obtain ⟨hpc, h⟩ := Option.ite_none_right_eq_some.mp h
    obtain ⟨⟨st', pc'⟩, hpoll, rfl⟩ := Option.map_eq_some_iff.mp h
    exact .poll hpc hpoll
  | round a =>
    obtain ⟨ha, h⟩ := Option.ite_none_right_eq_some.mp h
    obtain ⟨d, hstep, rfl⟩ := Option.map_eq_some_iff.mp h
    exact .round (dispatchStep_sameRegs ha hstep)

section Kept

variable {st st' : FdState μ} {regs : Finset FdPtr}

lemma FdCount.of_same (h : FdCount st regs) (hsame : SameRegs st st') : FdCount st' regs where
  mem_iff p := by
    rw [hsame.fds p]
    exact h.mem_iff p
  numfds := hsame.numfds.trans h.numfds

lemma FdCount.of_core (h : FdCount st regs) (hcore : st.SameCore st') : FdCount st' regs where
  mem_iff p := by
    rw [hcore.registered]
    exact h.mem_iff p
  numfds := hcore.numfds.trans h.numfds

lemma FdsOk.of_same (h : FdsOk st regs) (hsame : SameRegs st st') : FdsOk st' regs := by
  have hbands : ∀ p, (st'.fds p).handlerBands = (st.fds p).handlerBands := by
    intro p
    rw [hsame.fds p]
    rfl
  constructor
  case toFdCount => exact h.toFdCount.of_same hsame
  case distinct =>
    intro p hp q hq
    rw [hsame.fds p, hsame.fds q]
    exact h.distinct p hp q hq
  case nonneg =>
    intro p hp
    rw [hsame.fds p]
    exact h.nonneg p hp
  case wanted =>
    intro p hp
    rw [hbands, hsame.fds p]
    exact h.wanted p hp

lemma FdsOk.of_core (h : FdsOk st regs) (hcore : st.SameCore st') : FdsOk st' regs := by
  constructor
  · exact h.toFdCount.of_core hcore
  · simpa only [hcore.fd] using h.distinct
  · simpa only [hcore.fd] using h.nonneg
  · simpa only [hcore.wantedBands, hcore.handlerBands] using h.wanted

end Kept

end Ivykis
