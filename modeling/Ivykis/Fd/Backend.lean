import Mathlib.Data.Setoid.Basic
import Mathlib.Order.CompletePartialOrder
import Ivykis.Fd.Loop

/-!
# What the poll methods have in common

All of the poll methods keep a record of the registered descriptors, and the kernel has another one.
`MethodLaws` lists what has to be shown of a poll method and of an invariant that connects the two,
so that the invariant holds between any two calls. Between the steps of one call the descriptor that
the call is about may be out of step; it is named by the last argument of the invariant.

Most methods put changes off, on a list of descriptors with a change that is pending (`NotifyOk`),
and tell the kernel of the bands that they have recorded as registered (`KernelOk`).
-/

namespace Ivykis

variable {μ κ : Type}

/-! ### Laws of a poll method -/

/-- A descriptor that is about to be registered. -/
structure NewFd (st : FdState μ) (T : Finset FdPtr) (fd : FdPtr) : Prop where
  notMem : fd ∉ T
  free : ∀ q ∈ T, (st.fds q).fd ≠ (st.fds fd).fd
  nonneg : 0 ≤ (st.fds fd).fd

/-- A descriptor that is about to be registered, with any number. -/
structure FreshFd (st : FdState μ) (T : Finset FdPtr) (fd : FdPtr) : Prop where
  notMem : fd ∉ T
  nonneg : 0 ≤ (st.fds fd).fd

lemma NewFd.fresh {st : FdState μ} {T : Finset FdPtr} {fd : FdPtr} (h : NewFd st T fd) :
    FreshFd st T fd :=
  ⟨h.notMem, h.nonneg⟩

/-- A change of a descriptor that the kernel does not hear of. -/
structure Unheard (f : Fd → Fd) (fd : Fd) : Prop where
  num : (f fd).fd = fd.fd
  bands : (f fd).registeredBands = fd.registeredBands

@[simp]
lemma setMethod_setMethod (st : FdState μ) (method method' : μ) :
    (st.setMethod method).setMethod method' = st.setMethod method' := rfl

lemma setMethod_core (st : FdState μ) (method : μ) : st.SameCore (st.setMethod method) :=
  ⟨rfl, rfl, rfl, rfl, fun _ => rfl⟩

lemma setRegistered_core (st : FdState μ) (fd : FdPtr) (bands : Fd → Finset Band) :
    st.SameCore (st.setFd fd fun f => { f with registeredBands := bands f }) := by
  refine ⟨rfl, rfl, rfl, rfl, fun p => ?_⟩
  by_cases hp : p = fd
  · subst hp
    simp
  · simp [hp]

/-- The bands that `iv_fd_register_try` asks for are not known to the kernel yet. -/
lemma FdState.ask_keeps {P : FdState μ → Prop} {fd : FdPtr}
    (hP : ∀ {st f}, P st → Unheard f (st.fds fd) → P (st.setFd fd f)) {st : FdState μ} (h : P st) :
    P (st.ask fd) := by
  have hset := hP (f := Fd.recomputeWantedFlags) h ⟨rfl, rfl⟩
  unfold FdState.ask
  dsimp only
  split_ifs
  · exact hP hset ⟨rfl, rfl⟩
  · exact hset

lemma FdState.ask_method (st : FdState μ) (fd : FdPtr) : (st.ask fd).method = st.method :=
  FdState.ask_keeps (P := fun st' => st'.method = st.method) (fun h _ => h) rfl

lemma FdState.ask_registeredBands (st : FdState μ) (fd : FdPtr) :
    ((st.ask fd).fds fd).registeredBands = (st.fds fd).registeredBands := by
  refine FdState.ask_keeps
    (P := fun st' => (st'.fds fd).registeredBands = (st.fds fd).registeredBands) ?_ rfl
  intro st' f h hf
  simpa using hf.bands.trans h

/-- `iv_fd_register_try` asks for some band. -/
lemma FdState.ask_wantedBands_ne {st : FdState μ} {fd : FdPtr}
    (hreg : (st.fds fd).registered = true) : ((st.ask fd).fds fd).wantedBands ≠ ∅ := by
  rw [FdState.ask_eq hreg]
  split_ifs with hwanted
  · simp
  · simpa [Fd.recomputeWantedFlags_wantedBands hreg] using hwanted

/-- What a poll method has to do to keep the invariant `I` of the descriptors `T`. A descriptor that
is about to be registered meets `New`. Success of `iv_fd_register_try` is asked for only if the
handlers of the descriptor meet `Ask`. -/
structure MethodLaws (m : PollMethod μ) (I : FdState μ → Finset FdPtr → Option FdPtr → Prop)
    (New : FdState μ → Finset FdPtr → FdPtr → Prop) (Ask : Finset Band → Prop) : Prop where
  congr : ∀ {st st' T dirty}, I st T dirty → st'.fds = st.fds → st'.method = st.method →
    I st' T dirty
  same : ∀ {st st' T}, I st T none → SameRegs st st' → I st' T none
  prepare : ∀ {st T fd}, I st T none → fd ∉ T → ∀ f, I (st.setFd fd f) T none
  change : ∀ {st T dirty fd f}, I st T dirty → dirty = none ∨ dirty = some fd → fd ∈ T →
    Unheard f (st.fds fd) → I (st.setFd fd f) T (some fd)
  enrol : ∀ {st T fd st₁}, I st T none → New st T fd →
    m.registerFd (st.enrol fd) fd = .ok st₁ → I st₁ (insert fd T) (some fd)
  notify : ∀ {st T fd st'}, I st T (some fd) → fd ∈ T → m.notifyFd st fd = .ok st' → I st' T none
  sync : ∀ {st T fd st₁ refused st₂}, I st T none → New st T fd →
    m.registerFd (st.enrol fd) fd = .ok st₁ →
    m.notifyFdSync refused (st₁.ask fd) fd = .ok (false, st₂) →
    I st₂ (insert fd T) (some fd) ∧
      ((st₁.fds fd).handlerBands ≠ ∅ → Ask (st₁.fds fd).handlerBands → I st₂ (insert fd T) none)
  syncFailed : ∀ {st T fd st₁ refused st₂ st₃}, I st T none → New st T fd →
    m.registerFd (st.enrol fd) fd = .ok st₁ →
    m.notifyFdSync refused (st₁.ask fd) fd = .ok (true, st₂) →
    m.unregisterFd refused (st₂.setFd fd fun f => { f with registered := false }) fd = .ok st₃ →
    I st₃ T none
  unregister : ∀ {st T fd refused st'}, I st T none → fd ∈ T → (st.fds fd).wantedBands = ∅ →
    m.unregisterFd refused st fd = .ok st' → I st' (T.erase fd) none

/-- The laws for descriptors that differ in their numbers. -/
abbrev Backend (m : PollMethod μ) (I : FdState μ → Finset FdPtr → Option FdPtr → Prop)
    (Ask : Finset Band → Prop) : Prop :=
  MethodLaws m I NewFd Ask

/-- `iv_fd_register_try` is called for a descriptor whose handlers meet the condition. -/
def FdOp.asks (Ask : Finset Band → Prop) (st : FdState μ) : FdOp → Prop
  | .registerTry fd _ => Ask (st.fds fd).handlerBands
  | _                 => True

instance (Ask : Finset Band → Prop) [DecidablePred Ask] (st : FdState μ) (op : FdOp) :
    Decidable (op.asks Ask st) :=
  match op with
  | .registerTry _ _ => inferInstanceAs (Decidable (Ask _))
  | .prepare .. | .register _ | .unregister .. | .setHandler .. => .isTrue trivial

lemma FdOp.asks_true (st : FdState μ) (op : FdOp) : op.asks (fun _ => True) st := by
  cases op <;> trivial

/-- A descriptor that is about to be registered meets the condition. -/
def FdOp.new (New : FdPtr → Prop) : FdOp → Prop
  | .register fd      => New fd
  | .registerTry fd _ => New fd
  | _                 => True

lemma FdOp.new.and {New New' : FdPtr → Prop} {op : FdOp} (h : op.new New) (h' : op.new New') :
    op.new fun fd => New fd ∧ New' fd := by
  cases op with
  | register fd | registerTry fd refused => exact ⟨h, h'⟩
  | _ => trivial

section New

variable {m : PollMethod μ} {st st' : FdState μ} {regs : Finset FdPtr} {op : FdOp}

/-- A descriptor that passes the checks of the prologue. -/
lemma FdStep.fresh (hstep : FdStep m st op st') (h : FdCount st regs) :
    op.new (FreshFd st regs) := by
  have hnot {fd : FdPtr} (hreg : (st.fds fd).registered = false) : fd ∉ regs := by
    simp [h.mem_iff, hreg]
  cases hstep with
  | register hreg hfd _ _ | registerTry hreg hfd _ _ _ | registerTryBare hreg hfd _ _ _ _
  | registerTryFailed hreg hfd _ _ _ => exact ⟨hnot hreg, hfd⟩
  | prepare _ | unregister _ _ _ | setHandler _ _ => trivial

/-- One that has a number of its own besides. -/
lemma FdStep.new_of_distinct (hstep : FdStep m st op st') (h : FdCount st regs)
    (hop : op.distinct st regs = true) : op.new (NewFd st regs) := by
  have hfresh := hstep.fresh h
  cases op with
  | register fd | registerTry fd refused =>
    exact ⟨hfresh.notMem, of_decide_eq_true hop, hfresh.nonneg⟩
  | _ => trivial

end New

namespace MethodLaws

variable {m : PollMethod μ} {I : FdState μ → Finset FdPtr → Option FdPtr → Prop}
  {New : FdState μ → Finset FdPtr → FdPtr → Prop} {Ask : Finset Band → Prop} {st st' : FdState μ}
  {T regs : Finset FdPtr} {dirty : Option FdPtr} {fd : FdPtr} {op : FdOp}

lemma mono {New' : FdState μ → Finset FdPtr → FdPtr → Prop} (B : MethodLaws m I New Ask)
    (hnew : ∀ {st T fd}, New' st T fd → New st T fd) : MethodLaws m I New' Ask where
  congr := B.congr
  same := B.same
  prepare := B.prepare
  change := B.change
  enrol h hfd := B.enrol h (hnew hfd)
  notify := B.notify
  sync h hfd := B.sync h (hnew hfd)
  syncFailed h hfd := B.syncFailed h (hnew hfd)
  unregister := B.unregister

lemma of_same (B : MethodLaws m I New Ask) (h : FdsOk st T ∧ I st T none)
    (hsame : SameRegs st st') : FdsOk st' T ∧ I st' T none :=
  ⟨h.1.of_same hsame, B.same h.2 hsame⟩

lemma recompute (B : MethodLaws m I New Ask) (h : I st T dirty)
    (hdirty : dirty = none ∨ dirty = some fd) (hmem : fd ∈ T)
    (hnotify : notifyFd m st fd = .ok st') : I st' T none :=
  B.notify (B.change h hdirty hmem ⟨rfl, rfl⟩) hmem hnotify

lemma handlerBands_enrol {st₁ : FdState μ} (henrol : m.registerFd (st.enrol fd) fd = .ok st₁) :
    (st₁.fds fd).handlerBands = (st.fds fd).handlerBands := by
  rw [(m.registerFd_core henrol).handlerBands]
  simp only [FdState.enrol, FdState.setFd_fds, Function.update_self]
  rfl

/-- A descriptor that is not registered any more, when the method has been told. -/
lemma retired (B : MethodLaws m I New Ask) (h : I st T none) (hmem : fd ∈ T)
    (hnotify : notifyFd m (st.retire fd) fd = .ok st') :
    I st' T none ∧ (st'.fds fd).wantedBands = ∅ := by
  have hset := B.change (f := fun f => { f with registered := false }) h (Or.inl rfl) hmem
    ⟨rfl, rfl⟩
  have hretire : I (st.retire fd) T (some fd) := B.congr hset rfl rfl
  refine ⟨B.recompute hretire (Or.inr rfl) hmem hnotify, ?_⟩
  rw [(m.notifyFd_core hnotify).wantedBands]
  simp [Fd.recomputeWantedFlags_wantedBands_of_not]

/-- A call keeps the invariant. -/
theorem step (B : MethodLaws m I New Ask) (h : I st regs none) (hfds : FdCount st regs)
    (hstep : FdStep m st op st') (hnew : op.new (New st regs)) (hask : op.asks Ask st) :
    I st' (op.regsAfter st' regs) none := by
  have hnot {fd : FdPtr} (hreg : (st.fds fd).registered = false) : fd ∉ regs := by
    simp [hfds.mem_iff, hreg]
  cases hstep with
  | @prepare fd _ _ _ _ hreg =>
    rw [FdOp.regsAfter_of_not fd rfl (by simpa using hreg), Finset.erase_eq_of_notMem (hnot hreg)]
    exact B.prepare h (hnot hreg) _
  | @register fd st₁ st₂ hreg hfd henrol hnotify =>
    have hreg' : ((ivFdRegisterEpilogue st₂).fds fd).registered = true :=
      (notifyFd_self (enrol_self henrol).1 hnotify).1
    have hok := B.enrol h hnew henrol
    rw [FdOp.regsAfter_of_registered fd rfl hreg']
    exact B.congr (B.recompute hok (Or.inr rfl) (Finset.mem_insert_self fd regs) hnotify) rfl rfl
  | @registerTry fd refused st₁ st₂ hreg hfd henrol hwanted hsync =>
    have hreg' : ((ivFdRegisterEpilogue st₂).fds fd).registered = true :=
      ((m.notifyFdSync_core hsync).registered fd).trans (ask_self (enrol_self henrol).1).1
    have hok := B.sync h hnew henrol hsync
    rw [FdOp.regsAfter_of_registered fd rfl hreg']
    exact B.congr (hok.2 hwanted (handlerBands_enrol henrol ▸ hask)) rfl rfl
  | @registerTryBare fd refused st₁ st₂ st₃ hreg hfd henrol hwanted hsync hnotify =>
    have hreg' : ((ivFdRegisterEpilogue st₃).fds fd).registered = true := by
      rw [ivFdRegisterEpilogue_fds, (m.notifyFd_core hnotify).registered]
      simpa [(m.notifyFdSync_core hsync).registered] using (ask_self (enrol_self henrol).1).1
    have hmem := Finset.mem_insert_self fd regs
    have hok := (B.sync h hnew henrol hsync).1
    rw [FdOp.regsAfter_of_registered fd rfl hreg']
    exact B.congr (B.notify (B.change hok (Or.inr rfl) hmem ⟨rfl, rfl⟩) hmem hnotify) rfl rfl
  | @registerTryFailed fd refused st₁ st₂ _ hreg hfd henrol hsync hunreg =>
    have hreg' : (st'.fds fd).registered = false := by
      rw [(m.unregisterFd_core hunreg).registered]
      simp
    rw [FdOp.regsAfter_of_not fd rfl hreg', Finset.erase_eq_of_notMem (hnot hreg)]
    exact B.syncFailed h hnew henrol hsync hunreg
  | @unregister fd refused st₁ st₂ hreg hnotify hunreg =>
    have hreg' : ((st₂.drop fd).fds fd).registered = false := by
      simp [(m.unregisterFd_core hunreg).registered, (m.notifyFd_core hnotify).registered]
    have hmem := (hfds.mem_iff fd).mpr hreg
    obtain ⟨hok, hwanted⟩ := B.retired h hmem hnotify
    rw [FdOp.regsAfter_of_not fd rfl hreg']
    exact B.congr (B.unregister hok hmem hwanted hunreg) rfl rfl
  | @setHandler fd band handler st' hreg hnotify =>
    have hmem := (hfds.mem_iff fd).mpr hreg
    have hreg' := (notifyFd_self (by simpa using hreg) hnotify).1
    rw [FdOp.regsAfter_of_registered fd rfl hreg', Finset.insert_eq_of_mem hmem]
    have hset := B.change (f := fun f => f.setHandler band handler) h (Or.inl rfl) hmem
      ⟨by simp, by simp⟩
    exact B.recompute hset (Or.inr rfl) hmem hnotify

end MethodLaws

/-- The invariant of a thread. -/
structure BackendInv (I : FdState μ → Finset FdPtr → Option FdPtr → Prop) (s : LoopState μ) :
    Prop where
  fds : FdsOk s.st s.regs
  backend : I s.st s.regs none

/-- A step of the method's `poll` keeps the invariant. -/
def PollKeeps (I : FdState μ → Finset FdPtr → Option FdPtr → Prop)
    (poll : FdState μ → κ → Option (FdState μ × DispatchPc)) : Prop :=
  ∀ st T k st' pc, FdsOk st T → I st T none → poll st k = some (st', pc) →
    FdsOk st' T ∧ I st' T none

/-- Every step of a thread keeps the invariant. -/
theorem Backend.loopStep {m : PollMethod μ}
    {I : FdState μ → Finset FdPtr → Option FdPtr → Prop} {Ask : Finset Band → Prop}
    {poll : FdState μ → κ → Option (FdState μ × DispatchPc)} {s s' : LoopState μ}
    {a : LoopLabel κ} (B : Backend m I Ask) (hpoll : PollKeeps I poll) (h : BackendInv I s)
    (hstep : LoopStep m poll s a s') (hask : ∀ o, a = .op o → o.asks Ask s.st) :
    BackendInv I s' := by
  cases hstep with
  | op hpc hdistinct hop =>
    exact ⟨h.fds.step hop hdistinct, B.step h.backend h.fds.toFdCount hop
      (hop.new_of_distinct h.fds.toFdCount hdistinct) (hask _ rfl)⟩
  | poll hpc hp =>
    obtain ⟨hfds, hback⟩ := hpoll _ _ _ _ _ h.fds h.backend hp
    exact ⟨hfds, hback⟩
  | round hsame => exact ⟨h.fds.of_same hsame, B.same h.backend hsame⟩

/-- A descriptor that has been unregistered, and the numbers of those that are left. -/
lemma FdStep.unregister_gone {m : PollMethod μ} {st st' : FdState μ} {regs : Finset FdPtr}
    {fd : FdPtr} {refused : Bool} (hfds : FdsOk st regs)
    (hstep : FdStep m st (.unregister fd refused) st') :
    fd ∉ FdOp.regsAfter st' regs (.unregister fd refused) ∧
      ∀ q ∈ FdOp.regsAfter st' regs (.unregister fd refused),
        (st'.fds q).fd ≠ (st'.fds fd).fd := by
  have hreg := hstep.unregister_frame.1
  have hself : (st'.fds fd).registered = false ∧ (st'.fds fd).fd = (st.fds fd).fd := by
    cases hstep with
    | @unregister _ _ st₁ st₂ _ hnotify hunreg =>
      have hcore := m.unregisterFd_core hunreg
      have hcore' := m.notifyFd_core hnotify
      simp [hcore.registered, hcore'.registered, hcore.fd, hcore'.fd]
  have hafter : FdOp.regsAfter st' regs (.unregister fd refused) = regs.erase fd :=
    FdOp.regsAfter_of_not fd rfl hself.1
  rw [hafter]
  refine ⟨Finset.notMem_erase fd regs, fun q hq heq => ?_⟩
  have hne := Finset.ne_of_mem_erase hq
  have hnum : (st'.fds q).fd = (st.fds q).fd := by rw [hstep.fds_of_ne hne]
  rw [hnum, hself.2] at heq
  exact hne (hfds.distinct q (Finset.mem_of_mem_erase hq) fd ((hfds.mem_iff fd).mpr hreg) heq)

/-! ### Calls that return -/

/-- What the manual asks of a call. The kernel does not refuse to forget a descriptor. -/
def FdOp.valid (st : FdState μ) : FdOp → Bool
  | .prepare fd _ _ _ _    => !(st.fds fd).registered
  | .register fd           => !(st.fds fd).registered && decide (0 ≤ (st.fds fd).fd)
  | .registerTry fd _      => !(st.fds fd).registered && decide (0 ≤ (st.fds fd).fd)
  | .unregister fd refused => (st.fds fd).registered && !refused
  | .setHandler fd _ _     => (st.fds fd).registered

/-- What a poll method has to do so that a call returns, as long as the invariant `I` holds. -/
structure MethodReturns (m : PollMethod μ) (I : FdState μ → Finset FdPtr → Option FdPtr → Prop)
    (New : FdState μ → Finset FdPtr → FdPtr → Prop) : Prop where
  register : ∀ {st T fd}, I st T none → New st T fd →
    ∃ st₁, m.registerFd (st.enrol fd) fd = .ok st₁
  notify : ∀ st fd, ∃ st', m.notifyFd st fd = .ok st'
  sync : ∀ refused st fd, ∃ ret st', m.notifyFdSync refused st fd = .ok (ret, st')
  syncFailed : ∀ {st T fd st₁ refused st₂}, I st T none → New st T fd →
    m.registerFd (st.enrol fd) fd = .ok st₁ →
    m.notifyFdSync refused (st₁.ask fd) fd = .ok (true, st₂) → ∃ st₃,
      m.unregisterFd refused (st₂.setFd fd fun f => { f with registered := false }) fd = .ok st₃
  unregister : ∀ {st T fd}, I st T none → fd ∈ T → (st.fds fd).wantedBands = ∅ →
    ∃ st', m.unregisterFd false st fd = .ok st'

section Returns

variable {m : PollMethod μ} {I : FdState μ → Finset FdPtr → Option FdPtr → Prop}
  {New New' : FdState μ → Finset FdPtr → FdPtr → Prop} {Ask : Finset Band → Prop}
  {st st₁ : FdState μ} {regs : Finset FdPtr} {fd : FdPtr} {op : FdOp}

lemma ivFdRegisterPrologue_of_ok (hreg : (st.fds fd).registered = false)
    (hfd : 0 ≤ (st.fds fd).fd) (henrol : m.registerFd (st.enrol fd) fd = .ok st₁) :
    ivFdRegisterPrologue m st fd = .ok st₁ := by
  rw [ivFdRegisterPrologue, if_neg (by simp [hreg]), if_neg (not_lt.mpr hfd)]
  exact henrol

/-- `iv_fd_register_try` returns, whether the kernel refuses or not. -/
lemma MethodReturns.registerTry (R : MethodReturns m I New) (h : I st regs none)
    (hnew : New st regs fd) (hreg : (st.fds fd).registered = false) (hfd : 0 ≤ (st.fds fd).fd)
    (refused : Bool) : ∃ res, ivFdRegisterTry m refused st fd = .ok res := by
  obtain ⟨st₁, henrol⟩ := R.register h hnew
  obtain ⟨ret, st₂, hsync⟩ := R.sync refused (st₁.ask fd) fd
  have hsync' := hsync
  unfold FdState.ask at hsync'
  rw [ivFdRegisterTry, ivFdRegisterPrologue_of_ok hreg hfd henrol]
  simp only [ok_bind]
  rw [hsync']
  simp only [ok_bind]
  cases ret with
  | true =>
    obtain ⟨st₃, hunreg⟩ := R.syncFailed h hnew henrol hsync
    exact ⟨(true, st₃), by simp [hunreg]⟩
  | false =>
    obtain ⟨st₃, hnotify⟩ := R.notify (st₂.setFd fd fun f => { f with wantedBands := ∅ }) fd
    simp only [Bool.false_eq_true, if_false, hnotify]
    split_ifs
    · exact ⟨_, rfl⟩
    · exact ⟨_, rfl⟩

/-- A call that the manual allows has a result. -/
lemma MethodReturns.call (R : MethodReturns m I New) (B : MethodLaws m I New' Ask)
    (h : I st regs none) (hfds : FdCount st regs) (hop : op.valid st = true)
    (hnew : op.new (New st regs)) : ∃ st', fdCall m st op = .ok st' := by
  cases op with
  | prepare fd num hIn hOut hErr => exact ⟨_, rfl⟩
  | register fd =>
    simp only [FdOp.valid, Bool.and_eq_true, Bool.not_eq_true', decide_eq_true_eq] at hop
    obtain ⟨st₁, henrol⟩ := R.register h hnew
    obtain ⟨st₂, hnotify⟩ := R.notify (st₁.setFd fd Fd.recomputeWantedFlags) fd
    refine ⟨ivFdRegisterEpilogue st₂, ?_⟩
    simp only [fdCall, ivFdRegister, ivFdRegisterPrologue_of_ok hop.1 hop.2 henrol, notifyFd,
      hnotify, ok_bind]
    rfl
  | registerTry fd refused =>
    simp only [FdOp.valid, Bool.and_eq_true, Bool.not_eq_true', decide_eq_true_eq] at hop
    obtain ⟨res, hres⟩ := R.registerTry h hnew hop.1 hop.2 refused
    exact ⟨res.2, by simp only [fdCall, hres, Except.map]⟩
  | unregister fd refused =>
    simp only [FdOp.valid, Bool.and_eq_true, Bool.not_eq_true'] at hop
    obtain ⟨hreg, rfl⟩ := hop
    have hmem := (hfds.mem_iff fd).mpr hreg
    obtain ⟨st₁, hnotify⟩ := R.notify ((st.retire fd).setFd fd Fd.recomputeWantedFlags) fd
    obtain ⟨hok, hwanted⟩ := B.retired h hmem hnotify
    obtain ⟨st₂, hunreg⟩ := R.unregister hok hmem hwanted
    refine ⟨st₂.drop fd, ?_⟩
    have hnotify' : notifyFd m (st.retire fd) fd = .ok st₁ := hnotify
    rw [fdCall, ivFdUnregister, if_pos hreg]
    exact bind_eq_ok.mpr ⟨st₁, hnotify', bind_eq_ok.mpr ⟨st₂, hunreg, rfl⟩⟩
  | setHandler fd band handler =>
    obtain ⟨st', hnotify⟩ :=
      R.notify ((st.setFd fd fun f => f.setHandler band handler).setFd fd
        Fd.recomputeWantedFlags) fd
    have hreg : (st.fds fd).registered = true := hop
    have hset (error : String) : ivFdSetHandler m band error st fd handler = .ok st' := by
      rw [ivFdSetHandler, if_pos hreg]
      exact hnotify
    exact ⟨st', by cases band <;> exact hset _⟩

lemma FdOp.permitted_of_valid (hop : op.valid st = true) : op.permitted st = true := by
  cases op with
  | prepare fd num hIn hOut hErr => exact hop
  | _ => rfl

lemma FdOp.new_of_valid (hop : op.valid st = true) (h : FdCount st regs)
    (hdistinct : op.distinct st regs = true) : op.new (NewFd st regs) := by
  cases op with
  | register fd | registerTry fd refused =>
    simp only [FdOp.valid, Bool.and_eq_true, Bool.not_eq_true', decide_eq_true_eq] at hop
    exact ⟨by simp [h.mem_iff, hop.1], of_decide_eq_true hdistinct, hop.2⟩
  | _ => trivial

/-- Every call that the manual allows has a step in a thread. -/
theorem MethodReturns.loopStep {poll : FdState μ → κ → Option (FdState μ × DispatchPc)}
    {s : LoopState μ} (R : MethodReturns m I New) (B : MethodLaws m I New' Ask)
    (h : BackendInv I s) (hpc : s.pc = .done ∨ s.pc.inUser = true) (hop : op.valid s.st = true)
    (hdistinct : op.distinct s.st s.regs = true) (hnew : op.new (New s.st s.regs)) :
    (loopStep m poll s (.op op)).isSome = true := by
  obtain ⟨st', hcall⟩ := R.call B h.backend h.fds.toFdCount hop hnew
  have hstep : fdStep m s.st op = some st' := by
    rw [fdStep, if_pos (FdOp.permitted_of_valid hop), hcall]
    rfl
  rw [Ivykis.loopStep, if_pos ⟨hpc, hdistinct⟩, hstep]
  rfl

end Returns

/-! ### Reports -/

/-- The flags of `struct pollfd` that matter. A mask is a set of them. -/
inductive PollFlag where
  | pollIn
  | pollOut
  | pollErr
  | pollHup
  | pollNval
  deriving DecidableEq, Repr

/-- What the poll methods with a `struct pollfd` make of its `revents`. -/
def makePollReady (st : FdState μ) (fd : FdPtr) (revents : Finset PollFlag) : FdState μ :=
  let st := makeReadyIf (revents ∩ {.pollIn, .pollErr, .pollHup}).Nonempty st fd .maskIn
  let st := makeReadyIf (revents ∩ {.pollOut, .pollErr, .pollHup}).Nonempty st fd .maskOut
  makeReadyIf (revents ∩ {.pollErr, .pollHup}).Nonempty st fd .maskErr

/-- The bands that `revents` stands for. -/
def pollBands (revents : Finset PollFlag) : Finset Band :=
  (if (revents ∩ {.pollIn, .pollErr, .pollHup}).Nonempty then {.maskIn} else ∅) ∪
    (if (revents ∩ {.pollOut, .pollErr, .pollHup}).Nonempty then {.maskOut} else ∅) ∪
    (if (revents ∩ {.pollErr, .pollHup}).Nonempty then {.maskErr} else ∅)

section Reports

variable (st : FdState μ) (fd : FdPtr) (revents : Finset PollFlag)

/-- Reports for the same descriptor add up. -/
lemma ivFdMakeReady_ivFdMakeReady (bands bands' : Finset Band) :
    ivFdMakeReady (ivFdMakeReady st fd bands) fd bands' = ivFdMakeReady st fd (bands ∪ bands') := by
  by_cases h : fd ∈ st.active
  · simp [ivFdMakeReady, h, FdState.setFd, Finset.union_assoc]
  · simp [ivFdMakeReady, h, FdState.setFd]

lemma makePollReady_eq : makePollReady st fd revents =
    if pollBands revents = ∅ then st else ivFdMakeReady st fd (pollBands revents) := by
  unfold makePollReady pollBands makeReadyIf
  by_cases hin : (revents ∩ {.pollIn, .pollErr, .pollHup}).Nonempty <;>
    by_cases hout : (revents ∩ {.pollOut, .pollErr, .pollHup}).Nonempty <;>
    by_cases herr : (revents ∩ {.pollErr, .pollHup}).Nonempty <;>
    simp [hin, hout, herr, ivFdMakeReady_ivFdMakeReady]

lemma makePollReady_setMethod (method : μ) :
    makePollReady (st.setMethod method) fd revents =
      (makePollReady st fd revents).setMethod method := by
  simp only [makePollReady_eq, ivFdMakeReady, FdState.setMethod_active]
  split_ifs <;> rfl

lemma makePollReady_sameRegs : SameRegs st (makePollReady st fd revents) :=
  ((SameRegs.makeReadyIf _ st fd _).trans (.makeReadyIf _ _ fd _)).trans (.makeReadyIf _ _ fd _)

variable {st fd revents} {p : FdPtr}

/-- A report puts its descriptor on the list, unless it says nothing. -/
lemma mem_active_makePollReady : p ∈ (makePollReady st fd revents).active ↔
    p ∈ st.active ∨ (p = fd ∧ pollBands revents ≠ ∅) := by
  rw [makePollReady_eq]
  split_ifs with hbands
  · simp [hbands]
  · by_cases hmem : fd ∈ st.active
    · rw [ivFdMakeReady_active_of_mem hmem]
      refine ⟨Or.inl, ?_⟩
      rintro (hp | ⟨rfl, -⟩)
      · exact hp
      · exact hmem
    · simp [ivFdMakeReady_active_of_notMem hmem, hbands]

lemma makePollReady_fds_of_ne (hp : p ≠ fd) : (makePollReady st fd revents).fds p = st.fds p := by
  rw [makePollReady_eq]
  split_ifs
  · rfl
  · exact ivFdMakeReady_fds_of_ne hp

/-- The first report for a descriptor in a round says what is ready. -/
lemma makePollReady_readyBands (hmem : fd ∉ st.active) (hbands : pollBands revents ≠ ∅) :
    ((makePollReady st fd revents).fds fd).readyBands = pollBands revents := by
  rw [makePollReady_eq, if_neg hbands, ivFdMakeReady_readyBands, if_neg hmem]

end Reports

/-! ### Pending changes -/

/-- The list of pending changes once the method's `notify_fd` has been called for `fd`. -/
def renotify (notify : List FdPtr) (fd : FdPtr) (f : Fd) : List FdPtr :=
  if f.registeredBands ≠ f.wantedBands then notify.erase fd ++ [fd] else notify.erase fd

/-- The list of pending changes is right for the descriptors `T`. One that is not on the list is
settled, as far as the kernel cares. -/
structure NotifyOk (settled : Finset Band → Finset Band → Prop) (notify : List FdPtr)
    (fds : FdPtr → Fd) (T : Finset FdPtr) (dirty : Option FdPtr) : Prop where
  nodup : notify.Nodup
  listed : ∀ p ∈ notify, p ∈ T
  pending : ∀ p ∈ notify, dirty ≠ some p → (fds p).registeredBands ≠ (fds p).wantedBands
  unlisted : ∀ p ∈ T, dirty ≠ some p → p ∉ notify →
    settled (fds p).registeredBands (fds p).wantedBands

namespace NotifyOk

variable {settled : Finset Band → Finset Band → Prop} {notify : List FdPtr} {fds fds' : FdPtr → Fd}
  {T : Finset FdPtr} {dirty : Option FdPtr} {fd : FdPtr}

/-- The descriptors other than the one that is out of step have not changed. -/
lemma congr (h : NotifyOk settled notify fds T dirty) {T' : Finset FdPtr} {dirty' : Option FdPtr}
    (hsub : ∀ p ∈ notify, p ∈ T') (hdirty : ∀ p ∈ T', dirty' ≠ some p → p ∈ T ∧ dirty ≠ some p)
    (hreg : ∀ p ∈ T', dirty' ≠ some p → (fds' p).registeredBands = (fds p).registeredBands)
    (hwanted : ∀ p ∈ T', dirty' ≠ some p → (fds' p).wantedBands = (fds p).wantedBands) :
    NotifyOk settled notify fds' T' dirty' where
  nodup := h.nodup
  listed := hsub
  pending p hp hne := by
    have hpT := hsub p hp
    rw [hreg p hpT hne, hwanted p hpT hne]
    exact h.pending p hp (hdirty p hpT hne).2
  unlisted p hp hne hnot := by
    rw [hreg p hp hne, hwanted p hp hne]
    exact h.unlisted p (hdirty p hp hne).1 (hdirty p hp hne).2 hnot

/-- One descriptor has been changed. -/
lemma setFd (h : NotifyOk settled notify fds T dirty) (hdirty : dirty = none ∨ dirty = some fd)
    (hother : ∀ p ≠ fd, fds' p = fds p) : NotifyOk settled notify fds' T (some fd) := by
  have hne : ∀ p, some fd ≠ some p → p ≠ fd := fun p hp heq => hp (heq ▸ rfl)
  refine h.congr h.listed (fun p hp hpne => ⟨hp, ?_⟩) ?_ ?_
  · rcases hdirty with rfl | rfl
    · simp
    · exact hpne
  · exact fun p _ hpne => by rw [hother p (hne p hpne)]
  · exact fun p _ hpne => by rw [hother p (hne p hpne)]

/-- A descriptor has come in. -/
lemma enrol (h : NotifyOk settled notify fds T none) (hother : ∀ p ≠ fd, fds' p = fds p) :
    NotifyOk settled notify fds' (insert fd T) (some fd) := by
  have hne : ∀ p, some fd ≠ some p → p ≠ fd := fun p hp heq => hp (heq ▸ rfl)
  refine h.congr (fun p hp => Finset.mem_insert_of_mem (h.listed p hp)) ?_ ?_ ?_
  · exact fun p hp hpne => ⟨Finset.mem_of_mem_insert_of_ne hp (hne p hpne), by simp⟩
  · exact fun p _ hpne => by rw [hother p (hne p hpne)]
  · exact fun p _ hpne => by rw [hother p (hne p hpne)]

/-- A descriptor has left the list. -/
lemma erase (h : NotifyOk settled notify fds T dirty) (hdirty : dirty = none ∨ dirty = some fd) :
    NotifyOk settled (notify.erase fd) fds T (some fd) := by
  have hclean : ∀ p, some fd ≠ some p → dirty ≠ some p := by
    intro p hp
    rcases hdirty with rfl | rfl
    · simp
    · exact hp
  refine ⟨h.nodup.erase fd, fun p hp => h.listed p (List.mem_of_mem_erase hp), ?_, ?_⟩
  · exact fun p hp hpne => h.pending p (List.mem_of_mem_erase hp) (hclean p hpne)
  · intro p hp hpne hnot
    have hpfd : p ≠ fd := fun heq => hpne (heq ▸ rfl)
    exact h.unlisted p hp (hclean p hpne) fun hmem => hnot ((List.mem_erase_of_ne hpfd).mpr hmem)

/-- The descriptor that was out of step is settled and not on the list. -/
lemma settle (h : NotifyOk settled notify fds T (some fd)) (hnot : fd ∉ notify)
    (hset : settled (fds fd).registeredBands (fds fd).wantedBands) :
    NotifyOk settled notify fds T none where
  nodup := h.nodup
  listed := h.listed
  pending p hp _ := h.pending p hp (by rintro ⟨rfl⟩; exact hnot hp)
  unlisted p hp _ hpnot := by
    by_cases hpfd : p = fd
    · exact hpfd ▸ hset
    · exact h.unlisted p hp (by simpa using Ne.symm hpfd) hpnot

/-- The method's `notify_fd` settles what has been changed. -/
lemma renotify (h : NotifyOk settled notify fds T dirty) (hdirty : dirty = none ∨ dirty = some fd)
    (hmem : fd ∈ T) (hrefl : ∀ bands, settled bands bands) :
    NotifyOk settled (renotify notify fd (fds fd)) fds T none := by
  have hnot : fd ∉ notify.erase fd := h.nodup.not_mem_erase
  have herase := h.erase hdirty
  unfold Ivykis.renotify
  split_ifs with hne
  · refine ⟨?_, ?_, ?_, ?_⟩
    · rw [List.nodup_append_comm]
      exact List.nodup_cons.mpr ⟨hnot, herase.nodup⟩
    · intro p hp
      rcases List.mem_append.mp hp with hp | hp
      · exact herase.listed p hp
      · exact List.mem_singleton.mp hp ▸ hmem
    · intro p hp _
      by_cases hpfd : p = fd
      · exact hpfd ▸ hne
      · refine herase.pending p ?_ (by simpa using Ne.symm hpfd)
        simpa [hpfd] using hp
    · intro p hp _ hpnot
      simp only [List.mem_append, List.mem_singleton, not_or] at hpnot
      exact herase.unlisted p hp (by simpa using Ne.symm hpnot.2) hpnot.1
  · refine herase.settle hnot ?_
    rw [not_not.mp hne]
    exact hrefl _

/-- A descriptor that is not on the list can be forgotten. -/
lemma forget (h : NotifyOk settled notify fds T dirty) (hdirty : dirty = none ∨ dirty = some fd)
    (hnot : fd ∉ notify) : NotifyOk settled notify fds (T.erase fd) none := by
  have hne : ∀ p ∈ T.erase fd, dirty ≠ some p := by
    intro p hp
    rcases hdirty with rfl | rfl
    · simp
    · simpa using Ne.symm (Finset.ne_of_mem_erase hp)
  refine h.congr (fun p hp => Finset.mem_erase.mpr ⟨fun heq => hnot (heq ▸ hp), h.listed p hp⟩)
    (fun p hp _ => ⟨Finset.mem_of_mem_erase hp, hne p hp⟩) (fun _ _ _ => rfl) fun _ _ _ => rfl

end NotifyOk

/-! ### What the kernel knows -/

/-- The kernel knows of the descriptors `T` what their registered bands stand for, under their
numbers, and of nothing else. -/
structure KernelOk (entry : FdPtr → Finset Band → κ) (kernel : ℤ → κ) (fds : FdPtr → Fd)
    (T : Finset FdPtr) : Prop where
  distinct : ∀ p ∈ T, ∀ q ∈ T, (fds p).fd = (fds q).fd → p = q
  told : ∀ p ∈ T, kernel (fds p).fd = entry p (fds p).registeredBands
  unknown : ∀ num, (∀ p ∈ T, (fds p).fd ≠ num) → ∀ p, kernel num = entry p ∅

namespace KernelOk

variable {entry : FdPtr → Finset Band → κ} {kernel : ℤ → κ} {fds fds' : FdPtr → Fd}
  {T : Finset FdPtr} {fd : FdPtr} {bands : Finset Band}

lemma congr (h : KernelOk entry kernel fds T) (hnum : ∀ p ∈ T, (fds' p).fd = (fds p).fd)
    (hreg : ∀ p ∈ T, (fds' p).registeredBands = (fds p).registeredBands) :
    KernelOk entry kernel fds' T where
  distinct p hp q hq heq := h.distinct p hp q hq (by rw [← hnum p hp, ← hnum q hq, heq])
  told p hp := by
    rw [hnum p hp, hreg p hp]
    exact h.told p hp
  unknown num hfree := h.unknown num fun p hp => hnum p hp ▸ hfree p hp

/-- What the kernel knows belongs to one of the descriptors. -/
lemma known {num : ℤ} {p : FdPtr} (h : KernelOk entry kernel fds T)
    (hne : kernel num ≠ entry p ∅) : ∃ q ∈ T, (fds q).fd = num := by
  by_contra hnone
  push Not at hnone
  exact hne (h.unknown num hnone p)

/-- A change of one descriptor that the kernel does not hear of. -/
lemma setFd (h : KernelOk entry kernel fds T) (hother : ∀ p ≠ fd, fds' p = fds p)
    (hnum : (fds' fd).fd = (fds fd).fd)
    (hreg : (fds' fd).registeredBands = (fds fd).registeredBands) :
    KernelOk entry kernel fds' T := by
  refine h.congr (fun p _ => ?_) fun p _ => ?_
  · by_cases hp : p = fd
    · rw [hp, hnum]
    · rw [hother p hp]
  · by_cases hp : p = fd
    · rw [hp, hreg]
    · rw [hother p hp]

/-- The kernel does not know of a new descriptor. -/
lemma enrol (h : KernelOk entry kernel fds T) (hmem : fd ∉ T)
    (hfree : ∀ q ∈ T, (fds q).fd ≠ (fds fd).fd) (hother : ∀ p ≠ fd, fds' p = fds p)
    (hnum : (fds' fd).fd = (fds fd).fd) (hreg : (fds' fd).registeredBands = ∅) :
    KernelOk entry kernel fds' (insert fd T) := by
  have hfds : ∀ p ∈ T, fds' p = fds p := fun p hp => hother p fun heq => hmem (heq ▸ hp)
  refine ⟨?_, ?_, ?_⟩
  · intro p hp q hq heq
    rcases Finset.mem_insert.mp hp with rfl | hpT <;>
      rcases Finset.mem_insert.mp hq with rfl | hqT
    · rfl
    · rw [hnum, hfds q hqT] at heq
      exact absurd heq.symm (hfree q hqT)
    · rw [hnum, hfds p hpT] at heq
      exact absurd heq (hfree p hpT)
    · rw [hfds p hpT, hfds q hqT] at heq
      exact h.distinct p hpT q hqT heq
  · intro p hp
    rcases Finset.mem_insert.mp hp with rfl | hpT
    · rw [hnum, hreg]
      exact h.unknown _ hfree p
    · rw [hfds p hpT]
      exact h.told p hpT
  · intro num hnone
    refine h.unknown num fun p hp => ?_
    rw [← hfds p hp]
    exact hnone p (Finset.mem_insert_of_mem hp)

/-- A descriptor of which the kernel does not know can be forgotten. -/
lemma forget (h : KernelOk entry kernel fds T)
    (hreg : entry fd (fds fd).registeredBands = entry fd ∅)
    (hentry : ∀ p q, entry p ∅ = entry q ∅) : KernelOk entry kernel fds (T.erase fd) where
  distinct p hp q hq :=
    h.distinct p (Finset.mem_of_mem_erase hp) q (Finset.mem_of_mem_erase hq)
  told p hp := h.told p (Finset.mem_of_mem_erase hp)
  unknown num hfree p := by
    by_cases hnum : fd ∈ T ∧ (fds fd).fd = num
    · rw [← hnum.2, h.told fd hnum.1, hreg, hentry]
    · refine h.unknown num (fun q hq heq => ?_) p
      by_cases hqfd : q = fd
      · exact hnum ⟨hqfd ▸ hq, hqfd ▸ heq⟩
      · exact hfree q (Finset.mem_erase.mpr ⟨hqfd, hq⟩) heq

/-- The kernel has been told of the bands of a descriptor. -/
lemma update (h : KernelOk entry kernel fds T) (hmem : fd ∈ T)
    (hother : ∀ p ≠ fd, fds' p = fds p) (hnum : (fds' fd).fd = (fds fd).fd)
    (hreg : (fds' fd).registeredBands = bands) :
    KernelOk entry (Function.update kernel (fds fd).fd (entry fd bands)) fds' T := by
  have hnum' : ∀ p, (fds' p).fd = (fds p).fd := by
    intro p
    by_cases hp : p = fd
    · rw [hp, hnum]
    · rw [hother p hp]
  refine ⟨?_, ?_, ?_⟩
  · simpa only [hnum'] using h.distinct
  · intro p hp
    by_cases hpfd : p = fd
    · rw [hpfd, hnum, hreg, Function.update_self]
    · have hne : (fds p).fd ≠ (fds fd).fd := fun heq => hpfd (h.distinct p hp fd hmem heq)
      rw [hother p hpfd, Function.update_of_ne hne]
      exact h.told p hp
  · intro num hfree p
    have hne : num ≠ (fds fd).fd := fun heq => hfree fd hmem (by rw [hnum, heq])
    rw [Function.update_of_ne hne]
    exact h.unknown num (fun q hq => hnum' q ▸ hfree q hq) p

end KernelOk

/-! ### Methods that put changes off -/

/-- How a method keeps its list of pending changes, and what the kernel makes of the bands that are
recorded as registered. -/
structure LazyView (μ κ : Type) where
  notify  : μ → List FdPtr
  kernel  : μ → ℤ → κ
  entry   : FdPtr → Finset Band → κ
  /-- There is no need to tell the kernel. -/
  settled : Setoid (Finset Band)
  entry_empty : ∀ p q, entry p ∅ = entry q ∅

/-- The list and the kernel are right for the descriptors `T`. -/
structure LazyOk (v : LazyView μ κ) (st : FdState μ) (T : Finset FdPtr) (dirty : Option FdPtr) :
    Prop where
  notify : NotifyOk v.settled (v.notify st.method) st.fds T dirty
  kernel : KernelOk v.entry (v.kernel st.method) st.fds T

lemma FdState.setFd_fds_of_ne (st : FdState μ) {fd p : FdPtr} (f : Fd → Fd) (hp : p ≠ fd) :
    (st.setFd fd f).fds p = st.fds p :=
  Function.update_of_ne hp _ _

namespace LazyOk

variable {v : LazyView μ κ} {st st' : FdState μ} {T : Finset FdPtr} {dirty : Option FdPtr}
  {fd : FdPtr} {bands : Finset Band}

lemma empty (hnotify : v.notify st.method = [])
    (hkernel : ∀ num p, v.kernel st.method num = v.entry p ∅) : LazyOk v st ∅ none := by
  refine ⟨⟨?_, ?_, ?_, ?_⟩, ⟨?_, ?_, fun num _ p => hkernel num p⟩⟩ <;> simp [hnotify]

lemma congr (h : LazyOk v st T dirty) (hfds : st'.fds = st.fds)
    (hnotify : v.notify st'.method = v.notify st.method)
    (hkernel : v.kernel st'.method = v.kernel st.method) : LazyOk v st' T dirty := by
  refine ⟨?_, ?_⟩
  · rw [hnotify, hfds]
    exact h.notify
  · rw [hkernel, hfds]
    exact h.kernel

lemma same (h : LazyOk v st T dirty) (hsame : SameRegs st st') : LazyOk v st' T dirty := by
  refine ⟨?_, ?_⟩
  · rw [hsame.method]
    exact h.notify.congr h.notify.listed (fun p hp hne => ⟨hp, hne⟩)
      (fun p _ _ => by rw [hsame.fds p]) fun p _ _ => by rw [hsame.fds p]
  · rw [hsame.method]
    exact h.kernel.congr (fun p _ => by rw [hsame.fds p]) fun p _ => by rw [hsame.fds p]

/-- A descriptor that is not registered is none of the kernel's business. -/
lemma prepare (h : LazyOk v st T none) (hmem : fd ∉ T) (f : Fd → Fd) :
    LazyOk v (st.setFd fd f) T none := by
  have hfds : ∀ p ∈ T, (st.setFd fd f).fds p = st.fds p :=
    fun p hp => st.setFd_fds_of_ne f fun heq => hmem (heq ▸ hp)
  refine ⟨?_, ?_⟩
  · exact h.notify.congr h.notify.listed (fun p hp hne => ⟨hp, hne⟩)
      (fun p hp _ => by rw [hfds p hp]) fun p hp _ => by rw [hfds p hp]
  · exact h.kernel.congr (fun p hp => by rw [hfds p hp]) fun p hp => by rw [hfds p hp]

lemma change (h : LazyOk v st T dirty) (hdirty : dirty = none ∨ dirty = some fd) {f : Fd → Fd}
    (hf : Unheard f (st.fds fd)) : LazyOk v (st.setFd fd f) T (some fd) := by
  have hother : ∀ p ≠ fd, (st.setFd fd f).fds p = st.fds p := fun p => st.setFd_fds_of_ne f
  exact ⟨h.notify.setFd hdirty hother,
    h.kernel.setFd hother (by simpa using hf.num) (by simpa using hf.bands)⟩

lemma ask (h : LazyOk v st T (some fd)) : LazyOk v (st.ask fd) T (some fd) :=
  FdState.ask_keeps (P := fun st => LazyOk v st T (some fd))
    (fun h hf => h.change (Or.inr rfl) hf) h

lemma enrol (h : LazyOk v st T none) (hnew : NewFd st T fd) :
    LazyOk v (st.enrol fd) (insert fd T) (some fd) := by
  have hother : ∀ p ≠ fd, (st.enrol fd).fds p = st.fds p := fun p => st.setFd_fds_of_ne _
  refine ⟨h.notify.enrol hother, h.kernel.enrol hnew.notMem hnew.free hother ?_ ?_⟩
  · simp [FdState.enrol]
  · simp [FdState.enrol]

lemma notMem_notify (h : LazyOk v st T none) (hmem : fd ∉ T) : fd ∉ v.notify st.method :=
  fun hp => hmem (h.notify.listed fd hp)

/-- The method's `notify_fd`. -/
lemma renotify (h : LazyOk v st T dirty) (hdirty : dirty = none ∨ dirty = some fd) (hmem : fd ∈ T)
    (hfds : st'.fds = st.fds)
    (hnotify : v.notify st'.method = Ivykis.renotify (v.notify st.method) fd (st.fds fd))
    (hkernel : v.kernel st'.method = v.kernel st.method) : LazyOk v st' T none := by
  refine ⟨?_, ?_⟩
  · rw [hnotify, hfds]
    exact h.notify.renotify hdirty hmem v.settled.refl
  · rw [hkernel, hfds]
    exact h.kernel

/-- A descriptor leaves the list. -/
lemma unnotify (h : LazyOk v st T dirty) (hdirty : dirty = none ∨ dirty = some fd)
    (hfds : st'.fds = st.fds)
    (hnotify : v.notify st'.method = (v.notify st.method).erase fd)
    (hkernel : v.kernel st'.method = v.kernel st.method) : LazyOk v st' T (some fd) := by
  refine ⟨?_, ?_⟩
  · rw [hnotify, hfds]
    exact h.notify.erase hdirty
  · rw [hkernel, hfds]
    exact h.kernel

/-- The kernel is told of some bands of a descriptor. -/
lemma tell (h : LazyOk v st T dirty) (hdirty : dirty = none ∨ dirty = some fd) (hmem : fd ∈ T)
    (hfds : st'.fds = Function.update st.fds fd { st.fds fd with registeredBands := bands })
    (hnotify : v.notify st'.method = v.notify st.method)
    (hkernel : v.kernel st'.method =
      Function.update (v.kernel st.method) (st.fds fd).fd (v.entry fd bands)) :
    LazyOk v st' T (some fd) := by
  have hother : ∀ p ≠ fd, st'.fds p = st.fds p := fun p hp => by
    rw [hfds, Function.update_of_ne hp]
  refine ⟨?_, ?_⟩
  · rw [hnotify]
    exact h.notify.setFd hdirty hother
  · rw [hkernel]
    exact h.kernel.update hmem hother (by simp [hfds]) (by simp [hfds])

lemma settle (h : LazyOk v st T (some fd)) (hnot : fd ∉ v.notify st.method)
    (hset : v.settled (st.fds fd).registeredBands (st.fds fd).wantedBands) : LazyOk v st T none :=
  ⟨h.notify.settle hnot hset, h.kernel⟩

lemma weaken (h : LazyOk v st T none) : LazyOk v st T dirty :=
  ⟨h.notify.congr h.notify.listed (fun _ hp _ => ⟨hp, by simp⟩) (fun _ _ _ => rfl)
    fun _ _ _ => rfl, h.kernel⟩

/-- A descriptor of which the kernel does not know can be forgotten. -/
lemma forget (h : LazyOk v st T dirty) (hdirty : dirty = none ∨ dirty = some fd)
    (hreg : v.entry fd (st.fds fd).registeredBands = v.entry fd ∅)
    (hnot : fd ∉ v.notify st.method) : LazyOk v st (T.erase fd) none :=
  ⟨h.notify.forget hdirty hnot, h.kernel.forget hreg v.entry_empty⟩

end LazyOk

end Ivykis
