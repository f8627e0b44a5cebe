import Mathlib.Data.Finset.Basic
import Mathlib.Tactic.Simps.Basic
import Ivykis.Basic

/-!
# File descriptors (`iv_fd.c`)

The part of a thread's state that has to do with file descriptors, and the calls that change it.
They are the same for every poll method. What a poll method may do to this state is stated with the
method, as laws (`PollMethod`).
-/

namespace Ivykis

/-- The bands of a descriptor. A mask of bands is a set of them. -/
inductive Band where
  | maskIn
  | maskOut
  | maskErr
  deriving DecidableEq, Repr

/-- The address of a `struct iv_fd_`. -/
abbrev FdPtr := ℕ

/-- A handler function; `NULL` is `none`. -/
abbrev FdHandler := Option ℕ

/-- `struct iv_fd_`. -/
structure Fd where
  fd              : ℤ
  handlerIn       : FdHandler
  handlerOut      : FdHandler
  handlerErr      : FdHandler
  readyBands      : Finset Band
  registered      : Bool
  wantedBands     : Finset Band
  registeredBands : Finset Band
  deriving DecidableEq

namespace Fd

/-- The handler for a band. -/
def handler (fd : Fd) : Band → FdHandler
  | .maskIn  => fd.handlerIn
  | .maskOut => fd.handlerOut
  | .maskErr => fd.handlerErr

def setHandler (fd : Fd) (band : Band) (handler : FdHandler) : Fd :=
  match band with
  | .maskIn  => { fd with handlerIn := handler }
  | .maskOut => { fd with handlerOut := handler }
  | .maskErr => { fd with handlerErr := handler }

/-- The bands that have a handler. -/
def handlerBands (fd : Fd) : Finset Band :=
  ({.maskIn, .maskOut, .maskErr} : Finset Band).filter fun band => fd.handler band ≠ none

lemma mem_handlerBands {fd : Fd} {band : Band} :
    band ∈ fd.handlerBands ↔ fd.handler band ≠ none := by
  rw [handlerBands, Finset.mem_filter]
  exact and_iff_right (by cases band <;> simp)

lemma handlerBands_eq_empty_iff {fd : Fd} :
    fd.handlerBands = ∅ ↔ ¬ ∃ band, fd.handler band ≠ none := by
  simp only [Finset.eq_empty_iff_forall_notMem, mem_handlerBands, not_exists]

/-- `recompute_wanted_flags`. -/
def recomputeWantedFlags (fd : Fd) : Fd :=
  { fd with wantedBands := if fd.registered then fd.handlerBands else ∅ }

section Fields

variable (fd : Fd) (band : Band) (handler : FdHandler)

@[simp] lemma recomputeWantedFlags_fd : fd.recomputeWantedFlags.fd = fd.fd := rfl

@[simp] lemma recomputeWantedFlags_registered :
    fd.recomputeWantedFlags.registered = fd.registered := rfl

@[simp] lemma recomputeWantedFlags_readyBands :
    fd.recomputeWantedFlags.readyBands = fd.readyBands := rfl

@[simp] lemma recomputeWantedFlags_registeredBands :
    fd.recomputeWantedFlags.registeredBands = fd.registeredBands := rfl

@[simp] lemma recomputeWantedFlags_handlerBands :
    fd.recomputeWantedFlags.handlerBands = fd.handlerBands := rfl

@[simp] lemma setHandler_fd : (fd.setHandler band handler).fd = fd.fd := by
  cases band <;> rfl

@[simp] lemma setHandler_registered :
    (fd.setHandler band handler).registered = fd.registered := by
  cases band <;> rfl

@[simp] lemma setHandler_readyBands :
    (fd.setHandler band handler).readyBands = fd.readyBands := by
  cases band <;> rfl

@[simp] lemma setHandler_registeredBands :
    (fd.setHandler band handler).registeredBands = fd.registeredBands := by
  cases band <;> rfl

end Fields

/-- What `recompute_wanted_flags` finds for a registered descriptor. -/
lemma recomputeWantedFlags_wantedBands {fd : Fd} (h : fd.registered = true) :
    fd.recomputeWantedFlags.wantedBands = fd.handlerBands := by
  simp only [recomputeWantedFlags, h, if_true]

lemma recomputeWantedFlags_wantedBands_of_not {fd : Fd} (h : fd.registered = false) :
    fd.recomputeWantedFlags.wantedBands = ∅ := by
  simp only [recomputeWantedFlags, h, Bool.false_eq_true, if_false]

end Fd

/-- The part of `struct iv_state` that belongs to file descriptors. -/
structure FdState (μ : Type) where
  numobjs   : ℤ
  numfds    : ℤ
  handledFd : Option FdPtr
  fds       : FdPtr → Fd
  /-- The list `active` of `iv_fd_poll_and_run`. A descriptor's `list_active` is empty exactly if
  the descriptor is not on it. -/
  active    : List FdPtr
  /-- What belongs to the poll method. -/
  method    : μ

namespace FdState

variable {μ : Type}

@[simps]
def setFd (st : FdState μ) (fd : FdPtr) (f : Fd → Fd) : FdState μ :=
  { st with fds := Function.update st.fds fd (f (st.fds fd)) }

@[simps]
def setMethod (st : FdState μ) (method : μ) : FdState μ :=
  { st with method := method }

/-- Two states that differ at most in what belongs to the poll method. -/
structure SameCore (st st' : FdState μ) : Prop where
  numobjs : st'.numobjs = st.numobjs
  numfds : st'.numfds = st.numfds
  handledFd : st'.handledFd = st.handledFd
  active : st'.active = st.active
  fds : ∀ p, st'.fds p = { st.fds p with registeredBands := (st'.fds p).registeredBands }

variable {st st' st'' : FdState μ} {p : FdPtr}

@[refl]
lemma SameCore.refl (st : FdState μ) : SameCore st st :=
  ⟨rfl, rfl, rfl, rfl, fun _ => rfl⟩

lemma SameCore.trans (h : SameCore st st') (h' : SameCore st' st'') : SameCore st st'' where
  numobjs := h'.numobjs.trans h.numobjs
  numfds := h'.numfds.trans h.numfds
  handledFd := h'.handledFd.trans h.handledFd
  active := h'.active.trans h.active
  fds p := by rw [h'.fds p, h.fds p]

lemma SameCore.registered (h : SameCore st st') (p : FdPtr) :
    (st'.fds p).registered = (st.fds p).registered := by rw [h.fds p]

lemma SameCore.readyBands (h : SameCore st st') (p : FdPtr) :
    (st'.fds p).readyBands = (st.fds p).readyBands := by rw [h.fds p]

lemma SameCore.fd (h : SameCore st st') (p : FdPtr) : (st'.fds p).fd = (st.fds p).fd := by
  rw [h.fds p]

lemma SameCore.wantedBands (h : SameCore st st') (p : FdPtr) :
    (st'.fds p).wantedBands = (st.fds p).wantedBands := by rw [h.fds p]

lemma SameCore.handler (h : SameCore st st') (p : FdPtr) :
    (st'.fds p).handler = (st.fds p).handler := by
  rw [h.fds p]
  funext band
  cases band <;> rfl

lemma SameCore.handlerBands (h : SameCore st st') (p : FdPtr) :
    (st'.fds p).handlerBands = (st.fds p).handlerBands := by
  simp only [Fd.handlerBands, h.handler p]

end FdState

/-- `struct iv_fd_poll_method`, as far as registration is concerned. A `NULL` entry does nothing.
`refused` says that the kernel does not accept a change. The methods keep track of what is
registered with the kernel, and leave the rest alone. -/
structure PollMethod (μ : Type) where
  registerFd   : FdState μ → FdPtr → Except Fault (FdState μ)
  unregisterFd : (refused : Bool) → FdState μ → FdPtr → Except Fault (FdState μ)
  notifyFd     : FdState μ → FdPtr → Except Fault (FdState μ)
  /-- The result says whether the call has failed. -/
  notifyFdSync : (refused : Bool) → FdState μ → FdPtr → Except Fault (Bool × FdState μ)
  registerFd_core : ∀ {st p st'}, registerFd st p = .ok st' → FdState.SameCore st st'
  unregisterFd_core : ∀ {refused st p st'}, unregisterFd refused st p = .ok st' →
    FdState.SameCore st st'
  notifyFd_core : ∀ {st p st'}, notifyFd st p = .ok st' → FdState.SameCore st st'
  notifyFdSync_core : ∀ {refused st p ret st'}, notifyFdSync refused st p = .ok (ret, st') →
    FdState.SameCore st st'

section Calls

variable {μ : Type} (m : PollMethod μ)

/-- `iv_fd_make_ready`. -/
def ivFdMakeReady (st : FdState μ) (fd : FdPtr) (bands : Finset Band) : FdState μ :=
  let st :=
    if fd ∈ st.active then st
    else { st.setFd fd (fun f => { f with readyBands := ∅ }) with active := st.active ++ [fd] }
  st.setFd fd fun f => { f with readyBands := f.readyBands ∪ bands }

/-- `notify_fd`. -/
def notifyFd (st : FdState μ) (fd : FdPtr) : Except Fault (FdState μ) :=
  m.notifyFd (st.setFd fd Fd.recomputeWantedFlags) fd

/-- `iv_fd_register_prologue`. A descriptor that is not registered is on no list, so that its list
heads are set up without an effect on the lists. -/
def ivFdRegisterPrologue (st : FdState μ) (fd : FdPtr) : Except Fault (FdState μ) :=
  if (st.fds fd).registered then
    .error (.fatal "iv_fd_register: called with fd which is still registered")
  else if (st.fds fd).fd < 0 then
    .error (.fatal "iv_fd_register: called with invalid fd")
  else
    let st := st.setFd fd fun f =>
      { f with registered := true, readyBands := ∅, registeredBands := ∅ }
    m.registerFd st fd

/-- `iv_fd_register_epilogue`, without the flags of the descriptor itself. -/
@[simps]
def ivFdRegisterEpilogue (st : FdState μ) : FdState μ :=
  { st with numobjs := st.numobjs + 1, numfds := st.numfds + 1 }

/-- `iv_fd_register`. -/
def ivFdRegister (st : FdState μ) (fd : FdPtr) : Except Fault (FdState μ) := do
  let st ← ivFdRegisterPrologue m st fd
  let st ← notifyFd m st fd
  return ivFdRegisterEpilogue st

/-- `iv_fd_register_try`, and whether it has failed. -/
def ivFdRegisterTry (refused : Bool) (st : FdState μ) (fd : FdPtr) :
    Except Fault (Bool × FdState μ) := do
  let st ← ivFdRegisterPrologue m st fd
  let st := st.setFd fd Fd.recomputeWantedFlags
  let origWantedBands := (st.fds fd).wantedBands
  let st :=
    if origWantedBands = ∅ then
      st.setFd fd fun f => { f with wantedBands := {.maskIn, .maskOut} }
    else st
  let (ret, st) ← m.notifyFdSync refused st fd
  if ret then
    let st ← m.unregisterFd refused (st.setFd fd fun f => { f with registered := false }) fd
    return (true, st)
  else
    let st ←
      if origWantedBands = ∅ then
        m.notifyFd (st.setFd fd fun f => { f with wantedBands := ∅ }) fd
      else .ok st
    return (false, ivFdRegisterEpilogue st)

/-- `iv_fd_unregister`. -/
def ivFdUnregister (refused : Bool) (st : FdState μ) (fd : FdPtr) : Except Fault (FdState μ) :=
  if (st.fds fd).registered then do
    let st := st.setFd fd fun f => { f with registered := false }
    let st := { st with active := st.active.erase fd }
    let st ← notifyFd m st fd
    let st ← m.unregisterFd refused st fd
    return { st with
      numobjs := st.numobjs - 1
      numfds := st.numfds - 1
      handledFd := if st.handledFd = some fd then none else st.handledFd }
  else .error (.fatal "iv_fd_unregister: called with fd which is not registered")

/-- `iv_fd_set_handler_in` and its siblings, with the text of their error. -/
def ivFdSetHandler (band : Band) (error : String) (st : FdState μ) (fd : FdPtr)
    (handler : FdHandler) : Except Fault (FdState μ) :=
  if (st.fds fd).registered then
    notifyFd m (st.setFd fd fun f => f.setHandler band handler) fd
  else .error (.fatal error)

/-- `iv_fd_set_handler_in`. -/
def ivFdSetHandlerIn : FdState μ → FdPtr → FdHandler → Except Fault (FdState μ) :=
  ivFdSetHandler m .maskIn "iv_fd_set_handler_in: called with fd which is not registered"

/-- `iv_fd_set_handler_out`. -/
def ivFdSetHandlerOut : FdState μ → FdPtr → FdHandler → Except Fault (FdState μ) :=
  ivFdSetHandler m .maskOut "iv_fd_set_handler_out: called with fd which is not registered"

/-- `iv_fd_set_handler_err`. -/
def ivFdSetHandlerErr : FdState μ → FdPtr → FdHandler → Except Fault (FdState μ) :=
  ivFdSetHandler m .maskErr "iv_fd_set_handler_err: called with fd which is not registered"

end Calls

/-! ### What a user may do -/

/-- One call of a user. -/
inductive FdOp where
  /-- The user fills in a descriptor that is not registered. -/
  | prepare (fd : FdPtr) (num : ℤ) (handlerIn handlerOut handlerErr : FdHandler)
  | register (fd : FdPtr)
  | registerTry (fd : FdPtr) (refused : Bool)
  | unregister (fd : FdPtr) (refused : Bool)
  | setHandler (fd : FdPtr) (band : Band) (handler : FdHandler)
  deriving DecidableEq

namespace FdOp

/-- The descriptor that a call is about. -/
def fd : FdOp → FdPtr
  | .prepare fd _ _ _ _ => fd
  | .register fd        => fd
  | .registerTry fd _   => fd
  | .unregister fd _    => fd
  | .setHandler fd _ _  => fd

/-- The call unregisters `p`. -/
def unregisters (p : FdPtr) : FdOp → Bool
  | .unregister fd _ => fd == p
  | _                => false

end FdOp

/-- A call. -/
def fdCall {μ : Type} (m : PollMethod μ) (st : FdState μ) : FdOp → Except Fault (FdState μ)
  | .prepare fd num handlerIn handlerOut handlerErr =>
    .ok (st.setFd fd fun f =>
      { f with
        fd := num
        handlerIn := handlerIn
        handlerOut := handlerOut
        handlerErr := handlerErr })
  | .register fd => ivFdRegister m st fd
  | .registerTry fd refused => (ivFdRegisterTry m refused st fd).map Prod.snd
  | .unregister fd refused => ivFdUnregister m refused st fd
  | .setHandler fd .maskIn handler => ivFdSetHandlerIn m st fd handler
  | .setHandler fd .maskOut handler => ivFdSetHandlerOut m st fd handler
  | .setHandler fd .maskErr handler => ivFdSetHandlerErr m st fd handler

/-- A descriptor that is registered is not the user's to fill in. -/
def FdOp.permitted {μ : Type} (st : FdState μ) : FdOp → Bool
  | .prepare fd _ _ _ _ => !(st.fds fd).registered
  | _                   => true

/-- The state after a call, if it is permitted and returns. -/
def fdStep {μ : Type} (m : PollMethod μ) (st : FdState μ) (op : FdOp) : Option (FdState μ) :=
  if op.permitted st then (fdCall m st op).toOption else none

/-! ### What a call does -/

section Steps

variable {μ : Type}

/-- The state in which the poll method is told of a new descriptor. -/
def FdState.enrol (st : FdState μ) (fd : FdPtr) : FdState μ :=
  st.setFd fd fun f => { f with registered := true, readyBands := ∅, registeredBands := ∅ }

/-- The state in which `iv_fd_register_try` asks the poll method for the descriptor. -/
def FdState.ask (st : FdState μ) (fd : FdPtr) : FdState μ :=
  let st := st.setFd fd Fd.recomputeWantedFlags
  if (st.fds fd).wantedBands = ∅ then
    st.setFd fd fun f => { f with wantedBands := {.maskIn, .maskOut} }
  else st

/-- A descriptor that is not registered any more and has left the list of active ones. -/
@[simps]
def FdState.retire (st : FdState μ) (fd : FdPtr) : FdState μ :=
  { st.setFd fd (fun f => { f with registered := false }) with active := st.active.erase fd }

/-- The end of `iv_fd_unregister`. -/
@[simps]
def FdState.drop (st : FdState μ) (fd : FdPtr) : FdState μ :=
  { st with
    numobjs := st.numobjs - 1
    numfds := st.numfds - 1
    handledFd := if st.handledFd = some fd then none else st.handledFd }

variable (m : PollMethod μ)

/-- The ways in which a user's call can return. -/
inductive FdStep (st : FdState μ) : FdOp → FdState μ → Prop
  | prepare {fd : FdPtr} {num : ℤ} {hIn hOut hErr : FdHandler}
      (hreg : (st.fds fd).registered = false) :
      FdStep st (.prepare fd num hIn hOut hErr) (st.setFd fd fun f =>
        { f with fd := num, handlerIn := hIn, handlerOut := hOut, handlerErr := hErr })
  | register {fd : FdPtr} {st₁ st₂ : FdState μ} (hreg : (st.fds fd).registered = false)
      (hfd : 0 ≤ (st.fds fd).fd) (henrol : m.registerFd (st.enrol fd) fd = .ok st₁)
      (hnotify : notifyFd m st₁ fd = .ok st₂) :
      FdStep st (.register fd) (ivFdRegisterEpilogue st₂)
  | registerTry {fd : FdPtr} {refused : Bool} {st₁ st₂ : FdState μ}
      (hreg : (st.fds fd).registered = false) (hfd : 0 ≤ (st.fds fd).fd)
      (henrol : m.registerFd (st.enrol fd) fd = .ok st₁)
      (hwanted : (st₁.fds fd).handlerBands ≠ ∅)
      (hsync : m.notifyFdSync refused (st₁.ask fd) fd = .ok (false, st₂)) :
      FdStep st (.registerTry fd refused) (ivFdRegisterEpilogue st₂)
  | registerTryBare {fd : FdPtr} {refused : Bool} {st₁ st₂ st₃ : FdState μ}
      (hreg : (st.fds fd).registered = false) (hfd : 0 ≤ (st.fds fd).fd)
      (henrol : m.registerFd (st.enrol fd) fd = .ok st₁)
      (hwanted : (st₁.fds fd).handlerBands = ∅)
      (hsync : m.notifyFdSync refused (st₁.ask fd) fd = .ok (false, st₂))
      (hnotify : m.notifyFd (st₂.setFd fd fun f => { f with wantedBands := ∅ }) fd = .ok st₃) :
      FdStep st (.registerTry fd refused) (ivFdRegisterEpilogue st₃)
  | registerTryFailed {fd : FdPtr} {refused : Bool} {st₁ st₂ st₃ : FdState μ}
      (hreg : (st.fds fd).registered = false) (hfd : 0 ≤ (st.fds fd).fd)
      (henrol : m.registerFd (st.enrol fd) fd = .ok st₁)
      (hsync : m.notifyFdSync refused (st₁.ask fd) fd = .ok (true, st₂))
      (hunreg : m.unregisterFd refused (st₂.setFd fd fun f => { f with registered := false }) fd =
        .ok st₃) :
      FdStep st (.registerTry fd refused) st₃
  | unregister {fd : FdPtr} {refused : Bool} {st₁ st₂ : FdState μ}
      (hreg : (st.fds fd).registered = true) (hnotify : notifyFd m (st.retire fd) fd = .ok st₁)
      (hunreg : m.unregisterFd refused st₁ fd = .ok st₂) :
      FdStep st (.unregister fd refused) (st₂.drop fd)
  | setHandler {fd : FdPtr} {band : Band} {handler : FdHandler} {st' : FdState μ}
      (hreg : (st.fds fd).registered = true)
      (hnotify : notifyFd m (st.setFd fd fun f => f.setHandler band handler) fd = .ok st') :
      FdStep st (.setHandler fd band handler) st'

variable {m} {st st' : FdState μ} {fd p : FdPtr} {op : FdOp}

lemma ivFdRegisterPrologue_eq_ok (h : ivFdRegisterPrologue m st fd = .ok st') :
    (st.fds fd).registered = false ∧ 0 ≤ (st.fds fd).fd ∧
      m.registerFd (st.enrol fd) fd = .ok st' ∧ (st'.fds fd).registered = true := by
  unfold ivFdRegisterPrologue at h
  split_ifs at h with hreg hneg
  refine ⟨Bool.not_eq_true _ ▸ hreg, not_lt.mp hneg, h, ?_⟩
  rw [(m.registerFd_core h).registered]
  simp

lemma FdState.ask_eq (h : (st.fds fd).registered = true) :
    st.ask fd = if (st.fds fd).handlerBands = ∅ then
      (st.setFd fd Fd.recomputeWantedFlags).setFd fd
        fun f => { f with wantedBands := {.maskIn, .maskOut} }
    else st.setFd fd Fd.recomputeWantedFlags := by
  simp only [FdState.ask, FdState.setFd_fds, Function.update_self,
    Fd.recomputeWantedFlags_wantedBands h]

/-- The calls that `iv_fd_register_try` makes. -/
lemma ivFdRegisterTry_eq_ok {refused ret : Bool}
    (h : ivFdRegisterTry m refused st fd = .ok (ret, st')) :
    (st.fds fd).registered = false ∧ 0 ≤ (st.fds fd).fd ∧
      ∃ st₁ st₂, m.registerFd (st.enrol fd) fd = .ok st₁ ∧
        m.notifyFdSync refused (st₁.ask fd) fd = .ok (ret, st₂) ∧
        if ret then
          m.unregisterFd refused (st₂.setFd fd fun f => { f with registered := false }) fd = .ok st'
        else if (st₁.fds fd).handlerBands = ∅ then
          ∃ st₃, m.notifyFd (st₂.setFd fd fun f => { f with wantedBands := ∅ }) fd = .ok st₃ ∧
            st' = ivFdRegisterEpilogue st₃
        else st' = ivFdRegisterEpilogue st₂ := by
  obtain ⟨st₁, h₁, h⟩ := bind_eq_ok.mp h
  obtain ⟨hreg, hfd, henrol, hreg₁⟩ := ivFdRegisterPrologue_eq_ok h₁
  simp only [FdState.setFd_fds, Function.update_self,
    Fd.recomputeWantedFlags_wantedBands hreg₁] at h
  rw [← FdState.ask_eq hreg₁] at h
  obtain ⟨⟨ret₂, st₂⟩, hsync, h⟩ := bind_eq_ok.mp h
  refine ⟨hreg, hfd, st₁, st₂, henrol, ?_⟩
  cases ret₂ with
  | true =>
    obtain ⟨st₃, hunreg, h⟩ := bind_eq_ok.mp h
    obtain ⟨rfl, rfl⟩ := Prod.mk.inj (Except.ok.inj h)
    exact ⟨hsync, hunreg⟩
  | false =>
    simp only [Bool.false_eq_true, if_false] at h
    by_cases hwanted : (st₁.fds fd).handlerBands = ∅
    · rw [if_pos hwanted] at h
      obtain ⟨st₃, hnotify, h⟩ := bind_eq_ok.mp h
      obtain ⟨rfl, rfl⟩ := Prod.mk.inj (Except.ok.inj h)
      refine ⟨hsync, ?_⟩
      rw [if_neg Bool.false_ne_true, if_pos hwanted]
      exact ⟨st₃, hnotify, rfl⟩
    · rw [if_neg hwanted] at h
      obtain ⟨rfl, rfl⟩ := Prod.mk.inj (Except.ok.inj h)
      refine ⟨hsync, ?_⟩
      rw [if_neg Bool.false_ne_true, if_neg hwanted]

lemma FdStep.of_registerTry {refused ret : Bool}
    (h : ivFdRegisterTry m refused st fd = .ok (ret, st')) :
    FdStep m st (.registerTry fd refused) st' := by
  obtain ⟨hreg, hfd, st₁, st₂, henrol, hsync, hrest⟩ := ivFdRegisterTry_eq_ok h
  cases ret with
  | true => exact .registerTryFailed hreg hfd henrol hsync hrest
  | false =>
    rw [if_neg Bool.false_ne_true] at hrest
    split_ifs at hrest with hwanted
    · obtain ⟨st₃, hnotify, rfl⟩ := hrest
      exact .registerTryBare hreg hfd henrol hwanted hsync hnotify
    · subst hrest
      exact .registerTry hreg hfd henrol hwanted hsync

lemma FdStep.of_call (hop : op.permitted st = true) (h : fdCall m st op = .ok st') :
    FdStep m st op st' := by
  cases op with
  | prepare fd num hIn hOut hErr =>
    obtain rfl := Except.ok.inj h
    exact .prepare (by simpa [FdOp.permitted] using hop)
  | register fd =>
    obtain ⟨st₁, h₁, h⟩ := bind_eq_ok.mp h
    obtain ⟨st₂, hnotify, h⟩ := bind_eq_ok.mp h
    obtain ⟨hreg, hfd, henrol, -⟩ := ivFdRegisterPrologue_eq_ok h₁
    obtain rfl := Except.ok.inj h
    exact .register hreg hfd henrol hnotify
  | registerTry fd refused =>
    cases htry : ivFdRegisterTry m refused st fd with
    | error e => simp [fdCall, htry, Except.map] at h
    | ok res =>
      obtain ⟨ret, st₁⟩ := res
      simp only [fdCall, htry, Except.map, Except.ok.injEq] at h
      exact .of_registerTry (h ▸ htry)
  | unregister fd refused =>
    simp only [fdCall, ivFdUnregister] at h
    split_ifs at h with hreg
    obtain ⟨st₁, hnotify, h⟩ := bind_eq_ok.mp h
    obtain ⟨st₂, hunreg, h⟩ := bind_eq_ok.mp h
    obtain rfl := Except.ok.inj h
    exact .unregister hreg hnotify hunreg
  | setHandler fd band handler =>
    obtain ⟨error, h⟩ : ∃ error, ivFdSetHandler m band error st fd handler = .ok st' := by
      cases band <;> exact ⟨_, h⟩
    unfold ivFdSetHandler at h
    split_ifs at h with hreg
    exact .setHandler hreg h

lemma FdStep.of_step (h : fdStep m st op = some st') : FdStep m st op st' := by
  obtain ⟨hop, h⟩ := Option.ite_none_right_eq_some.mp h
  exact .of_call hop (toOption_eq_some.mp h)

end Steps

/-! ### Frames -/

/-- A change that concerns the descriptor `fd` only, and no list and no handler under way. -/
structure FdFrame {μ : Type} (fd : FdPtr) (st st' : FdState μ) : Prop where
  handledFd : st'.handledFd = st.handledFd
  active : st'.active = st.active
  fds : ∀ p ≠ fd, st'.fds p = { st.fds p with registeredBands := (st'.fds p).registeredBands }

section Frames

variable {μ : Type} {m : PollMethod μ} {st st' st'' : FdState μ} {fd p : FdPtr} {op : FdOp}

namespace FdFrame

lemma trans (h : FdFrame fd st st') (h' : FdFrame fd st' st'') : FdFrame fd st st'' where
  handledFd := h'.handledFd.trans h.handledFd
  active := h'.active.trans h.active
  fds p hp := by rw [h'.fds p hp, h.fds p hp]

lemma setFd (fd : FdPtr) (st : FdState μ) (f : Fd → Fd) : FdFrame fd st (st.setFd fd f) :=
  ⟨rfl, rfl, fun p hp => by simp [hp]⟩

lemma of_core (h : st.SameCore st') (fd : FdPtr) : FdFrame fd st st' :=
  ⟨h.handledFd, h.active, fun p _ => h.fds p⟩

lemma notifyFd (h : notifyFd m st fd = .ok st') : FdFrame fd st st' :=
  (FdFrame.setFd fd st _).trans (.of_core (m.notifyFd_core h) fd)

lemma epilogue (fd : FdPtr) (st : FdState μ) : FdFrame fd st (ivFdRegisterEpilogue st) :=
  ⟨rfl, rfl, fun _ _ => rfl⟩

lemma ask (st : FdState μ) (fd : FdPtr) : FdFrame fd st (st.ask fd) := by
  have h := FdFrame.setFd fd st Fd.recomputeWantedFlags
  unfold FdState.ask
  dsimp only
  split_ifs with hwanted
  · exact h.trans (.setFd fd _ _)
  · exact h

/-- The part that all outcomes of `iv_fd_register_try` have in common. -/
lemma sync {st₁ st₂ : FdState μ} {refused ret : Bool}
    (henrol : m.registerFd (st.enrol fd) fd = .ok st₁)
    (hsync : m.notifyFdSync refused (st₁.ask fd) fd = .ok (ret, st₂)) : FdFrame fd st st₂ :=
  (((FdFrame.setFd fd st _).trans (.of_core (m.registerFd_core henrol) fd)).trans
    (.ask st₁ fd)).trans (.of_core (m.notifyFdSync_core hsync) fd)

end FdFrame

namespace FdStep

lemma frame (h : FdStep m st op st') (hop : ∀ p, op.unregisters p = false) :
    FdFrame op.fd st st' := by
  cases h with
  | prepare hreg => exact .setFd _ st _
  | register hreg hfd henrol hnotify =>
    exact (((FdFrame.setFd _ st _).trans (.of_core (m.registerFd_core henrol) _)).trans
      (.notifyFd hnotify)).trans (.epilogue _ _)
  | registerTry hreg hfd henrol hwanted hsync =>
    exact (FdFrame.sync henrol hsync).trans (.epilogue _ _)
  | registerTryBare hreg hfd henrol hwanted hsync hnotify =>
    exact (((FdFrame.sync henrol hsync).trans (.setFd _ _ _)).trans
      (.of_core (m.notifyFd_core hnotify) _)).trans (.epilogue _ _)
  | registerTryFailed hreg hfd henrol hsync hunreg =>
    exact ((FdFrame.sync henrol hsync).trans (.setFd _ _ _)).trans
      (.of_core (m.unregisterFd_core hunreg) _)
  | @unregister fd => simpa [FdOp.unregisters] using hop fd
  | setHandler hreg hnotify => exact (FdFrame.setFd _ st _).trans (.notifyFd hnotify)

/-- Unregistering a descriptor: it is a change of that descriptor only, which leaves the list of
active ones and is not handled any more. -/
lemma unregister_frame {refused : Bool} (h : FdStep m st (.unregister fd refused) st') :
    (st.fds fd).registered = true ∧ st'.active = st.active.erase fd ∧
      st'.handledFd = (if st.handledFd = some fd then none else st.handledFd) ∧
      ∀ p ≠ fd, st'.fds p = { st.fds p with registeredBands := (st'.fds p).registeredBands } := by
  cases h with
  | @unregister _ _ st₁ st₂ hreg hnotify hunreg =>
    have hframe : FdFrame fd (st.retire fd) st₂ :=
      (FdFrame.notifyFd hnotify).trans (.of_core (m.unregisterFd_core hunreg) fd)
    refine ⟨hreg, hframe.active, ?_, fun p hp => ?_⟩
    · simp [hframe.handledFd]
    · simpa [hp] using hframe.fds p hp

lemma fds_of_ne (h : FdStep m st op st') (hp : p ≠ op.fd) :
    st'.fds p = { st.fds p with registeredBands := (st'.fds p).registeredBands } := by
  cases op with
  | unregister fd refused => exact h.unregister_frame.2.2.2 p hp
  | _ => exact (h.frame fun _ => rfl).fds p hp

/-- A registered descriptor stays so, with the bands that were reported, until it is
unregistered. -/
lemma kept (h : FdStep m st op st') (hp : (st.fds p).registered = true)
    (hop : op.unregisters p = false) :
    (st'.fds p).registered = true ∧ (st'.fds p).readyBands = (st.fds p).readyBands := by
  by_cases hfd : p = op.fd
  · subst hfd
    cases h with
    | prepare hreg | register hreg _ _ _ | registerTry hreg _ _ _ _
    | registerTryBare hreg _ _ _ _ _ | registerTryFailed hreg _ _ _ _ =>
      exact absurd hp (by simp [FdOp.fd, hreg])
    | unregister hreg _ _ => simp [FdOp.unregisters, FdOp.fd] at hop
    | @setHandler fd band handler _ hreg hnotify =>
      have hcore := m.notifyFd_core hnotify
      simp only [FdOp.fd, hcore.registered, hcore.readyBands]
      simpa using hreg
  · rw [h.fds_of_ne hfd]
    exact ⟨hp, rfl⟩

lemma active_sublist (h : FdStep m st op st') : st'.active.Sublist st.active := by
  cases op with
  | unregister fd refused =>
    rw [h.unregister_frame.2.1]
    exact List.erase_sublist
  | _ => exact (h.frame fun _ => rfl).active ▸ List.Sublist.refl _

lemma mem_active (h : FdStep m st op st') (hnodup : st.active.Nodup) :
    p ∈ st'.active ↔ p ∈ st.active ∧ op.unregisters p = false := by
  cases op with
  | unregister fd refused =>
    rw [h.unregister_frame.2.1, hnodup.mem_erase_iff, and_comm, FdOp.unregisters,
      beq_eq_false_iff_ne, ne_comm]
  | _ => simp [(h.frame fun _ => rfl).active, FdOp.unregisters]

/-- The handler under way is forgotten if its descriptor is unregistered. -/
lemma handledFd_eq (h : FdStep m st op st') :
    st'.handledFd = st.handledFd.filter fun fd => !op.unregisters fd := by
  cases op with
  | unregister fd refused =>
    rw [h.unregister_frame.2.2.1]
    cases st.handledFd with
    | none => rfl
    | some q =>
      by_cases hq : q = fd <;> simp [Option.filter, FdOp.unregisters, hq, eq_comm (a := fd)]
  | _ =>
    rw [(h.frame fun _ => rfl).handledFd]
    cases st.handledFd <;> rfl

end FdStep

end Frames

end Ivykis
