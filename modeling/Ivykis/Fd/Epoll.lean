import Ivykis.Fd.Flush
import Ivykis.Kit.Lts

/-!
# The epoll poll method (`iv_fd_epoll.c`)

Changes of the bands of a descriptor are put off. They are collected on a list, and the kernel is
told about them before the next `epoll_wait`, or when the descriptor is unregistered.
-/

namespace Ivykis

/-- The flags of `struct epoll_event` that matter. A mask is a set of them. -/
inductive EpollFlag where
  | epollIn
  | epollOut
  | epollErr
  | epollHup
  deriving DecidableEq, Repr

inductive EpollCtl where
  | add
  | mod
  | del
  deriving DecidableEq, Repr

/-- A call of `epoll_ctl`, and whether the kernel knew the descriptor. -/
structure EpollCall where
  op      : EpollCtl
  fd      : ℤ
  present : Bool
  deriving DecidableEq

/-- `st->u.epoll`, together with the interest set that the kernel has for `epoll_fd`. -/
structure EpollState where
  notify   : List FdPtr
  /-- The mask and the `data.ptr` of a descriptor. -/
  interest : ℤ → Option (Finset EpollFlag × FdPtr)
  /-- The calls of `epoll_ctl` so far. -/
  calls    : List EpollCall

/-- `bits_to_poll_mask`. -/
def Epoll.bitsToPollMask (bits : Finset Band) : Finset EpollFlag :=
  (if .maskIn ∈ bits then {.epollIn} else ∅) ∪ (if .maskOut ∈ bits then {.epollOut} else ∅)

/-- A call of `epoll_ctl` is made. -/
@[simps]
def EpollState.addCall (st : EpollState) (op : EpollCtl) (fd : ℤ) : EpollState :=
  { st with calls := ⟨op, fd, (st.interest fd).isSome⟩ :: st.calls }

/-- A call of `epoll_ctl` takes effect. -/
@[simps]
def EpollState.change (st : EpollState) (op : EpollCtl) (fd : ℤ)
    (event : Finset EpollFlag × FdPtr) : EpollState :=
  { st with interest := Function.update st.interest fd (if op = .del then none else some event) }

/-- `epoll_ctl`, and whether it fails: with `EEXIST` or `ENOENT`, or because the kernel has no room
(`refused`). It is called again after `EINTR`. -/
def epollCtl (refused : Bool) (st : EpollState) (op : EpollCtl) (fd : ℤ)
    (event : Finset EpollFlag × FdPtr) : Bool × EpollState :=
  let st := st.addCall op fd
  if refused || (decide (op = .add) == (st.interest fd).isSome) then (true, st)
  else (false, st.change op fd event)

/-- `iv_list_del_init(&fd->list_notify)`. -/
@[simps]
def FdState.unnotify (st : FdState EpollState) (fd : FdPtr) : FdState EpollState :=
  { st with method := { st.method with notify := st.method.notify.erase fd } }

/-- The operation that brings the kernel up to date. -/
def Fd.epollOp (fd : Fd) : EpollCtl :=
  if fd.registeredBands = ∅ ∧ fd.wantedBands ≠ ∅ then .add
  else if fd.registeredBands ≠ ∅ ∧ fd.wantedBands = ∅ then .del
  else .mod

/-- `__iv_fd_epoll_flush_one`, and whether it fails. -/
def flushOne (refused : Bool) (st : FdState EpollState) (fd : FdPtr) :
    Bool × FdState EpollState :=
  let st := st.unnotify fd
  let f := st.fds fd
  if f.registeredBands = f.wantedBands then (false, st)
  else
    let (ret, method) :=
      epollCtl refused st.method f.epollOp f.fd (Epoll.bitsToPollMask f.wantedBands, fd)
    let st := st.setMethod method
    if ret then (true, st)
    else (false, st.setFd fd fun f => { f with registeredBands := f.wantedBands })

/-- `iv_fd_epoll_flush_one`. -/
def ivFdEpollFlushOne (refused : Bool) (st : FdState EpollState) (fd : FdPtr) :
    Except Fault (FdState EpollState) :=
  let (ret, st) := flushOne refused st fd
  if ret then .error (.fatal "iv_fd_epoll_flush_one: got error") else .ok st

/-- `iv_fd_epoll_unregister_fd`. -/
def ivFdEpollUnregisterFd (refused : Bool) (st : FdState EpollState) (fd : FdPtr) :
    Except Fault (FdState EpollState) :=
  if fd ∈ st.method.notify then ivFdEpollFlushOne refused st fd else .ok st

/-- `iv_fd_epoll_notify_fd`. -/
def ivFdEpollNotifyFd (st : FdState EpollState) (fd : FdPtr) : FdState EpollState :=
  let st := st.unnotify fd
  if (st.fds fd).registeredBands ≠ (st.fds fd).wantedBands then
    st.setMethod { st.method with notify := st.method.notify ++ [fd] }
  else st

/-! ### The method -/

section Method

variable {refused : Bool} {st st' : FdState EpollState} {fd : FdPtr}

lemma unnotify_core (st : FdState EpollState) (fd : FdPtr) : st.SameCore (st.unnotify fd) :=
  ⟨rfl, rfl, rfl, rfl, fun _ => rfl⟩

lemma flushOne_core (refused : Bool) (st : FdState EpollState) (fd : FdPtr) :
    st.SameCore (flushOne refused st fd).2 := by
  unfold flushOne
  dsimp only
  split_ifs with heq hret
  · exact unnotify_core st fd
  · exact ⟨rfl, rfl, rfl, rfl, fun _ => rfl⟩
  · refine ⟨rfl, rfl, rfl, rfl, fun p => ?_⟩
    by_cases hp : p = fd
    · subst hp
      simp
    · simp [hp]

lemma ivFdEpollFlushOne_eq_ok :
    ivFdEpollFlushOne refused st fd = .ok st' ↔ flushOne refused st fd = (false, st') := by
  unfold ivFdEpollFlushOne
  rcases flushOne refused st fd with ⟨_ | _, st₁⟩ <;> simp

lemma ivFdEpollUnregisterFd_core (h : ivFdEpollUnregisterFd refused st fd = .ok st') :
    st.SameCore st' := by
  unfold ivFdEpollUnregisterFd at h
  split_ifs at h with hmem
  · have hcore := flushOne_core refused st fd
    rwa [ivFdEpollFlushOne_eq_ok.mp h] at hcore
  · exact Except.ok.inj h ▸ .refl st

lemma ivFdEpollNotifyFd_core (st : FdState EpollState) (fd : FdPtr) :
    st.SameCore (ivFdEpollNotifyFd st fd) := by
  unfold ivFdEpollNotifyFd
  dsimp only
  split_ifs with hne
  · exact ⟨rfl, rfl, rfl, rfl, fun _ => rfl⟩
  · exact unnotify_core st fd

/-- `iv_fd_poll_method_epoll`, which has no `register_fd`. -/
def epollMethod : PollMethod EpollState where
  registerFd st _ := .ok st
  unregisterFd := ivFdEpollUnregisterFd
  notifyFd st fd := .ok (ivFdEpollNotifyFd st fd)
  -- `iv_fd_epoll_notify_fd_sync`
  notifyFdSync refused st fd := .ok (flushOne refused st fd)
  registerFd_core h := Except.ok.inj h ▸ .refl _
  unregisterFd_core := ivFdEpollUnregisterFd_core
  notifyFd_core h := Except.ok.inj h ▸ ivFdEpollNotifyFd_core _ _
  notifyFdSync_core {refused st p _ _} h := by
    have hcore := flushOne_core refused st p
    rwa [Except.ok.inj h] at hcore

end Method

/-! ### Polling -/

/-- A step of `iv_fd_epoll_poll`. -/
inductive EpollPoll where
  /-- An iteration of `iv_fd_epoll_flush_pending`. -/
  | flush (refused : Bool)
  /-- `epoll_wait` returns these events, none if it is interrupted. -/
  | wait (batch : List (ℤ × Finset EpollFlag))

/-- What an event means for its descriptor. -/
def makeEpollReady (st : FdState EpollState) (fd : FdPtr) (events : Finset EpollFlag) :
    FdState EpollState :=
  let st := makeReadyIf (events ∩ {.epollIn, .epollErr, .epollHup}).Nonempty st fd .maskIn
  let st := makeReadyIf (events ∩ {.epollOut, .epollErr, .epollHup}).Nonempty st fd .maskOut
  makeReadyIf (events ∩ {.epollErr, .epollHup}).Nonempty st fd .maskErr

/-- The events of a batch. The kernel reports what is in the interest set, and has the descriptor
from there. -/
def collectEpoll (st : FdState EpollState) : List (ℤ × Finset EpollFlag) →
    Option (FdState EpollState)
  | [] => some st
  | (num, events) :: batch =>
    match st.method.interest num with
    | some (_, fd) => collectEpoll (makeEpollReady st fd events) batch
    | none         => none

/-- `iv_fd_epoll_poll`, step by step. -/
def ivFdEpollPoll (st : FdState EpollState) :
    EpollPoll → Option (FdState EpollState × DispatchPc)
  | .flush refused =>
    match st.method.notify with
    | []      => none
    | fd :: _ => (ivFdEpollFlushOne refused st fd).toOption.map fun st => (st, .done)
  | .wait batch =>
    if st.method.notify = [] then
      (collectEpoll { st with active := [] } batch).map fun st => (st, .events)
    else none

/-- `iv_fd_epoll_init`, in a thread with descriptors of which none is registered. -/
def ivFdEpollInit (fds : FdPtr → Fd) : LoopState EpollState :=
  ivFdInit fds ⟨[], fun _ => none, []⟩

/-- A thread with the epoll method. -/
def epollLts (fds : FdPtr → Fd) : Kit.Lts (LoopState EpollState) (LoopLabel EpollPoll) where
  init := ivFdEpollInit fds
  step := loopStep epollMethod ivFdEpollPoll

/-! ### What the kernel knows -/

/-- The entry of the interest set for a descriptor with some registered bands. -/
def epollEntry (p : FdPtr) (bands : Finset Band) : Option (Finset EpollFlag × FdPtr) :=
  if bands = ∅ then none else some (Epoll.bitsToPollMask bands, p)

/-- How the method keeps its pending changes. -/
@[simps]
def epollView : LazyView EpollState (Option (Finset EpollFlag × FdPtr)) where
  notify := EpollState.notify
  kernel := EpollState.interest
  entry := epollEntry
  settled := ⊥
  entry_empty _ _ := rfl

/-- No operation has been the wrong one. -/
def EpollState.CallsOk (st : EpollState) : Prop :=
  ∀ call ∈ st.calls, call.op = .add ↔ call.present = false

/-- The kernel and the list of pending changes agree with the descriptors `T`, and no operation has
been the wrong one. -/
abbrev EpollOk (st : FdState EpollState) (T : Finset FdPtr) (dirty : Option FdPtr) : Prop :=
  FlushOk epollView EpollState.CallsOk st T dirty

namespace EpollOk

variable {st st' : FdState EpollState} {T : Finset FdPtr} {dirty : Option FdPtr} {fd : FdPtr}
  {refused ret : Bool}

lemma interest (h : EpollOk st T dirty) (hmem : fd ∈ T) :
    st.method.interest (st.fds fd).fd = epollEntry fd (st.fds fd).registeredBands :=
  h.view.kernel.told fd hmem

/-- What is in the interest set belongs to a registered descriptor. -/
lemma known {num : ℤ} {event : Finset EpollFlag} (h : EpollOk st T dirty)
    (hevent : st.method.interest num = some (event, fd)) :
    fd ∈ T ∧ (st.fds fd).fd = num ∧ (st.fds fd).registeredBands ≠ ∅ := by
  have hne : st.method.interest num ≠ epollEntry fd ∅ := by simp [hevent, epollEntry]
  obtain ⟨q, hq, rfl⟩ := h.view.kernel.known (p := fd) hne
  rw [h.interest hq, epollEntry] at hevent
  split_ifs at hevent with hbands
  obtain ⟨-, rfl⟩ := Prod.mk.inj (Option.some.inj hevent)
  exact ⟨hq, rfl, hbands⟩

/-- The operation is the right one for what the kernel knows. -/
lemma epollOp_eq_add_iff (h : EpollOk st T dirty) (hmem : fd ∈ T)
    (hne : (st.fds fd).registeredBands ≠ (st.fds fd).wantedBands) :
    (st.fds fd).epollOp = .add ↔ (st.method.interest (st.fds fd).fd).isSome = false := by
  rw [h.interest hmem, epollEntry, Fd.epollOp]
  by_cases hbands : (st.fds fd).registeredBands = ∅
  · have hwanted : (st.fds fd).wantedBands ≠ ∅ := fun heq => hne (hbands.trans heq.symm)
    simp [hbands, hwanted]
  · by_cases hwanted : (st.fds fd).wantedBands = ∅ <;> simp [hbands, hwanted]

lemma epollOp_eq_del_iff {f : Fd} (hne : f.registeredBands ≠ f.wantedBands) :
    f.epollOp = .del ↔ f.wantedBands = ∅ := by
  unfold Fd.epollOp
  by_cases hbands : f.registeredBands = ∅ <;> by_cases hwanted : f.wantedBands = ∅ <;>
    simp_all

lemma addCall (h : EpollOk st T dirty) (hmem : fd ∈ T)
    (hne : (st.fds fd).registeredBands ≠ (st.fds fd).wantedBands) :
    EpollOk (st.setMethod (st.method.addCall (st.fds fd).epollOp (st.fds fd).fd)) T dirty := by
  refine ⟨h.view.congr rfl rfl rfl, fun call hcall => ?_⟩
  rcases List.mem_cons.mp hcall with rfl | hcall
  · exact h.epollOp_eq_add_iff hmem hne
  · exact h.calls call hcall

/-- The kernel has accepted a change. -/
lemma accept (h : EpollOk st T (some fd)) (hmem : fd ∈ T) (hnot : fd ∉ st.method.notify)
    (hne : (st.fds fd).registeredBands ≠ (st.fds fd).wantedBands)
    (hfds : st'.fds = Function.update st.fds fd
      { st.fds fd with registeredBands := (st.fds fd).wantedBands })
    (hmethod : st'.method = st.method.change (st.fds fd).epollOp (st.fds fd).fd
      (Epoll.bitsToPollMask (st.fds fd).wantedBands, fd)) : EpollOk st' T none := by
  have htell : LazyOk epollView st' T (some fd) := by
    refine h.view.tell (Or.inr rfl) hmem hfds (by simp [hmethod]) ?_
    change st'.method.interest = _
    rw [hmethod, epollView_entry, epollEntry, EpollState.change]
    simp only [epollOp_eq_del_iff hne]
    rfl
  refine ⟨htell.settle (by simpa [hmethod] using hnot) (by simp [hfds]), ?_⟩
  rw [hmethod]
  exact h.calls

lemma epollCtl_eq (h : EpollOk st T dirty) (hmem : fd ∈ T)
    (hne : (st.fds fd).registeredBands ≠ (st.fds fd).wantedBands)
    (event : Finset EpollFlag × FdPtr) :
    epollCtl refused st.method (st.fds fd).epollOp (st.fds fd).fd event =
      (refused, let method := st.method.addCall (st.fds fd).epollOp (st.fds fd).fd
        if refused then method else method.change (st.fds fd).epollOp (st.fds fd).fd event) := by
  have hop := h.epollOp_eq_add_iff hmem hne
  have hright : (decide ((st.fds fd).epollOp = .add) ==
      (st.method.interest (st.fds fd).fd).isSome) = false := by
    by_cases hadd : (st.fds fd).epollOp = .add
    · simp [hadd, hop.mp hadd]
    · rw [decide_eq_false hadd, Bool.eq_true_of_not_eq_false (mt hop.mpr hadd)]
      rfl
  cases refused with
  | true => simp [epollCtl]
  | false => simp [epollCtl, hright]

/-- `__iv_fd_epoll_flush_one`: it fails only if the kernel refuses. -/
lemma flushOne (h : EpollOk st T dirty) (hdirty : dirty = none ∨ dirty = some fd) (hmem : fd ∈ T)
    (hflush : flushOne refused st fd = (ret, st')) :
    Flushed epollView EpollState.CallsOk st T fd refused ret st' := by
  have hun : EpollOk (st.unnotify fd) T (some fd) := ⟨h.view.unnotify hdirty rfl rfl rfl, h.calls⟩
  have hnot : fd ∉ (st.unnotify fd).method.notify := h.view.notify.nodup.not_mem_erase
  unfold Ivykis.flushOne at hflush
  dsimp only at hflush
  split_ifs at hflush with heq hret
  · obtain ⟨rfl, rfl⟩ := Prod.mk.inj hflush
    exact ⟨hnot, by simp, fun _ => ⟨⟨hun.view.settle hnot heq, hun.calls⟩, heq⟩⟩
  · rw [hun.epollCtl_eq hmem heq] at hflush hret
    obtain ⟨rfl, rfl⟩ := Prod.mk.inj hflush
    have hrefused : refused = true := hret
    subst hrefused
    exact ⟨hnot, fun _ => ⟨rfl, hun.addCall hmem heq, rfl⟩, by simp⟩
  · rw [hun.epollCtl_eq hmem heq] at hflush hret
    obtain ⟨rfl, rfl⟩ := Prod.mk.inj hflush
    have hrefused : refused = false := Bool.not_eq_true _ ▸ hret
    subst hrefused
    exact ⟨hnot, by simp, fun _ => ⟨(hun.addCall hmem heq).accept hmem hnot heq rfl rfl, by simp⟩⟩

end EpollOk

lemma ivFdEpollNotifyFd_eq (st : FdState EpollState) (fd : FdPtr) : ivFdEpollNotifyFd st fd =
    st.setMethod { st.method with notify := renotify st.method.notify fd (st.fds fd) } := by
  simp only [ivFdEpollNotifyFd, renotify, FdState.unnotify_fds]
  split_ifs <;> rfl

/-- The epoll method keeps the interest set in step. -/
lemma epoll_flushes : FlushLaws epollMethod epollView EpollState.CallsOk flushOne where
  settled := id
  register _ _ := rfl
  notify st fd := ⟨_, congrArg _ (ivFdEpollNotifyFd_eq st fd), rfl, rfl, id⟩
  sync _ _ _ := rfl
  unregister {refused st fd st'} hlist := by
    have hunreg : epollMethod.unregisterFd refused st fd = ivFdEpollFlushOne refused st fd :=
      if_pos hlist
    rw [hunreg]
    exact ivFdEpollFlushOne_eq_ok
  leave hlist := if_neg hlist
  flushOne h hdirty hmem _ hflush := EpollOk.flushOne h hdirty hmem hflush

/-! ### Polling keeps the agreement -/

section Polling

variable {st st' : FdState EpollState} {T : Finset FdPtr}

lemma makeEpollReady_sameRegs (st : FdState EpollState) (fd : FdPtr)
    (events : Finset EpollFlag) : SameRegs st (makeEpollReady st fd events) :=
  ((SameRegs.makeReadyIf _ st fd _).trans (.makeReadyIf _ _ fd _)).trans (.makeReadyIf _ _ fd _)

lemma mem_active_of_makeEpollReady {fd p : FdPtr} {events : Finset EpollFlag}
    (h : p ∈ (makeEpollReady st fd events).active) : p ∈ st.active ∨ p = fd := by
  rcases mem_active_of_makeReadyIf h with h | h
  · rcases mem_active_of_makeReadyIf h with h | h
    · exact mem_active_of_makeReadyIf h
    · exact Or.inr h
  · exact Or.inr h

/-- What every report of a batch keeps. -/
def ReportKeeps (P : FdState EpollState → Prop) : Prop :=
  ∀ ⦃st num mask fd⦄, P st → st.method.interest num = some (mask, fd) →
    ∀ events, P (makeEpollReady st fd events)

lemma ReportKeeps.collect {P : FdState EpollState → Prop} (hkeeps : ReportKeeps P) (hst : P st)
    {batch : List (ℤ × Finset EpollFlag)} (h : collectEpoll st batch = some st') : P st' := by
  induction batch generalizing st with
  | nil => exact Option.some.inj h ▸ hst
  | cons event batch ih =>
    simp only [collectEpoll] at h
    split at h
    next hinterest => exact ih (hkeeps hst hinterest event.2) h
    next => cases h

/-- What every step of a poll keeps. -/
structure EpollKeeps (P : FdState EpollState → Prop) : Prop where
  start : ∀ ⦃st⦄, P st → P { st with active := [] }
  flush : ∀ ⦃st refused fd st'⦄, P st → fd ∈ st.method.notify →
    flushOne refused st fd = (false, st') → P st'
  report : ReportKeeps P

lemma EpollKeeps.poll {P : FdState EpollState → Prop} (hkeeps : EpollKeeps P) (hst : P st)
    {k : EpollPoll} {pc : DispatchPc} (hpoll : ivFdEpollPoll st k = some (st', pc)) : P st' := by
  cases k with
  | flush refused =>
    simp only [ivFdEpollPoll] at hpoll
    split at hpoll
    next => cases hpoll
    next fd rest hlist =>
      obtain ⟨st₁, hflush, heq⟩ := Option.map_eq_some_iff.mp hpoll
      obtain ⟨rfl, -⟩ := Prod.mk.inj heq
      exact hkeeps.flush hst (hlist ▸ List.mem_cons_self)
        (ivFdEpollFlushOne_eq_ok.mp (toOption_eq_some.mp hflush))
  | wait batch =>
    simp only [ivFdEpollPoll, Option.ite_none_right_eq_some] at hpoll
    obtain ⟨st₁, hcollect, heq⟩ := Option.map_eq_some_iff.mp hpoll.2
    obtain ⟨rfl, -⟩ := Prod.mk.inj heq
    exact hkeeps.report.collect (hkeeps.start hst) hcollect

/-- What is reported is registered, so that a round can handle it. -/
lemma EpollOk.collect_mem (h : EpollOk st T none) {batch : List (ℤ × Finset EpollFlag)}
    (hactive : ∀ p ∈ st.active, p ∈ T) (hcollect : collectEpoll st batch = some st') :
    ∀ p ∈ st'.active, p ∈ T := by
  have hkeeps : ReportKeeps fun st => EpollOk st T none ∧ ∀ p ∈ st.active, p ∈ T := by
    intro st num mask fd h hinterest events
    refine ⟨epoll_flushes.backend.same h.1 (makeEpollReady_sameRegs st fd events), fun p hp => ?_⟩
    rcases mem_active_of_makeEpollReady hp with hp | rfl
    · exact h.2 p hp
    · exact (EpollOk.known h.1 hinterest).1
  exact (hkeeps.collect ⟨h, hactive⟩ hcollect).2

lemma epollInv_init (fds : FdPtr → Fd) : BackendInv EpollOk (ivFdEpollInit fds) :=
  ⟨fdsOk_init _ _, .empty rfl fun _ _ => rfl, fun _ hcall => absurd hcall List.not_mem_nil⟩

lemma epoll_keeps : PollKeeps EpollOk ivFdEpollPoll := by
  intro st T k st' pc hfds hok hpoll
  have hkeeps : EpollKeeps fun st => FdsOk st T ∧ EpollOk st T none := by
    refine ⟨fun st h => epoll_flushes.backend.of_same h (.start st),
      fun st refused fd st' h hlist hflush => ?_, fun st num mask fd h _ events =>
        epoll_flushes.backend.of_same h (makeEpollReady_sameRegs st fd events)⟩
    have hcore := flushOne_core refused st fd
    rw [hflush] at hcore
    exact ⟨h.1.of_core hcore, ((epoll_flushes.flush h.2 hlist hflush).done rfl).1⟩
  exact hkeeps.poll ⟨hfds, hok⟩ hpoll

lemma epollInv_of_run {fds : FdPtr → Fd} {tr : List (LoopLabel EpollPoll)}
    {s : LoopState EpollState} (h : (epollLts fds).Run tr s) : BackendInv EpollOk s := by
  refine h.reachable.invariant (epollInv_init fds) fun s₁ a s₂ hinv hstep => ?_
  have hstep : LoopStep epollMethod ivFdEpollPoll s₁ a s₂ := .of_step hstep
  exact epoll_flushes.backend.loopStep epoll_keeps hinv hstep fun o _ => o.asks_true _

end Polling

/-! ### Lazy registration is as good as eager registration -/

/-- The interest set and the list of pending changes, between two calls. -/
structure EpollLazy (st : FdState EpollState) : Prop where
  /-- The kernel has a descriptor with its registered bands, if there are any. -/
  interest : ∀ p, (st.fds p).registered = true → st.method.interest (st.fds p).fd =
    if (st.fds p).registeredBands = ∅ then none
    else some (Epoll.bitsToPollMask (st.fds p).registeredBands, p)
  /-- The kernel has no other descriptors. -/
  known : ∀ num, (st.method.interest num).isSome = true →
    ∃ p, (st.fds p).registered = true ∧ (st.fds p).fd = num ∧ (st.fds p).registeredBands ≠ ∅
  notify : ∀ p, p ∈ st.method.notify ↔
    (st.fds p).registered = true ∧ (st.fds p).registeredBands ≠ (st.fds p).wantedBands
  /-- An operation has never been the wrong one. -/
  calls : ∀ call ∈ st.method.calls, call.op = .add ↔ call.present = false

/-- The interest set that eager registration would have led to. -/
def EpollEager (st : FdState EpollState) : Prop :=
  ∀ p, (st.fds p).registered = true →
    ((st.method.interest (st.fds p).fd).isSome = true ↔ ∃ band, (st.fds p).handler band ≠ none) ∧
    ∀ mask data, st.method.interest (st.fds p).fd = some (mask, data) → data = p ∧
      (.epollIn ∈ mask ↔ (st.fds p).handlerIn ≠ none) ∧
      (.epollOut ∈ mask ↔ (st.fds p).handlerOut ≠ none)

section Main

variable {fds : FdPtr → Fd} {tr : List (LoopLabel EpollPoll)} {s s' : LoopState EpollState}

lemma BackendInv.epollLazy (h : BackendInv EpollOk s) : EpollLazy s.st where
  interest p hp := h.backend.interest ((h.fds.mem_iff p).mpr hp)
  known num hnum := by
    obtain ⟨⟨event, p⟩, hp⟩ := Option.isSome_iff_exists.mp hnum
    obtain ⟨hmem, hfd, hbands⟩ := h.backend.known hp
    exact ⟨p, (h.fds.mem_iff p).mp hmem, hfd, hbands⟩
  notify p := by
    constructor
    · intro hp
      have hmem := h.backend.view.notify.listed p hp
      exact ⟨(h.fds.mem_iff p).mp hmem, h.backend.view.notify.pending p hp (by simp)⟩
    · rintro ⟨hreg, hne⟩
      by_contra hnot
      exact hne (h.backend.view.notify.unlisted p ((h.fds.mem_iff p).mpr hreg) (by simp) hnot)
  calls := h.backend.calls

lemma Epoll.mem_bitsToPollMask {bits : Finset Band} :
    (.epollIn ∈ bitsToPollMask bits ↔ .maskIn ∈ bits) ∧
      (.epollOut ∈ bitsToPollMask bits ↔ .maskOut ∈ bits) := by
  unfold bitsToPollMask
  split_ifs with hin hout hout <;> simp [hin, hout]

/-- Nothing is pending when `epoll_wait` is called. -/
lemma BackendInv.epollEager (h : BackendInv EpollOk s) (hnotify : s.st.method.notify = []) :
    EpollEager s.st := by
  intro p hp
  have hmem := (h.fds.mem_iff p).mpr hp
  have hbands : (s.st.fds p).registeredBands = (s.st.fds p).handlerBands := by
    have hlisted : p ∉ s.st.method.notify := by simp [hnotify]
    have hsettled : (s.st.fds p).registeredBands = (s.st.fds p).wantedBands :=
      h.backend.view.notify.unlisted p hmem (by simp) hlisted
    exact hsettled.trans (h.fds.wanted p hmem)
  rw [h.backend.interest hmem, epollEntry, hbands]
  by_cases hnone : (s.st.fds p).handlerBands = ∅
  · simp only [hnone, if_true]
    exact ⟨iff_of_false Bool.false_ne_true (Fd.handlerBands_eq_empty_iff.mp hnone), by simp⟩
  · simp only [hnone, if_false, Option.isSome_some, true_iff]
    refine ⟨not_not.mp (mt Fd.handlerBands_eq_empty_iff.mpr hnone), ?_⟩
    rintro mask data heq
    obtain ⟨rfl, rfl⟩ := Prod.mk.inj (Option.some.inj heq)
    refine ⟨rfl, ?_, ?_⟩
    · exact Epoll.mem_bitsToPollMask.1.trans Fd.mem_handlerBands
    · exact Epoll.mem_bitsToPollMask.2.trans Fd.mem_handlerBands

lemma BackendInv.epollFlush (h : BackendInv EpollOk s) (hpc : s.pc = .done)
    (hnotify : s.st.method.notify ≠ []) :
    (loopStep epollMethod ivFdEpollPoll s (.poll (.flush false))).isSome = true := by
  obtain ⟨fd, rest, hlist⟩ := List.exists_cons_of_ne_nil hnotify
  have hmem : fd ∈ s.st.method.notify := by simp [hlist]
  obtain ⟨st', hflush⟩ := epoll_flushes.flush_false h.backend hmem
  simp [loopStep, hpc, ivFdEpollPoll, hlist, ivFdEpollFlushOne_eq_ok.mpr hflush, Except.toOption]

/-- Lazy registration with the epoll method, for any calls, polls and events: the interest set is
what the registered bands say, the list holds the descriptors with a pending change, no operation is
the wrong one, and `epoll_wait` finds what the handlers ask for and reports registered descriptors.
A descriptor that is unregistered is gone. Neither a flush nor a call that the manual allows ends in
a fatal error. -/
theorem epoll_lazyRegistration (h : (epollLts fds).Run tr s) :
    EpollLazy s.st ∧
    (∀ batch s', (epollLts fds).step s (.poll (.wait batch)) = some s' → EpollEager s.st ∧
      ∀ p ∈ s'.st.active, (s'.st.fds p).registered = true) ∧
    (∀ p refused s', (epollLts fds).step s (.op (.unregister p refused)) = some s' →
      p ∉ s'.st.method.notify ∧ s'.st.method.interest (s'.st.fds p).fd = none) ∧
    (s.pc = .done → s.st.method.notify ≠ [] →
      ((epollLts fds).step s (.poll (.flush false))).isSome = true) ∧
    (∀ op : FdOp, s.pc = .done ∨ s.pc.inUser = true → op.valid s.st = true →
      op.distinct s.st s.regs = true → ((epollLts fds).step s (.op op)).isSome = true) := by
  have hinv := epollInv_of_run h
  refine ⟨hinv.epollLazy, ?_, ?_, hinv.epollFlush, ?_⟩
  · intro batch s' hstep
    have hstep : LoopStep epollMethod ivFdEpollPoll s (.poll (.wait batch)) s' := .of_step hstep
    have hinv' := epoll_flushes.backend.loopStep epoll_keeps hinv hstep fun o _ => o.asks_true _
    cases hstep with
    | poll hpc hpoll =>
      simp only [ivFdEpollPoll, Option.ite_none_right_eq_some] at hpoll
      obtain ⟨st, hcollect, hst⟩ := Option.map_eq_some_iff.mp hpoll.2
      obtain ⟨rfl, -⟩ := Prod.mk.inj hst
      have hstart : EpollOk { s.st with active := [] } s.regs none :=
        epoll_flushes.backend.congr hinv.backend rfl rfl
      refine ⟨hinv.epollEager hpoll.1, fun p hp => (hinv'.fds.mem_iff p).mp ?_⟩
      exact hstart.collect_mem (by simp) hcollect p hp
  · intro p refused s' hstep
    exact epoll_flushes.unregister_gone epoll_keeps hinv hstep
  · exact fun _ => epoll_flushes.op_isSome ivFdEpollPoll hinv

/-- A descriptor is registered with one handler, polled for, and unregistered. -/
def polledOnce : List (LoopLabel EpollPoll) :=
  [.op (.prepare 5 3 (some 1) none none), .op (.register 5), .poll (.flush false),
    .poll (.wait [(3, {.epollIn})]), .round .dispatch, .round (.take 5), .round (.skip 5 .maskErr),
    .round (.call 5 .maskIn), .op (.setHandler 5 .maskOut (some 2)), .op (.unregister 5 false)]

theorem epoll_lazyRegistration_polledOnce :
    ∃ s, (epollLts noFds).Run polledOnce s ∧ EpollLazy s.st :=
  Kit.Lts.exists_run_of_decide (fun _ => True) (by decide) fun _ hrun _ =>
    (epoll_lazyRegistration hrun).1

end Main

end Ivykis
