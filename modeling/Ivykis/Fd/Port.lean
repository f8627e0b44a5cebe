import Ivykis.Fd.Flush
import Ivykis.Kit.Lts

/-!
# The event port poll method (`iv_fd_port.c`)

A descriptor is associated with the port for one event only: the association is gone when the event
has been retrieved. The method then forgets the bands that it has registered and puts the descriptor
on its list of pending changes, so that it is associated again before the next round.
-/

namespace Ivykis

/-- `PORTEV_NUM`. -/
def portevNum : ℕ := 1024

/-- `st->u.port`, together with the associations that the kernel has for `port_fd`. -/
structure PortState where
  notify        : List FdPtr
  /-- The events and the `user` pointer of a descriptor. -/
  assoc         : ℤ → Option (Finset PollFlag × FdPtr)
  /-- The calls of `port_dissociate` so far, and whether the descriptor was associated. -/
  dissociations : List (ℤ × Bool)

/-- `bits_to_poll_mask`. -/
def Port.bitsToPollMask (bits : Finset Band) : Finset PollFlag :=
  (if .maskIn ∈ bits then {.pollIn} else ∅) ∪ (if .maskOut ∈ bits then {.pollOut} else ∅)

/-- `iv_list_del_init(&fd->list_notify)`. -/
@[simps]
def PortState.unnotify (port : PortState) (fd : FdPtr) : PortState :=
  { port with notify := port.notify.erase fd }

/-- `port_associate`, and whether it fails. The kernel may refuse. -/
def portAssociate (refused : Bool) (port : PortState) (fd : ℤ) (events : Finset PollFlag)
    (user : FdPtr) : Bool × PortState :=
  if refused then (true, port)
  else (false, { port with assoc := Function.update port.assoc fd (some (events, user)) })

/-- `port_dissociate`, and whether it fails: with `ENOENT`, or for another reason. -/
def portDissociate (refused : Bool) (port : PortState) (fd : ℤ) : Bool × PortState :=
  let port := { port with dissociations := (fd, (port.assoc fd).isSome) :: port.dissociations }
  if refused || (port.assoc fd).isNone then (true, port)
  else (false, { port with assoc := Function.update port.assoc fd none })

/-- `__iv_fd_port_upload_one`, and whether it fails. -/
def uploadOne (refused : Bool) (st : FdState PortState) (fd : FdPtr) :
    Bool × FdState PortState :=
  let f := st.fds fd
  let port := st.method.unnotify fd
  let (ret, port) :=
    if f.wantedBands ≠ ∅ then
      portAssociate refused port f.fd (Port.bitsToPollMask f.wantedBands) fd
    else portDissociate refused port f.fd
  let st := st.setMethod port
  if ret then (true, st)
  else (false, st.setFd fd fun f => { f with registeredBands := f.wantedBands })

/-- `iv_fd_port_upload_one`. -/
def ivFdPortUploadOne (refused : Bool) (st : FdState PortState) (fd : FdPtr) :
    Except Fault (FdState PortState) :=
  let (ret, st) := uploadOne refused st fd
  if ret then .error (.fatal "iv_fd_port_upload_one: got error") else .ok st

/-- `iv_fd_port_unregister_fd`. -/
def ivFdPortUnregisterFd (refused : Bool) (st : FdState PortState) (fd : FdPtr) :
    Except Fault (FdState PortState) :=
  if fd ∈ st.method.notify then ivFdPortUploadOne refused st fd else .ok st

/-- `iv_fd_port_notify_fd`. -/
def ivFdPortNotifyFd (st : FdState PortState) (fd : FdPtr) : FdState PortState :=
  st.setMethod { st.method with notify := renotify st.method.notify fd (st.fds fd) }

/-! ### The method -/

section Method

variable {refused : Bool} {st st' : FdState PortState} {fd : FdPtr}

lemma uploadOne_core (refused : Bool) (st : FdState PortState) (fd : FdPtr) :
    st.SameCore (uploadOne refused st fd).2 := by
  unfold uploadOne
  dsimp only
  split_ifs with hwanted hret hret
  · exact setMethod_core st _
  · exact (setMethod_core st _).trans (setRegistered_core _ fd _)
  · exact setMethod_core st _
  · exact (setMethod_core st _).trans (setRegistered_core _ fd _)

lemma ivFdPortUploadOne_eq_ok :
    ivFdPortUploadOne refused st fd = .ok st' ↔ uploadOne refused st fd = (false, st') := by
  unfold ivFdPortUploadOne
  rcases uploadOne refused st fd with ⟨_ | _, st₁⟩ <;> simp

lemma ivFdPortUnregisterFd_core (h : ivFdPortUnregisterFd refused st fd = .ok st') :
    st.SameCore st' := by
  unfold ivFdPortUnregisterFd at h
  split_ifs at h with hmem
  · have hcore := uploadOne_core refused st fd
    rwa [ivFdPortUploadOne_eq_ok.mp h] at hcore
  · exact Except.ok.inj h ▸ .refl st

/-- `iv_fd_poll_method_port`, which has no `register_fd`. -/
def portMethod : PollMethod PortState where
  registerFd st _ := .ok st
  unregisterFd := ivFdPortUnregisterFd
  notifyFd st fd := .ok (ivFdPortNotifyFd st fd)
  -- `iv_fd_port_notify_fd_sync`
  notifyFdSync refused st fd := .ok (uploadOne refused st fd)
  registerFd_core h := Except.ok.inj h ▸ .refl _
  unregisterFd_core := ivFdPortUnregisterFd_core
  notifyFd_core h := Except.ok.inj h ▸ setMethod_core _ _
  notifyFdSync_core {refused st p _ _} h := by
    have hcore := uploadOne_core refused st p
    rwa [Except.ok.inj h] at hcore

end Method

/-! ### Polling -/

/-- What `port_getn` retrieves, by its source. -/
inductive PortEvent where
  | fd (num : ℤ) (revents : Finset PollFlag)
  | timer
  | user
  deriving DecidableEq

/-- How a call of `port_getn` ends. -/
inductive PortGetn where
  /-- With events, possibly with `ETIME`. -/
  | events (batch : List PortEvent) (etime : Bool)
  /-- With `EINTR`. -/
  | interrupted
  deriving DecidableEq

/-- What `iv_fd_port_poll` keeps while it polls for more. -/
structure PortRound where
  st        : FdState PortState
  runTimers : Bool
  runEvents : Bool

/-- The association of a descriptor whose event has been retrieved is gone. -/
@[simps]
def PortState.retrieve (port : PortState) (num : ℤ) : PortState :=
  { port with assoc := Function.update port.assoc num none }

/-- What an event means for its descriptor. -/
def portReady (st : FdState PortState) (fd : FdPtr) (revents : Finset PollFlag) :
    FdState PortState :=
  let st := makePollReady st fd revents
  let st := st.setFd fd fun f => { f with registeredBands := ∅ }
  let port := st.method.unnotify fd
  if (st.fds fd).wantedBands ≠ ∅ then
    st.setMethod { port with notify := port.notify ++ [fd] }
  else st.setMethod port

/-- An event of a batch. The kernel retrieves what is associated, and has the descriptor from
there. -/
def portEvent (r : PortRound) : PortEvent → Option PortRound
  | .fd num revents =>
    match r.st.method.assoc num with
    | some (_, fd) =>
      some { r with st := portReady (r.st.setMethod (r.st.method.retrieve num)) fd revents }
    | none => none
  | .timer => some { r with runTimers := true }
  | .user  => some { r with runEvents := true }

/-- The loop over a batch. -/
def portBatch (r : PortRound) : List PortEvent → Option PortRound
  | []             => some r
  | event :: batch => (portEvent r event).bind fun r => portBatch r batch

/-- The loop of `iv_fd_port_poll` around `port_getn`, which is called once for each of the given
results. A batch that fills the array is followed by another call. The pending events are run if
`runEvents` is set at the end. -/
def portPollMore (r : PortRound) : List PortGetn → Option PortRound
  | [] => none
  | .interrupted :: results => if results = [] then some { r with runEvents := false } else none
  | .events batch etime :: results =>
    if batch.length ≤ portevNum then
      (portBatch { r with runTimers := r.runTimers || etime } batch).bind fun r =>
        if batch.length = portevNum then portPollMore { r with runTimers := true } results
        else if results = [] then some r
        else none
    else none

/-- A step of `iv_fd_port_poll`. -/
inductive PortPoll where
  /-- An iteration of `iv_fd_port_upload`. -/
  | upload (refused : Bool)
  /-- The calls of `port_getn`, of which the first one may have a timeout of zero. -/
  | getn (zero : Bool) (results : List PortGetn)
  deriving DecidableEq

/-- `iv_fd_port_poll`, step by step. -/
def ivFdPortPoll (st : FdState PortState) : PortPoll → Option (FdState PortState × DispatchPc)
  | .upload refused =>
    match st.method.notify with
    | []      => none
    | fd :: _ => (ivFdPortUploadOne refused st fd).toOption.map fun st => (st, .done)
  | .getn zero results =>
    if st.method.notify = [] then
      (portPollMore ⟨{ st with active := [] }, zero, false⟩ results).map fun r =>
        (r.st, if r.runEvents then .events else .loop)
    else none

/-- `iv_fd_port_init`, in a thread with descriptors of which none is registered. -/
def ivFdPortInit (fds : FdPtr → Fd) : LoopState PortState :=
  ivFdInit fds ⟨[], fun _ => none, []⟩

/-- A thread with the event port method. -/
def portLts (fds : FdPtr → Fd) : Kit.Lts (LoopState PortState) (LoopLabel PortPoll) where
  init := ivFdPortInit fds
  step := loopStep portMethod ivFdPortPoll

/-! ### What the port knows -/

/-- The association of a descriptor with some registered bands. -/
def portAssoc (p : FdPtr) (bands : Finset Band) : Option (Finset PollFlag × FdPtr) :=
  if bands = ∅ then none else some (Port.bitsToPollMask bands, p)

/-- How the method keeps its pending changes. It tells the port of every change of the bands, also
of those that make no difference to the mask: only equal bands are settled. -/
@[simps]
def portView : LazyView PortState (Option (Finset PollFlag × FdPtr)) where
  notify := PortState.notify
  kernel := PortState.assoc
  entry := portAssoc
  settled := ⊥
  entry_empty _ _ := rfl

/-- Nothing has been dissociated in vain. -/
def PortState.CallsOk (port : PortState) : Prop :=
  ∀ call ∈ port.dissociations, call.2 = true

/-- The port and the list of pending changes agree with the descriptors `T`. -/
abbrev PortOk (st : FdState PortState) (T : Finset FdPtr) (dirty : Option FdPtr) : Prop :=
  FlushOk portView PortState.CallsOk st T dirty

/-- An upload has taken the descriptor from the list and is about to call the kernel. -/
def FdState.asking (st : FdState PortState) (fd : FdPtr) : FdState PortState :=
  st.setMethod
    { st.method.unnotify fd with
      dissociations :=
        if (st.fds fd).wantedBands = ∅ then ((st.fds fd).fd, true) :: st.method.dissociations
        else st.method.dissociations }

/-- The kernel has been told of the wanted bands. -/
def FdState.told (st : FdState PortState) (fd : FdPtr) : FdState PortState :=
  (st.setMethod
    { st.method with
      assoc := Function.update st.method.assoc (st.fds fd).fd
        (portAssoc fd (st.fds fd).wantedBands) }).setFd fd
    fun f => { f with registeredBands := f.wantedBands }

/-- What an upload does if it dissociates only what is associated. -/
lemma uploadOne_eq {refused : Bool} {st : FdState PortState} {fd : FdPtr}
    (hassoc : (st.fds fd).wantedBands = ∅ → (st.method.assoc (st.fds fd).fd).isSome) :
    uploadOne refused st fd =
      if refused then (true, st.asking fd) else (false, (st.asking fd).told fd) := by
  by_cases hwanted : (st.fds fd).wantedBands = ∅
  · have hsome := hassoc hwanted
    have hnone : (st.method.assoc (st.fds fd).fd).isNone = false := by simpa using hsome
    cases refused <;>
      simp [uploadOne, hwanted, portDissociate, hsome, hnone, FdState.asking, FdState.told,
        PortState.unnotify, portAssoc]
  · cases refused <;>
      simp [uploadOne, hwanted, portAssociate, FdState.asking, FdState.told, PortState.unnotify,
        portAssoc]

namespace PortOk

variable {st st' : FdState PortState} {T : Finset FdPtr} {dirty : Option FdPtr} {fd : FdPtr}
  {refused ret : Bool}

lemma tell (h : PortOk st T (some fd)) (hmem : fd ∈ T) (hnot : fd ∉ st.method.notify) :
    PortOk (st.told fd) T none := by
  refine ⟨?_, h.calls⟩
  have htold : LazyOk portView (st.told fd) T (some fd) :=
    h.view.tell (Or.inr rfl) hmem rfl rfl rfl
  exact htold.settle hnot (by simp [FdState.told])

/-- An upload succeeds or leaves the port as it is: what it dissociates is associated. -/
lemma upload (h : PortOk st T dirty) (hdirty : dirty = none ∨ dirty = some fd) (hmem : fd ∈ T)
    (hknown : (st.fds fd).wantedBands = ∅ → (st.fds fd).registeredBands ≠ ∅)
    (hup : uploadOne refused st fd = (ret, st')) :
    Flushed portView PortState.CallsOk st T fd refused ret st' := by
  have hnot : fd ∉ st.method.notify.erase fd := h.view.notify.nodup.not_mem_erase
  have htold : st.method.assoc (st.fds fd).fd = portAssoc fd (st.fds fd).registeredBands :=
    h.view.kernel.told fd hmem
  rw [uploadOne_eq fun hwanted => by simp [htold, portAssoc, hknown hwanted]] at hup
  have hun : PortOk (st.asking fd) T (some fd) := by
    refine ⟨h.view.unnotify hdirty rfl rfl rfl, ?_⟩
    simp only [PortState.CallsOk, FdState.asking, FdState.setMethod_method]
    split_ifs
    · simpa [PortState.CallsOk] using h.calls
    · exact h.calls
  cases refused with
  | true =>
    obtain ⟨rfl, rfl⟩ := Prod.mk.inj hup
    exact ⟨hnot, fun _ => ⟨rfl, hun, rfl⟩, by simp⟩
  | false =>
    obtain ⟨rfl, rfl⟩ := Prod.mk.inj hup
    exact ⟨hnot, by simp, fun _ => ⟨hun.tell hmem hnot, by simp [FdState.told, FdState.asking]⟩⟩

end PortOk

/-- The event port method keeps the port in step. -/
lemma port_flushes : FlushLaws portMethod portView PortState.CallsOk uploadOne where
  settled := id
  register _ _ := rfl
  notify _ _ := ⟨_, rfl, rfl, rfl, id⟩
  sync _ _ _ := rfl
  unregister {refused st fd st'} hlist := by
    have hunreg : portMethod.unregisterFd refused st fd = ivFdPortUploadOne refused st fd :=
      if_pos hlist
    rw [hunreg]
    exact ivFdPortUploadOne_eq_ok
  leave hlist := if_neg hlist
  flushOne := PortOk.upload

/-! ### Retrieved events -/

section Retrieve

variable {st : FdState PortState} {T : Finset FdPtr} {num : ℤ} {events revents : Finset PollFlag}
  {fd : FdPtr} {r r' : PortRound}

/-- What is associated belongs to a registered descriptor. -/
lemma PortOk.known (h : PortOk st T none) (hassoc : st.method.assoc num = some (events, fd)) :
    fd ∈ T ∧ (st.fds fd).fd = num := by
  have hne : st.method.assoc num ≠ portAssoc fd ∅ := by simp [hassoc, portAssoc]
  obtain ⟨q, hq, rfl⟩ := h.view.kernel.known (p := fd) hne
  have htold : st.method.assoc (st.fds q).fd = portAssoc q (st.fds q).registeredBands :=
    h.view.kernel.told q hq
  rw [htold, portAssoc] at hassoc
  split_ifs at hassoc
  obtain rfl := (Prod.mk.inj (Option.some.inj hassoc)).2
  exact ⟨hq, rfl⟩

/-- The association is gone, and the descriptor is put on the list if it is still wanted. -/
lemma portReady_eq : portReady (st.setMethod (st.method.retrieve num)) fd revents =
    let st₁ := (makePollReady st fd revents).setFd fd fun f => { f with registeredBands := ∅ }
    st₁.setMethod { st.method.retrieve num with
      notify := renotify st.method.notify fd (st₁.fds fd) } := by
  simp only [portReady, makePollReady_setMethod, renotify]
  generalize makePollReady st fd revents = st₁
  split_ifs with hwanted hpending hpending
  · rfl
  · simp at hwanted hpending
    exact absurd hpending.symm hwanted
  · simp at hwanted hpending
    exact absurd hwanted.symm hpending
  · rfl

lemma PortOk.ready (h : PortOk st T none) (hassoc : st.method.assoc num = some (events, fd)) :
    PortOk (portReady (st.setMethod (st.method.retrieve num)) fd revents) T none := by
  obtain ⟨hmem, rfl⟩ := h.known hassoc
  have hsame := makePollReady_sameRegs st fd revents
  have hready : LazyOk portView (makePollReady st fd revents) T none := h.view.same hsame
  have hnum : ((makePollReady st fd revents).fds fd).fd = (st.fds fd).fd := by
    rw [hsame.fds fd]
  have hgone : LazyOk portView
      (((makePollReady st fd revents).setFd fd fun f => { f with registeredBands := ∅ }).setMethod
        (st.method.retrieve (st.fds fd).fd)) T (some fd) := by
    have hassoc' : (st.method.retrieve (st.fds fd).fd).assoc =
        Function.update st.method.assoc (st.fds fd).fd (portAssoc fd ∅) := rfl
    refine hready.tell (Or.inl rfl) hmem rfl ?_ ?_
    · simp [hsame.method]
    · rw [hnum, hsame.method]
      exact hassoc'
  rw [portReady_eq]
  exact ⟨hgone.renotify (Or.inr rfl) hmem rfl rfl rfl, h.calls⟩

lemma portReady_frame (st : FdState PortState) (method : PortState) (fd : FdPtr)
    (revents : Finset PollFlag) : ∃ st₁ st₂, st.SameCore st₁ ∧ SameRegs st₁ st₂ ∧
      st₂.SameCore (portReady (st.setMethod method) fd revents) := by
  refine ⟨_, _, setMethod_core st method, makePollReady_sameRegs _ fd revents, ?_⟩
  simp only [portReady]
  split_ifs
  · exact (setRegistered_core _ fd fun _ => ∅).trans (setMethod_core _ _)
  · exact (setRegistered_core _ fd fun _ => ∅).trans (setMethod_core _ _)

lemma portReady_fdsOk (h : FdsOk st T) (method : PortState) (fd : FdPtr)
    (revents : Finset PollFlag) : FdsOk (portReady (st.setMethod method) fd revents) T := by
  obtain ⟨st₁, st₂, hcore, hsame, hcore'⟩ := portReady_frame st method fd revents
  exact ((h.of_core hcore).of_same hsame).of_core hcore'

/-- What every retrieved event keeps. -/
def RetrieveKeeps (P : FdState PortState → Prop) : Prop :=
  ∀ ⦃st num events fd revents⦄, P st → st.method.assoc num = some (events, fd) →
    P (portReady (st.setMethod (st.method.retrieve num)) fd revents)

namespace RetrieveKeeps

variable {P : FdState PortState → Prop}

lemma event (hkeeps : RetrieveKeeps P) (h : P r.st) {event : PortEvent}
    (hevent : portEvent r event = some r') : P r'.st := by
  cases event with
  | fd num revents =>
    unfold portEvent at hevent
    dsimp only at hevent
    split at hevent
    next events fd hassoc =>
      obtain rfl := Option.some.inj hevent
      exact hkeeps h hassoc
    next => cases hevent
  | timer => exact Option.some.inj hevent ▸ h
  | user => exact Option.some.inj hevent ▸ h

lemma batch (hkeeps : RetrieveKeeps P) (h : P r.st) {batch : List PortEvent}
    (hbatch : portBatch r batch = some r') : P r'.st := by
  induction batch generalizing r with
  | nil => exact Option.some.inj hbatch ▸ h
  | cons event batch ih =>
    obtain ⟨r₁, hevent, hrest⟩ := Option.bind_eq_some_iff.mp hbatch
    exact ih (hkeeps.event h hevent) hrest

/-- All calls of `port_getn` of a poll keep it as well. -/
lemma pollMore (hkeeps : RetrieveKeeps P) (h : P r.st) {results : List PortGetn}
    (hpoll : portPollMore r results = some r') : P r'.st := by
  induction results generalizing r with
  | nil => cases hpoll
  | cons result results ih =>
    cases result with
    | events batch etime =>
      rw [portPollMore, Option.ite_none_right_eq_some] at hpoll
      obtain ⟨r₁, hbatch, hrest⟩ := Option.bind_eq_some_iff.mp hpoll.2
      have hstart : P ({ r with runTimers := r.runTimers || etime } : PortRound).st := h
      have hend : P r₁.st := hkeeps.batch hstart hbatch
      split_ifs at hrest
      · have hnext : P ({ r₁ with runTimers := true } : PortRound).st := hend
        exact ih hnext hrest
      · exact Option.some.inj hrest ▸ hend
    | interrupted =>
      unfold portPollMore at hpoll
      split_ifs at hpoll
      exact Option.some.inj hpoll ▸ h

end RetrieveKeeps

lemma portOk_retrieve (T : Finset FdPtr) : RetrieveKeeps fun st => FdsOk st T ∧ PortOk st T none :=
  fun _ _ _ _ _ h hassoc => ⟨portReady_fdsOk h.1 _ _ _, h.2.ready hassoc⟩

/-- What holds between the events of a round. -/
structure PortRound.Ok (r : PortRound) (T : Finset FdPtr) : Prop where
  fds : FdsOk r.st T
  port : PortOk r.st T none

lemma PortRound.Ok.event (h : r.Ok T) {event : PortEvent} (hevent : portEvent r event = some r') :
    r'.Ok T := by
  obtain ⟨hfds, hport⟩ := (portOk_retrieve T).event ⟨h.fds, h.port⟩ hevent
  exact ⟨hfds, hport⟩

end Retrieve

/-- What every step of a poll keeps. -/
structure PortKeeps (P : FdState PortState → Prop) : Prop where
  start : ∀ ⦃st⦄, P st → P { st with active := [] }
  upload : ∀ ⦃st refused fd st'⦄, P st → fd ∈ st.method.notify →
    uploadOne refused st fd = (false, st') → P st'
  retrieve : RetrieveKeeps P

lemma PortKeeps.poll {P : FdState PortState → Prop} {st st' : FdState PortState} {k : PortPoll}
    {pc : DispatchPc} (hkeeps : PortKeeps P) (hst : P st)
    (hpoll : ivFdPortPoll st k = some (st', pc)) : P st' := by
  cases k with
  | upload refused =>
    simp only [ivFdPortPoll] at hpoll
    split at hpoll
    next => cases hpoll
    next fd notify hnotify =>
      obtain ⟨st₁, hup, heq⟩ := Option.map_eq_some_iff.mp hpoll
      obtain ⟨rfl, -⟩ := Prod.mk.inj heq
      exact hkeeps.upload hst (hnotify ▸ List.mem_cons_self)
        (ivFdPortUploadOne_eq_ok.mp (toOption_eq_some.mp hup))
  | getn zero results =>
    simp only [ivFdPortPoll, Option.ite_none_right_eq_some] at hpoll
    obtain ⟨r, hmore, heq⟩ := Option.map_eq_some_iff.mp hpoll.2
    obtain ⟨rfl, -⟩ := Prod.mk.inj heq
    have hstart : P (⟨{ st with active := [] }, zero, false⟩ : PortRound).st := hkeeps.start hst
    exact hkeeps.retrieve.pollMore hstart hmore

lemma port_keeps : PollKeeps PortOk ivFdPortPoll := by
  intro st T k st' pc hfds hok hpoll
  have hkeeps : PortKeeps fun st => FdsOk st T ∧ PortOk st T none := by
    refine ⟨fun st h => port_flushes.backend.of_same h (.start st),
      fun st refused fd st' h hlist hup => ?_, portOk_retrieve T⟩
    have hcore := uploadOne_core refused st fd
    rw [hup] at hcore
    exact ⟨h.1.of_core hcore, ((port_flushes.flush h.2 hlist hup).done rfl).1⟩
  exact hkeeps.poll ⟨hfds, hok⟩ hpoll

/-! ### The port in every run -/

/-- A registered descriptor is associated with the port for the bands that are recorded as
registered, and waits on the list if they are not the wanted ones. -/
structure PortArmed (st : FdState PortState) : Prop where
  assoc : ∀ p, (st.fds p).registered = true → st.method.assoc (st.fds p).fd =
    if (st.fds p).registeredBands = ∅ then none
    else some (Port.bitsToPollMask (st.fds p).registeredBands, p)
  notify : ∀ p, (st.fds p).registered = true →
    (p ∈ st.method.notify ↔ (st.fds p).registeredBands ≠ (st.fds p).wantedBands)
  dissociations : ∀ call ∈ st.method.dissociations, call.2 = true
  gone : ∀ p, (st.fds p).registered = false → p ∉ st.method.notify ∧
    ∀ num events, st.method.assoc num ≠ some (events, p)

section Main

variable {fds : FdPtr → Fd} {tr : List (LoopLabel PortPoll)} {s s' : LoopState PortState}

lemma portInv_init (fds : FdPtr → Fd) : BackendInv PortOk (ivFdPortInit fds) :=
  ⟨fdsOk_init _ _, .empty rfl fun _ _ => rfl, fun _ hcall => absurd hcall List.not_mem_nil⟩

lemma portInv_of_run (h : (portLts fds).Run tr s) : BackendInv PortOk s := by
  refine h.reachable.invariant (portInv_init fds) fun s₁ a s₂ hinv hstep => ?_
  have hstep : LoopStep portMethod ivFdPortPoll s₁ a s₂ := .of_step hstep
  exact port_flushes.backend.loopStep port_keeps hinv hstep fun o _ => o.asks_true _

lemma BackendInv.portArmed (h : BackendInv PortOk s) : PortArmed s.st where
  assoc p hreg := h.backend.view.kernel.told p ((h.fds.mem_iff p).mpr hreg)
  notify p hreg := by
    refine ⟨fun hp => h.backend.view.notify.pending p hp (by simp), fun hne => ?_⟩
    by_contra hnot
    exact hne (h.backend.view.notify.unlisted p ((h.fds.mem_iff p).mpr hreg) (by simp) hnot)
  dissociations := h.backend.calls
  gone p hreg := by
    have hnot : p ∉ s.regs := by simp [h.fds.mem_iff, hreg]
    exact ⟨fun hp => hnot (h.backend.view.notify.listed p hp),
      fun num events hassoc => hnot (h.backend.known hassoc).1⟩

lemma BackendInv.portUpload (h : BackendInv PortOk s) (hpc : s.pc = .done)
    (hnotify : s.st.method.notify ≠ []) :
    (loopStep portMethod ivFdPortPoll s (.poll (.upload false))).isSome = true := by
  obtain ⟨fd, rest, hlist⟩ := List.exists_cons_of_ne_nil hnotify
  have hmem : fd ∈ s.st.method.notify := by simp [hlist]
  obtain ⟨st', hup⟩ := port_flushes.flush_false h.backend hmem
  simp [loopStep, hpc, ivFdPortPoll, hlist, ivFdPortUploadOne_eq_ok.mpr hup, Except.toOption]

/-- The event port method, for any calls, polls and events: a descriptor is associated for what is
recorded as registered, every change is pending, and nothing is dissociated in vain. When
`port_getn` is called first in a round, each descriptor is associated for its handlers. A descriptor
that is unregistered is gone. Neither an upload nor a call that the manual allows ends in a fatal
error, which a dissociation in vain does. -/
theorem portArmed_of_run (h : (portLts fds).Run tr s) :
    PortArmed s.st ∧
    (∀ zero results s', (portLts fds).step s (.poll (.getn zero results)) = some s' →
      ∀ p, (s.st.fds p).registered = true → (∃ band, (s.st.fds p).handler band ≠ none) →
        s.st.method.assoc (s.st.fds p).fd =
          some (Port.bitsToPollMask (s.st.fds p).wantedBands, p) ∧
        (s.st.fds p).wantedBands = (s.st.fds p).handlerBands) ∧
    (∀ p refused s', (portLts fds).step s (.op (.unregister p refused)) = some s' →
      p ∉ s'.st.method.notify ∧ s'.st.method.assoc (s'.st.fds p).fd = none) ∧
    (s.pc = .done → s.st.method.notify ≠ [] →
      ((portLts fds).step s (.poll (.upload false))).isSome = true) ∧
    (∀ op : FdOp, s.pc = .done ∨ s.pc.inUser = true → op.valid s.st = true →
      op.distinct s.st s.regs = true → ((portLts fds).step s (.op op)).isSome = true) := by
  have hinv := portInv_of_run h
  refine ⟨hinv.portArmed, fun zero results s' hstep p hreg hhandler => ?_, ?_, hinv.portUpload,
    fun _ => port_flushes.op_isSome ivFdPortPoll hinv⟩
  · have hnotify : s.st.method.notify = [] := by
      simp only [portLts, loopStep, ivFdPortPoll] at hstep
      split_ifs at hstep with hpc hnil
      · exact hnil
      · cases hstep
    have hwanted := hinv.fds.wanted p ((hinv.fds.mem_iff p).mpr hreg)
    have hbands : (s.st.fds p).registeredBands = (s.st.fds p).wantedBands := by
      by_contra hne
      have hlist := (hinv.portArmed.notify p hreg).mpr hne
      simp [hnotify] at hlist
    have hne : (s.st.fds p).wantedBands ≠ ∅ := by
      rw [hwanted, Ne, Fd.handlerBands_eq_empty_iff, not_not]
      exact hhandler
    refine ⟨?_, hwanted⟩
    rw [hinv.portArmed.assoc p hreg, hbands, if_neg hne]
  · intro p refused s' hstep
    exact port_flushes.unregister_gone port_keeps hinv hstep

/-- A descriptor is associated, and its event is retrieved. Then it gets another handler while the
first one is running, and is associated for both. -/
def rearmedOnce : List (LoopLabel PortPoll) :=
  [.op (.prepare 5 3 (some 1) none none), .op (.register 5), .poll (.upload false),
    .poll (.getn false [.events [.user, .fd 3 {.pollIn}] false]), .round .dispatch,
    .round (.take 5), .round (.skip 5 .maskErr), .round (.call 5 .maskIn),
    .op (.setHandler 5 .maskOut (some 2)), .round .ret, .round (.skip 5 .maskOut),
    .round .finish, .poll (.upload false)]

theorem portArmed_of_run_rearmedOnce :
    ∃ s, (portLts noFds).Run rearmedOnce s ∧
      s.st.method.assoc 3 = some ({.pollIn, .pollOut}, 5) ∧ PortArmed s.st := by
  refine Kit.Lts.exists_run_of_decide (·.st.method.assoc 3 = some ({.pollIn, .pollOut}, 5))
    (by decide) fun s hrun hassoc => ?_
  exact ⟨hassoc, (portArmed_of_run hrun).1⟩

end Main

end Ivykis
