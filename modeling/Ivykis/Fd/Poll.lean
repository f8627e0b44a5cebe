import Ivykis.Fd.Backend
import Ivykis.Kit.Lts

/-!
# The poll method (`iv_fd_poll.c`)

The descriptors that have a handler are kept in two arrays side by side, one for the kernel and one
for the method itself, and each of them has its index. When one is removed the last one takes its
place.

The arrays are memory that is indexed by integers: `iv_fd_poll_notify_fd` is also called for
descriptors without an index and without a handler, and then writes to the place before the first
one.
-/

namespace Ivykis

/-- `struct pollfd`. -/
structure PollFd where
  fd      : ℤ
  events  : Finset PollFlag
  revents : Finset PollFlag
  deriving DecidableEq

/-- `st->u.poll`, together with the indices of the descriptors. -/
structure PollState where
  pfds       : ℤ → PollFd
  fds        : ℤ → FdPtr
  numRegdFds : ℤ
  /-- `fd->u.index`. -/
  index      : FdPtr → ℤ

/-- `IV_FD_POLL_MAXFD`. -/
def ivFdPollMaxfd : ℤ := 65536

/-- `bits_to_poll_mask`. -/
def Poll.bitsToPollMask (bits : Finset Band) : Finset PollFlag :=
  (if .maskIn ∈ bits then {.pollIn, .pollHup} else ∅) ∪
    (if .maskOut ∈ bits then {.pollOut, .pollHup} else ∅) ∪
    (if .maskErr ∈ bits then {.pollHup} else ∅)

namespace PollState

@[simps numRegdFds pfds fds]
def setIndex (poll : PollState) (fd : FdPtr) (index : ℤ) : PollState :=
  { poll with index := Function.update poll.index fd index }

/-- `pfds[index].events` is set. -/
@[simps numRegdFds fds index]
def setEvents (poll : PollState) (index : ℤ) (events : Finset PollFlag) : PollState :=
  { poll with pfds := Function.update poll.pfds index { poll.pfds index with events := events } }

/-- A descriptor is added behind the last one. -/
def add (poll : PollState) (fd : FdPtr) (num : ℤ) (events : Finset PollFlag) : PollState :=
  let index := poll.numRegdFds
  { numRegdFds := poll.numRegdFds + 1
    pfds       := Function.update poll.pfds index
      { poll.pfds index with fd := num, events := events }
    fds        := Function.update poll.fds index fd
    index      := Function.update poll.index fd index }

/-- A descriptor is removed, and the last one takes its place. -/
def remove (poll : PollState) (fd : FdPtr) : PollState :=
  let numRegdFds := poll.numRegdFds - 1
  let index := poll.index fd
  let poll := { poll with numRegdFds := numRegdFds }
  let poll :=
    if index ≠ numRegdFds then
      let last := poll.fds numRegdFds
      { poll with
        pfds  := Function.update poll.pfds index (poll.pfds numRegdFds)
        index := Function.update poll.index last index
        fds   := Function.update poll.fds index last }
    else poll
  poll.setIndex fd (-1)

end PollState

/-- `iv_fd_poll_register_fd`. -/
def ivFdPollRegisterFd (st : FdState PollState) (fd : FdPtr) : Except Fault (FdState PollState) :=
  if (st.fds fd).fd ≥ ivFdPollMaxfd then
    .error (.fatal "iv_fd_poll_register_fd: called with fd")
  else .ok (st.setMethod (st.method.setIndex fd (-1)))

/-- `iv_fd_poll_notify_fd`. -/
def ivFdPollNotifyFd (st : FdState PollState) (fd : FdPtr) : FdState PollState :=
  let poll := st.method
  let f := st.fds fd
  if poll.index fd = -1 ∧ f.wantedBands ≠ ∅ then
    st.setMethod (poll.add fd f.fd (Poll.bitsToPollMask f.wantedBands))
  else if poll.index fd ≠ -1 ∧ f.wantedBands = ∅ then st.setMethod (poll.remove fd)
  else st.setMethod (poll.setEvents (poll.index fd) (Poll.bitsToPollMask f.wantedBands))

/-- `iv_fd_poll_notify_fd_sync`, and whether it fails. `refused` says that the kernel does not know
the descriptor. -/
def ivFdPollNotifyFdSync (refused : Bool) (st : FdState PollState) (fd : FdPtr) :
    Bool × FdState PollState :=
  if refused then (true, st) else (false, ivFdPollNotifyFd st fd)

section Method

variable {st st' : FdState PollState} {fd : FdPtr}

lemma ivFdPollRegisterFd_eq_ok (h : ivFdPollRegisterFd st fd = .ok st') :
    st' = st.setMethod (st.method.setIndex fd (-1)) := by
  unfold ivFdPollRegisterFd at h
  split_ifs at h
  exact (Except.ok.inj h).symm

lemma ivFdPollNotifyFd_core (st : FdState PollState) (fd : FdPtr) :
    st.SameCore (ivFdPollNotifyFd st fd) := by
  unfold ivFdPollNotifyFd
  dsimp only
  split_ifs
  · exact setMethod_core st _
  · exact setMethod_core st _
  · exact setMethod_core st _

lemma ivFdPollNotifyFdSync_core {refused ret : Bool}
    (h : ivFdPollNotifyFdSync refused st fd = (ret, st')) : st.SameCore st' := by
  unfold ivFdPollNotifyFdSync at h
  split_ifs at h
  · exact (Prod.mk.inj h).2 ▸ .refl st
  · exact (Prod.mk.inj h).2 ▸ ivFdPollNotifyFd_core st fd

/-- `iv_fd_poll_method_poll`, which has no `unregister_fd`. -/
def pollMethod : PollMethod PollState where
  registerFd := ivFdPollRegisterFd
  unregisterFd _ st _ := .ok st
  notifyFd st fd := .ok (ivFdPollNotifyFd st fd)
  notifyFdSync refused st fd := .ok (ivFdPollNotifyFdSync refused st fd)
  registerFd_core h := ivFdPollRegisterFd_eq_ok h ▸ setMethod_core _ _
  unregisterFd_core h := Except.ok.inj h ▸ .refl _
  notifyFd_core h := Except.ok.inj h ▸ ivFdPollNotifyFd_core _ _
  notifyFdSync_core h := ivFdPollNotifyFdSync_core (Except.ok.inj h)

end Method

/-! ### Polling -/

/-- How `poll` returns. -/
inductive PollAnswer where
  /-- What it has found for each descriptor. -/
  | events (revents : ℤ → Finset PollFlag)
  | interrupted

/-- The kernel fills in `revents` of the first `num_regd_fds` entries. -/
@[simps numRegdFds fds index]
def PollState.answer (poll : PollState) (revents : ℤ → Finset PollFlag) : PollState :=
  { poll with
    pfds := fun i =>
      if 0 ≤ i ∧ i < poll.numRegdFds then
        { poll.pfds i with revents := revents (poll.pfds i).fd }
      else poll.pfds i }

/-- The first `n` rounds of the loop of `iv_fd_poll_activate_fds`. -/
def activateFds (st : FdState PollState) (n : ℕ) : FdState PollState :=
  (List.range n).foldl
    (fun st (i : ℕ) => makePollReady st (st.method.fds i) (st.method.pfds i).revents) st

/-- `iv_fd_poll_activate_fds`. -/
def ivFdPollActivateFds (st : FdState PollState) : FdState PollState :=
  activateFds st st.method.numRegdFds.toNat

/-- `iv_fd_poll_poll`, and `iv_fd_poll_ppoll`. -/
def ivFdPollPoll (st : FdState PollState) :
    PollAnswer → Option (FdState PollState × DispatchPc)
  | .events revents =>
    some (ivFdPollActivateFds
      ({ st with active := [] }.setMethod (st.method.answer revents)), .events)
  | .interrupted => some ({ st with active := [] }, .events)

/-- `iv_fd_poll_init`, in a thread with descriptors of which none is registered. The memory of the
arrays and the indices have any contents. -/
def ivFdPollInit (fds : FdPtr → Fd) (poll : PollState) : LoopState PollState :=
  ivFdInit fds { poll with numRegdFds := 0 }

/-- A thread with the poll method. -/
def pollLts (fds : FdPtr → Fd) (poll : PollState) :
    Kit.Lts (LoopState PollState) (LoopLabel PollAnswer) where
  init := ivFdPollInit fds poll
  step := loopStep pollMethod ivFdPollPoll

/-! ### The arrays -/

/-- The arrays hold descriptors of `T` and know where they are. The bands of `dirty` may have
changed without the arrays being told. -/
structure PollOk (st : FdState PollState) (T : Finset FdPtr) (dirty : Option FdPtr) : Prop where
  nonneg : 0 ≤ st.method.numRegdFds
  entry : ∀ i, 0 ≤ i → i < st.method.numRegdFds → st.method.fds i ∈ T ∧
    st.method.index (st.method.fds i) = i ∧
    (st.method.pfds i).fd = (st.fds (st.method.fds i)).fd
  index : ∀ p ∈ T, st.method.index p ≠ -1 → 0 ≤ st.method.index p ∧
    st.method.index p < st.method.numRegdFds ∧ st.method.fds (st.method.index p) = p
  wanted : ∀ p ∈ T, dirty ≠ some p → (st.method.index p = -1 ↔ (st.fds p).wantedBands = ∅)
  events : ∀ p ∈ T, dirty ≠ some p → st.method.index p ≠ -1 →
    (st.method.pfds (st.method.index p)).events = Poll.bitsToPollMask (st.fds p).wantedBands

namespace PollOk

variable {st st' : FdState PollState} {T : Finset FdPtr} {dirty : Option FdPtr} {fd : FdPtr}

/-- A change of the descriptors that leaves the arrays alone. -/
lemma of_fds (h : PollOk st T dirty) {T' : Finset FdPtr} {dirty' : Option FdPtr}
    (hmethod : st'.method = st.method) (hsub : T' ⊆ T)
    (hkeep : ∀ p ∈ T, st.method.index p ≠ -1 → p ∈ T')
    (hnum : ∀ p ∈ T, (st'.fds p).fd = (st.fds p).fd)
    (hdirty : ∀ p ∈ T', dirty' ≠ some p → dirty ≠ some p ∧
      (st'.fds p).wantedBands = (st.fds p).wantedBands) : PollOk st' T' dirty' := by
  constructor
  all_goals rw [hmethod]
  case nonneg => exact h.nonneg
  case entry =>
    intro i h0 hi
    obtain ⟨hmem, hindex, hfd⟩ := h.entry i h0 hi
    refine ⟨hkeep _ hmem (by omega), hindex, ?_⟩
    rw [hnum _ hmem, hfd]
  case index => exact fun p hp => h.index p (hsub hp)
  case wanted =>
    intro p hp hne
    rw [(hdirty p hp hne).2]
    exact h.wanted p (hsub hp) (hdirty p hp hne).1
  case events =>
    intro p hp hne
    rw [(hdirty p hp hne).2]
    exact h.events p (hsub hp) (hdirty p hp hne).1

lemma congr (h : PollOk st T dirty) (hfds : st'.fds = st.fds) (hmethod : st'.method = st.method) :
    PollOk st' T dirty :=
  h.of_fds hmethod subset_rfl (fun _ hp _ => hp) (fun _ _ => by rw [hfds])
    fun _ _ hne => ⟨hne, by rw [hfds]⟩

lemma of_same (h : PollOk st T dirty) (hsame : SameRegs st st') : PollOk st' T dirty :=
  h.of_fds hsame.method subset_rfl (fun _ hp _ => hp) (fun p _ => by rw [hsame.fds p])
    fun p _ hne => ⟨hne, by rw [hsame.fds p]⟩

lemma prepare (h : PollOk st T none) (hmem : fd ∉ T) (f : Fd → Fd) :
    PollOk (st.setFd fd f) T none := by
  have hfds : ∀ p ∈ T, (st.setFd fd f).fds p = st.fds p := by
    intro p hp
    have hne : p ≠ fd := fun heq => hmem (heq ▸ hp)
    simp [hne]
  exact h.of_fds rfl subset_rfl (fun _ hp _ => hp) (fun p hp => by rw [hfds p hp])
    fun p hp hne => ⟨hne, by rw [hfds p hp]⟩

lemma change (h : PollOk st T dirty) (hdirty : dirty = none ∨ dirty = some fd) {f : Fd → Fd}
    (hf : Unheard f (st.fds fd)) : PollOk (st.setFd fd f) T (some fd) := by
  refine h.of_fds rfl subset_rfl (fun _ hp _ => hp) (fun p _ => ?_) fun p _ hne => ?_
  · by_cases hp : p = fd
    · subst hp
      simpa using hf.num
    · simp [hp]
  · have hp : p ≠ fd := fun heq => hne (heq ▸ rfl)
    refine ⟨?_, by simp [hp]⟩
    rcases hdirty with rfl | rfl
    · simp
    · exact hne

/-- A descriptor without an index can be forgotten. -/
lemma forget (h : PollOk st T dirty) (hdirty : dirty = none ∨ dirty = some fd)
    (hindex : st.method.index fd = -1) : PollOk st (T.erase fd) none := by
  refine h.of_fds rfl (Finset.erase_subset fd T) (fun p hp hne => ?_) (fun _ _ => rfl)
    fun p hp _ => ⟨?_, rfl⟩
  · exact Finset.mem_erase.mpr ⟨fun heq => hne (heq ▸ hindex), hp⟩
  · rcases hdirty with rfl | rfl
    · simp
    · simpa using Ne.symm (Finset.ne_of_mem_erase hp)

/-- A new descriptor has no index. -/
lemma enrol (h : PollOk st T none) (hmem : fd ∉ T)
    (henrol : ivFdPollRegisterFd (st.enrol fd) fd = .ok st') :
    PollOk st' (insert fd T) (some fd) ∧ st'.method.index fd = -1 := by
  have hst' := ivFdPollRegisterFd_eq_ok henrol
  have hmethod : st'.method = st.method.setIndex fd (-1) := by
    rw [hst']
    rfl
  have hne : ∀ p ∈ T, p ≠ fd := fun p hp heq => hmem (heq ▸ hp)
  have hself : st'.method.index fd = -1 := by simp [hmethod, PollState.setIndex]
  have hindex : ∀ p ∈ T, st'.method.index p = st.method.index p :=
    fun p hp => by simp [hmethod, PollState.setIndex, hne p hp]
  have hfds : ∀ p ∈ T, st'.fds p = st.fds p := fun p hp => by
    simp [hst', FdState.enrol, hne p hp]
  have hold : ∀ p ∈ insert fd T, some fd ≠ some p → p ∈ T :=
    fun p hp hpne => Finset.mem_of_mem_insert_of_ne hp fun heq => hpne (heq ▸ rfl)
  refine ⟨?_, hself⟩
  constructor
  case nonneg => simpa [hmethod] using h.nonneg
  case entry =>
    intro i h0 hi
    obtain ⟨hp, hpindex, hfd⟩ := h.entry i h0 (by simpa [hmethod] using hi)
    have harr : st'.method.fds i = st.method.fds i := by simp [hmethod]
    rw [harr, hindex _ hp, hfds _ hp]
    exact ⟨Finset.mem_insert_of_mem hp, hpindex, by simpa [hmethod] using hfd⟩
  case index =>
    intro p hp hpne
    have hpT : p ∈ T := by
      refine Finset.mem_of_mem_insert_of_ne hp ?_
      rintro rfl
      exact hpne hself
    rw [hindex p hpT] at hpne ⊢
    simpa [hmethod] using h.index p hpT hpne
  case wanted =>
    intro p hp hpne
    have hpT := hold p hp hpne
    rw [hindex p hpT, hfds p hpT]
    exact h.wanted p hpT (by simp)
  case events =>
    intro p hp hpne
    have hpT := hold p hp hpne
    rw [hindex p hpT, hfds p hpT]
    simpa [hmethod] using h.events p hpT (by simp)

lemma index_inj (h : PollOk st T dirty) {p q : FdPtr} (hp : p ∈ T) (hq : q ∈ T)
    (hne : st.method.index p ≠ -1) (heq : st.method.index p = st.method.index q) : p = q := by
  rw [← (h.index p hp hne).2.2, heq, (h.index q hq (heq ▸ hne)).2.2]

/-- A descriptor is added behind the last one. -/
lemma add (h : PollOk st T (some fd)) (hmem : fd ∈ T) (hindex : st.method.index fd = -1)
    (hwanted : (st.fds fd).wantedBands ≠ ∅) :
    PollOk (st.setMethod (st.method.add fd (st.fds fd).fd
      (Poll.bitsToPollMask (st.fds fd).wantedBands))) T none := by
  have hnonneg := h.nonneg
  have hother : ∀ p ≠ fd, (st.method.add fd (st.fds fd).fd
      (Poll.bitsToPollMask (st.fds fd).wantedBands)).index p = st.method.index p :=
    fun p hp => Function.update_of_ne hp _ _
  have hold {p : FdPtr} (hp : p ∈ T) (hpne : st.method.index p ≠ -1) :
      st.method.index p ≠ st.method.numRegdFds := (h.index p hp hpne).2.1.ne
  constructor
  case nonneg => exact Int.add_nonneg hnonneg Int.one_nonneg
  case entry =>
    intro i h0 hi
    simp only [FdState.setMethod_method, FdState.setMethod_fds, PollState.add] at hi ⊢
    by_cases hlast : i = st.method.numRegdFds
    · subst hlast
      simp [hmem]
    · obtain ⟨hp, hpindex, hfd⟩ := h.entry i h0 (by omega)
      have hpne : st.method.fds i ≠ fd := by
        rintro heq
        rw [heq, hindex] at hpindex
        omega
      simp only [Function.update_of_ne hlast, Function.update_of_ne hpne]
      exact ⟨hp, hpindex, hfd⟩
  case index =>
    intro p hp hpne
    by_cases hpfd : p = fd
    · subst hpfd
      simp only [FdState.setMethod_method, PollState.add, Function.update_self, and_true]
      omega
    · rw [FdState.setMethod_method, hother p hpfd] at hpne ⊢
      obtain ⟨h0, hlt, harr⟩ := h.index p hp hpne
      simp only [PollState.add, Function.update_of_ne (hold hp hpne)]
      exact ⟨h0, by omega, harr⟩
  case wanted =>
    intro p hp _
    by_cases hpfd : p = fd
    · subst hpfd
      simp only [FdState.setMethod_method, PollState.add, Function.update_self]
      exact iff_of_false (by omega) hwanted
    · rw [FdState.setMethod_method, hother p hpfd]
      exact h.wanted p hp (by simpa using Ne.symm hpfd)
  case events =>
    intro p hp _ hpne
    by_cases hpfd : p = fd
    · subst hpfd
      simp [PollState.add]
    · rw [FdState.setMethod_method, hother p hpfd] at hpne ⊢
      simp only [PollState.add, Function.update_of_ne (hold hp hpne)]
      exact h.events p hp (by simpa using Ne.symm hpfd) hpne

/-- What `remove` does to the descriptor in the last place. -/
lemma remove_eq (h : PollOk st T dirty) (hmem : fd ∈ T) (hindex : st.method.index fd ≠ -1) :
    (st.method.remove fd).numRegdFds = st.method.numRegdFds - 1 ∧
    (∀ i < st.method.numRegdFds - 1, (st.method.remove fd).fds i =
      st.method.fds (if i = st.method.index fd then st.method.numRegdFds - 1 else i)) ∧
    (∀ i < st.method.numRegdFds - 1, (st.method.remove fd).pfds i =
      st.method.pfds (if i = st.method.index fd then st.method.numRegdFds - 1 else i)) ∧
    ∀ p ∈ T, (st.method.remove fd).index p = if p = fd then -1
      else if st.method.index p = st.method.numRegdFds - 1 then st.method.index fd
      else st.method.index p := by
  obtain ⟨h0, hlt, harr⟩ := h.index fd hmem hindex
  unfold PollState.remove
  dsimp only
  split_ifs with hlast
  · refine ⟨rfl, fun i _ => ?_, fun i _ => ?_, fun p hp => ?_⟩
    · by_cases hi : i = st.method.index fd <;> simp [hi]
    · by_cases hi : i = st.method.index fd <;> simp [hi]
    · have hp' : p = st.method.fds (st.method.numRegdFds - 1) ↔
          st.method.index p = st.method.numRegdFds - 1 := by
        constructor
        · rintro rfl
          exact (h.entry _ (by omega) (by omega)).2.1
        · intro heq
          rw [← heq, (h.index p hp (by omega)).2.2]
      by_cases hpfd : p = fd
      · simp [PollState.setIndex, hpfd]
      · simp [PollState.setIndex, hpfd, Function.update_apply, hp']
  · refine ⟨rfl, fun i hi => ?_, fun i hi => ?_, fun p hp => ?_⟩
    · simp [show i ≠ st.method.index fd by omega]
    · simp [show i ≠ st.method.index fd by omega]
    · by_cases hpfd : p = fd
      · simp [PollState.setIndex, hpfd]
      · have hpne : st.method.index p ≠ st.method.numRegdFds - 1 := fun heq =>
          hpfd (h.index_inj hp hmem (by omega) (by omega))
        simp [PollState.setIndex, hpfd, hpne]

/-- A descriptor is removed, and the last one takes its place. -/
lemma remove (h : PollOk st T (some fd)) (hmem : fd ∈ T) (hindex : st.method.index fd ≠ -1)
    (hwanted : (st.fds fd).wantedBands = ∅) :
    PollOk (st.setMethod (st.method.remove fd)) T none := by
  obtain ⟨hnum, hfds, hpfds, hindices⟩ := h.remove_eq hmem hindex
  obtain ⟨h0, hlt, harr⟩ := h.index fd hmem hindex
  -- where the entry at `i` comes from
  have hfrom : ∀ i, 0 ≤ i → i < st.method.numRegdFds - 1 → ∃ j, 0 ≤ j ∧
      j < st.method.numRegdFds ∧ j ≠ st.method.index fd ∧
      j = (if i = st.method.index fd then st.method.numRegdFds - 1 else i) := by
    intro i hi0 hi
    split_ifs with heq
    · exact ⟨_, by omega, by omega, by omega, rfl⟩
    · exact ⟨i, hi0, by omega, heq, rfl⟩
  -- where the entry of `p` goes to
  have hto : ∀ p ∈ T, p ≠ fd → st.method.index p ≠ -1 →
      (0 ≤ (st.method.remove fd).index p ∧
        (st.method.remove fd).index p < st.method.numRegdFds - 1) ∧
      (if (st.method.remove fd).index p = st.method.index fd then st.method.numRegdFds - 1
        else (st.method.remove fd).index p) = st.method.index p := by
    intro p hp hpfd hpne
    have hpindex := h.index p hp hpne
    have hdiff : st.method.index p ≠ st.method.index fd := fun heq =>
      hpfd (h.index_inj hp hmem hpne heq)
    rw [hindices p hp, if_neg hpfd]
    split_ifs <;> omega
  constructor
  all_goals simp only [FdState.setMethod_method, FdState.setMethod_fds]
  case nonneg => omega
  case entry =>
    intro i hi0 hi
    obtain ⟨j, hj0, hj, hjne, hjeq⟩ := hfrom i hi0 (by omega)
    obtain ⟨hp, hpindex, hfd⟩ := h.entry j hj0 hj
    have hpfd : st.method.fds j ≠ fd := fun heq => hjne (hpindex.symm.trans (by rw [heq]))
    rw [hfds i (by omega), hpfds i (by omega), ← hjeq, hindices _ hp, if_neg hpfd, hpindex]
    refine ⟨hp, ?_, hfd⟩
    split_ifs at hjeq ⊢ <;> omega
  case index =>
    intro p hp hpne
    have hpfd : p ≠ fd := by
      rintro rfl
      exact hpne (by rw [hindices p hp, if_pos rfl])
    have hold : st.method.index p ≠ -1 := by
      rw [hindices p hp, if_neg hpfd] at hpne
      split_ifs at hpne <;> omega
    obtain ⟨⟨hi0, hi⟩, hfromp⟩ := hto p hp hpfd hold
    refine ⟨hi0, by omega, ?_⟩
    rw [hfds _ hi, hfromp]
    exact (h.index p hp hold).2.2
  case wanted =>
    intro p hp _
    by_cases hpfd : p = fd
    · subst hpfd
      rw [hindices p hp, if_pos rfl]
      exact iff_of_true rfl hwanted
    · rw [← h.wanted p hp (by simpa using Ne.symm hpfd), hindices p hp, if_neg hpfd]
      split_ifs <;> omega
  case events =>
    intro p hp _ hpne
    have hpfd : p ≠ fd := by
      rintro rfl
      exact hpne (by rw [hindices p hp, if_pos rfl])
    have hold : st.method.index p ≠ -1 := by
      rw [hindices p hp, if_neg hpfd] at hpne
      split_ifs at hpne <;> omega
    obtain ⟨⟨hi0, hi⟩, hfromp⟩ := hto p hp hpfd hold
    rw [hpfds _ hi, hfromp]
    exact h.events p hp (by simpa using Ne.symm hpfd) hold

/-- The events of a descriptor are changed in place. If it has no index, and no handler either, a
place before the array is written to. -/
lemma setEvents (h : PollOk st T (some fd)) (hmem : fd ∈ T)
    (hwanted : st.method.index fd = -1 ↔ (st.fds fd).wantedBands = ∅) :
    PollOk (st.setMethod (st.method.setEvents (st.method.index fd)
      (Poll.bitsToPollMask (st.fds fd).wantedBands))) T none := by
  have hclean : ∀ p ≠ fd, some fd ≠ some p := fun p hp => by simpa using Ne.symm hp
  constructor
  case nonneg => exact h.nonneg
  case entry =>
    intro i hi0 hi
    obtain ⟨hp, hpindex, hfd⟩ := h.entry i hi0 hi
    refine ⟨hp, hpindex, ?_⟩
    simp only [FdState.setMethod_method, PollState.setEvents]
    by_cases heq : i = st.method.index fd
    · subst heq
      simpa using hfd
    · simpa [heq] using hfd
  case index => exact h.index
  case wanted =>
    intro p hp _
    by_cases hpfd : p = fd
    · exact hpfd ▸ hwanted
    · exact h.wanted p hp (hclean p hpfd)
  case events =>
    intro p hp _ hpne
    simp only [FdState.setMethod_method, PollState.setEvents] at hpne ⊢
    by_cases hpfd : p = fd
    · subst hpfd
      simp
    · have hdiff : st.method.index p ≠ st.method.index fd := fun heq =>
        hpfd (h.index_inj hp hmem hpne heq)
      rw [Function.update_of_ne hdiff]
      exact h.events p hp (hclean p hpfd) hpne

/-- `iv_fd_poll_notify_fd` settles what has been changed. -/
lemma notifyFd (h : PollOk st T (some fd)) (hmem : fd ∈ T) :
    PollOk (ivFdPollNotifyFd st fd) T none := by
  unfold ivFdPollNotifyFd
  dsimp only
  split_ifs with hadd hremove
  · exact h.add hmem hadd.1 hadd.2
  · exact h.remove hmem hremove.1 hremove.2
  · refine h.setEvents hmem ?_
    by_cases hindex : st.method.index fd = -1
    · exact iff_of_true hindex (not_not.mp fun hne => hadd ⟨hindex, hne⟩)
    · exact iff_of_false hindex fun hnone => hremove ⟨hindex, hnone⟩

lemma ask (h : PollOk st T (some fd)) : PollOk (st.ask fd) T (some fd) :=
  FdState.ask_keeps (P := fun st => PollOk st T (some fd)) (fun h hf => h.change (Or.inr rfl) hf) h

lemma weaken (h : PollOk st T none) : PollOk st T dirty :=
  ⟨h.nonneg, h.entry, h.index, fun p hp _ => h.wanted p hp (by simp),
    fun p hp _ => h.events p hp (by simp)⟩

end PollOk

/-- The poll method keeps its arrays in order, also if two descriptors have the same number. -/
lemma poll_methodLaws : MethodLaws pollMethod PollOk FreshFd fun _ => True where
  congr := PollOk.congr
  same := PollOk.of_same
  prepare h hmem f := h.prepare hmem f
  change h hdirty _ hf := h.change hdirty hf
  enrol h hnew henrol := (h.enrol hnew.notMem henrol).1
  notify {st T fd st'} h hmem hnotify := by
    obtain rfl := Except.ok.inj hnotify
    exact h.notifyFd hmem
  sync {st T fd st₁ refused st₂} h hnew henrol hsync := by
    have hok := (h.enrol hnew.notMem henrol).1.ask
    cases refused with
    | true => cases hsync
    | false =>
      obtain rfl := (Prod.mk.inj (Except.ok.inj hsync)).2
      have hdone := hok.notifyFd (Finset.mem_insert_self fd T)
      exact ⟨hdone.weaken, fun _ _ => hdone⟩
  syncFailed {st T fd st₁ refused st₂ st₃} h hnew henrol hsync hunreg := by
    obtain ⟨hok, hindex⟩ := h.enrol hnew.notMem henrol
    cases refused with
    | true =>
      obtain rfl := (Prod.mk.inj (Except.ok.inj hsync)).2
      obtain rfl := Except.ok.inj hunreg
      have hset := hok.ask.change (Or.inr rfl) (f := fun f => { f with registered := false })
        ⟨rfl, rfl⟩
      have hforget := hset.forget (Or.inr rfl)
        (by rw [FdState.setFd_method, FdState.ask_method, hindex])
      rwa [Finset.erase_insert hnew.notMem] at hforget
    | false => cases hsync
  unregister {st T fd refused st'} h hmem hwanted hunreg := by
    obtain rfl := Except.ok.inj hunreg
    exact h.forget (Or.inl rfl) ((h.wanted fd hmem (by simp)).mpr hwanted)

lemma poll_backend : Backend pollMethod PollOk fun _ => True :=
  poll_methodLaws.mono NewFd.fresh

/-! ### Polling -/

section Polling

variable {st st' : FdState PollState} {T : Finset FdPtr} {p : FdPtr} {n : ℕ}

lemma activateFds_succ (st : FdState PollState) (n : ℕ) :
    activateFds st (n + 1) = makePollReady (activateFds st n)
      ((activateFds st n).method.fds n) ((activateFds st n).method.pfds n).revents := by
  simp only [activateFds, List.range_succ, List.foldl_append, List.foldl_cons, List.foldl_nil]

lemma activateFds_sameRegs (st : FdState PollState) (n : ℕ) : SameRegs st (activateFds st n) := by
  induction n with
  | zero => exact .refl st
  | succ n ih =>
    rw [activateFds_succ]
    exact ih.trans (makePollReady_sameRegs _ _ _)

/-- The entries of which there is something to report. -/
lemma mem_active_activateFds : p ∈ (activateFds st n).active ↔
    p ∈ st.active ∨ ∃ i < n, st.method.fds i = p ∧ pollBands (st.method.pfds i).revents ≠ ∅ := by
  induction n with
  | zero => simp [activateFds]
  | succ n ih =>
    rw [activateFds_succ, mem_active_makePollReady, ih, (activateFds_sameRegs st n).method]
    constructor
    · rintro ((hp | ⟨i, hi, hentry⟩) | ⟨rfl, hbands⟩)
      · exact Or.inl hp
      · exact Or.inr ⟨i, by omega, hentry⟩
      · exact Or.inr ⟨n, by omega, rfl, hbands⟩
    · rintro (hp | ⟨i, hi, rfl, hbands⟩)
      · exact Or.inl (Or.inl hp)
      · by_cases hlast : i = n
        · exact Or.inr ⟨by rw [hlast], hlast ▸ hbands⟩
        · exact Or.inl (Or.inr ⟨i, by omega, rfl, hbands⟩)

/-- Each descriptor has one entry, so that what is reported of it is not mixed up. -/
lemma activateFds_readyBands (hactive : st.active = [])
    (hinj : ∀ i < n, ∀ j < n, st.method.fds i = st.method.fds j → i = j) {i : ℕ} (hi : i < n)
    (hbands : pollBands (st.method.pfds i).revents ≠ ∅) :
    ((activateFds st n).fds (st.method.fds i)).readyBands =
      pollBands (st.method.pfds i).revents := by
  induction n with
  | zero => omega
  | succ n ih =>
    rw [activateFds_succ, (activateFds_sameRegs st n).method]
    by_cases hlast : i = n
    · subst hlast
      refine makePollReady_readyBands ?_ hbands
      -- the entries before this one belong to other descriptors
      rw [mem_active_activateFds, hactive]
      rintro (hp | ⟨j, hj, heq, -⟩)
      · cases hp
      · have := hinj j (by omega) i (by omega) heq
        omega
    · have hne : st.method.fds i ≠ st.method.fds n := fun heq =>
        hlast (hinj i (by omega) n (by omega) heq)
      rw [makePollReady_fds_of_ne hne]
      exact ih (fun i hi j hj => hinj i (by omega) j (by omega)) (by omega)

lemma PollOk.answer (h : PollOk st T none) (revents : ℤ → Finset PollFlag) :
    PollOk (st.setMethod (st.method.answer revents)) T none := by
  have hpfd : ∀ i, ((st.method.answer revents).pfds i).fd = (st.method.pfds i).fd ∧
      ((st.method.answer revents).pfds i).events = (st.method.pfds i).events := by
    intro i
    simp only [PollState.answer]
    split_ifs <;> exact ⟨rfl, rfl⟩
  constructor
  case nonneg => exact h.nonneg
  case entry =>
    intro i h0 hi
    obtain ⟨hp, hindex, hfd⟩ := h.entry i h0 hi
    exact ⟨hp, hindex, (hpfd i).1.trans hfd⟩
  case index => exact h.index
  case wanted => exact h.wanted
  case events =>
    intro p hp hne hindex
    exact (hpfd _).2.trans (h.events p hp hne hindex)

/-- The state in which `iv_fd_poll_activate_fds` is called. -/
def answered (st : FdState PollState) (revents : ℤ → Finset PollFlag) : FdState PollState :=
  { st with active := [] }.setMethod (st.method.answer revents)

lemma poll_keeps : PollKeeps PollOk ivFdPollPoll := by
  intro st T k st' pc hfds hok hpoll
  cases k with
  | events revents =>
    obtain ⟨rfl, -⟩ := Prod.mk.inj (Option.some.inj hpoll)
    have hstart : PollOk (answered st revents) T none := (hok.answer revents).congr rfl rfl
    have hfds' : FdsOk (answered st revents) T :=
      (hfds.of_same (.start st)).of_core (setMethod_core _ _)
    exact poll_backend.of_same ⟨hfds', hstart⟩ (activateFds_sameRegs _ _)
  | interrupted =>
    obtain ⟨rfl, -⟩ := Prod.mk.inj (Option.some.inj hpoll)
    exact poll_backend.of_same ⟨hfds, hok⟩ (.start st)

end Polling

/-! ### The arrays in every run -/

/-- The first `num_regd_fds` entries of the arrays and the registered descriptors that have a
handler belong to each other. -/
structure PollArrays (st : FdState PollState) : Prop where
  entry : ∀ i, 0 ≤ i → i < st.method.numRegdFds →
    (st.fds (st.method.fds i)).registered = true ∧
    (∃ band, (st.fds (st.method.fds i)).handler band ≠ none) ∧
    st.method.index (st.method.fds i) = i ∧
    (st.method.pfds i).fd = (st.fds (st.method.fds i)).fd ∧
    (st.method.pfds i).events = Poll.bitsToPollMask (st.fds (st.method.fds i)).wantedBands
  listed : ∀ p, (st.fds p).registered = true → (∃ band, (st.fds p).handler band ≠ none) →
    0 ≤ st.method.index p ∧ st.method.index p < st.method.numRegdFds ∧
      st.method.fds (st.method.index p) = p
  unlisted : ∀ p, (st.fds p).registered = true → (¬ ∃ band, (st.fds p).handler band ≠ none) →
    st.method.index p = -1

section Main

variable {fds : FdPtr → Fd} {poll : PollState} {tr : List (LoopLabel PollAnswer)}
  {s s' : LoopState PollState}

lemma pollInv_init (fds : FdPtr → Fd) (poll : PollState) :
    BackendInv PollOk (ivFdPollInit fds poll) := by
  refine ⟨fdsOk_init _ _, le_rfl, fun i h0 hi => absurd hi (not_lt.mpr h0), ?_, ?_, ?_⟩ <;>
    simp [ivFdPollInit, ivFdInit]

lemma pollInv_of_run (h : (pollLts fds poll).Run tr s) : BackendInv PollOk s := by
  refine h.reachable.invariant (pollInv_init fds poll) fun s₁ a s₂ hinv hstep => ?_
  have hstep : LoopStep pollMethod ivFdPollPoll s₁ a s₂ := .of_step hstep
  exact poll_backend.loopStep poll_keeps hinv hstep fun o _ => o.asks_true _

lemma index_eq_neg_one_iff (h : BackendInv PollOk s) {p : FdPtr} (hp : p ∈ s.regs) :
    s.st.method.index p = -1 ↔ ¬ ∃ band, (s.st.fds p).handler band ≠ none := by
  rw [h.backend.wanted p hp (by simp), h.fds.wanted p hp, Fd.handlerBands_eq_empty_iff]

lemma BackendInv.pollArrays (h : BackendInv PollOk s) : PollArrays s.st where
  entry i h0 hi := by
    obtain ⟨hp, hindex, hfd⟩ := h.backend.entry i h0 hi
    have hne : s.st.method.index (s.st.method.fds i) ≠ -1 := by omega
    refine ⟨(h.fds.mem_iff _).mp hp, not_not.mp (mt (index_eq_neg_one_iff h hp).mpr hne), hindex,
      hfd, ?_⟩
    have hevents := h.backend.events _ hp (by simp) hne
    rwa [hindex] at hevents
  listed p hreg hhandler := by
    have hp := (h.fds.mem_iff p).mpr hreg
    exact h.backend.index p hp fun heq => (index_eq_neg_one_iff h hp).mp heq hhandler
  unlisted p hreg hnone := (index_eq_neg_one_iff h ((h.fds.mem_iff p).mpr hreg)).mpr hnone

/-- What `iv_fd_poll_activate_fds` makes of an answer of the kernel. -/
lemma BackendInv.activate (h : BackendInv PollOk s) (revents : ℤ → Finset PollFlag) (p : FdPtr) :
    (p ∈ (ivFdPollActivateFds (answered s.st revents)).active ↔
      (s.st.fds p).registered = true ∧ (∃ band, (s.st.fds p).handler band ≠ none) ∧
        pollBands (revents (s.st.fds p).fd) ≠ ∅) ∧
    (p ∈ (ivFdPollActivateFds (answered s.st revents)).active →
      ((ivFdPollActivateFds (answered s.st revents)).fds p).readyBands =
        pollBands (revents (s.st.fds p).fd)) := by
  have harrays := h.pollArrays
  -- what the kernel says of the entry at `i`
  have hrev : ∀ i : ℕ, i < s.st.method.numRegdFds.toNat →
      ((s.st.method.answer revents).pfds i).revents =
        revents (s.st.fds (s.st.method.fds i)).fd := by
    intro i hi
    obtain ⟨-, -, -, hfd, -⟩ := harrays.entry i (by omega) (by omega)
    simp only [PollState.answer]
    rw [if_pos (by omega), hfd]
  have hinj : ∀ i < s.st.method.numRegdFds.toNat, ∀ j < s.st.method.numRegdFds.toNat,
      s.st.method.fds i = s.st.method.fds j → i = j := by
    intro i hi j hj heq
    have hi' := (harrays.entry i (by omega) (by omega)).2.2.1
    have hj' := (harrays.entry j (by omega) (by omega)).2.2.1
    rw [heq, hj'] at hi'
    omega
  have hmem : p ∈ (ivFdPollActivateFds (answered s.st revents)).active ↔
      ∃ i < s.st.method.numRegdFds.toNat, s.st.method.fds i = p ∧
        pollBands (revents (s.st.fds p).fd) ≠ ∅ := by
    rw [ivFdPollActivateFds, mem_active_activateFds]
    constructor
    · rintro (hp | ⟨i, hi, rfl, hbands⟩)
      · cases hp
      · exact ⟨i, hi, rfl, hrev i hi ▸ hbands⟩
    · rintro ⟨i, hi, rfl, hbands⟩
      exact Or.inr ⟨i, hi, rfl, (hrev i hi).symm ▸ hbands⟩
  refine ⟨hmem.trans ⟨?_, ?_⟩, fun hp => ?_⟩
  · rintro ⟨i, hi, rfl, hbands⟩
    obtain ⟨hreg, hhandler, -⟩ := harrays.entry i (by omega) (by omega)
    exact ⟨hreg, hhandler, hbands⟩
  · rintro ⟨hreg, hhandler, hbands⟩
    obtain ⟨h0, hlt, harr⟩ := harrays.listed p hreg hhandler
    refine ⟨(s.st.method.index p).toNat, by omega, ?_, hbands⟩
    rw [Int.toNat_of_nonneg h0, harr]
  · obtain ⟨i, hi, rfl, hbands⟩ := hmem.mp hp
    have hactive : (answered s.st revents).active = [] := rfl
    have hready := activateFds_readyBands hactive hinj hi ((hrev i hi).symm ▸ hbands)
    exact hready.trans (congrArg pollBands (hrev i hi))

/-- The arrays of the poll method, for any calls, polls and answers of the kernel: their entries and
the registered descriptors with a handler belong to each other, and a poll makes exactly those
descriptors ready of which the kernel has something to report. -/
theorem pollArrays_of_run (h : (pollLts fds poll).Run tr s) :
    PollArrays s.st ∧
    ∀ revents s', (pollLts fds poll).step s (.poll (.events revents)) = some s' → ∀ p,
      (p ∈ s'.st.active ↔ (s.st.fds p).registered = true ∧
        (∃ band, (s.st.fds p).handler band ≠ none) ∧
        pollBands (revents (s.st.fds p).fd) ≠ ∅) ∧
      (p ∈ s'.st.active → (s'.st.fds p).readyBands = pollBands (revents (s.st.fds p).fd)) := by
  have hinv := pollInv_of_run h
  refine ⟨hinv.pollArrays, fun revents s' hstep p => ?_⟩
  have hstep : LoopStep pollMethod ivFdPollPoll s (.poll (.events revents)) s' := .of_step hstep
  cases hstep with
  | poll hpc hpoll =>
    obtain ⟨rfl, rfl⟩ := Prod.mk.inj (Option.some.inj hpoll)
    exact hinv.activate revents p

/-- Arrays before they have been filled in. -/
def noPolls : PollState :=
  ⟨fun _ => ⟨0, ∅, ∅⟩, fun _ => 0, 0, fun _ => 0⟩

/-- The first of three descriptors loses its handler, and the last one takes its place. One without
a handler is tried in between. -/
def swappedOnce : List (LoopLabel PollAnswer) :=
  [.op (.prepare 5 3 (some 1) none none), .op (.register 5),
    .op (.prepare 6 4 none (some 2) none), .op (.register 6),
    .op (.prepare 7 9 none none none), .op (.registerTry 7 false),
    .op (.setHandler 7 .maskErr (some 3)), .op (.setHandler 5 .maskIn none)]

theorem pollArrays_of_run_swappedOnce :
    ∃ s, (pollLts noFds noPolls).Run swappedOnce s ∧
      s.st.method.numRegdFds = 2 ∧ s.st.method.fds 0 = 7 ∧ PollArrays s.st := by
  refine Kit.Lts.exists_run_of_decide (fun s => s.st.method.numRegdFds = 2 ∧
    s.st.method.fds 0 = 7) (by decide) fun s hrun ⟨hnum, hfds⟩ => ?_
  exact ⟨hnum, hfds, (pollArrays_of_run hrun).1⟩

end Main

end Ivykis
