import Ivykis.Avl.Search
import Ivykis.Fd.Batch
import Ivykis.Kit.Lts

/-!
# The `/dev/poll` method (`iv_fd_dev_poll.c`)

Changes are put off and written to the device in batches. The device adds what is written to what it
has, so that a descriptor from which a band is taken has to be removed and written again. Reports
name descriptors by their numbers, and the method looks them up in a tree.
-/

namespace Ivykis

/-- A `struct pollfd` that is written to the device. -/
inductive DevPollEntry where
  /-- With `POLLREMOVE`. -/
  | remove (fd : ℤ)
  | add (fd : ℤ) (events : Finset PollFlag)
  deriving DecidableEq

/-- `st->u.dev_poll`, together with the events that the device has for each descriptor. The rest is
the tree `fds`. -/
abbrev DevPollState := BatchState (ℤ → Option (Finset PollFlag)) AvlState

namespace DevPoll

/-- `bits_to_poll_mask`. -/
def bitsToPollMask (bits : Finset Band) : Finset PollFlag :=
  (if .maskIn ∈ bits then {.pollIn} else ∅) ∪ (if .maskOut ∈ bits then {.pollOut} else ∅)

/-- What the device makes of an entry. -/
def enter (polled : ℤ → Option (Finset PollFlag)) :
    DevPollEntry → ℤ → Option (Finset PollFlag)
  | .remove fd     => Function.update polled fd none
  | .add fd events => Function.update polled fd (some ((polled fd).getD ∅ ∪ events))

/-- The entries for a descriptor in the loop of `iv_fd_dev_poll_flush_pending`. -/
def changes (_ : FdPtr) (f : Fd) : List DevPollEntry :=
  (if (f.registeredBands \ f.wantedBands).Nonempty then [.remove f.fd] else []) ++
    (if f.wantedBands ≠ ∅ then [.add f.fd (bitsToPollMask f.wantedBands)] else [])

/-- `iv_fd_dev_poll_flush_pending`, in the loop. -/
def uploader : Uploader (ℤ → Option (Finset PollFlag)) DevPollEntry where
  enter := enter
  changes := changes

/-- `&fd->u.avl_node`. -/
def avlNode (fd : FdPtr) : AvlPtr := BitVec.ofNat 64 fd

/-- The number of the descriptor that a node belongs to. -/
def numberOf (fds : FdPtr → Fd) (an : AvlPtr) : ℤ := (fds an.toNat).fd

/-- `iv_fd_avl_compare`. -/
def ivFdAvlCompare (fds : FdPtr → Fd) : AvlPtr → AvlPtr → ℤ :=
  compareKeys (numberOf fds)

/-- `iv_fd_avl_find`. -/
def ivFdAvlFind (st : FdState DevPollState) (fd : ℤ) : Except Fault (Option FdPtr) := do
  let an ← findKey (numberOf st.fds) st.method.rest fd avlFuel st.method.rest.root
  return an.map BitVec.toNat

end DevPoll

open DevPoll

/-- `iv_fd_dev_poll_flush_pending`. What is in the array is written with `xwrite`. -/
def ivFdDevPollFlushPending (refused : Bool) (st : FdState DevPollState) :
    Except Fault (FdState DevPollState) :=
  uploadAll uploader refused "iv_fd_dev_poll_flush_pending: got error"
    "iv_fd_dev_poll_flush_pending: got error" st

/-- `iv_fd_dev_poll_register_fd`. A number that is no address has no node. -/
def ivFdDevPollRegisterFd (st : FdState DevPollState) (fd : FdPtr) :
    Except Fault (FdState DevPollState) := do
  if fd < 2 ^ 64 then
    let (ret, fds) ← ivAvlTreeInsert (ivFdAvlCompare st.fds) avlFuel st.method.rest (avlNode fd)
    if ret ≠ 0 then .error (.fatal "iv_fd_dev_poll_register_fd: got error")
    else return st.setMethod { st.method with rest := fds }
  else .error .invalidAccess

/-- `iv_fd_dev_poll_unregister_fd`. -/
def ivFdDevPollUnregisterFd (refused : Bool) (st : FdState DevPollState) (fd : FdPtr) :
    Except Fault (FdState DevPollState) := do
  let fds ← ivAvlTreeDelete avlFuel st.method.rest (avlNode fd)
  let st := st.setMethod { st.method with rest := fds }
  if fd ∈ st.method.notify then ivFdDevPollFlushPending refused st else return st

/-- `iv_fd_dev_poll_notify_fd`. -/
def ivFdDevPollNotifyFd (st : FdState DevPollState) (fd : FdPtr) : FdState DevPollState :=
  st.setMethod { st.method with notify := renotify st.method.notify fd (st.fds fd) }

/-- `iv_fd_dev_poll_notify_fd_sync`, and whether it fails. -/
def ivFdDevPollNotifyFdSync (refused : Bool) (st : FdState DevPollState) (fd : FdPtr) :
    Bool × FdState DevPollState :=
  let f := st.fds fd
  if refused then (true, st)
  else (false, (st.setMethod (st.method.submit uploader
    [.add f.fd (bitsToPollMask f.wantedBands)])).setFd fd
      fun f => { f with registeredBands := f.wantedBands })

/-! ### The method -/

section Method

variable {refused : Bool} {st st' : FdState DevPollState} {fd : FdPtr}

lemma ivFdDevPollRegisterFd_eq_ok (h : ivFdDevPollRegisterFd st fd = .ok st') :
    fd < 2 ^ 64 ∧ ∃ tree, ivAvlTreeInsert (ivFdAvlCompare st.fds) avlFuel st.method.rest
      (avlNode fd) = .ok (0, tree) ∧ st' = st.setMethod { st.method with rest := tree } := by
  unfold ivFdDevPollRegisterFd at h
  split_ifs at h with hfd
  obtain ⟨⟨ret, tree⟩, hinsert, hrest⟩ := bind_eq_ok.mp h
  dsimp only at hrest
  split_ifs at hrest with hret
  obtain rfl := not_not.mp hret
  exact ⟨hfd, tree, hinsert, (Except.ok.inj hrest).symm⟩

lemma ivFdDevPollUnregisterFd_eq_ok (h : ivFdDevPollUnregisterFd refused st fd = .ok st') :
    ∃ tree, ivAvlTreeDelete avlFuel st.method.rest (avlNode fd) = .ok tree ∧
      (if fd ∈ st.method.notify then
        ivFdDevPollFlushPending refused (st.setMethod { st.method with rest := tree })
      else .ok (st.setMethod { st.method with rest := tree })) = .ok st' := by
  obtain ⟨tree, hdelete, hrest⟩ := bind_eq_ok.mp h
  exact ⟨tree, hdelete, hrest⟩

lemma ivFdDevPollUnregisterFd_core (h : ivFdDevPollUnregisterFd refused st fd = .ok st') :
    st.SameCore st' := by
  obtain ⟨tree, -, hrest⟩ := ivFdDevPollUnregisterFd_eq_ok h
  split_ifs at hrest with hmem
  · exact (setMethod_core st _).trans (uploadAll_sameRest hrest).core
  · exact Except.ok.inj hrest ▸ setMethod_core st _

lemma ivFdDevPollNotifyFdSync_core {ret : Bool}
    (h : ivFdDevPollNotifyFdSync refused st fd = (ret, st')) : st.SameCore st' := by
  unfold ivFdDevPollNotifyFdSync at h
  split_ifs at h
  · exact (Prod.mk.inj h).2 ▸ .refl st
  · exact (Prod.mk.inj h).2 ▸ (setMethod_core st _).trans (setRegistered_core _ fd _)

/-- `iv_fd_poll_method_dev_poll`. -/
def devPollMethod : PollMethod DevPollState where
  registerFd := ivFdDevPollRegisterFd
  unregisterFd := ivFdDevPollUnregisterFd
  notifyFd st fd := .ok (ivFdDevPollNotifyFd st fd)
  notifyFdSync refused st fd := .ok (ivFdDevPollNotifyFdSync refused st fd)
  registerFd_core h := by
    obtain ⟨-, tree, -, rfl⟩ := ivFdDevPollRegisterFd_eq_ok h
    exact setMethod_core _ _
  unregisterFd_core := ivFdDevPollUnregisterFd_core
  notifyFd_core h := Except.ok.inj h ▸ setMethod_core _ _
  notifyFdSync_core h := ivFdDevPollNotifyFdSync_core (Except.ok.inj h)

end Method

/-! ### Polling -/

/-- A step of `iv_fd_dev_poll_poll`. -/
inductive DevPollPoll where
  | flush (refused : Bool)
  /-- `DP_POLL` returns this batch, an empty one if it is interrupted. -/
  | ioctl (batch : List (ℤ × Finset PollFlag))
  deriving DecidableEq

/-- The reports of a batch. The device reports what it has, and the method finds the descriptors. -/
def collectDevPoll (st : FdState DevPollState) :
    List (ℤ × Finset PollFlag) → Except Fault (FdState DevPollState)
  | [] => .ok st
  | (num, revents) :: batch => do
    match ← ivFdAvlFind st num with
    | some fd => collectDevPoll (makePollReady st fd revents) batch
    | none    => .error (.fatal "iv_fd_dev_poll_poll: got event for unknown fd")

/-- `iv_fd_dev_poll_poll`, step by step. `flush` is the whole of `iv_fd_dev_poll_flush_pending`,
whose loop ends when the list is empty: that is why `DP_POLL` finds it empty. The device reports
descriptors that it has been told of, and not more of them than there is room for. -/
def ivFdDevPollPoll (st : FdState DevPollState) :
    DevPollPoll → Option (FdState DevPollState × DispatchPc)
  | .flush refused => (ivFdDevPollFlushPending refused st).toOption.map fun st => (st, .done)
  | .ioctl batch =>
    if st.method.notify = [] ∧ (∀ e ∈ batch, (st.method.kernel e.1).isSome) ∧
        batch.length ≤ max st.numfds.toNat 1 then
      (collectDevPoll { st with active := [] } batch).toOption.map fun st => (st, .loop)
    else none

/-- `iv_fd_dev_poll_init`, in a thread with descriptors of which none is registered. -/
def ivFdDevPollInit (fds : FdPtr → Fd) (nodes : AvlState) : LoopState DevPollState :=
  ivFdInit fds ⟨[], fun _ => none, [], { nodes with root := none }⟩

/-- A thread with the `/dev/poll` method. -/
def devPollLts (fds : FdPtr → Fd) (nodes : AvlState) :
    Kit.Lts (LoopState DevPollState) (LoopLabel DevPollPoll) where
  init := ivFdDevPollInit fds nodes
  step := loopStep devPollMethod ivFdDevPollPoll

/-! ### What the device knows -/

/-- The events that the device has for some registered bands. -/
def devPollEvents (_ : FdPtr) (bands : Finset Band) : Option (Finset PollFlag) :=
  if bands = ∅ then none else some (bitsToPollMask bands)

lemma bitsToPollMask_mono {bands bands' : Finset Band} (h : bands ⊆ bands') :
    bitsToPollMask bands ⊆ bitsToPollMask bands' := by
  have hflag (flag : PollFlag) (band : Band) :
      (if band ∈ bands then {flag} else ∅ : Finset PollFlag) ⊆
        if band ∈ bands' then {flag} else ∅ := by
    by_cases hband : band ∈ bands
    · rw [if_pos hband, if_pos (h hband)]
    · rw [if_neg hband]
      exact Finset.empty_subset _
  exact Finset.union_subset_union (hflag _ _) (hflag _ _)

/-- What the device makes of the entries for a descriptor: no event is left over. -/
lemma foldl_changes {polled : ℤ → Option (Finset PollFlag)} {fd : FdPtr} {f : Fd}
    (h : polled f.fd = devPollEvents fd f.registeredBands) :
    (changes fd f).foldl enter polled =
      Function.update polled f.fd (devPollEvents fd f.wantedBands) := by
  unfold changes
  by_cases hless : (f.registeredBands \ f.wantedBands).Nonempty
  · by_cases hwanted : f.wantedBands = ∅
    · have hreg : f.registeredBands.Nonempty := by simpa [hwanted] using hless
      simp [hwanted, hreg, devPollEvents, enter]
    · simp [hless, hwanted, devPollEvents, enter]
  · have hsub : f.registeredBands ⊆ f.wantedBands := by
      rwa [Finset.not_nonempty_iff_eq_empty, Finset.sdiff_eq_empty_iff_subset] at hless
    by_cases hwanted : f.wantedBands = ∅
    · have hreg : f.registeredBands = ∅ := Finset.subset_empty.mp (hwanted ▸ hsub)
      simp [hwanted, hreg, devPollEvents, h]
    · have hmask := Finset.union_eq_right.mpr (bitsToPollMask_mono hsub)
      by_cases hreg : f.registeredBands = ∅
      · simp [hwanted, hreg, devPollEvents, enter, h]
      · simp [hless, hwanted, hreg, devPollEvents, enter, h, hmask]

/-- The entries keep the events of the device up to date. -/
def devPollSpec : UploadSpec uploader (Option (Finset PollFlag)) where
  look polled := polled
  entry := devPollEvents
  settled := ⊥
  Sound _ := True
  entry_empty _ _ := rfl
  changes_length fd f := by
    simp only [uploader, changes]
    split_ifs <;> simp
  changes_sound _ _ := trivial
  look_changes h := foldl_changes h

/-- How the method keeps its pending changes. -/
abbrev devPollView : LazyView DevPollState (Option (Finset PollFlag)) :=
  devPollSpec.view AvlState

/-! ### The device and the tree -/

/-- The tree holds the descriptors `T`. -/
structure TreeOk (st : FdState DevPollState) (T : Finset FdPtr) : Prop where
  addresses : ∀ p ∈ T, p < 2 ^ 64
  tree : KeyTree (numberOf st.fds) st.method.rest (T.image avlNode)

/-- The device, the list of pending changes and the tree agree with the descriptors `T`. -/
structure DevPollOk (st : FdState DevPollState) (T : Finset FdPtr) (dirty : Option FdPtr) :
    Prop where
  view : LazyOk devPollView st T dirty
  tree : TreeOk st T
  sound : st.method.Sound devPollSpec

section Tree

variable {st st' : FdState DevPollState} {T : Finset FdPtr} {fd p q : FdPtr} {num : ℤ}

lemma avlNode_toNat (h : p < 2 ^ 64) : (avlNode p).toNat = p :=
  Nat.mod_eq_of_lt h

lemma avlNode_inj (hp : p < 2 ^ 64) (hq : q < 2 ^ 64) (h : avlNode p = avlNode q) : p = q := by
  rw [← avlNode_toNat hp, h, avlNode_toNat hq]

lemma TreeOk.numberOf (h : TreeOk st T) (hp : p ∈ T) :
    numberOf st.fds (avlNode p) = (st.fds p).fd := by
  rw [DevPoll.numberOf, avlNode_toNat (h.addresses p hp)]

lemma TreeOk.congr (h : TreeOk st T) (htree : st'.method.rest = st.method.rest)
    (hnum : ∀ p ∈ T, (st'.fds p).fd = (st.fds p).fd) : TreeOk st' T := by
  refine ⟨h.addresses, htree ▸ h.tree.congr fun an han => ?_⟩
  obtain ⟨p, hp, rfl⟩ := Finset.mem_image.mp han
  rw [h.numberOf hp, DevPoll.numberOf, avlNode_toNat (h.addresses p hp), hnum p hp]

lemma TreeOk.of_sameRest (h : TreeOk st T) (hsame : SameRest st st') : TreeOk st' T :=
  h.congr hsame.rest fun p _ => hsame.core.fd p

lemma TreeOk.avlNode_notMem (h : TreeOk st T) (hmem : fd ∉ T) (hfd : fd < 2 ^ 64) :
    avlNode fd ∉ T.image avlNode := by
  intro han
  obtain ⟨p, hp, heq⟩ := Finset.mem_image.mp han
  exact hmem (avlNode_inj (h.addresses p hp) hfd heq ▸ hp)

lemma TreeOk.enrol (h : TreeOk st T) (hmem : fd ∉ T) : TreeOk (st.enrol fd) T :=
  h.congr rfl fun p hp => by
    have hne : p ≠ fd := fun heq => hmem (heq ▸ hp)
    rw [FdState.enrol, st.setFd_fds_of_ne _ hne]

/-- A new descriptor goes into the tree. -/
lemma TreeOk.insert (h : TreeOk st T) (hmem : fd ∉ T)
    (hfree : ∀ q ∈ T, (st.fds q).fd ≠ (st.fds fd).fd)
    (hreg : ivFdDevPollRegisterFd st fd = .ok st') : TreeOk st' (insert fd T) := by
  obtain ⟨hfd, tree, hinsert, rfl⟩ := ivFdDevPollRegisterFd_eq_ok hreg
  have hself : DevPoll.numberOf st.fds (avlNode fd) = (st.fds fd).fd := by
    rw [DevPoll.numberOf, avlNode_toNat hfd]
  have hnode := h.avlNode_notMem hmem hfd
  obtain ⟨tree', hinsert', htree'⟩ := h.tree.insert hnode fun an han => by
    obtain ⟨p, hp, rfl⟩ := Finset.mem_image.mp han
    rw [h.numberOf hp, hself]
    exact hfree p hp
  obtain ⟨-, rfl⟩ := Prod.mk.inj (Except.ok.inj (hinsert.symm.trans hinsert'))
  refine ⟨fun p hp => ?_, ?_⟩
  · rcases Finset.mem_insert.mp hp with rfl | hp
    · exact hfd
    · exact h.addresses p hp
  · rw [Finset.image_insert]
    exact htree'

/-- A descriptor is taken from the tree. -/
lemma TreeOk.delete (h : TreeOk st T) (hmem : fd ∈ T) {tree : AvlState}
    (hdelete : ivAvlTreeDelete avlFuel st.method.rest (avlNode fd) = .ok tree) :
    TreeOk (st.setMethod { st.method with rest := tree }) (T.erase fd) := by
  obtain ⟨tree', hdelete', htree'⟩ := h.tree.delete (Finset.mem_image_of_mem avlNode hmem)
  obtain rfl := Except.ok.inj (hdelete.symm.trans hdelete')
  refine ⟨fun p hp => h.addresses p (Finset.mem_of_mem_erase hp), ?_⟩
  have himage : (T.erase fd).image avlNode = (T.image avlNode).erase (avlNode fd) := by
    ext an
    simp only [Finset.mem_image, Finset.mem_erase]
    constructor
    · rintro ⟨p, ⟨hne, hp⟩, rfl⟩
      exact ⟨fun heq => hne (avlNode_inj (h.addresses p hp) (h.addresses fd hmem) heq), p, hp, rfl⟩
    · rintro ⟨hne, p, hp, rfl⟩
      exact ⟨p, ⟨fun heq => hne (heq ▸ rfl), hp⟩, rfl⟩
  rw [himage]
  exact htree'

lemma TreeOk.find_of_mem (h : TreeOk st T) (hp : p ∈ T) :
    ivFdAvlFind st (st.fds p).fd = .ok (some p) := by
  have hfind := h.tree.find_of_mem (Finset.mem_image_of_mem avlNode hp)
  rw [h.numberOf hp] at hfind
  simp [ivFdAvlFind, hfind, avlNode_toNat (h.addresses p hp)]

lemma TreeOk.find_of_forall_ne (h : TreeOk st T) (hne : ∀ p ∈ T, (st.fds p).fd ≠ num) :
    ivFdAvlFind st num = .ok none := by
  have hfind := h.tree.find_of_forall_ne fun an han => by
    obtain ⟨p, hp, rfl⟩ := Finset.mem_image.mp han
    rw [h.numberOf hp]
    exact hne p hp
  simp [ivFdAvlFind, hfind]

end Tree

namespace DevPollOk

variable {st st' : FdState DevPollState} {T : Finset FdPtr} {dirty : Option FdPtr} {fd : FdPtr}
  {refused : Bool}

lemma same (h : DevPollOk st T dirty) (hsame : SameRegs st st') : DevPollOk st' T dirty where
  view := h.view.same hsame
  tree := h.tree.congr (by rw [hsame.method]) fun p _ => by rw [hsame.fds p]
  sound := hsame.method ▸ h.sound

lemma change (h : DevPollOk st T dirty) (hdirty : dirty = none ∨ dirty = some fd) {f : Fd → Fd}
    (hf : Unheard f (st.fds fd)) : DevPollOk (st.setFd fd f) T (some fd) where
  view := h.view.change hdirty hf
  tree := h.tree.congr rfl fun p _ => by
    by_cases hp : p = fd
    · subst hp
      simpa using hf.num
    · rw [st.setFd_fds_of_ne f hp]
  sound := h.sound

lemma prepare (h : DevPollOk st T none) (hmem : fd ∉ T) (f : Fd → Fd) :
    DevPollOk (st.setFd fd f) T none where
  view := h.view.prepare hmem f
  tree := h.tree.congr rfl fun p hp => by
    have hne : p ≠ fd := fun heq => hmem (heq ▸ hp)
    rw [st.setFd_fds_of_ne f hne]
  sound := h.sound

/-- A new descriptor, in the tree but not on the list. -/
lemma enrol (h : DevPollOk st T none) (hnew : NewFd st T fd)
    (henrol : ivFdDevPollRegisterFd (st.enrol fd) fd = .ok st') :
    DevPollOk st' (insert fd T) (some fd) ∧ fd ∉ st'.method.notify ∧
      (st'.fds fd).registeredBands = ∅ ∧ (st'.fds fd).registered = true := by
  have hother : ∀ p ∈ T, (st.enrol fd).fds p = st.fds p := fun p hp =>
    st.setFd_fds_of_ne _ fun heq => hnew.notMem (heq ▸ hp)
  have htree' := (h.tree.enrol hnew.notMem).insert hnew.notMem (fun q hq => by
    rw [hother q hq]
    simpa [FdState.enrol] using hnew.free q hq) henrol
  obtain ⟨-, tree, -, rfl⟩ := ivFdDevPollRegisterFd_eq_ok henrol
  refine ⟨⟨(h.view.enrol hnew).congr rfl rfl rfl, htree', h.sound.congr rfl rfl⟩,
    h.view.notMem_notify hnew.notMem, ?_, ?_⟩
  · simp [FdState.enrol]
  · simp [FdState.enrol]

lemma ask (h : DevPollOk st T (some fd)) : DevPollOk (st.ask fd) T (some fd) :=
  FdState.ask_keeps (P := fun st => DevPollOk st T (some fd))
    (fun h hf => h.change (Or.inr rfl) hf) h

/-- The device is told of the bands of a descriptor that it does not know. -/
lemma sync (h : DevPollOk st T (some fd)) (hmem : fd ∈ T) (hnot : fd ∉ st.method.notify)
    (hreg : (st.fds fd).registeredBands = ∅) (hwanted : (st.fds fd).wantedBands ≠ ∅)
    (hsync : ivFdDevPollNotifyFdSync false st fd = (false, st')) : DevPollOk st' T none := by
  have hst' := (Prod.mk.inj hsync).2.symm
  have htold : st.method.kernel (st.fds fd).fd = devPollEvents fd (st.fds fd).registeredBands :=
    h.view.kernel.told fd hmem
  have hpolled : (st.method.submit uploader
      [.add (st.fds fd).fd (bitsToPollMask (st.fds fd).wantedBands)]).kernel =
      Function.update st.method.kernel (st.fds fd).fd
        (devPollEvents fd (st.fds fd).wantedBands) := by
    simp [BatchState.submit, uploader, enter, htold, hreg, devPollEvents, hwanted]
  have htell : LazyOk devPollView st' T (some fd) :=
    h.view.tell (Or.inr rfl) hmem (by rw [hst']; rfl) (by rw [hst']; rfl)
      (by rw [hst']; exact hpolled)
  subst hst'
  refine ⟨htell.settle hnot ?_, ?_, trivial, h.sound.indices⟩
  · simp only [FdState.setFd_fds, Function.update_self]
    rfl
  · exact h.tree.of_sameRest ⟨(setMethod_core st _).trans (setRegistered_core _ fd _), rfl⟩

end DevPollOk

/-- The `/dev/poll` method keeps the device in step. -/
lemma devPoll_backend : Backend devPollMethod DevPollOk fun _ => True where
  congr h hfds hmethod :=
    ⟨h.view.congr hfds (congrArg _ hmethod) (congrArg _ hmethod),
      h.tree.congr (by rw [hmethod]) (fun p _ => by rw [hfds]), hmethod ▸ h.sound⟩
  same := DevPollOk.same
  prepare h hmem f := h.prepare hmem f
  change h hdirty _ hf := h.change hdirty hf
  enrol h hnew henrol := (h.enrol hnew henrol).1
  notify {st T fd st'} h hmem hnotify := by
    obtain rfl := Except.ok.inj hnotify
    exact ⟨h.view.renotify (Or.inr rfl) hmem rfl rfl rfl, h.tree.congr rfl fun _ _ => rfl,
      h.sound.congr rfl rfl⟩
  sync {st T fd st₁ refused st₂} h hnew henrol hsync := by
    obtain ⟨hok, hnot, hbands, hreg⟩ := h.enrol hnew henrol
    have hmem := Finset.mem_insert_self fd T
    cases refused with
    | true => cases hsync
    | false =>
      have hdone := hok.ask.sync hmem (by rwa [st₁.ask_method fd])
        (by rwa [st₁.ask_registeredBands fd]) (FdState.ask_wantedBands_ne hreg)
        (Except.ok.inj hsync)
      exact ⟨⟨hdone.view.weaken, hdone.tree, hdone.sound⟩, fun _ _ => hdone⟩
  syncFailed {st T fd st₁ refused st₂ st₃} h hnew henrol hsync hunreg := by
    obtain ⟨hok, hnot, hbands, -⟩ := h.enrol hnew henrol
    cases refused with
    | false => cases hsync
    | true =>
      obtain rfl := (Prod.mk.inj (Except.ok.inj hsync)).2
      have hset := hok.ask.change (Or.inr rfl) (f := fun f => { f with registered := false })
        ⟨rfl, rfl⟩
      obtain ⟨tree, hdelete, hrest⟩ := ivFdDevPollUnregisterFd_eq_ok hunreg
      rw [← st₁.ask_method fd] at hnot
      rw [if_neg (by simpa using hnot)] at hrest
      obtain rfl := Except.ok.inj hrest
      have htree := hset.tree.delete (Finset.mem_insert_self fd T) hdelete
      have hunknown : ((st₁.ask fd).fds fd).registeredBands = ∅ :=
        (st₁.ask_registeredBands fd).trans hbands
      have hgone := hset.view.forget (Or.inr rfl) (by simp [hunknown]) hnot
      rw [Finset.erase_insert hnew.notMem] at htree hgone
      exact ⟨hgone.congr rfl rfl rfl, htree, hset.sound.congr rfl rfl⟩
  unregister {st T fd refused st'} h hmem hwanted hunreg := by
    obtain ⟨tree, hdelete, hrest⟩ := ivFdDevPollUnregisterFd_eq_ok hunreg
    have htree := h.tree.delete hmem hdelete
    have hview : LazyOk devPollView (st.setMethod { st.method with rest := tree }) T none :=
      h.view.congr rfl rfl rfl
    split_ifs at hrest with hlist
    · obtain ⟨hok, hsound, hnil⟩ := hview.uploadAll (h.sound.congr rfl rfl) hrest
      have hsame := uploadAll_sameRest hrest
      have hnot : fd ∉ st'.method.notify := by simp [hnil]
      have hbands : (st'.fds fd).registeredBands = (st'.fds fd).wantedBands :=
        hok.notify.unlisted fd hmem (by simp) hnot
      have hwanted' : (st'.fds fd).wantedBands = ∅ := (hsame.core.wantedBands fd).trans hwanted
      exact ⟨hok.forget (Or.inl rfl) (congrArg _ (hbands.trans hwanted')) hnot,
        htree.of_sameRest hsame, hsound⟩
    · obtain rfl := Except.ok.inj hrest
      have hbands : (st.fds fd).registeredBands = (st.fds fd).wantedBands :=
        h.view.notify.unlisted fd hmem (by simp) hlist
      exact ⟨hview.forget (Or.inl rfl) (congrArg _ (hbands.trans hwanted)) hlist, htree,
        h.sound.congr rfl rfl⟩

/-- No call ends in a fatal error, as long as the descriptors are at addresses. -/
lemma devPoll_returns :
    MethodReturns devPollMethod DevPollOk fun st T fd => NewFd st T fd ∧ fd < 2 ^ 64 where
  register {st T fd} h hnew := by
    obtain ⟨hnew, hfd⟩ := hnew
    have htree := h.tree.enrol hnew.notMem
    obtain ⟨tree, hinsert, -⟩ := htree.tree.insert (htree.avlNode_notMem hnew.notMem hfd)
      fun an han => by
        obtain ⟨p, hp, rfl⟩ := Finset.mem_image.mp han
        have hne : p ≠ fd := fun heq => hnew.notMem (heq ▸ hp)
        rw [htree.numberOf hp, DevPoll.numberOf, avlNode_toNat hfd, FdState.enrol,
          st.setFd_fds_of_ne _ hne]
        simpa using hnew.free p hp
    have hreg : ivFdDevPollRegisterFd (st.enrol fd) fd =
        .ok ((st.enrol fd).setMethod { (st.enrol fd).method with rest := tree }) := by
      rw [ivFdDevPollRegisterFd, if_pos hfd]
      exact bind_eq_ok.mpr ⟨_, hinsert, rfl⟩
    exact ⟨_, hreg⟩
  notify _ _ := ⟨_, rfl⟩
  sync _ _ _ := ⟨_, _, rfl⟩
  syncFailed {st T fd st₁ refused st₂} h hnew henrol hsync := by
    obtain ⟨hok, hnot, -, -⟩ := h.enrol hnew.1 henrol
    cases refused with
    | false => cases hsync
    | true =>
      obtain rfl := (Prod.mk.inj (Except.ok.inj hsync)).2
      have hset := hok.ask.change (Or.inr rfl) (f := fun f => { f with registered := false })
        ⟨rfl, rfl⟩
      obtain ⟨tree, hdelete, -⟩ :=
        hset.tree.tree.delete (Finset.mem_image_of_mem avlNode (Finset.mem_insert_self fd T))
      rw [← st₁.ask_method fd] at hnot
      exact ⟨_, bind_eq_ok.mpr ⟨tree, hdelete, if_neg hnot⟩⟩
  unregister {st T fd} h hmem hwanted := by
    obtain ⟨tree, hdelete, -⟩ := h.tree.tree.delete (Finset.mem_image_of_mem avlNode hmem)
    by_cases hlist : fd ∈ st.method.notify
    · obtain ⟨st', hflush⟩ : ∃ st', ivFdDevPollFlushPending false
          (st.setMethod { st.method with rest := tree }) = .ok st' := uploadAll_false _ _ _ _
      exact ⟨st', bind_eq_ok.mpr ⟨tree, hdelete, (if_pos hlist).trans hflush⟩⟩
    · exact ⟨_, bind_eq_ok.mpr ⟨tree, hdelete, if_neg hlist⟩⟩

/-! ### Polling -/

section Polling

variable {st st' : FdState DevPollState} {T : Finset FdPtr} {batch : List (ℤ × Finset PollFlag)}

/-- What the device has been told of belongs to a registered descriptor, which is found. -/
lemma DevPollOk.find {num : ℤ} (h : DevPollOk st T none)
    (hpolled : (st.method.kernel num).isSome = true) :
    ∃ p ∈ T, (st.fds p).fd = num ∧ ivFdAvlFind st num = .ok (some p) := by
  by_cases hnum : ∃ p ∈ T, (st.fds p).fd = num
  · obtain ⟨p, hp, rfl⟩ := hnum
    exact ⟨p, hp, rfl, h.tree.find_of_mem hp⟩
  · push Not at hnum
    have hnone : st.method.kernel num = devPollEvents 0 ∅ := h.view.kernel.unknown num hnum 0
    simp [hnone, devPollEvents] at hpolled

/-- What every step of a poll keeps. -/
structure DevPollKeeps (P : FdState DevPollState → Prop) : Prop where
  start : ∀ ⦃st⦄, P st → P { st with active := [] }
  flush : ∀ ⦃st refused st'⦄, P st → ivFdDevPollFlushPending refused st = .ok st' → P st'
  report : ∀ ⦃st num fd⦄, P st → (st.method.kernel num).isSome →
    ivFdAvlFind st num = .ok (some fd) → ∀ revents, P (makePollReady st fd revents)

namespace DevPollKeeps

variable {P : FdState DevPollState → Prop}

lemma collect (hkeeps : DevPollKeeps P) (hst : P st)
    (hpolled : ∀ e ∈ batch, (st.method.kernel e.1).isSome = true)
    (hcollect : collectDevPoll st batch = .ok st') : P st' := by
  induction batch generalizing st with
  | nil => exact Except.ok.inj hcollect ▸ hst
  | cons e batch ih =>
    obtain ⟨found, hfind, hrest⟩ := bind_eq_ok.mp hcollect
    cases found with
    | none => cases hrest
    | some fd =>
      refine ih (hkeeps.report hst (hpolled e List.mem_cons_self) hfind e.2) (fun e' he' => ?_)
        hrest
      rw [(makePollReady_sameRegs st fd e.2).method]
      exact hpolled e' (List.mem_cons_of_mem _ he')

lemma poll (hkeeps : DevPollKeeps P) (hst : P st) {k : DevPollPoll} {pc : DispatchPc}
    (hpoll : ivFdDevPollPoll st k = some (st', pc)) : P st' := by
  cases k with
  | flush refused =>
    obtain ⟨st₁, hflush, heq⟩ := Option.map_eq_some_iff.mp hpoll
    obtain ⟨rfl, -⟩ := Prod.mk.inj heq
    exact hkeeps.flush hst (toOption_eq_some.mp hflush)
  | ioctl batch =>
    simp only [ivFdDevPollPoll, Option.ite_none_right_eq_some] at hpoll
    obtain ⟨⟨-, hpolled, -⟩, hpoll⟩ := hpoll
    obtain ⟨st₁, hcollect, heq⟩ := Option.map_eq_some_iff.mp hpoll
    obtain ⟨rfl, -⟩ := Prod.mk.inj heq
    exact hkeeps.collect (hkeeps.start hst) hpolled (toOption_eq_some.mp hcollect)

end DevPollKeeps

lemma DevPollOk.flush {refused : Bool} (h : DevPollOk st T none)
    (hflush : ivFdDevPollFlushPending refused st = .ok st') : DevPollOk st' T none := by
  obtain ⟨hview, hsound, -⟩ := h.view.uploadAll h.sound hflush
  exact ⟨hview, h.tree.of_sameRest (uploadAll_sameRest hflush), hsound⟩

lemma devPoll_keeps : PollKeeps DevPollOk ivFdDevPollPoll := by
  intro st T k st' pc hfds hok hpoll
  have hkeeps : DevPollKeeps fun st => FdsOk st T ∧ DevPollOk st T none := by
    refine ⟨fun st h => devPoll_backend.of_same h (.start st), fun st refused st' h hflush => ?_,
      fun st num fd h _ _ revents =>
        devPoll_backend.of_same h (makePollReady_sameRegs st fd revents)⟩
    exact ⟨h.1.of_core (uploadAll_sameRest hflush).core, h.2.flush hflush⟩
  exact hkeeps.poll ⟨hfds, hok⟩ hpoll

end Polling

/-! ### The device in every run -/

/-- The device polls for the handlers of the registered descriptors, and for nothing else. -/
structure DevPollEager (st : FdState DevPollState) : Prop where
  polled : ∀ p, (st.fds p).registered = true → (∃ band, (st.fds p).handler band ≠ none) →
    st.method.kernel (st.fds p).fd = some (bitsToPollMask (st.fds p).wantedBands) ∧
      (st.fds p).wantedBands = (st.fds p).handlerBands
  unpolled : ∀ num, (∀ p, (st.fds p).registered = true → (st.fds p).fd = num →
    ¬ ∃ band, (st.fds p).handler band ≠ none) → st.method.kernel num = none

section Main

variable {fds : FdPtr → Fd} {nodes : AvlState} {tr : List (LoopLabel DevPollPoll)}
  {s s' : LoopState DevPollState}

lemma devPollInv_init (fds : FdPtr → Fd) (nodes : AvlState) :
    BackendInv DevPollOk (ivFdDevPollInit fds nodes) := by
  refine ⟨fdsOk_init _ _, .empty rfl fun _ _ => rfl, ⟨?_, KeyTree.empty _ nodes⟩, trivial, ?_⟩
  · simp [ivFdDevPollInit, ivFdInit]
  · simp [ivFdDevPollInit, ivFdInit]

lemma devPollInv_of_run (h : (devPollLts fds nodes).Run tr s) : BackendInv DevPollOk s := by
  refine h.reachable.invariant (devPollInv_init fds nodes) fun s₁ a s₂ hinv hstep => ?_
  have hstep : LoopStep devPollMethod ivFdDevPollPoll s₁ a s₂ := .of_step hstep
  exact devPoll_backend.loopStep devPoll_keeps hinv hstep fun o _ => o.asks_true _

/-- When nothing is pending, the device is up to date. -/
lemma BackendInv.devPollEager (h : BackendInv DevPollOk s) (hnil : s.st.method.notify = []) :
    DevPollEager s.st := by
  have hpolled : ∀ p ∈ s.regs, s.st.method.kernel (s.st.fds p).fd =
      devPollEvents p (s.st.fds p).handlerBands := by
    intro p hp
    have hnot : p ∉ s.st.method.notify := by simp [hnil]
    have hbands : (s.st.fds p).registeredBands = (s.st.fds p).wantedBands :=
      h.backend.view.notify.unlisted p hp (by simp) hnot
    rw [← h.fds.wanted p hp, ← hbands]
    exact h.backend.view.kernel.told p hp
  refine ⟨fun p hreg hhandler => ?_, fun num hnone => ?_⟩
  · have hp := (h.fds.mem_iff p).mpr hreg
    have hne : (s.st.fds p).handlerBands ≠ ∅ :=
      mt Fd.handlerBands_eq_empty_iff.mp (not_not.mpr hhandler)
    refine ⟨?_, h.fds.wanted p hp⟩
    rw [hpolled p hp, devPollEvents, if_neg hne, h.fds.wanted p hp]
  · by_cases hnum : ∃ p ∈ s.regs, (s.st.fds p).fd = num
    · obtain ⟨p, hp, rfl⟩ := hnum
      have hempty := Fd.handlerBands_eq_empty_iff.mpr (hnone p ((h.fds.mem_iff p).mp hp) rfl)
      rw [hpolled p hp, hempty]
      rfl
    · push Not at hnum
      exact h.backend.view.kernel.unknown num hnum 0

/-- A flush leaves nothing pending, unless the device does not take a change. -/
lemma BackendInv.devPollFlush (h : BackendInv DevPollOk s) (hpc : s.pc = .done) :
    ∃ s', loopStep devPollMethod ivFdDevPollPoll s (.poll (.flush false)) = some s' ∧
      s'.st.method.notify = [] := by
  obtain ⟨st', hflush⟩ : ∃ st', ivFdDevPollFlushPending false s.st = .ok st' :=
    uploadAll_false _ _ _ _
  refine ⟨{ s with st := st', pc := .done }, ?_, ?_⟩
  · simp [loopStep, hpc, ivFdDevPollPoll, hflush, Except.toOption]
  · exact (h.backend.view.uploadAll h.backend.sound hflush).2.2

/-- The `/dev/poll` method, for any calls, polls and reports: `DP_POLL` is issued for the handlers
of the registered descriptors, each report that the device can make is for a descriptor that is
found, a descriptor that is unregistered is gone, and the array of a batch has room. A flush can
always be made and empties the list, and no call that the manual allows ends in a fatal error. -/
theorem devPoll_of_run (h : (devPollLts fds nodes).Run tr s) :
    (∀ batch s', (devPollLts fds nodes).step s (.poll (.ioctl batch)) = some s' →
      DevPollEager s.st) ∧
    (∀ num, (s.st.method.kernel num).isSome = true → ∃ p, (s.st.fds p).registered = true ∧
      (s.st.fds p).fd = num ∧ ivFdAvlFind s.st num = .ok (some p)) ∧
    (∀ p refused s', (devPollLts fds nodes).step s (.op (.unregister p refused)) = some s' →
      s'.st.method.kernel (s'.st.fds p).fd = none ∧ p ∉ s'.st.method.notify ∧
        ivFdAvlFind s'.st (s'.st.fds p).fd = .ok none ∧
        ∃ T, KeyTree (numberOf s'.st.fds) s'.st.method.rest T ∧ avlNode p ∉ T) ∧
    (∀ i ∈ s.st.method.indices, i ≤ uploadBatch - 1) ∧
    (s.pc = .done → ∃ s', (devPollLts fds nodes).step s (.poll (.flush false)) = some s' ∧
      s'.st.method.notify = []) ∧
    (∀ op : FdOp, s.pc = .done ∨ s.pc.inUser = true → op.valid s.st = true →
      op.distinct s.st s.regs = true → op.new (fun fd => fd < 2 ^ 64) →
      ((devPollLts fds nodes).step s (.op op)).isSome = true) := by
  have hinv := devPollInv_of_run h
  refine ⟨fun batch s' hstep => ?_, fun num hpolled => ?_, fun p refused s' hstep => ?_, ?_,
    hinv.devPollFlush, fun op hpc hop hdistinct haddr => ?_⟩
  · refine hinv.devPollEager ?_
    simp only [devPollLts, loopStep, ivFdDevPollPoll] at hstep
    split_ifs at hstep with hpc hready
    · exact hready.1
    · cases hstep
  · obtain ⟨p, hp, hnum, hfind⟩ := hinv.backend.find hpolled
    exact ⟨p, (hinv.fds.mem_iff p).mp hp, hnum, hfind⟩
  · have hstep : LoopStep devPollMethod ivFdDevPollPoll s (.op (.unregister p refused)) s' :=
      .of_step hstep
    have hinv' := devPoll_backend.loopStep devPoll_keeps hinv hstep fun o _ => o.asks_true _
    cases hstep with
    | op hpc hdistinct hop =>
      obtain ⟨hnot, hfree⟩ := hop.unregister_gone hinv.fds
      have hp := (hinv.fds.mem_iff p).mpr hop.unregister_frame.1
      refine ⟨hinv'.backend.view.kernel.unknown _ hfree p,
        fun hlist => hnot (hinv'.backend.view.notify.listed p hlist),
        hinv'.backend.tree.find_of_forall_ne hfree, _, hinv'.backend.tree.tree, fun han => ?_⟩
      obtain ⟨q, hq, heq⟩ := Finset.mem_image.mp han
      have hqp := avlNode_inj (hinv'.backend.tree.addresses q hq)
        (hinv.backend.tree.addresses p hp) heq
      exact hnot (hqp ▸ hq)
  · intro i hi
    have := hinv.backend.sound.indices i hi
    omega
  · have hnew := FdOp.new_of_valid hop hinv.fds.toFdCount hdistinct
    change (loopStep devPollMethod ivFdDevPollPoll s (.op op)).isSome = true
    exact devPoll_returns.loopStep devPoll_backend hinv hpc hop hdistinct (hnew.and haddr)

/-- A descriptor loses one of its two handlers, and another one is unregistered while that change is
pending. -/
def shrunkOnce : List (LoopLabel DevPollPoll) :=
  [.op (.prepare 5 3 (some 1) (some 2) none), .op (.register 5),
    .op (.prepare 6 4 none (some 2) none), .op (.registerTry 6 false), .poll (.flush false),
    .poll (.ioctl [(3, {.pollIn})]), .round (.take 5), .round (.skip 5 .maskErr),
    .round (.call 5 .maskIn), .op (.setHandler 5 .maskOut none), .op (.unregister 6 false)]

theorem devPoll_of_run_shrunkOnce :
    ∃ s, (devPollLts noFds emptyNodes).Run shrunkOnce s ∧
      s.st.method.kernel 3 = some {.pollIn} ∧ s.st.method.kernel 4 = none ∧
      ∀ i ∈ s.st.method.indices, i ≤ uploadBatch - 1 := by
  refine Kit.Lts.exists_run_of_decide (fun s => s.st.method.kernel 3 = some {.pollIn} ∧
    s.st.method.kernel 4 = none) (by decide +kernel) fun s hrun ⟨hthree, hfour⟩ => ?_
  exact ⟨hthree, hfour, (devPoll_of_run hrun).2.2.2.1⟩

end Main

end Ivykis
