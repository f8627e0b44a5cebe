import Ivykis.Fd.Batch
import Ivykis.Kit.Lts

/-!
# The kqueue poll method (`iv_fd_kqueue.c`)

The kernel has two filters for a descriptor, one for each direction. Changes of the filters are put
off and given to the kernel in batches, of which the last one goes with the call that blocks. Only
`iv_fd_register_try` tells the kernel at once.
-/

namespace Ivykis

/-- The filters for a descriptor. -/
inductive KFilter where
  | read
  | write
  deriving DecidableEq, Repr

/-- The band that a filter stands for. -/
def KFilter.band : KFilter → Band
  | .read  => .maskIn
  | .write => .maskOut

/-- A `struct kevent` of a change list. -/
inductive KChange where
  | add (fd : ℤ) (filter : KFilter) (udata : FdPtr)
  | delete (fd : ℤ) (filter : KFilter)
  /-- The filter `EVFILT_TIMER` for `timeout`, with `EV_ONESHOT`. -/
  | addTimer
  | deleteTimer
  deriving DecidableEq

/-- What the kernel has for `kqueue_fd`. -/
structure KqueueKernel where
  /-- The `udata` of the filters for a descriptor. -/
  filters   : ℤ → KFilter → Option FdPtr
  /-- There is a timer. -/
  timer     : Bool
  /-- For each `EV_DELETE` so far, whether there was such a filter. -/
  deletions : List Bool

/-- What uploads do not touch. -/
structure KqueueRest where
  /-- `st->last_abs_count` is `5`: the timer is in use. -/
  timing  : Bool
  /-- Whether the kernel will refuse the changes that `iv_fd_kqueue_notify_fd_sync` asks for, one
  after the other. -/
  answers : ℕ → Bool

/-- `st->u.kqueue`, together with what the kernel has. -/
abbrev KqueueState := BatchState KqueueKernel KqueueRest

namespace Kqueue

/-- A filter of a descriptor is set. -/
def setFilter (filters : ℤ → KFilter → Option FdPtr) (fd : ℤ) (filter : KFilter)
    (udata : Option FdPtr) : ℤ → KFilter → Option FdPtr :=
  Function.update filters fd (Function.update (filters fd) filter udata)

/-- What the kernel makes of a change. -/
def enter (k : KqueueKernel) : KChange → KqueueKernel
  | .add fd filter udata => { k with filters := setFilter k.filters fd filter (some udata) }
  | .delete fd filter =>
    { k with
      filters := setFilter k.filters fd filter none
      deletions := (k.filters fd filter).isSome :: k.deletions }
  | .addTimer => { k with timer := true }
  | .deleteTimer => { k with timer := false, deletions := k.timer :: k.deletions }

/-- The change of one filter in `iv_fd_kqueue_queue_one`. -/
def filterChange (fd : FdPtr) (f : Fd) (filter : KFilter) : List KChange :=
  if filter.band ∉ f.wantedBands ∧ filter.band ∈ f.registeredBands then [.delete f.fd filter]
  else if filter.band ∈ f.wantedBands ∧ filter.band ∉ f.registeredBands then
    [.add f.fd filter fd]
  else []

/-- `iv_fd_kqueue_queue_one`. -/
def queueOne (fd : FdPtr) (f : Fd) : List KChange :=
  filterChange fd f .read ++ filterChange fd f .write

/-- `iv_fd_kqueue_upload`, in the loop. -/
def uploader : Uploader KqueueKernel KChange where
  enter := enter
  changes := queueOne

/-- `iv_fd_kqueue_upload`. -/
def upload (refused : Bool) (u : Upload KqueueKernel KqueueRest KChange) :
    Except Fault (Upload KqueueKernel KqueueRest KChange) :=
  Upload.loop uploader refused "iv_fd_kqueue_upload: got error" u.st.method.notify u

/-- One of the two attempts of `iv_fd_kqueue_notify_fd_sync`, and whether it succeeds. -/
def trySync (st : FdState KqueueState) (fd : FdPtr) (filter : KFilter) :
    Bool × FdState KqueueState :=
  if filter.band ∈ (st.fds fd).wantedBands then
    let refused := st.method.rest.answers 0
    let st := st.setMethod { st.method with
      rest := { st.method.rest with answers := fun n => st.method.rest.answers (n + 1) } }
    if refused then (false, st)
    else
      (true, (st.setMethod (st.method.submit uploader [.add (st.fds fd).fd filter fd])).setFd fd
        fun f => { f with registeredBands := insert filter.band f.registeredBands })
  else (false, st)

end Kqueue

open Kqueue

/-- `iv_fd_kqueue_upload_all`. -/
def ivFdKqueueUploadAll (refused : Bool) (st : FdState KqueueState) :
    Except Fault (FdState KqueueState) :=
  uploadAll uploader refused "iv_fd_kqueue_upload: got error"
    "iv_fd_kqueue_upload_all: got error" st

/-- `iv_fd_kqueue_unregister_fd`. -/
def ivFdKqueueUnregisterFd (refused : Bool) (st : FdState KqueueState) (fd : FdPtr) :
    Except Fault (FdState KqueueState) :=
  if fd ∈ st.method.notify then ivFdKqueueUploadAll refused st else .ok st

/-- `iv_fd_kqueue_notify_fd`. -/
def ivFdKqueueNotifyFd (st : FdState KqueueState) (fd : FdPtr) : FdState KqueueState :=
  st.setMethod { st.method with notify := renotify st.method.notify fd (st.fds fd) }

/-- `iv_fd_kqueue_notify_fd_sync`, and whether it fails. -/
def ivFdKqueueNotifyFdSync (st : FdState KqueueState) (fd : FdPtr) :
    Bool × FdState KqueueState :=
  let (done, st) := trySync st fd .read
  if done then (false, st)
  else
    let (done, st) := trySync st fd .write
    (!done, st)

/-! ### The method -/

section Method

variable {refused ret : Bool} {st st' : FdState KqueueState} {fd : FdPtr}

lemma trySync_core (st : FdState KqueueState) (fd : FdPtr) (filter : KFilter) :
    st.SameCore (trySync st fd filter).2 := by
  unfold trySync
  dsimp only
  split_ifs
  · exact setMethod_core st _
  · exact ((setMethod_core st _).trans (setMethod_core _ _)).trans
      (setRegistered_core _ fd fun f => insert filter.band f.registeredBands)
  · exact .refl st

lemma ivFdKqueueNotifyFdSync_core (h : ivFdKqueueNotifyFdSync st fd = (ret, st')) :
    st.SameCore st' := by
  unfold ivFdKqueueNotifyFdSync at h
  dsimp only at h
  split_ifs at h
  · exact (Prod.mk.inj h).2 ▸ trySync_core st fd .read
  · exact (Prod.mk.inj h).2 ▸ (trySync_core st fd .read).trans (trySync_core _ fd .write)

lemma ivFdKqueueUnregisterFd_core (h : ivFdKqueueUnregisterFd refused st fd = .ok st') :
    st.SameCore st' := by
  unfold ivFdKqueueUnregisterFd at h
  split_ifs at h
  · exact (uploadAll_sameRest h).core
  · exact Except.ok.inj h ▸ .refl st

/-- `iv_fd_poll_method_kqueue`, which has no `register_fd`. What `iv_fd_kqueue_notify_fd_sync` is
refused is part of the state, as there are two changes that it may ask for. -/
def kqueueMethod : PollMethod KqueueState where
  registerFd st _ := .ok st
  unregisterFd := ivFdKqueueUnregisterFd
  notifyFd st fd := .ok (ivFdKqueueNotifyFd st fd)
  notifyFdSync _ st fd := .ok (ivFdKqueueNotifyFdSync st fd)
  registerFd_core h := Except.ok.inj h ▸ .refl _
  unregisterFd_core := ivFdKqueueUnregisterFd_core
  notifyFd_core h := Except.ok.inj h ▸ setMethod_core _ _
  notifyFdSync_core h := ivFdKqueueNotifyFdSync_core (Except.ok.inj h)

end Method

/-! ### Polling -/

/-- What `iv_fd_timeout_check` decides. -/
inductive KTimeout where
  /-- The timer stays in use. -/
  | keep
  /-- The timer is too late: `iv_fd_kqueue_clear_poll_timeout`. -/
  | clear
  /-- The timer is not used. -/
  | plain
  /-- The timer is taken into use: `iv_fd_kqueue_set_poll_timeout`. -/
  | set
  deriving DecidableEq

/-- Whether the timer is in use afterwards, and the change that is pending for it. -/
def timeoutCheck : Bool → KTimeout → Option (Bool × List KChange)
  | true, .keep   => some (true, [])
  | true, .clear  => some (false, [.deleteTimer])
  | false, .plain => some (false, [])
  | false, .set   => some (true, [.addTimer])
  | _, _          => none

/-- `iv_fd_kqueue_poll` up to the call of `kevent` that blocks, which has been given the changes
that are left in the array. -/
def kqueueBlock (timeout : KTimeout) (refused : Bool) (st : FdState KqueueState) :
    Option (FdState KqueueState) := do
  let (timing, change) ← timeoutCheck st.method.rest.timing timeout
  let st := st.setMethod { st.method with rest := { st.method.rest with timing := timing } }
  let u ← (upload refused (change.foldl Upload.push ⟨st, []⟩)).toOption
  (submitChanges uploader refused "iv_fd_kqueue_poll: got error" u.st u.array).toOption

/-- What `kevent` returns. -/
inductive KEvent where
  | fd (num : ℤ) (filter : KFilter)
  | timer
  | user
  deriving DecidableEq

/-- The loop of `iv_fd_kqueue_poll` over the events. The kernel reports filters that it has. The
timer is gone after its event. -/
def kqueueCollect (st : FdState KqueueState) (runEvents : Bool) :
    List KEvent → Option (FdState KqueueState × Bool)
  | [] => some (st, runEvents)
  | .fd num filter :: batch =>
    match st.method.kernel.filters num filter with
    | some fd => kqueueCollect (ivFdMakeReady st fd {filter.band}) runEvents batch
    | none    => none
  | .timer :: batch =>
    if st.method.kernel.timer then
      -- `run_timers` is returned, and `iv_fd_poll_and_run` stops using the timer
      kqueueCollect (st.setMethod { st.method with
        kernel := { st.method.kernel with timer := false }
        rest := { st.method.rest with timing := false } }) runEvents batch
    else none
  | .user :: batch => kqueueCollect st true batch

/-- A call of `iv_fd_kqueue_poll`. -/
structure KqueuePoll where
  timeout : KTimeout
  refused : Bool
  /-- The events, or `none` if the call is interrupted. -/
  answer  : Option (List KEvent)
  deriving DecidableEq

/-- `iv_fd_kqueue_poll`. -/
def ivFdKqueuePoll (st : FdState KqueueState) (k : KqueuePoll) :
    Option (FdState KqueueState × DispatchPc) := do
  let st ← kqueueBlock k.timeout k.refused { st with active := [] }
  match k.answer with
  | none => some (st, .loop)
  | some batch =>
    if (batch.length : ℤ) ≤ 2 * st.numfds + 1 then
      let (st, runEvents) ← kqueueCollect st false batch
      some (st, if runEvents then .events else .loop)
    else none

/-- `iv_fd_kqueue_init`, in a thread with descriptors of which none is registered. -/
def ivFdKqueueInit (fds : FdPtr → Fd) (answers : ℕ → Bool) : LoopState KqueueState :=
  ivFdInit fds ⟨[], ⟨fun _ _ => none, false, []⟩, [], ⟨false, answers⟩⟩

/-- A thread with the kqueue method. -/
def kqueueLts (fds : FdPtr → Fd) (answers : ℕ → Bool) :
    Kit.Lts (LoopState KqueueState) (LoopLabel KqueuePoll) where
  init := ivFdKqueueInit fds answers
  step := loopStep kqueueMethod ivFdKqueuePoll

/-! ### What the kernel knows -/

/-- The filters for some registered bands. -/
def kqueueFilters (p : FdPtr) (bands : Finset Band) (filter : KFilter) : Option FdPtr :=
  if filter.band ∈ bands then some p else none

/-- The kernel has a timer or not, and deletes nothing that it does not have. -/
structure KqueueKernel.Sound (timer : Bool) (k : KqueueKernel) : Prop where
  timer : k.timer = timer
  deletions : ∀ present ∈ k.deletions, present = true

section Changes

variable (timer : Bool) {k : KqueueKernel} {fd : FdPtr} {f : Fd} {filter : KFilter}

/-- What the change of a filter does. -/
lemma foldl_filterChange
    (h : k.filters f.fd filter = kqueueFilters fd f.registeredBands filter) :
    ((filterChange fd f filter).foldl enter k).filters =
        setFilter k.filters f.fd filter (kqueueFilters fd f.wantedBands filter) ∧
      (k.Sound timer → ((filterChange fd f filter).foldl enter k).Sound timer) := by
  unfold filterChange
  by_cases hwanted : filter.band ∈ f.wantedBands <;>
    by_cases hreg : filter.band ∈ f.registeredBands
  · simp [hwanted, hreg, kqueueFilters, setFilter, h]
  · refine ⟨by simp [hwanted, hreg, kqueueFilters, enter], fun hk => ?_⟩
    simp only [hwanted, hreg, not_true_eq_false, if_false, not_false_eq_true, and_self, if_true,
      List.foldl_cons, List.foldl_nil, enter]
    exact ⟨hk.timer, hk.deletions⟩
  · refine ⟨by simp [hwanted, hreg, kqueueFilters, enter], fun hk => ?_⟩
    have hpresent : (k.filters f.fd filter).isSome = true := by simp [h, kqueueFilters, hreg]
    simp only [hwanted, hreg, not_false_eq_true, and_self, if_true, List.foldl_cons,
      List.foldl_nil, enter, hpresent]
    exact ⟨hk.timer, by simpa using hk.deletions⟩
  · simp [hwanted, hreg, kqueueFilters, setFilter, h]

lemma filterChange_length (fd : FdPtr) (f : Fd) (filter : KFilter) :
    (filterChange fd f filter).length ≤ 1 := by
  unfold filterChange
  split_ifs <;> simp

/-- Both filters of a descriptor have been set. -/
lemma setFilter_both (filters : ℤ → KFilter → Option FdPtr) (num : ℤ)
    (udata : KFilter → Option FdPtr) :
    setFilter (setFilter filters num .read (udata .read)) num .write (udata .write) =
      Function.update filters num udata := by
  unfold setFilter
  rw [Function.update_idem, Function.update_self]
  congr 1
  funext filter
  cases filter <;> simp

/-- What the changes of a descriptor do. -/
lemma foldl_queueOne (h : k.filters f.fd = kqueueFilters fd f.registeredBands) :
    ((queueOne fd f).foldl enter k).filters =
        Function.update k.filters f.fd (kqueueFilters fd f.wantedBands) ∧
      (k.Sound timer → ((queueOne fd f).foldl enter k).Sound timer) := by
  obtain ⟨hread, hsound⟩ := foldl_filterChange timer (congrFun h .read)
  have hwrite : ((filterChange fd f .read).foldl enter k).filters f.fd .write =
      kqueueFilters fd f.registeredBands .write := by
    rw [hread]
    simp [setFilter, h]
  obtain ⟨hfilters, hsound'⟩ := foldl_filterChange timer hwrite
  rw [queueOne, List.foldl_append]
  refine ⟨?_, fun hk => hsound' (hsound hk)⟩
  rw [hfilters, hread, setFilter_both]

end Changes

/-- The changes keep the filters up to date, and the timer as it is. -/
def kqueueSpec (timer : Bool) : UploadSpec uploader (KFilter → Option FdPtr) where
  look k := k.filters
  entry := kqueueFilters
  settled :=
    { r bands bands' := ∀ filter : KFilter, filter.band ∈ bands ↔ filter.band ∈ bands'
      iseqv := ⟨fun _ _ => .rfl, fun h filter => (h filter).symm,
        fun h h' filter => (h filter).trans (h' filter)⟩ }
  Sound := KqueueKernel.Sound timer
  entry_empty p q := by
    funext filter
    simp [kqueueFilters]
  changes_length fd f := by
    have hread := filterChange_length fd f .read
    have hwrite := filterChange_length fd f .write
    simp only [uploader, queueOne, List.length_append]
    omega
  changes_sound hk h := (foldl_queueOne timer h).2 hk
  look_changes {k fd f} h := (foldl_queueOne timer h).1

/-- How the method keeps its pending changes. -/
abbrev kqueueView : LazyView KqueueState (KFilter → Option FdPtr) :=
  (kqueueSpec false).view KqueueRest

/-- The kernel and the list of pending changes agree with the descriptors `T`. -/
structure KqueueOk (st : FdState KqueueState) (T : Finset FdPtr) (dirty : Option FdPtr) :
    Prop where
  view : LazyOk kqueueView st T dirty
  sound : st.method.Sound (kqueueSpec st.method.rest.timing)

namespace KqueueOk

variable {st st' : FdState KqueueState} {T : Finset FdPtr} {dirty : Option FdPtr} {fd : FdPtr}
  {refused ret done : Bool} {filter : KFilter}

lemma enrol (h : KqueueOk st T none) (hnew : NewFd st T fd) :
    KqueueOk (st.enrol fd) (insert fd T) (some fd) :=
  ⟨h.view.enrol hnew, h.sound⟩

lemma ask (h : KqueueOk st T (some fd)) : KqueueOk (st.ask fd) T (some fd) := by
  refine ⟨h.view.ask, ?_⟩
  rw [st.ask_method fd]
  exact h.sound

/-- The entry for one more band. -/
lemma kqueueFilters_insert (fd : FdPtr) (bands : Finset Band) (filter : KFilter) :
    kqueueFilters fd (insert filter.band bands) =
      Function.update (kqueueFilters fd bands) filter (some fd) := by
  funext filter'
  by_cases heq : filter' = filter
  · subst heq
    simp [kqueueFilters]
  · have hne : filter'.band ≠ filter.band := by
      cases filter <;> cases filter' <;> simp_all [KFilter.band]
    rw [Function.update_of_ne heq]
    exact if_congr (by simp [hne]) rfl rfl

/-- An attempt to tell the kernel of a filter. -/
lemma trySync (h : KqueueOk st T (some fd)) (hmem : fd ∈ T)
    (htry : trySync st fd filter = (done, st')) :
    KqueueOk st' T (some fd) ∧ st'.method.notify = st.method.notify ∧
      (done = false → st'.fds = st.fds) ∧
      (done = true → filter.band ∈ (st.fds fd).wantedBands ∧ (st'.fds fd).registeredBands =
        insert filter.band (st.fds fd).registeredBands) := by
  unfold Kqueue.trySync at htry
  dsimp only at htry
  have htold : st.method.kernel.filters (st.fds fd).fd =
      kqueueFilters fd (st.fds fd).registeredBands := h.view.kernel.told fd hmem
  split_ifs at htry with hwanted hrefused
  · obtain ⟨rfl, rfl⟩ := Prod.mk.inj htry
    exact ⟨⟨h.view.congr rfl rfl rfl, h.sound.congr rfl rfl⟩, rfl, fun _ => rfl, by simp⟩
  · obtain ⟨rfl, hst'⟩ := Prod.mk.inj htry
    have hfilters : st'.method.kernel.filters = Function.update st.method.kernel.filters
        (st.fds fd).fd (kqueueFilters fd (insert filter.band (st.fds fd).registeredBands)) := by
      rw [← hst', kqueueFilters_insert, ← htold]
      rfl
    subst hst'
    refine ⟨⟨h.view.tell (Or.inr rfl) hmem rfl rfl hfilters, ?_⟩, rfl, by simp, fun _ => ?_⟩
    · exact ⟨⟨h.sound.kernel.timer, h.sound.kernel.deletions⟩, h.sound.indices⟩
    · exact ⟨hwanted, by simp⟩
  · obtain ⟨rfl, rfl⟩ := Prod.mk.inj htry
    exact ⟨h, rfl, fun _ => rfl, by simp⟩

/-- `iv_fd_kqueue_notify_fd_sync` tells the kernel of one filter at most. -/
lemma sync (h : KqueueOk st T (some fd)) (hmem : fd ∈ T)
    (hsync : ivFdKqueueNotifyFdSync st fd = (ret, st')) :
    KqueueOk st' T (some fd) ∧ st'.method.notify = st.method.notify ∧
      (ret = true → st'.fds = st.fds) ∧
      (ret = false → ∃ filter : KFilter, filter.band ∈ (st.fds fd).wantedBands ∧
        (st'.fds fd).registeredBands = insert filter.band (st.fds fd).registeredBands) := by
  unfold ivFdKqueueNotifyFdSync at hsync
  rcases htry : Kqueue.trySync st fd .read with ⟨done, st₁⟩
  obtain ⟨hok, hnotify, hfailed, hdone⟩ := h.trySync hmem htry
  rw [htry] at hsync
  dsimp only at hsync
  cases done with
  | true =>
    obtain ⟨rfl, rfl⟩ := Prod.mk.inj hsync
    exact ⟨hok, hnotify, by simp, fun _ => ⟨.read, hdone rfl⟩⟩
  | false =>
    rcases htry' : Kqueue.trySync st₁ fd .write with ⟨done', st₂⟩
    obtain ⟨hok', hnotify', hfailed', hdone'⟩ := hok.trySync hmem htry'
    rw [htry'] at hsync
    obtain ⟨rfl, rfl⟩ := Prod.mk.inj hsync
    rw [hfailed rfl] at hfailed' hdone'
    exact ⟨hok', hnotify'.trans hnotify, fun hret => hfailed' (by simpa using hret),
      fun hret => ⟨.write, hdone' (by simpa using hret)⟩⟩

end KqueueOk

/-- The handlers of a descriptor that may be tried: the method would tell the kernel of one of two
directions only. -/
def oneDirection (bands : Finset Band) : Prop :=
  ¬ (Band.maskIn ∈ bands ∧ Band.maskOut ∈ bands)

instance : DecidablePred oneDirection := fun _ => inferInstanceAs (Decidable (¬ _))

/-- A band that is the only direction. -/
lemma oneDirection.settled {bands : Finset Band} (h : oneDirection bands) {filter : KFilter}
    (hband : filter.band ∈ bands) :
    (kqueueSpec false).settled (insert filter.band ∅) bands := by
  intro filter'
  unfold oneDirection at h
  cases filter <;> cases filter' <;> simp_all [KFilter.band]

/-- The kqueue method keeps the filters in step, if no descriptor with two directions is tried. -/
lemma kqueue_backend : Backend kqueueMethod KqueueOk oneDirection where
  congr h hfds hmethod :=
    ⟨h.view.congr hfds (congrArg _ hmethod) (congrArg _ hmethod), hmethod ▸ h.sound⟩
  same h hsame := ⟨h.view.same hsame, hsame.method ▸ h.sound⟩
  prepare h hmem f := ⟨h.view.prepare hmem f, h.sound⟩
  change h hdirty _ hf := ⟨h.view.change hdirty hf, h.sound⟩
  enrol h hnew henrol := Except.ok.inj henrol ▸ h.enrol hnew
  notify {st T fd st'} h hmem hnotify := by
    obtain rfl := Except.ok.inj hnotify
    exact ⟨h.view.renotify (Or.inr rfl) hmem rfl rfl rfl, h.sound.congr rfl rfl⟩
  sync {st T fd st₁ refused st₂} h hnew henrol hsync := by
    obtain rfl := Except.ok.inj henrol
    have hsync' := Except.ok.inj hsync
    obtain ⟨hok, hnotify, -, hdone⟩ :=
      (h.enrol hnew).ask.sync (Finset.mem_insert_self fd T) hsync'
    refine ⟨hok, fun hne hask => ⟨hok.view.settle ?_ ?_, hok.sound⟩⟩
    · have hnot : fd ∉ st₂.method.notify := by
        rw [hnotify, FdState.ask_method]
        exact h.view.notMem_notify hnew.notMem
      exact hnot
    · obtain ⟨filter, hband, hbands⟩ := hdone rfl
      have hreg : ((st.enrol fd).fds fd).registered = true := by simp [FdState.enrol]
      have hwanted := (ask_self hreg).2.2.2.1 hne
      have hwanted' : (st₂.fds fd).wantedBands = ((st.enrol fd).fds fd).handlerBands :=
        ((ivFdKqueueNotifyFdSync_core hsync').wantedBands fd).trans hwanted
      rw [hbands, FdState.ask_registeredBands, hwanted']
      have hunknown : ((st.enrol fd).fds fd).registeredBands = ∅ := by simp [FdState.enrol]
      rw [hunknown]
      exact hask.settled (hwanted ▸ hband)
  syncFailed {st T fd st₁ refused st₂ st₃} h hnew henrol hsync hunreg := by
    obtain rfl := Except.ok.inj henrol
    obtain ⟨hok, hnotify, hfailed, -⟩ :=
      (h.enrol hnew).ask.sync (Finset.mem_insert_self fd T) (Except.ok.inj hsync)
    have hnot : fd ∉ st₂.method.notify := by
      rw [hnotify, FdState.ask_method]
      exact h.view.notMem_notify hnew.notMem
    have hunknown : (st₂.fds fd).registeredBands = ∅ := by
      rw [hfailed rfl, FdState.ask_registeredBands]
      simp [FdState.enrol]
    have hst : st₃ = st₂.setFd fd fun f => { f with registered := false } := by
      simp only [kqueueMethod, ivFdKqueueUnregisterFd] at hunreg
      rw [if_neg (by simpa using hnot)] at hunreg
      exact (Except.ok.inj hunreg).symm
    have hset : LazyOk kqueueView st₃ (insert fd T) (some fd) :=
      hst ▸ hok.view.change (Or.inr rfl) ⟨rfl, rfl⟩
    have hnot' : fd ∉ st₃.method.notify := by simpa [hst] using hnot
    have hforget := hset.forget (Or.inr rfl) (by simp [hst, hunknown]) hnot'
    rw [Finset.erase_insert hnew.notMem] at hforget
    exact ⟨hforget, by simpa [hst] using hok.sound⟩
  unregister {st T fd refused st'} h hmem hwanted hunreg := by
    simp only [kqueueMethod, ivFdKqueueUnregisterFd] at hunreg
    -- bands without a filter may still be recorded as registered
    have hgone {st : FdState KqueueState} (hok : LazyOk kqueueView st T none)
        (hnone : (st.fds fd).wantedBands = ∅) (hnot : fd ∉ st.method.notify) :
        LazyOk kqueueView st (T.erase fd) none := by
      refine hok.forget (Or.inl rfl) ?_ hnot
      have hsettled : ∀ filter : KFilter, filter.band ∈ (st.fds fd).registeredBands ↔
          filter.band ∈ (st.fds fd).wantedBands := hok.notify.unlisted fd hmem (by simp) hnot
      funext filter
      have hiff : filter.band ∈ (st.fds fd).registeredBands ↔ filter.band ∈ (∅ : Finset Band) := by
        rw [hsettled, hnone]
      exact if_congr hiff rfl rfl
    split_ifs at hunreg with hlist
    · have hview : LazyOk ((kqueueSpec st.method.rest.timing).view KqueueRest) st T none := h.view
      obtain ⟨hok, hsound, hnil⟩ := hview.uploadAll h.sound hunreg
      have hsame := uploadAll_sameRest hunreg
      have hnot : fd ∉ st'.method.notify := by simp [hnil]
      refine ⟨hgone hok ((hsame.core.wantedBands fd).trans hwanted) hnot, ?_⟩
      rw [hsame.rest]
      exact hsound
    · obtain rfl := Except.ok.inj hunreg
      exact ⟨hgone h.view hwanted hlist, h.sound⟩

/-! ### Polling -/

section Polling

variable {st st' : FdState KqueueState} {T : Finset FdPtr} {timeout : KTimeout} {refused : Bool}

/-- The timer change leaves the filters alone, and deletes the timer only if there is one. -/
lemma KqueueOk.timeoutCheck (h : KqueueOk st T none) {timing : Bool} {change : List KChange}
    (hcheck : timeoutCheck st.method.rest.timing timeout = some (timing, change)) :
    Upload.Ok (kqueueSpec timing) (change.foldl Upload.push ⟨st.setMethod { st.method with
      rest := { st.method.rest with timing := timing } }, []⟩) T st.method.notify := by
  have htimer : st.method.kernel.timer = st.method.rest.timing := h.sound.kernel.timer
  have hpos : 0 < uploadBatch := by decide
  rcases hold : st.method.rest.timing with _ | _ <;> cases timeout <;>
    rw [hold] at hcheck htimer <;> cases hcheck
  -- in the order `plain`, `set`, `keep`, `clear`
  · exact ⟨h.view.congr rfl rfl rfl, ⟨⟨htimer, h.sound.kernel.deletions⟩, h.sound.indices⟩, rfl⟩
  · refine ⟨h.view.congr rfl rfl rfl, ⟨⟨rfl, h.sound.kernel.deletions⟩, ?_⟩, rfl⟩
    exact List.forall_mem_cons.mpr ⟨hpos, h.sound.indices⟩
  · exact ⟨h.view.congr rfl rfl rfl, ⟨⟨htimer, h.sound.kernel.deletions⟩, h.sound.indices⟩, rfl⟩
  · refine ⟨h.view.congr rfl rfl rfl, ⟨⟨rfl, ?_⟩, ?_⟩, rfl⟩
    · exact List.forall_mem_cons.mpr ⟨htimer, h.sound.kernel.deletions⟩
    · exact List.forall_mem_cons.mpr ⟨hpos, h.sound.indices⟩

/-- What the call has done when it blocks. -/
lemma kqueueBlock_eq_some (h : kqueueBlock timeout refused st = some st') :
    ∃ timing change u, timeoutCheck st.method.rest.timing timeout = some (timing, change) ∧
      upload refused (change.foldl Upload.push ⟨st.setMethod { st.method with
        rest := { st.method.rest with timing := timing } }, []⟩) = .ok u ∧
      st' = u.submitted uploader := by
  obtain ⟨⟨timing, change⟩, hcheck, hrest⟩ := Option.bind_eq_some_iff.mp h
  obtain ⟨u, hup, hsubmit⟩ := Option.bind_eq_some_iff.mp hrest
  exact ⟨timing, change, u, hcheck, toOption_eq_some.mp hup,
    submitChanges_eq_ok (toOption_eq_some.mp hsubmit)⟩

lemma kqueueBlock_core (h : kqueueBlock timeout refused st = some st') : st.SameCore st' := by
  obtain ⟨timing, change, u, -, hup, rfl⟩ := kqueueBlock_eq_some h
  exact ((setMethod_core st _).trans ((foldl_push_sameRest change _).trans
    (loop_sameRest hup)).core).trans (setMethod_core u.st _)

/-- When the call blocks nothing is pending any more. -/
lemma KqueueOk.block (h : KqueueOk st T none) (hblock : kqueueBlock timeout refused st = some st') :
    KqueueOk st' T none ∧ st'.method.notify = [] := by
  obtain ⟨timing, change, u, hcheck, hup, rfl⟩ := kqueueBlock_eq_some hblock
  have hstart := h.timeoutCheck hcheck
  have hrest : (u.submitted uploader).method.rest.timing = timing :=
    congrArg KqueueRest.timing ((foldl_push_sameRest change _).trans (loop_sameRest hup)).rest
  unfold Kqueue.upload at hup
  rw [hstart.notify] at hup
  have hend := hstart.loop hup
  refine ⟨⟨hend.view, ?_⟩, hend.notify⟩
  change (u.submitted uploader).method.Sound
    (kqueueSpec (u.submitted uploader).method.rest.timing)
  rw [hrest]
  exact hend.sound

/-- What every step of a poll keeps. -/
structure KqueueKeeps (P : FdState KqueueState → Prop) : Prop where
  start : ∀ ⦃st⦄, P st → P { st with active := [] }
  block : ∀ ⦃st timeout refused st'⦄, P st → kqueueBlock timeout refused st = some st' → P st'
  report : ∀ ⦃st num filter fd⦄, P st → st.method.kernel.filters num filter = some fd →
    P (ivFdMakeReady st fd {filter.band})
  /-- The timer has gone off. -/
  timer : ∀ ⦃st⦄, P st → P (st.setMethod { st.method with
    kernel := { st.method.kernel with timer := false }
    rest := { st.method.rest with timing := false } })

namespace KqueueKeeps

variable {P : FdState KqueueState → Prop}

lemma collect (hkeeps : KqueueKeeps P) (hst : P st) {batch : List KEvent}
    {runEvents runEvents' : Bool}
    (hcollect : kqueueCollect st runEvents batch = some (st', runEvents')) : P st' := by
  induction batch generalizing st runEvents with
  | nil => exact (Prod.mk.inj (Option.some.inj hcollect)).1 ▸ hst
  | cons event batch ih =>
    cases event with
    | fd num filter =>
      unfold kqueueCollect at hcollect
      split at hcollect
      next fd hfilter => exact ih (hkeeps.report hst hfilter) hcollect
      next => cases hcollect
    | timer =>
      rw [kqueueCollect, Option.ite_none_right_eq_some] at hcollect
      exact ih (hkeeps.timer hst) hcollect.2
    | user => exact ih hst hcollect

lemma poll (hkeeps : KqueueKeeps P) (hst : P st) {k : KqueuePoll} {pc : DispatchPc}
    (hpoll : ivFdKqueuePoll st k = some (st', pc)) : P st' := by
  obtain ⟨st₁, hblock, hrest⟩ := Option.bind_eq_some_iff.mp hpoll
  have hst₁ := hkeeps.block (hkeeps.start hst) hblock
  split at hrest
  next => exact (Prod.mk.inj (Option.some.inj hrest)).1 ▸ hst₁
  next batch hanswer =>
    rw [Option.ite_none_right_eq_some] at hrest
    obtain ⟨⟨st₂, runEvents⟩, hcollect, heq⟩ := Option.bind_eq_some_iff.mp hrest.2
    obtain ⟨rfl, -⟩ := Prod.mk.inj (Option.some.inj heq)
    exact hkeeps.collect hst₁ hcollect

end KqueueKeeps

lemma kqueue_keeps : PollKeeps KqueueOk ivFdKqueuePoll := by
  intro st T k st' pc hfds hok hpoll
  have hkeeps : KqueueKeeps fun st => FdsOk st T ∧ KqueueOk st T none := by
    refine ⟨fun st h => kqueue_backend.of_same h (.start st),
      fun st timeout refused st' h hblock => ?_, fun st num filter fd h _ =>
        kqueue_backend.of_same h (.ivFdMakeReady st fd {filter.band}), fun st h => ?_⟩
    · exact ⟨h.1.of_core (kqueueBlock_core hblock), (h.2.block hblock).1⟩
    · exact ⟨h.1.of_core (setMethod_core st _), h.2.view.congr rfl rfl rfl,
        ⟨rfl, h.2.sound.kernel.deletions⟩, h.2.sound.indices⟩
  exact hkeeps.poll ⟨hfds, hok⟩ hpoll

end Polling

/-! ### The filters in every run -/

/-- The kernel has filters for the handlers of the registered descriptors, and no others. -/
structure KqueueEager (st : FdState KqueueState) : Prop where
  filters : ∀ p, (st.fds p).registered = true → ∀ filter : KFilter,
    st.method.kernel.filters (st.fds p).fd filter =
      if (st.fds p).handler filter.band ≠ none then some p else none
  unused : ∀ num, (∀ p, (st.fds p).registered = true → (st.fds p).fd ≠ num) → ∀ filter,
    st.method.kernel.filters num filter = none

/-- `EV_DELETE` is submitted for filters that are there, and the array has room. -/
structure KqueueCalls (kq : KqueueState) : Prop where
  deletions : ∀ present ∈ kq.kernel.deletions, present = true
  indices : ∀ i ∈ kq.indices, i ≤ uploadBatch - 1

/-- `iv_fd_register_try` is called for a descriptor with one direction only. -/
def tryOneDirection (s : LoopState KqueueState) : LoopLabel KqueuePoll → Prop
  | .op o => o.asks oneDirection s.st
  | _     => True

instance (s : LoopState KqueueState) (a : LoopLabel KqueuePoll) :
    Decidable (tryOneDirection s a) := by
  unfold tryOneDirection
  split <;> infer_instance

section Main

variable {fds : FdPtr → Fd} {answers : ℕ → Bool} {tr : List (LoopLabel KqueuePoll)}
  {s s' : LoopState KqueueState}

lemma kqueueInv_init (fds : FdPtr → Fd) (answers : ℕ → Bool) :
    BackendInv KqueueOk (ivFdKqueueInit fds answers) := by
  refine ⟨fdsOk_init _ _, .empty rfl fun num p => ?_, ⟨⟨rfl, ?_⟩, ?_⟩⟩
  · have hnone : kqueueFilters p ∅ = fun _ => none := by
      funext filter
      simp [kqueueFilters]
    exact hnone.symm
  · simp [ivFdKqueueInit, ivFdInit]
  · simp [ivFdKqueueInit, ivFdInit]

lemma kqueueInv_of_run (h : ((kqueueLts fds answers).restrict tryOneDirection).Run tr s) :
    BackendInv KqueueOk s := by
  refine h.reachable.invariant (kqueueInv_init fds answers) fun s₁ a s₂ hinv hstep => ?_
  obtain ⟨hcond, hstep⟩ := Kit.Lts.restrict_step.mp hstep
  have hstep : LoopStep kqueueMethod ivFdKqueuePoll s₁ a s₂ := .of_step hstep
  refine kqueue_backend.loopStep kqueue_keeps hinv hstep fun o ho => ?_
  subst ho
  exact hcond

lemma KqueueOk.calls {st : FdState KqueueState} {T : Finset FdPtr} (h : KqueueOk st T none) :
    KqueueCalls st.method where
  deletions := h.sound.kernel.deletions
  indices i hi := Nat.le_sub_one_of_lt (h.sound.indices i hi)

/-- When nothing is pending, the filters are those that the handlers ask for. -/
lemma KqueueOk.eager {st : FdState KqueueState} {T : Finset FdPtr} (h : KqueueOk st T none)
    (hfds : FdsOk st T) (hnil : st.method.notify = []) : KqueueEager st where
  filters p hreg filter := by
    have hp := (hfds.mem_iff p).mpr hreg
    have hnot : p ∉ st.method.notify := by simp [hnil]
    have hsettled : ∀ filter : KFilter, filter.band ∈ (st.fds p).registeredBands ↔
        filter.band ∈ (st.fds p).wantedBands := h.view.notify.unlisted p hp (by simp) hnot
    have htold : st.method.kernel.filters (st.fds p).fd =
        kqueueFilters p (st.fds p).registeredBands := h.view.kernel.told p hp
    rw [htold, kqueueFilters]
    refine if_congr ?_ rfl rfl
    rw [hsettled, hfds.wanted p hp, Fd.mem_handlerBands]
  unused num hfree filter := by
    have hunknown : st.method.kernel.filters num = kqueueFilters 0 ∅ :=
      h.view.kernel.unknown num (fun p hp => hfree p ((hfds.mem_iff p).mp hp)) 0
    rw [hunknown]
    simp [kqueueFilters]

/-- The kqueue method, for any calls, refusals, polls and events, as long as `iv_fd_register_try` is
not called for a descriptor with a handler for each direction: when the call of `kevent` that blocks
is made the filters are those that the handlers ask for. -/
theorem kqueue_of_run (h : ((kqueueLts fds answers).restrict tryOneDirection).Run tr s) :
    KqueueCalls s.st.method ∧
    ∀ timeout refused st', s.pc = .done → kqueueBlock timeout refused s.st = some st' →
      KqueueEager st' ∧ KqueueCalls st'.method := by
  have hinv := kqueueInv_of_run h
  refine ⟨hinv.backend.calls, fun timeout refused st' _ hblock => ?_⟩
  obtain ⟨hok, hnil⟩ := hinv.backend.block hblock
  have hcore := kqueueBlock_core hblock
  exact ⟨hok.eager (hinv.fds.of_core hcore) hnil, hok.calls⟩

/-- A descriptor for one direction is tried, with one refusal, and gets the other direction in its
handler. -/
def triedOnce : List (LoopLabel KqueuePoll) :=
  [.op (.prepare 5 3 none none none), .op (.registerTry 5 false),
    .op (.prepare 6 4 (some 1) none none), .op (.registerTry 6 false),
    .poll ⟨.set, false, some [.timer, .fd 4 .read]⟩, .round (.take 6), .round (.skip 6 .maskErr),
    .round (.call 6 .maskIn), .op (.setHandler 6 .maskOut (some 2)), .round .ret,
    .round (.skip 6 .maskOut), .round .finish]

theorem kqueue_of_run_triedOnce :
    ∃ s st', ((kqueueLts noFds fun n => n == 0).restrict tryOneDirection).Run triedOnce s ∧
      s.pc = .done ∧
      kqueueBlock .plain false s.st = some st' ∧ KqueueEager st' ∧
      st'.method.kernel.filters 4 .write = some 6 := by
  simp only [exists_and_left]
  refine Kit.Lts.exists_run_of_decide (fun s => s.pc = .done ∧ ((kqueueBlock .plain false s.st).map
    fun st => st.method.kernel.filters 4 .write) = some (some 6)) (by decide)
    fun s hrun ⟨hpc, hblock⟩ => ⟨hpc, ?_⟩
  obtain ⟨st', hst', hfilter⟩ := Option.map_eq_some_iff.mp hblock
  exact ⟨st', hst', ((kqueue_of_run hrun).2 _ _ _ hpc hst').1, hfilter⟩

/-- A descriptor with a handler for each direction is tried. The filter for writing is missing when
the thread blocks. -/
theorem kqueue_oneFilter :
    ∃ s st', (kqueueLts noFds fun _ => false).Run
        [.op (.prepare 5 3 (some 1) (some 2) none), .op (.registerTry 5 false)] s ∧
      s.pc = .done ∧ kqueueBlock .plain false s.st = some st' ∧ (st'.fds 5).registered = true ∧
      (st'.fds 5).fd = 3 ∧ (st'.fds 5).handlerOut = some 2 ∧
      st'.method.kernel.filters 3 .write = none := by
  simp only [exists_and_left]
  refine Kit.Lts.exists_run_of_decide (fun s => s.pc = .done ∧ ((kqueueBlock .plain false s.st).map
    fun st => decide ((st.fds 5).registered = true ∧ (st.fds 5).fd = 3 ∧
      (st.fds 5).handlerOut = some 2 ∧ st.method.kernel.filters 3 .write = none)) = some true)
    (by decide) fun s _ ⟨hpc, hblock⟩ => ⟨hpc, ?_⟩
  obtain ⟨st', hst', hvalues⟩ := Option.map_eq_some_iff.mp hblock
  exact ⟨st', hst', of_decide_eq_true hvalues⟩

end Main

end Ivykis
