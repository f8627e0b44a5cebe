import Ivykis.Fd.AnyNumber
import Ivykis.Fd.DevPoll
import Ivykis.Fd.Epoll
import Ivykis.Fd.Kqueue
import Ivykis.Fd.Poll
import Ivykis.Fd.Port

/-!
# Descriptors that the kernel does not take

`iv_fd_register_try` marks a descriptor as registered, calls the poll method's `register_fd`, and
asks for bands that may not be the wanted ones, all before the kernel can refuse. When it does, each
of the poll methods has to undo its part of this. It is shown that they do, in threads whose
descriptors may have any numbers.
-/

namespace Ivykis

variable {μ κ ι : Type}

/-! ### What a refusal leaves behind -/

/-- Apart from what belongs to the poll method, the thread is as it was before the call. The
descriptor is on no list, and has what its user has set. -/
structure TryUndone (m : PollMethod μ) (st st' : FdState μ) (fd : FdPtr) : Prop where
  registered : (st'.fds fd).registered = false
  num : (st'.fds fd).fd = (st.fds fd).fd
  handler : ∀ band, (st'.fds fd).handler band = (st.fds fd).handler band
  others : ∀ p ≠ fd, st'.fds p = st.fds p
  numobjs : st'.numobjs = st.numobjs
  numfds : st'.numfds = st.numfds
  handledFd : st'.handledFd = st.handledFd
  active : st'.active = st.active
  inactive : fd ∉ st'.active
  /-- It can be registered again. -/
  again : ∃ st'', ivFdRegister m st' fd = .ok st''

/-- The list of pending changes and the kernel are as before, too. -/
structure LazyUndone (m : PollMethod μ) (v : FreeView μ κ ι) (st st' : FdState μ) (fd : FdPtr) :
    Prop extends TryUndone m st st' fd where
  notify : v.notify st'.method = v.notify st.method
  kernel : v.kernel st'.method = v.kernel st.method
  unlisted : fd ∉ v.notify st'.method
  unused : ∀ i, v.look (v.kernel st'.method) i ≠ some fd

/-- The arrays of the poll method are as before, too. -/
structure PollUndone (st st' : FdState PollState) (fd : FdPtr) : Prop
    extends TryUndone pollMethod st st' fd where
  numRegdFds : st'.method.numRegdFds = st.method.numRegdFds
  pfds : st'.method.pfds = st.method.pfds
  fds : st'.method.fds = st.method.fds
  unused : ∀ i, 0 ≤ i → i < st'.method.numRegdFds → st'.method.fds i ≠ fd

/-- The list of pending changes, the device and the set of nodes in the tree are as before, too. -/
structure DevPollUndone (st st' : FdState DevPollState) (fd : FdPtr) : Prop
    extends TryUndone devPollMethod st st' fd where
  notify : st'.method.notify = st.method.notify
  kernel : st'.method.kernel = st.method.kernel
  unlisted : fd ∉ st'.method.notify
  tree : ∃ nodes : Finset AvlPtr, DevPoll.avlNode fd ∉ nodes ∧
    KeyTree (DevPoll.numberOf st.fds) st.method.rest nodes ∧
    KeyTree (DevPoll.numberOf st'.fds) st'.method.rest nodes

section Undone

variable {m : PollMethod μ} {I : FdState μ → Finset FdPtr → Option FdPtr → Prop}
  {v : FreeView μ κ ι} {st st₁ st₂ st' : FdState μ} {T : Finset FdPtr} {fd : FdPtr}
  {refused : Bool}

lemma ivFdRegister_ok (hreg : (st.fds fd).registered = false) (hfd : 0 ≤ (st.fds fd).fd)
    (henrol : ∃ st₁, m.registerFd (st.enrol fd) fd = .ok st₁)
    (hnotify : ∀ st, ∃ st', m.notifyFd st fd = .ok st') :
    ∃ st', ivFdRegister m st fd = .ok st' := by
  obtain ⟨st₁, henrol⟩ := henrol
  obtain ⟨st₂, hst₂⟩ := hnotify (st₁.setFd fd Fd.recomputeWantedFlags)
  have hprologue : ivFdRegisterPrologue m st fd = .ok st₁ := by
    rw [ivFdRegisterPrologue, if_neg (by simp [hreg]), if_neg (not_lt.mpr hfd)]
    exact henrol
  refine ⟨ivFdRegisterEpilogue st₂, ?_⟩
  rw [ivFdRegister, hprologue, ok_bind, notifyFd, hst₂, ok_bind]
  rfl

/-- What the poll methods have in common. -/
lemma TryUndone.of_fds (h : FreeOk I st T) (hreg : (st.fds fd).registered = false)
    (hstep : FdStep m st (.registerTry fd refused) st') (hfds : st'.fds = (st.asked fd).fds)
    (hagain : ∃ st'', ivFdRegister m st' fd = .ok st'') : TryUndone m st st' fd := by
  obtain ⟨hself, hnum, hhandler⟩ := st.asked_self fd
  rw [← hfds] at hself hnum hhandler
  have hframe := hstep.frame fun _ => rfl
  have hcounts : st'.numfds = st.numfds ∧ st'.numobjs = st.numobjs := by
    cases hstep.outcome with
    | idle _ _ hnumfds hnumobjs => exact ⟨hnumfds, hnumobjs⟩
    | added _ hreg' _ _ _ _ _ _ => simp [FdOp.fd, hself] at hreg'
    | removed hreg' _ _ _ | changed hreg' _ _ _ _ _ => simp [FdOp.fd, hreg] at hreg'
  refine ⟨hself, hnum, hhandler, fun p hp => ?_, hcounts.2, hcounts.1, hframe.handledFd,
    hframe.active, fun hmem => ?_, hagain⟩
  · rw [hfds, st.asked_of_ne hp]
  · rw [hframe.active] at hmem
    simpa [hreg] using (h.count.mem_iff fd).mp (h.active.mem fd hmem)

/-- The methods that put changes off. -/
lemma FreeLaws.lazyUndone (L : FreeLaws m v) (henrols : ∀ st fd, m.registerFd st fd = .ok st)
    (hnotifies : ∀ st fd, ∃ st', m.notifyFd st fd = .ok st')
    (h : FreeOk (LazyFree v) st T) (htry : ivFdRegisterTry m refused st fd = .ok (true, st')) :
    LazyUndone m v st st' fd := by
  obtain ⟨hreg, hfd, st₁, st₂, henrol, hsync, hunreg⟩ := ivFdRegisterTry_eq_ok htry
  have hmem : fd ∉ T := by simp [h.count.mem_iff, hreg]
  obtain ⟨hfds, hnotify, hkernel⟩ :=
    L.tryFailed (h.method.notMem_notify hmem) henrol hsync hunreg
  obtain ⟨hself, hnum, -⟩ := st.asked_self fd
  refine ⟨.of_fds h hreg (.of_registerTry htry) hfds ?_, hnotify, hkernel, ?_, fun i hi => ?_⟩
  · rw [← hfds] at hself hnum
    exact ivFdRegister_ok hself (hnum ▸ hfd) ⟨_, henrols _ _⟩ fun st => hnotifies st fd
  · rw [hnotify]
    exact h.method.notMem_notify hmem
  · rw [hkernel] at hi
    exact hmem (h.method.users i fd hi).1

end Undone

/-! ### A kernel with a table -/

section Table

variable {μ ι : Type} {notify : μ → List FdPtr} {table : μ → ℤ → Option (ι × FdPtr)}
  {st st' : FdState μ} {fd : FdPtr}

/-- The kernel has at most one reference for each number. -/
def tableFree (notify : μ → List FdPtr) (table : μ → ℤ → Option (ι × FdPtr)) :
    FreeView μ (ℤ → Option (ι × FdPtr)) ℤ where
  notify := notify
  kernel := table
  look table num := (table num).map Prod.snd
  num := id
  told _ bands := bands ≠ ∅
  told_empty _ := by simp

/-- The entry for the number of a descriptor is replaced. -/
lemma Told.of_update {bands : Finset Band} {entry : Option (ι × FdPtr)}
    (hfds : st'.fds = Function.update st.fds fd { st.fds fd with registeredBands := bands })
    (hnotify : notify st'.method = (notify st.method).erase fd)
    (htable : table st'.method = Function.update (table st.method) (st.fds fd).fd entry)
    (hentry : ∀ x ∈ entry, x.2 = fd ∧ bands ≠ ∅) :
    Told (tableFree notify table) st st' fd bands := by
  refine ⟨hfds, hnotify, fun num p hp => ?_⟩
  simp only [tableFree, htable] at hp
  by_cases hnum : num = (st.fds fd).fd
  · subst hnum
    rw [Function.update_self] at hp
    obtain ⟨x, hx, rfl⟩ := Option.map_eq_some_iff.mp hp
    exact Or.inl ⟨(hentry x hx).1, rfl, (hentry x hx).2⟩
  · rw [Function.update_of_ne hnum] at hp
    exact Or.inr ⟨hp, fun _ hfits => absurd hfits.num.symm hnum⟩

/-- The laws of a method that tells the kernel of one descriptor at a time. -/
lemma FlushLaws.freeLaws {m : PollMethod μ} {v : LazyView μ (Option (ι × FdPtr))} {Calls : μ → Prop}
    {flushOne : Bool → FdState μ → FdPtr → Bool × FdState μ} (F : FlushLaws m v Calls flushOne)
    (hfailed : ∀ {refused st fd st'}, flushOne refused st fd = (true, st') → st'.fds = st.fds ∧
      v.notify st'.method = (v.notify st.method).erase fd ∧
      v.kernel st'.method = v.kernel st.method)
    (htold : ∀ {refused st fd st'}, flushOne refused st fd = (false, st') →
      Told (tableFree v.notify v.kernel) st st' fd (st.fds fd).wantedBands) :
    FreeLaws m (tableFree v.notify v.kernel) where
  registerFd h := Except.ok.inj (h.symm.trans (F.register _ _))
  notifyFd {st fd st'} h := by
    obtain ⟨method, hmethod, hlist, hkernel, -⟩ := F.notify st fd
    obtain rfl := Except.ok.inj (hmethod.symm.trans h)
    exact ⟨rfl, hlist, hkernel⟩
  sync _ h := ⟨_, htold (Except.ok.inj ((F.sync _ _ _).symm.trans h))⟩
  syncFailed hnot h := by
    obtain ⟨hfds, hnotify, hkernel⟩ := hfailed (Except.ok.inj ((F.sync _ _ _).symm.trans h))
    exact ⟨hfds, hnotify.trans (List.erase_of_not_mem hnot), hkernel⟩
  unlisted h hnot := Except.ok.inj (h.symm.trans (F.leave hnot))
  listed h hmem hok := by
    have htold := htold ((F.unregister hmem).mp h)
    refine ⟨hok.upload (hok.notify.listed _ hmem) htold, ?_⟩
    rw [htold.notify]
    exact hok.notify.nodup.not_mem_erase

end Table

/-! ### The epoll method -/

section Epoll

variable {refused ret : Bool} {st st' : FdState EpollState} {fd : FdPtr} {T : Finset FdPtr}

/-- Where the interest set has references to descriptors. -/
def epollFree : FreeView EpollState (ℤ → Option (Finset EpollFlag × FdPtr)) ℤ :=
  tableFree EpollState.notify EpollState.interest

lemma Fd.epollOp_ne_del {f : Fd} (hne : f.registeredBands ≠ f.wantedBands)
    (h : f.epollOp ≠ .del) : f.wantedBands ≠ ∅ := by
  intro hwanted
  rw [hwanted] at hne
  simp [Fd.epollOp, hwanted, hne] at h

/-- A call of `epoll_ctl` takes effect, or it leaves the interest set as it is. -/
lemma epollCtl_eq {st st' : EpollState} {op : EpollCtl} {num : ℤ}
    {event : Finset EpollFlag × FdPtr} (h : epollCtl refused st op num event = (ret, st')) :
    st' = if ret then st.addCall op num else (st.addCall op num).change op num event := by
  unfold epollCtl at h
  dsimp only at h
  split_ifs at h
  · obtain ⟨rfl, rfl⟩ := Prod.mk.inj h
    rfl
  · obtain ⟨rfl, rfl⟩ := Prod.mk.inj h
    rfl

/-- A flush makes one call of `epoll_ctl`, or none if there is nothing to change. -/
lemma flushOne_cases (h : flushOne refused st fd = (ret, st')) :
    ((st.fds fd).registeredBands = (st.fds fd).wantedBands ∧ ret = false ∧ st' = st.unnotify fd) ∨
      ((st.fds fd).registeredBands ≠ (st.fds fd).wantedBands ∧ ∃ method,
        epollCtl refused (st.unnotify fd).method (st.fds fd).epollOp (st.fds fd).fd
          (Epoll.bitsToPollMask (st.fds fd).wantedBands, fd) = (ret, method) ∧
        st' = if ret then (st.unnotify fd).setMethod method
          else ((st.unnotify fd).setMethod method).setFd fd
            fun f => { f with registeredBands := f.wantedBands }) := by
  unfold flushOne at h
  rcases hctl : epollCtl refused (st.unnotify fd).method (st.fds fd).epollOp (st.fds fd).fd
    (Epoll.bitsToPollMask (st.fds fd).wantedBands, fd) with ⟨ret', method⟩
  simp only [FdState.unnotify_fds, hctl] at h
  by_cases hbands : (st.fds fd).registeredBands = (st.fds fd).wantedBands
  · rw [if_pos hbands] at h
    obtain ⟨rfl, rfl⟩ := Prod.mk.inj h
    exact Or.inl ⟨hbands, rfl, rfl⟩
  · rw [if_neg hbands] at h
    refine Or.inr ⟨hbands, method, ?_⟩
    cases ret'
    all_goals
      obtain ⟨rfl, rfl⟩ := Prod.mk.inj h
      exact ⟨rfl, rfl⟩

lemma flushOne_failed (h : flushOne refused st fd = (true, st')) :
    st'.fds = st.fds ∧ st'.method.notify = st.method.notify.erase fd ∧
      st'.method.interest = st.method.interest := by
  rcases flushOne_cases h with ⟨-, hret, -⟩ | ⟨-, method, hctl, rfl⟩
  · cases hret
  · rw [epollCtl_eq hctl]
    exact ⟨rfl, rfl, rfl⟩

/-- A flush that succeeds replaces what the interest set has for the number. -/
lemma flushOne_told (h : flushOne refused st fd = (false, st')) :
    Told epollFree st st' fd (st.fds fd).wantedBands := by
  rcases flushOne_cases h with ⟨hbands, -, rfl⟩ | ⟨hbands, method, hctl, rfl⟩
  · refine ⟨?_, rfl, fun i p hp => Or.inr ⟨hp, fun _ hfits => hbands ▸ hfits.bands⟩⟩
    rw [← hbands, Function.update_eq_self]
    rfl
  · refine .of_update rfl (by rw [epollCtl_eq hctl]; rfl) (by rw [epollCtl_eq hctl]; rfl) ?_
    rintro x hx
    split_ifs at hx with hdel
    · cases hx
    · obtain rfl := Option.some.inj hx
      exact ⟨rfl, Fd.epollOp_ne_del hbands hdel⟩

lemma epoll_freeLaws : FreeLaws epollMethod epollFree :=
  epoll_flushes.freeLaws flushOne_failed flushOne_told

lemma ActiveOk.makeEpollReady (h : ActiveOk st T) (hfd : fd ∈ T) (events : Finset EpollFlag) :
    ActiveOk (makeEpollReady st fd events) T :=
  ((h.makeReadyIf hfd _ _).makeReadyIf hfd _ _).makeReadyIf hfd _ _

lemma epoll_freePoll : FreePoll (LazyFree epollFree) ivFdEpollPoll := by
  intro st T k st' pc h hpoll
  have hkeeps : EpollKeeps fun st => FreeOk (LazyFree epollFree) st T := by
    refine ⟨fun st h => epoll_freeLaws.methodLaws.start h,
      fun st refused fd st' h hlist hflush => ?_, fun st num mask fd h hinterest events => ?_⟩
    · have hcore := flushOne_core refused st fd
      rw [hflush] at hcore
      exact h.of_core hcore
        (h.method.upload (h.method.notify.listed fd hlist) (flushOne_told hflush))
    · -- what is reported is registered
      have hlook : epollFree.look st.method.interest num = some fd := by
        simp [epollFree, tableFree, hinterest]
      have hsame := makeEpollReady_sameRegs st fd events
      exact ⟨h.count.of_same hsame, h.active.makeEpollReady (h.method.users _ fd hlook).1 _,
        h.method.same hsame⟩
  exact hkeeps.poll h hpoll

end Epoll

/-! ### The event port -/

section Port

variable {refused ret : Bool} {st st' : FdState PortState} {fd : FdPtr} {T : Finset FdPtr}

/-- Where the associations refer to descriptors. -/
def portFree : FreeView PortState (ℤ → Option (Finset PollFlag × FdPtr)) ℤ :=
  tableFree PortState.notify PortState.assoc

/-- An upload that fails leaves the port as it is, and one that succeeds replaces the
association. -/
lemma uploadOne_outcome (h : uploadOne refused st fd = (ret, st')) :
    st'.method.notify = st.method.notify.erase fd ∧
    if ret then st'.fds = st.fds ∧ st'.method.assoc = st.method.assoc
    else st'.fds = Function.update st.fds fd
        { st.fds fd with registeredBands := (st.fds fd).wantedBands } ∧
      st'.method.assoc = Function.update st.method.assoc (st.fds fd).fd
        (portAssoc fd (st.fds fd).wantedBands) := by
  unfold uploadOne portAssociate portDissociate at h
  dsimp only at h
  by_cases hwanted : (st.fds fd).wantedBands = ∅
  · simp only [hwanted, ne_eq, not_true_eq_false, if_false] at h
    cases hgone : refused || ((st.method.unnotify fd).assoc (st.fds fd).fd).isNone
    all_goals
      simp only [hgone, Bool.false_eq_true, if_false, if_true] at h
      obtain ⟨rfl, rfl⟩ := Prod.mk.inj h
      simp [portAssoc, hwanted, PortState.unnotify, FdState.setFd, FdState.setMethod]
  · simp only [hwanted, ne_eq, not_false_eq_true, if_true] at h
    cases refused
    all_goals
      simp only [Bool.false_eq_true, if_false, if_true] at h
      obtain ⟨rfl, rfl⟩ := Prod.mk.inj h
      simp [portAssoc, hwanted, PortState.unnotify, FdState.setFd, FdState.setMethod]

lemma uploadOne_told (h : uploadOne refused st fd = (false, st')) :
    Told portFree st st' fd (st.fds fd).wantedBands := by
  obtain ⟨hnotify, hfds, hassoc⟩ := uploadOne_outcome h
  refine .of_update hfds hnotify hassoc fun x hx => ?_
  unfold portAssoc at hx
  split_ifs at hx with hwanted
  · cases hx
  · obtain rfl := Option.some.inj hx
    exact ⟨rfl, hwanted⟩

lemma port_freeLaws : FreeLaws portMethod portFree := by
  refine port_flushes.freeLaws (fun {refused st fd st'} h => ?_) uploadOne_told
  obtain ⟨hnotify, hfds, hassoc⟩ := uploadOne_outcome h
  exact ⟨hfds, hnotify, hassoc⟩

/-- What is retrieved is registered, and may well be put on the list again. -/
lemma port_freeRetrieve (T : Finset FdPtr) :
    RetrieveKeeps fun st => FreeOk (LazyFree portFree) st T := by
  intro st num events fd revents h hassoc
  have hlook : portFree.look st.method.assoc num = some fd := by simp [portFree, tableFree, hassoc]
  obtain ⟨hmem, hfits⟩ := h.method.users num fd hlook
  have hsame := makePollReady_sameRegs st fd revents
  have hready := h.method.same hsame
  have hactive := h.active.makePollReady hmem revents
  have hcount := h.count.of_same hsame
  have hnum : ((makePollReady st fd revents).fds fd).fd = num := by
    rw [hsame.fds fd]
    exact hfits.num
  rw [portReady_eq, ← hsame.method]
  generalize makePollReady st fd revents = st₁ at hready hactive hcount hnum
  have hother : ∀ p ≠ fd, (st₁.setFd fd fun f => { f with registeredBands := ∅ }).fds p =
      st₁.fds p := fun p => st₁.setFd_fds_of_ne _
  refine ⟨?_, hactive.of_sublist (List.Sublist.refl _), ?_, fun i p hp => ?_⟩
  · exact hcount.of_core ((setRegistered_core st₁ fd fun _ => ∅).trans (setMethod_core _ _))
  · exact (hready.notify.setFd (Or.inl rfl) hother).renotify (Or.inr rfl) hmem
      LazyFree.released_refl
  · -- the association of the descriptor is gone
    have hne : i ≠ num := by
      rintro rfl
      simp [portFree, tableFree] at hp
    have hold : portFree.look st₁.method.assoc i = some p := by
      simpa [portFree, tableFree, hne] using hp
    obtain ⟨hpmem, hpfits⟩ := hready.users i p hold
    have hpfd : p ≠ fd := by
      rintro rfl
      exact hne (hpfits.num.symm.trans hnum)
    refine ⟨hpmem, ?_⟩
    simp only [FdState.setMethod_fds, hother p hpfd]
    exact hpfits

lemma port_freePoll : FreePoll (LazyFree portFree) ivFdPortPoll := by
  intro st T k st' pc h hpoll
  have hkeeps : PortKeeps fun st => FreeOk (LazyFree portFree) st T := by
    refine ⟨fun st h => port_freeLaws.methodLaws.start h, fun st refused fd st' h hlist hup => ?_,
      port_freeRetrieve T⟩
    have hcore := uploadOne_core refused st fd
    rw [hup] at hcore
    exact h.of_core hcore (h.method.upload (h.method.notify.listed fd hlist) (uploadOne_told hup))
  exact hkeeps.poll h hpoll

end Port

/-! ### The kqueue method -/

section Kqueue

open Kqueue

variable {refused ret done : Bool} {st st' : FdState KqueueState} {fd : FdPtr} {T : Finset FdPtr}

/-- Where the filters refer to descriptors. -/
def kqueueFree : FreeView KqueueState KqueueKernel (ℤ × KFilter) where
  notify := BatchState.notify
  kernel := BatchState.kernel
  look kernel place := kernel.filters place.1 place.2
  num := Prod.fst
  told place bands := place.2.band ∈ bands
  told_empty _ := by simp

lemma setFilter_apply (filters : ℤ → KFilter → Option FdPtr) (num num' : ℤ)
    (filter filter' : KFilter) (udata : Option FdPtr) :
    setFilter filters num filter udata num' filter' =
      if num' = num ∧ filter' = filter then udata else filters num' filter' := by
  unfold setFilter
  by_cases hnum : num' = num
  · subst hnum
    by_cases hfilter : filter' = filter
    · subst hfilter
      simp
    · simp [hfilter]
  · simp [hnum]

/-- An attempt that fails leaves the kernel as it is. -/
lemma trySync_failed {filter : KFilter} (h : trySync st fd filter = (false, st')) :
    st'.fds = st.fds ∧ st'.method.notify = st.method.notify ∧
      st'.method.kernel = st.method.kernel := by
  unfold trySync at h
  dsimp only at h
  split_ifs at h
  · obtain rfl := (Prod.mk.inj h).2
    exact ⟨rfl, rfl, rfl⟩
  · cases (Prod.mk.inj h).1
  · obtain rfl := (Prod.mk.inj h).2
    exact ⟨rfl, rfl, rfl⟩

/-- An attempt that succeeds sets a filter. -/
lemma trySync_told {filter : KFilter} (hnot : fd ∉ st.method.notify)
    (h : trySync st fd filter = (true, st')) :
    Told kqueueFree st st' fd (insert filter.band (st.fds fd).registeredBands) := by
  unfold trySync at h
  dsimp only at h
  split_ifs at h
  · cases (Prod.mk.inj h).1
  · obtain rfl := (Prod.mk.inj h).2
    refine ⟨rfl, (List.erase_of_not_mem hnot).symm, fun place p hp => ?_⟩
    have hp : setFilter st.method.kernel.filters (st.fds fd).fd filter (some fd) place.1 place.2 =
        some p := hp
    rw [setFilter_apply] at hp
    split_ifs at hp with hplace
    · refine Or.inl ⟨(Option.some.inj hp).symm, hplace.1, ?_⟩
      simp [kqueueFree, hplace.2]
    · exact Or.inr ⟨hp, fun _ hfits => Finset.mem_insert_of_mem hfits.bands⟩
  · cases (Prod.mk.inj h).1

lemma ivFdKqueueNotifyFdSync_cases (h : ivFdKqueueNotifyFdSync st fd = (ret, st')) :
    (ret = false ∧ trySync st fd .read = (true, st')) ∨
      ∃ st₁, trySync st fd .read = (false, st₁) ∧ trySync st₁ fd .write = (!ret, st') := by
  unfold ivFdKqueueNotifyFdSync at h
  rcases hread : trySync st fd .read with ⟨_ | _, st₁⟩
  · rcases hwrite : trySync st₁ fd .write with ⟨done, st₂⟩
    simp only [hread, hwrite] at h
    obtain ⟨rfl, rfl⟩ := Prod.mk.inj h
    exact Or.inr ⟨st₁, rfl, by simp [hwrite]⟩
  · simp only [hread] at h
    obtain ⟨rfl, rfl⟩ := Prod.mk.inj h
    exact Or.inl ⟨rfl, rfl⟩

lemma ivFdKqueueNotifyFdSync_told (hnot : fd ∉ st.method.notify)
    (h : ivFdKqueueNotifyFdSync st fd = (false, st')) :
    ∃ bands, Told kqueueFree st st' fd bands := by
  rcases ivFdKqueueNotifyFdSync_cases h with ⟨-, hread⟩ | ⟨st₁, hread, hwrite⟩
  · exact ⟨_, trySync_told hnot hread⟩
  · obtain ⟨hfds, hnotify, hkernel⟩ := trySync_failed hread
    exact ⟨_, (trySync_told (hnotify ▸ hnot) hwrite).of_eq hfds hnotify hkernel⟩

lemma ivFdKqueueNotifyFdSync_failed (h : ivFdKqueueNotifyFdSync st fd = (true, st')) :
    st'.fds = st.fds ∧ st'.method.notify = st.method.notify ∧
      st'.method.kernel = st.method.kernel := by
  rcases ivFdKqueueNotifyFdSync_cases h with ⟨hret, -⟩ | ⟨st₁, hread, hwrite⟩
  · cases hret
  · obtain ⟨hfds, hnotify, hkernel⟩ := trySync_failed hread
    obtain ⟨hfds', hnotify', hkernel'⟩ := trySync_failed hwrite
    exact ⟨hfds'.trans hfds, hnotify'.trans hnotify, hkernel'.trans hkernel⟩

/-- What the change of a filter does, whatever the kernel has. -/
lemma filters_filterChange (fd : FdPtr) (f : Fd) (filter : KFilter) (k : KqueueKernel) :
    ((filterChange fd f filter).foldl enter k).filters =
      if filter.band ∈ f.wantedBands ↔ filter.band ∈ f.registeredBands then k.filters
      else setFilter k.filters f.fd filter (kqueueFilters fd f.wantedBands filter) := by
  unfold filterChange kqueueFilters
  by_cases hwanted : filter.band ∈ f.wantedBands <;>
    by_cases hreg : filter.band ∈ f.registeredBands <;>
    simp [hwanted, hreg, enter]

/-- What the changes of a descriptor do, whatever the kernel has. -/
lemma filters_queueOne (fd : FdPtr) (f : Fd) (k : KqueueKernel) (num : ℤ) (filter : KFilter) :
    ((queueOne fd f).foldl enter k).filters num filter =
      if num = f.fd ∧ ¬ (filter.band ∈ f.wantedBands ↔ filter.band ∈ f.registeredBands) then
        kqueueFilters fd f.wantedBands filter
      else k.filters num filter := by
  have hchange (filter' : KFilter) (k : KqueueKernel) :
      ((filterChange fd f filter').foldl enter k).filters num filter =
        if num = f.fd ∧ filter = filter' ∧
            ¬ (filter.band ∈ f.wantedBands ↔ filter.band ∈ f.registeredBands) then
          kqueueFilters fd f.wantedBands filter
        else k.filters num filter := by
    rw [filters_filterChange]
    by_cases hfilter : filter = filter'
    · subst hfilter
      split_ifs with hsettled hplace hplace
      · exact absurd hsettled hplace.2.2
      · rfl
      · rw [setFilter_apply, if_pos ⟨hplace.1, rfl⟩]
      · rw [setFilter_apply, if_neg fun h => hplace ⟨h.1, rfl, hsettled⟩]
    · split_ifs with hsettled hplace hplace
      · exact absurd hplace.2.1 hfilter
      · rfl
      · exact absurd hplace.2.1 hfilter
      · rw [setFilter_apply, if_neg fun h => hfilter h.2]
  rw [queueOne, List.foldl_append, hchange, hchange]
  cases filter <;> simp

section Uploads

variable {u u' : Upload KqueueKernel KqueueRest KChange} {notify : List FdPtr}
  {error error' : String}

/-- The kernel will have been told of the wanted bands. -/
lemma queueOne_told (u : Upload KqueueKernel KqueueRest KChange) (fd : FdPtr) :
    Told kqueueFree (u.submitted uploader) ((u.queueOne uploader fd).submitted uploader) fd
      (u.st.fds fd).wantedBands := by
  obtain ⟨harray, indices, -, hst⟩ := queueOne_eq uploader u fd
  have hkernel : ((u.queueOne uploader fd).submitted uploader).method.kernel =
      (queueOne fd (u.st.fds fd)).foldl enter (u.submitted uploader).method.kernel := by
    change (u.queueOne uploader fd).array.foldl enter (u.queueOne uploader fd).st.method.kernel = _
    rw [hst, harray, List.foldl_append]
    rfl
  refine ⟨?_, ?_, fun place p hp => ?_⟩
  · rw [Upload.submitted, hst]
    rfl
  · rw [Upload.submitted, hst]
    rfl
  · have hp : ((u.queueOne uploader fd).submitted uploader).method.kernel.filters place.1 place.2 =
        some p := hp
    rw [hkernel, filters_queueOne] at hp
    split_ifs at hp with hplace
    · unfold kqueueFilters at hp
      split_ifs at hp with hwanted
      exact Or.inl ⟨(Option.some.inj hp).symm, hplace.1, hwanted⟩
    · refine Or.inr ⟨hp, fun _ hfits => ?_⟩
      by_contra hwanted
      exact hplace ⟨hfits.num.symm, fun hiff => hwanted (hiff.mpr hfits.bands)⟩

/-- An upload works off the list. -/
lemma LazyFree.uploadLoop (h : LazyFree kqueueFree (u.submitted uploader) T none)
    (hnotify : u.st.method.notify = notify)
    (hloop : Upload.loop uploader refused error notify u = .ok u') :
    LazyFree kqueueFree (u'.submitted uploader) T none ∧ u'.st.method.notify = [] := by
  induction notify generalizing u with
  | nil => exact Except.ok.inj hloop ▸ ⟨h, hnotify⟩
  | cons fd notify ih =>
    obtain ⟨u₁, hroom, hrest⟩ := bind_eq_ok.mp hloop
    have hu₁ : u₁.submitted uploader = u.submitted uploader ∧
        u₁.st.method.notify = fd :: notify := by
      rcases (makeRoom_eq_ok hroom).2 with rfl | rfl
      · exact ⟨rfl, hnotify⟩
      · exact ⟨rfl, hnotify⟩
    have htold := queueOne_told u₁ fd
    rw [← hu₁.1] at h
    have hmem : fd ∈ u₁.st.method.notify := hu₁.2 ▸ List.mem_cons_self
    refine ih (h.upload (h.notify.listed fd hmem) htold) ?_ hrest
    have hlist : (u₁.queueOne uploader fd).st.method.notify = u₁.st.method.notify.erase fd :=
      htold.notify
    rw [hlist, hu₁.2, List.erase_cons_head]

lemma LazyFree.uploadAll (h : LazyFree kqueueFree st T none)
    (hup : uploadAll uploader refused error error' st = .ok st') :
    LazyFree kqueueFree st' T none ∧ st'.method.notify = [] := by
  obtain ⟨u, hloop, rfl⟩ := uploadAll_eq_ok hup
  have hstart : LazyFree kqueueFree
      ((⟨st, []⟩ : Upload KqueueKernel KqueueRest KChange).submitted uploader) T none := h
  exact hstart.uploadLoop rfl hloop

end Uploads

lemma kqueue_freeLaws : FreeLaws kqueueMethod kqueueFree where
  registerFd h := (Except.ok.inj h).symm
  notifyFd {st fd st'} h := by
    obtain rfl := Except.ok.inj h
    exact ⟨rfl, rfl, rfl⟩
  sync hnot h := ivFdKqueueNotifyFdSync_told hnot (Except.ok.inj h)
  syncFailed _ h := ivFdKqueueNotifyFdSync_failed (Except.ok.inj h)
  unlisted {refused st fd st'} h hnot := by
    have h := (if_neg hnot).symm.trans h
    exact (Except.ok.inj h).symm
  listed {refused st T fd st'} h hmem hok := by
    have hup : ivFdKqueueUploadAll refused st = .ok st' := (if_pos hmem).symm.trans h
    obtain ⟨hok', hnil⟩ := hok.uploadAll hup
    exact ⟨hok', by simp [kqueueFree, hnil]⟩

/-- The timer change leaves the filters alone. -/
lemma LazyFree.timeoutCheck {timeout : KTimeout} {timing timing' : Bool} {change : List KChange}
    (h : LazyFree kqueueFree st T none)
    (hcheck : timeoutCheck timing timeout = some (timing', change)) :
    LazyFree kqueueFree (Upload.submitted uploader (change.foldl Upload.push ⟨st, []⟩)) T none := by
  cases timing <;> cases timeout <;> cases hcheck
  all_goals exact h.congr rfl rfl rfl

lemma kqueue_freePoll : FreePoll (LazyFree kqueueFree) ivFdKqueuePoll := by
  intro st T k st' pc h hpoll
  have hkeeps : KqueueKeeps fun st => FreeOk (LazyFree kqueueFree) st T := by
    refine ⟨fun st h => kqueue_freeLaws.methodLaws.start h,
      fun st timeout refused st' h hblock => ?_, fun st num filter fd h hfilter => ?_,
      fun st h => ?_⟩
    · refine h.of_core (kqueueBlock_core hblock) ?_
      obtain ⟨timing, change, u, hcheck, hup, rfl⟩ := kqueueBlock_eq_some hblock
      have hset : LazyFree kqueueFree (st.setMethod { st.method with
          rest := { st.method.rest with timing := timing } }) T none := h.method.congr rfl rfl rfl
      exact ((hset.timeoutCheck hcheck).uploadLoop rfl hup).1
    · -- what is reported is registered
      have hmem := (h.method.users (num, filter) fd hfilter).1
      have hsame := SameRegs.ivFdMakeReady st fd {filter.band}
      exact ⟨h.count.of_same hsame, h.active.makeReady hmem _, h.method.same hsame⟩
    · exact h.of_core (setMethod_core st _) (h.method.congr rfl rfl rfl)
  exact hkeeps.poll h hpoll

end Kqueue

/-! ### The poll method -/

section Poll

variable {st : FdState PollState} {T : Finset FdPtr} {n : ℕ}

lemma ActiveOk.activateFds (h : ActiveOk st T) (hfds : ∀ i < n, st.method.fds i ∈ T) :
    ActiveOk (activateFds st n) T := by
  induction n with
  | zero => exact h
  | succ n ih =>
    rw [activateFds_succ, (activateFds_sameRegs st n).method]
    exact (ih fun i hi => hfds i (by omega)).makePollReady (hfds n (by omega)) _

lemma poll_freePoll : FreePoll PollOk ivFdPollPoll := by
  intro st T k st' pc h hpoll
  have hstart := poll_methodLaws.start h
  cases k with
  | events revents =>
    obtain ⟨rfl, -⟩ := Prod.mk.inj (Option.some.inj hpoll)
    have hsame := activateFds_sameRegs (answered st revents) st.method.numRegdFds.toNat
    refine ⟨(hstart.count.of_core (setMethod_core _ _)).of_same hsame, ?_,
      (hstart.method.answer revents).of_same hsame⟩
    have hactive : ActiveOk (answered st revents) T := .of_nil rfl T
    refine hactive.activateFds (n := st.method.numRegdFds.toNat) fun i hi => ?_
    exact (h.method.entry i (by omega) (by omega)).1
  | interrupted =>
    obtain ⟨rfl, -⟩ := Prod.mk.inj (Option.some.inj hpoll)
    exact hstart

/-- Nothing but the index of the descriptor has been touched. -/
lemma poll_undone {st' : FdState PollState} {fd : FdPtr} {refused : Bool} (h : FreeOk PollOk st T)
    (htry : ivFdRegisterTry pollMethod refused st fd = .ok (true, st')) :
    PollUndone st st' fd := by
  obtain ⟨hreg, hfd, st₁, st₂, henrol, hsync, hunreg⟩ := ivFdRegisterTry_eq_ok htry
  have hmem : fd ∉ T := by simp [h.count.mem_iff, hreg]
  cases refused with
  | false => cases hsync
  | true =>
    have hmax : (st.fds fd).fd < ivFdPollMaxfd := by
      by_contra hmax
      simp [pollMethod, ivFdPollRegisterFd, FdState.enrol, not_lt.mp hmax] at henrol
    obtain rfl := ivFdPollRegisterFd_eq_ok henrol
    rw [FdState.ask_setMethod] at hsync
    obtain rfl := (Prod.mk.inj (Except.ok.inj hsync)).2
    obtain rfl := Except.ok.inj hunreg
    obtain ⟨hself, hnum, -⟩ := st.asked_self fd
    refine ⟨.of_fds h hreg (.of_registerTry htry) rfl ?_, rfl, rfl, rfl, fun i h0 hi hfds => ?_⟩
    · refine ivFdRegister_ok hself (hnum.symm ▸ hfd) ⟨_, if_neg ?_⟩ fun st => ⟨_, rfl⟩
      have hmax' : (((st.asked fd).enrol fd).fds fd).fd < ivFdPollMaxfd := by
        simpa [FdState.enrol, hnum] using hmax
      exact not_le.mpr hmax'
    · exact hmem (hfds ▸ (h.method.entry i h0 hi).1)

end Poll

/-! ### The `/dev/poll` method -/

section DevPoll

open DevPoll

variable {st st' : FdState DevPollState} {T : Finset FdPtr} {fd : FdPtr}

/-- A descriptor goes into the tree only if no other one has its number. -/
lemma DevPollOk.new_of_enrol (h : DevPollOk st T none) (hfd : FreshFd st T fd)
    (henrol : devPollMethod.registerFd (st.enrol fd) fd = .ok st') : NewFd st T fd := by
  obtain ⟨hlt, tree, hinsert, -⟩ := ivFdDevPollRegisterFd_eq_ok henrol
  have htree := h.tree.enrol hfd.notMem
  have hkey := htree.tree.key_ne_of_insert (htree.avlNode_notMem hfd.notMem hlt) hinsert
  refine ⟨hfd.notMem, fun q hq => ?_, hfd.nonneg⟩
  have hne : q ≠ fd := fun heq => hfd.notMem (heq ▸ hq)
  have hnum := hkey (avlNode q) (Finset.mem_image_of_mem avlNode hq)
  rw [htree.numberOf hq, numberOf, avlNode_toNat hlt] at hnum
  simpa [FdState.enrol, hne] using hnum

lemma devPoll_methodLaws : MethodLaws devPollMethod DevPollOk FreshFd fun _ => True where
  congr := devPoll_backend.congr
  same := devPoll_backend.same
  prepare := devPoll_backend.prepare
  change := devPoll_backend.change
  enrol h hfd henrol := devPoll_backend.enrol h (h.new_of_enrol hfd henrol) henrol
  notify := devPoll_backend.notify
  sync h hfd henrol := devPoll_backend.sync h (h.new_of_enrol hfd henrol) henrol
  syncFailed h hfd henrol := devPoll_backend.syncFailed h (h.new_of_enrol hfd henrol) henrol
  unregister := devPoll_backend.unregister

lemma devPoll_freePoll : FreePoll DevPollOk ivFdDevPollPoll := by
  intro st T k st' pc h hpoll
  have hkeeps : DevPollKeeps fun st => FreeOk DevPollOk st T := by
    refine ⟨fun st h => devPoll_methodLaws.start h, fun st refused st' h hflush =>
      h.of_core (uploadAll_sameRest hflush).core (h.method.flush hflush),
      fun st num fd h hpolled hfind revents => ?_⟩
    -- what is reported is registered
    obtain ⟨p, hp, -, hfind'⟩ := h.method.find hpolled
    obtain rfl := Option.some.inj (Except.ok.inj (hfind'.symm.trans hfind))
    have hsame := makePollReady_sameRegs st p revents
    exact ⟨h.count.of_same hsame, h.active.makePollReady hp _, h.method.same hsame⟩
  exact hkeeps.poll h hpoll

/-- The node of the descriptor is taken out of the tree again. -/
lemma devPoll_undone {refused : Bool} (h : FreeOk DevPollOk st T)
    (htry : ivFdRegisterTry devPollMethod refused st fd = .ok (true, st')) :
    DevPollUndone st st' fd := by
  obtain ⟨hreg, hfd, st₁, st₂, henrol, hsync, hunreg⟩ := ivFdRegisterTry_eq_ok htry
  have hmem : fd ∉ T := by simp [h.count.mem_iff, hreg]
  have hnot := h.method.view.notMem_notify hmem
  have hnew := h.method.new_of_enrol ⟨hmem, hfd⟩ henrol
  have hok := devPoll_backend.syncFailed h.method hnew henrol hsync hunreg
  obtain ⟨hlt, tree, hinsert, rfl⟩ := ivFdDevPollRegisterFd_eq_ok henrol
  cases refused with
  | false => cases hsync
  | true =>
    rw [FdState.ask_setMethod] at hsync
    obtain rfl := (Prod.mk.inj (Except.ok.inj hsync)).2
    obtain ⟨tree', hdelete, hrest⟩ := ivFdDevPollUnregisterFd_eq_ok hunreg
    have hst' := Except.ok.inj ((if_neg hnot).symm.trans hrest)
    have hfds : st'.fds = (st.asked fd).fds := by
      rw [← hst']
      rfl
    obtain ⟨hself, hnum, -⟩ := st.asked_self fd
    rw [← hfds] at hself hnum
    have hnum' : ∀ p, (st'.fds p).fd = (st.fds p).fd := by
      intro p
      by_cases hp : p = fd
      · rw [hp, hnum]
      · rw [hfds, st.asked_of_ne hp]
    have hnew' : NewFd st' T fd := ⟨hmem, fun q hq => by
      rw [hnum', hnum']
      exact hnew.free q hq, hnum ▸ hfd⟩
    refine ⟨.of_fds h hreg (.of_registerTry htry) hfds ?_, ?_, ?_, ?_, T.image avlNode, ?_, ?_, ?_⟩
    · exact ivFdRegister_ok hself (hnum ▸ hfd) (devPoll_returns.register hok ⟨hnew', hlt⟩)
        fun st => ⟨_, rfl⟩
    · rw [← hst']
      rfl
    · rw [← hst']
      rfl
    · exact hok.view.notMem_notify hmem
    · exact hok.tree.avlNode_notMem hmem hlt
    · exact h.method.tree.tree
    · exact hok.tree.tree

end DevPoll

/-! ### Refusals in every run -/

section Main

variable (fds : FdPtr → Fd)

lemma LazyFree.empty {v : FreeView μ κ ι} {st : FdState μ} (hnotify : v.notify st.method = [])
    (hlook : ∀ i, v.look (v.kernel st.method) i = none) : LazyFree v st ∅ none := by
  refine ⟨⟨?_, ?_, ?_, ?_⟩, ?_⟩ <;> simp [hnotify, hlook]

lemma FreeOk.init {I : FdState μ → Finset FdPtr → Option FdPtr → Prop} {method : μ}
    (h : I (ivFdInit fds method).st ∅ none) : FreeOk I (ivFdInit fds method).st ∅ :=
  ⟨(fdsOk_init fds method).toFdCount, .of_nil rfl ∅, h⟩

/-- In whatever state a thread is, and whatever handlers the descriptor has: if
`iv_fd_register_try` fails then everything is as it was before, with any poll method. -/
theorem registerTry_undone (fd : FdPtr) (refused : Bool) :
    (∀ poll tr s st', (freeLts pollMethod ivFdPollPoll (ivFdPollInit fds poll)).Run tr s →
      ivFdRegisterTry pollMethod refused s.st fd = .ok (true, st') → PollUndone s.st st' fd) ∧
    (∀ tr s st', (freeLts epollMethod ivFdEpollPoll (ivFdEpollInit fds)).Run tr s →
      ivFdRegisterTry epollMethod refused s.st fd = .ok (true, st') →
      LazyUndone epollMethod epollFree s.st st' fd) ∧
    (∀ answers tr s st',
      (freeLts kqueueMethod ivFdKqueuePoll (ivFdKqueueInit fds answers)).Run tr s →
      ivFdRegisterTry kqueueMethod refused s.st fd = .ok (true, st') →
      LazyUndone kqueueMethod kqueueFree s.st st' fd) ∧
    (∀ nodes tr s st',
      (freeLts devPollMethod ivFdDevPollPoll (ivFdDevPollInit fds nodes)).Run tr s →
      ivFdRegisterTry devPollMethod refused s.st fd = .ok (true, st') →
      DevPollUndone s.st st' fd) ∧
    ∀ tr s st', (freeLts portMethod ivFdPortPoll (ivFdPortInit fds)).Run tr s →
      ivFdRegisterTry portMethod refused s.st fd = .ok (true, st') →
      LazyUndone portMethod portFree s.st st' fd := by
  refine ⟨?_, ?_, ?_, ?_, ?_⟩
  · intro poll tr s st' hrun htry
    exact poll_undone (poll_methodLaws.free_of_run poll_freePoll
      (.init fds (pollInv_init fds poll).backend) hrun) htry
  · intro tr s st' hrun htry
    have hok := epoll_freeLaws.methodLaws.free_of_run epoll_freePoll
      (.init fds (.empty rfl fun _ => rfl)) hrun
    exact epoll_freeLaws.lazyUndone (fun _ _ => rfl) (fun _ _ => ⟨_, rfl⟩) hok htry
  · intro answers tr s st' hrun htry
    have hok := kqueue_freeLaws.methodLaws.free_of_run kqueue_freePoll
      (.init fds (.empty rfl fun _ => rfl)) hrun
    exact kqueue_freeLaws.lazyUndone (fun _ _ => rfl) (fun _ _ => ⟨_, rfl⟩) hok htry
  · intro nodes tr s st' hrun htry
    exact devPoll_undone (devPoll_methodLaws.free_of_run devPoll_freePoll
      (.init fds (devPollInv_init fds nodes).backend) hrun) htry
  · intro tr s st' hrun htry
    have hok := port_freeLaws.methodLaws.free_of_run port_freePoll
      (.init fds (.empty rfl fun _ => rfl)) hrun
    exact port_freeLaws.lazyUndone (fun _ _ => rfl) (fun _ _ => ⟨_, rfl⟩) hok htry

end Main

/-- Descriptors that all have the same number, and a handler. -/
def sameNumber : FdPtr → Fd :=
  fun _ => ⟨3, some 1, none, none, ∅, false, ∅, ∅⟩

/-- A run at whose end a call of `iv_fd_register_try` fails. -/
lemma exists_refused {m : PollMethod μ} {poll : FdState μ → κ → Option (FdState μ × DispatchPc)}
    {init : LoopState μ} {tr : List (LoopLabel κ)} {fd : FdPtr}
    {P : LoopState μ → FdState μ → Prop} (h : ((freeLts m poll init).exec init tr).bind (fun s =>
      (ivFdRegisterTry m true s.st fd).toOption.map Prod.fst) = some true)
    (hP : ∀ s st', (freeLts m poll init).Run tr s →
      ivFdRegisterTry m true s.st fd = .ok (true, st') → P s st') :
    ∃ s st', (freeLts m poll init).Run tr s ∧
      ivFdRegisterTry m true s.st fd = .ok (true, st') ∧ P s st' := by
  obtain ⟨s, hrun, h⟩ := Option.bind_eq_some_iff.mp h
  obtain ⟨⟨ret, st'⟩, htry, rfl⟩ := Option.map_eq_some_iff.mp h
  have htry := toOption_eq_some.mp htry
  exact ⟨s, st', hrun, htry, hP s st' hrun htry⟩

/-- While a descriptor is registered, another one is refused: one with the same number, except for
the `/dev/poll` method. -/
theorem registerTry_undone_sameNumber :
    (∃ s st', (freeLts pollMethod ivFdPollPoll (ivFdPollInit sameNumber noPolls)).Run
        [.op (.register 5)] s ∧
      ivFdRegisterTry pollMethod true s.st 6 = .ok (true, st') ∧ PollUndone s.st st' 6) ∧
    (∃ s st', (freeLts epollMethod ivFdEpollPoll (ivFdEpollInit sameNumber)).Run
        [.op (.register 5)] s ∧
      ivFdRegisterTry epollMethod true s.st 6 = .ok (true, st') ∧
      LazyUndone epollMethod epollFree s.st st' 6) ∧
    (∃ s st', (freeLts kqueueMethod ivFdKqueuePoll (ivFdKqueueInit sameNumber fun _ => true)).Run
        [.op (.register 5)] s ∧
      ivFdRegisterTry kqueueMethod true s.st 6 = .ok (true, st') ∧
      LazyUndone kqueueMethod kqueueFree s.st st' 6) ∧
    (∃ s st', (freeLts devPollMethod ivFdDevPollPoll (ivFdDevPollInit sameNumber emptyNodes)).Run
        [.op (.register 5), .op (.prepare 6 4 (some 1) none none)] s ∧
      ivFdRegisterTry devPollMethod true s.st 6 = .ok (true, st') ∧ DevPollUndone s.st st' 6) ∧
    ∃ s st', (freeLts portMethod ivFdPortPoll (ivFdPortInit sameNumber)).Run
        [.op (.register 5)] s ∧
      ivFdRegisterTry portMethod true s.st 6 = .ok (true, st') ∧
      LazyUndone portMethod portFree s.st st' 6 := by
  obtain ⟨hpoll, hepoll, hkqueue, hdevPoll, hport⟩ := registerTry_undone sameNumber 6 true
  refine ⟨?_, ?_, ?_, ?_, ?_⟩
  · exact exists_refused (by decide) (hpoll _ _)
  · exact exists_refused (by decide) (hepoll _)
  · exact exists_refused (by decide) (hkqueue _ _)
  · exact exists_refused (by decide +kernel) (hdevPoll _ _)
  · exact exists_refused (by decide) (hport _)

end Ivykis
