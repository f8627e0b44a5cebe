import Ivykis.Fd.Backend

/-!
# Poll methods that tell the kernel of one descriptor at a time

The epoll and the event port methods take a descriptor from the list of pending changes and tell the
kernel of its wanted bands: before a poll, and when the descriptor is unregistered or is registered
with `iv_fd_register_try`. `FlushLaws` is what they have in common, and the laws of a poll method
follow from it.
-/

namespace Ivykis

variable {μ κ : Type}

/-- The list and the kernel are right for the descriptors `T`, and so are the calls that the method
has made. -/
structure FlushOk (v : LazyView μ κ) (Calls : μ → Prop) (st : FdState μ) (T : Finset FdPtr)
    (dirty : Option FdPtr) : Prop where
  view : LazyOk v st T dirty
  calls : Calls st.method

/-- The kernel has been told of a descriptor, or has refused. -/
structure Flushed (v : LazyView μ κ) (Calls : μ → Prop) (st : FdState μ) (T : Finset FdPtr)
    (fd : FdPtr) (refused ret : Bool) (st' : FdState μ) : Prop where
  notMem : fd ∉ v.notify st'.method
  failed : ret = true → refused = true ∧ FlushOk v Calls st' T (some fd) ∧ st'.fds = st.fds
  done : ret = false → FlushOk v Calls st' T none ∧
    (st'.fds fd).registeredBands = (st.fds fd).wantedBands

/-- A poll method that calls `flushOne` for a descriptor with a pending change. -/
structure FlushLaws (m : PollMethod μ) (v : LazyView μ κ) (Calls : μ → Prop)
    (flushOne : Bool → FdState μ → FdPtr → Bool × FdState μ) : Prop where
  settled : ∀ {bands bands'}, v.settled bands bands' → bands = bands'
  register : ∀ st fd, m.registerFd st fd = .ok st
  notify : ∀ st fd, ∃ method, m.notifyFd st fd = .ok (st.setMethod method) ∧
    v.notify method = renotify (v.notify st.method) fd (st.fds fd) ∧
    v.kernel method = v.kernel st.method ∧ (Calls st.method → Calls method)
  sync : ∀ refused st fd, m.notifyFdSync refused st fd = .ok (flushOne refused st fd)
  unregister : ∀ {refused st fd st'}, fd ∈ v.notify st.method →
    (m.unregisterFd refused st fd = .ok st' ↔ flushOne refused st fd = (false, st'))
  leave : ∀ {refused st fd}, fd ∉ v.notify st.method → m.unregisterFd refused st fd = .ok st
  flushOne : ∀ {st T dirty fd refused ret st'}, FlushOk v Calls st T dirty →
    dirty = none ∨ dirty = some fd → fd ∈ T →
    ((st.fds fd).wantedBands = ∅ → (st.fds fd).registeredBands ≠ ∅) →
    flushOne refused st fd = (ret, st') → Flushed v Calls st T fd refused ret st'

namespace FlushLaws

variable {m : PollMethod μ} {v : LazyView μ κ} {Calls : μ → Prop}
  {flushOne : Bool → FdState μ → FdPtr → Bool × FdState μ} {st st' : FdState μ} {T : Finset FdPtr}
  {fd : FdPtr} {refused ret : Bool}

lemma enrol (F : FlushLaws m v Calls flushOne) (h : FlushOk v Calls st T none)
    (hnew : NewFd st T fd) {st₁ : FdState μ} (henrol : m.registerFd (st.enrol fd) fd = .ok st₁) :
    st₁ = st.enrol fd ∧ FlushOk v Calls st₁ (insert fd T) (some fd) := by
  obtain rfl := Except.ok.inj ((F.register _ fd).symm.trans henrol)
  exact ⟨rfl, h.view.enrol hnew, h.calls⟩

lemma flush (F : FlushLaws m v Calls flushOne) (h : FlushOk v Calls st T none)
    (hlist : fd ∈ v.notify st.method) (hflush : flushOne refused st fd = (ret, st')) :
    Flushed v Calls st T fd refused ret st' := by
  have hpending := h.view.notify.pending fd hlist (by simp)
  exact F.flushOne h (Or.inl rfl) (h.view.notify.listed fd hlist) (fun hnone => hnone ▸ hpending)
    hflush

/-- That succeeds, unless the kernel refuses. -/
lemma flush_false (F : FlushLaws m v Calls flushOne) (h : FlushOk v Calls st T none)
    (hlist : fd ∈ v.notify st.method) : ∃ st', flushOne false st fd = (false, st') := by
  rcases hflush : flushOne false st fd with ⟨_ | _, st'⟩
  · exact ⟨st', rfl⟩
  · exact absurd ((F.flush h hlist hflush).failed rfl).1 Bool.false_ne_true

/-- `iv_fd_register_try` asks the kernel for a new descriptor. -/
lemma ask (F : FlushLaws m v Calls flushOne) (h : FlushOk v Calls st T none) (hnew : NewFd st T fd)
    {st₁ : FdState μ} (henrol : m.registerFd (st.enrol fd) fd = .ok st₁)
    (hsync : m.notifyFdSync refused (st₁.ask fd) fd = .ok (ret, st')) :
    Flushed v Calls (st₁.ask fd) (insert fd T) fd refused ret st' ∧
      (ret = true → (st'.fds fd).registeredBands = ∅) := by
  obtain ⟨rfl, hok⟩ := F.enrol h hnew henrol
  have hask : FlushOk v Calls ((st.enrol fd).ask fd) (insert fd T) (some fd) :=
    ⟨hok.view.ask, by rw [FdState.ask_method]; exact hok.calls⟩
  have hreg : ((st.enrol fd).fds fd).registered = true := by simp [FdState.enrol]
  have hflushed := F.flushOne hask (Or.inr rfl) (Finset.mem_insert_self fd T)
    (fun hwanted => absurd hwanted (FdState.ask_wantedBands_ne hreg))
    (Except.ok.inj ((F.sync refused _ fd).symm.trans hsync))
  refine ⟨hflushed, fun hret => ?_⟩
  rw [(hflushed.failed hret).2.2, FdState.ask_registeredBands]
  simp [FdState.enrol]

/-- The method keeps the kernel in step. -/
lemma backend (F : FlushLaws m v Calls flushOne) :
    Backend m (FlushOk v Calls) fun _ => True where
  congr h hfds hmethod :=
    ⟨h.view.congr hfds (congrArg _ hmethod) (congrArg _ hmethod), hmethod ▸ h.calls⟩
  same h hsame := ⟨h.view.same hsame, hsame.method ▸ h.calls⟩
  prepare h hmem f := ⟨h.view.prepare hmem f, h.calls⟩
  change h hdirty _ hf := ⟨h.view.change hdirty hf, h.calls⟩
  enrol h hnew henrol := (F.enrol h hnew henrol).2
  notify {st T fd st'} h hmem hnotify := by
    obtain ⟨method, hmethod, hlist, hkernel, hcalls⟩ := F.notify st fd
    obtain rfl := Except.ok.inj (hmethod.symm.trans hnotify)
    exact ⟨h.view.renotify (Or.inr rfl) hmem rfl hlist hkernel, hcalls h.calls⟩
  sync h hnew henrol hsync := by
    have hdone := ((F.ask h hnew henrol hsync).1.done rfl).1
    exact ⟨⟨hdone.view.weaken, hdone.calls⟩, fun _ _ => hdone⟩
  syncFailed {st T fd st₁ refused st₂ st₃} h hnew henrol hsync hunreg := by
    obtain ⟨hflushed, hbands⟩ := F.ask h hnew henrol hsync
    obtain ⟨-, hok, -⟩ := hflushed.failed rfl
    -- the descriptor is not on the list, so that it is just left
    have hleave : m.unregisterFd refused
        (st₂.setFd fd fun f => { f with registered := false }) fd = .ok _ :=
      F.leave hflushed.notMem
    obtain rfl := Except.ok.inj (hleave.symm.trans hunreg)
    have hset := hok.view.change (f := fun f => { f with registered := false }) (Or.inr rfl)
      ⟨rfl, rfl⟩
    have hforget := hset.forget (Or.inr rfl) (by simp [hbands rfl]) hflushed.notMem
    rw [Finset.erase_insert hnew.notMem] at hforget
    exact ⟨hforget, hok.calls⟩
  unregister {st T fd refused st'} h hmem hwanted hunreg := by
    by_cases hlist : fd ∈ v.notify st.method
    · have hflushed := F.flush h hlist ((F.unregister hlist).mp hunreg)
      obtain ⟨hok, hbands⟩ := hflushed.done rfl
      exact ⟨hok.view.forget (Or.inl rfl) (congrArg _ (hbands.trans hwanted)) hflushed.notMem,
        hok.calls⟩
    · obtain rfl := Except.ok.inj ((F.leave hlist).symm.trans hunreg)
      have hbands := F.settled (h.view.notify.unlisted fd hmem (by simp) hlist)
      exact ⟨h.view.forget (Or.inl rfl) (congrArg _ (hbands.trans hwanted)) hlist, h.calls⟩

/-- No call ends in a fatal error, and `iv_fd_register_try` comes back also from a refusal. -/
lemma returns (F : FlushLaws m v Calls flushOne) : MethodReturns m (FlushOk v Calls) NewFd where
  register _ _ := ⟨_, F.register _ _⟩
  notify st fd := ⟨_, (F.notify st fd).choose_spec.1⟩
  sync _ _ _ := ⟨_, _, F.sync _ _ _⟩
  syncFailed h hnew henrol hsync := ⟨_, F.leave (F.ask h hnew henrol hsync).1.notMem⟩
  unregister {st T fd} h hmem hwanted := by
    by_cases hlist : fd ∈ v.notify st.method
    · obtain ⟨st', hflush⟩ := F.flush_false h hlist
      exact ⟨st', (F.unregister hlist).mpr hflush⟩
    · exact ⟨st, F.leave hlist⟩

section Loop

variable {ι : Type} {poll : FdState μ → ι → Option (FdState μ × DispatchPc)} {s s' : LoopState μ}

/-- A descriptor that is unregistered is gone, from the list and from the kernel. -/
lemma unregister_gone (F : FlushLaws m v Calls flushOne) (hkeeps : PollKeeps (FlushOk v Calls) poll)
    (hinv : BackendInv (FlushOk v Calls) s)
    (hstep : loopStep m poll s (.op (.unregister fd refused)) = some s') :
    fd ∉ v.notify s'.st.method ∧ v.kernel s'.st.method (s'.st.fds fd).fd = v.entry fd ∅ := by
  have hstep : LoopStep m poll s (.op (.unregister fd refused)) s' := .of_step hstep
  have hinv' := F.backend.loopStep hkeeps hinv hstep fun op _ => op.asks_true _
  cases hstep with
  | op hpc hdistinct hop =>
    obtain ⟨hnot, hfree⟩ := hop.unregister_gone hinv.fds
    exact ⟨fun hlist => hnot (hinv'.backend.view.notify.listed fd hlist),
      hinv'.backend.view.kernel.unknown _ hfree fd⟩

variable (poll) in
/-- Every call that the manual allows is a step. -/
lemma op_isSome (F : FlushLaws m v Calls flushOne) (hinv : BackendInv (FlushOk v Calls) s)
    {op : FdOp} (hpc : s.pc = .done ∨ s.pc.inUser = true) (hop : op.valid s.st = true)
    (hdistinct : op.distinct s.st s.regs = true) : (loopStep m poll s (.op op)).isSome = true :=
  F.returns.loopStep F.backend hinv hpc hop hdistinct
    (FdOp.new_of_valid hop hinv.fds.toFdCount hdistinct)

end Loop

end FlushLaws

end Ivykis
