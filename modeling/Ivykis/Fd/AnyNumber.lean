import Ivykis.Fd.Backend
import Ivykis.Kit.Lts

/-!
# Threads whose descriptors have any numbers

Nothing keeps a user from registering two descriptors with the same number. What the kernel knows is
then not what the poll methods think that it knows. But it still holds that whatever the lists and
the kernel refer to is registered, and this is what is shown here, for any poll method that puts
changes off.
-/

namespace Ivykis

variable {μ κ ι : Type}

/-- A step of a thread, like `loopStep`, but for descriptors with any numbers. -/
def freeStep (m : PollMethod μ) (poll : FdState μ → κ → Option (FdState μ × DispatchPc))
    (s : LoopState μ) : LoopLabel κ → Option (LoopState μ)
  | .op o =>
    if s.pc = .done ∨ s.pc.inUser then
      (fdStep m s.st o).map fun st => { s with st := st, regs := o.regsAfter st s.regs }
    else none
  | .poll k  => loopStep m poll s (.poll k)
  | .round a => loopStep m poll s (.round a)

/-- A thread that starts in a given state. -/
def freeLts (m : PollMethod μ) (poll : FdState μ → κ → Option (FdState μ × DispatchPc))
    (init : LoopState μ) : Kit.Lts (LoopState μ) (LoopLabel κ) where
  init := init
  step := freeStep m poll

/-! ### The list of active descriptors -/

/-- Only descriptors of `T` are active, each of them once. -/
structure ActiveOk (st : FdState μ) (T : Finset FdPtr) : Prop where
  nodup : st.active.Nodup
  mem : ∀ p ∈ st.active, p ∈ T

namespace ActiveOk

variable {m : PollMethod μ} {st st' : FdState μ} {T regs : Finset FdPtr} {fd : FdPtr} {op : FdOp}

lemma of_sublist (h : ActiveOk st T) (hsub : st'.active.Sublist st.active) : ActiveOk st' T :=
  ⟨h.nodup.sublist hsub, fun p hp => h.mem p (hsub.subset hp)⟩

lemma of_nil (hnil : st.active = []) (T : Finset FdPtr) : ActiveOk st T := by
  constructor <;> simp [hnil]

lemma makeReady (h : ActiveOk st T) (hfd : fd ∈ T) (bands : Finset Band) :
    ActiveOk (ivFdMakeReady st fd bands) T := by
  by_cases hmem : fd ∈ st.active
  · exact h.of_sublist (by rw [ivFdMakeReady_active_of_mem hmem])
  · constructor
    · rw [ivFdMakeReady_active_of_notMem hmem, List.nodup_append_comm]
      exact List.nodup_cons.mpr ⟨hmem, h.nodup⟩
    · intro p hp
      rw [ivFdMakeReady_active_of_notMem hmem] at hp
      rcases List.mem_append.mp hp with hp | hp
      · exact h.mem p hp
      · exact List.mem_singleton.mp hp ▸ hfd

lemma makeReadyIf (h : ActiveOk st T) (hfd : fd ∈ T) (reason : Bool) (band : Band) :
    ActiveOk (makeReadyIf reason st fd band) T := by
  unfold Ivykis.makeReadyIf
  split_ifs
  · exact h.makeReady hfd _
  · exact h

lemma makePollReady (h : ActiveOk st T) (hfd : fd ∈ T) (revents : Finset PollFlag) :
    ActiveOk (makePollReady st fd revents) T :=
  ((h.makeReadyIf hfd _ _).makeReadyIf hfd _ _).makeReadyIf hfd _ _

lemma step (h : ActiveOk st regs) (hcount : FdCount st regs) (hstep : FdStep m st op st') :
    ActiveOk st' (op.regsAfter st' regs) := by
  refine ⟨h.nodup.sublist hstep.active_sublist, fun p hp => ?_⟩
  obtain ⟨hactive, hop⟩ := (hstep.mem_active h.nodup).mp hp
  have hreg := (hcount.mem_iff p).mp (h.mem p hactive)
  exact (hcount.mem_regsAfter_iff hstep p).mpr (hstep.kept hreg hop).1

end ActiveOk

/-! ### The invariant of a thread -/

/-- The count of the descriptors, the list of active ones and the poll method are in order. -/
structure FreeOk (I : FdState μ → Finset FdPtr → Option FdPtr → Prop) (st : FdState μ)
    (T : Finset FdPtr) : Prop where
  count : FdCount st T
  active : ActiveOk st T
  method : I st T none

lemma MethodLaws.start {m : PollMethod μ} {I : FdState μ → Finset FdPtr → Option FdPtr → Prop}
    {New : FdState μ → Finset FdPtr → FdPtr → Prop} {Ask : Finset Band → Prop} {st : FdState μ}
    {T : Finset FdPtr} (B : MethodLaws m I New Ask) (h : FreeOk I st T) :
    FreeOk I { st with active := [] } T :=
  ⟨h.count.of_same (.start st), .of_nil rfl T, B.same h.method (.start st)⟩

lemma FreeOk.of_core {I : FdState μ → Finset FdPtr → Option FdPtr → Prop} {st st' : FdState μ}
    {T : Finset FdPtr} (h : FreeOk I st T) (hcore : st.SameCore st') (hmethod : I st' T none) :
    FreeOk I st' T :=
  ⟨h.count.of_core hcore, h.active.of_sublist (by rw [hcore.active]), hmethod⟩

/-- A step of the method's `poll` keeps them in order. -/
def FreePoll (I : FdState μ → Finset FdPtr → Option FdPtr → Prop)
    (poll : FdState μ → κ → Option (FdState μ × DispatchPc)) : Prop :=
  ∀ ⦃st T k st' pc⦄, FreeOk I st T → poll st k = some (st', pc) → FreeOk I st' T

/-- A round takes descriptors from the list of active ones, one after the other. -/
lemma dispatchStep_active {m : PollMethod μ} {s s' : DispatchState μ} {a : DispatchLabel}
    (ha : a.internal = true) (h : dispatchStep m s a = some s') :
    s'.st.active.Sublist s.st.active := by
  obtain ⟨st, pc⟩ := s
  obtain ⟨st', pc'⟩ := s'
  have hstep := DispatchStep.of_step h
  dsimp only at hstep
  cases hstep with
  | ready _ | op _ _ => cases ha
  | take hactive =>
    rw [hactive]
    exact List.sublist_cons_self _ _
  | _ => exact List.Sublist.refl _

section Run

variable {m : PollMethod μ} {poll : FdState μ → κ → Option (FdState μ × DispatchPc)}
  {I : FdState μ → Finset FdPtr → Option FdPtr → Prop} {s s' init : LoopState μ}
  {a : LoopLabel κ} {tr : List (LoopLabel κ)}

/-- Every step of a thread keeps the invariant. -/
theorem MethodLaws.freeStep (B : MethodLaws m I FreshFd fun _ => True) (hpoll : FreePoll I poll)
    (h : FreeOk I s.st s.regs) (hstep : freeStep m poll s a = some s') :
    FreeOk I s'.st s'.regs := by
  cases a with
  | op o =>
    obtain ⟨-, hstep⟩ := Option.ite_none_right_eq_some.mp hstep
    obtain ⟨st', hop, rfl⟩ := Option.map_eq_some_iff.mp hstep
    have hop : FdStep m s.st o st' := .of_step hop
    exact ⟨h.count.step hop, h.active.step h.count hop,
      B.step h.method h.count hop (hop.fresh h.count) (o.asks_true _)⟩
  | poll k =>
    obtain ⟨-, hstep⟩ := Option.ite_none_right_eq_some.mp hstep
    obtain ⟨⟨st', pc'⟩, hp, rfl⟩ := Option.map_eq_some_iff.mp hstep
    exact hpoll h hp
  | round a =>
    obtain ⟨ha, hstep⟩ := Option.ite_none_right_eq_some.mp hstep
    obtain ⟨d, hd, rfl⟩ := Option.map_eq_some_iff.mp hstep
    have hsame := dispatchStep_sameRegs ha hd
    exact ⟨h.count.of_same hsame, h.active.of_sublist (dispatchStep_active ha hd),
      B.same h.method hsame⟩

theorem MethodLaws.free_of_run (B : MethodLaws m I FreshFd fun _ => True)
    (hpoll : FreePoll I poll) (hinit : FreeOk I init.st init.regs)
    (h : (freeLts m poll init).Run tr s) : FreeOk I s.st s.regs :=
  h.reachable.invariant (P := fun s => FreeOk I s.st s.regs) hinit
    fun _ _ _ hok hstep => B.freeStep hpoll hok hstep

end Run

/-! ### Methods that put changes off -/

/-- How a method keeps its list of pending changes, and where the kernel has references to
descriptors. -/
structure FreeView (μ κ ι : Type) where
  notify : μ → List FdPtr
  kernel : μ → κ
  /-- The reference in a place. -/
  look   : κ → ι → Option FdPtr
  /-- The number that a place belongs to. -/
  num    : ι → ℤ
  /-- There may be a reference for these registered bands. -/
  told   : ι → Finset Band → Prop
  told_empty : ∀ i, ¬ told i ∅

/-- A descriptor for which there may be a reference in a place. -/
structure FreeView.Fits (v : FreeView μ κ ι) (f : Fd) (i : ι) : Prop where
  num : f.fd = v.num i
  bands : v.told i f.registeredBands

lemma FreeView.Fits.congr {v : FreeView μ κ ι} {f f' : Fd} {i : ι} (h : v.Fits f i)
    (hnum : f'.fd = f.fd) (hbands : f'.registeredBands = f.registeredBands) : v.Fits f' i :=
  ⟨hnum.trans h.num, hbands ▸ h.bands⟩

/-- A change need not be pending: no band is registered if none is wanted. -/
def Released (registered wanted : Finset Band) : Prop := wanted = ∅ → registered = ∅

/-- The list of pending changes is right for the descriptors `T`, and the kernel has references to
these only. -/
structure LazyFree (v : FreeView μ κ ι) (st : FdState μ) (T : Finset FdPtr)
    (dirty : Option FdPtr) : Prop where
  notify : NotifyOk Released (v.notify st.method) st.fds T dirty
  users : ∀ i p, v.look (v.kernel st.method) i = some p → p ∈ T ∧ v.Fits (st.fds p) i

/-- The kernel has been told of some bands of a descriptor, which has left the list. -/
structure Told (v : FreeView μ κ ι) (st st' : FdState μ) (fd : FdPtr) (bands : Finset Band) :
    Prop where
  fds : st'.fds = Function.update st.fds fd { st.fds fd with registeredBands := bands }
  notify : v.notify st'.method = (v.notify st.method).erase fd
  look : ∀ i p, v.look (v.kernel st'.method) i = some p →
    (p = fd ∧ v.num i = (st.fds fd).fd ∧ v.told i bands) ∨
      (v.look (v.kernel st.method) i = some p ∧
        (p = fd → v.Fits (st.fds fd) i → v.told i bands))

lemma Told.of_eq {v : FreeView μ κ ι} {st st₁ st' : FdState μ} {fd : FdPtr} {bands : Finset Band}
    (h : Told v st₁ st' fd bands) (hfds : st₁.fds = st.fds)
    (hnotify : v.notify st₁.method = v.notify st.method)
    (hkernel : v.kernel st₁.method = v.kernel st.method) : Told v st st' fd bands where
  fds := hfds ▸ h.fds
  notify := hnotify ▸ h.notify
  look := by
    rw [← hfds, ← hkernel]
    exact h.look

/-- What is asked of such a method. It has no `register_fd`. -/
structure FreeLaws (m : PollMethod μ) (v : FreeView μ κ ι) : Prop where
  registerFd : ∀ {st fd st'}, m.registerFd st fd = .ok st' → st' = st
  notifyFd : ∀ {st fd st'}, m.notifyFd st fd = .ok st' → st'.fds = st.fds ∧
    v.notify st'.method = renotify (v.notify st.method) fd (st.fds fd) ∧
    v.kernel st'.method = v.kernel st.method
  sync : ∀ {refused st fd st'}, fd ∉ v.notify st.method →
    m.notifyFdSync refused st fd = .ok (false, st') → ∃ bands, Told v st st' fd bands
  syncFailed : ∀ {refused st fd st'}, fd ∉ v.notify st.method →
    m.notifyFdSync refused st fd = .ok (true, st') → st'.fds = st.fds ∧
    v.notify st'.method = v.notify st.method ∧ v.kernel st'.method = v.kernel st.method
  unlisted : ∀ {refused st fd st'}, m.unregisterFd refused st fd = .ok st' →
    fd ∉ v.notify st.method → st' = st
  listed : ∀ {refused st T fd st'}, m.unregisterFd refused st fd = .ok st' →
    fd ∈ v.notify st.method → LazyFree v st T none →
    LazyFree v st' T none ∧ fd ∉ v.notify st'.method

namespace LazyFree

variable {m : PollMethod μ} {v : FreeView μ κ ι} {st st' : FdState μ} {T : Finset FdPtr}
  {dirty : Option FdPtr} {fd : FdPtr} {bands : Finset Band}

lemma released_refl (bands : Finset Band) : Released bands bands := id

lemma congr (h : LazyFree v st T dirty) (hfds : st'.fds = st.fds)
    (hnotify : v.notify st'.method = v.notify st.method)
    (hlook : v.look (v.kernel st'.method) = v.look (v.kernel st.method)) :
    LazyFree v st' T dirty := by
  refine ⟨?_, ?_⟩
  · rw [hnotify, hfds]
    exact h.notify
  · rw [hlook, hfds]
    exact h.users

lemma same (h : LazyFree v st T dirty) (hsame : SameRegs st st') : LazyFree v st' T dirty := by
  refine ⟨?_, fun i p hp => ?_⟩
  · rw [hsame.method]
    exact h.notify.congr h.notify.listed (fun p hp hne => ⟨hp, hne⟩)
      (fun p _ _ => by rw [hsame.fds p]) fun p _ _ => by rw [hsame.fds p]
  · rw [hsame.method] at hp
    obtain ⟨hmem, hfits⟩ := h.users i p hp
    rw [hsame.fds p]
    exact ⟨hmem, hfits.congr rfl rfl⟩

/-- A descriptor that is not registered may be changed in any way. -/
lemma prepare (h : LazyFree v st T none) (hmem : fd ∉ T) (f : Fd → Fd) :
    LazyFree v (st.setFd fd f) T none := by
  have hfds : ∀ p ∈ T, (st.setFd fd f).fds p = st.fds p :=
    fun p hp => st.setFd_fds_of_ne f fun heq => hmem (heq ▸ hp)
  refine ⟨h.notify.congr h.notify.listed (fun p hp hne => ⟨hp, hne⟩)
    (fun p hp _ => by rw [hfds p hp]) fun p hp _ => by rw [hfds p hp], fun i p hp => ?_⟩
  obtain ⟨hmem, hfits⟩ := h.users i p hp
  rw [hfds p hmem]
  exact ⟨hmem, hfits⟩

lemma change (h : LazyFree v st T dirty) (hdirty : dirty = none ∨ dirty = some fd) {f : Fd → Fd}
    (hf : Unheard f (st.fds fd)) : LazyFree v (st.setFd fd f) T (some fd) := by
  refine ⟨h.notify.setFd hdirty fun p => st.setFd_fds_of_ne f, fun i p hp => ?_⟩
  obtain ⟨hmem, hfits⟩ := h.users i p hp
  refine ⟨hmem, ?_⟩
  by_cases hpfd : p = fd
  · subst hpfd
    exact hfits.congr (by simpa using hf.num) (by simpa using hf.bands)
  · rwa [st.setFd_fds_of_ne f hpfd]

lemma ask (h : LazyFree v st T (some fd)) : LazyFree v (st.ask fd) T (some fd) :=
  FdState.ask_keeps (P := fun st => LazyFree v st T (some fd))
    (fun h hf => h.change (Or.inr rfl) hf) h

lemma enrol (h : LazyFree v st T none) (hmem : fd ∉ T) :
    LazyFree v (st.enrol fd) (insert fd T) (some fd) := by
  refine ⟨h.notify.enrol fun p => st.setFd_fds_of_ne _, fun i p hp => ?_⟩
  obtain ⟨hp, hfits⟩ := (h.prepare hmem _).users i p hp
  exact ⟨Finset.mem_insert_of_mem hp, hfits⟩

lemma notMem_notify (h : LazyFree v st T none) (hmem : fd ∉ T) : fd ∉ v.notify st.method :=
  fun hp => hmem (h.notify.listed fd hp)

/-- The kernel has been told of some bands. -/
lemma tell (h : LazyFree v st T dirty) (hdirty : dirty = none ∨ dirty = some fd) (hmem : fd ∈ T)
    (htold : Told v st st' fd bands) : LazyFree v st' T (some fd) := by
  have hother : ∀ p ≠ fd, st'.fds p = st.fds p := fun p hp => by
    rw [htold.fds, Function.update_of_ne hp]
  refine ⟨?_, fun i p hp => ?_⟩
  · rw [htold.notify]
    exact (h.notify.erase hdirty).setFd (Or.inr rfl) hother
  · rcases htold.look i p hp with ⟨rfl, hnum, hbands⟩ | ⟨hold, hbands⟩
    · refine ⟨hmem, ?_⟩
      rw [htold.fds, Function.update_self]
      exact ⟨hnum.symm, hbands⟩
    · obtain ⟨hmem, hfits⟩ := h.users i p hold
      refine ⟨hmem, ?_⟩
      by_cases hpfd : p = fd
      · subst hpfd
        rw [htold.fds, Function.update_self]
        exact ⟨hfits.num, hbands rfl hfits⟩
      · rwa [hother p hpfd]

/-- A change that was pending has been made. -/
lemma upload (h : LazyFree v st T none) (hmem : fd ∈ T)
    (htold : Told v st st' fd (st.fds fd).wantedBands) : LazyFree v st' T none := by
  obtain ⟨hnotify, husers⟩ := h.tell (Or.inl rfl) hmem htold
  have hnot : fd ∉ v.notify st'.method := by
    rw [htold.notify]
    exact h.notify.nodup.not_mem_erase
  refine ⟨hnotify.settle hnot ?_, husers⟩
  rw [htold.fds, Function.update_self]
  exact released_refl _

/-- A descriptor without registered bands can be forgotten. -/
lemma forget (h : LazyFree v st T dirty) (hdirty : dirty = none ∨ dirty = some fd)
    (hbands : (st.fds fd).registeredBands = ∅) (hnot : fd ∉ v.notify st.method) :
    LazyFree v st (T.erase fd) none := by
  refine ⟨h.notify.forget hdirty hnot, fun i p hp => ?_⟩
  obtain ⟨hmem, hfits⟩ := h.users i p hp
  refine ⟨Finset.mem_erase.mpr ⟨?_, hmem⟩, hfits⟩
  rintro rfl
  exact v.told_empty i (hbands ▸ hfits.bands)

end LazyFree

section Asked

/-- The descriptor has been marked as registered, asked for and unmarked. -/
def FdState.asked (st : FdState μ) (fd : FdPtr) : FdState μ :=
  ((st.enrol fd).ask fd).setFd fd fun f => { f with registered := false }

lemma FdState.ask_setMethod (st : FdState μ) (method : μ) (fd : FdPtr) :
    (st.setMethod method).ask fd = (st.ask fd).setMethod method := by
  have hfds : ((st.setMethod method).setFd fd Fd.recomputeWantedFlags).fds =
      (st.setFd fd Fd.recomputeWantedFlags).fds := rfl
  simp only [FdState.ask, hfds]
  split_ifs <;> rfl

lemma FdState.asked_self (st : FdState μ) (fd : FdPtr) :
    ((st.asked fd).fds fd).registered = false ∧
      ((st.asked fd).fds fd).fd = (st.fds fd).fd ∧
      ∀ band, ((st.asked fd).fds fd).handler band = (st.fds fd).handler band := by
  unfold FdState.asked
  rw [FdState.ask_eq (by simp [FdState.enrol])]
  split_ifs
  all_goals
    refine ⟨by simp, by simp [FdState.enrol], fun band => ?_⟩
    simp only [FdState.setFd_fds, Function.update_self, FdState.enrol]
    cases band <;> rfl

lemma FdState.asked_of_ne (st : FdState μ) {fd p : FdPtr} (hp : p ≠ fd) :
    (st.asked fd).fds p = st.fds p := by
  unfold FdState.asked
  rw [FdState.ask_eq (by simp [FdState.enrol])]
  split_ifs <;> simp [FdState.enrol, hp]

end Asked

section Laws

variable {m : PollMethod μ} {v : FreeView μ κ ι}

/-- The laws of a method follow. -/
lemma FreeLaws.methodLaws (L : FreeLaws m v) :
    MethodLaws m (LazyFree v) FreshFd fun _ => True where
  congr h hfds hmethod := h.congr hfds (by rw [hmethod]) (by rw [hmethod])
  same := LazyFree.same
  prepare h hmem f := h.prepare hmem f
  change h hdirty _ hf := h.change hdirty hf
  enrol h hnew henrol := L.registerFd henrol ▸ h.enrol hnew.notMem
  notify {st T fd st'} h hmem hnotify := by
    obtain ⟨hfds, hlist, hkernel⟩ := L.notifyFd hnotify
    refine ⟨?_, ?_⟩
    · rw [hlist, hfds]
      exact h.notify.renotify (Or.inr rfl) hmem LazyFree.released_refl
    · rw [hkernel, hfds]
      exact h.users
  sync {st T fd st₁ refused st₂} h hnew henrol hsync := by
    obtain rfl := L.registerFd henrol
    have hnot : fd ∉ v.notify ((st.enrol fd).ask fd).method := by
      rw [FdState.ask_method]
      exact h.notMem_notify hnew.notMem
    obtain ⟨bands, htold⟩ := L.sync hnot hsync
    have hok := (h.enrol hnew.notMem).ask.tell (Or.inr rfl) (Finset.mem_insert_self fd T) htold
    refine ⟨hok, fun _ _ => ⟨hok.notify.settle ?_ fun hwanted => ?_, hok.users⟩⟩
    · rw [htold.notify]
      exact fun hmem => hnot (List.mem_of_mem_erase hmem)
    · rw [(m.notifyFdSync_core hsync).wantedBands] at hwanted
      exact absurd hwanted (FdState.ask_wantedBands_ne (by simp [FdState.enrol]))
  syncFailed {st T fd st₁ refused st₂ st₃} h hnew henrol hsync hunreg := by
    obtain rfl := L.registerFd henrol
    have hask := (h.enrol hnew.notMem).ask
    have hnot : fd ∉ v.notify ((st.enrol fd).ask fd).method := by
      rw [FdState.ask_method]
      exact h.notMem_notify hnew.notMem
    obtain ⟨hfds, hlist, hkernel⟩ := L.syncFailed hnot hsync
    have hset := (hask.congr hfds hlist (by rw [hkernel])).change (Or.inr rfl)
      (f := fun f => { f with registered := false }) ⟨rfl, rfl⟩
    rw [← hlist] at hnot
    obtain rfl := L.unlisted hunreg hnot
    have hforget := hset.forget (Or.inr rfl)
      (by simp [hfds, FdState.ask_registeredBands, FdState.enrol]) hnot
    rwa [Finset.erase_insert hnew.notMem] at hforget
  unregister {st T fd refused st'} h hmem hwanted hunreg := by
    have hwanted' : (st'.fds fd).wantedBands = ∅ := by
      rw [(m.unregisterFd_core hunreg).wantedBands, hwanted]
    by_cases hlist : fd ∈ v.notify st.method
    · obtain ⟨hok, hnot⟩ := L.listed hunreg hlist h
      exact hok.forget (Or.inl rfl) (hok.notify.unlisted fd hmem (by simp) hnot hwanted') hnot
    · obtain rfl := L.unlisted hunreg hlist
      exact h.forget (Or.inl rfl) (h.notify.unlisted fd hmem (by simp) hlist hwanted) hlist

/-- A call of `iv_fd_register_try` that fails leaves the list and the kernel as they were. -/
lemma FreeLaws.tryFailed (L : FreeLaws m v) {st st₁ st₂ st₃ : FdState μ} {fd : FdPtr}
    {refused : Bool} (hnot : fd ∉ v.notify st.method)
    (henrol : m.registerFd (st.enrol fd) fd = .ok st₁)
    (hsync : m.notifyFdSync refused (st₁.ask fd) fd = .ok (true, st₂))
    (hunreg : m.unregisterFd refused (st₂.setFd fd fun f => { f with registered := false }) fd =
      .ok st₃) :
    st₃.fds = (st.asked fd).fds ∧
      v.notify st₃.method = v.notify st.method ∧ v.kernel st₃.method = v.kernel st.method := by
  obtain rfl := L.registerFd henrol
  have hmethod : ((st.enrol fd).ask fd).method = st.method := FdState.ask_method _ _
  rw [← hmethod] at hnot ⊢
  obtain ⟨hfds, hlist, hkernel⟩ := L.syncFailed hnot hsync
  rw [← hlist] at hnot
  obtain rfl := L.unlisted hunreg hnot
  refine ⟨?_, hlist, hkernel⟩
  funext p
  simp [FdState.asked, hfds]

end Laws

end Ivykis
