import Ivykis.Avl.Search
import Ivykis.Kit.Lts

/-!
# inotify (`iv_inotify.c`)

One `struct iv_inotify`, with its watches. While the events that have been read are handed out,
`term` points to the local variable `this` of `iv_inotify_got_event`, so that a handler that
unregisters the instance can make the loop stop. A handler may do anything else as well, and may
also run a main loop in which `iv_inotify_got_event` is called again.
-/

namespace Ivykis

/-- The address of a local variable. -/
abbrev LocalPtr := ℕ

/-- A `struct inotify_event`, as far as `iv_inotify_got_event` looks at it. -/
structure InotifyEvent where
  wd      : ℤ
  ignored : Bool
  deriving DecidableEq

/-- A call of `iv_inotify_got_event` that is under way. -/
structure InotifyFrame where
  /-- The address of `this`. -/
  addr      : LocalPtr
  /-- `this` is not `NULL`. -/
  this      : Bool
  /-- The events from `curr` to `end`. -/
  queue     : List InotifyEvent
  inHandler : Bool
  deriving DecidableEq

/-- An instance, its watches, and the calls that are under way for it, the innermost one first. -/
structure InotifyState where
  /-- `this->fd` is registered. -/
  registered : Bool
  term       : Option LocalPtr
  watches    : AvlState
  /-- `w->wd`. -/
  wd         : AvlPtr → ℤ
  /-- `w->mask` has `IN_ONESHOT`. -/
  oneshot    : AvlPtr → Bool
  frames     : List InotifyFrame

inductive InotifyLabel where
  /-- The user writes anything to an instance that is not registered. -/
  | fill (term : Option LocalPtr)
  | init
  /-- `failed` says that there is no descriptor to be had. -/
  | register (failed : Bool)
  | unregister
  /-- `iv_inotify_watch_register`, for which the kernel returns `wd`. -/
  | watchRegister (w : AvlPtr) (wd : ℤ) (oneshot : Bool)
  | watchUnregister (w : AvlPtr)
  /-- `iv_inotify_got_event` is called, and its variable `this` is at `addr`. -/
  | gotEvent (addr : LocalPtr) (queue : List InotifyEvent)
  /-- The loop looks at an event. -/
  | event
  /-- A handler returns. -/
  | ret
  /-- `iv_inotify_got_event` returns. -/
  | leave
  deriving DecidableEq

namespace InotifyState

/-- The user's code is running. -/
def inUser (st : InotifyState) : Bool :=
  match st.frames with
  | []     => true
  | f :: _ => f.inHandler

/-- A pointer to a local variable is set to `NULL`. -/
def clearLocal (st : InotifyState) (p : LocalPtr) : InotifyState :=
  { st with frames := st.frames.map fun f => if f.addr = p then { f with this := false } else f }

end InotifyState

/-- `IV_INOTIFY_INIT`. -/
def ivInotifyInit (st : InotifyState) : InotifyState := st

/-- `__find_watch`. -/
def findWatch (st : InotifyState) (wd : ℤ) : Except Fault (Option AvlPtr) :=
  findKey st.wd st.watches wd avlFuel st.watches.root

/-- `iv_inotify_register`. -/
def ivInotifyRegister (failed : Bool) (st : InotifyState) : InotifyState :=
  if failed then st
  else { st with registered := true, watches := { st.watches with root := none } }

/-- `iv_inotify_unregister`. -/
def ivInotifyUnregister (st : InotifyState) : InotifyState :=
  let st := { st with registered := false }
  match st.term with
  | some p => st.clearLocal p
  | none   => st

/-- `iv_inotify_watch_register`, when the kernel has returned `wd`. -/
def ivInotifyWatchRegister (st : InotifyState) (w : AvlPtr) (wd : ℤ) (oneshot : Bool) :
    Except Fault InotifyState := do
  let st := { st with
    wd := Function.update st.wd w wd, oneshot := Function.update st.oneshot w oneshot }
  if wd = -1 then return st
  else
    let (_, watches) ← ivAvlTreeInsert (compareKeys st.wd) avlFuel st.watches w
    return { st with watches := watches }

/-- `iv_inotify_watch_unregister`. -/
def ivInotifyWatchUnregister (st : InotifyState) (w : AvlPtr) : Except Fault InotifyState := do
  let watches ← ivAvlTreeDelete avlFuel st.watches w
  return { st with watches := watches }

/-- A watch leaves the tree before its handler is called if it has done its duty. -/
def retireWatch (st : InotifyState) (w : AvlPtr) (event : InotifyEvent) : Except Fault AvlState :=
  if event.ignored || st.oneshot w then ivAvlTreeDelete avlFuel st.watches w else .ok st.watches

/-- The body of the loop of `iv_inotify_got_event`, up to the call of the handler if there is a
watch. -/
def inotifyEvent (st : InotifyState) (f : InotifyFrame) (frames : List InotifyFrame)
    (event : InotifyEvent) (queue : List InotifyEvent) : Except Fault InotifyState := do
  match ← findWatch st event.wd with
  | some w =>
    let watches ← retireWatch st w event
    return { st with
      watches := watches, frames := { f with queue := queue, inHandler := true } :: frames }
  | none => return { st with frames := { f with queue := queue } :: frames }

def inotifyStep (st : InotifyState) : InotifyLabel → Option InotifyState
  | .fill term =>
    if st.inUser ∧ st.registered = false then some { st with term := term } else none
  | .init =>
    if st.inUser ∧ st.registered = false then some (ivInotifyInit st) else none
  | .register failed =>
    if st.inUser ∧ st.registered = false then some (ivInotifyRegister failed st) else none
  | .unregister =>
    if st.inUser ∧ st.registered = true then some (ivInotifyUnregister st) else none
  | .watchRegister w wd oneshot =>
    if st.inUser ∧ st.registered = true then
      (ivInotifyWatchRegister st w wd oneshot).toOption
    else none
  | .watchUnregister w =>
    if st.inUser ∧ st.registered = true then (ivInotifyWatchUnregister st w).toOption else none
  | .gotEvent addr queue =>
    -- nothing happens if `read` returns nothing
    if st.inUser ∧ st.registered = true ∧ ∀ f ∈ st.frames, f.addr ≠ addr then
      if queue = [] then some st
      else some { st with term := some addr, frames := ⟨addr, true, queue, false⟩ :: st.frames }
    else none
  | .event =>
    match st.frames with
    | [] => none
    | f :: frames =>
      match f.queue with
      | [] => none
      | event :: queue =>
        if f.this = true ∧ f.inHandler = false then
          (inotifyEvent st f frames event queue).toOption
        else none
  | .ret =>
    match st.frames with
    | [] => none
    | f :: frames =>
      if f.inHandler then some { st with frames := { f with inHandler := false } :: frames }
      else none
  | .leave =>
    match st.frames with
    | [] => none
    | f :: frames =>
      if f.inHandler = false ∧ (f.queue = [] ∨ f.this = false) then
        some { st with term := if f.this then none else st.term, frames := frames }
      else none

/-- An instance in memory of any contents. -/
def inotifyInit (term : Option LocalPtr) (watches : AvlState) (wd : AvlPtr → ℤ)
    (oneshot : AvlPtr → Bool) : InotifyState :=
  ⟨false, term, watches, wd, oneshot, []⟩

def inotifyLts (term : Option LocalPtr) (watches : AvlState) (wd : AvlPtr → ℤ)
    (oneshot : AvlPtr → Bool) : Kit.Lts InotifyState InotifyLabel where
  init := inotifyInit term watches wd oneshot
  step := inotifyStep

/-! ### What `iv_inotify_unregister` finds -/

namespace InotifyState

/-- `term` is `NULL` or points to the variable of a call that is under way and has not been told to
stop. -/
def TermOk (st : InotifyState) : Prop :=
  st.term = none ∨ ∃ f ∈ st.frames, st.term = some f.addr ∧ f.this = true

/-- An instance is registered only if its `term` is `NULL`. -/
def registersCleared (st : InotifyState) : InotifyLabel → Prop
  | .register _ => st.term = none
  | _           => True

instance (st : InotifyState) (a : InotifyLabel) : Decidable (st.registersCleared a) := by
  unfold InotifyState.registersCleared
  split <;> infer_instance

end InotifyState

/-- What a step does to `term` and to the calls that are under way. -/
inductive InotifyStep (st st' : InotifyState) : Prop
  /-- The instance is not registered. -/
  | unregistered (hreg : st'.registered = false)
  | registered (hterm : st'.term = st.term) (hframes : st'.frames = st.frames)
      (hcleared : st.term = none)
  /-- At most the innermost call has moved on. -/
  | same (hreg : st'.registered = st.registered) (hterm : st'.term = st.term)
      (hframes : ∀ f ∈ st.frames, ∃ f' ∈ st'.frames, f'.addr = f.addr ∧ f'.this = f.this)
  | entered (f : InotifyFrame) (hf : f ∈ st'.frames) (hterm : st'.term = some f.addr)
      (hthis : f.this = true)
  | cleared (hterm : st'.term = none)
  /-- A call returns that has been told to stop. -/
  | left (f : InotifyFrame) (hreg : st'.registered = st.registered) (hterm : st'.term = st.term)
      (hframes : st.frames = f :: st'.frames) (hthis : f.this = false)

section Steps

variable {st st' : InotifyState} {a : InotifyLabel}

lemma inotifyEvent_same {f : InotifyFrame} {frames : List InotifyFrame} {event : InotifyEvent}
    {queue : List InotifyEvent} (hframes : st.frames = f :: frames)
    (h : inotifyEvent st f frames event queue = .ok st') :
    InotifyStep st st' := by
  obtain ⟨w, -, hrest⟩ := bind_eq_ok.mp h
  have hmoved (f' : InotifyFrame) (haddr : f'.addr = f.addr) (hthis : f'.this = f.this) :
      ∀ g ∈ st.frames, ∃ g' ∈ f' :: frames, g'.addr = g.addr ∧ g'.this = g.this := by
    rw [hframes]
    intro g hg
    rcases List.mem_cons.mp hg with rfl | hg
    · exact ⟨f', List.mem_cons_self, haddr, hthis⟩
    · exact ⟨g, List.mem_cons_of_mem _ hg, rfl, rfl⟩
  cases w with
  | some w =>
    obtain ⟨watches, -, heq⟩ := bind_eq_ok.mp hrest
    obtain rfl := Except.ok.inj heq
    exact .same rfl rfl (hmoved _ rfl rfl)
  | none =>
    obtain rfl := Except.ok.inj hrest
    exact .same rfl rfl (hmoved _ rfl rfl)

lemma InotifyStep.of_step (hcond : st.registersCleared a) (h : inotifyStep st a = some st') :
    InotifyStep st st' := by
  have hsame : ∀ f ∈ st.frames, ∃ f' ∈ st.frames, f'.addr = f.addr ∧ f'.this = f.this :=
    fun f hf => ⟨f, hf, rfl, rfl⟩
  cases a with
  | fill term =>
    obtain ⟨⟨-, hreg⟩, heq⟩ := Option.ite_none_right_eq_some.mp h
    exact .unregistered (Option.some.inj heq ▸ hreg)
  | init =>
    obtain ⟨⟨-, hreg⟩, heq⟩ := Option.ite_none_right_eq_some.mp h
    exact .unregistered (Option.some.inj heq ▸ hreg)
  | register failed =>
    obtain ⟨⟨-, hreg⟩, heq⟩ := Option.ite_none_right_eq_some.mp h
    obtain rfl := Option.some.inj heq
    cases failed with
    | true => exact .unregistered hreg
    | false => exact .registered rfl rfl hcond
  | unregister =>
    obtain ⟨-, heq⟩ := Option.ite_none_right_eq_some.mp h
    obtain rfl := Option.some.inj heq
    refine .unregistered ?_
    unfold ivInotifyUnregister
    dsimp only
    split <;> rfl
  | watchRegister w wd oneshot =>
    obtain ⟨-, heq⟩ := Option.ite_none_right_eq_some.mp h
    have heq := toOption_eq_some.mp heq
    unfold ivInotifyWatchRegister at heq
    split_ifs at heq
    · obtain rfl := Except.ok.inj heq
      exact .same rfl rfl hsame
    · obtain ⟨⟨ret, watches⟩, -, heq⟩ := bind_eq_ok.mp heq
      obtain rfl := Except.ok.inj heq
      exact .same rfl rfl hsame
  | watchUnregister w =>
    obtain ⟨-, heq⟩ := Option.ite_none_right_eq_some.mp h
    obtain ⟨watches, -, heq⟩ := bind_eq_ok.mp (toOption_eq_some.mp heq)
    obtain rfl := Except.ok.inj heq
    exact .same rfl rfl hsame
  | gotEvent addr queue =>
    obtain ⟨-, heq⟩ := Option.ite_none_right_eq_some.mp h
    split_ifs at heq
    · obtain rfl := Option.some.inj heq
      exact .same rfl rfl hsame
    · obtain rfl := Option.some.inj heq
      exact .entered _ List.mem_cons_self rfl rfl
  | event =>
    cases hframes : st.frames with
    | nil => simp [inotifyStep, hframes] at h
    | cons f frames =>
      cases hqueue : f.queue with
      | nil => simp [inotifyStep, hframes, hqueue] at h
      | cons event queue =>
        simp only [inotifyStep, hframes, hqueue, Option.ite_none_right_eq_some] at h
        exact inotifyEvent_same hframes (toOption_eq_some.mp h.2)
  | ret =>
    cases hframes : st.frames with
    | nil => simp [inotifyStep, hframes] at h
    | cons f frames =>
      simp only [inotifyStep, hframes, Option.ite_none_right_eq_some, Option.some.injEq] at h
      obtain rfl := h.2
      refine .same rfl rfl ?_
      rw [hframes]
      intro g hg
      rcases List.mem_cons.mp hg with rfl | hg
      · exact ⟨_, List.mem_cons_self, rfl, rfl⟩
      · exact ⟨g, List.mem_cons_of_mem _ hg, rfl, rfl⟩
  | leave =>
    cases hframes : st.frames with
    | nil => simp [inotifyStep, hframes] at h
    | cons f frames =>
      simp only [inotifyStep, hframes, Option.ite_none_right_eq_some, Option.some.injEq] at h
      obtain rfl := h.2
      cases hthis : f.this with
      | true => exact .cleared (by simp)
      | false => exact .left f rfl (by simp) hframes hthis

/-- A step keeps `term` in order, as long as the instance is registered. -/
lemma InotifyStep.termOk (h : InotifyStep st st') (hterm : st.registered = true → st.TermOk) :
    st'.registered = true → st'.TermOk := by
  intro hreg
  cases h with
  | unregistered hreg' => simp [hreg'] at hreg
  | registered hterm' _ hcleared => exact Or.inl (hterm'.trans hcleared)
  | same hreg' hterm' hframes =>
    rcases hterm (hreg' ▸ hreg) with hnone | ⟨f, hf, haddr, hthis⟩
    · exact Or.inl (hterm'.trans hnone)
    · obtain ⟨f', hf', haddr', hthis'⟩ := hframes f hf
      exact Or.inr ⟨f', hf', by rw [hterm', haddr, haddr'], hthis'.trans hthis⟩
  | entered f hf hterm' hthis => exact Or.inr ⟨f, hf, hterm', hthis⟩
  | cleared hterm' => exact Or.inl hterm'
  | left f hreg' hterm' hframes hthis =>
    rcases hterm (hreg' ▸ hreg) with hnone | ⟨g, hg, haddr, hthis'⟩
    · exact Or.inl (hterm'.trans hnone)
    · -- the call that returns is not the one that `term` points to
      rw [hframes] at hg
      rcases List.mem_cons.mp hg with rfl | hg
      · simp [hthis] at hthis'
      · exact Or.inr ⟨g, hg, hterm'.trans haddr, hthis'⟩

end Steps

section Main

variable {term : Option LocalPtr} {watches : AvlState} {wd : AvlPtr → ℤ} {oneshot : AvlPtr → Bool}
  {tr : List InotifyLabel} {st : InotifyState}

/-- Whatever handlers do, `iv_inotify_unregister` finds a `term` that it may write through, if it
was `NULL` whenever the instance was registered. -/
theorem termOk_of_run
    (h : ((inotifyLts term watches wd oneshot).restrict InotifyState.registersCleared).Run tr st) :
    st.registered = true → st.TermOk := by
  refine h.reachable.invariant (P := fun st => st.registered = true → st.TermOk) ?_ ?_
  · intro hreg
    simp [Kit.Lts.restrict, inotifyLts, inotifyInit] at hreg
  · intro st a st' hterm hstep
    obtain ⟨hcond, hstep⟩ := Kit.Lts.restrict_step.mp hstep
    exact (InotifyStep.of_step hcond hstep).termOk hterm

/-- A handler unregisters the instance, clears it and registers it again. -/
def reusedInstance : List InotifyLabel :=
  [.register false, .watchRegister 1 4 false, .gotEvent 9 [⟨4, false⟩, ⟨4, false⟩], .event,
    .unregister, .fill none, .register false, .ret, .leave]

theorem termOk_of_run_reregistered :
    ∃ st, ((inotifyLts none emptyNodes (fun _ => 0) fun _ => false).restrict
      InotifyState.registersCleared).Run reusedInstance st ∧ st.registered = true ∧ st.TermOk := by
  refine Kit.Lts.exists_run_of_decide (·.registered = true) (by decide) fun st hrun hreg => ?_
  exact ⟨hreg, termOk_of_run hrun hreg⟩

/-- An instance in memory that is not clear is registered, and there is no call at all under way. Or
the memory is clear, but a handler unregisters the instance and registers it again, and `term`
still points to the variable of the call that has returned since. -/
theorem term_stale :
    (∃ st, (inotifyLts (some 9) emptyNodes (fun _ => 0) fun _ => false).Run
      [.init, .register false] st ∧ st.registered = true ∧
        ∃ p, st.term = some p ∧ ∀ f ∈ st.frames, f.addr ≠ p) ∧
    ∃ st, (inotifyLts none emptyNodes (fun _ => 0) fun _ => false).Run
      [.init, .register false, .watchRegister 1 4 false, .gotEvent 9 [⟨4, false⟩], .event,
        .unregister, .register false, .ret, .leave] st ∧ st.registered = true ∧
        ∃ p, st.term = some p ∧ ∀ f ∈ st.frames, f.addr ≠ p := by
  have hstale {st : InotifyState}
      (h : st.registered = true ∧ st.term = some 9 ∧ st.frames = []) :
      st.registered = true ∧ ∃ p, st.term = some p ∧ ∀ f ∈ st.frames, f.addr ≠ p :=
    ⟨h.1, 9, h.2.1, by simp [h.2.2]⟩
  constructor
  · exact Kit.Lts.exists_run_of_decide _ (by decide) fun _ _ => hstale
  · exact Kit.Lts.exists_run_of_decide _ (by decide) fun _ _ => hstale

end Main

end Ivykis
