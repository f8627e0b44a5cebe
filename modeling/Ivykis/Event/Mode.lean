import Mathlib.Data.Finset.Basic
import Mathlib.Tactic.Simps.Basic
import Ivykis.Basic
import Ivykis.Kit.Lts

/-!
# Which receiver an event is sent to (`iv_event.c`)

Each thread enables a receiver for its events when it registers the first of them: that of the poll
method, or else the descriptor of `events_kick`. Which one an event is sent to, and which one is
disabled at the end, is not recorded in the thread but told from `iv_event_use_event_raw`, which is
one flag for all threads. It is set when the first of the two cannot be enabled in some thread.

One step of the model is what a thread does between two looks at the flag.
-/

namespace Ivykis

/-- The two receivers of a thread. -/
inductive Receiver where
  | pollMethod
  | eventsKick
  deriving DecidableEq, Repr

/-- Where a thread is in `iv_event_register` or `iv_event_unregister`. -/
inductive ModePc where
  | outside
  /-- About to call `event_rx_on`, for which the flag had to be clear. -/
  | rxOn
  /-- About to look at the flag for `iv_event_raw_register`. -/
  | rawOn
  /-- About to look at the flag in order to disable the receiver. -/
  | off
  deriving DecidableEq, Repr

/-- The event part of `struct iv_state`. -/
structure ModeThread where
  numobjs    : ℤ
  eventCount : ℕ
  /-- The receivers that are enabled. -/
  enabled    : Finset Receiver
  pc         : ModePc
  deriving DecidableEq

/-- The threads that have called `iv_init`, and what they share. -/
structure ModeState where
  /-- `iv_event_use_event_raw`. -/
  useEventRaw      : Bool
  /-- `iv_active_fd_refcount` of the epoll method. -/
  activeFdRefcount : ℕ
  live             : Finset ThreadId
  threads          : ThreadId → ModeThread

namespace ModeState

/-- The receiver that `iv_event_post` and the last `iv_event_unregister` use. -/
def receiver (st : ModeState) : Receiver :=
  if st.useEventRaw then .eventsKick else .pollMethod

@[simps useEventRaw activeFdRefcount live]
def set (st : ModeState) (thr : ThreadId) (t : ModeThread) : ModeState :=
  { st with threads := Function.update st.threads thr t }

@[simp] lemma set_threads_self (st : ModeState) (thr : ThreadId) (t : ModeThread) :
    (st.set thr t).threads thr = t :=
  Function.update_self _ _ _

lemma set_threads_of_ne (st : ModeState) {thr thr' : ThreadId} (t : ModeThread)
    (hne : thr' ≠ thr) : (st.set thr t).threads thr' = st.threads thr' :=
  Function.update_of_ne hne _ _

end ModeState

/-- `iv_event_init`. -/
def modeThreadInit : ModeThread where
  numobjs    := 0
  eventCount := 0
  enabled    := ∅
  pc         := .outside

/-- `iv_event_register` up to its first look at the flag. -/
def registerCount (st : ModeState) (thr : ThreadId) : ModeState :=
  let t := st.threads thr
  st.set thr
    { t with
      numobjs    := t.numobjs + 1
      eventCount := t.eventCount + 1
      pc         := if t.eventCount ≠ 0 then .outside
                    else if st.useEventRaw then .rawOn else .rxOn }

/-- `iv_fd_epoll_event_rx_on`, where `ok` says whether the descriptor can be added, and what
`iv_event_register` does if it cannot. -/
def registerRxOn (st : ModeState) (thr : ThreadId) (ok : Bool) : ModeState :=
  let t := st.threads thr
  let st := { st with activeFdRefcount := st.activeFdRefcount + 1 }
  if ok then
    st.set thr
      { t with
        numobjs := t.numobjs + 1
        enabled := insert .pollMethod t.enabled
        pc      := .rawOn }
  else { st with useEventRaw := true }.set thr { t with pc := .rawOn }

/-- The rest of `iv_event_register`, where `ok` says whether a descriptor can be had for
`events_kick`. -/
def registerRawOn (st : ModeState) (thr : ThreadId) (ok : Bool) : ModeState :=
  let t := st.threads thr
  if st.useEventRaw then
    if ok then
      st.set thr
        { t with
          numobjs := t.numobjs + 1
          enabled := insert .eventsKick t.enabled
          pc      := .outside }
    else
      -- `numobjs` is not set back
      st.set thr { t with eventCount := t.eventCount - 1, pc := .outside }
  else st.set thr { t with pc := .outside }

/-- `iv_event_unregister` up to its look at the flag. -/
def unregisterCount (st : ModeState) (thr : ThreadId) : ModeState :=
  let t := st.threads thr
  if t.eventCount - 1 = 0 then st.set thr { t with eventCount := 0, pc := .off }
  else st.set thr { t with eventCount := t.eventCount - 1, numobjs := t.numobjs - 1 }

/-- The rest of `iv_event_unregister`: `iv_event_raw_unregister` or `event_rx_off`, which both
check that there is something to disable. -/
def unregisterOff (st : ModeState) (thr : ThreadId) : Except Fault ModeState :=
  let t := st.threads thr
  let t' := { t with
    numobjs := t.numobjs - 2
    enabled := t.enabled.erase st.receiver
    pc      := .outside }
  if st.useEventRaw then
    if .eventsKick ∈ t.enabled then .ok (st.set thr t')
    else .error (.fatal "iv_fd_unregister: called with fd which is not registered")
  else
    if .pollMethod ∈ t.enabled then
      .ok ({ st with activeFdRefcount := st.activeFdRefcount - 1 }.set thr t')
    else .error (.fatal "iv_fd_epoll_event_rx_off: epoll_ctl returned error")

/-! ### Runs -/

inductive ModeOp where
  /-- The thread calls `iv_init`. -/
  | init (thr : ThreadId)
  | register (thr : ThreadId)
  | rxOn (thr : ThreadId) (ok : Bool)
  | rawOn (thr : ThreadId) (ok : Bool)
  | unregister (thr : ThreadId)
  | off (thr : ThreadId)
  deriving DecidableEq, Repr

/-- The thread can make its step. -/
def ModeState.at (st : ModeState) (thr : ThreadId) (pc : ModePc) : Prop :=
  thr ∈ st.live ∧ (st.threads thr).pc = pc

instance (st : ModeState) (thr : ThreadId) (pc : ModePc) : Decidable (st.at thr pc) :=
  inferInstanceAs (Decidable (_ ∧ _))

/-- One step, if it can be taken at all, and its outcome. -/
def modeStep (st : ModeState) : ModeOp → Option (Except Fault ModeState)
  | .init thr =>
    if thr ∉ st.live then
      some (.ok ({ st with live := insert thr st.live }.set thr modeThreadInit))
    else none
  | .register thr => if st.at thr .outside then some (.ok (registerCount st thr)) else none
  | .rxOn thr ok => if st.at thr .rxOn then some (.ok (registerRxOn st thr ok)) else none
  | .rawOn thr ok => if st.at thr .rawOn then some (.ok (registerRawOn st thr ok)) else none
  | .unregister thr =>
    if st.at thr .outside ∧ 0 < (st.threads thr).eventCount then
      some (.ok (unregisterCount st thr))
    else none
  | .off thr => if st.at thr .off then some (unregisterOff st thr) else none

def modeInit : ModeState where
  useEventRaw      := false
  activeFdRefcount := 0
  live             := ∅
  threads          := fun _ => modeThreadInit

/-- The events of any number of threads. -/
def modeLts : Kit.Lts ModeState ModeOp where
  init := modeInit
  step := fun st op => (modeStep st op).bind Except.toOption

/-! ### Agreement -/

variable {st st' : ModeState} {op : ModeOp} {tr : List ModeOp} {thr : ThreadId} {ok : Bool}
  {t : ModeThread}

/-- The only receiver that is enabled is the one that is used. -/
def ModeState.Agrees (st : ModeState) (thr : ThreadId) : Prop :=
  (st.threads thr).enabled = {st.receiver}

instance (st : ModeState) (thr : ThreadId) : Decidable (st.Agrees thr) :=
  inferInstanceAs (Decidable (_ = _))

/-- If the receiver of the poll method cannot be enabled in a thread, then it is not enabled in any
other thread either, and none is about to enable it. -/
def ModeState.failsAlone (st : ModeState) : ModeOp → Prop
  | .rxOn thr false => ∀ thr' ∈ st.live, thr' ≠ thr →
      .pollMethod ∉ (st.threads thr').enabled ∧ (st.threads thr').pc ≠ .rxOn
  | _ => True

instance (st : ModeState) (op : ModeOp) : Decidable (st.failsAlone op) := by
  unfold ModeState.failsAlone
  split <;> infer_instance

/-- What holds of a thread, given the receiver that the flag stands for. -/
def ModeThread.Ok (r : Receiver) (t : ModeThread) : Prop :=
  match t.pc with
  | .outside => t.enabled = if t.eventCount = 0 then ∅ else {r}
  | .rxOn    => r = .pollMethod ∧ t.enabled = ∅ ∧ t.eventCount = 1
  | .rawOn   => t.enabled = (if r = .pollMethod then {.pollMethod} else ∅) ∧ t.eventCount = 1
  | .off     => t.enabled = {r} ∧ t.eventCount = 0

/-- The flag is set while no receiver of the poll method is enabled or about to be. -/
lemma ModeThread.Ok.eventsKick (h : t.Ok .pollMethod) (hoff : .pollMethod ∉ t.enabled)
    (hpc : t.pc ≠ .rxOn) : t.Ok .eventsKick := by
  unfold ModeThread.Ok at h ⊢
  cases hpc' : t.pc with
  | outside =>
    simp only [hpc'] at h ⊢
    split_ifs at h ⊢ with hcount
    · exact h
    · simp [h] at hoff
  | rxOn => exact absurd hpc' hpc
  | rawOn =>
    simp only [hpc', if_true] at h
    simp [h.1] at hoff
  | off =>
    simp only [hpc'] at h
    simp [h.1] at hoff

def ModeState.Ok (st : ModeState) : Prop :=
  ∀ thr ∈ st.live, (st.threads thr).Ok st.receiver

namespace ModeState.Ok

variable (h : st.Ok)
include h

/-- A step that concerns one thread and leaves the flag alone. -/
lemma set (ht : t.Ok st.receiver) : (st.set thr t).Ok := by
  intro thr' hthr'
  by_cases heq : thr' = thr
  · subst heq
    rw [set_threads_self]
    exact ht
  · rw [set_threads_of_ne st t heq]
    exact h thr' hthr'

lemma registerCount (hat : st.at thr .outside) : (registerCount st thr).Ok := by
  have hok := h thr hat.1
  simp only [ModeThread.Ok, hat.2] at hok
  refine h.set ?_
  by_cases hcount : (st.threads thr).eventCount = 0
  · cases hraw : st.useEventRaw with
    | false => simp [ModeThread.Ok, hcount, hraw, hok, receiver]
    | true => simp [ModeThread.Ok, hcount, hraw, hok, receiver]
  · simp [ModeThread.Ok, hcount, hok]

lemma registerRxOn (hat : st.at thr .rxOn) (hcond : st.failsAlone (.rxOn thr ok)) :
    (registerRxOn st thr ok).Ok := by
  have hok := h thr hat.1
  simp only [ModeThread.Ok, hat.2] at hok
  obtain ⟨hreceiver, henabled, hcount⟩ := hok
  cases ok with
  | true =>
    have hst : { st with activeFdRefcount := st.activeFdRefcount + 1 }.Ok := h
    refine hst.set ?_
    have hreceiver' : { st with activeFdRefcount := st.activeFdRefcount + 1 }.receiver =
        .pollMethod := hreceiver
    simp [ModeThread.Ok, hreceiver', henabled, hcount]
  | false =>
    -- the flag is set for all threads
    intro thr' hthr'
    by_cases heq : thr' = thr
    · subst heq
      simp [Ivykis.registerRxOn, ModeThread.Ok, receiver, henabled, hcount]
    · have hothers := hcond thr' hthr' heq
      have hok' := h thr' hthr'
      rw [hreceiver] at hok'
      have heq' : ((Ivykis.registerRxOn st thr false).threads thr') = st.threads thr' :=
        set_threads_of_ne _ _ heq
      rw [heq']
      exact hok'.eventsKick hothers.1 hothers.2

lemma registerRawOn (hat : st.at thr .rawOn) : (registerRawOn st thr ok).Ok := by
  have hok := h thr hat.1
  simp only [ModeThread.Ok, hat.2] at hok
  obtain ⟨henabled, hcount⟩ := hok
  simp only [Ivykis.registerRawOn]
  split_ifs with hraw hok
  · refine h.set ?_
    simp [ModeThread.Ok, henabled, hcount, receiver, hraw]
  · refine h.set ?_
    simp [ModeThread.Ok, henabled, hcount, receiver, hraw]
  · refine h.set ?_
    simp [ModeThread.Ok, henabled, hcount, receiver, hraw]

lemma unregisterCount (hat : st.at thr .outside) (hpos : 0 < (st.threads thr).eventCount) :
    (unregisterCount st thr).Ok := by
  have hok := h thr hat.1
  simp only [ModeThread.Ok, hat.2, hpos.ne', if_false] at hok
  simp only [Ivykis.unregisterCount]
  split_ifs with hlast
  · refine h.set ?_
    simp [ModeThread.Ok, hok]
  · refine h.set ?_
    simp [ModeThread.Ok, hok, hat.2, hlast]

/-- What is to be disabled is enabled. -/
lemma unregisterOff (hat : st.at thr .off) :
    ∃ st', unregisterOff st thr = .ok st' ∧ st'.Ok := by
  have hok := h thr hat.1
  simp only [ModeThread.Ok, hat.2] at hok
  obtain ⟨henabled, hcount⟩ := hok
  simp only [Ivykis.unregisterOff]
  split_ifs with hraw hmem hmem
  · refine ⟨_, rfl, h.set ?_⟩
    simp [ModeThread.Ok, henabled, hcount]
  · simp [henabled, receiver, hraw] at hmem
  · have hst : { st with activeFdRefcount := st.activeFdRefcount - 1 }.Ok := h
    refine ⟨_, rfl, hst.set ?_⟩
    simp [ModeThread.Ok, henabled, hcount]
  · simp [henabled, receiver, hraw] at hmem

/-- The outcome of a step that meets the condition. -/
lemma step (hcond : st.failsAlone op) {res : Except Fault ModeState}
    (hstep : modeStep st op = some res) : ∃ st', res = .ok st' ∧ st'.Ok := by
  cases op with
  | init thr =>
    simp only [modeStep, Option.ite_none_right_eq_some, Option.some.injEq] at hstep
    refine ⟨_, hstep.2.symm, fun thr' hthr' => ?_⟩
    by_cases heq : thr' = thr
    · subst heq
      rw [set_threads_self]
      rfl
    · rw [set_threads_of_ne _ _ heq]
      exact h thr' (Finset.mem_of_mem_insert_of_ne hthr' heq)
  | register thr =>
    simp only [modeStep, Option.ite_none_right_eq_some, Option.some.injEq] at hstep
    exact ⟨_, hstep.2.symm, h.registerCount hstep.1⟩
  | rxOn thr ok =>
    simp only [modeStep, Option.ite_none_right_eq_some, Option.some.injEq] at hstep
    exact ⟨_, hstep.2.symm, h.registerRxOn hstep.1 hcond⟩
  | rawOn thr ok =>
    simp only [modeStep, Option.ite_none_right_eq_some, Option.some.injEq] at hstep
    exact ⟨_, hstep.2.symm, h.registerRawOn hstep.1⟩
  | unregister thr =>
    simp only [modeStep, Option.ite_none_right_eq_some, Option.some.injEq] at hstep
    exact ⟨_, hstep.2.symm, h.unregisterCount hstep.1.1 hstep.1.2⟩
  | off thr =>
    simp only [modeStep, Option.ite_none_right_eq_some, Option.some.injEq] at hstep
    obtain ⟨st', hst', hok⟩ := h.unregisterOff hstep.1
    exact ⟨st', hstep.2.symm.trans hst', hok⟩

end ModeState.Ok

lemma modeOk_of_run (h : (modeLts.restrict ModeState.failsAlone).Run tr st) : st.Ok := by
  refine Kit.Lts.Run.induct (P := fun _ st => st.Ok) ?_ ?_ h
  · exact fun thr hthr => absurd hthr (Finset.notMem_empty thr)
  · rintro _ s op s' - hok hstep
    obtain ⟨hcond, hstep⟩ := Kit.Lts.restrict_step.mp hstep
    obtain ⟨res, hres, hs'⟩ := Option.bind_eq_some_iff.mp hstep
    obtain ⟨s'', rfl, hok'⟩ := hok.step hcond hres
    exact Option.some.inj hs' ▸ hok'

/-- As long as `event_rx_on` does not fail in one thread while another one relies on it, every
thread that has registered events, and is not just registering one, has enabled the receiver that
is used and no other. None of the checks made when it is disabled fails. -/
theorem receiversAgree_of_run (h : (modeLts.restrict ModeState.failsAlone).Run tr st) :
    (∀ thr, st.at thr .outside → 0 < (st.threads thr).eventCount → st.Agrees thr) ∧
    ∀ op f, st.failsAlone op → modeStep st op ≠ some (.error f) := by
  have hok := modeOk_of_run h
  refine ⟨fun thr hat hpos => ?_, fun op f hcond herr => ?_⟩
  · have hthr := hok thr hat.1
    simp only [ModeThread.Ok, hat.2, hpos.ne', if_false] at hthr
    exact hthr
  · obtain ⟨st', hst', -⟩ := hok.step hcond herr
    exact absurd hst' (by simp)

/-- The first thread cannot enable the receiver of the poll method, and both use the other one. -/
theorem receiversAgree_of_run_raw : ∃ st, (modeLts.restrict ModeState.failsAlone).Run
    [.init 0, .init 1, .register 0, .rxOn 0 false, .rawOn 0 true, .register 1, .rawOn 1 true] st ∧
    st.useEventRaw = true ∧ st.Agrees 0 ∧ st.Agrees 1 := by
  refine Kit.Lts.exists_run_of_decide (fun st => st.useEventRaw = true ∧ st.at 0 .outside ∧
    0 < (st.threads 0).eventCount ∧ st.at 1 .outside ∧ 0 < (st.threads 1).eventCount) (by decide)
    fun st hst ⟨hraw, hat₀, hpos₀, hat₁, hpos₁⟩ => ?_
  exact ⟨hraw, (receiversAgree_of_run hst).1 0 hat₀ hpos₀,
    (receiversAgree_of_run hst).1 1 hat₁ hpos₁⟩

/-- The second thread cannot enable the receiver of the poll method. From then on events of the
first one are sent to a receiver that it has not enabled, and it ends in `iv_fatal` when it
unregisters its event. -/
theorem receivers_disagree : ∃ st, modeLts.Run
    [.init 0, .init 1, .register 0, .rxOn 0 true, .rawOn 0 true, .register 1, .rxOn 1 false,
      .rawOn 1 true] st ∧
    st.at 0 .outside ∧ 0 < (st.threads 0).eventCount ∧ ¬ st.Agrees 0 ∧
    ∃ st', modeLts.step st (.unregister 0) = some st' ∧ modeStep st' (.off 0) =
      some (.error (.fatal "iv_fd_unregister: called with fd which is not registered")) := by
  refine Kit.Lts.exists_run_of_decide (fun st => (st.at 0 .outside ∧
    0 < (st.threads 0).eventCount ∧ ¬ st.Agrees 0) ∧
      ((modeLts.step st (.unregister 0)).bind fun st' => (modeStep st' (.off 0)).bind faultOf) =
        some (.fatal "iv_fd_unregister: called with fd which is not registered")) (by decide)
    fun st _ ⟨⟨hat, hpos, hdis⟩, hfault⟩ => ?_
  simp only [Option.bind_eq_some_iff, faultOf_eq_some] at hfault
  obtain ⟨st', hst', res, hres, rfl⟩ := hfault
  exact ⟨hat, hpos, hdis, st', hst', hres⟩

end Ivykis
