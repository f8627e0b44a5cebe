import Ivykis.Fd.Port

/-!
# What an event port poll makes of its events (`iv_fd_port.c`)

`iv_fd_port_poll` calls `port_getn` again as long as it gets as many events as it has asked for, and
keeps in two flags whether there were events of the timer and of other threads. An event that has
been retrieved is not reported again, so each of them has to be acted on before the function
returns. It returns early if a call of `port_getn` is interrupted, and then the second flag is lost.
-/

namespace Ivykis

/-- The events that `port_getn` has retrieved. -/
def retrieved : List PortGetn → List PortEvent
  | []                         => []
  | .events batch _ :: results => batch ++ retrieved results
  | .interrupted :: results    => retrieved results

/-- The bands that events report for the descriptor with a given number. -/
def reportedBands (num : ℤ) : List PortEvent → Finset Band
  | [] => ∅
  | .fd num' revents :: events =>
    (if num' = num then pollBands revents else ∅) ∪ reportedBands num events
  | .timer :: events => reportedBands num events
  | .user :: events => reportedBands num events

/-- Events of other threads have been retrieved, and a later call of `port_getn` is interrupted. -/
def cutShort (results : List PortGetn) : Prop :=
  .interrupted ∈ results ∧ .user ∈ retrieved results

instance (results : List PortGetn) : Decidable (cutShort results) :=
  inferInstanceAs (Decidable (_ ∧ _))

lemma reportedBands_append (num : ℤ) (events events' : List PortEvent) :
    reportedBands num (events ++ events') =
      reportedBands num events ∪ reportedBands num events' := by
  induction events with
  | nil => simp [reportedBands]
  | cons event events ih =>
    cases event with
    | fd num' revents => simp only [List.cons_append, reportedBands, ih, Finset.union_assoc]
    | timer => exact ih
    | user => exact ih

/-! ### One event -/

section Ready

variable {st : FdState PortState} {num : ℤ} {fd p : FdPtr} {revents : Finset PollFlag}

lemma portReady_active : (portReady (st.setMethod (st.method.retrieve num)) fd revents).active =
    (makePollReady st fd revents).active := by
  rw [portReady_eq]
  rfl

lemma portReady_fds_of_ne (hp : p ≠ fd) :
    (portReady (st.setMethod (st.method.retrieve num)) fd revents).fds p = st.fds p := by
  rw [portReady_eq]
  simp [hp, makePollReady_fds_of_ne hp]

lemma portReady_fds_self :
    (portReady (st.setMethod (st.method.retrieve num)) fd revents).fds fd =
      { st.fds fd with
        readyBands := ((makePollReady st fd revents).fds fd).readyBands
        registeredBands := ∅ } := by
  rw [portReady_eq]
  simp only [FdState.setMethod_fds, FdState.setFd_fds, Function.update_self]
  rw [(makePollReady_sameRegs st fd revents).fds fd]

lemma portReady_num (p : FdPtr) :
    ((portReady (st.setMethod (st.method.retrieve num)) fd revents).fds p).fd = (st.fds p).fd := by
  by_cases hp : p = fd
  · rw [hp, portReady_fds_self]
  · rw [portReady_fds_of_ne hp]

/-- Reports for a descriptor add up. -/
lemma makePollReady_readyBands_of_active {bands : Finset Band}
    (hready : fd ∈ st.active → (st.fds fd).readyBands = bands)
    (hnone : fd ∉ st.active → bands = ∅)
    (hactive : fd ∈ (makePollReady st fd revents).active) :
    ((makePollReady st fd revents).fds fd).readyBands = bands ∪ pollBands revents := by
  rw [makePollReady_eq]
  split_ifs with hbands
  · rw [mem_active_makePollReady] at hactive
    have hmem : fd ∈ st.active := hactive.resolve_right fun h => h.2 hbands
    rw [hready hmem, hbands, Finset.union_empty]
  · rw [ivFdMakeReady_readyBands]
    split_ifs with hmem
    · rw [hready hmem]
    · rw [hnone hmem, Finset.empty_union]

end Ready

/-- What has become of the events that have been retrieved so far. -/
structure PortRound.Collected (r : PortRound) (T : Finset FdPtr) (events : List PortEvent) :
    Prop where
  ok : r.Ok T
  timer : .timer ∈ events → r.runTimers = true
  user : .user ∈ events → r.runEvents = true
  source : ∀ num revents, .fd num revents ∈ events →
    ∃ p ∈ T, (r.st.fds p).fd = num ∧ (r.st.fds p).registeredBands = ∅
  active : ∀ p ∈ T, p ∈ r.st.active ↔ reportedBands (r.st.fds p).fd events ≠ ∅
  bands : ∀ p ∈ T, p ∈ r.st.active →
    (r.st.fds p).readyBands = reportedBands (r.st.fds p).fd events

namespace PortRound.Collected

variable {r r' : PortRound} {T : Finset FdPtr} {events : List PortEvent}

/-- An event that sets a flag. -/
lemma flag (h : r.Collected T events) {e : PortEvent} (hfd : ∀ num revents, e ≠ .fd num revents)
    (hst : r'.st = r.st) (htimer : r.runTimers = true ∨ e = .timer → r'.runTimers = true)
    (huser : r.runEvents = true ∨ e = .user → r'.runEvents = true) :
    r'.Collected T (events ++ [e]) := by
  have hsame : ∀ num, reportedBands num (events ++ [e]) = reportedBands num events := by
    intro num
    rw [reportedBands_append]
    cases e with
    | fd num' revents => exact absurd rfl (hfd num' revents)
    | timer => simp [reportedBands]
    | user => simp [reportedBands]
  refine ⟨⟨hst ▸ h.ok.fds, hst ▸ h.ok.port⟩, fun hmem => htimer ?_, fun hmem => huser ?_,
    ?_, ?_, ?_⟩
  · rcases List.mem_append.mp hmem with hmem | hmem
    · exact Or.inl (h.timer hmem)
    · exact Or.inr (List.mem_singleton.mp hmem).symm
  · rcases List.mem_append.mp hmem with hmem | hmem
    · exact Or.inl (h.user hmem)
    · exact Or.inr (List.mem_singleton.mp hmem).symm
  · intro num revents hmem
    rcases List.mem_append.mp hmem with hmem | hmem
    · exact hst ▸ h.source num revents hmem
    · exact absurd (List.mem_singleton.mp hmem).symm (hfd num revents)
  · intro p hp
    rw [hst, hsame]
    exact h.active p hp
  · intro p hp
    rw [hst, hsame]
    exact h.bands p hp

/-- An event of a descriptor. -/
lemma ready (h : r.Collected T events) {num : ℤ} {evs revents : Finset PollFlag} {q : FdPtr}
    (hassoc : r.st.method.assoc num = some (evs, q))
    (hst : r'.st = portReady (r.st.setMethod (r.st.method.retrieve num)) q revents)
    (hok : r'.Ok T) (htimers : r'.runTimers = r.runTimers) (hevents : r'.runEvents = r.runEvents) :
    r'.Collected T (events ++ [.fd num revents]) := by
  obtain ⟨hq, hnum⟩ := h.ok.port.known hassoc
  have hself : ∀ p ∈ T, (r.st.fds p).fd = num ↔ p = q := by
    intro p hp
    refine ⟨fun heq => h.ok.fds.distinct p hp q hq (heq.trans hnum.symm), ?_⟩
    rintro rfl
    exact hnum
  have hbands : ∀ p ∈ T, reportedBands (r'.st.fds p).fd (events ++ [.fd num revents]) =
      reportedBands (r.st.fds p).fd events ∪ if p = q then pollBands revents else ∅ := by
    intro p hp
    rw [hst, portReady_num, reportedBands_append]
    simp only [reportedBands, Finset.union_empty, eq_comm (a := num), hself p hp]
  have hactive : ∀ p ∈ T, p ∈ r'.st.active ↔
      reportedBands (r'.st.fds p).fd (events ++ [.fd num revents]) ≠ ∅ := by
    intro p hp
    rw [hbands p hp, hst, portReady_active, mem_active_makePollReady, h.active p hp]
    by_cases hpq : p = q
    · simp [hpq, Finset.union_eq_empty, ← not_and_or]
    · simp [hpq]
  refine ⟨hok, ?_, ?_, ?_, hactive, ?_⟩
  · rw [htimers]
    exact fun hmem => h.timer (by simpa using hmem)
  · rw [hevents]
    exact fun hmem => h.user (by simpa using hmem)
  · intro num' revents' hmem
    rw [hst]
    rcases List.mem_append.mp hmem with hmem | hmem
    · obtain ⟨p, hp, hpnum, hgone⟩ := h.source num' revents' hmem
      refine ⟨p, hp, by rw [portReady_num, hpnum], ?_⟩
      by_cases hpq : p = q
      · rw [hpq, portReady_fds_self]
      · rw [portReady_fds_of_ne hpq, hgone]
    · obtain ⟨rfl, -⟩ := PortEvent.fd.inj (List.mem_singleton.mp hmem)
      exact ⟨q, hq, by rw [portReady_num, hnum], by rw [portReady_fds_self]⟩
  · intro p hp hmem
    rw [hbands p hp]
    rw [hst, portReady_active] at hmem
    rw [hst]
    by_cases hpq : p = q
    · subst hpq
      rw [portReady_fds_self, if_pos rfl]
      refine makePollReady_readyBands_of_active (h.bands p hp) (fun hnot => ?_) hmem
      exact not_not.mp (mt (h.active p hp).mpr hnot)
    · rw [portReady_fds_of_ne hpq, if_neg hpq, Finset.union_empty]
      refine h.bands p hp ?_
      exact (mem_active_makePollReady.mp hmem).resolve_right fun heq => hpq heq.1

lemma event (h : r.Collected T events) {e : PortEvent} (hevent : portEvent r e = some r') :
    r'.Collected T (events ++ [e]) := by
  have hok := h.ok.event hevent
  cases e with
  | timer =>
    obtain rfl := Option.some.inj hevent
    exact h.flag (by simp) rfl (fun _ => rfl) (by simp)
  | user =>
    obtain rfl := Option.some.inj hevent
    exact h.flag (by simp) rfl (by simp) (fun _ => rfl)
  | fd num revents =>
    unfold portEvent at hevent
    dsimp only at hevent
    split at hevent
    next evs q hassoc =>
      obtain rfl := Option.some.inj hevent
      exact h.ready hassoc rfl hok rfl rfl
    next => cases hevent

lemma batch (h : r.Collected T events) {batch : List PortEvent}
    (hbatch : portBatch r batch = some r') : r'.Collected T (events ++ batch) := by
  induction batch generalizing r events with
  | nil =>
    obtain rfl := Option.some.inj hbatch
    simpa using h
  | cons e batch ih =>
    obtain ⟨r₁, hevent, hrest⟩ := Option.bind_eq_some_iff.mp hbatch
    simpa using ih (h.event hevent) hrest

/-- More timers are run than the events ask for. -/
lemma timers (h : r.Collected T events) (runTimers : Bool)
    (htimers : r.runTimers = true → runTimers = true) :
    PortRound.Collected { r with runTimers := runTimers } T events :=
  ⟨⟨h.ok.fds, h.ok.port⟩, fun hmem => htimers (h.timer hmem), h.user, h.source, h.active, h.bands⟩

/-- The calls of `port_getn` to the end. An interrupted one forgets the events of other threads. -/
lemma pollMore (h : r.Collected T events) {results : List PortGetn}
    (hpoll : portPollMore r results = some r') :
    ∃ r₁ : PortRound, r₁.Collected T (events ++ retrieved results) ∧
      r' = { r₁ with runEvents := r₁.runEvents && decide (.interrupted ∉ results) } := by
  induction results generalizing r events with
  | nil => cases hpoll
  | cons result results ih =>
    cases result with
    | events batch etime =>
      rw [portPollMore, Option.ite_none_right_eq_some] at hpoll
      obtain ⟨r₁, hbatch, hrest⟩ := Option.bind_eq_some_iff.mp hpoll.2
      have hdone := (h.timers (r.runTimers || etime) (by simp +contextual)).batch hbatch
      rw [retrieved, ← List.append_assoc]
      split_ifs at hrest with hfull hnil
      · obtain ⟨r₂, hend, heq⟩ := ih (hdone.timers true fun _ => rfl) hrest
        exact ⟨r₂, hend, by simpa using heq⟩
      · obtain rfl := Option.some.inj hrest
        exact ⟨r₁, by simpa [hnil, retrieved] using hdone, by simp [hnil]⟩
    | interrupted =>
      unfold portPollMore at hpoll
      split_ifs at hpoll with hnil
      obtain rfl := Option.some.inj hpoll
      exact ⟨r, by simpa [hnil, retrieved] using h, by simp⟩

end PortRound.Collected

/-! ### Main result -/

section Main

variable {fds : FdPtr → Fd} {tr : List (LoopLabel PortPoll)} {s s' : LoopState PortState}

/-- What becomes of the events that `iv_fd_port_poll` has retrieved, for any results of `port_getn`:
the return value `runTimers` is set, and a descriptor is on the list of active ones with all the
bands that were reported for it, and on the list of changes if it still has a handler. The pending
events are run for the event of another thread if and only if `port_getn` is not interrupted after
one has been retrieved. -/
theorem portRetrieve_of_run (h : (portLts fds).Run tr s) {zero : Bool} {results : List PortGetn}
    (hstep : (portLts fds).step s (.poll (.getn zero results)) = some s') :
    ∃ r, portPollMore ⟨{ s.st with active := [] }, zero, false⟩ results = some r ∧ s'.st = r.st ∧
      ((.user ∈ retrieved results → s'.pc = .events) ↔ ¬ cutShort results) ∧
      (.timer ∈ retrieved results → r.runTimers = true) ∧
      ∀ num revents, .fd num revents ∈ retrieved results →
        ∃ p, (s'.st.fds p).registered = true ∧ (s'.st.fds p).fd = num ∧
          (reportedBands num (retrieved results) ≠ ∅ → p ∈ s'.st.active ∧
            (s'.st.fds p).readyBands = reportedBands num (retrieved results)) ∧
          ((∃ band, (s'.st.fds p).handler band ≠ none) → p ∈ s'.st.method.notify) := by
  have hinv := portInv_of_run h
  have hstep : LoopStep portMethod ivFdPortPoll s (.poll (.getn zero results)) s' := .of_step hstep
  cases hstep with
  | poll hpc hpoll =>
    simp only [ivFdPortPoll] at hpoll
    split_ifs at hpoll
    obtain ⟨r, hmore, heq⟩ := Option.map_eq_some_iff.mp hpoll
    obtain ⟨rfl, rfl⟩ := Prod.mk.inj heq
    have hsame : SameRegs s.st { s.st with active := [] } := .start s.st
    have hstart : PortRound.Collected ⟨{ s.st with active := [] }, zero, false⟩ s.regs [] := by
      refine ⟨⟨hinv.fds.of_same hsame, port_flushes.backend.same hinv.backend hsame⟩,
        ?_, ?_, ?_, ?_, ?_⟩ <;> simp [reportedBands]
    obtain ⟨r₁, hend, rfl⟩ := hstart.pollMore hmore
    rw [List.nil_append] at hend
    refine ⟨_, hmore, rfl, ⟨fun hpc hcut => ?_, fun hcut huser => ?_⟩, hend.timer, ?_⟩
    · have hevents := hpc hcut.2
      simp [hcut.1] at hevents
    · have hint : .interrupted ∉ results := fun hint => hcut ⟨hint, huser⟩
      simp [hend.user huser, hint]
    intro num revents hmem
    obtain ⟨p, hp, rfl, hgone⟩ := hend.source num revents hmem
    refine ⟨p, (hend.ok.fds.mem_iff p).mp hp, rfl, fun hne => ?_, fun hhandler => ?_⟩
    · have hactive := (hend.active p hp).mpr hne
      exact ⟨hactive, hend.bands p hp hactive⟩
    · -- the association is gone, so that a descriptor that is not on the list has no wanted bands
      by_contra hnot
      have hsettled : (r₁.st.fds p).registeredBands = (r₁.st.fds p).wantedBands :=
        hend.ok.port.view.notify.unlisted p hp (by simp) hnot
      rw [hgone, hend.ok.fds.wanted p hp] at hsettled
      exact Fd.handlerBands_eq_empty_iff.mp hsettled.symm hhandler

/-- A descriptor is associated, and `port_getn` retrieves its event and two others. -/
def retrievedOnce : List (LoopLabel PortPoll) :=
  [.op (.prepare 5 3 (some 1) none none), .op (.register 5), .poll (.upload false)]

theorem portRetrieve_of_run_retrievedOnce :
    ∃ s s', (portLts noFds).Run retrievedOnce s ∧
      (portLts noFds).step s
        (.poll (.getn false [.events [.user, .fd 3 {.pollIn}, .timer] true])) = some s' ∧
      s'.pc = .events := by
  have hmap : ((portLts noFds).exec (ivFdPortInit noFds) (retrievedOnce ++
      [.poll (.getn false [.events [.user, .fd 3 {.pollIn}, .timer] true])])).isSome = true := by
    decide
  obtain ⟨s', hs'⟩ := Option.isSome_iff_exists.mp hmap
  obtain ⟨s, hrun, hstep⟩ := Kit.Lts.run_snoc.mp hs'
  obtain ⟨r, -, -, huser, -⟩ := portRetrieve_of_run hrun hstep
  exact ⟨s, s', hrun, hstep, huser.mpr (by decide) (by decide)⟩

/-- The first batch fills the array and the second call of `port_getn` is interrupted: the events of
other threads have been retrieved, but the pending events are not run. -/
theorem userEvent_dropped :
    ∃ s, (portLts noFds).Run
        [.poll (.getn false [.events (List.replicate portevNum .user) false, .interrupted])] s ∧
      .user ∈ retrieved [.events (List.replicate portevNum .user) false, .interrupted] ∧
      s.pc = .loop := by
  refine Kit.Lts.exists_run_of_decide (·.pc = .loop) (by decide +kernel) fun s _ hpc => ?_
  have huser : PortEvent.user ∈ List.replicate portevNum PortEvent.user :=
    List.mem_replicate.mpr ⟨by decide, rfl⟩
  exact ⟨List.mem_append_left _ huser, hpc⟩

end Main

end Ivykis
