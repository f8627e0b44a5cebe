import Mathlib.Data.Finset.Card
import Ivykis.Event.Mode

/-!
# The counters of `iv_event_register` (`iv_event.c`, `iv_fd_epoll.c`)

Three counters are moved before the steps of `iv_event_register` that can fail: `event_count`,
`numobjs`, and `iv_active_fd_refcount`, which is one for all threads. Of these `event_count` is the
only one that is set back. So the other two tell what is really registered only as long as the step
that each of them was moved for does not fail.
-/

namespace Ivykis

variable {st st' s₀ : ModeState} {op : ModeOp} {tr : List ModeOp} {thr : ThreadId}

/-- What `iv_event_register` returns, at its last step. -/
def registerRet (st : ModeState) (ok : Bool) : ℤ :=
  if st.useEventRaw ∧ ok = false then -1 else 0

/-- The thread that makes a step. -/
def ModeOp.thread : ModeOp → ThreadId
  | .init thr       => thr
  | .register thr   => thr
  | .rxOn thr _     => thr
  | .rawOn thr _    => thr
  | .unregister thr => thr
  | .off thr        => thr

/-- The threads whose receiver of the epoll method is enabled. -/
def ModeState.rxThreads (st : ModeState) : Finset ThreadId :=
  st.live.filter fun thr => .pollMethod ∈ (st.threads thr).enabled

/-- A call of `iv_event_register` by `thr` that starts in `s₀`, goes through its fallible steps
while other threads make theirs, and returns `ret` in `st'`. -/
def RegisterCall (thr : ThreadId) (s₀ st' : ModeState) (ret : ℤ) : Prop :=
  ∃ tr st ok, modeLts.exec s₀ (.register thr :: tr) = some st ∧
    (∀ op ∈ tr, op.thread = thr → ∃ ok, op = .rxOn thr ok) ∧
    modeLts.step st (.rawOn thr ok) = some st' ∧ ret = registerRet st ok

/-! ### Steps -/

/-- The outcome of a step. -/
inductive ModeStep (st : ModeState) : ModeOp → ModeState → Prop
  | init {thr : ThreadId} (hlive : thr ∉ st.live) :
      ModeStep st (.init thr) ({ st with live := insert thr st.live }.set thr modeThreadInit)
  | register {thr : ThreadId} (hat : st.at thr .outside) :
      ModeStep st (.register thr) (registerCount st thr)
  | rxOn {thr : ThreadId} {ok : Bool} (hat : st.at thr .rxOn) :
      ModeStep st (.rxOn thr ok) (registerRxOn st thr ok)
  | rawOn {thr : ThreadId} {ok : Bool} (hat : st.at thr .rawOn) :
      ModeStep st (.rawOn thr ok) (registerRawOn st thr ok)
  | unregister {thr : ThreadId} (hat : st.at thr .outside)
      (hpos : 0 < (st.threads thr).eventCount) :
      ModeStep st (.unregister thr) (unregisterCount st thr)
  | off {thr : ThreadId} {st' : ModeState} (hat : st.at thr .off)
      (hoff : unregisterOff st thr = .ok st') : ModeStep st (.off thr) st'

lemma ModeStep.of_step (h : modeLts.step st op = some st') : ModeStep st op st' := by
  obtain ⟨res, hres, hst'⟩ := Option.bind_eq_some_iff.mp h
  obtain rfl := toOption_eq_some.mp hst'
  cases op with
  | off thr =>
    simp only [modeStep, Option.ite_none_right_eq_some, Option.some.injEq] at hres
    exact .off hres.1 hres.2
  | _ =>
    simp only [modeStep, Option.ite_none_right_eq_some, Option.some.injEq, Except.ok.injEq] at hres
    obtain ⟨hguard, rfl⟩ := hres
    first
      | exact .init hguard
      | exact .register hguard
      | exact .rxOn hguard
      | exact .rawOn hguard
      | exact .unregister hguard.1 hguard.2

@[simps]
def ModeState.setRefcount (st : ModeState) (refcount : ℕ) : ModeState :=
  { st with activeFdRefcount := refcount }

/-- What is disabled is the receiver that the flag stands for, and it was enabled. -/
lemma unregisterOff_eq_ok (h : unregisterOff st thr = .ok st') :
    st.receiver ∈ (st.threads thr).enabled ∧
    st' = (st.setRefcount
        (if st.useEventRaw then st.activeFdRefcount else st.activeFdRefcount - 1)).set thr
      { st.threads thr with
        numobjs := (st.threads thr).numobjs - 2
        enabled := (st.threads thr).enabled.erase st.receiver
        pc      := .outside } := by
  unfold unregisterOff at h
  dsimp only at h
  split_ifs at h with hraw hmem hmem
  · refine ⟨by simpa [ModeState.receiver, hraw] using hmem, ?_⟩
    rw [if_pos hraw]
    exact (Except.ok.inj h).symm
  · refine ⟨by simpa [ModeState.receiver, hraw] using hmem, ?_⟩
    rw [if_neg hraw]
    exact (Except.ok.inj h).symm

namespace ModeStep

/-- A thread's step leaves the other threads alone. -/
lemma threads_of_ne (h : ModeStep st op st') (hne : thr ≠ op.thread) :
    st'.threads thr = st.threads thr := by
  cases h with
  | init hlive => exact ModeState.set_threads_of_ne _ _ hne
  | register hat => exact ModeState.set_threads_of_ne _ _ hne
  | @rxOn _ ok hat =>
    cases ok with
    | true => exact ModeState.set_threads_of_ne _ _ hne
    | false => exact ModeState.set_threads_of_ne _ _ hne
  | rawOn hat =>
    unfold registerRawOn
    dsimp only
    split_ifs <;> exact ModeState.set_threads_of_ne _ _ hne
  | unregister hat hpos =>
    unfold unregisterCount
    dsimp only
    split_ifs <;> exact ModeState.set_threads_of_ne _ _ hne
  | off hat hoff =>
    rw [(unregisterOff_eq_ok hoff).2]
    exact ModeState.set_threads_of_ne (st.setRefcount _) _ hne

end ModeStep

/-! ### A call that fails -/

/-- The thread is in the middle of a call that has started in `s₀`, unless the call has returned. -/
def ModeState.Registering (s₀ st : ModeState) (thr : ThreadId) : Prop :=
  (st.threads thr).pc ≠ .outside →
    (st.threads thr).eventCount = (s₀.threads thr).eventCount + 1 ∧
    (s₀.threads thr).numobjs < (st.threads thr).numobjs

lemma registering_of_exec (h : modeLts.exec s₀ (.register thr :: tr) = some st)
    (htr : ∀ op ∈ tr, op.thread = thr → ∃ ok, op = .rxOn thr ok) : s₀.Registering st thr := by
  obtain ⟨s₁, hfirst, hexec⟩ := Option.bind_eq_some_iff.mp h
  have hstart : s₀.Registering s₁ thr := by
    intro _
    cases ModeStep.of_step hfirst with
    | register hat => simp [registerCount]
  refine Kit.Lts.exec_induct (L := modeLts)
    (P := fun tr st => (∀ op ∈ tr, op.thread = thr → ∃ ok, op = .rxOn thr ok) →
      s₀.Registering st thr) (fun _ => hstart) ?_ hexec htr
  intro tr s op s' _ ih hstep htr
  have hs := ih fun op hop => htr op (List.mem_append_left _ hop)
  have hstep := ModeStep.of_step hstep
  by_cases hthr : op.thread = thr
  · obtain ⟨ok, rfl⟩ := htr op (by simp) hthr
    cases hstep with
    | rxOn hat =>
      intro _
      obtain ⟨hcount, hnum⟩ := hs (by simp [hat.2])
      cases ok with
      | true => simpa [registerRxOn, hcount] using by omega
      | false => simpa [registerRxOn, hcount] using hnum
  · unfold ModeState.Registering
    rw [hstep.threads_of_ne (Ne.symm hthr)]
    exact hs

/-- A call that fails sets `event_count` back, but not `numobjs`. -/
lemma RegisterCall.failed {ret : ℤ} (h : RegisterCall thr s₀ st' ret) (hret : ret ≠ 0) :
    (st'.threads thr).eventCount = (s₀.threads thr).eventCount ∧
    (s₀.threads thr).numobjs < (st'.threads thr).numobjs := by
  obtain ⟨tr, st, ok, hexec, htr, hstep, rfl⟩ := h
  have hcall := registering_of_exec hexec htr
  cases ModeStep.of_step hstep with
  | rawOn hat =>
    have hfailed : st.useEventRaw = true ∧ ok = false := by
      by_contra hne
      exact hret (if_neg hne)
    obtain ⟨hcount, hnum⟩ := hcall (by simp [hat.2])
    simpa [registerRawOn, hfailed, hcount] using hnum

/-! ### `iv_active_fd_refcount` -/

/-- `event_rx_on` does not fail. -/
def ModeOp.rxOnSucceeds : ModeOp → Prop
  | .rxOn _ ok => ok = true
  | _          => True

instance (op : ModeOp) : Decidable op.rxOnSucceeds := by
  unfold ModeOp.rxOnSucceeds
  split <;> infer_instance

lemma mem_rxThreads : thr ∈ st.rxThreads ↔
    thr ∈ st.live ∧ .pollMethod ∈ (st.threads thr).enabled :=
  Finset.mem_filter

/-- The receivers that are enabled once one thread has changed. -/
lemma rxThreads_set (hlive : thr ∈ st.live) (t : ModeThread) :
    (st.set thr t).rxThreads =
      if .pollMethod ∈ t.enabled then insert thr st.rxThreads else st.rxThreads.erase thr := by
  ext q
  rw [mem_rxThreads]
  by_cases hq : q = thr
  · subst hq
    split_ifs with hmem <;> simp [hmem, hlive]
  · rw [ModeState.set_threads_of_ne st t hq]
    split_ifs <;> simp [hq, mem_rxThreads]

lemma rxThreads_set_of_iff (hlive : thr ∈ st.live) {t : ModeThread}
    (hiff : .pollMethod ∈ t.enabled ↔ .pollMethod ∈ (st.threads thr).enabled) :
    (st.set thr t).rxThreads = st.rxThreads := by
  rw [rxThreads_set hlive]
  split_ifs with hmem
  · exact Finset.insert_eq_of_mem (mem_rxThreads.mpr ⟨hlive, hiff.mp hmem⟩)
  · exact Finset.erase_eq_of_notMem fun hthr => hmem (hiff.mpr (mem_rxThreads.mp hthr).2)

/-- The count is right, and the flag is clear. -/
structure RefcountOk (st : ModeState) : Prop where
  clear : st.useEventRaw = false
  refcount : st.activeFdRefcount = st.rxThreads.card

namespace RefcountOk

lemma init : RefcountOk modeInit :=
  ⟨rfl, rfl⟩

lemma set (h : RefcountOk st) (hlive : thr ∈ st.live) {t : ModeThread}
    (hiff : .pollMethod ∈ t.enabled ↔ .pollMethod ∈ (st.threads thr).enabled) :
    RefcountOk (st.set thr t) := by
  refine ⟨h.clear, ?_⟩
  rw [rxThreads_set_of_iff hlive hiff]
  exact h.refcount

lemma registerRxOn (h : RefcountOk st) (hat : st.at thr .rxOn)
    (hoff : .pollMethod ∉ (st.threads thr).enabled) : RefcountOk (registerRxOn st thr true) := by
  refine ⟨h.clear, ?_⟩
  have hnot : thr ∉ st.rxThreads := fun hmem => hoff (mem_rxThreads.mp hmem).2
  have hlive : thr ∈ (st.setRefcount (st.activeFdRefcount + 1)).live := hat.1
  change st.activeFdRefcount + 1 =
    ((st.setRefcount (st.activeFdRefcount + 1)).set thr _).rxThreads.card
  rw [rxThreads_set hlive, if_pos (Finset.mem_insert_self _ _), h.refcount]
  exact (Finset.card_insert_of_notMem hnot).symm

lemma unregisterOff (h : RefcountOk st) (hat : st.at thr .off)
    (hoff : unregisterOff st thr = .ok st') : RefcountOk st' := by
  obtain ⟨hmem, rfl⟩ := unregisterOff_eq_ok hoff
  have hreceiver : st.receiver = .pollMethod := by simp [ModeState.receiver, h.clear]
  rw [hreceiver] at hmem
  have hthr : thr ∈ st.rxThreads := mem_rxThreads.mpr ⟨hat.1, hmem⟩
  rw [if_neg (by simp [h.clear])]
  refine ⟨h.clear, ?_⟩
  rw [rxThreads_set (by exact hat.1), if_neg (by simp [hreceiver])]
  calc st.activeFdRefcount - 1
      = (st.rxThreads.erase thr).card := by rw [Finset.card_erase_of_mem hthr, h.refcount]

lemma step (h : RefcountOk st) (hok : st.Ok) (hcond : op.rxOnSucceeds)
    (hstep : ModeStep st op st') : RefcountOk st' := by
  cases hstep with
  | @init thr hlive =>
    refine ⟨h.clear, h.refcount.trans (congrArg Finset.card ?_)⟩
    rw [rxThreads_set (Finset.mem_insert_self thr st.live)]
    ext q
    have hq : q = thr → q ∉ st.live := fun heq => heq ▸ hlive
    simp [modeThreadInit, mem_rxThreads]
    tauto
  | @register thr hat => exact h.set hat.1 Iff.rfl
  | @rxOn thr ok hat =>
    obtain rfl : ok = true := hcond
    have hthr := hok thr hat.1
    simp only [ModeThread.Ok, hat.2] at hthr
    exact h.registerRxOn hat (by simp [hthr.2.1])
  | @rawOn thr ok hat =>
    unfold registerRawOn
    dsimp only
    rw [if_neg (by simp [h.clear])]
    exact h.set hat.1 Iff.rfl
  | @unregister thr hat hpos =>
    unfold unregisterCount
    dsimp only
    split_ifs
    · exact h.set hat.1 Iff.rfl
    · exact h.set hat.1 Iff.rfl
  | off hat hoff => exact h.unregisterOff hat hoff

end RefcountOk

/-- A thread that never fails to enable its receiver does not fail while others rely on theirs. -/
lemma modeOk_of_rxOnSucceeds (h : (modeLts.restrict fun _ => ModeOp.rxOnSucceeds).Run tr st) :
    st.Ok := by
  refine modeOk_of_run (h.restrict_mono fun s op hop => ?_)
  cases op with
  | rxOn thr ok =>
    obtain rfl : ok = true := hop
    trivial
  | _ => trivial

lemma refcount_of_run (h : (modeLts.restrict fun _ => ModeOp.rxOnSucceeds).Run tr st) :
    RefcountOk st := by
  refine Kit.Lts.Run.induct (P := fun _ st => RefcountOk st) .init ?_ h
  intro tr s op s' hrun hs hstep
  obtain ⟨hcond, hstep⟩ := Kit.Lts.restrict_step.mp hstep
  exact hs.step (modeOk_of_rxOnSucceeds hrun) hcond (.of_step hstep)

/-! ### `numobjs` -/

/-- `iv_event_raw_register` does not fail if it is called. -/
def ModeState.rawOnSucceeds (st : ModeState) : ModeOp → Prop
  | .rawOn _ ok => st.useEventRaw = true → ok = true
  | _           => True

instance (st : ModeState) (op : ModeOp) : Decidable (st.rawOnSucceeds op) := by
  unfold ModeState.rawOnSucceeds
  split <;> infer_instance

/-- The objects of a thread: its events, its receivers, and the event that it is unregistering. -/
structure ModeThread.Counts (raw : Bool) (t : ModeThread) : Prop where
  numobjs : t.pc ≠ .off → t.numobjs = t.eventCount + t.enabled.card
  unregistering : t.pc = .off → t.numobjs = t.eventCount + t.enabled.card + 1
  kick : .eventsKick ∈ t.enabled →
    raw = true ∧ ((t.pc = .outside ∧ 0 < t.eventCount) ∨ t.pc = .off)
  poll : .pollMethod ∈ t.enabled →
    t.pc ≠ .rxOn ∧ (raw = false → t.pc = .outside → 0 < t.eventCount)
  first : t.pc = .rxOn ∨ t.pc = .rawOn → t.eventCount = 1

def ModeState.Counts (st : ModeState) : Prop :=
  ∀ thr ∈ st.live, (st.threads thr).Counts st.useEventRaw

section Counts

variable {t : ModeThread} {raw : Bool}

/-- The flag is never cleared. -/
lemma ModeThread.Counts.of_raw (h : t.Counts raw) : t.Counts true where
  numobjs := h.numobjs
  unregistering := h.unregistering
  kick hmem := ⟨rfl, (h.kick hmem).2⟩
  poll hmem := ⟨(h.poll hmem).1, fun hraw => absurd hraw (by decide)⟩
  first := h.first

namespace ModeState.Counts

lemma set (h : st.Counts) (ht : t.Counts st.useEventRaw) : (st.set thr t).Counts := by
  intro q hq
  by_cases heq : q = thr
  · subst heq
    rw [set_threads_self]
    exact ht
  · rw [set_threads_of_ne st t heq]
    exact h q hq

/-- What a thread outside all calls has enabled, if it has no events. -/
lemma enabled_of_outside (h : st.Counts) (hat : st.at thr .outside)
    (hcount : (st.threads thr).eventCount = 0) : .eventsKick ∉ (st.threads thr).enabled ∧
      (.pollMethod ∈ (st.threads thr).enabled → st.useEventRaw = true) := by
  obtain ⟨-, -, hkick, hpoll, -⟩ := h thr hat.1
  refine ⟨fun hmem => ?_, fun hmem => ?_⟩
  · rcases (hkick hmem).2 with ⟨-, hpos⟩ | hpc
    · omega
    · simp [hat.2] at hpc
  · by_contra hraw
    have hpos := (hpoll hmem).2 (by simpa using hraw) hat.2
    omega

lemma registerCount (h : st.Counts) (hat : st.at thr .outside) : (registerCount st thr).Counts := by
  obtain ⟨hnum, -, hkick, hpoll, -⟩ := h thr hat.1
  have hnum := hnum (by simp [hat.2])
  by_cases hcount : (st.threads thr).eventCount = 0
  · obtain ⟨hnokick, hraw⟩ := h.enabled_of_outside hat hcount
    refine h.set ⟨fun _ => ?_, fun hpc => ?_, fun hmem => absurd hmem hnokick, fun hmem => ?_,
      fun _ => ?_⟩
    · push_cast
      omega
    · simp only [hcount, ne_eq, not_true_eq_false, if_false] at hpc
      split_ifs at hpc
    · simp [hraw hmem, hcount]
    · simp [hcount]
  · refine h.set ⟨fun _ => ?_, ?_, fun hmem => ?_, fun hmem => ?_, ?_⟩
    · push_cast
      omega
    · simp [hcount]
    · exact ⟨(hkick hmem).1, by simp [hcount]⟩
    · simp [hcount]
    · simp [hcount]

lemma registerRxOn (h : st.Counts) (hat : st.at thr .rxOn) (ok : Bool) :
    (registerRxOn st thr ok).Counts := by
  have hthr := h thr hat.1
  have hnum := hthr.numobjs (by simp [hat.2])
  have hnokick : .eventsKick ∉ (st.threads thr).enabled := fun hmem => by
    simpa [hat.2] using (hthr.kick hmem).2
  have hnopoll : .pollMethod ∉ (st.threads thr).enabled := fun hmem => (hthr.poll hmem).1 hat.2
  have hfirst := hthr.first (Or.inl hat.2)
  cases ok with
  | true =>
    have hst : (st.setRefcount (st.activeFdRefcount + 1)).Counts := h
    refine hst.set ⟨fun _ => ?_, ?_, fun hmem => ?_, ?_, fun _ => hfirst⟩
    · rw [Finset.card_insert_of_notMem hnopoll]
      push_cast
      omega
    · simp
    · simp [hnokick] at hmem
    · simp
  | false =>
    -- the flag is set for all threads
    have hst : { st with
        activeFdRefcount := st.activeFdRefcount + 1, useEventRaw := true }.Counts :=
      fun q hq => (h q hq).of_raw
    refine hst.set ⟨fun _ => hnum, ?_, fun hmem => absurd hmem hnokick,
      fun hmem => absurd hmem hnopoll, fun _ => hfirst⟩
    simp

lemma registerRawOn (h : st.Counts) (hat : st.at thr .rawOn) {ok : Bool}
    (hok : st.useEventRaw = true → ok = true) : (registerRawOn st thr ok).Counts := by
  have hthr := h thr hat.1
  have hnum := hthr.numobjs (by simp [hat.2])
  have hnokick : .eventsKick ∉ (st.threads thr).enabled := fun hmem => by
    simpa [hat.2] using (hthr.kick hmem).2
  have hfirst := hthr.first (Or.inr hat.2)
  unfold Ivykis.registerRawOn
  dsimp only
  split_ifs with hraw hok'
  · refine h.set ⟨fun _ => ?_, ?_, fun _ => ⟨hraw, ?_⟩, fun _ => ?_, ?_⟩
    · rw [Finset.card_insert_of_notMem hnokick]
      push_cast
      omega
    · simp
    · simp [hfirst]
    · simp [hfirst]
    · simp
  · exact absurd (hok hraw) hok'
  · refine h.set ⟨fun _ => hnum, ?_, fun hmem => absurd hmem hnokick, fun _ => ?_, ?_⟩
    · simp
    · simp [hfirst]
    · simp

lemma unregisterCount (h : st.Counts) (hat : st.at thr .outside)
    (hpos : 0 < (st.threads thr).eventCount) : (unregisterCount st thr).Counts := by
  have hthr := h thr hat.1
  have hnum := hthr.numobjs (by simp [hat.2])
  unfold Ivykis.unregisterCount
  dsimp only
  split_ifs with hlast
  · refine h.set ⟨?_, fun _ => ?_, fun hmem => ⟨(hthr.kick hmem).1, by simp⟩, ?_, ?_⟩
    · simp
    · push_cast
      omega
    · simp
    · simp
  · have hpos' : 0 < (st.threads thr).eventCount - 1 := Nat.pos_of_ne_zero hlast
    refine h.set ⟨fun _ => ?_, ?_, fun hmem => ⟨(hthr.kick hmem).1, Or.inl ⟨hat.2, hpos'⟩⟩,
      fun _ => ⟨?_, fun _ _ => hpos'⟩, ?_⟩
    · push_cast [hpos]
      omega
    · simp [hat.2]
    · simp [hat.2]
    · simp [hat.2]

lemma unregisterOff (h : st.Counts) (hat : st.at thr .off)
    (hoff : unregisterOff st thr = .ok st') : st'.Counts := by
  have hthr := h thr hat.1
  have hnum := hthr.unregistering hat.2
  obtain ⟨hmem, rfl⟩ := unregisterOff_eq_ok hoff
  have hcard := Finset.card_erase_add_one hmem
  have hst : (st.setRefcount
    (if st.useEventRaw then st.activeFdRefcount else st.activeFdRefcount - 1)).Counts := h
  refine hst.set ⟨fun _ => ?_, ?_, fun hkick => ?_, fun hpoll => ⟨?_, fun hraw _ => ?_⟩, ?_⟩
  · dsimp only
    omega
  · simp
  · -- the flag is set, so that this is the receiver that is disabled
    have hraw := (hthr.kick (Finset.mem_of_mem_erase hkick)).1
    exact absurd (by simp [ModeState.receiver, hraw]) (Finset.ne_of_mem_erase hkick)
  · simp
  · have hraw : st.useEventRaw = false := hraw
    exact absurd (by simp [ModeState.receiver, hraw]) (Finset.ne_of_mem_erase hpoll)
  · simp

lemma step (h : st.Counts) (hcond : st.rawOnSucceeds op) (hstep : ModeStep st op st') :
    st'.Counts := by
  cases hstep with
  | @init thr hlive =>
    intro q hq
    by_cases heq : q = thr
    · subst heq
      rw [set_threads_self]
      refine ⟨?_, ?_, ?_, ?_, ?_⟩ <;> simp [modeThreadInit]
    · rw [set_threads_of_ne _ _ heq]
      exact h q (Finset.mem_of_mem_insert_of_ne hq heq)
  | register hat => exact h.registerCount hat
  | @rxOn _ ok hat => exact h.registerRxOn hat ok
  | rawOn hat => exact h.registerRawOn hat hcond
  | unregister hat hpos => exact h.unregisterCount hat hpos
  | off hat hoff => exact h.unregisterOff hat hoff

end ModeState.Counts

lemma modeCounts_of_run (h : (modeLts.restrict ModeState.rawOnSucceeds).Run tr st) :
    st.Counts := by
  refine h.reachable.invariant (fun thr hthr => absurd hthr (Finset.notMem_empty thr)) ?_
  intro s op s' hs hstep
  obtain ⟨hcond, hstep⟩ := Kit.Lts.restrict_step.mp hstep
  exact hs.step hcond (.of_step hstep)

end Counts

/-! ### Main result -/

/-- As long as `event_rx_on` does not fail, `iv_active_fd_refcount` is the number of threads that
have their receiver enabled. When it does fail there is one reference more, and no such thread. As
long as `iv_event_raw_register` does not fail, `numobjs` of a thread counts its events and its
receivers. When it does fail, `event_count` is as it was before the call, and `numobjs` is not. -/
theorem registerCounters_of_run (thr : ThreadId) :
    (∀ tr st, (modeLts.restrict fun _ => ModeOp.rxOnSucceeds).Run tr st →
      st.activeFdRefcount = st.rxThreads.card) ∧
    (∀ tr st, (modeLts.restrict ModeState.rawOnSucceeds).Run tr st →
      st.at thr .outside → (st.threads thr).numobjs =
        (st.threads thr).eventCount + (st.threads thr).enabled.card) ∧
    (∀ s₀ st' ret, RegisterCall thr s₀ st' ret → ret ≠ 0 →
      (st'.threads thr).eventCount = (s₀.threads thr).eventCount ∧
      (s₀.threads thr).numobjs < (st'.threads thr).numobjs) ∧
    ∀ st st', modeLts.step st (.rxOn thr false) = some st' →
      st'.activeFdRefcount = st.activeFdRefcount + 1 ∧ st'.rxThreads = st.rxThreads := by
  refine ⟨fun tr st h => (refcount_of_run h).refcount, fun tr st h hat => ?_,
    fun s₀ st' ret hcall hret => hcall.failed hret, fun st st' hstep => ?_⟩
  · exact (modeCounts_of_run h thr hat.1).numobjs (by simp [hat.2])
  · cases ModeStep.of_step hstep with
    | rxOn hat =>
      let st₁ := { st with activeFdRefcount := st.activeFdRefcount + 1, useEventRaw := true }
      have hset : (st₁.set thr { st.threads thr with pc := .rawOn }).rxThreads = st₁.rxThreads :=
        rxThreads_set_of_iff hat.1 Iff.rfl
      exact ⟨rfl, hset⟩

/-- Two threads, one after the other, with the receiver of the epoll method. -/
def registeredTwice : List ModeOp :=
  [.init 0, .init 1, .register 0, .rxOn 0 true, .rawOn 0 true, .register 1, .rxOn 1 true,
    .rawOn 1 true, .unregister 0, .off 0]

/-- One thread with the descriptor of `events_kick`. -/
def registeredRaw : List ModeOp :=
  [.init 0, .register 0, .rxOn 0 false, .rawOn 0 true, .register 0]

theorem registerCounters_of_run_succeeds :
    (∃ st, (modeLts.restrict fun _ => ModeOp.rxOnSucceeds).Run registeredTwice st ∧
      st.activeFdRefcount = 1 ∧ st.rxThreads.card = 1) ∧
    ∃ st, (modeLts.restrict ModeState.rawOnSucceeds).Run registeredRaw st ∧
      (st.threads 0).eventCount = 2 ∧ (st.threads 0).enabled.card = 1 ∧
      (st.threads 0).numobjs = 3 := by
  constructor
  · refine Kit.Lts.exists_run_of_decide (·.activeFdRefcount = 1) (by decide)
      fun st hrun hcount => ⟨hcount, ?_⟩
    rw [← (registerCounters_of_run 0).1 _ st hrun, hcount]
  · refine Kit.Lts.exists_run_of_decide (fun st => st.at 0 .outside ∧
      (st.threads 0).eventCount = 2 ∧ (st.threads 0).enabled.card = 1) (by decide)
      fun st hrun ⟨hat, hcount, hcard⟩ => ⟨hcount, hcard, ?_⟩
    rw [(registerCounters_of_run 0).2.1 _ st hrun hat, hcount, hcard]
    norm_num

/-- Neither `event_rx_on` nor `iv_event_raw_register` succeeds. The call returns an error, but an
object is left in `numobjs`, and a reference to the descriptor of the epoll method. -/
theorem counters_not_set_back : ∃ s₀ st, modeLts.Run [.init 0] s₀ ∧ RegisterCall 0 s₀ st (-1) ∧
    (s₀.threads 0).numobjs = 0 ∧ (st.threads 0).numobjs = 1 ∧
    s₀.activeFdRefcount = 0 ∧ st.activeFdRefcount = 1 ∧ st.rxThreads = ∅ := by
  have hmap : ((modeLts.exec modeInit [.init 0]).bind fun s₀ =>
      (modeLts.exec s₀ [.register 0, .rxOn 0 false]).bind fun s =>
      (modeLts.step s (.rawOn 0 false)).map fun st =>
        (((s₀.threads 0).numobjs, s₀.activeFdRefcount, registerRet s false),
          (st.threads 0).numobjs, st.activeFdRefcount, decide (st.rxThreads = ∅))) =
      some ((0, 0, -1), 1, 1, true) := by
    decide
  obtain ⟨s₀, hs₀, hmap⟩ := Option.bind_eq_some_iff.mp hmap
  obtain ⟨s, hs, hmap⟩ := Option.bind_eq_some_iff.mp hmap
  obtain ⟨st, hst, heq⟩ := Option.map_eq_some_iff.mp hmap
  simp only [Prod.mk.injEq, decide_eq_true_eq] at heq
  obtain ⟨⟨hnum₀, href₀, hret⟩, hnum, href, hrx⟩ := heq
  refine ⟨s₀, st, hs₀, ⟨_, s, false, hs, ?_, hst, hret.symm⟩, hnum₀, hnum, href₀, href, hrx⟩
  simp

end Ivykis
