import Ivykis.Event.Invariant

/-!
# Wakeups and kicks

No post is lost: as long as an event is pending somebody is going to look at the list, and once
nothing is left to do every posted event has been handled or unregistered.

A kick may however come late. Its sender has released the lock, so that the owner may handle the
event on account of something else and then unregister its last event. Or the sender has not even
got the lock when the owner does so. The kick then goes to a receiver that is off.
-/

namespace Ivykis

variable {useRaw : Bool} {st st' : EventState} {op : EventOp} {tr : List EventOp}
  {this e : EventPtr}

lemma eventInv_of_run (h : (eventLts useRaw).Run tr st) : EventInv st := by
  refine Kit.Lts.Run.induct (P := fun _ st => EventInv st) eventInv_init ?_ h
  intro _ _ _ _ _ hinv hstep
  exact hinv.step (.of_step hstep)

/-! ### Every post is answered -/

/-- An event is on a list as long as an answer to a post is owed. -/
lemma linked_iff_owed (h : (eventLts useRaw).Run tr st) (e : EventPtr) :
    st.linked e = true ↔ Kit.Lts.Owed (EventOp.posts e) (EventOp.settles e) tr := by
  have hall : EventInv st ∧
      (st.linked e = true ↔ Kit.Lts.Owed (EventOp.posts e) (EventOp.settles e) tr) := by
    refine Kit.Lts.Run.induct (P := fun tr st => EventInv st ∧
      (st.linked e = true ↔ Kit.Lts.Owed (EventOp.posts e) (EventOp.settles e) tr))
      ⟨eventInv_init, ?_⟩ ?_ h
    · refine ⟨fun hl => ?_, fun howed => absurd howed Kit.Lts.not_owed_nil⟩
      change ivEventInit.linked e = true at hl
      simp [EventState.linked_iff, ivEventInit, EventState.stolen] at hl
    · rintro tr s op s' - ⟨hinv, ih⟩ hstep
      have hstep := TimelyStep.of_step hstep
      exact ⟨hinv.step hstep, by rw [hinv.linked_step hstep, Kit.Lts.owed_snoc, ih]⟩
  exact hall.2

/-- The steps that follow from earlier ones: a kick, the rest of a call of the owner, what the
owner does about kicks and the task, and a handler that returns. -/
def EventOp.internal : EventOp → Bool
  | .unregisterCount => true
  | .kick _          => true
  | .postTask        => true
  | .consume _       => true
  | .steal _ _       => true
  | .next _          => true
  | _                => false

/-- No internal step can be taken. -/
def EventState.AtRest (useRaw : Bool) (st : EventState) : Prop :=
  ∀ op : EventOp, op.internal = true → eventStep useRaw st op = none

/-- A bound on the number of internal steps, for what the owner is in the middle of. -/
def EventPc.work : EventPc → ℕ
  | .outside          => 0
  | .entering         => 1
  | .handler events _ => 2 * events.length + 1

@[inherit_doc EventPc.work]
def EventCall.work : EventCall → ℕ
  | .none       => 0
  | .post       => 3
  | .unregister => 1

/-- A bound on the number of internal steps. -/
def EventState.work (st : EventState) : ℕ :=
  3 * st.posting.card + 2 * st.kicks + 2 * st.eventsLocal.toNat + 2 * st.pending.length +
    st.pc.work + st.call.work

lemma EventStep.work_lt (hstep : EventStep useRaw st op st') (hop : op.internal = true) :
    st'.work < st.work := by
  cases hstep with
  | register _ _ _ _ => simp [EventOp.internal] at hop
  | unregister _ _ => simp [EventOp.internal] at hop
  | postStart _ => simp [EventOp.internal] at hop
  | post _ => simp [EventOp.internal] at hop
  | postOwn _ _ => simp [EventOp.internal] at hop
  | unregisterCount hcall =>
    simp only [ivEventUnregisterCount]
    split_ifs
    · simp only [EventState.work, EventState.rxTurnOff, hcall, EventCall.work]
      omega
    · simp only [EventState.work, hcall, EventCall.work]
      omega
  | kick ht _ =>
    have hcard := Finset.card_erase_add_one ht
    simp only [EventState.work]
    omega
  | kickLost ht _ _ =>
    have hcard := Finset.card_erase_add_one ht
    simp only [EventState.work]
    omega
  | postTask hcall =>
    simp only [postLocal]
    split_ifs with htask
    · simp only [EventState.work, hcall, EventCall.work]
      omega
    · simp only [EventState.work, hcall, EventCall.work, Bool.toNat_true]
      omega
  | consume _ hpc hn hkicks =>
    simp only [EventState.work, hpc, EventPc.work]
    omega
  | steal hpc =>
    rcases runPendingSteal_cases st with ⟨hp, heq⟩ | ⟨ie, events, hp, heq⟩
    · simp only [heq, EventState.work, hp, hpc, EventPc.work]
      omega
    · simp only [heq, EventState.work, hp, hpc, EventPc.work, List.length_cons, List.length_nil]
      omega
  | stealLocal _ hpc htask =>
    rcases runPendingSteal_cases (takeLocal st) with ⟨hp, heq⟩ | ⟨ie, events, hp, heq⟩
    · rw [heq]
      simp only [EventState.work, takeLocal, hpc, EventPc.work, htask, Bool.toNat_true,
        Bool.toNat_false]
      omega
    · change st.pending = ie :: events at hp
      rw [heq]
      simp only [EventState.work, takeLocal, hp, hpc, EventPc.work, htask, Bool.toNat_true,
        Bool.toNat_false, List.length_cons, List.length_nil]
      omega
  | next _ hpc =>
    unfold EventState.inHandler at hpc
    split at hpc
    · next events emptyNow heq =>
      unfold runPendingNext
      split
      · next ie events' heq' =>
        simp only [EventState.work, heq', EventPc.work, List.length_cons]
        omega
      · simp only [EventState.work, heq, EventPc.work]
        omega
    · exact absurd hpc (by simp)

namespace EventState

variable (hrest : st.AtRest useRaw)
include hrest

lemma AtRest.call_eq : st.call = .none := by
  cases hcall : st.call with
  | none => rfl
  | post => simpa [eventStep, hcall] using hrest .postTask rfl
  | unregister => simpa [eventStep, hcall] using hrest .unregisterCount rfl

lemma AtRest.pc_eq : st.pc = .outside := by
  cases hpc : st.pc with
  | outside => rfl
  | entering => simpa [eventStep, hpc] using hrest (.steal false (runPendingSteal st).1) rfl
  | handler events emptyNow =>
    have hin : st.inHandler = true := by simp only [inHandler, hpc]
    simpa [eventStep, hin, hrest.call_eq] using hrest (.next (runPendingNext st).1) rfl

lemma AtRest.kicks_eq : st.kicks = 0 := by
  by_contra hne
  have hpos : 0 < st.kicks := Nat.pos_of_ne_zero hne
  have hnone := hrest (.consume 1) rfl
  simp only [eventStep, ite_eq_right_iff, reduceCtorEq, imp_false] at hnone
  exact hnone ⟨hrest.call_eq, hrest.pc_eq, Nat.one_pos, hpos⟩

lemma AtRest.eventsLocal_eq : st.eventsLocal = false := by
  cases htask : st.eventsLocal with
  | false => rfl
  | true =>
    simpa [eventStep, htask, hrest.pc_eq, hrest.call_eq] using
      hrest (.steal true (runPendingSteal (takeLocal st)).1) rfl

lemma AtRest.posting_eq (hon : st.rxOn = true) : st.posting = ∅ := by
  refine Finset.eq_empty_of_forall_notMem fun t ht => ?_
  simpa [eventStep, ht, ivEventPostKick, hon, Except.toOption] using hrest (.kick t) rfl

end EventState

/-- Once no kick is under way and the owner is back in its loop, it is at rest. -/
lemma EventState.atRest_of_idle (hposting : st.posting = ∅) (hcall : st.call = .none)
    (hkicks : st.kicks = 0) (htask : st.eventsLocal = false) (hpc : st.pc = .outside) :
    st.AtRest useRaw := by
  intro op hop
  refine Option.eq_none_iff_forall_ne_some.mpr fun st' hstep => ?_
  cases EventStep.of_step hstep with
  | unregisterCount h => simp [hcall] at h
  | kick h _ => simp [hposting] at h
  | kickLost h _ _ => simp [hposting] at h
  | postTask h => simp [hcall] at h
  | consume _ _ hn hle => omega
  | steal h => simp [hpc] at h
  | stealLocal _ _ h => simp [htask] at h
  | next _ h => simp [inHandler, hpc] at h
  | _ => simp [EventOp.internal] at hop

/-- At rest there is nothing to be woken up for: no event is on a list. -/
lemma EventInv.not_linked_of_atRest (h : EventInv st) (hrest : st.AtRest useRaw) :
    st.linked e ≠ true := by
  have hpending : st.pending = [] := by
    by_contra hne
    have hon : st.rxOn = true := by
      by_contra hoff
      exact hne (h.pending_eq_nil (h.registered_eq_empty (Bool.not_eq_true _ ▸ hoff)))
    rcases h.awake hne with ha | ha | ha | ha | ha
    · rw [hrest.posting_eq hon] at ha
      exact absurd ha Finset.not_nonempty_empty
    · simp [hrest.call_eq] at ha
    · simp [hrest.kicks_eq] at ha
    · simp [hrest.eventsLocal_eq] at ha
    · simp [hrest.pc_eq] at ha
  rw [Ne, EventState.linked_iff]
  simp [hpending, EventState.stolen, hrest.pc_eq]

/-- No wakeup is lost. While an event is pending, a thread is about to send a kick, the owner is
about to register `events_local`, a kick has not been consumed, `events_local` is registered, or
the owner is about to look at the list. What follows from earlier steps comes to an end, and then
every post has been followed by a run of the event's handler, unless the event was unregistered. -/
theorem event_noLostWakeup (h : (eventLts useRaw).Run tr st) :
    (st.pending ≠ [] → st.posting.Nonempty ∨ st.call = .post ∨ 0 < st.kicks ∨
      st.eventsLocal = true ∨ st.pc = .entering) ∧
    (∀ tr' st', (∀ op ∈ tr', op.internal = true) → (eventLts useRaw).exec st tr' = some st' →
      tr'.length ≤ st.work) ∧
    (st.AtRest useRaw → ∀ tr₁ op tr₂ e, tr = tr₁ ++ op :: tr₂ → op.posts e →
      (∃ op' ∈ tr₂, op'.starts e) ∨ .unregister e ∈ tr₂) := by
  have hinv := eventInv_of_run h
  refine ⟨hinv.awake, fun tr' st' hint hexec => ?_, fun hrest tr₁ op tr₂ e htr hop => ?_⟩
  · refine Kit.Lts.exec_length_le (L := eventLts useRaw) (m := EventState.work) ?_ hint hexec
    intro _ _ _ hop hstep
    exact (TimelyStep.of_step hstep).step.work_lt hop
  · have howed : ¬ Kit.Lts.Owed (EventOp.posts e) (EventOp.settles e) tr := by
      rw [← linked_iff_owed h e]
      exact hinv.not_linked_of_atRest hrest
    obtain ⟨op', hop', hdone⟩ := Kit.Lts.done_of_not_owed howed htr hop
    rcases hdone with hstart | rfl
    · exact Or.inl ⟨op', hop', hstart⟩
    · exact Or.inr hop'

/-- Two threads post two events and the owner handles both after one kick. -/
theorem event_noLostWakeup_twoPosts : ∃ st, (eventLts false).Run
    [.register 0 true, .register 1 true, .postStart 0 0, .postStart 1 1, .post 0 0, .post 1 1,
      .kick 0, .consume 1, .steal false (some 0), .next (some 1), .next none] st ∧
    ((∃ op ∈ [EventOp.post 1 1, .kick 0, .consume 1, .steal false (some 0), .next (some 1),
        .next none], op.starts 0) ∨
      .unregister 0 ∈ [EventOp.post 1 1, .kick 0, .consume 1, .steal false (some 0),
        .next (some 1), .next none]) := by
  obtain ⟨st, hst, hposting, hcall, hkicks, htask, hpc⟩ : ∃ st, (eventLts false).Run
      [.register 0 true, .register 1 true, .postStart 0 0, .postStart 1 1, .post 0 0, .post 1 1,
        .kick 0, .consume 1, .steal false (some 0), .next (some 1), .next none] st ∧
      (st.posting = ∅ ∧ st.call = .none ∧ st.kicks = 0 ∧ st.eventsLocal = false ∧
        st.pc = .outside) :=
    ⟨_, rfl, by decide⟩
  refine ⟨st, hst, (event_noLostWakeup hst).2.2 ?_
    [.register 0 true, .register 1 true, .postStart 0 0, .postStart 1 1] (.post 0 0) _ 0 rfl rfl⟩
  exact EventState.atRest_of_idle hposting hcall hkicks htask hpc

/-! ### Kicks to a receiver that is off -/

/-- Whoever is about to send a kick finds the receiver enabled. -/
def EventState.KickSafe (st : EventState) : Prop :=
  st.posting.Nonempty → st.rxOn = true ∧ st.eventCount ≠ 0

/-- The owner handles an event because of a task that an earlier post has left. Its handler
unregisters it, before the thread that posted the event has sent its kick. -/
def lateKick : List EventOp :=
  [.register 0 true, .register 1 true, .postOwn 1, .postTask, .unregister 1, .unregisterCount,
    .postStart 7 0, .post 7 0, .steal true (some 0), .unregister 0, .unregisterCount]

/-- The owner unregisters its only event, for which a thread has called `iv_event_post`, before that
thread gets the lock. -/
def lateUpdate : List EventOp :=
  [.register 0 true, .postStart 7 0, .unregister 0, .unregisterCount, .post 7 0]

/-- Some thread is in `iv_event_post`, before the list update or before the kick. -/
def EventState.InPost (st : EventState) : Prop :=
  st.starting.Nonempty ∨ st.posting.Nonempty

/-- Whoever is in `iv_event_post` finds the receiver enabled. -/
def EventState.PostSafe (st : EventState) : Prop :=
  st.InPost → st.rxOn = true ∧ st.eventCount ≠ 0

/-- The receiver is turned off only while no thread is in `iv_event_post`. -/
def EventState.offUnposted (st : EventState) (op : EventOp) : Prop :=
  op = .unregisterCount → st.eventCount = 1 → st.starting = ∅ ∧ st.posting = ∅

instance (st : EventState) (op : EventOp) : Decidable (st.offUnposted op) :=
  inferInstanceAs (Decidable (_ → _ → _))

lemma EventState.not_inPost_iff : ¬ st.InPost ↔ st.starting = ∅ ∧ st.posting = ∅ := by
  rw [InPost, not_or, Finset.not_nonempty_iff_eq_empty, Finset.not_nonempty_iff_eq_empty]

lemma EventState.InPost.mono (h : st'.InPost) (hstarting : st'.starting ⊆ st.starting)
    (hposting : st'.posting ⊆ st.posting) : st.InPost :=
  h.imp (·.mono hstarting) (·.mono hposting)

/-- A thread enters `iv_event_post` only for a registered event. -/
lemma EventStep.inPost (hstep : EventStep useRaw st op st') (hin : st'.InPost) :
    st.InPost ∨ st.registered.Nonempty := by
  have hsteal (st : EventState) : (runPendingSteal st).2.starting = st.starting ∧
      (runPendingSteal st).2.posting = st.posting := by
    rcases runPendingSteal_cases st with ⟨-, h⟩ | ⟨_, _, -, h⟩
    · simp only [h, and_self]
    · simp only [h, and_self]
  cases hstep with
  | @postStart t this hreg => exact Or.inr ⟨this, hreg⟩
  | @post t this hstart => exact Or.inl (Or.inl ⟨(t, this), hstart⟩)
  | @register this rxOk _ _ _ _ =>
    refine Or.inl (hin.mono ?_ ?_)
    all_goals
      simp only [ivEventRegister]
      split_ifs <;> exact subset_rfl
  | unregister _ _ =>
    refine Or.inl (hin.mono ?_ ?_)
    all_goals
      simp only [ivEventUnregisterUnlink]
      split_ifs <;> exact subset_rfl
  | unregisterCount _ =>
    refine Or.inl (hin.mono ?_ ?_)
    all_goals
      simp only [ivEventUnregisterCount]
      split_ifs <;> exact subset_rfl
  | kick _ _ => exact Or.inl (hin.mono subset_rfl (Finset.erase_subset _ _))
  | kickLost _ _ _ => exact Or.inl (hin.mono subset_rfl (Finset.erase_subset _ _))
  | @postOwn this _ hreg => exact Or.inr ⟨this, hreg⟩
  | postTask _ =>
    refine Or.inl (hin.mono ?_ ?_)
    all_goals
      simp only [postLocal]
      split_ifs <;> exact subset_rfl
  | consume _ _ _ _ => exact Or.inl hin
  | steal _ => exact Or.inl (hin.mono (hsteal st).1.subset (hsteal st).2.subset)
  | stealLocal _ _ _ =>
    exact Or.inl (hin.mono (hsteal (takeLocal st)).1.subset (hsteal (takeLocal st)).2.subset)
  | next _ _ =>
    refine Or.inl (hin.mono ?_ ?_)
    all_goals
      unfold runPendingNext
      split <;> exact subset_rfl

namespace EventState.PostSafe

lemma kickSafe (h : st.PostSafe) : st.KickSafe := fun hne => h (Or.inr hne)

/-- Only turning the receiver off can leave a post without one. -/
lemma step_iff (h : st.PostSafe) (hinv : ReceiverOk st) (hstep : EventStep useRaw st op st') :
    st'.PostSafe ↔ st.offUnposted op := by
  have hsafe (hin : st'.InPost) : st.rxOn = true ∧ st.eventCount ≠ 0 := by
    rcases hstep.inPost hin with hin | ⟨e, he⟩
    · exact h hin
    · exact hinv.rxOn_of_mem he
  have hother (hne : op ≠ .unregisterCount) (hs : st'.PostSafe) :
      st'.PostSafe ↔ st.offUnposted op :=
    ⟨fun _ heq => absurd heq hne, fun _ => hs⟩
  have hrest := hstep
  cases hstep with
  | register _ _ _ _ =>
    refine hother (by simp) fun hin => ?_
    have hon := hsafe hin
    simp only [ivEventRegister, hon.2, if_false]
    exact ⟨hon.1, Nat.succ_ne_zero _⟩
  | unregister _ _ =>
    refine hother (by simp) fun hin => ?_
    have hon := hsafe hin
    simp only [ivEventUnregisterUnlink]
    split_ifs
    · exact hon
    · exact hon
  | unregisterCount hcall =>
    have hcount := hinv.count
    rw [if_pos hcall] at hcount
    have hsame : (ivEventUnregisterCount st).InPost ↔ st.InPost := by
      simp only [ivEventUnregisterCount]
      split_ifs <;> exact .rfl
    simp only [PostSafe, hsame, offUnposted, forall_const, ← not_inPost_iff]
    by_cases hone : st.eventCount = 1
    · simp [ivEventUnregisterCount, hone, rxTurnOff]
    · have hzero : st.eventCount - 1 ≠ 0 := by omega
      simp only [hone, false_imp_iff, iff_true, ivEventUnregisterCount, hzero, if_false]
      exact fun hin => ⟨(h hin).1, hzero⟩
  | _ =>
    refine hother (by simp) fun hin => ?_
    have hsame := hrest.sameReceiver rfl
    rw [hsame.rxOn, hsame.eventCount]
    exact hsafe hin

end EventState.PostSafe

/-- An event is unregistered while two threads are in `iv_event_post` for another one. The owner is
kicked, and unregisters that one in its handler when nobody is in `iv_event_post` any more. Then a
third event is posted. -/
def timelyKicks : List EventOp :=
  [.register 0 true, .register 1 true, .postStart 7 0, .post 7 0, .postStart 8 0, .unregister 1,
    .unregisterCount, .post 8 0, .kick 7, .consume 1, .steal false (some 0), .unregister 0,
    .unregisterCount, .next none, .register 2 true, .postStart 9 2, .post 9 2]

end Ivykis
