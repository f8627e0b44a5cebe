import Ivykis.Event.Basic

/-!
# What holds of the events of a thread in every run

`EventStep` says once what each step requires and does. The receiver is on as long as there are
events, whenever they are posted (`ReceiverOk.step`).

The rest needs that only registered events are put on the list (`TimelyStep`). Then the list of an
event changes in two ways only: a post links it, and the start of its handler or its unregistration
unlinks it (`EventInv.linked_step`).
-/

namespace Ivykis

/-- The steps of `eventStep`, with what they require. -/
inductive EventStep (useRaw : Bool) (st : EventState) : EventOp → EventState → Prop
  | register {this : EventPtr} {rxOk : Bool} (hfree : st.free) (hnew : this ∉ st.registered)
      (hlinked : st.linked this = false) (hrx : rxOk = true ∨ useRaw = true) :
      EventStep useRaw st (.register this rxOk) (ivEventRegister rxOk st this).2
  | unregister {this : EventPtr} (hfree : st.free) (hreg : this ∈ st.registered) :
      EventStep useRaw st (.unregister this) (ivEventUnregisterUnlink st this)
  | unregisterCount (hcall : st.call = .unregister) :
      EventStep useRaw st .unregisterCount (ivEventUnregisterCount st)
  | postStart {t : ThreadId} {this : EventPtr} (hreg : this ∈ st.registered) :
      EventStep useRaw st (.postStart t this)
        { st with starting := insert (t, this) st.starting }
  | post {t : ThreadId} {this : EventPtr} (hstart : (t, this) ∈ st.starting) :
      EventStep useRaw st (.post t this) (postBy t st this)
  | kick {t : ThreadId} (ht : t ∈ st.posting) (hon : st.rxOn = true) :
      EventStep useRaw st (.kick t)
        { st with posting := st.posting.erase t, kicks := st.kicks + 1 }
  | kickLost {t : ThreadId} (ht : t ∈ st.posting) (hoff : st.rxOn = false)
      (hraw : useRaw = true) :
      EventStep useRaw st (.kick t) { st with posting := st.posting.erase t }
  | postOwn {this : EventPtr} (hfree : st.free) (hreg : this ∈ st.registered) :
      EventStep useRaw st (.postOwn this) (postByOwner st this)
  | postTask (hcall : st.call = .post) : EventStep useRaw st .postTask (postLocal st)
  | consume {n : ℕ} (hcall : st.call = .none) (hpc : st.pc = .outside) (hn : 0 < n)
      (hkicks : n ≤ st.kicks) :
      EventStep useRaw st (.consume n) { st with kicks := st.kicks - n, pc := .entering }
  | steal (hpc : st.pc = .entering) :
      EventStep useRaw st (.steal false (runPendingSteal st).1) (runPendingSteal st).2
  | stealLocal (hcall : st.call = .none) (hpc : st.pc = .outside)
      (htask : st.eventsLocal = true) :
      EventStep useRaw st (.steal true (runPendingSteal (takeLocal st)).1)
        (runPendingSteal (takeLocal st)).2
  | next (hcall : st.call = .none) (hpc : st.inHandler = true) :
      EventStep useRaw st (.next (runPendingNext st).1) (runPendingNext st).2

variable {useRaw : Bool} {st st' : EventState} {op : EventOp} {this e : EventPtr}

lemma ivEventPostKick_eq_ok (h : ivEventPostKick useRaw st = .ok st') :
    (st.rxOn = true ∧ st' = { st with kicks := st.kicks + 1 }) ∨
      (st.rxOn = false ∧ useRaw = true ∧ st' = st) := by
  unfold ivEventPostKick at h
  split at h
  · next hon => exact Or.inl ⟨hon, (Except.ok.inj h).symm⟩
  · next hoff =>
    split at h
    · next hraw => exact Or.inr ⟨Bool.not_eq_true _ ▸ hoff, hraw, (Except.ok.inj h).symm⟩
    · exact absurd h (by simp)

lemma EventStep.of_step (h : eventStep useRaw st op = some st') : EventStep useRaw st op st' := by
  cases op with
  | register this rxOk =>
    simp only [eventStep, Option.ite_none_right_eq_some, Option.some.injEq] at h
    obtain ⟨⟨hfree, hnew, hlinked, hrx⟩, rfl⟩ := h
    exact .register hfree hnew hlinked hrx
  | unregister this =>
    simp only [eventStep, Option.ite_none_right_eq_some, Option.some.injEq] at h
    obtain ⟨⟨hfree, hreg⟩, rfl⟩ := h
    exact .unregister hfree hreg
  | unregisterCount =>
    simp only [eventStep, Option.ite_none_right_eq_some, Option.some.injEq] at h
    obtain ⟨hcall, rfl⟩ := h
    exact .unregisterCount hcall
  | postStart t this =>
    simp only [eventStep, Option.ite_none_right_eq_some, Option.some.injEq] at h
    obtain ⟨⟨-, -, hreg⟩, rfl⟩ := h
    exact .postStart hreg
  | post t this =>
    simp only [eventStep, Option.ite_none_right_eq_some, Option.some.injEq] at h
    obtain ⟨hstart, rfl⟩ := h
    exact .post hstart
  | kick t =>
    simp only [eventStep, Option.ite_none_right_eq_some] at h
    obtain ⟨ht, h⟩ := h
    rcases ivEventPostKick_eq_ok (toOption_eq_some.mp h) with ⟨hon, rfl⟩ | ⟨hoff, hraw, rfl⟩
    · exact .kick ht hon
    · exact .kickLost ht hoff hraw
  | postOwn this =>
    simp only [eventStep, Option.ite_none_right_eq_some, Option.some.injEq] at h
    obtain ⟨⟨hfree, hreg⟩, rfl⟩ := h
    exact .postOwn hfree hreg
  | postTask =>
    simp only [eventStep, Option.ite_none_right_eq_some, Option.some.injEq] at h
    obtain ⟨hcall, rfl⟩ := h
    exact .postTask hcall
  | consume n =>
    simp only [eventStep, Option.ite_none_right_eq_some, Option.some.injEq] at h
    obtain ⟨⟨hcall, hpc, hn, hkicks⟩, rfl⟩ := h
    exact .consume hcall hpc hn hkicks
  | steal task ie =>
    cases task with
    | false =>
      simp only [eventStep, Option.ite_none_right_eq_some, Option.some.injEq] at h
      obtain ⟨⟨hpc, rfl⟩, rfl⟩ := h
      exact .steal hpc
    | true =>
      simp only [eventStep, Option.ite_none_right_eq_some, Option.some.injEq] at h
      obtain ⟨⟨hcall, hpc, htask, rfl⟩, rfl⟩ := h
      exact .stealLocal hcall hpc htask
  | next ie =>
    simp only [eventStep, Option.ite_none_right_eq_some, Option.some.injEq] at h
    obtain ⟨⟨hcall, hpc, rfl⟩, rfl⟩ := h
    exact .next hcall hpc

/-- The step links the event `e`. -/
def EventOp.posts (e : EventPtr) : EventOp → Prop
  | .post _ this  => this = e
  | .postOwn this => this = e
  | _             => False

/-- A step in which no event is put on a list after it has been unregistered. -/
structure TimelyStep (useRaw : Bool) (st : EventState) (op : EventOp) (st' : EventState) :
    Prop where
  step : EventStep useRaw st op st'
  mem_registered_of_posts : ∀ e, op.posts e → e ∈ st.registered

lemma EventStep.timely (hstep : EventStep useRaw st op st') (hop : st.postsRegistered op = true) :
    TimelyStep useRaw st op st' := by
  refine ⟨hstep, fun e he => ?_⟩
  cases hstep with
  | post _ => exact he ▸ of_decide_eq_true hop
  | postOwn _ hreg => exact he ▸ hreg
  | _ => exact he.elim

lemma TimelyStep.of_step (h : (eventLts useRaw).step st op = some st') :
    TimelyStep useRaw st op st' := by
  obtain ⟨hop, hstep⟩ := Kit.Lts.restrict_step.mp h
  exact (EventStep.of_step hstep).timely hop

/-! ### The list an event is on -/

lemma EventState.linked_iff : st.linked e = true ↔ e ∈ st.pending ∨ e ∈ st.stolen := by
  simp only [linked, Bool.or_eq_true, decide_eq_true_eq]

lemma EventState.linked_congr (hpending : st'.pending = st.pending) (hpc : st'.pc = st.pc) :
    st'.linked e = st.linked e := by
  have hstolen : st'.stolen = st.stolen := by
    unfold stolen
    rw [hpc]
  simp only [linked, hpending, hstolen]

lemma EventState.stolen_unlink : (st.unlink this).stolen = st.stolen.erase this := by
  cases hpc : st.pc with
  | outside => simp [stolen, unlink, hpc]
  | entering => simp [stolen, unlink, hpc]
  | handler events emptyNow => simp [stolen, unlink, hpc]

/-- A post either finds the list of the event not empty or puts it at the end of the pending
ones. -/
lemma postThen_cases (todo : EventState → EventState) (st : EventState) (this : EventPtr) :
    ((st.linked this = true ∨ this ∈ st.deleted) ∧ postThen todo st this = st) ∨
      (st.linked this = false ∧ st.pending ≠ [] ∧
        postThen todo st this = { st with pending := st.pending ++ [this] }) ∨
      (st.linked this = false ∧ st.pending = [] ∧
        postThen todo st this = todo { st with pending := [this] }) := by
  by_cases hlist : st.linked this = true ∨ this ∈ st.deleted
  · exact Or.inl ⟨hlist, by simp [postThen, postUpdate, hlist]⟩
  · have hl : st.linked this = false := Bool.not_eq_true _ ▸ not_or.mp hlist |>.1
    cases hp : st.pending with
    | nil => exact Or.inr (Or.inr ⟨hl, rfl, by simp [postThen, postUpdate, hlist, hp]⟩)
    | cons a as => exact Or.inr (Or.inl ⟨hl, by simp, by simp [postThen, postUpdate, hlist, hp]⟩)

/-! ### The invariant -/

/-- Somebody is going to look at the pending events. -/
def EventState.Awake (st : EventState) : Prop :=
  st.posting.Nonempty ∨ st.call = .post ∨ 0 < st.kicks ∨ st.eventsLocal = true ∨
    st.pc = .entering

/-- The receiver is on as long as there are events. -/
structure ReceiverOk (st : EventState) : Prop where
  count : st.eventCount = st.registered.card + if st.call = .unregister then 1 else 0
  rx : st.rxOn = true ↔ st.eventCount ≠ 0

/-- What holds of the two lists. -/
structure ListsOk (st : EventState) : Prop where
  nodup : (st.pending ++ st.stolen).Nodup
  /-- Nobody adds to the stolen list, so that its end can be seen before the handler is run. -/
  emptyNow : ∀ events, st.pc = .handler events true → events = []
  awake : st.pending ≠ [] → st.Awake

structure EventInv (st : EventState) : Prop extends ReceiverOk st, ListsOk st where
  mem_registered : ∀ e, st.linked e = true → e ∈ st.registered
  notMem_deleted : ∀ e ∈ st.registered, e ∉ st.deleted

/-- The step starts the handler of `e`. -/
def EventOp.starts (e : EventPtr) : EventOp → Prop
  | .steal _ ie => ie = some e
  | .next ie    => ie = some e
  | _           => False

/-- The step unlinks the event `e`. -/
def EventOp.settles (e : EventPtr) (op : EventOp) : Prop :=
  op.starts e ∨ op = .unregister e

lemma receiverOk_init : ReceiverOk ivEventInit :=
  ⟨rfl, by simp [ivEventInit]⟩

lemma eventInv_init : EventInv ivEventInit where
  toReceiverOk := receiverOk_init
  nodup := by simp [ivEventInit, EventState.stolen]
  emptyNow events h := by simp [ivEventInit] at h
  awake h := absurd rfl h
  mem_registered e h := by simp [EventState.linked_iff, ivEventInit, EventState.stolen] at h
  notMem_deleted e h := by simp [ivEventInit] at h

section Linked

lemma linked_postThen {todo : EventState → EventState} (hdeleted : this ∉ st.deleted)
    (htodo : ∀ st, (todo st).pending = st.pending ∧ (todo st).pc = st.pc) :
    (postThen todo st this).linked e = true ↔ this = e ∨ st.linked e = true := by
  have happend (st : EventState) :
      { st with pending := st.pending ++ [this] }.linked e = true ↔
        this = e ∨ st.linked e = true := by
    simp only [EventState.linked_iff, List.mem_append, List.mem_singleton, EventState.stolen]
    tauto
  rcases postThen_cases todo st this with ⟨hl, h⟩ | ⟨-, -, h⟩ | ⟨-, hp, h⟩
  · rw [h]
    refine ⟨Or.inr, ?_⟩
    rintro (rfl | he)
    · exact hl.resolve_right hdeleted
    · exact he
  · rw [h, happend]
  · rw [h, EventState.linked_congr (htodo _).1 (htodo _).2, ← happend, hp, List.nil_append]

lemma linked_ivEventUnregisterUnlink (hnodup : (st.pending ++ st.stolen).Nodup) :
    (ivEventUnregisterUnlink st this).linked e = true ↔ st.linked e = true ∧ this ≠ e := by
  have hp : st.pending.Nodup := (List.nodup_append.mp hnodup).1
  have hs : st.stolen.Nodup := (List.nodup_append.mp hnodup).2.1
  cases hl : st.linked this with
  | false =>
    have hsame : (ivEventUnregisterUnlink st this).linked e = st.linked e := by
      refine EventState.linked_congr ?_ ?_ <;> simp [ivEventUnregisterUnlink, hl]
    rw [hsame]
    refine ⟨fun he => ⟨he, ?_⟩, And.left⟩
    rintro rfl
    simp [hl] at he
  | true =>
    have hsame : (ivEventUnregisterUnlink st this).linked e = (st.unlink this).linked e := by
      refine EventState.linked_congr ?_ ?_ <;> simp [ivEventUnregisterUnlink, hl]
    rw [hsame, EventState.linked_iff, EventState.stolen_unlink, EventState.linked_iff]
    simp only [EventState.unlink, hp.mem_erase_iff, hs.mem_erase_iff]
    tauto

lemma runPendingSteal_cases (st : EventState) :
    (st.pending = [] ∧ runPendingSteal st = (none, { st with pc := .outside })) ∨
      ∃ ie events, st.pending = ie :: events ∧ runPendingSteal st =
        (some ie, { st with pending := [], pc := .handler events events.isEmpty }) := by
  cases hp : st.pending with
  | nil => exact Or.inl ⟨rfl, by simp only [runPendingSteal, hp]⟩
  | cons ie events => exact Or.inr ⟨ie, events, rfl, by simp only [runPendingSteal, hp]⟩

lemma linked_runPendingSteal (hstolen : st.stolen = []) (hnodup : st.pending.Nodup) :
    (runPendingSteal st).2.linked e = true ↔
      st.linked e = true ∧ (runPendingSteal st).1 ≠ some e := by
  simp only [EventState.linked_iff, hstolen, List.not_mem_nil, or_false]
  rcases runPendingSteal_cases st with ⟨hp, h⟩ | ⟨ie, events, hp, h⟩
  · simp [h, hp, EventState.stolen]
  · rw [hp, List.nodup_cons] at hnodup
    simp only [h, hp, EventState.stolen, List.not_mem_nil, false_or, List.mem_cons, ne_eq,
      Option.some.injEq]
    constructor
    · intro he
      refine ⟨Or.inr he, ?_⟩
      rintro rfl
      exact hnodup.1 he
    · rintro ⟨rfl | he, hne⟩
      · exact absurd rfl hne
      · exact he

/-- The loop of `__iv_event_run_pending_events` ends only when the stolen list is empty. -/
lemma ListsOk.runPendingNext_cases (h : ListsOk st) (hpc : st.inHandler = true) :
    (st.stolen = [] ∧ runPendingNext st = (none, { st with pc := .outside })) ∨
      ∃ ie events, st.stolen = ie :: events ∧ runPendingNext st =
        (some ie, { st with pc := .handler events events.isEmpty }) := by
  unfold EventState.inHandler at hpc
  cases heq : st.pc with
  | outside => simp [heq] at hpc
  | entering => simp [heq] at hpc
  | handler events emptyNow =>
    cases events with
    | nil =>
      exact Or.inl ⟨by simp only [EventState.stolen, heq], by simp only [runPendingNext, heq]⟩
    | cons ie events =>
      cases emptyNow with
      | true => exact absurd (h.emptyNow _ heq) (by simp)
      | false =>
        refine Or.inr ⟨ie, events, ?_, ?_⟩
        · simp only [EventState.stolen, heq]
        · simp only [runPendingNext, heq]

lemma ListsOk.linked_runPendingNext (h : ListsOk st) (hpc : st.inHandler = true) :
    (runPendingNext st).2.linked e = true ↔
      st.linked e = true ∧ (runPendingNext st).1 ≠ some e := by
  simp only [EventState.linked_iff]
  rcases h.runPendingNext_cases hpc with ⟨hs, hn⟩ | ⟨ie, events, hs, hn⟩
  · rw [hs, hn]
    simp [EventState.stolen]
  · have hnodup := h.nodup
    rw [hs, List.nodup_middle, List.nodup_cons, List.mem_append] at hnodup
    rw [hs, hn]
    simp only [EventState.stolen, List.mem_cons, ne_eq, Option.some.injEq]
    constructor
    · intro he
      refine ⟨by tauto, ?_⟩
      rintro rfl
      exact hnodup.1 he
    · rintro ⟨he | rfl | he, hne⟩
      · exact Or.inl he
      · exact absurd rfl hne
      · exact Or.inr he

/-- A post links its event; its handler's start or its unregistration unlinks it; nothing else
does either. -/
lemma EventInv.linked_step (h : EventInv st) (hstep : TimelyStep useRaw st op st') :
    st'.linked e = true ↔ op.posts e ∨ (st.linked e = true ∧ ¬ op.settles e) := by
  have hpending : st.pending.Nodup := (List.nodup_append.mp h.nodup).1
  -- the steps that leave both lists alone
  have hsame {op : EventOp} {st' : EventState} (hpend : st'.pending = st.pending)
      (hstolen : st'.stolen = st.stolen) (hposts : ¬ op.posts e) (hsettles : ¬ op.settles e) :
      st'.linked e = true ↔ op.posts e ∨ (st.linked e = true ∧ ¬ op.settles e) := by
    simp only [EventState.linked_iff, hpend, hstolen, hposts, hsettles, not_false_iff, and_true,
      false_or]
  obtain ⟨hstep, hposts⟩ := hstep
  have hdeleted (this : EventPtr) (hop : op.posts this) : this ∉ st.deleted :=
    h.notMem_deleted this (hposts this hop)
  cases hstep with
  | @register this rxOk _ _ _ _ =>
    refine hsame ?_ ?_ id (by simp [EventOp.settles, EventOp.starts])
    all_goals
      simp only [ivEventRegister]
      split_ifs <;> rfl
  | @unregister this _ _ =>
    rw [linked_ivEventUnregisterUnlink h.nodup]
    simp [EventOp.posts, EventOp.settles, EventOp.starts]
  | unregisterCount _ =>
    refine hsame ?_ ?_ id (by simp [EventOp.settles, EventOp.starts])
    all_goals
      simp only [ivEventUnregisterCount]
      split_ifs <;> rfl
  | postStart _ => exact hsame rfl rfl id (by simp [EventOp.settles, EventOp.starts])
  | @post t this _ =>
    have hlinked : (postBy t st this).linked e = true ↔ this = e ∨ st.linked e = true :=
      linked_postThen (hdeleted this rfl) fun _ => ⟨rfl, rfl⟩
    rw [hlinked]
    simp [EventOp.posts, EventOp.settles, EventOp.starts]
  | kick _ _ => exact hsame rfl rfl id (by simp [EventOp.settles, EventOp.starts])
  | kickLost _ _ _ => exact hsame rfl rfl id (by simp [EventOp.settles, EventOp.starts])
  | @postOwn this _ _ =>
    have hlinked : (postByOwner st this).linked e = true ↔ _ :=
      linked_postThen (hdeleted this rfl) fun _ => ⟨rfl, rfl⟩
    rw [hlinked]
    simp [EventOp.posts, EventOp.settles, EventOp.starts]
  | postTask _ =>
    refine hsame ?_ ?_ id (by simp [EventOp.settles, EventOp.starts])
    all_goals
      simp only [postLocal]
      split_ifs <;> rfl
  | consume _ hpc _ _ =>
    refine hsame rfl ?_ id (by simp [EventOp.settles, EventOp.starts])
    simp only [EventState.stolen, hpc]
  | steal hpc =>
    rw [linked_runPendingSteal (by simp only [EventState.stolen, hpc]) hpending]
    simp [EventOp.posts, EventOp.settles, EventOp.starts]
  | stealLocal _ hpc _ =>
    have hlinked : (takeLocal st).linked e = st.linked e := EventState.linked_congr rfl rfl
    have hstolen : (takeLocal st).stolen = [] := by simp only [EventState.stolen, takeLocal, hpc]
    rw [linked_runPendingSteal hstolen hpending, hlinked]
    simp [EventOp.posts, EventOp.settles, EventOp.starts]
  | next _ hpc =>
    rw [h.linked_runPendingNext hpc]
    simp [EventOp.posts, EventOp.settles, EventOp.starts]

end Linked

/-! ### The receiver -/

/-- The receiver and the registered events are the same. -/
structure SameReceiver (st st' : EventState) : Prop where
  registered : st'.registered = st.registered
  deleted : st'.deleted = st.deleted
  eventCount : st'.eventCount = st.eventCount
  rxOn : st'.rxOn = st.rxOn
  call : st'.call = .unregister ↔ st.call = .unregister

/-- A step of `iv_event_register` or `iv_event_unregister`. -/
def EventOp.manages : EventOp → Bool
  | .register _ _    => true
  | .unregister _    => true
  | .unregisterCount => true
  | _                => false

lemma SameReceiver.postThen {todo : EventState → EventState}
    (htodo : SameReceiver st (todo { st with pending := [this] })) :
    SameReceiver st (postThen todo st this) := by
  rcases postThen_cases todo st this with ⟨-, h⟩ | ⟨-, -, h⟩ | ⟨-, -, h⟩
  · rw [h]
    exact ⟨rfl, rfl, rfl, rfl, .rfl⟩
  · rw [h]
    exact ⟨rfl, rfl, rfl, rfl, .rfl⟩
  · rw [h]
    exact htodo

lemma sameReceiver_runPendingSteal (st : EventState) : SameReceiver st (runPendingSteal st).2 := by
  rcases runPendingSteal_cases st with ⟨-, h⟩ | ⟨_, _, -, h⟩
  · rw [h]
    exact ⟨rfl, rfl, rfl, rfl, .rfl⟩
  · rw [h]
    exact ⟨rfl, rfl, rfl, rfl, .rfl⟩

/-- Posts and handlers leave the receiver alone. -/
lemma EventStep.sameReceiver (hstep : EventStep useRaw st op st') (hop : op.manages = false) :
    SameReceiver st st' := by
  cases hstep with
  | register _ _ _ _ => cases hop
  | unregister _ _ => cases hop
  | unregisterCount _ => cases hop
  | postStart _ => exact ⟨rfl, rfl, rfl, rfl, .rfl⟩
  | @post t this _ =>
    have hpost : SameReceiver { st with starting := st.starting.erase (t, this) }
        (postBy t st this) := .postThen ⟨rfl, rfl, rfl, rfl, .rfl⟩
    exact ⟨hpost.registered, hpost.deleted, hpost.eventCount, hpost.rxOn, hpost.call⟩
  | kick _ _ => exact ⟨rfl, rfl, rfl, rfl, .rfl⟩
  | kickLost _ _ _ => exact ⟨rfl, rfl, rfl, rfl, .rfl⟩
  | postOwn hfree _ => exact .postThen ⟨rfl, rfl, rfl, rfl, by simp [hfree.1]⟩
  | postTask hcall =>
    simp only [postLocal]
    split_ifs
    · exact ⟨rfl, rfl, rfl, rfl, by simp [hcall]⟩
    · exact ⟨rfl, rfl, rfl, rfl, by simp [hcall]⟩
  | consume _ _ _ _ => exact ⟨rfl, rfl, rfl, rfl, .rfl⟩
  | steal _ => exact sameReceiver_runPendingSteal st
  | stealLocal _ _ _ =>
    have hsteal := sameReceiver_runPendingSteal (takeLocal st)
    exact ⟨hsteal.registered, hsteal.deleted, hsteal.eventCount, hsteal.rxOn, hsteal.call⟩
  | next _ _ =>
    unfold runPendingNext
    split
    · exact ⟨rfl, rfl, rfl, rfl, .rfl⟩
    · exact ⟨rfl, rfl, rfl, rfl, .rfl⟩

lemma registered_ivEventUnregisterUnlink :
    (ivEventUnregisterUnlink st this).registered = st.registered.erase this := by
  simp only [ivEventUnregisterUnlink]
  split_ifs <;> rfl

lemma registered_ivEventUnregisterCount :
    (ivEventUnregisterCount st).registered = st.registered := by
  simp only [ivEventUnregisterCount]
  split_ifs <;> rfl

namespace ReceiverOk

lemma congr (h : ReceiverOk st) (hsame : SameReceiver st st') : ReceiverOk st' := by
  refine ⟨?_, ?_⟩
  · rw [hsame.eventCount, hsame.registered, h.count]
    simp only [hsame.call]
  · rw [hsame.rxOn, hsame.eventCount]
    exact h.rx

lemma rxOn_of_mem (h : ReceiverOk st) (he : e ∈ st.registered) :
    st.rxOn = true ∧ st.eventCount ≠ 0 := by
  have hcount : st.eventCount ≠ 0 := by
    have hpos := Finset.card_pos.mpr ⟨e, he⟩
    have := h.count
    omega
  exact ⟨h.rx.mpr hcount, hcount⟩

/-- While the receiver is off no event is registered. -/
lemma registered_eq_empty (h : ReceiverOk st) (hoff : st.rxOn = false) : st.registered = ∅ := by
  refine Finset.eq_empty_of_forall_notMem fun e he => ?_
  simp [(h.rxOn_of_mem he).1] at hoff

lemma register {rxOk : Bool} (h : ReceiverOk st) (hfree : st.free) (hnew : this ∉ st.registered) :
    ReceiverOk (ivEventRegister rxOk st this).2 := by
  have hcount := h.count
  simp only [hfree.1, reduceCtorEq, if_false] at hcount
  simp only [ivEventRegister]
  split_ifs with hzero hok
  · refine ⟨?_, by simp [EventState.enlist, EventState.rxTurnOn]⟩
    simp only [EventState.enlist, EventState.rxTurnOn, hfree.1, reduceCtorEq, if_false,
      Finset.card_insert_of_notMem hnew]
    omega
  · exact ⟨h.count, h.rx⟩
  · refine ⟨?_, by simp [EventState.enlist, h.rx, hzero]⟩
    simp only [EventState.enlist, hfree.1, reduceCtorEq, if_false,
      Finset.card_insert_of_notMem hnew]
    omega

lemma unregisterUnlink (h : ReceiverOk st) (hfree : st.free) (hreg : this ∈ st.registered) :
    ReceiverOk (ivEventUnregisterUnlink st this) := by
  have hcount := h.count
  simp only [hfree.1, reduceCtorEq, if_false] at hcount
  have hcard := Finset.card_erase_add_one hreg
  have hcount' : (ivEventUnregisterUnlink st this).eventCount = st.eventCount := by
    simp only [ivEventUnregisterUnlink]
    split_ifs <;> rfl
  have hrx : (ivEventUnregisterUnlink st this).rxOn = st.rxOn := by
    simp only [ivEventUnregisterUnlink]
    split_ifs <;> rfl
  refine ⟨?_, by rw [hrx, hcount', h.rx]⟩
  have hcall : (ivEventUnregisterUnlink st this).call = .unregister := rfl
  rw [registered_ivEventUnregisterUnlink, hcount', if_pos hcall]
  omega

lemma unregisterCount (h : ReceiverOk st) (hcall : st.call = .unregister) :
    ReceiverOk (ivEventUnregisterCount st) := by
  have hcount := h.count
  rw [if_pos hcall] at hcount
  have hon : st.rxOn = true := h.rx.mpr (by omega)
  have hcount' : (ivEventUnregisterCount st).eventCount = st.eventCount - 1 := by
    simp only [ivEventUnregisterCount]
    split_ifs <;> rfl
  have hcall' : (ivEventUnregisterCount st).call = .none := rfl
  refine ⟨?_, ?_⟩
  · rw [registered_ivEventUnregisterCount, hcount', hcall', if_neg (by simp)]
    omega
  · simp only [ivEventUnregisterCount]
    split_ifs with hzero
    · simp [EventState.rxTurnOff, hzero]
    · exact iff_of_true hon hzero

/-- Every step keeps it, also a late one. -/
theorem step (h : ReceiverOk st) (hstep : EventStep useRaw st op st') : ReceiverOk st' := by
  have hrest := hstep
  cases hstep with
  | register hfree hnew _ _ => exact h.register hfree hnew
  | unregister hfree hreg => exact h.unregisterUnlink hfree hreg
  | unregisterCount hcall => exact h.unregisterCount hcall
  | _ => exact h.congr (hrest.sameReceiver rfl)

end ReceiverOk

/-! ### Steps keep the invariant -/

lemma EventStep.mem_registered (hstep : EventStep useRaw st op st') (he : e ∈ st.registered)
    (hop : op ≠ .unregister e) : e ∈ st'.registered := by
  have hrest := hstep
  cases hstep with
  | @register this rxOk _ _ _ _ =>
    simp only [ivEventRegister]
    split_ifs
    · exact Finset.mem_insert_of_mem he
    · exact he
    · exact Finset.mem_insert_of_mem he
  | @unregister this _ _ =>
    have hne : e ≠ this := fun heq => hop (heq ▸ rfl)
    rw [registered_ivEventUnregisterUnlink]
    exact Finset.mem_erase_of_ne_of_mem hne he
  | unregisterCount _ => rwa [registered_ivEventUnregisterCount]
  | _ => rwa [(hrest.sameReceiver rfl).registered]

namespace EventInv

lemma mem_registered_step (h : EventInv st) (hstep : TimelyStep useRaw st op st')
    (he : st'.linked e = true) : e ∈ st'.registered := by
  rcases (h.linked_step hstep).mp he with hop | ⟨hl, hop⟩
  · refine hstep.step.mem_registered (hstep.mem_registered_of_posts e hop) ?_
    rintro rfl
    exact hop
  · exact hstep.step.mem_registered (h.mem_registered e hl) fun heq => hop (Or.inr heq)

/-- Only `iv_event_unregister` leaves null pointers, and it is for an event that is then not
registered. -/
lemma notMem_deleted_step (h : EventInv st) (hstep : EventStep useRaw st op st')
    (he : e ∈ st'.registered) : e ∉ st'.deleted := by
  have hrest := hstep
  cases hstep with
  | @register this rxOk _ _ _ _ =>
    have henlist (st : EventState) (h : ∀ e ∈ st.registered, e ∉ st.deleted)
        (he : e ∈ (st.enlist this).registered) : e ∉ (st.enlist this).deleted := by
      intro hmem
      obtain ⟨hne, hmem⟩ := Finset.mem_erase.mp hmem
      exact h e (Finset.mem_of_mem_insert_of_ne he hne) hmem
    simp only [ivEventRegister] at he ⊢
    split_ifs at he ⊢
    · exact henlist _ h.notMem_deleted he
    · exact h.notMem_deleted e he
    · exact henlist _ h.notMem_deleted he
  | @unregister this _ _ =>
    rw [registered_ivEventUnregisterUnlink] at he
    obtain ⟨hne, he⟩ := Finset.mem_erase.mp he
    simp only [ivEventUnregisterUnlink]
    split_ifs
    · exact fun hmem => h.notMem_deleted e he (Finset.mem_of_mem_insert_of_ne hmem hne)
    · exact h.notMem_deleted e he
  | unregisterCount _ =>
    rw [registered_ivEventUnregisterCount] at he
    simp only [ivEventUnregisterCount]
    split_ifs
    · exact h.notMem_deleted e he
    · exact h.notMem_deleted e he
  | _ =>
    have hsame := hrest.sameReceiver rfl
    rw [hsame.registered] at he
    rw [hsame.deleted]
    exact h.notMem_deleted e he

lemma pending_eq_nil (h : EventInv st) (hempty : st.registered = ∅) : st.pending = [] := by
  refine List.eq_nil_iff_forall_not_mem.mpr fun e he => ?_
  have hreg := h.mem_registered e (EventState.linked_iff.mpr (Or.inl he))
  rw [hempty] at hreg
  exact absurd hreg (Finset.notMem_empty e)

end EventInv

namespace ListsOk

lemma register {rxOk : Bool} (h : EventInv st) : ListsOk (ivEventRegister rxOk st this).2 := by
  simp only [ivEventRegister]
  split_ifs with hzero hok
  · have hoff : st.rxOn = false := by
      by_contra hon
      exact h.rx.mp (Bool.not_eq_false _ ▸ hon) hzero
    refine ⟨h.nodup, h.emptyNow, fun hne => ?_⟩
    exact absurd (h.pending_eq_nil (h.registered_eq_empty hoff)) hne
  · exact ⟨h.nodup, h.emptyNow, h.awake⟩
  · exact ⟨h.nodup, h.emptyNow, h.awake⟩

lemma unregisterUnlink (h : ListsOk st) (hfree : st.free) :
    ListsOk (ivEventUnregisterUnlink st this) := by
  have hcall' : st.call ≠ .post := by simp [hfree.1]
  -- an `iv_event_post` of the owner has returned before
  have hawake : st.pending ≠ [] → st.posting.Nonempty ∨ 0 < st.kicks ∨ st.eventsLocal = true := by
    intro hne
    have := h.awake hne
    unfold EventState.Awake at this
    have hpc := hfree.2
    tauto
  simp only [ivEventUnregisterUnlink]
  split_ifs with hl
  · refine ⟨?_, ?_, ?_⟩
    · have hsub : (st.pending.erase this ++ (st.unlink this).stolen).Sublist
          (st.pending ++ st.stolen) := by
        rw [EventState.stolen_unlink]
        exact List.Sublist.append List.erase_sublist List.erase_sublist
      exact h.nodup.sublist hsub
    · intro events heq
      cases hpc : st.pc with
      | outside => simp [EventState.unlink, hpc] at heq
      | entering => simp [EventState.unlink, hpc] at heq
      | handler events' emptyNow =>
        simp only [EventState.unlink, hpc, EventPc.handler.injEq] at heq
        obtain ⟨rfl, rfl⟩ := heq
        rw [h.emptyNow events' hpc, List.erase_nil]
    · intro hne
      have hne' : st.pending ≠ [] := by
        intro hnil
        simp [EventState.unlink, hnil] at hne
      have := hawake hne'
      simp only [EventState.Awake, EventState.unlink]
      tauto
  · refine ⟨h.nodup, h.emptyNow, ?_⟩
    intro hne
    have := hawake hne
    simp only [EventState.Awake]
    tauto

lemma unregisterCount (h : EventInv st) (hcall : st.call = .unregister) :
    ListsOk (ivEventUnregisterCount st) := by
  have hcount := h.count
  rw [if_pos hcall] at hcount
  simp only [ivEventUnregisterCount]
  split_ifs with hzero
  · -- the kicks are gone, but with the last event no pending one is left
    have hregistered : st.registered = ∅ := Finset.card_eq_zero.mp (by omega)
    exact ⟨h.nodup, h.emptyNow, fun hne => absurd (h.pending_eq_nil hregistered) hne⟩
  · refine ⟨h.nodup, h.emptyNow, fun hne => ?_⟩
    have := h.awake hne
    simp only [EventState.Awake, hcall] at this ⊢
    tauto

/-- A post keeps the lists in order if, with `post = 1`, somebody is left to look. -/
lemma postThen {todo : EventState → EventState} (h : ListsOk st)
    (htodo : (this :: st.stolen).Nodup → ListsOk (todo { st with pending := [this] })) :
    ListsOk (postThen todo st this) := by
  have hnodup (hl : st.linked this = false) : ((st.pending ++ [this]) ++ st.stolen).Nodup := by
    have hnot : ¬ (this ∈ st.pending ∨ this ∈ st.stolen) := by
      rw [← EventState.linked_iff, hl]
      exact Bool.false_ne_true
    rw [List.append_assoc, List.singleton_append, List.nodup_middle, List.nodup_cons,
      List.mem_append]
    exact ⟨hnot, h.nodup⟩
  rcases postThen_cases todo st this with ⟨-, heq⟩ | ⟨hl, hp, heq⟩ | ⟨hl, hp, heq⟩
  · rw [heq]
    exact h
  · rw [heq]
    exact ⟨hnodup hl, h.emptyNow, fun _ => h.awake hp⟩
  · rw [heq]
    have hlist := hnodup hl
    rw [hp] at hlist
    exact htodo hlist

lemma postLocal (h : ListsOk st) : ListsOk (postLocal st) := by
  simp only [Ivykis.postLocal]
  split_ifs with htask
  · exact ⟨h.nodup, h.emptyNow, fun _ => Or.inr (Or.inr (Or.inr (Or.inl htask)))⟩
  · exact ⟨h.nodup, h.emptyNow, fun _ => Or.inr (Or.inr (Or.inr (Or.inl rfl)))⟩

/-- The steal needs nobody else to look at the pending events. -/
lemma of_runPendingSteal (hnodup : st.pending.Nodup) : ListsOk (runPendingSteal st).2 := by
  rcases runPendingSteal_cases st with ⟨hp, heq⟩ | ⟨ie, events, hp, heq⟩
  · rw [heq]
    refine ⟨?_, by simp, fun hne => absurd hp hne⟩
    simp [hp, EventState.stolen]
  · rw [heq]
    rw [hp, List.nodup_cons] at hnodup
    refine ⟨?_, ?_, fun hne => absurd rfl hne⟩
    · simpa [EventState.stolen] using hnodup.2
    · intro events' heq'
      simp only [EventPc.handler.injEq, List.isEmpty_iff] at heq'
      exact heq'.1 ▸ heq'.2

lemma runPendingNext (h : ListsOk st) (hpc : st.inHandler = true) :
    ListsOk (runPendingNext st).2 := by
  have hawake : st.pending ≠ [] → st.posting.Nonempty ∨ st.call = .post ∨ 0 < st.kicks ∨
      st.eventsLocal = true := by
    intro hne
    rcases h.awake hne with ha | ha | ha | ha | ha
    · exact Or.inl ha
    · exact Or.inr (Or.inl ha)
    · exact Or.inr (Or.inr (Or.inl ha))
    · exact Or.inr (Or.inr (Or.inr ha))
    · simp [EventState.inHandler, ha] at hpc
  rcases h.runPendingNext_cases hpc with ⟨hs, heq⟩ | ⟨ie, events, hs, heq⟩
  · rw [heq]
    refine ⟨?_, by simp, ?_⟩
    · have hnodup := h.nodup
      rw [hs] at hnodup
      exact hnodup
    · intro hne
      have := hawake hne
      simp only [EventState.Awake]
      tauto
  · rw [heq]
    refine ⟨?_, ?_, ?_⟩
    · have hnodup := h.nodup
      rw [hs, List.nodup_middle, List.nodup_cons] at hnodup
      exact hnodup.2
    · intro events' heq'
      simp only [EventPc.handler.injEq, List.isEmpty_iff] at heq'
      exact heq'.1 ▸ heq'.2
    · intro hne
      have := hawake hne
      simp only [EventState.Awake]
      tauto

lemma step (h : EventInv st) (hstep : EventStep useRaw st op st') : ListsOk st' := by
  have hpending : st.pending.Nodup := (List.nodup_append.mp h.nodup).1
  cases hstep with
  | register _ _ _ _ => exact .register h
  | unregister hfree _ => exact h.toListsOk.unregisterUnlink hfree
  | unregisterCount hcall => exact .unregisterCount h hcall
  | postStart _ => exact ⟨h.nodup, h.emptyNow, h.awake⟩
  | @post t this _ =>
    have hstart : ListsOk { st with starting := st.starting.erase (t, this) } :=
      ⟨h.nodup, h.emptyNow, h.awake⟩
    refine hstart.postThen fun hnodup => ⟨hnodup, h.emptyNow, fun _ => ?_⟩
    exact Or.inl ⟨t, Finset.mem_insert_self t _⟩
  | kick _ _ =>
    exact ⟨h.nodup, h.emptyNow, fun _ => Or.inr (Or.inr (Or.inl (Nat.succ_pos _)))⟩
  | kickLost _ hoff _ =>
    refine ⟨h.nodup, h.emptyNow, fun hne => ?_⟩
    exact absurd (h.pending_eq_nil (h.registered_eq_empty hoff)) hne
  | postOwn _ _ =>
    exact h.toListsOk.postThen fun hnodup => ⟨hnodup, h.emptyNow, fun _ => Or.inr (Or.inl rfl)⟩
  | postTask _ => exact h.toListsOk.postLocal
  | consume hcall hpc hn hkicks =>
    refine ⟨?_, by simp, fun _ => Or.inr (Or.inr (Or.inr (Or.inr rfl)))⟩
    have hnodup := h.nodup
    simp only [EventState.stolen, hpc] at hnodup
    exact hnodup
  | steal _ => exact .of_runPendingSteal hpending
  | stealLocal _ _ _ => exact .of_runPendingSteal hpending
  | next _ hpc => exact h.toListsOk.runPendingNext hpc

end ListsOk

theorem EventInv.step (h : EventInv st) (hstep : TimelyStep useRaw st op st') : EventInv st' where
  toReceiverOk := h.toReceiverOk.step hstep.step
  toListsOk := .step h hstep.step
  mem_registered _ he := h.mem_registered_step hstep he
  notMem_deleted _ he := h.notMem_deleted_step hstep.step he

end Ivykis
