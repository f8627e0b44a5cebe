import Mathlib.Data.List.Basic
import Ivykis.Event.Properties

/-!
# One call of `__iv_event_run_pending_events`

The call steals the list of pending events and runs their handlers one by one. Meanwhile the
handlers may call everything the owner may call, and other threads go on to post. The stolen list
can only become shorter (`EventInv.stolen_step`): its first event leaves it when its handler is
started, and any event leaves it when it is unregistered. What a handler posts is on the stolen
list already or goes to the list of pending events, which is not stolen again in this call.
-/

namespace Ivykis

variable {useRaw : Bool} {st st' s₀ s₁ s₂ s : EventState} {op : EventOp} {e y : EventPtr}
  {tr tr₀ tr₁ tr₂ : List EventOp}

/-- The event whose handler a step starts, if any. -/
def EventOp.handled : EventOp → List EventPtr
  | .steal _ ie => ie.toList
  | .next ie    => ie.toList
  | _           => []

/-- The events whose handlers are started, in the order in which they are started. -/
def handledEvents (tr : List EventOp) : List EventPtr :=
  tr.flatMap EventOp.handled

/-- A handler has returned. -/
def EventOp.isNext : EventOp → Bool
  | .next _ => true
  | _       => false

/-- The events whose memory may be read or written in a step: the one it is about, and those on
the lists that it changes. The event that is being registered is left out. -/
def EventState.touches (st : EventState) : EventOp → List EventPtr
  | .steal _ _        => st.pending
  | .next _           => st.stolen
  | .unregister this  => this :: (st.pending ++ st.stolen)
  | .postStart _ this => [this]
  | .post _ this      => this :: (st.pending ++ st.stolen)
  | .postOwn this     => this :: (st.pending ++ st.stolen)
  | _                 => []

/-- The steps of all threads while a handler is running. -/
def handlerLts (useRaw : Bool) : Kit.Lts EventState EventOp :=
  (eventLts useRaw).restrict fun st _ => st.inHandler = true

/-- `tr` are the steps of a call of `__iv_event_run_pending_events` that is made in `s₀`, up to
its return or to some point before it. The call has returned once no handler is running. -/
def RunsPending (useRaw : Bool) (s₀ : EventState) (tr : List EventOp) (s : EventState) : Prop :=
  ∃ task ie body s₁, tr = .steal task ie :: body ∧
    eventStep useRaw s₀ (.steal task ie) = some s₁ ∧ (handlerLts useRaw).exec s₁ body = some s

/-! ### The steps of a call -/

namespace RunsPending

lemma snoc_iff (hne : tr ≠ []) : RunsPending useRaw s₀ (tr ++ [op]) s ↔
    ∃ s', RunsPending useRaw s₀ tr s' ∧ s'.inHandler = true ∧
      (eventLts useRaw).step s' op = some s := by
  obtain ⟨a, tr, rfl⟩ := List.exists_cons_of_ne_nil hne
  simp only [RunsPending, List.cons_append, List.cons.injEq]
  constructor
  · rintro ⟨task, ie, body, s₁, ⟨rfl, rfl⟩, hsteal, hexec⟩
    obtain ⟨s', hexec, hstep⟩ := Kit.Lts.exec_snoc.mp hexec
    obtain ⟨hin, hstep⟩ := Kit.Lts.restrict_step.mp hstep
    exact ⟨s', ⟨task, ie, tr, s₁, ⟨rfl, rfl⟩, hsteal, hexec⟩, hin, hstep⟩
  · rintro ⟨s', ⟨task, ie, body, s₁, ⟨rfl, rfl⟩, hsteal, hexec⟩, hin, hstep⟩
    refine ⟨task, ie, tr ++ [op], s₁, ⟨rfl, rfl⟩, hsteal, ?_⟩
    exact Kit.Lts.exec_snoc.mpr ⟨s', hexec, Kit.Lts.restrict_step.mpr ⟨hin, hstep⟩⟩

/-- Induction on the steps of a call, from the theft of the list on. -/
lemma induct {P : List EventOp → EventState → Prop}
    (hsteal : ∀ task ie s, (eventLts useRaw).step s₀ (.steal task ie) = some s →
      P [.steal task ie] s)
    (hstep : ∀ tr s op s', RunsPending useRaw s₀ tr s → P tr s → s.inHandler = true →
      (eventLts useRaw).step s op = some s' → P (tr ++ [op]) s')
    (h : RunsPending useRaw s₀ tr s) : P tr s := by
  obtain ⟨task, ie, body, s₁, rfl, hs₁, hexec⟩ := h
  refine Kit.Lts.exec_induct (L := handlerLts useRaw)
    (P := fun body s => P (.steal task ie :: body) s)
    (hsteal task ie s₁ (Kit.Lts.restrict_step.mpr ⟨rfl, hs₁⟩)) ?_ hexec
  intro body s op s' hexec hP hs'
  obtain ⟨hin, hs'⟩ := Kit.Lts.restrict_step.mp hs'
  exact hstep _ s op s' ⟨task, ie, body, s₁, rfl, hs₁, hexec⟩ hP hin hs'

lemma exec_eq (h : RunsPending useRaw s₀ tr s) : (eventLts useRaw).exec s₀ tr = some s := by
  refine h.induct (P := fun tr s => (eventLts useRaw).exec s₀ tr = some s) ?_ ?_
  · intro task ie s hsteal
    rw [← List.nil_append [_]]
    exact Kit.Lts.exec_snoc.mpr ⟨s₀, rfl, hsteal⟩
  · intro tr s op s' _ hexec _ hstep
    exact Kit.Lts.exec_snoc.mpr ⟨s, hexec, hstep⟩

/-- What has been done of a call before one of its steps. -/
lemma split (h : RunsPending useRaw s₀ (tr₁ ++ op :: tr₂) s) (hne : tr₁ ≠ []) :
    ∃ s₁ s₂, RunsPending useRaw s₀ tr₁ s₁ ∧ s₁.inHandler = true ∧
      (eventLts useRaw).step s₁ op = some s₂ := by
  induction tr₂ using List.reverseRecOn generalizing s with
  | nil =>
    obtain ⟨s₁, hcall, hin, hstep⟩ := (snoc_iff hne).mp h
    exact ⟨s₁, s, hcall, hin, hstep⟩
  | append_singleton tr₂ a ih =>
    rw [← List.cons_append, ← List.append_assoc] at h
    obtain ⟨s', hcall, -, -⟩ := (snoc_iff (by simp)).mp h
    exact ih hcall

end RunsPending

/-! ### What the steps do to the lists -/

lemma EventState.stolen_congr (hpc : st'.pc = st.pc) : st'.stolen = st.stolen := by
  unfold stolen
  rw [hpc]

lemma pc_postThen {todo : EventState → EventState} {this : EventPtr}
    (htodo : ∀ st, (todo st).pc = st.pc) : (postThen todo st this).pc = st.pc := by
  rcases postThen_cases todo st this with ⟨-, h⟩ | ⟨-, -, h⟩ | ⟨-, -, h⟩
  · rw [h]
  · rw [h]
  · rw [h, htodo]

/-- While a handler is running, the first event of the stolen list leaves it when its handler is
started and an event leaves it when it is unregistered. -/
lemma EventInv.stolen_step (h : EventInv st) (hin : st.inHandler = true)
    (hstep : EventStep useRaw st op st') :
    op.handled ++ st'.stolen = st.stolen.filter fun e => op ≠ .unregister e := by
  have hnodup : st.stolen.Nodup := (List.nodup_append.mp h.nodup).2.1
  -- the steps that leave the list alone
  have hsame {op : EventOp} {st' : EventState} (hpc : st'.pc = st.pc) (hop : op.handled = [])
      (hne : ∀ e, op ≠ .unregister e) :
      op.handled ++ st'.stolen = st.stolen.filter fun e => op ≠ .unregister e := by
    rw [hop, List.nil_append, EventState.stolen_congr hpc]
    exact (List.filter_eq_self.mpr fun e _ => decide_eq_true (hne e)).symm
  cases hstep with
  | register _ _ _ _ =>
    refine hsame ?_ rfl (by simp)
    simp only [ivEventRegister]
    split_ifs <;> rfl
  | @unregister this _ _ =>
    have herase : (ivEventUnregisterUnlink st this).stolen = st.stolen.erase this := by
      cases hl : st.linked this with
      | true =>
        rw [← EventState.stolen_unlink]
        refine EventState.stolen_congr ?_
        simp [ivEventUnregisterUnlink, hl]
      | false =>
        have hnot : this ∉ st.stolen := fun hmem => by
          simp [EventState.linked_iff.mpr (Or.inr hmem)] at hl
        rw [List.erase_of_not_mem hnot]
        refine EventState.stolen_congr ?_
        simp [ivEventUnregisterUnlink, hl]
    rw [herase, hnodup.erase_eq_filter]
    refine List.filter_congr fun e _ => ?_
    simp [bne, Bool.beq_eq_decide_eq, eq_comm]
  | unregisterCount _ =>
    refine hsame ?_ rfl (by simp)
    simp only [ivEventUnregisterCount]
    split_ifs <;> rfl
  | postStart _ => exact hsame rfl rfl (by simp)
  | post _ => exact hsame (pc_postThen fun _ => rfl) rfl (by simp)
  | kick _ _ => exact hsame rfl rfl (by simp)
  | kickLost _ _ _ => exact hsame rfl rfl (by simp)
  | postOwn _ _ => exact hsame (pc_postThen fun _ => rfl) rfl (by simp)
  | postTask _ =>
    refine hsame ?_ rfl (by simp)
    simp only [Ivykis.postLocal]
    split_ifs <;> rfl
  | consume _ hpc _ _ => simp [EventState.inHandler, hpc] at hin
  | steal hpc => simp [EventState.inHandler, hpc] at hin
  | stealLocal _ hpc _ => simp [EventState.inHandler, hpc] at hin
  | next _ _ =>
    rw [List.filter_eq_self.mpr (by simp)]
    rcases h.runPendingNext_cases hin with ⟨hs, heq⟩ | ⟨ie, events, hs, heq⟩
    · rw [heq, hs]
      rfl
    · rw [heq, hs]
      rfl

/-- While a handler is running, a pending event stays pending until it is unregistered. -/
lemma EventInv.mem_pending_step (h : EventInv st) (hin : st.inHandler = true)
    (hstep : TimelyStep useRaw st op st') (he : e ∈ st.pending) (hop : op ≠ .unregister e) :
    e ∈ st'.pending := by
  have hnot : e ∉ st.stolen := fun hmem => List.disjoint_of_nodup_append h.nodup he hmem
  have hsplit := h.stolen_step hin hstep.step
  have hkept : e ∉ op.handled ∧ e ∉ st'.stolen := by
    rw [← not_or, ← List.mem_append, hsplit, List.mem_filter]
    exact fun hmem => hnot hmem.1
  have hlinked : st'.linked e = true := by
    refine (h.linked_step hstep).mpr (Or.inr ⟨EventState.linked_iff.mpr (Or.inl he), ?_⟩)
    rintro (hstart | rfl)
    · refine hkept.1 ?_
      cases op with
      | steal task ie => exact Option.mem_toList.mpr hstart
      | next ie => exact Option.mem_toList.mpr hstart
      | _ => exact hstart.elim
    · exact hop rfl
  exact (EventState.linked_iff.mp hlinked).resolve_right hkept.2

/-- Only events that are registered are touched. -/
lemma EventInv.touches_registered (h : EventInv st) (hstep : TimelyStep useRaw st op st')
    (he : e ∈ st.touches op) : e ∈ st.registered := by
  have hlists (this : EventPtr) (hreg : this ∈ st.registered)
      (he : e ∈ this :: (st.pending ++ st.stolen)) : e ∈ st.registered := by
    rcases List.mem_cons.mp he with rfl | he
    · exact hreg
    · exact h.mem_registered e (EventState.linked_iff.mpr (List.mem_append.mp he))
  obtain ⟨hstep, hposts⟩ := hstep
  cases hstep with
  | unregister _ hreg => exact hlists _ hreg he
  | postStart hreg => exact List.mem_singleton.mp he ▸ hreg
  | @post t this _ => exact hlists this (hposts this rfl) he
  | postOwn _ hreg => exact hlists _ hreg he
  | steal _ => exact h.mem_registered e (EventState.linked_iff.mpr (Or.inl he))
  | stealLocal _ _ _ => exact h.mem_registered e (EventState.linked_iff.mpr (Or.inl he))
  | next _ _ => exact h.mem_registered e (EventState.linked_iff.mpr (Or.inr he))
  | _ => simp [EventState.touches] at he

/-! ### What holds during a call -/

@[simp]
lemma handledEvents_append : handledEvents (tr₁ ++ tr₂) = handledEvents tr₁ ++ handledEvents tr₂ :=
  List.flatMap_append

@[simp]
lemma handledEvents_cons : handledEvents (op :: tr) = op.handled ++ handledEvents tr :=
  List.flatMap_cons

@[simp]
lemma handledEvents_nil : handledEvents [] = [] := rfl

lemma stolen_runPendingSteal (st : EventState) :
    (runPendingSteal st).1.toList ++ (runPendingSteal st).2.stolen = st.pending ∧
      (runPendingSteal st).2.stolen.length + (runPendingSteal st).2.inHandler.toNat =
        st.pending.length := by
  rcases runPendingSteal_cases st with ⟨hp, heq⟩ | ⟨ie, events, hp, heq⟩
  · rw [heq, hp]
    exact ⟨rfl, rfl⟩
  · rw [heq, hp]
    exact ⟨rfl, rfl⟩

/-- What the theft of the list leaves: all events wait but the first, whose handler is started. -/
lemma EventStep.stolen_steal {task : Bool} {ie : Option EventPtr}
    (hstep : EventStep useRaw st (.steal task ie) st') :
    ie.toList ++ st'.stolen = st.pending ∧
      st'.stolen.length + st'.inHandler.toNat = st.pending.length := by
  cases hstep with
  | steal _ => exact stolen_runPendingSteal st
  | stealLocal _ _ _ => exact stolen_runPendingSteal (takeLocal st)

/-- While handlers run, each return is paid for with an event of the stolen list or with the end
of the call. -/
lemma EventInv.isNext_step (h : EventInv st) (hin : st.inHandler = true)
    (hstep : EventStep useRaw st op st') :
    op.isNext.toNat + (st'.stolen.length + st'.inHandler.toNat) ≤ st.stolen.length + 1 := by
  cases hop : op.isNext with
  | false =>
    have hle : st'.stolen.length ≤ st.stolen.length := by
      have hsplit := congrArg List.length (h.stolen_step hin hstep)
      have hfilter := List.length_filter_le (fun e => decide (op ≠ .unregister e)) st.stolen
      rw [List.length_append] at hsplit
      omega
    have := Bool.toNat_le st'.inHandler
    simp only [Bool.toNat_false]
    omega
  | true =>
    cases hstep with
    | next _ _ =>
      rcases h.runPendingNext_cases hin with ⟨hs, heq⟩ | ⟨ie, events, hs, heq⟩
      · rw [heq, hs]
        simp [EventState.stolen, EventState.inHandler]
      · rw [heq, hs]
        simp only [EventState.stolen, EventState.inHandler, Bool.toNat_true, List.length_cons]
        omega
    | _ => simp [EventOp.isNext] at hop

/-- What holds at each point of a call that is made in `s₀`, after the steps `tr`. -/
structure CallInv (s₀ : EventState) (tr : List EventOp) (s : EventState) : Prop where
  inv : EventInv s
  /-- Handlers are started in the order of the list. -/
  order : (handledEvents tr ++ s.stolen).Sublist s₀.pending
  /-- An event waits until its handler is started or it is unregistered. -/
  waits : ∀ e, e ∈ s.stolen ↔ e ∈ s₀.pending ∧ e ∉ handledEvents tr ∧ .unregister e ∉ tr
  returns : tr.countP EventOp.isNext + (s.stolen.length + s.inHandler.toNat) ≤ s₀.pending.length

lemma CallInv.of_steal {task : Bool} {ie : Option EventPtr} (h₀ : EventInv s₀)
    (hstep : TimelyStep useRaw s₀ (.steal task ie) s) : CallInv s₀ [.steal task ie] s := by
  obtain ⟨hsplit, hlen⟩ := hstep.step.stolen_steal
  have hnodup : (ie.toList ++ s.stolen).Nodup := hsplit ▸ (List.nodup_append.mp h₀.nodup).1
  have hhandled : handledEvents [.steal task ie] = ie.toList := by simp [EventOp.handled]
  refine ⟨h₀.step hstep, ?_, fun e => ?_, ?_⟩
  · rw [hhandled, hsplit]
  · rw [hhandled, ← hsplit, List.mem_append]
    have hdisj : e ∈ s.stolen → e ∉ ie.toList := fun hs hie =>
      List.disjoint_of_nodup_append hnodup hie hs
    simp only [List.mem_singleton, reduceCtorEq, not_false_iff, and_true]
    tauto
  · simp only [List.countP_singleton, EventOp.isNext, Bool.false_eq_true, if_false]
    omega

lemma CallInv.step (h : CallInv s₀ tr s) (hin : s.inHandler = true)
    (hstep : TimelyStep useRaw s op st') : CallInv s₀ (tr ++ [op]) st' := by
  have hsplit := h.inv.stolen_step hin hstep.step
  have hsub : (op.handled ++ st'.stolen).Sublist s.stolen := hsplit ▸ List.filter_sublist
  have hnodup : (op.handled ++ st'.stolen).Nodup :=
    (List.nodup_append.mp h.inv.nodup).2.1.sublist hsub
  refine ⟨h.inv.step hstep, ?_, fun e => ?_, ?_⟩
  · rw [handledEvents_append, List.append_assoc]
    simp only [handledEvents_cons, handledEvents_nil, List.append_nil]
    exact (List.Sublist.append_left hsub _).trans h.order
  · have hdisj : e ∈ st'.stolen → e ∉ op.handled := fun hs ho =>
      List.disjoint_of_nodup_append hnodup ho hs
    have hmem : e ∈ op.handled ∨ e ∈ st'.stolen ↔ e ∈ s.stolen ∧ op ≠ .unregister e := by
      rw [← List.mem_append, hsplit, List.mem_filter, decide_eq_true_eq]
    rw [h.waits] at hmem
    simp only [handledEvents_append, handledEvents_cons, handledEvents_nil, List.append_nil,
      List.mem_append, List.mem_singleton, eq_comm (b := op)]
    tauto
  · have hnext := h.inv.isNext_step hin hstep.step
    have hreturns := h.returns
    rw [hin] at hreturns
    have hone : [op].countP EventOp.isNext = op.isNext.toNat := by
      rw [List.countP_singleton]
      cases op.isNext <;> rfl
    rw [List.countP_append, hone]
    simp only [Bool.toNat_true] at hreturns
    omega

namespace RunsPending

lemma callInv (h₀ : EventInv s₀) (h : RunsPending useRaw s₀ tr s) : CallInv s₀ tr s :=
  h.induct (P := CallInv s₀) (fun _ _ _ hsteal => .of_steal h₀ (.of_step hsteal))
    fun _ _ _ _ _ hcall hin hstep => hcall.step hin (.of_step hstep)

/-- The first step of a call is the theft of the list. -/
lemma of_nil_append (h : RunsPending useRaw s₀ (op :: tr₂) s) :
    ∃ task ie s₁, op = .steal task ie ∧ EventStep useRaw s₀ (.steal task ie) s₁ := by
  obtain ⟨task, ie, body, s₁, heq, hsteal, -⟩ := h
  exact ⟨task, ie, s₁, (List.cons.inj heq).1, .of_step hsteal⟩

/-- When the turn of an event has come it is the first of those that wait. -/
lemma turn (h₀ : EventInv s₀) (h : RunsPending useRaw s₀ (tr₁ ++ op :: tr₂) s)
    (hop : op.starts y) : ∃ events, (y :: events).Sublist s₀.pending ∧
      ∀ e, e ∈ y :: events ↔ e ∈ s₀.pending ∧ e ∉ handledEvents tr₁ ∧ .unregister e ∉ tr₁ := by
  cases tr₁ with
  | nil =>
    obtain ⟨task, ie, s₁, rfl, hsteal⟩ := h.of_nil_append
    have hlist : y :: s₁.stolen = s₀.pending := by
      rw [← hsteal.stolen_steal.1, hop]
      rfl
    refine ⟨s₁.stolen, ?_, fun e => ?_⟩
    · rw [hlist]
    · rw [hlist]
      simp
  | cons a tr₁ =>
    obtain ⟨s₁, s₂, hcall, hin, hstep⟩ := h.split (List.cons_ne_nil a tr₁)
    have hstep := (TimelyStep.of_step hstep).step
    have hinv := hcall.callInv h₀
    have hlist : y :: s₂.stolen = s₁.stolen := by
      have hsplit := hinv.inv.stolen_step hin hstep
      cases hstep with
      | next _ _ =>
        rw [List.filter_eq_self.mpr (by simp)] at hsplit
        rw [← hsplit]
        change _ = (runPendingNext s₁).1.toList ++ _
        rw [hop]
        rfl
      | steal hpc => simp [EventState.inHandler, hpc] at hin
      | stealLocal _ hpc _ => simp [EventState.inHandler, hpc] at hin
      | _ => exact hop.elim
    refine ⟨s₂.stolen, ?_, fun e => ?_⟩
    · rw [hlist]
      exact (List.sublist_append_right _ _).trans hinv.order
    · rw [hlist]
      exact hinv.waits e

/-- What is pending after some steps of a call is pending at the end of it, unless it is
unregistered. -/
lemma mem_pending (h₀ : EventInv s₀) (hne : tr₁ ≠ [])
    (hs₁ : (eventLts useRaw).exec s₀ tr₁ = some s₁) (he : e ∈ s₁.pending)
    (h : RunsPending useRaw s₀ (tr₁ ++ tr₂) s) : e ∈ s.pending ∨ .unregister e ∈ tr₂ := by
  induction tr₂ using List.reverseRecOn generalizing s with
  | nil =>
    rw [List.append_nil] at h
    obtain rfl := Option.some.inj (hs₁.symm.trans h.exec_eq)
    exact Or.inl he
  | append_singleton tr₂ op ih =>
    rw [← List.append_assoc] at h
    obtain ⟨s', hcall, hin, hstep⟩ := (snoc_iff (by simp [hne])).mp h
    rcases ih hcall with he | hun
    · by_cases hop : op = .unregister e
      · exact Or.inr (by simp [hop])
      · exact Or.inl ((hcall.callInv h₀).inv.mem_pending_step hin (.of_step hstep) he hop)
    · exact Or.inr (List.mem_append_left _ hun)

end RunsPending

/-! ### Posting order -/

/-- The post of `b` that is to be answered was made after that of `a`. -/
def PostedBefore (tr : List EventOp) (a b : EventPtr) : Prop :=
  ∃ tr₁ op tr₂, tr = tr₁ ++ op :: tr₂ ∧ op.posts b ∧
    Kit.Lts.Owed (EventOp.posts a) (EventOp.settles a) tr₁ ∧
    ¬ Kit.Lts.Owed (EventOp.posts b) (EventOp.settles b) tr₁ ∧
    ∀ op' ∈ tr₂, ¬ op'.settles a ∧ ¬ op'.settles b

lemma EventOp.not_settles_of_posts {this : EventPtr} (h : op.posts this) : ¬ op.settles e := by
  cases op <;> simp_all [EventOp.posts, EventOp.settles, EventOp.starts]

lemma pending_postThen {todo : EventState → EventState} {this : EventPtr}
    (htodo : ∀ st, (todo st).pending = st.pending) :
    (postThen todo st this).pending = st.pending ∨
      (st.linked this = false ∧ (postThen todo st this).pending = st.pending ++ [this]) := by
  rcases postThen_cases todo st this with ⟨-, h⟩ | ⟨hl, -, h⟩ | ⟨hl, hp, h⟩
  · exact Or.inl (by rw [h])
  · exact Or.inr ⟨hl, by rw [h]⟩
  · exact Or.inr ⟨hl, by rw [h, htodo, hp, List.nil_append]⟩

/-- Events are added at the end of the list of pending events, and the others keep their order. -/
lemma EventStep.pending_cases (hstep : EventStep useRaw st op st') :
    st'.pending.Sublist st.pending ∨ ∃ this, op.posts this ∧ st.linked this = false ∧
      st'.pending = st.pending ++ [this] := by
  have hsame {st' : EventState} (heq : st'.pending = st.pending) :
      st'.pending.Sublist st.pending := by
    rw [heq]
  have hsteal (st : EventState) : (runPendingSteal st).2.pending.Sublist st.pending := by
    rcases runPendingSteal_cases st with ⟨hp, h⟩ | ⟨ie, events, hp, h⟩
    · rw [h]
    · rw [h]
      exact List.nil_sublist _
  cases hstep with
  | register _ _ _ _ =>
    refine Or.inl (hsame ?_)
    simp only [ivEventRegister]
    split_ifs <;> rfl
  | unregister _ _ =>
    refine Or.inl ?_
    simp only [ivEventUnregisterUnlink]
    split_ifs
    · exact List.erase_sublist
    · exact List.Sublist.refl _
  | unregisterCount _ =>
    refine Or.inl (hsame ?_)
    simp only [ivEventUnregisterCount]
    split_ifs <;> rfl
  | postStart _ => exact Or.inl (List.Sublist.refl _)
  | @post t this _ =>
    have hpost : (postBy t st this).pending = st.pending ∨ _ := pending_postThen fun _ => rfl
    exact hpost.imp hsame fun h => ⟨this, rfl, h⟩
  | kick _ _ => exact Or.inl (List.Sublist.refl _)
  | kickLost _ _ _ => exact Or.inl (List.Sublist.refl _)
  | @postOwn this _ _ =>
    have hpost : (postByOwner st this).pending = st.pending ∨ _ := pending_postThen fun _ => rfl
    exact hpost.imp hsame fun h => ⟨this, rfl, h⟩
  | postTask _ =>
    refine Or.inl (hsame ?_)
    simp only [postLocal]
    split_ifs <;> rfl
  | consume _ _ _ _ => exact Or.inl (List.Sublist.refl _)
  | steal _ => exact Or.inl (hsteal st)
  | stealLocal _ _ _ => exact Or.inl (hsteal (takeLocal st))
  | next _ _ =>
    refine Or.inl (hsame ?_)
    unfold runPendingNext
    split <;> rfl

lemma PostedBefore.snoc {a b : EventPtr} (h : PostedBefore tr a b) (ha : ¬ op.settles a)
    (hb : ¬ op.settles b) : PostedBefore (tr ++ [op]) a b := by
  obtain ⟨tr₁, op', tr₂, rfl, hposts, howed, hnew, hkept⟩ := h
  refine ⟨tr₁, op', tr₂ ++ [op], by simp, hposts, howed, hnew, fun op'' hmem => ?_⟩
  rcases List.mem_append.mp hmem with hmem | hmem
  · exact hkept op'' hmem
  · rw [List.mem_singleton.mp hmem]
    exact ⟨ha, hb⟩

/-- The list of pending events is in the order in which they were posted. -/
lemma pending_postedBefore (h : (eventLts useRaw).Run tr st) :
    st.pending.Pairwise (PostedBefore tr) := by
  refine Kit.Lts.Run.induct (P := fun tr st => st.pending.Pairwise (PostedBefore tr)) ?_ ?_ h
  · exact List.Pairwise.nil
  · intro tr s op s' hrun hpair hstep
    have hinv := eventInv_of_run hrun
    have hstep := TimelyStep.of_step hstep
    have hkept (e : EventPtr) (he : e ∈ s'.pending) : ¬ op.settles e := by
      rcases (hinv.linked_step hstep).mp (EventState.linked_iff.mpr (Or.inl he)) with hop | hop
      · exact EventOp.not_settles_of_posts hop
      · exact hop.2
    rcases hstep.step.pending_cases with hsub | ⟨this, hop, hnew, heq⟩
    · refine (hpair.sublist hsub).imp_of_mem fun {a b} ha hb hab => ?_
      exact hab.snoc (hkept a ha) (hkept b hb)
    · rw [heq] at hkept ⊢
      refine List.pairwise_append.mpr ⟨?_, List.pairwise_singleton _ _, fun a ha b hb => ?_⟩
      · refine hpair.imp_of_mem fun {a b} ha hb hab => ?_
        exact hab.snoc (hkept a (List.mem_append_left _ ha)) (hkept b (List.mem_append_left _ hb))
      · rw [List.mem_singleton.mp hb]
        refine ⟨tr, op, [], rfl, hop, (linked_iff_owed hrun a).mp ?_, ?_, by simp⟩
        · exact EventState.linked_iff.mpr (Or.inl ha)
        · rw [← linked_iff_owed hrun this, hnew]
          exact Bool.false_ne_true

/-! ### The call as a whole -/

/-- The head of a part of a list is not before the place at which it stands. -/
lemma sublist_of_notMem {a : EventPtr} {l l₁ l₂ : List EventPtr} (ha : a ∉ l₁)
    (h : (a :: l).Sublist (l₁ ++ l₂)) : (a :: l).Sublist l₂ := by
  induction l₁ with
  | nil => exact h
  | cons b l₁ ih =>
    have hne : a ≠ b := List.ne_of_not_mem_cons ha
    exact ih (List.not_mem_of_not_mem_cons ha) (List.Sublist.of_cons_of_ne hne h)

lemma EventState.stolen_eq_nil (h : st.inHandler = false) : st.stolen = [] := by
  unfold inHandler at h
  unfold stolen
  split at h
  · exact absurd h (by simp)
  · rfl

/-- No state of a call is stuck: what the running handler has begun can be finished, and it can
return. -/
lemma exists_step_of_inHandler (useRaw : Bool) (hin : st.inHandler = true) :
    ∃ op st', (op = .postTask ∨ op = .unregisterCount ∨ op.isNext = true) ∧
      eventStep useRaw st op = some st' := by
  cases hcall : st.call with
  | none =>
    refine ⟨.next (runPendingNext st).1, (runPendingNext st).2, Or.inr (Or.inr rfl), ?_⟩
    simp [eventStep, hcall, hin]
  | post => exact ⟨.postTask, postLocal st, Or.inl rfl, by simp [eventStep, hcall]⟩
  | unregister =>
    exact ⟨.unregisterCount, ivEventUnregisterCount st, Or.inr (Or.inl rfl),
      by simp [eventStep, hcall]⟩

/-- A post made by a handler. -/
lemma RunsPending.postOwn_cases (h₀ : EventInv s₀)
    (h : RunsPending useRaw s₀ (tr₁ ++ .postOwn e :: tr₂) s)
    (hs₁ : (eventLts useRaw).exec s₀ tr₁ = some s₁)
    (hs₂ : eventStep useRaw s₁ (.postOwn e) = some s₂) :
    (e ∈ s₁.stolen ∧ (s.inHandler = false → e ∈ handledEvents tr₂ ∨ .unregister e ∈ tr₂)) ∨
      (e ∈ s₂.pending ∧ s₂.Awake ∧ ((e ∈ s.pending ∧ s.Awake) ∨ .unregister e ∈ tr₂)) := by
  have hne : tr₁ ≠ [] := by
    rintro rfl
    obtain ⟨_, _, _, hop, -⟩ := h.of_nil_append
    cases hop
  obtain ⟨s₁', s₂', hcall, hin, hstep⟩ := h.split hne
  obtain rfl := Option.some.inj (hs₁.symm.trans hcall.exec_eq)
  obtain rfl := Option.some.inj (hs₂.symm.trans (Kit.Lts.restrict_step.mp hstep).2)
  have hbefore := hcall.callInv h₀
  have hend := h.callInv h₀
  have hnext := hstep
  have hstep := TimelyStep.of_step hstep
  have hinv₂ := hbefore.inv.step hstep
  have hstolen : s₂.stolen = s₁.stolen := by
    have hsplit := hbefore.inv.stolen_step hin hstep.step
    rwa [List.filter_eq_self.mpr (by simp)] at hsplit
  have hlinked : s₂.linked e = true := (hbefore.inv.linked_step hstep).mpr (Or.inl rfl)
  rcases EventState.linked_iff.mp hlinked with hp | hs
  · refine Or.inr ⟨hp, hinv₂.awake (List.ne_nil_of_mem hp), ?_⟩
    have hs₂' : (eventLts useRaw).exec s₀ (tr₁ ++ [.postOwn e]) = some s₂ :=
      Kit.Lts.exec_snoc.mpr ⟨s₁, hs₁, hnext⟩
    rw [← List.singleton_append, ← List.append_assoc] at h
    rcases mem_pending h₀ (by simp) hs₂' hp h with hp | hun
    · exact Or.inl ⟨hp, hend.inv.awake (List.ne_nil_of_mem hp)⟩
    · exact Or.inr hun
  · rw [hstolen] at hs
    refine Or.inl ⟨hs, fun hret => ?_⟩
    obtain ⟨he, hnot, hreg⟩ := (hbefore.waits e).mp hs
    have hgone := mt (hend.waits e).mpr (by simp [EventState.stolen_eq_nil hret])
    simp only [handledEvents_append, handledEvents_cons, List.mem_append, List.mem_cons,
      EventOp.handled, List.nil_append, reduceCtorEq, false_or] at hgone
    tauto

/-- One call of `__iv_event_run_pending_events`, whatever its handlers and the other threads do
meanwhile. The handlers are started in the order in which their events were posted, each at most
once. When the turn of an event comes, it has not been unregistered, and every event posted before
it has had its turn or was unregistered. On return that is so for all events that were pending.
Only registered events are touched. What a handler posts is waiting for its turn in this call, or
it is pending with somebody going to look at it, and it is still pending on return. At most as
many handlers return as events were pending, and no state of the call is stuck. -/
theorem runPendingEvents_call (hrun : (eventLts useRaw).Run tr₀ s₀)
    (hcall : RunsPending useRaw s₀ tr s) :
    (s₀.pending.Pairwise (PostedBefore tr₀) ∧ (handledEvents tr).Sublist s₀.pending ∧
      (handledEvents tr).Nodup) ∧
    (∀ tr₁ op tr₂ y l₁ l₂, tr = tr₁ ++ op :: tr₂ → op.starts y → s₀.pending = l₁ ++ y :: l₂ →
      .unregister y ∉ tr₁ ∧ ∀ e ∈ l₁, e ∈ handledEvents tr₁ ∨ .unregister e ∈ tr₁) ∧
    (s.inHandler = false → ∀ e ∈ s₀.pending, e ∈ handledEvents tr ∨ .unregister e ∈ tr) ∧
    (∀ tr₁ op tr₂ s₁, tr = tr₁ ++ op :: tr₂ → (eventLts useRaw).exec s₀ tr₁ = some s₁ →
      ∀ e ∈ s₁.touches op, e ∈ s₁.registered) ∧
    (∀ tr₁ e tr₂ s₁ s₂, tr = tr₁ ++ .postOwn e :: tr₂ →
      (eventLts useRaw).exec s₀ tr₁ = some s₁ → eventStep useRaw s₁ (.postOwn e) = some s₂ →
      (e ∈ s₁.stolen ∧ (s.inHandler = false → e ∈ handledEvents tr₂ ∨ .unregister e ∈ tr₂)) ∨
        (e ∈ s₂.pending ∧ s₂.Awake ∧ ((e ∈ s.pending ∧ s.Awake) ∨ .unregister e ∈ tr₂))) ∧
    tr.countP EventOp.isNext ≤ s₀.pending.length ∧
    (s.inHandler = true → ∃ op s', (op = .postTask ∨ op = .unregisterCount ∨ op.isNext = true) ∧
      eventStep useRaw s op = some s') := by
  have h₀ := eventInv_of_run hrun
  have hinv := hcall.callInv h₀
  have hnodup : s₀.pending.Nodup := (List.nodup_append.mp h₀.nodup).1
  have hsub := (List.sublist_append_left _ _).trans hinv.order
  refine ⟨⟨pending_postedBefore hrun, hsub, hnodup.sublist hsub⟩, ?_, ?_, ?_, ?_, ?_,
    exists_step_of_inHandler useRaw⟩
  · rintro tr₁ op tr₂ y l₁ l₂ rfl hop hlist
    obtain ⟨events, hsub, hmem⟩ := hcall.turn h₀ hop
    refine ⟨((hmem y).mp (List.mem_cons_self ..)).2.2, fun e he => ?_⟩
    by_contra hnot
    rw [not_or] at hnot
    have hL : e ∈ s₀.pending := hlist ▸ List.mem_append_left _ he
    have hwaits := (hmem e).mpr ⟨hL, hnot⟩
    rw [hlist] at hsub hnodup
    have hy : y ∉ l₁ := fun hy =>
      List.disjoint_of_nodup_append hnodup hy (List.mem_cons_self ..)
    have hlater := (sublist_of_notMem hy hsub).subset hwaits
    exact List.disjoint_of_nodup_append hnodup he hlater
  · intro hret e he
    have hgone := mt (hinv.waits e).mpr (by simp [EventState.stolen_eq_nil hret])
    tauto
  · rintro tr₁ op tr₂ s₁ rfl hs₁ e he
    have hexec := hcall.exec_eq
    rw [Kit.Lts.exec_append, hs₁] at hexec
    obtain ⟨s₂, hstep, -⟩ := Option.bind_eq_some_iff.mp (Option.bind_some .. ▸ hexec)
    have hrun₁ := Kit.Lts.run_append.mpr ⟨s₀, hrun, hs₁⟩
    exact (eventInv_of_run hrun₁).touches_registered (.of_step hstep) he
  · rintro tr₁ e tr₂ s₁ s₂ rfl hs₁ hs₂
    exact hcall.postOwn_cases h₀ hs₁ hs₂
  · have := hinv.returns
    omega

/-- Three events are posted, by two other threads and by the owner. -/
def threePosts : List EventOp :=
  [.register 1 true, .register 2 true, .register 3 true, .postStart 7 1, .postStart 8 3, .post 7 1,
    .kick 7, .postOwn 2, .post 8 3, .consume 1]

/-- The first handler unregisters the second event, which is waiting, posts the third one, which
is waiting as well, posts itself, and registers and posts the second event again. -/
def busyHandler : List EventOp :=
  [.unregister 2, .unregisterCount, .postOwn 3, .postOwn 1, .postTask, .register 2 true,
    .postOwn 2, .next (some 3), .next none]

theorem runPendingEvents_call_busyHandler : ∃ s₀ s, (eventLts false).Run threePosts s₀ ∧
    RunsPending false s₀ (.steal false (some 1) :: busyHandler) s ∧
    handledEvents (.steal false (some 1) :: busyHandler) = [1, 3] ∧ s.pending = [1, 2] ∧
    s.Awake ∧ ∀ e ∈ s₀.pending, e = 1 ∨ e = 3 ∨ .unregister e ∈ busyHandler := by
  have hmap : ((((eventLts false).exec ivEventInit threePosts).bind fun s₀ =>
      (eventStep false s₀ (.steal false (some 1))).bind fun s₁ =>
        ((handlerLts false).exec s₁ busyHandler).map fun s => (s₀, s₁, s)).map
      fun p => (p.2.2.inHandler, p.2.2.pending)) = some (false, [1, 2]) := by
    decide +kernel
  obtain ⟨⟨s₀, s₁, s⟩, hs, hend⟩ := Option.map_eq_some_iff.mp hmap
  obtain ⟨s₀', hrun, hs⟩ := Option.bind_eq_some_iff.mp hs
  obtain ⟨s₁', hsteal, hs⟩ := Option.bind_eq_some_iff.mp hs
  obtain ⟨s', hbody, heq⟩ := Option.map_eq_some_iff.mp hs
  simp only [Prod.mk.injEq] at hend heq
  obtain ⟨rfl, rfl, rfl⟩ := heq
  have hcall : RunsPending false s₀' (.steal false (some 1) :: busyHandler) s' :=
    ⟨false, some 1, busyHandler, s₁', rfl, hsteal, hbody⟩
  obtain ⟨-, -, hall, -, hposts, -⟩ := runPendingEvents_call hrun hcall
  refine ⟨s₀', s', hrun, hcall, rfl, hend.2, ?_, fun e he => ?_⟩
  · have hexec := hcall.exec_eq
    obtain ⟨s₂, hs₂, hexec⟩ := Option.bind_eq_some_iff.mp
      ((Kit.Lts.exec_append s₀' (.steal false (some 1) :: busyHandler.take 3)
        (.postOwn 1 :: busyHandler.drop 4)).symm.trans hexec)
    obtain ⟨s₃, hs₃, -⟩ := Option.bind_eq_some_iff.mp hexec
    rcases hposts _ 1 (busyHandler.drop 4) s₂ s₃ rfl hs₂ hs₃ with ⟨-, hlater⟩ | ⟨-, -, hlater⟩
    · exact absurd (hlater hend.1) (by decide)
    · rcases hlater with hlater | hun
      · exact hlater.2
      · exact absurd hun (by decide)
  · have hgone := hall hend.1 e he
    have hhandled : handledEvents (.steal false (some 1) :: busyHandler) = [1, 3] := rfl
    rw [hhandled] at hgone
    simp only [List.mem_cons, List.not_mem_nil, or_false, reduceCtorEq, false_or] at hgone
    tauto

end Ivykis
