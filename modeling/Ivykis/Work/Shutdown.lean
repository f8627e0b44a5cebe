import Ivykis.Work.ExactlyOnce

/-!
# The end of a work pool

`iv_work_event` frees the pool once it is being shut down, has no thread and has no item whose
completion is still to be called. It does not look at the queue, so the queue has to be empty by
then. A pool whose threads could not be created has items in the queue and nobody to take them.
-/

namespace Ivykis

open WorkState

variable {maxThreads : ℤ} {st st' : WorkState} {op : WorkOp} {tr : List WorkOp} {work : WorkPtr}

/-- The pool is not dropped while it has items in the queue and no thread, and the queue stays
shorter than the range of the sequence numbers. -/
def WorkState.orderly (st : WorkState) (op : WorkOp) : Prop :=
  (op = .put → st.startedThreads = 0 → st.workItems = []) ∧
    (op.isSubmit = true → st.workItems.length + 1 < 2 ^ 32)

instance (st : WorkState) (op : WorkOp) : Decidable (st.orderly op) :=
  inferInstanceAs (Decidable ((_ → _ → _) ∧ (_ → _)))

/-- Once the pool has a thread, or is being shut down, there is a thread for what is in the
queue. -/
def WorkState.Manned (st : WorkState) : Prop :=
  st.live.Nonempty ∨ st.shuttingDown = true → st.Covered

lemma WorkState.Manned.step (h : st.Manned) (hinv : WorkInv maxThreads st)
    (hlt : st.workItems.length < 2 ^ 32) (hput : op = .put → st.startedThreads = 0 →
      st.workItems = []) (hstep : WorkStep maxThreads st op st') : st'.Manned := by
  rcases hstep.cover hinv hlt with hcov | hkept | hun
  · exact fun _ => hcov
  · intro hmanned
    by_cases hlive : st.live.Nonempty
    · exact hkept.covered (h (Or.inl hlive))
    · -- no thread is started by such a step, so the pool is being shut down
      have hempty := Finset.not_nonempty_iff_eq_empty.mp hlive
      have hlive' : ¬ st'.live.Nonempty := fun hne => hlive (hne.mono hkept.live)
      have hdown' := hmanned.resolve_left hlive'
      rcases hkept.down with hdown | rfl
      · exact hkept.covered (h (Or.inr (hdown ▸ hdown')))
      · have hstarted : st.startedThreads = 0 := by
          rw [hinv.threads.started, hempty]
          rfl
        exact fun hne => absurd (hkept.items.trans (hput rfl hstarted)) hne
  · intro hmanned
    have hlive := hun.live'
    have hup := hun.up
    simp [hlive, hup] at hmanned

/-- Nothing is left in a pool that has been freed. -/
def WorkState.Drained (st : WorkState) : Prop :=
  st.freed = true → st.workItems = [] ∧ st.workDone = []

/-- `iv_work_event` finds the queue empty when it frees the pool. -/
lemma WorkStep.drained (hinv : WorkInv maxThreads st) (hmanned : st.Manned)
    (hstep : WorkStep maxThreads st op st') : st'.Drained := by
  intro hfreed'
  have hfreed := hinv.freed_eq_false hstep
  have hne : st'.freed ≠ st.freed := by simp [hfreed', hfreed]
  cases hstep with
  | free _ _ hdown hstarted hdone =>
    refine ⟨?_, hdone⟩
    by_contra hitems
    obtain ⟨t, ht, -⟩ := hmanned (Or.inr hdown) hitems
    have hcard := hinv.threads.started
    rw [hstarted] at hcard
    have hempty : st.live = ∅ := Finset.card_eq_zero.mp (by exact_mod_cast hcard.symm)
    simp [hempty] at ht
  | submit _ _ _ _ => exact absurd wakeForItem_freed hne
  | submitContinuation _ _ _ _ _ => exact absurd wakeForItem_freed hne
  | @startNeeded create _ _ _ _ _ _ =>
    exact absurd (by cases create <;> rfl) hne
  | enter _ _ _ _ hloop => exact absurd hloop.freed_eq hne
  | enterIdle _ _ _ _ hloop => exact absurd hloop.freed_eq hne
  | done _ _ _ hloop => exact absurd hloop.freed_eq hne
  | _ => exact absurd rfl hne

/-- What holds in every run in which the pool is dropped in an orderly way. -/
structure ShutdownInv (maxThreads : ℤ) (st : WorkState) : Prop where
  inv : WorkInv maxThreads st
  short : st.workItems.length < 2 ^ 32
  manned : st.Manned
  drained : st.Drained

lemma shutdownInv_init : ShutdownInv maxThreads ivWorkPoolCreate where
  inv := workInv_init
  short := Nat.two_pow_pos 32
  manned := fun _ hne => absurd rfl hne
  drained := fun hfreed => absurd hfreed Bool.false_ne_true

lemma shutdownInv_of_run
    (h : ((workLts maxThreads).restrict WorkState.orderly).Run tr st) :
    ShutdownInv maxThreads st := by
  refine Kit.Lts.Run.induct (P := fun _ st => ShutdownInv maxThreads st) shutdownInv_init ?_ h
  rintro _ s op s' - ⟨hinv, hlt, hmanned, -⟩ hstep
  obtain ⟨⟨hput, hsubmit⟩, hstep⟩ := Kit.Lts.restrict_step.mp hstep
  have hstep := WorkStep.of_step hstep
  exact ⟨hinv.step hstep, hstep.length_lt hlt hsubmit, hmanned.step hinv hlt hput hstep,
    hstep.drained hinv hmanned⟩

/-- An item that is nowhere in the pool any more has gone all the way. -/
lemma ItemInv.finished (h : ItemInv work tr st) (hsub : ∃ op ∈ tr, op.submits work = true)
    (hlive : st.live = ∅) (hitems : st.workItems = []) (hdone : st.workDone = [])
    (hstolen : st.stolen = []) :
    tr.countP (WorkOp.returns work) = 1 ∧ tr.countP (WorkOp.completes work) = 1 := by
  have hrunning : st.running work = 0 := by simp [running, hlive]
  have hpos := List.countP_pos_iff.mpr hsub
  obtain ⟨hsubmitted, -, hreturned, hcompleted, honce⟩ := h
  rw [hitems, hrunning, hdone, hstolen] at hsubmitted
  rw [hdone, hstolen] at hreturned
  simp only [List.count_nil] at hsubmitted hreturned
  exact ⟨by omega, by omega⟩

/-- A pool that is not dropped while it has items but no thread is freed only after its last
thread is gone, and after the work and the completion of every item have been called. -/
theorem freed_of_run (h : ((workLts maxThreads).restrict WorkState.orderly).Run tr st)
    (hfreed : st.freed = true) :
    st.live = ∅ ∧ ∀ work, (∃ op ∈ tr, op.submits work = true) →
      tr.countP (WorkOp.returns work) = 1 ∧ tr.countP (WorkOp.completes work) = 1 := by
  obtain ⟨hinv, -, -, hdrained⟩ := shutdownInv_of_run h
  obtain ⟨hlive, -, -, -, howner⟩ := hinv.freed hfreed
  obtain ⟨hitems, hdone⟩ := hdrained hfreed
  have hstolen : st.stolen = [] := by simp only [stolen, howner]
  exact ⟨hlive, fun work hsub =>
    (itemInv_of_run h.of_restrict work).finished hsub hlive hitems hdone hstolen⟩

/-- Two items, the second of which finds no memory for a thread of its own. The first thread takes
both, and is the last one out. -/
theorem freed_of_run_twoItems : ∃ st, ((workLts 2).restrict WorkState.orderly).Run
    [.submit 5 true 1, .submit 6 false 2, .put, .started 1, .gotEvent 1, .enter 1 (some 5),
      .done 1 5 (some 6), .event, .steal, .complete 5, .eventEnd, .done 1 6 none, .event, .steal,
      .complete 6, .eventEnd] st ∧ st.freed = true ∧ st.live = ∅ := by
  refine Kit.Lts.exists_run_of_decide (·.freed = true) (by decide) fun st hst hfreed => ?_
  exact ⟨hfreed, (freed_of_run hst hfreed).1⟩

/-- The only thread of the pool cannot be created, and the pool is dropped. It is freed with the
item still in the queue. -/
theorem freed_unfinished : ∃ st, (workLts 1).Run
    [.submit 5 false 1, .put, .event, .steal, .eventEnd] st ∧ st.freed = true ∧
      st.workItems = [5] ∧ st.completed = [] :=
  Kit.Lts.exists_run_of_decide _ (by decide) fun _ _ => id

end Ivykis
