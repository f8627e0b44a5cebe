import Mathlib.Algebra.BigOperators.Group.Finset.Piecewise
import Ivykis.Work.Properties

/-!
# Every item goes through the pool once

For each item its occurrences in the places where an item can be are counted, and compared with
how often the run has submitted it, has started its work, has come back from it and has called its
completion.
-/

namespace Ivykis

open WorkState

variable {maxThreads : ℤ} {st st' : WorkState} {op : WorkOp} {tr : List WorkOp}
  {thr t : ThreadId} {work : WorkPtr} {next : Option WorkPtr} {lastSeq : BitVec 32}

/-! ### The number of workers that run an item -/

/-- The number of workers that are running `work`. -/
def WorkState.running (st : WorkState) (work : WorkPtr) : ℕ :=
  (st.live.filter fun t => (st.threads t).pc.work = some work).card

lemma WorkState.running_eq_sum :
    st.running work = ∑ t ∈ st.live, if (st.threads t).pc.work = some work then 1 else 0 := by
  rw [running, Finset.card_filter]

lemma WorkState.running_eq_add (hthr : thr ∈ st.live) :
    st.running work = (if (st.threads thr).pc.work = some work then 1 else 0) +
      ∑ t ∈ st.live.erase thr, if (st.threads t).pc.work = some work then 1 else 0 := by
  rw [running_eq_sum]
  exact (Finset.add_sum_erase _ _ hthr).symm

/-- A thread that goes away no longer counts. -/
lemma WorkState.running_of_remove (hthr : thr ∈ st.live) (hlive : st'.live = st.live.erase thr)
    (hthreads : ∀ t ≠ thr, (st'.threads t).pc.work = (st.threads t).pc.work) :
    st'.running work + (if (st.threads thr).pc.work = some work then 1 else 0) =
      st.running work := by
  rw [running_eq_add hthr, running_eq_sum, hlive, Nat.add_comm]
  congr 1
  refine Finset.sum_congr rfl fun t ht => ?_
  rw [hthreads t (Finset.ne_of_mem_erase ht)]

/-- A thread that moves counts for its new item. -/
lemma WorkState.running_of_update (hthr : thr ∈ st.live) (hlive : st'.live = st.live)
    (hthreads : ∀ t ≠ thr, (st'.threads t).pc.work = (st.threads t).pc.work) :
    st'.running work + (if (st.threads thr).pc.work = some work then 1 else 0) =
      st.running work + (if (st'.threads thr).pc.work = some work then 1 else 0) := by
  have hsum : (∑ t ∈ st'.live.erase thr, if (st'.threads t).pc.work = some work then 1 else 0) =
      ∑ t ∈ st.live.erase thr, if (st.threads t).pc.work = some work then 1 else 0 := by
    rw [hlive]
    refine Finset.sum_congr rfl fun t ht => ?_
    rw [hthreads t (Finset.ne_of_mem_erase ht)]
  rw [running_eq_add hthr, running_eq_add (hlive ▸ hthr), hsum]
  omega

/-- A step that moves no thread from one item to another. -/
lemma WorkState.running_congr (hlive : st'.live = st.live)
    (hthreads : ∀ t, (st'.threads t).pc.work = (st.threads t).pc.work) :
    st'.running work = st.running work := by
  simp only [running, hlive, hthreads]

/-- The end of a loop moves its thread to the next item, if any. -/
lemma LoopEnd.running_eq (hloop : LoopEnd st thr lastSeq next st') (hthr : thr ∈ st.live)
    (work : WorkPtr) :
    st'.running work + (if (st.threads thr).pc.work = some work then 1 else 0) =
      st.running work + (if next = some work then 1 else 0) := by
  cases hloop with
  | @take item items _ _ =>
    have h : (st.takeItem thr lastSeq item items).running work + _ = _ :=
      running_of_update hthr rfl fun t ht => by simp [ht]
    simpa [WorkPc.work] using h
  | idle _ _ =>
    have h : (st.addIdle thr).running work + _ = _ :=
      running_of_update hthr rfl fun t ht => by simp [ht]
    simpa [WorkPc.work] using h
  | die _ _ =>
    have h : ((st.setPc thr .loop).removeThread thr).running work + _ = _ :=
      running_of_remove hthr rfl fun t ht => by simp [setPc, ht]
    simpa using h
  | again _ =>
    have h : (st.lookAgain thr).running work + _ = _ :=
      running_of_update hthr rfl fun t ht => by simp [ht]
    simpa [WorkPc.work] using h

/-- A thread that is added does not run anything. -/
lemma WorkState.running_addThread (hthr : thr ∉ st.live) :
    (st.addThread thr).running work = st.running work := by
  have hfilter : ((st.addThread thr).live.filter fun t =>
      ((st.addThread thr).threads t).pc.work = some work) =
      st.live.filter fun t => (st.threads t).pc.work = some work := by
    ext t
    simp only [Finset.mem_filter, addThread_live, Finset.mem_insert, addThread_threads]
    by_cases heq : t = thr
    · subst heq
      simp [WorkPc.work, hthr]
    · simp [heq]
  rw [running, hfilter, running]

/-! ### What a step does to an item -/

namespace WorkOp

variable (work)

/-- The step submits `work`. -/
def submits : WorkOp → Bool
  | .submit work' _ _           => work' == work
  | .submitContinuation _ work' => work' == work
  | _                           => false

/-- The step calls the work function of `work`. -/
def starts : WorkOp → Bool
  | .enter _ next  => next == some work
  | .done _ _ next => next == some work
  | _              => false

/-- The work function of `work` has returned. -/
def returns : WorkOp → Bool
  | .done _ work' _ => work' == work
  | _               => false

/-- The step calls the completion of `work`. -/
def completes : WorkOp → Bool
  | .complete work' => work' == work
  | _               => false

/-- The worker that takes the step, or `none` for the owner. -/
def worker : WorkOp → Option ThreadId
  | .submitContinuation thr _ => some thr
  | .started thr              => some thr
  | .gotEvent thr             => some thr
  | .enter thr _              => some thr
  | .done thr _ _             => some thr
  | .expire thr               => some thr
  | .timeout thr              => some thr
  | _                         => none

end WorkOp

/-- How the occurrences of an item change in a step. -/
structure ItemStep (work : WorkPtr) (st : WorkState) (op : WorkOp) (st' : WorkState) : Prop where
  queued : st'.workItems.count work + (op.starts work).toNat =
    st.workItems.count work + (op.submits work).toNat
  running : st'.running work + (op.returns work).toNat =
    st.running work + (op.starts work).toNat
  done : st'.workDone.count work + st'.stolen.count work + st'.completed.count work =
    st.workDone.count work + st.stolen.count work + st.completed.count work +
      (op.returns work).toNat
  completed : st'.completed.count work = st.completed.count work + (op.completes work).toNat

/-- A step that moves no item. -/
structure SameItems (work : WorkPtr) (st st' : WorkState) : Prop where
  queued : st'.workItems = st.workItems
  running : st'.running work = st.running work
  done : st'.workDone = st.workDone
  stolen : st'.stolen = st.stolen
  completed : st'.completed = st.completed

lemma SameItems.itemStep (h : SameItems work st st') (hsubmits : op.submits work = false)
    (hstarts : op.starts work = false) (hreturns : op.returns work = false)
    (hcompletes : op.completes work = false) : ItemStep work st op st' where
  queued := by rw [h.queued, hstarts, hsubmits]
  running := by rw [h.running, hstarts, hreturns]
  done := by
    rw [h.done, h.stolen, h.completed, hreturns]
    rfl
  completed := by
    rw [h.completed, hcompletes]
    rfl

lemma sameItems_setThread {f : WorkThread → WorkThread}
    (hf : (f (st.threads thr)).pc.work = (st.threads thr).pc.work) :
    SameItems work st (st.setThread thr f) := by
  refine ⟨rfl, running_congr rfl fun t => ?_, rfl, rfl, rfl⟩
  by_cases heq : t = thr
  · subst heq
    simpa using hf
  · simp [heq]

lemma sameItems_wakeForItem {fromOwner create : Bool} (hthr : fromOwner = true → thr ∉ st.live) :
    SameItems work st (wakeForItem maxThreads fromOwner create st thr) := by
  unfold wakeForItem
  split
  · exact sameItems_setThread rfl
  · split_ifs with hlt howner
    · unfold ivWorkStartThread
      split_ifs
      · exact ⟨rfl, running_addThread (hthr howner), rfl, rfl, rfl⟩
      · exact ⟨rfl, rfl, rfl, rfl, rfl⟩
    · exact ⟨rfl, rfl, rfl, rfl, rfl⟩
    · exact ⟨rfl, rfl, rfl, rfl, rfl⟩

/-- The occurrences of an item before and after the end of a loop. -/
lemma LoopEnd.items (hloop : LoopEnd st thr lastSeq next st') (work : WorkPtr) :
    st'.workItems.count work + (next == some work).toNat = st.workItems.count work ∧
      st'.workDone = st.workDone ∧ st'.stolen = st.stolen ∧ st'.completed = st.completed := by
  cases hloop with
  | @take item items _ hitems =>
    refine ⟨?_, rfl, rfl, rfl⟩
    rw [takeItem_workItems, hitems, List.count_cons]
    by_cases heq : item = work <;> simp [heq]
  | idle _ _ => exact ⟨rfl, rfl, rfl, rfl⟩
  | die _ _ => exact ⟨rfl, rfl, rfl, rfl⟩
  | again _ => exact ⟨rfl, rfl, rfl, rfl⟩

/-- A submission that moves no item but the new one. -/
lemma SameItems.itemStep_addItem {item : WorkPtr} (h : SameItems work (st.addItem item) st')
    (hsubmits : op.submits work = (item == work)) (hstarts : op.starts work = false)
    (hreturns : op.returns work = false) (hcompletes : op.completes work = false) :
    ItemStep work st op st' where
  queued := by
    rw [h.queued, addItem_workItems, List.count_append, List.count_singleton, hsubmits, hstarts]
    cases item == work <;> rfl
  running := by
    rw [h.running, hstarts, hreturns]
    rfl
  done := by
    rw [h.done, h.stolen, h.completed, hreturns]
    rfl
  completed := by
    rw [h.completed, hcompletes]
    rfl

/-- The locked part of the handler, in which the item of the thread that has come back from it, if
any, has been put on the list `work_done`. -/
lemma LoopEnd.itemStep {st₁ : WorkState} (hloop : LoopEnd st₁ thr lastSeq next st')
    (hthr : thr ∈ st₁.live) (hqueued : st₁.workItems = st.workItems)
    (hrunning : st₁.running work = st.running work)
    (hdone : st₁.workDone.count work = st.workDone.count work + (op.returns work).toNat)
    (hstolen : st₁.stolen = st.stolen) (hcompleted : st₁.completed = st.completed)
    (hpc : (if (st₁.threads thr).pc.work = some work then 1 else 0) = (op.returns work).toNat)
    (hstarts : op.starts work = (next == some work)) (hsubmits : op.submits work = false)
    (hcompletes : op.completes work = false) : ItemStep work st op st' := by
  obtain ⟨hq, hd, hs, hc⟩ := hloop.items work
  refine ⟨?_, ?_, ?_, ?_⟩
  · rw [hstarts, hq, hqueued, hsubmits]
    rfl
  · have hr := hloop.running_eq hthr work
    rw [hpc, hrunning] at hr
    rw [hr, hstarts]
    by_cases heq : next = some work <;> simp [heq]
  · rw [hd, hs, hc, hdone, hstolen, hcompleted]
    omega
  · rw [hc, hcompleted, hcompletes]
    rfl

lemma WorkStep.itemStep (hstep : WorkStep maxThreads st op st') : ItemStep work st op st' := by
  cases hstep with
  | submit _ _ hthr _ =>
    exact SameItems.itemStep_addItem (sameItems_wakeForItem fun _ => hthr) rfl rfl rfl rfl
  | submitContinuation _ _ _ _ _ =>
    exact SameItems.itemStep_addItem (sameItems_wakeForItem (by simp)) rfl rfl rfl rfl
  | putLast _ _ => exact SameItems.itemStep ⟨rfl, rfl, rfl, rfl, rfl⟩ rfl rfl rfl rfl
  | put _ _ =>
    refine SameItems.itemStep ⟨rfl, running_congr rfl fun t => ?_, rfl, rfl, rfl⟩ rfl rfl rfl rfl
    rw [postKicks_threads]
    split_ifs <;> rfl
  | event howner _ =>
    refine SameItems.itemStep ⟨rfl, rfl, rfl, ?_, rfl⟩ rfl rfl rfl rfl
    simp only [stolen, howner]
  | steal howner _ =>
    refine ⟨rfl, rfl, ?_, rfl⟩
    simp only [stolen, howner, List.count_nil, WorkOp.returns, Bool.toNat_false]
    omega
  | @complete item items howner =>
    refine ⟨rfl, rfl, ?_, ?_⟩
    · simp only [stolen, howner, List.count_cons, WorkOp.returns, Bool.toNat_false]
      omega
    · rw [List.count_cons]
      simp only [WorkOp.completes]
      cases item == work <;> rfl
  | eventEnd howner _ =>
    refine SameItems.itemStep ⟨rfl, rfl, rfl, ?_, rfl⟩ rfl rfl rfl rfl
    simp only [stolen, howner]
  | free howner _ _ _ _ =>
    refine SameItems.itemStep ⟨rfl, rfl, rfl, ?_, rfl⟩ rfl rfl rfl rfl
    simp only [stolen, howner]
  | needed howner _ =>
    refine SameItems.itemStep ⟨rfl, rfl, rfl, ?_, rfl⟩ rfl rfl rfl rfl
    simp only [stolen, howner]
  | @startNeeded create thr howner hthr _ _ _ =>
    have hstolen : { st with owner := .loop }.stolen = st.stolen := by simp only [stolen, howner]
    unfold ivWorkStartThread
    split_ifs
    · exact SameItems.itemStep ⟨rfl, running_addThread hthr, rfl, hstolen, rfl⟩ rfl rfl rfl rfl
    · exact SameItems.itemStep ⟨rfl, rfl, rfl, hstolen, rfl⟩ rfl rfl rfl rfl
  | startedEnough howner _ =>
    refine SameItems.itemStep ⟨rfl, rfl, rfl, ?_, rfl⟩ rfl rfl rfl rfl
    simp only [stolen, howner]
  | @started thr hthr hpc =>
    have hsame : SameItems work st
        (st.setThread thr fun t => { t with pc := .loop, kickPosted := true }) :=
      sameItems_setThread (by simp [hpc, WorkPc.work])
    exact SameItems.itemStep hsame rfl rfl rfl rfl
  | gotEvent _ hpc _ =>
    exact (sameItems_setThread (by simp [hpc, WorkPc.work])).itemStep rfl rfl rfl rfl
  | @enter thr next _ hthr hpc _ _ hloop =>
    refine hloop.itemStep hthr rfl ?_ rfl rfl rfl ?_ rfl rfl rfl
    · exact (sameItems_setThread rfl).running
    · simp [hpc, WorkPc.work, WorkOp.returns]
  | @enterIdle thr next _ hthr hpc _ _ hloop =>
    refine hloop.itemStep hthr rfl ?_ rfl rfl rfl ?_ rfl rfl rfl
    · refine running_congr rfl fun t => ?_
      by_cases heq : t = thr
      · simp [heq]
      · simp [heq]
    · simp [hpc, WorkPc.work, WorkOp.returns]
  | @done thr item lastSeq _ next _ hthr hpc _ hloop =>
    refine hloop.itemStep hthr rfl rfl ?_ rfl rfl ?_ rfl rfl rfl
    · rw [addDone_workDone, List.count_append, List.count_singleton]
      simp only [WorkOp.returns]
      cases item == work <;> rfl
    · simp only [addDone_threads, hpc, WorkPc.work, WorkOp.returns, Option.some.injEq]
      by_cases heq : item = work
      · simp [heq]
      · simp [heq, beq_eq_false_iff_ne.mpr heq]
  | expire _ _ _ => exact (sameItems_setThread rfl).itemStep rfl rfl rfl rfl
  | timeoutKicked _ _ _ _ _ => exact (sameItems_setThread rfl).itemStep rfl rfl rfl rfl
  | @timeout thr hthr hpc _ _ _ =>
    have hrun : ((st.unidle thr).removeThread thr).running work + _ = _ :=
      running_of_remove hthr rfl fun t ht => by simp [ht]
    refine SameItems.itemStep ⟨rfl, ?_, rfl, rfl, rfl⟩ rfl rfl rfl rfl
    simpa [hpc, WorkPc.work] using hrun

/-! ### Counting over a run -/

/-- What a run has done to an item, and where the item is. -/
structure ItemInv (work : WorkPtr) (tr : List WorkOp) (st : WorkState) : Prop where
  submitted : st.workItems.count work + st.running work + st.workDone.count work +
    st.stolen.count work + st.completed.count work = tr.countP (WorkOp.submits work)
  started : st.running work + st.workDone.count work + st.stolen.count work +
    st.completed.count work = tr.countP (WorkOp.starts work)
  returned : st.workDone.count work + st.stolen.count work + st.completed.count work =
    tr.countP (WorkOp.returns work)
  completed : st.completed.count work = tr.countP (WorkOp.completes work)
  once : tr.countP (WorkOp.submits work) ≤ 1

lemma itemInv_init : ItemInv work [] ivWorkPoolCreate :=
  ⟨rfl, rfl, rfl, rfl, Nat.zero_le _⟩

lemma countP_snoc (p : WorkOp → Bool) : (tr ++ [op]).countP p = tr.countP p + (p op).toNat := by
  rw [List.countP_append, List.countP_singleton]
  cases p op <;> rfl

/-- An item that has not been submitted is nowhere. -/
lemma WorkState.fresh.count_eq_zero (h : st.fresh work) :
    st.workItems.count work + st.running work + st.workDone.count work + st.stolen.count work +
      st.completed.count work = 0 := by
  obtain ⟨hqueued, hdone, hstolen, hcompleted, hrunning⟩ := h
  have hcard : st.running work = 0 := by
    rw [running, Finset.card_eq_zero, Finset.filter_eq_empty_iff]
    exact hrunning
  rw [List.count_eq_zero.mpr hqueued, List.count_eq_zero.mpr hdone,
    List.count_eq_zero.mpr hstolen, List.count_eq_zero.mpr hcompleted, hcard]

lemma WorkStep.fresh_of_submits (hstep : WorkStep maxThreads st op st')
    (hop : op.submits work = true) : st.fresh work := by
  cases hstep with
  | submit _ hfresh _ _ => exact eq_of_beq hop ▸ hfresh
  | submitContinuation _ _ _ hfresh _ => exact eq_of_beq hop ▸ hfresh
  | _ => exact absurd hop Bool.false_ne_true

lemma ItemInv.step (h : ItemInv work tr st) (hstep : WorkStep maxThreads st op st') :
    ItemInv work (tr ++ [op]) st' := by
  have hitem : ItemStep work st op st' := hstep.itemStep
  obtain ⟨hqueued, hrunning, hdone, hcompleted⟩ := hitem
  obtain ⟨hsub, hsta, hret, hcom, honce⟩ := h
  refine ⟨?_, ?_, ?_, ?_, ?_⟩
  · rw [countP_snoc]
    omega
  · rw [countP_snoc]
    omega
  · rw [countP_snoc]
    omega
  · rw [countP_snoc]
    omega
  · rw [countP_snoc]
    cases hop : op.submits work with
    | false => exact honce
    | true =>
      have hzero := (hstep.fresh_of_submits hop).count_eq_zero
      rw [hsub] at hzero
      rw [hzero]
      rfl

lemma itemInv_of_run (h : (workLts maxThreads).Run tr st) (work : WorkPtr) :
    ItemInv work tr st := by
  refine Kit.Lts.Run.induct (P := ItemInv work) itemInv_init ?_ h
  intro _ _ _ _ _ hinv hstep
  exact hinv.step (WorkStep.of_step hstep)

/-! ### The range of the sequence numbers -/

/-- The number of items that have been taken from the queue since the callback was called. -/
def WorkPc.takenSince (taken : ℕ) : WorkPc → ℕ
  | .running _ _ takenAt => taken - takenAt
  | _                    => 0

/-- The step takes an item from the queue. -/
def WorkOp.isTake : WorkOp → Bool
  | .enter _ next  => next.isSome
  | .done _ _ next => next.isSome
  | _              => false

/-- Fewer than `2 ^ 31` items are in the queue, and fewer are taken from it during a callback. -/
def WorkState.inRange (st : WorkState) (op : WorkOp) : Prop :=
  (op.isSubmit = true → st.workItems.length + 1 < 2 ^ 31) ∧
    (op.isTake = true → ∀ t ∈ st.live, op.worker ≠ some t →
      (st.threads t).pc.takenSince (st.taken + 1) < 2 ^ 31)

instance (st : WorkState) (op : WorkOp) : Decidable (st.inRange op) :=
  inferInstanceAs (Decidable ((_ → _) ∧ (_ → ∀ t ∈ st.live, _)))

/-- The value of `last_seq` in a callback stands for a counter that is not behind what had been
taken when the callback was called, nor ahead of what has been submitted. -/
def WorkPc.RangeOk (taken len : ℕ) : WorkPc → Prop
  | .running _ lastSeq takenAt => ∃ last, lastSeq = BitVec.ofNat 32 last ∧ takenAt ≤ last ∧
      last ≤ taken + len ∧ taken < takenAt + 2 ^ 31
  | _ => True

lemma WorkPc.rangeOk_of_work_eq_none {pc : WorkPc} {taken len : ℕ} (h : pc.work = none) :
    pc.RangeOk taken len := by
  cases pc with
  | running work lastSeq takenAt => simp [WorkPc.work] at h
  | _ => trivial

lemma WorkPc.RangeOk.mono {pc : WorkPc} {taken len len' : ℕ} (h : pc.RangeOk taken len)
    (hle : len ≤ len') : pc.RangeOk taken len' := by
  cases pc with
  | running work lastSeq takenAt =>
    obtain ⟨last, hseq, hge, hlast, hlt⟩ := h
    exact ⟨last, hseq, hge, by omega, hlt⟩
  | _ => trivial

/-- Another thread takes an item. -/
lemma WorkPc.RangeOk.take {pc : WorkPc} {taken len : ℕ} (h : pc.RangeOk taken (len + 1))
    (hlt : pc.takenSince (taken + 1) < 2 ^ 31) : pc.RangeOk (taken + 1) len := by
  cases pc with
  | running work lastSeq takenAt =>
    obtain ⟨last, hseq, hge, hlast, -⟩ := h
    simp only [WorkPc.takenSince] at hlt
    exact ⟨last, hseq, hge, by omega, by omega⟩
  | _ => trivial

structure WorkState.RangeOk (st : WorkState) : Prop where
  short : st.workItems.length < 2 ^ 31
  running : ∀ t ∈ st.live, (st.threads t).pc.RangeOk st.taken st.workItems.length

lemma rangeOk_init : ivWorkPoolCreate.RangeOk :=
  ⟨Nat.two_pow_pos 31, fun t ht => absurd ht (Finset.notMem_empty t)⟩

namespace WorkState.RangeOk

variable (h : st.RangeOk)
include h

/-- A step that takes nothing from the queue and calls no callback. -/
lemma of_pc (hshort : st'.workItems.length < 2 ^ 31) (htaken : st'.taken = st.taken)
    (hle : st.workItems.length ≤ st'.workItems.length)
    (hpc : ∀ t ∈ st'.live, (st'.threads t).pc.work = none ∨
      (t ∈ st.live ∧ (st'.threads t).pc = (st.threads t).pc)) : st'.RangeOk := by
  refine ⟨hshort, fun t ht => ?_⟩
  rcases hpc t ht with hnone | ⟨hlive, heq⟩
  · exact WorkPc.rangeOk_of_work_eq_none hnone
  · rw [heq, htaken]
    exact (h.running t hlive).mono hle

/-- A step that changes one thread, without calling a callback in it. -/
lemma of_update {f : WorkThread} (hitems : st'.workItems = st.workItems)
    (htaken : st'.taken = st.taken) (hlive : st'.live ⊆ st.live)
    (hthreads : st'.threads = Function.update st.threads thr f)
    (hf : f.pc.work = none ∨ f.pc = (st.threads thr).pc) : st'.RangeOk := by
  refine h.of_pc (hitems ▸ h.short) htaken (by rw [hitems]) fun t ht => ?_
  by_cases heq : t = thr
  · subst heq
    rw [hthreads, Function.update_self]
    exact hf.imp_right fun hpc => ⟨hlive ht, hpc⟩
  · rw [hthreads, Function.update_of_ne heq]
    exact Or.inr ⟨hlive ht, rfl⟩

/-- The test of the loop is met only if there is an item left that had been submitted when
`last_seq` was set. -/
lemma lt_of_pos {last takenAt : ℕ} (hseq : st.SeqOk) (hge : takenAt ≤ last)
    (hlast : last ≤ st.taken + st.workItems.length) (hlt : st.taken < takenAt + 2 ^ 31) :
    0 < (BitVec.ofNat 32 last - st.seqHead).toInt ↔ st.taken < last := by
  have hshort := h.short
  rw [hseq.head]
  exact Kit.toInt_ofNat_sub_ofNat_pos (by omega) (by omega)

lemma loopEnd {last : ℕ} (hthr : thr ∈ st.live)
    (hpos : 0 < (BitVec.ofNat 32 last - st.seqHead).toInt → st.taken < last)
    (hlast : last ≤ st.taken + st.workItems.length)
    (hothers : next.isSome = true → ∀ t ∈ st.live, t ≠ thr →
      (st.threads t).pc.takenSince (st.taken + 1) < 2 ^ 31)
    (hloop : LoopEnd st thr (BitVec.ofNat 32 last) next st') : st'.RangeOk := by
  cases hloop with
  | @take work items hseq hitems =>
    have hshort := h.short
    rw [hitems, List.length_cons] at hshort hlast
    refine ⟨by rw [takeItem_workItems]; omega, fun t ht => ?_⟩
    by_cases heq : t = thr
    · subst heq
      have hlt := hpos hseq
      simp only [takeItem_threads, Function.update_self, takeItem_taken, takeItem_workItems]
      exact ⟨last, rfl, hlt, by omega, by omega⟩
    · simp only [takeItem_threads, Function.update_of_ne heq, takeItem_taken,
        takeItem_workItems]
      have hpc := h.running t ht
      rw [hitems, List.length_cons] at hpc
      exact hpc.take (hothers rfl t ht heq)
  | idle _ _ => exact h.of_update rfl rfl subset_rfl rfl (Or.inl rfl)
  | die _ _ => exact h.of_update rfl rfl (Finset.erase_subset _ _) rfl (Or.inl rfl)
  | again _ => exact h.of_update rfl rfl subset_rfl rfl (Or.inl rfl)

/-- The first test of the loop, for which `last_seq` has just been set. -/
lemma loopEnd_seqTail (hseq : st.SeqOk) (hthr : thr ∈ st.live)
    (hothers : next.isSome = true → ∀ t ∈ st.live, t ≠ thr →
      (st.threads t).pc.takenSince (st.taken + 1) < 2 ^ 31)
    (hloop : LoopEnd st thr st.seqTail next st') : st'.RangeOk := by
  rw [hseq.tail] at hloop
  have hpos := h.lt_of_pos hseq (Nat.le_add_right st.taken st.workItems.length) le_rfl (by omega)
  exact h.loopEnd hthr hpos.mp le_rfl hothers hloop

lemma addThread : (st.addThread thr).RangeOk := by
  refine h.of_pc h.short rfl le_rfl fun t ht => ?_
  by_cases heq : t = thr
  · subst heq
    exact Or.inl (by simp [WorkPc.work])
  · exact Or.inr ⟨Finset.mem_of_mem_insert_of_ne ht heq, by simp [heq]⟩

lemma addItem (hlt : st.workItems.length + 1 < 2 ^ 31) : (st.addItem work).RangeOk := by
  refine h.of_pc ?_ rfl ?_ fun t ht => Or.inr ⟨ht, rfl⟩
  · rwa [addItem_workItems, List.length_append, List.length_singleton]
  · rw [addItem_workItems, List.length_append]
    exact Nat.le_add_right _ _

lemma wakeForItem {fromOwner create : Bool} :
    (wakeForItem maxThreads fromOwner create st thr).RangeOk := by
  unfold Ivykis.wakeForItem
  split
  · exact h.of_update rfl rfl subset_rfl rfl (Or.inr rfl)
  · split_ifs
    · unfold ivWorkStartThread
      split_ifs
      · exact h.addThread
      · exact h
    · exact ⟨h.short, h.running⟩
    · exact h

/-- Every step that meets the condition keeps the sequence numbers comparable. -/
lemma step (hseq : st.SeqOk) (hcond : st.inRange op) (hstep : WorkStep maxThreads st op st') :
    st'.RangeOk := by
  obtain ⟨hsubmit, hothers⟩ := hcond
  cases hstep with
  | submit _ _ _ _ => exact (h.addItem (hsubmit rfl)).wakeForItem
  | submitContinuation _ _ _ _ _ => exact (h.addItem (hsubmit rfl)).wakeForItem
  | put _ _ =>
    refine h.of_pc h.short rfl le_rfl fun t ht => Or.inr ⟨ht, ?_⟩
    rw [postKicks_threads]
    split_ifs <;> rfl
  | startNeeded _ _ _ _ _ =>
    have hst : { st with owner := .loop }.RangeOk := ⟨h.short, h.running⟩
    unfold ivWorkStartThread
    split_ifs
    · exact hst.addThread
    · exact hst
  | started _ _ => exact h.of_update rfl rfl subset_rfl rfl (Or.inl rfl)
  | gotEvent _ _ _ => exact h.of_update rfl rfl subset_rfl rfl (Or.inl rfl)
  | @enter thr next _ hthr _ _ _ hloop =>
    have hst : (st.setThread thr fun t => { t with kicked := false }).RangeOk :=
      h.of_update rfl rfl subset_rfl rfl (Or.inr rfl)
    refine hst.loopEnd_seqTail ⟨hseq.head, hseq.tail⟩ hthr (fun hnext t ht hne => ?_) hloop
    simp only [setThread_threads, Function.update_of_ne hne]
    exact hothers hnext t ht fun heq => hne (Option.some.inj heq).symm
  | @enterIdle thr next _ hthr _ _ _ hloop =>
    have hst : (st.unidle thr).RangeOk := h.of_update rfl rfl subset_rfl rfl (Or.inr rfl)
    refine hst.loopEnd_seqTail ⟨hseq.head, hseq.tail⟩ hthr (fun hnext t ht hne => ?_) hloop
    simp only [unidle_threads, Function.update_of_ne hne]
    exact hothers hnext t ht fun heq => hne (Option.some.inj heq).symm
  | @done thr work lastSeq takenAt next _ hthr hpc _ hloop =>
    have hst : (st.addDone work).RangeOk := ⟨h.short, h.running⟩
    have hrange := h.running thr hthr
    rw [hpc] at hrange
    obtain ⟨last, rfl, hge, hlast, hlt⟩ := hrange
    refine hst.loopEnd hthr (h.lt_of_pos hseq hge hlast hlt).mp hlast ?_ hloop
    intro hnext t ht hne
    exact hothers hnext t ht fun heq => hne (Option.some.inj heq).symm
  | expire _ _ _ => exact h.of_update rfl rfl subset_rfl rfl (Or.inr rfl)
  | timeoutKicked _ _ _ _ _ => exact h.of_update rfl rfl subset_rfl rfl (Or.inr rfl)
  | timeout _ _ _ _ _ =>
    exact h.of_update rfl rfl (Finset.erase_subset _ _) rfl (Or.inr rfl)
  | _ => exact ⟨h.short, h.running⟩

/-- No item is taken from the empty queue. -/
lemma not_takesNone (hseq : st.SeqOk) : ¬ st.TakesNone op := by
  rintro ⟨hitems, ⟨thr, next, -, hpos⟩ | ⟨thr, work, next, lastSeq, takenAt, -, hthr, hpc, hpos⟩⟩
  · have htail := hseq.tail
    rw [hitems, List.length_nil, Nat.add_zero, ← hseq.head] at htail
    simp [htail] at hpos
  · have hrange := h.running thr hthr
    rw [hpc] at hrange
    obtain ⟨last, rfl, hge, hlast, hlt⟩ := hrange
    have := (h.lt_of_pos hseq hge hlast hlt).mp hpos
    rw [hitems, List.length_nil] at hlast
    omega

end WorkState.RangeOk

lemma rangeOk_of_run (h : ((workLts maxThreads).restrict WorkState.inRange).Run tr st) :
    WorkInv maxThreads st ∧ st.RangeOk := by
  refine Kit.Lts.Run.induct (P := fun _ st => WorkInv maxThreads st ∧ st.RangeOk)
    ⟨workInv_init, rangeOk_init⟩ ?_ h
  rintro _ s op s' - ⟨hinv, hrange⟩ hstep
  obtain ⟨hcond, hstep⟩ := Kit.Lts.restrict_step.mp hstep
  have hstep := WorkStep.of_step hstep
  exact ⟨hinv.step hstep, hrange.step hinv.seq hcond hstep⟩

lemma WorkStep.stolen_of_completes (hstep : WorkStep maxThreads st op st')
    (hop : op.completes work = true) : op.worker = none ∧ work ∈ st.stolen := by
  cases hstep with
  | complete howner =>
    refine ⟨rfl, ?_⟩
    simp only [stolen, howner, ← eq_of_beq hop, List.mem_cons_self]
  | _ => exact absurd hop Bool.false_ne_true

/-- As long as fewer than `2 ^ 31` items are in the queue and fewer than `2 ^ 31` are taken from
it during a callback, every item that has been submitted is in exactly one place. Its work is done
once at most and so is its completion, in the owner and after the work has been done. The sequence
numbers tell the length of the queue, and no step of the pool fails. -/
theorem work_exactlyOnce (h : ((workLts maxThreads).restrict WorkState.inRange).Run tr st) :
    (∀ work, (∃ op ∈ tr, op.submits work = true) →
      st.workItems.count work + st.running work + st.workDone.count work +
        st.stolen.count work + st.completed.count work = 1) ∧
    (∀ work, tr.countP (WorkOp.starts work) ≤ 1 ∧ tr.countP (WorkOp.completes work) ≤ 1) ∧
    (∀ tr₁ op tr₂ work, tr = tr₁ ++ op :: tr₂ → op.completes work = true →
      op.worker = none ∧ ∃ op' ∈ tr₁, op'.returns work = true) ∧
    (st.seqTail - st.seqHead).toNat = st.workItems.length ∧
    ∀ op f, workStep maxThreads st op ≠ some (.error f) := by
  obtain ⟨hinv, hrange⟩ := rangeOk_of_run h
  have hrun := h.of_restrict
  refine ⟨fun work hsub => ?_, fun work => ?_, fun tr₁ op tr₂ work htr hop => ?_, ?_,
    fun op f herr => ?_⟩
  · have hitem := itemInv_of_run hrun work
    have hpos := List.countP_pos_iff.mpr hsub
    have := hitem.submitted
    have := hitem.once
    omega
  · obtain ⟨hsub, hsta, hret, hcom, honce⟩ := itemInv_of_run hrun work
    refine ⟨?_, ?_⟩
    · omega
    · omega
  · -- the run up to the completion, which finds the item on the stolen list
    subst htr
    obtain ⟨s₁, s₂, hrun₁, hstep, -⟩ := Kit.Lts.run_append_cons.mp hrun
    obtain ⟨hworker, hstolen⟩ := (WorkStep.of_step hstep).stolen_of_completes hop
    refine ⟨hworker, List.countP_pos_iff.mp ?_⟩
    rw [← (itemInv_of_run hrun₁ work).returned]
    have := List.count_pos_iff.mpr hstolen
    omega
  · exact hinv.seq.toNat_sub (by have := hrange.short; omega)
  · exact hrange.not_takesNone hinv.seq (hinv.fault herr).2

/-- Two threads work on an item each. The callback of the first item submits a continuation, which
the second thread takes, while the owner completes the two items. -/
def continued : List WorkOp :=
  [.submit 5 true 1, .submit 6 true 2, .started 1, .started 2, .gotEvent 1, .gotEvent 2,
    .enter 1 (some 5), .enter 2 (some 6), .submitContinuation 1 7, .done 2 6 none, .done 1 5 none,
    .gotEvent 2, .event, .steal, .complete 6, .enter 2 (some 7), .complete 5, .eventEnd,
    .done 2 7 none, .event, .steal, .complete 7]

theorem work_exactlyOnce_continued :
    ∃ st, ((workLts 2).restrict WorkState.inRange).Run continued st ∧ st.completed = [7, 5, 6] ∧
      ∀ work ∈ [5, 6, 7], st.workItems.count work + st.running work + st.workDone.count work +
        st.stolen.count work + st.completed.count work = 1 := by
  refine Kit.Lts.exists_run_of_decide (·.completed = [7, 5, 6]) (by decide)
    fun st hst hcompleted => ⟨hcompleted, fun work hwork => (work_exactlyOnce hst).1 work ?_⟩
  have hsubmitted : ∀ work ∈ [5, 6, 7], ∃ op ∈ continued, op.submits work = true := by decide
  exact hsubmitted work hwork

end Ivykis
