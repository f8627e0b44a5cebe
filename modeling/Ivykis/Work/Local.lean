import Ivykis.Task.Rounds
import Ivykis.Work.Basic

/-!
# Work without a pool (`iv_work.c`)

Work that is submitted to the pool `NULL` is done by the thread itself. It waits on the list
`work_items` of the thread, whose task is registered when the first item comes and runs
`iv_work_handle_local`. This steals the list and works it off, and its callbacks may submit more.

The task has the epoch of the current call of `iv_run_tasks` from then on, so that registering it
again puts it off to the next call (see `Ivykis.Task.Basic`).
-/

namespace Ivykis

/-- The address of the `task` of the thread's `struct iv_work_thr_info`. -/
def localTask : TaskPtr := 0

/-- Where a thread is in `iv_work_handle_local`; `items` is the rest of the stolen list. -/
inductive LocalPc where
  | outside
  | loop (items : List WorkPtr)
  /-- In the work function of `work`. -/
  | work (work : WorkPtr) (items : List WorkPtr)
  /-- In the completion function of `work`. -/
  | completion (work : WorkPtr) (items : List WorkPtr)
  deriving DecidableEq, Repr

/-- A thread that uses tasks, and its `struct iv_work_thr_info`. -/
structure LocalWork where
  task      : TaskLoop
  workItems : List WorkPtr
  pc        : LocalPc

/-- What is left on the stolen list. -/
def LocalPc.items : LocalPc → List WorkPtr
  | .outside            => []
  | .loop items         => items
  | .work _ items       => items
  | .completion _ items => items

/-- The loop of `iv_work_handle_local` does not run while user code does. -/
def LocalPc.inUserCode : LocalPc → Bool
  | .loop _ => false
  | _       => true

/-- The items that have been submitted and not been taken up. -/
def LocalWork.waiting (s : LocalWork) : List WorkPtr :=
  s.pc.items ++ s.workItems

/-- `iv_work_submit_local`. -/
def ivWorkSubmitLocal (s : LocalWork) (work : WorkPtr) : Except Fault LocalWork := do
  let st ← if s.workItems = [] then ivTaskRegister s.task.st localTask else .ok s.task.st
  .ok { s with task := { s.task with st := st }, workItems := s.workItems ++ [work] }

/-- `iv_work_handle_local` up to its loop. -/
def handleLocalStart (s : LocalWork) : LocalWork :=
  { s with workItems := [], pc := .loop s.workItems }

/-! ### Runs -/

inductive LocalLabel where
  /-- A step of `iv_run_tasks`, or what user code does with other tasks. -/
  | task (a : TaskLabel)
  /-- `iv_work_pool_submit_work` or `iv_work_pool_submit_continuation` for the pool `NULL`. -/
  | submit (continuation : Bool) (work : WorkPtr)
  /-- The first item of the list is taken off, and its work function is called. -/
  | work (work : WorkPtr)
  /-- The work function has returned, and the completion function is called. -/
  | completion (work : WorkPtr)
  /-- The completion function returns. -/
  | done
  deriving DecidableEq, Repr

/-- One step. User code does not touch the task, and it does not submit an item that is still
waiting. -/
def localStep (s : LocalWork) : LocalLabel → Option LocalWork
  | .task (.call t) =>
    (taskLoopStep s.task (.call t)).map fun task =>
      if t = localTask then handleLocalStart { s with task := task } else { s with task := task }
  | .task .ret =>
    -- the handler that returns is that of another task, or the loop is over
    if s.pc = .outside ∨ s.pc = .loop [] then
      (taskLoopStep s.task .ret).map fun task => { s with task := task, pc := .outside }
    else none
  | .task a =>
    if a.uses localTask ∨ s.pc.inUserCode = false then none
    else (taskLoopStep s.task a).map fun task => { s with task := task }
  | .submit _ work =>
    if s.task.pc.inUserCode ∧ s.pc.inUserCode ∧ work ∉ s.waiting then
      (ivWorkSubmitLocal s work).toOption
    else none
  | .work work =>
    match s.pc with
    | .loop (w :: items) => if w = work then some { s with pc := .work w items } else none
    | _                  => none
  | .completion work =>
    match s.pc with
    | .work w items => if w = work then some { s with pc := .completion w items } else none
    | _             => none
  | .done =>
    match s.pc with
    | .completion _ items => some { s with pc := .loop items }
    | _                   => none

/-- A thread from `iv_work_tls_init_thread` on, when its task is initialised with the epoch `e'`. -/
def localLts (e e' : BitVec 32) : Kit.Lts LocalWork LocalLabel where
  init := ⟨⟨(ivTaskInit e).initTask localTask e', .outside⟩, [], .outside⟩
  step := localStep

/-! ### Steps -/

variable {s s' s₁ s₂ : LocalWork} {a : LocalLabel} {t : TaskPtr} {w : WorkPtr}
  {items : List WorkPtr}

/-- `localStep` by cases. -/
inductive LocalWorkStep (s : LocalWork) : LocalLabel → LocalWork → Prop where
  /-- Other tasks. -/
  | task {a : TaskLabel} {task : TaskLoop} (ha : a.uses localTask = false)
      (hret : a = .ret → s.pc = .outside) (h : TaskLoopStep s.task a task) :
      LocalWorkStep s (.task a) { s with task := task }
  | call {task : TaskLoop} (h : TaskLoopStep s.task (.call localTask) task) :
      LocalWorkStep s (.task (.call localTask)) (handleLocalStart { s with task := task })
  | ret {task : TaskLoop} (hpc : s.pc = .loop []) (h : TaskLoopStep s.task .ret task) :
      LocalWorkStep s (.task .ret) { s with task := task, pc := .outside }
  | submit {continuation : Bool} {work : WorkPtr} {s' : LocalWork}
      (hpc : s.task.pc.inUserCode = true) (hlocal : s.pc.inUserCode = true)
      (hnew : work ∉ s.waiting) (h : ivWorkSubmitLocal s work = .ok s') :
      LocalWorkStep s (.submit continuation work) s'
  | work {w : WorkPtr} {items : List WorkPtr} (hpc : s.pc = .loop (w :: items)) :
      LocalWorkStep s (.work w) { s with pc := .work w items }
  | completion {w : WorkPtr} {items : List WorkPtr} (hpc : s.pc = .work w items) :
      LocalWorkStep s (.completion w) { s with pc := .completion w items }
  | done {w : WorkPtr} {items : List WorkPtr} (hpc : s.pc = .completion w items) :
      LocalWorkStep s .done { s with pc := .loop items }

lemma LocalWorkStep.of_step (h : localStep s a = some s') : LocalWorkStep s a s' := by
  cases a with
  | task a =>
    -- the labels that `localStep` treats alike
    have hother (hcall : ∀ t, a ≠ .call t) (hret : a ≠ .ret)
        (h : (if a.uses localTask ∨ s.pc.inUserCode = false then none
          else (taskLoopStep s.task a).map fun task => { s with task := task }) = some s') :
        LocalWorkStep s (.task a) s' := by
      simp only [Option.ite_none_left_eq_some, Option.map_eq_some_iff, not_or] at h
      obtain ⟨⟨ha, -⟩, task, htask, rfl⟩ := h
      exact .task (Bool.not_eq_true _ ▸ ha) (fun he => absurd he hret) (.of_step htask)
    cases a with
    | call t =>
      simp only [localStep, Option.map_eq_some_iff] at h
      obtain ⟨task, htask, rfl⟩ := h
      split_ifs with ht
      · subst ht
        exact .call (.of_step htask)
      · exact .task (by simpa [TaskLabel.uses] using ht) (by simp) (.of_step htask)
    | ret =>
      simp only [localStep, Option.ite_none_right_eq_some, Option.map_eq_some_iff] at h
      obtain ⟨hpc, task, htask, rfl⟩ := h
      rcases hpc with hpc | hpc
      · rw [← hpc]
        exact .task rfl (fun _ => hpc) (.of_step htask)
      · exact .ret hpc (.of_step htask)
    | op op => exact hother (by simp) (by simp) h
    | initElsewhere t e => exact hother (by simp) (by simp) h
    | run => exact hother (by simp) (by simp) h
    | finish => exact hother (by simp) (by simp) h
  | submit continuation work =>
    simp only [localStep, Option.ite_none_right_eq_some, toOption_eq_some] at h
    obtain ⟨⟨hpc, hlocal, hnew⟩, h⟩ := h
    exact .submit hpc hlocal hnew h
  | work w =>
    simp only [localStep] at h
    split at h
    · next hpc =>
      simp only [Option.ite_none_right_eq_some, Option.some.injEq] at h
      obtain ⟨rfl, rfl⟩ := h
      exact .work hpc
    · cases h
  | completion w =>
    simp only [localStep] at h
    split at h
    · next hpc =>
      simp only [Option.ite_none_right_eq_some, Option.some.injEq] at h
      obtain ⟨rfl, rfl⟩ := h
      exact .completion hpc
    · cases h
  | done =>
    simp only [localStep] at h
    split at h
    · next hpc =>
      obtain rfl := Option.some.inj h
      exact .done hpc
    · cases h

/-! ### The task -/

/-- What holds in every run. -/
structure LocalInv (s : LocalWork) : Prop where
  ok         : s.task.Ok
  inited     : s.task.st.inited localTask = true
  /-- The task is registered while there is something for it to do. -/
  registered : s.task.st.registered localTask = true ↔ s.workItems ≠ []
  handler    : s.pc ≠ .outside ↔ ∃ e, s.task.pc = .handler localTask e
  /-- The task does not run twice in a call of `iv_run_tasks`. -/
  spent      : s.pc ≠ .outside →
    s.task.st.epoch localTask = s.task.st.taskEpoch ∧ localTask ∉ s.task.st.current
  nodup      : s.waiting.Nodup

namespace LocalInv

/-- `iv_work_submit_local` registers the task if the list was empty. -/
lemma submit_cases (h : LocalInv s) (w : WorkPtr) :
    ∃ st, ivWorkSubmitLocal s w = .ok { s with
        task := { s.task with st := st }, workItems := s.workItems ++ [w] } ∧
      ((s.workItems ≠ [] ∧ st = s.task.st) ∨
        (s.workItems = [] ∧ ¬ s.task.st.registered localTask = true ∧
          ((s.task.st.tasksCurrent = none ∨ s.task.st.epoch localTask = s.task.st.taskEpoch) ∧
              st = s.task.st.enqueue localTask ∨
            ¬ (s.task.st.tasksCurrent = none ∨ s.task.st.epoch localTask = s.task.st.taskEpoch) ∧
              st = s.task.st.join localTask))) := by
  by_cases hnil : s.workItems = []
  · have hreg : ¬ s.task.st.registered localTask = true := fun hr => h.registered.mp hr hnil
    by_cases hw : s.task.st.tasksCurrent = none ∨ s.task.st.epoch localTask = s.task.st.taskEpoch
    · refine ⟨s.task.st.enqueue localTask, ?_, Or.inr ⟨hnil, hreg, Or.inl ⟨hw, rfl⟩⟩⟩
      rw [ivWorkSubmitLocal, if_pos hnil, ivTaskRegister, if_neg hreg, if_pos hw, ok_bind]
    · refine ⟨s.task.st.join localTask, ?_, Or.inr ⟨hnil, hreg, Or.inr ⟨hw, rfl⟩⟩⟩
      rw [ivWorkSubmitLocal, if_pos hnil, ivTaskRegister, if_neg hreg, if_neg hw, ok_bind]
  · refine ⟨s.task.st, ?_, Or.inl ⟨hnil, rfl⟩⟩
    rw [ivWorkSubmitLocal, if_neg hnil, ok_bind]

/-- A step of `iv_run_tasks` that is not about the task, and those of other tasks. -/
lemma task (h : LocalInv s) {a : TaskLabel} {u : TaskLoop} (ha : a.uses localTask = false)
    (hret : a = .ret → s.pc = .outside) (hstep : TaskLoopStep s.task a u) :
    LocalInv { s with task := u } := by
  obtain ⟨hinited, hreg⟩ := hstep.registered_frame h.ok ha
  refine ⟨hstep.ok h.ok, hinited.trans h.inited, ?_, ?_, fun hpc => ?_, h.nodup⟩
  · rw [hreg]
    exact h.registered
  · refine h.handler.trans (hstep.handler_frame ha fun he e hpc => ?_).symm
    exact h.handler.mpr ⟨e, hpc⟩ (hret he)
  · obtain ⟨e, he⟩ := h.handler.mp hpc
    have hrun : a ≠ .run := by
      rintro rfl
      rw [hstep.run_cases.1] at he
      cases he
    obtain ⟨-, hepoch, htask, hcur, -⟩ := hstep.frame ha hrun
    rw [hepoch, htask, hcur]
    exact h.spent hpc

/-- `iv_work_handle_local` is called. -/
lemma call (h : LocalInv s) {u : TaskLoop} (hstep : TaskLoopStep s.task (.call localTask) u) :
    s.pc = .outside ∧ LocalInv (handleLocalStart { s with task := u }) := by
  have hok := hstep.ok h.ok
  obtain ⟨e, rest, hpc, hcur, rfl⟩ := hstep.call_cases
  have houtside : s.pc = .outside := by
    by_contra hne
    obtain ⟨e', he'⟩ := h.handler.mp hne
    rw [hpc] at he'
    cases he'
  -- the task leaves the list that is being worked off, and is on no other
  have hnot : localTask ∉ rest ∧ localTask ∉ s.task.st.tasks := by
    have hnodup := h.ok.nodup
    rw [hcur, List.cons_append, List.nodup_cons, List.mem_append, not_or] at hnodup
    exact hnodup.1
  refine ⟨houtside, hok, h.inited, ?_, ?_, fun _ => ⟨?_, ?_⟩, ?_⟩
  · simp [handleLocalStart, TaskState.registered_iff, hcur, hnot]
  · simp [handleLocalStart]
  · have he := h.ok.epoch e (by rw [hpc]; rfl)
    simpa [handleLocalStart] using he
  · simpa [handleLocalStart, hcur] using hnot.1
  · simp only [LocalWork.waiting, handleLocalStart, LocalPc.items, List.append_nil]
    exact (List.nodup_append.mp h.nodup).2.1

lemma submit (h : LocalInv s) (hpc : s.task.pc.inUserCode = true) (hnew : w ∉ s.waiting)
    (hs' : ivWorkSubmitLocal s w = .ok s') : LocalInv s' := by
  obtain ⟨st, heq, hcases⟩ := h.submit_cases w
  obtain rfl := Except.ok.inj (heq.symm.trans hs')
  have hnodup : (s.pc.items ++ (s.workItems ++ [w])).Nodup := by
    rw [← List.append_assoc]
    exact List.nodup_append.mpr ⟨h.nodup, List.nodup_singleton w, fun a ha b hb hab =>
      hnew (List.mem_singleton.mp hb ▸ hab ▸ ha)⟩
  rcases hcases with ⟨hne, rfl⟩ | ⟨hnil, hreg, ⟨hw, rfl⟩ | ⟨hw, rfl⟩⟩
  · refine ⟨h.ok, h.inited, ?_, h.handler, h.spent, hnodup⟩
    rw [h.registered]
    simp [hne]
  · have hstep : TaskLoopStep s.task (.op (.register localTask)) _ := .enqueue hpc h.inited hreg hw
    refine ⟨hstep.ok h.ok, h.inited, ?_, h.handler, h.spent, hnodup⟩
    simp [TaskState.registered_iff]
  · have hstep : TaskLoopStep s.task (.op (.register localTask)) _ := .join hpc h.inited hreg hw
    refine ⟨hstep.ok h.ok, h.inited, ?_, h.handler, fun hne => ?_, hnodup⟩
    · have hcur := TaskState.join_current (t := localTask) fun hn => hw (Or.inl hn)
      simp [TaskState.registered_iff, hcur]
    · exact absurd (Or.inr (h.spent hne).1) hw

lemma setPc (h : LocalInv s) {pc : LocalPc} (hne : s.pc ≠ .outside) (hpc : pc ≠ .outside)
    (hitems : pc.items.Sublist s.pc.items) : LocalInv { s with pc := pc } :=
  ⟨h.ok, h.inited, h.registered, iff_of_true hpc (h.handler.mp hne), fun _ => h.spent hne,
    h.nodup.sublist (hitems.append_right _)⟩

lemma step (h : LocalInv s) (hstep : LocalWorkStep s a s') : LocalInv s' := by
  cases hstep with
  | task ha hret hstep => exact h.task ha hret hstep
  | call hstep => exact (h.call hstep).2
  | @ret u hpc hstep =>
    have hok := hstep.ok h.ok
    obtain ⟨t, e, -, rfl⟩ := hstep.ret_cases
    refine ⟨hok, h.inited, h.registered, by simp, fun hne => absurd rfl hne, ?_⟩
    exact h.nodup.sublist (List.sublist_append_right _ _)
  | submit hpc _ hnew hs' => exact h.submit hpc hnew hs'
  | @work w items hpc =>
    refine h.setPc (by simp [hpc]) (by simp) ?_
    rw [hpc]
    exact List.sublist_cons_self w items
  | completion hpc =>
    refine h.setPc (by simp [hpc]) (by simp) ?_
    rw [hpc]
    exact List.Sublist.refl _
  | done hpc =>
    refine h.setPc (by simp [hpc]) (by simp) ?_
    rw [hpc]
    exact List.Sublist.refl _

end LocalInv

lemma localInv_of_run {e e' : BitVec 32} {tr : List LocalLabel} (h : (localLts e e').Run tr s) :
    LocalInv s := by
  refine h.induct (P := fun _ s => LocalInv s) ?_ fun _ _ _ _ _ hinv hs =>
    hinv.step (.of_step hs)
  refine ⟨⟨?_, ?_, ?_, ?_⟩, ?_, ?_, ?_, ?_, ?_⟩
  all_goals simp [localLts, ivTaskInit, TaskState.current, TaskState.registered, TaskPc.epoch,
    LocalWork.waiting, LocalPc.items]

/-! ### The items -/

/-- The item that a step submits, if any. -/
def LocalLabel.submitted : LocalLabel → List WorkPtr
  | .submit _ w => [w]
  | _           => []

/-- The item whose work function a step calls, if any. -/
def LocalLabel.worked : LocalLabel → List WorkPtr
  | .work w => [w]
  | _       => []

/-- The items that are submitted, in this order. -/
def submittedItems (tr : List LocalLabel) : List WorkPtr :=
  tr.flatMap LocalLabel.submitted

/-- The items whose work functions are called, in this order. -/
def workedItems (tr : List LocalLabel) : List WorkPtr :=
  tr.flatMap LocalLabel.worked

/-- A work or completion function is called. -/
def LocalLabel.isCallback : LocalLabel → Bool
  | .work _       => true
  | .completion _ => true
  | _             => false

/-- The completion function that is to be called after the work function that is running. -/
def LocalPc.owed : LocalPc → List LocalLabel
  | .work w _ => [.completion w]
  | _         => []

/-- Both functions of an item. -/
def bothCalls (w : WorkPtr) : List LocalLabel := [.work w, .completion w]

section Items

variable {tr tr' : List LocalLabel}

@[simp]
lemma submittedItems_snoc : submittedItems (tr ++ [a]) = submittedItems tr ++ a.submitted := by
  simp [submittedItems]

@[simp]
lemma workedItems_snoc : workedItems (tr ++ [a]) = workedItems tr ++ a.worked := by
  simp [workedItems]

/-- Items wait in the order in which they are submitted, and are taken up from the front. -/
lemma LocalWorkStep.waiting (h : LocalInv s) (hstep : LocalWorkStep s a s') :
    s.waiting ++ a.submitted = a.worked ++ s'.waiting := by
  cases hstep with
  | task _ _ _ => simp [LocalWork.waiting, LocalLabel.submitted, LocalLabel.worked]
  | call hstep =>
    simp [LocalWork.waiting, handleLocalStart, LocalPc.items, LocalLabel.submitted,
      LocalLabel.worked, (h.call hstep).1]
  | ret hpc _ =>
    simp [LocalWork.waiting, LocalPc.items, LocalLabel.submitted, LocalLabel.worked, hpc]
  | @submit _ work _ _ _ _ hs' =>
    obtain ⟨st, heq, -⟩ := h.submit_cases work
    obtain rfl := Except.ok.inj (heq.symm.trans hs')
    exact List.append_assoc _ _ _
  | work hpc =>
    simp [LocalWork.waiting, LocalPc.items, LocalLabel.submitted, LocalLabel.worked, hpc]
  | completion hpc =>
    simp [LocalWork.waiting, LocalPc.items, LocalLabel.submitted, LocalLabel.worked, hpc]
  | done hpc =>
    simp [LocalWork.waiting, LocalPc.items, LocalLabel.submitted, LocalLabel.worked, hpc]

/-- A work function that returns is followed by the completion function of the same item. -/
lemma LocalWorkStep.owed (h : LocalInv s) (hstep : LocalWorkStep s a s') :
    s.pc.owed ++ a.worked.flatMap bothCalls = [a].filter LocalLabel.isCallback ++ s'.pc.owed := by
  cases hstep with
  | task _ _ _ => simp [LocalLabel.worked, LocalLabel.isCallback]
  | call hstep =>
    simp [handleLocalStart, LocalPc.owed, LocalLabel.worked, LocalLabel.isCallback,
      (h.call hstep).1]
  | ret hpc _ => simp [LocalPc.owed, LocalLabel.worked, LocalLabel.isCallback, hpc]
  | @submit _ work _ _ _ _ hs' =>
    obtain ⟨st, heq, -⟩ := h.submit_cases work
    obtain rfl := Except.ok.inj (heq.symm.trans hs')
    simp [LocalLabel.worked, LocalLabel.isCallback]
  | work hpc =>
    rw [hpc]
    rfl
  | completion hpc =>
    rw [hpc]
    rfl
  | done hpc =>
    rw [hpc]
    rfl

variable {e e' : BitVec 32}

/-- Every item is taken up once, in the order of their submission. -/
lemma submittedItems_of_run (h : (localLts e e').Run tr s) :
    submittedItems tr = workedItems tr ++ s.waiting := by
  refine h.induct (P := fun tr s => submittedItems tr = workedItems tr ++ s.waiting) rfl ?_
  intro tr s a s' hrun ih hs
  have hstep := LocalWorkStep.of_step hs
  rw [submittedItems_snoc, workedItems_snoc, ih, List.append_assoc,
    hstep.waiting (localInv_of_run hrun), List.append_assoc]

/-- The work function of an item and then its completion function, one item after the other. -/
lemma callbacks_of_run (h : (localLts e e').Run tr s) :
    tr.filter LocalLabel.isCallback ++ s.pc.owed = (workedItems tr).flatMap bothCalls := by
  refine h.induct (P := fun tr s =>
    tr.filter LocalLabel.isCallback ++ s.pc.owed = (workedItems tr).flatMap bothCalls) rfl ?_
  intro tr s a s' hrun ih hs
  have hstep := LocalWorkStep.of_step hs
  rw [workedItems_snoc, List.flatMap_append, ← ih, List.append_assoc,
    hstep.owed (localInv_of_run hrun), List.filter_append, List.append_assoc]

/-! ### Rounds -/

/-- The item is submitted, and the task waits for the next call of `iv_run_tasks`. -/
def LocalWork.Deferred (s : LocalWork) (w : WorkPtr) : Prop :=
  w ∈ s.workItems ∧ localTask ∈ s.task.st.tasks

/-- What a callback submits is put off. -/
lemma LocalInv.deferred (h : LocalInv s) (hpc : s.pc ≠ .outside) (hw : w ∈ s.workItems) :
    s.Deferred w := by
  refine ⟨hw, ?_⟩
  have hreg := h.registered.mpr (List.ne_nil_of_mem hw)
  rw [TaskState.registered_iff, List.mem_append] at hreg
  exact hreg.resolve_left (h.spent hpc).2

/-- Until `iv_run_tasks` is called again it stays put off, and is not taken up. -/
lemma LocalWork.Deferred.step (h : s.Deferred w) (hinv : LocalInv s)
    (hstep : LocalWorkStep s a s') (ha : a ≠ .task .run) :
    s'.Deferred w ∧ w ∉ a.worked := by
  cases hstep with
  | task hu _ hstep =>
    have hrun := fun he => ha (congrArg LocalLabel.task he)
    obtain ⟨-, -, -, -, htasks⟩ := hstep.frame hu hrun
    exact ⟨⟨h.1, htasks.mpr h.2⟩, List.not_mem_nil⟩
  | call hstep =>
    -- the task is not on the list that is being worked off
    obtain ⟨e, rest, -, hcur, -⟩ := hstep.call_cases
    exact absurd h.2 (hinv.ok.not_mem_tasks (hcur ▸ List.mem_cons_self))
  | ret _ hstep =>
    obtain ⟨t, e, -, rfl⟩ := hstep.ret_cases
    exact ⟨h, List.not_mem_nil⟩
  | @submit _ work _ _ _ _ hs' =>
    obtain ⟨st, heq, hcases⟩ := hinv.submit_cases work
    obtain rfl := Except.ok.inj (heq.symm.trans hs')
    have hne := List.ne_nil_of_mem h.1
    rcases hcases with ⟨-, rfl⟩ | ⟨hnil, -⟩
    · exact ⟨⟨List.mem_append_left _ h.1, h.2⟩, List.not_mem_nil⟩
    · exact absurd hnil hne
  | @work v items hpc =>
    refine ⟨h, fun hv => ?_⟩
    have hv : w = v := List.mem_singleton.mp hv
    have hnodup := hinv.nodup
    rw [LocalWork.waiting, hpc] at hnodup
    exact List.disjoint_of_nodup_append hnodup (hv ▸ List.mem_cons_self) h.1
  | completion _ => exact ⟨h, List.not_mem_nil⟩
  | done _ => exact ⟨h, List.not_mem_nil⟩

lemma LocalWork.Deferred.exec (h : s.Deferred w) (hinv : LocalInv s)
    (hexec : (localLts e e').exec s tr = some s') (hrun : .task .run ∉ tr) :
    LocalInv s' ∧ s'.Deferred w := by
  revert hrun
  refine Kit.Lts.exec_induct (P := fun tr s' => .task .run ∉ tr → LocalInv s' ∧ s'.Deferred w)
    (fun _ => ⟨hinv, h⟩) ?_ hexec
  intro tr s a s' _ ih hs hrun
  rw [List.mem_append, List.mem_singleton, not_or] at hrun
  obtain ⟨hinv, hd⟩ := ih hrun.1
  have hstep := LocalWorkStep.of_step hs
  exact ⟨hinv.step hstep, (hd.step hinv hstep (Ne.symm hrun.2)).1⟩

/-- What is on the stolen list is taken up or stays there. -/
lemma LocalWorkStep.items_prefix (h : LocalInv s) (hstep : LocalWorkStep s a s') :
    s.pc.items <+: a.worked ++ s'.pc.items := by
  cases hstep with
  | task _ _ _ => exact List.prefix_rfl
  | call hstep =>
    rw [(h.call hstep).1]
    exact List.nil_prefix
  | ret hpc _ =>
    rw [hpc]
    exact List.nil_prefix
  | @submit _ work _ _ _ _ hs' =>
    obtain ⟨st, heq, -⟩ := h.submit_cases work
    obtain rfl := Except.ok.inj (heq.symm.trans hs')
    exact List.prefix_rfl
  | work hpc =>
    rw [hpc]
    exact List.prefix_rfl
  | completion hpc =>
    rw [hpc]
    exact List.prefix_rfl
  | done hpc =>
    rw [hpc]
    exact List.prefix_rfl

/-- `iv_run_tasks` is left only at its end. -/
lemma LocalWorkStep.task_pc (h : LocalInv s) (hstep : LocalWorkStep s a s')
    (hpc : s.task.pc ≠ .outside) (ha : a ≠ .task .finish) : s'.task.pc ≠ .outside := by
  cases hstep with
  | task _ _ hstep => exact hstep.pc_ne_outside hpc fun he => ha (congrArg LocalLabel.task he)
  | call hstep => exact hstep.pc_ne_outside hpc (by simp)
  | ret _ hstep => exact hstep.pc_ne_outside hpc (by simp)
  | @submit _ work _ _ _ _ hs' =>
    obtain ⟨st, heq, -⟩ := h.submit_cases work
    obtain rfl := Except.ok.inj (heq.symm.trans hs')
    exact hpc
  | _ => exact hpc

/-- During a call of `iv_run_tasks` that began with the items `L`: the task is still to be called,
or they have been taken up or are about to be. -/
def RoundInv (L : List WorkPtr) (tr : List LocalLabel) (s : LocalWork) : Prop :=
  (localTask ∈ s.task.st.current ∧ L <+: s.workItems ∧ workedItems tr = []) ∨
    L <+: workedItems tr ++ s.pc.items

lemma RoundInv.step {L : List WorkPtr} (h : RoundInv L tr s) (hinv : LocalInv s)
    (hstep : LocalWorkStep s a s') (hrun : a ≠ .task .run) (hL : L ≠ []) :
    RoundInv L (tr ++ [a]) s' := by
  rcases h with ⟨hcur, hpre, hnone⟩ | hpre
  · -- the task has not been called, so none of the items has been taken up
    have hpc : s.pc = .outside := by
      by_contra hne
      exact (hinv.spent hne).2 hcur
    have hnone' (ha : a.worked = []) : workedItems (tr ++ [a]) = [] := by
      rw [workedItems_snoc, hnone, ha, List.append_nil]
    cases hstep with
    | task hu _ hstep =>
      obtain ⟨-, -, -, hcur', -⟩ := hstep.frame hu fun he => hrun (congrArg LocalLabel.task he)
      exact Or.inl ⟨hcur'.mpr hcur, hpre, hnone' rfl⟩
    | call _ =>
      refine Or.inr ?_
      rw [hnone' rfl]
      exact hpre
    | ret hpc' _ => cases hpc.symm.trans hpc'
    | @submit _ work _ _ _ _ hs' =>
      obtain ⟨st, heq, hcases⟩ := hinv.submit_cases work
      obtain rfl := Except.ok.inj (heq.symm.trans hs')
      have hne : s.workItems ≠ [] := fun hnil => hL (List.prefix_nil.mp (hnil ▸ hpre))
      rcases hcases with ⟨-, rfl⟩ | ⟨hnil, -⟩
      · exact Or.inl ⟨hcur, hpre.trans (List.prefix_append _ _), hnone' rfl⟩
      · exact absurd hnil hne
    | work hpc' => cases hpc.symm.trans hpc'
    | completion hpc' => cases hpc.symm.trans hpc'
    | done hpc' => cases hpc.symm.trans hpc'
  · refine Or.inr (hpre.trans ?_)
    rw [workedItems_snoc, List.append_assoc, List.prefix_append_right_inj]
    exact hstep.items_prefix hinv

/-- A call of `iv_run_tasks` does not return before the items that it found have been taken up. -/
lemma RoundInv.finish {L : List WorkPtr} (h : RoundInv L tr s) (hinv : LocalInv s)
    (hstep : LocalWorkStep s (.task .finish) s') : L <+: workedItems tr := by
  cases hstep with
  | task _ _ hstep =>
    obtain ⟨e, hpc, hcur⟩ := hstep.finish_cases
    rcases h with ⟨hmem, -⟩ | hpre
    · rw [hcur] at hmem
      cases hmem
    · have hout : s.pc = .outside := by
        by_contra hne
        obtain ⟨e', he'⟩ := hinv.handler.mp hne
        cases hpc.symm.trans he'
      rwa [hout, LocalPc.items, List.append_nil] at hpre

/-- A whole round. -/
lemma LocalInv.round (hinv : LocalInv s) (hs₁ : localStep s (.task .run) = some s₁)
    (hexec : (localLts e e').exec s₁ tr = some s') (hfinish : .task .finish ∈ tr) :
    s.workItems <+: workedItems tr := by
  by_cases hL : s.workItems = []
  · rw [hL]
    exact List.nil_prefix
  have hstart := LocalWorkStep.of_step hs₁
  have hround : (.task .finish ∈ tr → s.workItems <+: workedItems tr) ∧ LocalInv s' ∧
      (.task .finish ∉ tr → RoundInv s.workItems tr s' ∧ s'.task.pc ≠ .outside) := by
    refine Kit.Lts.exec_induct (P := fun tr s' =>
      (.task .finish ∈ tr → s.workItems <+: workedItems tr) ∧ LocalInv s' ∧
        (.task .finish ∉ tr → RoundInv s.workItems tr s' ∧ s'.task.pc ≠ .outside)) ?_ ?_ hexec
    · refine ⟨by simp, hinv.step hstart, fun _ => ?_⟩
      have hreg := hinv.registered.mpr hL
      rw [TaskState.registered_iff, List.mem_append] at hreg
      cases hstart with
      | task _ _ hstep =>
        obtain ⟨hpc, rfl⟩ := hstep.run_cases
        rw [hinv.ok.current_of_outside hpc] at hreg
        exact ⟨Or.inl ⟨hreg.resolve_left List.not_mem_nil, List.prefix_rfl, rfl⟩, by simp⟩
    · rintro tr s a s' - ⟨hdone, hinv, hround⟩ hs
      have hstep := LocalWorkStep.of_step hs
      refine ⟨fun hmem => ?_, hinv.step hstep, fun hnot => ?_⟩
      · by_cases hbefore : .task .finish ∈ tr
        · rw [workedItems_snoc]
          exact (hdone hbefore).trans (List.prefix_append _ _)
        · obtain rfl : .task .finish = a := by simpa [hbefore] using hmem
          obtain ⟨hinvr, -⟩ := hround hbefore
          rw [workedItems_snoc]
          exact (hinvr.finish hinv hstep).trans (List.prefix_append _ _)
      · rw [List.mem_append, List.mem_singleton, not_or] at hnot
        obtain ⟨hinvr, hpc⟩ := hround hnot.1
        have hrun : a ≠ .task .run := by
          rintro rfl
          cases hstep with
          | task _ _ hstep => exact hpc hstep.run_cases.1
        exact ⟨hinvr.step hinv hstep hrun hL, hstep.task_pc hinv hpc (Ne.symm hnot.2)⟩
  exact hround.1 hfinish

/-! ### Termination -/

/-- A step of the loop of `iv_work_handle_local`, or a return of a callback to it. -/
def LocalLabel.isLocal : LocalLabel → Bool
  | .work _       => true
  | .completion _ => true
  | .done         => true
  | _             => false

/-- How many such steps are left. -/
def LocalPc.todo : LocalPc → ℕ
  | .outside            => 0
  | .loop items         => 3 * items.length
  | .work _ items       => 3 * items.length + 2
  | .completion _ items => 3 * items.length + 1

/-- Nothing is added to what `iv_work_handle_local` has to do. -/
lemma LocalWorkStep.todo (h : LocalInv s) (hstep : LocalWorkStep s a s') (hpc : s.pc ≠ .outside)
    (ha : a ≠ .task .ret) : a.isLocal.toNat + s'.pc.todo = s.pc.todo ∧ s'.pc ≠ .outside := by
  cases hstep with
  | task _ _ _ => exact ⟨Nat.zero_add _, hpc⟩
  | call hstep => exact absurd (h.call hstep).1 hpc
  | ret _ _ => exact absurd rfl ha
  | @submit _ work _ _ _ _ hs' =>
    obtain ⟨st, heq, -⟩ := h.submit_cases work
    obtain rfl := Except.ok.inj (heq.symm.trans hs')
    exact ⟨Nat.zero_add _, hpc⟩
  | work hpc =>
    rw [hpc]
    refine ⟨?_, by simp⟩
    simp only [LocalLabel.isLocal, LocalPc.todo, Bool.toNat_true, List.length_cons]
    omega
  | completion hpc =>
    rw [hpc]
    refine ⟨?_, by simp⟩
    simp only [LocalLabel.isLocal, LocalPc.todo, Bool.toNat_true]
    omega
  | done hpc =>
    rw [hpc]
    refine ⟨?_, by simp⟩
    simp only [LocalLabel.isLocal, LocalPc.todo, Bool.toNat_true]
    omega

lemma LocalInv.todo (h : LocalInv s) (hpc : s.pc ≠ .outside)
    (hexec : (localLts e e').exec s tr = some s') (hret : .task .ret ∉ tr) :
    tr.countP LocalLabel.isLocal + s'.pc.todo = s.pc.todo := by
  have hall : .task .ret ∉ tr → LocalInv s' ∧ s'.pc ≠ .outside ∧
      tr.countP LocalLabel.isLocal + s'.pc.todo = s.pc.todo := by
    refine Kit.Lts.exec_induct (P := fun tr s' => .task .ret ∉ tr → LocalInv s' ∧
      s'.pc ≠ .outside ∧ tr.countP LocalLabel.isLocal + s'.pc.todo = s.pc.todo)
      (fun _ => ⟨h, hpc, Nat.zero_add _⟩) ?_ hexec
    intro tr u a u' _ ih hs hnot
    rw [List.mem_append, List.mem_singleton, not_or] at hnot
    obtain ⟨hinv, hpc, htodo⟩ := ih hnot.1
    have hstep := LocalWorkStep.of_step hs
    obtain ⟨hone, hpc'⟩ := hstep.todo hinv hpc (Ne.symm hnot.2)
    refine ⟨hinv.step hstep, hpc', ?_⟩
    have hcount : [a].countP LocalLabel.isLocal = a.isLocal.toNat := by
      rw [List.countP_singleton]
      cases a.isLocal <;> rfl
    rw [List.countP_append, hcount]
    omega
  exact (hall hret).2.2

/-- `iv_work_handle_local` is never stuck: it goes on as long as there is something to do, and then
returns. -/
lemma LocalInv.progress (h : LocalInv s) (hpc : s.pc ≠ .outside) :
    ∃ a s', (a.isLocal = true ∨ a = .task .ret) ∧ localStep s a = some s' := by
  cases hs : s.pc with
  | outside => exact absurd hs hpc
  | loop items =>
    cases items with
    | nil =>
      obtain ⟨u, hu⟩ := h.handler.mp hpc
      refine ⟨.task .ret, { s with task := { s.task with pc := .loop u }, pc := .outside },
        Or.inr rfl, ?_⟩
      simp [localStep, taskLoopStep, hs, hu]
    | cons w items =>
      exact ⟨.work w, { s with pc := .work w items }, Or.inl rfl, by simp [localStep, hs]⟩
  | work w items =>
    exact ⟨.completion w, { s with pc := .completion w items }, Or.inl rfl, by simp [localStep, hs]⟩
  | completion w items =>
    exact ⟨.done, { s with pc := .loop items }, Or.inl rfl, by simp [localStep, hs]⟩

/-! ### Results -/

/-- In every run of a thread that submits work to the pool `NULL`, from callbacks or otherwise, the
task is registered exactly while items wait for it, so that a submission never fails. Items are
taken up in the order of their submission, each once, and the work function of an item is followed
by its completion function. What a callback submits is not taken up before `iv_run_tasks` is called
again. A call of `iv_run_tasks` takes up everything that was there when it began. And each call of
`iv_work_handle_local` has a number of steps to do that nothing adds to, and is never stuck. -/
theorem localWork_of_run (h : (localLts e e').Run tr s) :
    (s.task.st.registered localTask = true ↔ s.workItems ≠ []) ∧
    (∀ w, ∃ s', ivWorkSubmitLocal s w = .ok s') ∧
    submittedItems tr = workedItems tr ++ s.waiting ∧
    tr.filter LocalLabel.isCallback ++ s.pc.owed = (workedItems tr).flatMap bothCalls ∧
    (∀ tr₁ continuation w tr₂ tr₃ s₁,
      tr = tr₁ ++ .submit continuation w :: (tr₂ ++ .work w :: tr₃) →
      (localLts e e').Run tr₁ s₁ → s₁.pc ≠ .outside → .task .run ∈ tr₂) ∧
    (∀ tr₁ tr₂ s₁, tr = tr₁ ++ .task .run :: tr₂ → (localLts e e').Run tr₁ s₁ →
      .task .finish ∈ tr₂ → s₁.workItems <+: workedItems tr₂) ∧
    (s.pc ≠ .outside →
      (∀ tr' s', (localLts e e').exec s tr' = some s' → .task .ret ∉ tr' →
        tr'.countP LocalLabel.isLocal + s'.pc.todo = s.pc.todo) ∧
      ∃ a s', (a.isLocal = true ∨ a = .task .ret) ∧ localStep s a = some s') := by
  have hinv := localInv_of_run h
  refine ⟨hinv.registered, fun w => ?_, submittedItems_of_run h, callbacks_of_run h, ?_, ?_,
    fun hpc => ⟨fun tr' s' hexec hret => hinv.todo hpc hexec hret, hinv.progress hpc⟩⟩
  · obtain ⟨st, heq, -⟩ := hinv.submit_cases w
    exact ⟨_, heq⟩
  · rintro tr₁ continuation w tr₂ tr₃ s₁ rfl hs₁ hpc
    obtain ⟨s₁', s₂, hs₁', hsubmit, hexec⟩ := Kit.Lts.run_append_cons.mp h
    obtain rfl := Option.some.inj (hs₁.symm.trans hs₁')
    have hinv₁ := localInv_of_run hs₁
    have hstep : LocalWorkStep s₁ (.submit continuation w) s₂ := .of_step hsubmit
    have hinv₂ := hinv₁.step hstep
    have hdeferred : s₂.Deferred w := by
      cases hstep with
      | submit _ _ _ hs' =>
        obtain ⟨st, heq, -⟩ := hinv₁.submit_cases w
        obtain rfl := Except.ok.inj (heq.symm.trans hs')
        exact hinv₂.deferred hpc (List.mem_append_right _ (List.mem_singleton_self w))
    by_contra hnot
    rw [Kit.Lts.exec_append] at hexec
    obtain ⟨s₃, hs₃, hexec⟩ := Option.bind_eq_some_iff.mp hexec
    obtain ⟨s₄, hwork, -⟩ := Option.bind_eq_some_iff.mp hexec
    obtain ⟨hinv₃, hd⟩ := hdeferred.exec hinv₂ hs₃ hnot
    have hstep₃ : LocalWorkStep s₃ (.work w) s₄ := .of_step hwork
    exact (hd.step hinv₃ hstep₃ (by simp)).2 (List.mem_singleton_self w)
  · rintro tr₁ tr₂ s₁ rfl hs₁ hfinish
    obtain ⟨s₁', s₂, hs₁', hrun, hexec⟩ := Kit.Lts.run_append_cons.mp h
    obtain rfl := Option.some.inj (hs₁.symm.trans hs₁')
    exact (localInv_of_run hs₁).round hrun hexec hfinish

/-- Two items are submitted, and the completion function of the first one submits it again. -/
def resubmitted : List LocalLabel :=
  [.submit false 1, .submit true 2, .task .run, .task (.call localTask), .work 1, .completion 1,
    .submit false 1, .done, .work 2, .completion 2, .done, .task .ret, .task .finish]

theorem localWork_of_run_resubmitted : ∃ s, (localLts 0 0).Run resubmitted s ∧
    s.workItems = [1] ∧ s.task.st.registered localTask = true ∧
    submittedItems resubmitted = workedItems resubmitted ++ [1] := by
  refine Kit.Lts.exists_run_of_decide (fun s => s.pc = .outside ∧ s.workItems = [1])
    (by decide +kernel) fun s hs ⟨hpc, hitems⟩ => ?_
  obtain ⟨hreg, -, hsubmitted, -⟩ := localWork_of_run hs
  refine ⟨hitems, hreg.mpr (by simp [hitems]), ?_⟩
  rw [hsubmitted, LocalWork.waiting, hpc, hitems]
  rfl

end Items

end Ivykis
