import Mathlib.Data.Finset.Card
import Ivykis.Kit.Drain
import Ivykis.Task.Basic

/-!
# Rounds of tasks

What one call of `iv_run_tasks` runs, in which order, and what it leaves for the next call.
-/

namespace Ivykis

/-! ### The two lists -/

namespace TaskState

variable {st : TaskState} {t : TaskPtr} {e : BitVec 32}

lemma registered_iff : st.registered t = true ↔ t ∈ st.current ++ st.tasks := by
  simp [registered]

@[simp] lemma initTask_current : (st.initTask t e).current = st.current := rfl

@[simp] lemma enqueue_current : (st.enqueue t).current = st.current := rfl

lemma join_current (h : st.tasksCurrent ≠ none) : (st.join t).current = st.current ++ [t] := by
  obtain ⟨cur, hcur⟩ := Option.ne_none_iff_exists'.mp h
  simp [current, hcur]

@[simp] lemma remove_current : (st.remove t).current = st.current.erase t := by
  rw [current, current, remove_tasksCurrent]
  cases st.tasksCurrent <;> rfl

@[simp] lemma takeFirst_current : (st.takeFirst t e).current = st.current.tail := by
  rw [current, current, takeFirst_tasksCurrent]
  cases st.tasksCurrent <;> rfl

@[simp] lemma runTasksStart_current : (runTasksStart st).current = st.tasks := rfl

end TaskState

/-- The epoch that `iv_run_tasks` keeps in a local variable. -/
def TaskPc.epoch : TaskPc → Option (BitVec 32)
  | .outside     => none
  | .loop e      => some e
  | .handler _ e => some e

/-- No task is on a list twice, or uninitialised. -/
structure TaskLoop.Ok (s : TaskLoop) : Prop where
  nodup   : (s.st.current ++ s.st.tasks).Nodup
  inited  : ∀ t ∈ s.st.current ++ s.st.tasks, s.st.inited t = true
  current : s.st.tasksCurrent = none ↔ s.pc = .outside
  epoch   : ∀ e, s.pc.epoch = some e → e = s.st.taskEpoch

namespace TaskLoop.Ok

variable {s : TaskLoop} {t : TaskPtr}

lemma not_mem_tasks (h : s.Ok) (ht : t ∈ s.st.current) : t ∉ s.st.tasks := fun hm =>
  List.disjoint_of_nodup_append h.nodup ht hm

lemma current_of_outside (h : s.Ok) (hpc : s.pc = .outside) : s.st.current = [] := by
  rw [TaskState.current, h.current.mpr hpc]
  rfl

lemma initTask (h : s.Ok) (t : TaskPtr) (e : BitVec 32) :
    TaskLoop.Ok { s with st := s.st.initTask t e } := by
  refine ⟨h.nodup, fun u hu => ?_, h.current, h.epoch⟩
  simp only [TaskState.initTask_inited, Function.update_apply]
  split_ifs
  · rfl
  · exact h.inited u hu

/-- A new task on one of the lists. -/
lemma add (h : s.Ok) {st' : TaskState} (hi : s.st.inited t = true)
    (ht : t ∉ s.st.current ++ s.st.tasks)
    (hperm : (st'.current ++ st'.tasks).Perm (t :: (s.st.current ++ s.st.tasks)))
    (hinited : st'.inited = s.st.inited)
    (hcur : st'.tasksCurrent = none ↔ s.st.tasksCurrent = none)
    (he : st'.taskEpoch = s.st.taskEpoch) : TaskLoop.Ok { s with st := st' } where
  nodup := hperm.nodup_iff.mpr (List.nodup_cons.mpr ⟨ht, h.nodup⟩)
  inited u hu := by
    rw [hinited]
    rcases List.mem_cons.mp (hperm.mem_iff.mp hu) with rfl | hu
    · exact hi
    · exact h.inited u hu
  current := hcur.trans h.current
  epoch e h' := (h.epoch e h').trans he.symm

/-- Some tasks fewer on the lists. -/
lemma less {s' : TaskLoop} (h : s.Ok)
    (hsub : (s'.st.current ++ s'.st.tasks).Sublist (s.st.current ++ s.st.tasks))
    (hinited : s'.st.inited = s.st.inited) (hcur : s'.st.tasksCurrent = none ↔ s'.pc = .outside)
    (he : ∀ e, s'.pc.epoch = some e → e = s'.st.taskEpoch) : s'.Ok where
  nodup := h.nodup.sublist hsub
  inited u hu := by
    rw [hinited]
    exact h.inited u (hsub.subset hu)
  current := hcur
  epoch := he

end TaskLoop.Ok

/-- The label is about the task `t`. -/
def TaskLabel.uses (t : TaskPtr) : TaskLabel → Bool
  | .op (.init u)       => u = t
  | .op (.register u)   => u = t
  | .op (.unregister u) => u = t
  | .initElsewhere u _  => u = t
  | .call u             => u = t
  | _                   => false

namespace TaskLoopStep

variable {s s' : TaskLoop} {a : TaskLabel} {t : TaskPtr}

lemma ok (h : TaskLoopStep s a s') (hok : s.Ok) : s'.Ok := by
  cases h with
  | init => exact hok.initTask _ _
  | initElsewhere e => exact hok.initTask _ e
  | enqueue _ hi hreg _ =>
    rw [TaskState.registered_iff] at hreg
    refine hok.add hi hreg ?_ rfl Iff.rfl rfl
    simp only [TaskState.enqueue_current, TaskState.enqueue_tasks, ← List.append_assoc]
    exact List.perm_append_singleton _ _
  | join _ hi hreg hw =>
    rw [TaskState.registered_iff] at hreg
    refine hok.add hi hreg ?_ rfl (by simp) rfl
    rw [TaskState.join_current fun hn => hw (Or.inl hn), List.append_assoc]
    exact List.perm_middle
  | unregister =>
    refine hok.less ?_ rfl (by simpa using hok.current) hok.epoch
    exact List.Sublist.append (by simpa using List.erase_sublist) List.erase_sublist
  | run =>
    refine hok.less (by simp [hok.current_of_outside rfl]) rfl (by simp) fun e he => ?_
    exact (Option.some.inj he).symm
  | call hcur =>
    refine hok.less ?_ rfl (by simpa using hok.current) hok.epoch
    exact List.Sublist.append (by simpa using List.tail_sublist _) (List.Sublist.refl _)
  | ret t e => exact hok.less (List.Sublist.refl _) rfl (by simpa using hok.current) hok.epoch
  | finish e hcur =>
    refine hok.less ?_ rfl (by simp) nofun
    exact List.sublist_append_right _ _

/-- Tasks are counted while they are on a list. -/
lemma numobjs (h : TaskLoopStep s a s') (hok : s.Ok) :
    s'.st.numobjs - (s'.st.current.length + s'.st.tasks.length : ℕ)
      = s.st.numobjs - (s.st.current.length + s.st.tasks.length : ℕ) := by
  cases h with
  | init | initElsewhere | ret => rfl
  | enqueue =>
    simp only [TaskState.enqueue_current, TaskState.enqueue_tasks, TaskState.enqueue_numobjs,
      List.length_append, List.length_singleton]
    omega
  | join _ _ _ hw =>
    simp only [TaskState.join_current fun hn => hw (Or.inl hn), TaskState.join_tasks,
      TaskState.join_numobjs, List.length_append, List.length_singleton]
    omega
  | @unregister _ t _ hreg =>
    simp only [TaskState.remove_current, TaskState.remove_tasks, TaskState.remove_numobjs]
    rw [TaskState.registered_iff, List.mem_append] at hreg
    by_cases hcur : t ∈ s.st.current
    · have hpos := List.length_pos_of_mem hcur
      rw [List.length_erase_of_mem hcur, List.erase_of_not_mem (hok.not_mem_tasks hcur)]
      omega
    · have hm := hreg.resolve_left hcur
      have hpos := List.length_pos_of_mem hm
      rw [List.length_erase_of_mem hm, List.erase_of_not_mem hcur]
      omega
  | run =>
    simp [hok.current_of_outside rfl]
  | call hcur =>
    simp only [TaskState.takeFirst_current, TaskState.takeFirst_tasks,
      TaskState.takeFirst_numobjs, hcur, List.tail_cons, List.length_cons]
    omega
  | finish e hcur =>
    rw [hcur]
    rfl

lemma pc_ne_outside (h : TaskLoopStep s a s') (hpc : s.pc ≠ .outside) (ha : a ≠ .finish) :
    s'.pc ≠ .outside := by
  cases h with
  | init | enqueue | join | unregister => exact hpc
  | initElsewhere | run => exact absurd rfl hpc
  | call | ret => nofun
  | finish => exact absurd rfl ha

lemma pc_eq (h : TaskLoopStep s a s') :
    match a with
    | .op _ | .initElsewhere _ _ => s'.pc = s.pc
    | .finish                    => s'.pc = .outside
    | _                          => True := by
  cases h <;> trivial

/-- A step that is not about `t` leaves it where it is, unless `iv_run_tasks` begins. -/
lemma frame (h : TaskLoopStep s a s') (ha : a.uses t = false) (hrun : a ≠ .run) :
    s'.st.inited t = s.st.inited t ∧ s'.st.epoch t = s.st.epoch t ∧
      s'.st.taskEpoch = s.st.taskEpoch ∧ (t ∈ s'.st.current ↔ t ∈ s.st.current) ∧
      (t ∈ s'.st.tasks ↔ t ∈ s.st.tasks) := by
  cases h with
  | @init _ u _ _ =>
    have hne : t ≠ u := fun he => by simp [TaskLabel.uses, he] at ha
    exact ⟨Function.update_of_ne hne _ _, Function.update_of_ne hne _ _, rfl, Iff.rfl, Iff.rfl⟩
  | @enqueue _ u _ _ _ _ =>
    have hne : t ≠ u := fun he => by simp [TaskLabel.uses, he] at ha
    exact ⟨rfl, rfl, rfl, Iff.rfl, by simp [hne]⟩
  | @join _ u _ _ _ hw =>
    have hne : t ≠ u := fun he => by simp [TaskLabel.uses, he] at ha
    refine ⟨rfl, rfl, rfl, ?_, Iff.rfl⟩
    rw [TaskState.join_current fun hn => hw (Or.inl hn)]
    simp [hne]
  | @unregister _ u _ _ =>
    have hne : t ≠ u := fun he => by simp [TaskLabel.uses, he] at ha
    refine ⟨rfl, rfl, rfl, ?_, ?_⟩
    · rw [TaskState.remove_current, List.mem_erase_of_ne hne]
    · rw [TaskState.remove_tasks, List.mem_erase_of_ne hne]
  | @initElsewhere st u e _ =>
    have hne : t ≠ u := fun he => by simp [TaskLabel.uses, he] at ha
    exact ⟨Function.update_of_ne hne _ _, Function.update_of_ne hne _ _, rfl, Iff.rfl, Iff.rfl⟩
  | run => exact absurd rfl hrun
  | @call st u e rest hcur =>
    have hne : t ≠ u := fun he => by simp [TaskLabel.uses, he] at ha
    refine ⟨rfl, Function.update_of_ne hne _ _, rfl, ?_, Iff.rfl⟩
    simp [hcur, hne]
  | ret => exact ⟨rfl, rfl, rfl, Iff.rfl, Iff.rfl⟩
  | finish e hcur =>
    refine ⟨rfl, rfl, rfl, ?_, Iff.rfl⟩
    rw [hcur]
    rfl

lemma run_cases (h : TaskLoopStep s .run s') :
    s.pc = .outside ∧ s' = ⟨runTasksStart s.st, .loop (s.st.taskEpoch + 1)⟩ := by
  cases h with
  | run => exact ⟨rfl, rfl⟩

lemma call_cases (h : TaskLoopStep s (.call t) s') : ∃ e rest, s.pc = .loop e ∧
    s.st.current = t :: rest ∧ s' = ⟨s.st.takeFirst t e, .handler t e⟩ := by
  cases h with
  | call hcur => exact ⟨_, _, rfl, hcur, rfl⟩

lemma ret_cases (h : TaskLoopStep s .ret s') :
    ∃ u e, s.pc = .handler u e ∧ s' = { s with pc := .loop e } := by
  cases h with
  | ret u e => exact ⟨u, e, rfl, rfl⟩

lemma finish_cases (h : TaskLoopStep s .finish s') :
    ∃ e, s.pc = .loop e ∧ s.st.current = [] := by
  cases h with
  | finish e hcur => exact ⟨e, rfl, hcur⟩

/-- It stays initialised and registered, or not, in any case. -/
lemma registered_frame (h : TaskLoopStep s a s') (hok : s.Ok) (ha : a.uses t = false) :
    s'.st.inited t = s.st.inited t ∧ s'.st.registered t = s.st.registered t := by
  by_cases hrun : a = .run
  · subst hrun
    cases h with
    | run =>
      refine ⟨rfl, ?_⟩
      rw [Bool.eq_iff_iff, TaskState.registered_iff, TaskState.registered_iff]
      simp [hok.current_of_outside rfl]
  · obtain ⟨hinited, -, -, hcur, htasks⟩ := h.frame ha hrun
    refine ⟨hinited, ?_⟩
    rw [Bool.eq_iff_iff, TaskState.registered_iff, TaskState.registered_iff]
    simp only [List.mem_append, hcur, htasks]

/-- Its handler is entered by a call and left by a return. -/
lemma handler_frame (h : TaskLoopStep s a s') (ha : a.uses t = false)
    (hret : a = .ret → ∀ e, s.pc ≠ .handler t e) :
    (∃ e, s'.pc = .handler t e) ↔ ∃ e, s.pc = .handler t e := by
  cases h with
  | init | enqueue | join | unregister | initElsewhere => exact Iff.rfl
  | run | finish => simp
  | call =>
    simp only [TaskLabel.uses, decide_eq_false_iff_not] at ha
    simp [ha]
  | ret u e => simpa using hret rfl

end TaskLoopStep

/-! ### One call -/

/-- What a step does to the list that is being worked off. -/
def TaskLabel.act : TaskLabel → Kit.DrainAct TaskPtr
  | .call t             => .take t
  | .op (.unregister t) => .drop t
  | _                   => .other

/-- The tasks whose handlers are called, in this order. -/
def taskCalls (tr : List TaskLabel) : List TaskPtr :=
  Kit.taken TaskLabel.act tr

/-- Whether `t` is unregistered before its handler is called. -/
def taskCancelled (tr : List TaskLabel) (t : TaskPtr) : Bool :=
  Kit.dropped TaskLabel.act t tr

/-- The tasks that have been registered, and neither run nor unregistered since, in the order of
their registration. -/
def pendingTasks : List TaskLabel → List TaskPtr :=
  List.foldl (fun P a => match a with
    | .op (.register t)   => P ++ [t]
    | .op (.unregister t) => P.erase t
    | .call t             => P.erase t
    | _                   => P) []

lemma mem_taskCalls {t : TaskPtr} {tr : List TaskLabel} : t ∈ taskCalls tr ↔ .call t ∈ tr := by
  simp only [taskCalls, Kit.taken, List.mem_filterMap]
  constructor
  · rintro ⟨a, ha, heq⟩
    cases a with
    | call u =>
      obtain rfl := Option.some.inj heq
      exact ha
    | op op => cases op <;> cases heq
    | _ => cases heq
  · exact fun h => ⟨.call t, h, rfl⟩

lemma taskCalls_snoc_call (tr : List TaskLabel) (t : TaskPtr) :
    taskCalls (tr ++ [.call t]) = taskCalls tr ++ [t] :=
  Kit.taken_append _ _

lemma taskCalls_snoc {a : TaskLabel} (tr : List TaskLabel) (ha : ∀ t, a ≠ .call t) :
    taskCalls (tr ++ [a]) = taskCalls tr := by
  refine (Kit.taken_append _ _).trans ?_
  rw [Kit.taken_cons_of_not]
  · exact List.append_nil _
  · intro t
    cases a with
    | call u => exact absurd rfl (ha u)
    | op op => cases op <;> nofun
    | _ => nofun

section Round

variable {e : BitVec 32} {s₁ s s' : TaskLoop} {tr : List TaskLabel} {t : TaskPtr}

/-- Until it returns, `iv_run_tasks` works off its list. -/
lemma taskLoop_drains : Kit.Drains (taskLts e) (fun s => s.Ok ∧ s.pc ≠ .outside)
    (· = .finish) (fun s => s.st.current) TaskLabel.act fun _ => True where
  inv s a s' hI ha hs := by
    have hstep : TaskLoopStep s a s' := .of_step hs
    exact ⟨hstep.ok hI.1, hstep.pc_ne_outside hI.2 ha⟩
  nodup s hI := hI.1.nodup.of_append_left
  step s a s' hI ha hs := by
    have hkeep : s'.st.current = s.st.current →
        ∃ later : List TaskPtr, (∀ t ∈ later, True) ∧ s'.st.current = s.st.current ++ later :=
      fun h => ⟨[], fun _ _ => trivial, by rw [h, List.append_nil]⟩
    cases TaskLoopStep.of_step hs with
    | init | enqueue | ret => exact hkeep rfl
    | join _ _ _ hw =>
      exact ⟨[_], fun _ _ => trivial, TaskState.join_current fun hn => hw (Or.inl hn)⟩
    | unregister => exact TaskState.remove_current
    | initElsewhere | run => exact absurd rfl hI.2
    | call hcur =>
      simp only [TaskLabel.act, TaskState.takeFirst_current, hcur, List.tail_cons]
    | finish => exact absurd rfl ha

/-! ### Epochs -/

/-- `t` has been run or initialised in this call. -/
def Touched (tr : List TaskLabel) (t : TaskPtr) : Prop :=
  t ∈ taskCalls tr ∨ .op (.init t) ∈ tr

lemma touched_snoc_call {u : TaskPtr} : Touched (tr ++ [.call u]) t ↔ Touched tr t ∨ t = u := by
  rw [Touched, Touched, taskCalls_snoc_call]
  simp only [List.mem_append, List.mem_singleton, reduceCtorEq, or_false]
  tauto

lemma touched_snoc_init {u : TaskPtr} :
    Touched (tr ++ [.op (.init u)]) t ↔ Touched tr t ∨ t = u := by
  rw [Touched, Touched, taskCalls_snoc tr (by simp)]
  simp only [List.mem_append, List.mem_singleton, TaskLabel.op.injEq, TaskOp.init.injEq]
  tauto

lemma touched_snoc {a : TaskLabel} (hcall : ∀ u, a ≠ .call u) (hinit : ∀ u, a ≠ .op (.init u)) :
    Touched (tr ++ [a]) t ↔ Touched tr t := by
  rw [Touched, Touched, taskCalls_snoc tr hcall, List.mem_append, List.mem_singleton,
    or_iff_left (hinit t).symm]

/-- The epochs within a call that starts in `s₁` and has come to `s`. -/
structure EpochInv (s₁ : TaskLoop) (tr : List TaskLabel) (s : TaskLoop) : Prop where
  taskEpoch : s.st.taskEpoch = s₁.st.taskEpoch
  /-- A task that has been run or initialised does not come back on the list. -/
  spent : ∀ t, Touched tr t → s.st.epoch t = s.st.taskEpoch ∧ t ∉ s.st.current
  fresh : ∀ t, ¬ Touched tr t →
    s.st.epoch t = s₁.st.epoch t ∧ s.st.inited t = s₁.st.inited t
  once  : (taskCalls tr).Nodup

lemma epochInv_nil (s₁ : TaskLoop) : EpochInv s₁ [] s₁ where
  taskEpoch := rfl
  spent t ht := by simp [Touched, taskCalls, Kit.taken] at ht
  fresh _ _ := ⟨rfl, rfl⟩
  once := List.nodup_nil

/-- A step that neither runs nor initialises a task. -/
lemma EpochInv.other {a : TaskLabel} (h : EpochInv s₁ tr s) (hcall : ∀ u, a ≠ .call u)
    (hinit : ∀ u, a ≠ .op (.init u)) (htask : s'.st.taskEpoch = s.st.taskEpoch)
    (hepoch : s'.st.epoch = s.st.epoch) (hinited : s'.st.inited = s.st.inited)
    (hcur : ∀ t ∈ s'.st.current, t ∈ s.st.current ∨ s.st.epoch t ≠ s.st.taskEpoch) :
    EpochInv s₁ (tr ++ [a]) s' := by
  refine ⟨htask.trans h.taskEpoch, fun t ht => ?_, fun t ht => ?_, ?_⟩
  · obtain ⟨he, hoff⟩ := h.spent t ((touched_snoc hcall hinit).mp ht)
    rw [hepoch, htask]
    exact ⟨he, fun hm => (hcur t hm).elim hoff fun hne => hne he⟩
  · rw [hepoch, hinited]
    exact h.fresh t (mt (touched_snoc hcall hinit).mpr ht)
  · rw [taskCalls_snoc tr hcall]
    exact h.once

lemma EpochInv.step {a : TaskLabel} (h : EpochInv s₁ tr s) (hok : s.Ok) (hpc : s.pc ≠ .outside)
    (ha : a ≠ .finish) (hstep : TaskLoopStep s a s') : EpochInv s₁ (tr ++ [a]) s' := by
  cases hstep with
  | @init _ t _ hreg =>
    rw [TaskState.registered_iff, List.mem_append, not_or] at hreg
    refine ⟨h.taskEpoch, fun u hu => ?_, fun u hu => ?_, ?_⟩
    · simp only [TaskState.initTask_epoch, Function.update_apply]
      split_ifs with hut
      · exact ⟨rfl, hut ▸ hreg.1⟩
      · exact h.spent u ((touched_snoc_init.mp hu).resolve_right hut)
    · rw [touched_snoc_init, not_or] at hu
      simp only [TaskState.initTask_epoch, TaskState.initTask_inited,
        Function.update_of_ne hu.2]
      exact h.fresh u hu.1
    · rw [taskCalls_snoc tr (by simp)]
      exact h.once
  | enqueue =>
    exact h.other (by simp) (by simp) rfl rfl rfl fun u hu => Or.inl hu
  | join _ _ _ hw =>
    -- a task that joins the list has another epoch
    rw [not_or] at hw
    refine h.other (by simp) (by simp) rfl rfl rfl fun u hu => ?_
    rw [TaskState.join_current hw.1, List.mem_append, List.mem_singleton] at hu
    exact hu.imp_right fun hut => by rw [hut]; exact hw.2
  | unregister =>
    refine h.other (by simp) (by simp) rfl rfl rfl fun u hu => Or.inl ?_
    rw [TaskState.remove_current] at hu
    exact List.mem_of_mem_erase hu
  | initElsewhere | run => exact absurd rfl hpc
  | @call st t e rest hcur =>
    have hnodup : (t :: rest).Nodup := hcur ▸ hok.nodup.of_append_left
    have hmem : t ∈ st.current := hcur ▸ List.mem_cons_self
    refine ⟨h.taskEpoch, fun u hu => ?_, fun u hu => ?_, ?_⟩
    · simp only [TaskState.takeFirst_epoch, TaskState.takeFirst_current, hcur, List.tail_cons,
        Function.update_apply]
      split_ifs with hut
      · exact ⟨hok.epoch e rfl, hut ▸ (List.nodup_cons.mp hnodup).1⟩
      · obtain ⟨he, hoff⟩ := h.spent u ((touched_snoc_call.mp hu).resolve_right hut)
        refine ⟨he, fun hm => hoff ?_⟩
        change u ∈ st.current
        rw [hcur]
        exact List.mem_cons_of_mem t hm
    · rw [touched_snoc_call, not_or] at hu
      simp only [TaskState.takeFirst_epoch, TaskState.takeFirst_inited,
        Function.update_of_ne hu.2]
      exact h.fresh u hu.1
    · rw [taskCalls_snoc_call, ← List.concat_eq_append]
      exact h.once.concat fun hm => (h.spent t (Or.inl hm)).2 hmem
  | ret => exact h.other (by simp) (by simp) rfl rfl rfl fun u hu => Or.inl hu
  | finish => exact absurd rfl ha

/-! ### What is left -/

lemma pendingTasks_snoc (tr : List TaskLabel) (a : TaskLabel) :
    pendingTasks (tr ++ [a]) = match a with
      | .op (.register t)   => pendingTasks tr ++ [t]
      | .op (.unregister t) => (pendingTasks tr).erase t
      | .call t             => (pendingTasks tr).erase t
      | _                   => pendingTasks tr := by
  rw [pendingTasks, List.foldl_append]
  rfl

/-- The tasks that have been registered in this call are on one of the lists, and those on
`st->tasks` are in order. -/
structure PendingInv (tr : List TaskLabel) (s : TaskLoop) : Prop where
  nodup  : (pendingTasks tr).Nodup
  order  : s.st.tasks.Sublist (pendingTasks tr)
  listed : ∀ t ∈ pendingTasks tr, t ∈ s.st.current ++ s.st.tasks

namespace PendingInv

lemma nil (htasks : s₁.st.tasks = []) : PendingInv [] s₁ where
  nodup := List.nodup_nil
  order := by
    rw [htasks]
    exact List.Sublist.refl _
  listed t ht := absurd ht List.not_mem_nil

/-- A task comes to the end of one of the lists. -/
lemma add {tr' : List TaskLabel} (h : PendingInv tr s) (ht : t ∉ s.st.current ++ s.st.tasks)
    (htr : pendingTasks tr' = pendingTasks tr ++ [t])
    (htasks : s'.st.tasks.Sublist (s.st.tasks ++ [t]))
    (hmem : ∀ u, u = t ∨ u ∈ s.st.current ++ s.st.tasks → u ∈ s'.st.current ++ s'.st.tasks) :
    PendingInv tr' s' where
  nodup := by
    rw [htr, ← List.concat_eq_append]
    exact h.nodup.concat fun hm => ht (h.listed t hm)
  order := by
    rw [htr]
    exact htasks.trans (h.order.append (List.Sublist.refl _))
  listed u hu := by
    rw [htr, List.mem_append, List.mem_singleton] at hu
    exact hmem u (hu.symm.imp_right (h.listed u))

/-- A task leaves the lists. -/
lemma erase {tr' : List TaskLabel} (h : PendingInv tr s)
    (htr : pendingTasks tr' = (pendingTasks tr).erase t)
    (htasks : s'.st.tasks = s.st.tasks.erase t)
    (hcur : ∀ u ∈ s.st.current, u ≠ t → u ∈ s'.st.current) : PendingInv tr' s' where
  nodup := by
    rw [htr]
    exact h.nodup.erase t
  order := by
    rw [htr, htasks]
    exact h.order.erase t
  listed u hu := by
    rw [htr, h.nodup.mem_erase_iff] at hu
    rw [htasks]
    rcases List.mem_append.mp (h.listed u hu.2) with hm | hm
    · exact List.mem_append_left _ (hcur u hm hu.1)
    · exact List.mem_append_right _ ((List.mem_erase_of_ne hu.1).mpr hm)

lemma step {a : TaskLabel} (h : PendingInv tr s) (hok : s.Ok) (hpc : s.pc ≠ .outside)
    (ha : a ≠ .finish) (hstep : TaskLoopStep s a s') : PendingInv (tr ++ [a]) s' := by
  have htr := pendingTasks_snoc tr a
  cases hstep with
  | init => exact ⟨htr ▸ h.nodup, htr ▸ h.order, htr ▸ h.listed⟩
  | ret => exact ⟨htr ▸ h.nodup, htr ▸ h.order, htr ▸ h.listed⟩
  | enqueue _ _ hreg _ =>
    rw [TaskState.registered_iff] at hreg
    refine h.add hreg htr (List.Sublist.refl _) fun u hu => ?_
    simp only [TaskState.enqueue_current, TaskState.enqueue_tasks, List.mem_append,
      List.mem_singleton] at hu ⊢
    tauto
  | join _ _ hreg hw =>
    rw [TaskState.registered_iff] at hreg
    refine h.add hreg htr (List.sublist_append_left _ _) fun u hu => ?_
    rw [TaskState.join_current fun hn => hw (Or.inl hn)]
    simp only [TaskState.join_tasks, List.mem_append, List.mem_singleton] at hu ⊢
    tauto
  | unregister =>
    refine h.erase htr rfl fun u hu hut => ?_
    rw [TaskState.remove_current]
    exact (List.mem_erase_of_ne hut).mpr hu
  | initElsewhere | run => exact absurd rfl hpc
  | @call st t e rest hcur =>
    have hmem : t ∈ st.current := hcur ▸ List.mem_cons_self
    refine h.erase htr ?_ fun u hu hut => ?_
    · rw [List.erase_of_not_mem (hok.not_mem_tasks hmem)]
      rfl
    · simp only [hcur] at hu
      simp only [TaskState.takeFirst_current, hcur, List.tail_cons]
      exact (List.mem_cons.mp hu).resolve_left hut
  | finish => exact absurd rfl ha

/-- When the list is worked off, the tasks that are left are on `st->tasks`. -/
lemma tasks_eq (h : PendingInv tr s) (hcur : s.st.current = []) :
    s.st.tasks = pendingTasks tr := by
  refine h.order.eq_of_length_le (List.subperm_of_subset h.nodup fun t ht => ?_).length_le
  simpa [hcur] using h.listed t ht

end PendingInv

/-- Both invariants hold all through a call. -/
lemma round_inv (hok : s₁.Ok) (hpc : s₁.pc ≠ .outside) (htasks : s₁.st.tasks = [])
    (hfin : ∀ a ∈ tr, a ≠ .finish) (h : (taskLts e).exec s₁ tr = some s) :
    EpochInv s₁ tr s ∧ PendingInv tr s := by
  revert hfin
  refine Kit.Lts.exec_induct (L := taskLts e)
    (P := fun tr s => (∀ a ∈ tr, a ≠ .finish) → EpochInv s₁ tr s ∧ PendingInv tr s)
    (fun _ => ⟨epochInv_nil s₁, .nil htasks⟩) ?_ h
  intro tr s a s' hexec ih hs hfin
  have hfin' : ∀ b ∈ tr, b ≠ .finish := fun b hb => hfin b (List.mem_append_left _ hb)
  have ha := hfin a (List.mem_append_right _ (List.mem_singleton_self a))
  obtain ⟨hepoch, hpending⟩ := ih hfin'
  obtain ⟨hoks, hpcs⟩ := taskLoop_drains.inv_exec ⟨hok, hpc⟩ hfin' hexec
  have hstep : TaskLoopStep s a s' := .of_step hs
  exact ⟨hepoch.step hoks hpcs ha hstep, hpending.step hoks hpcs ha hstep⟩

/-- A handler is called for a task that was initialised before the call, and has neither run nor
been initialised again in it. -/
lemma called_fresh {tr₁ tr₂ : List TaskLabel} (hok : s₁.Ok) (hpc : s₁.pc ≠ .outside)
    (htasks : s₁.st.tasks = []) (hfin : ∀ a ∈ tr, a ≠ .finish)
    (h : (taskLts e).exec s₁ tr = some s) (htr : tr = tr₁ ++ .call t :: tr₂) :
    ¬ Touched tr₁ t ∧ s₁.st.inited t = true := by
  subst htr
  have hfin₁ : ∀ a ∈ tr₁, a ≠ .finish := fun a ha => hfin a (List.mem_append_left _ ha)
  rw [Kit.Lts.exec_append, Option.bind_eq_some_iff] at h
  obtain ⟨s₂, h₂, h⟩ := h
  obtain ⟨s₃, h₃, -⟩ := Option.bind_eq_some_iff.mp h
  obtain ⟨hepoch, -⟩ := round_inv hok hpc htasks hfin₁ h₂
  have hok₂ := (taskLoop_drains.inv_exec ⟨hok, hpc⟩ hfin₁ h₂).1
  have hstep : TaskLoopStep s₂ (.call t) s₃ := .of_step h₃
  cases hstep with
  | @call st _ _ rest hcur =>
    have hmem : t ∈ st.current := hcur ▸ List.mem_cons_self
    have hnot : ¬ Touched tr₁ t := fun ht => (hepoch.spent t ht).2 hmem
    exact ⟨hnot, (hepoch.fresh t hnot).2.symm.trans (hok₂.inited t (List.mem_append_left _ hmem))⟩

/-- A task that is registered by a handler is run in the same call, unless it is unregistered
again, if it has neither run nor been initialised in it and its epoch is not that of the call. -/
lemma called_of_registered {tr₁ tr₂ : List TaskLabel} (hok : s₁.Ok) (hpc : s₁.pc ≠ .outside)
    (htasks : s₁.st.tasks = []) (hfin : ∀ a ∈ tr, a ≠ .finish)
    (h : (taskLts e).exec s₁ tr = some s) (htr : tr = tr₁ ++ .op (.register t) :: tr₂)
    (ht : ¬ Touched tr₁ t) (hne : s₁.st.epoch t ≠ s₁.st.taskEpoch) (hcur : s.st.current = []) :
    t ∈ taskCalls tr₂ ∨ taskCancelled tr₂ t = true := by
  subst htr
  have hfin₁ : ∀ a ∈ tr₁, a ≠ .finish := fun a ha => hfin a (List.mem_append_left _ ha)
  rw [Kit.Lts.exec_append, Option.bind_eq_some_iff] at h
  obtain ⟨s₂, h₂, h⟩ := h
  obtain ⟨s₃, h₃, h⟩ := Option.bind_eq_some_iff.mp h
  obtain ⟨hepoch, -⟩ := round_inv hok hpc htasks hfin₁ h₂
  obtain ⟨hok₂, hpc₂⟩ := taskLoop_drains.inv_exec ⟨hok, hpc⟩ hfin₁ h₂
  have hstep : TaskLoopStep s₂ (.op (.register t)) s₃ := .of_step h₃
  obtain ⟨later, -, hcalls⟩ := taskLoop_drains.taken_append_todo
    ⟨hstep.ok hok₂, hstep.pc_ne_outside hpc₂ nofun⟩
    (fun a ha => hfin a (List.mem_append_right _ (List.mem_cons_of_mem _ ha))) h
  have hmem : t ∈ s₃.st.current := by
    cases hstep with
    | enqueue _ _ _ hw =>
      rcases hw with hnone | heq
      · exact absurd (hok₂.current.mp hnone) hpc₂
      · rw [(hepoch.fresh t ht).1, hepoch.taskEpoch] at heq
        exact absurd heq hne
    | join _ _ _ hw =>
      rw [TaskState.join_current fun hn => hw (Or.inl hn)]
      exact List.mem_append_right _ (List.mem_singleton_self t)
  rw [or_iff_not_imp_right]
  intro hkept
  rw [hcur, List.append_nil] at hcalls
  rw [taskCalls, hcalls]
  exact List.mem_append_left _ (List.mem_filter.mpr ⟨hmem, by simpa [taskCancelled] using hkept⟩)

/-- `iv_run_tasks` never stops short of its end: it can call a handler or return. -/
lemma TaskLoop.progress (hpc : s.pc ≠ .outside) :
    ∃ a, (a = .ret ∨ a = .finish ∨ ∃ t, a = .call t) ∧ (taskLoopStep s a).isSome := by
  obtain ⟨st, pc⟩ := s
  cases pc with
  | outside => exact absurd rfl hpc
  | handler t e => exact ⟨.ret, Or.inl rfl, rfl⟩
  | loop e =>
    cases hcur : st.current with
    | nil => exact ⟨.finish, Or.inr (Or.inl rfl), by simp [taskLoopStep, hcur]⟩
    | cons t rest => exact ⟨.call t, Or.inr (Or.inr ⟨t, rfl⟩), by simp [taskLoopStep, hcur]⟩

end Round

/-! ### Whole calls -/

/-- What holds when `iv_run_tasks` has been called in the state `st₀`, has taken the steps `tr` of
its loop, and has come to `s`. -/
structure RoundOk (st₀ : TaskState) (tr : List TaskLabel) (s : TaskLoop) : Prop where
  once     : (taskCalls tr).Nodup
  /-- First come the tasks that were on `st->tasks`, but not those unregistered before. -/
  fifo     : ∃ later, taskCalls tr ++ s.st.current
    = (st₀.tasks.filter fun t => !taskCancelled tr t) ++ later
  /-- No handler is called for a task that has run or been initialised in this call. -/
  fresh    : ∀ t tr₁ tr₂, tr = tr₁ ++ .call t :: tr₂ →
    t ∉ taskCalls tr₁ ∧ .op (.init t) ∉ tr₁
  /-- The call ends, once the handlers return. -/
  progress : ∃ a, (a = .ret ∨ a = .finish ∨ ∃ t, a = .call t) ∧ (taskLoopStep s a).isSome
  bounded  : ∀ I : Finset TaskPtr, (∀ t, st₀.inited t = true → t ∈ I) →
    (taskCalls tr).length ≤ I.card
  /-- When the loop ends, everything that is left is on `st->tasks`. A task that was registered
  meanwhile has been run unless it could not be, or its epoch was that of the call by chance. -/
  finish   : (taskLoopStep s .finish).isSome →
    (∃ later, taskCalls tr = (st₀.tasks.filter fun t => !taskCancelled tr t) ++ later) ∧
    s.st.tasks = pendingTasks tr ∧
    ∀ t tr₁ tr₂, tr = tr₁ ++ .op (.register t) :: tr₂ → t ∉ taskCalls tr₁ →
      .op (.init t) ∉ tr₁ → st₀.epoch t ≠ st₀.taskEpoch + 1 →
      t ∈ taskCalls tr₂ ∨ taskCancelled tr₂ t = true

section Runs

variable {e : BitVec 32} {s₀ : TaskLoop} {tr₀ : List TaskLabel}

lemma taskLoop_ok (h : (taskLts e).Run tr₀ s₀) : s₀.Ok := by
  refine h.reachable.invariant (P := TaskLoop.Ok) ?_ fun s a s' hok hstep =>
    (TaskLoopStep.of_step hstep).ok hok
  exact ⟨List.nodup_nil, fun t ht => absurd ht List.not_mem_nil, iff_of_true rfl rfl, nofun⟩

/-- Whenever `iv_run_tasks` is called, in whatever epoch and whatever the handlers do. -/
theorem taskRounds_of_run (h : (taskLts e).Run tr₀ s₀) (hpc : s₀.pc = .outside) :
    ∃ s₁, (taskLts e).step s₀ .run = some s₁ ∧
      ∀ tr s, (taskLts e).exec s₁ tr = some s → .finish ∉ tr → RoundOk s₀.st tr s := by
  obtain ⟨s₁, hs₁⟩ : ∃ s₁, (taskLts e).step s₀ .run = some s₁ := ⟨_, if_pos hpc⟩
  have hstep : TaskLoopStep s₀ .run s₁ := .of_step hs₁
  have hok₁ := hstep.ok (taskLoop_ok h)
  obtain ⟨hpc₁, hst₁⟩ : s₁.pc ≠ .outside ∧ s₁.st = runTasksStart s₀.st := by
    cases hstep
    exact ⟨nofun, rfl⟩
  have htasks : s₁.st.tasks = [] := by rw [hst₁]; rfl
  refine ⟨s₁, hs₁, fun tr s hexec hfin => ?_⟩
  have hfin' : ∀ a ∈ tr, a ≠ .finish := fun a ha h => hfin (h ▸ ha)
  obtain ⟨hepoch, hpending⟩ := round_inv hok₁ hpc₁ htasks hfin' hexec
  obtain ⟨later, -, hcalls⟩ := taskLoop_drains.taken_append_todo ⟨hok₁, hpc₁⟩ hfin' hexec
  rw [hst₁] at hcalls
  change taskCalls tr ++ s.st.current
    = (s₀.st.tasks.filter fun t => !taskCancelled tr t) ++ later at hcalls
  refine ⟨hepoch.once, ⟨later, hcalls⟩, fun t tr₁ tr₂ htr => ?_, ?_, fun I hI => ?_,
    fun hend => ?_⟩
  · exact not_or.mp (called_fresh hok₁ hpc₁ htasks hfin' hexec htr).1
  · exact TaskLoop.progress (taskLoop_drains.inv_exec ⟨hok₁, hpc₁⟩ hfin' hexec).2
  · rw [← List.toFinset_card_of_nodup hepoch.once]
    refine Finset.card_le_card fun t ht => hI t ?_
    obtain ⟨tr₁, tr₂, htr⟩ := List.append_of_mem (mem_taskCalls.mp (List.mem_toFinset.mp ht))
    have hinited := (called_fresh hok₁ hpc₁ htasks hfin' hexec htr).2
    rwa [hst₁] at hinited
  · obtain ⟨s', hs'⟩ := Option.isSome_iff_exists.mp hend
    cases TaskLoopStep.of_step hs' with
    | finish _ hcur =>
      refine ⟨⟨later, by simpa [hcur] using hcalls⟩, hpending.tasks_eq hcur, ?_⟩
      intro t tr₁ tr₂ htr hnot hinit hne
      refine called_of_registered hok₁ hpc₁ htasks hfin' hexec htr (not_or.mpr ⟨hnot, hinit⟩) ?_
        hcur
      rwa [hst₁]

/-- Task `2` has the epoch that the call gets by wraparound. So it is put off to the next call
when task `1` registers it, and task `3` is not. -/
theorem taskRounds_of_run_wraparound :
    ∃ s₀ s₁ s, (taskLts (-1)).Run
        [.initElsewhere 1 7, .initElsewhere 2 0, .initElsewhere 3 7, .op (.register 1)] s₀ ∧
      (taskLts (-1)).step s₀ .run = some s₁ ∧
      (taskLts (-1)).exec s₁
        [.call 1, .op (.register 2), .op (.register 3), .op (.register 1), .ret, .call 3, .ret]
        = some s ∧
      s.st.taskEpoch = 0 ∧ s.st.tasks = [2, 1] ∧
      RoundOk s₀.st
        [.call 1, .op (.register 2), .op (.register 3), .op (.register 1), .ret, .call 3, .ret]
        s := by
  have hrun : ((taskLts (-1)).exec (taskLts (-1)).init
      ([.initElsewhere 1 7, .initElsewhere 2 0, .initElsewhere 3 7, .op (.register 1)] ++
        .run :: [.call 1, .op (.register 2), .op (.register 3), .op (.register 1), .ret, .call 3,
          .ret])).map (fun s => (s.st.taskEpoch, s.st.tasks)) = some (0, [2, 1]) := by decide
  obtain ⟨s₀, s₁, s, hrun, hstep, hexec, heq⟩ := Kit.Lts.exists_step_of_map hrun
  have hpc : s₀.pc = .outside := by
    have hrel : TaskLoopStep s₀ .run s₁ := .of_step hstep
    cases hrel
    rfl
  obtain ⟨s₁', hstep', hall⟩ := taskRounds_of_run hrun hpc
  obtain rfl := Option.some.inj (hstep.symm.trans hstep')
  obtain ⟨hepoch, htasks⟩ := Prod.mk.inj heq
  exact ⟨s₀, s₁, s, hrun, hstep, hexec, hepoch, htasks, hall _ s hexec (by decide)⟩

end Runs

end Ivykis
