import Mathlib.Data.List.Nodup
import Ivykis.Basic
import Ivykis.Kit.Lts

/-!
# Tasks (`iv_task.c`)

`iv_run_tasks` moves all of `st->tasks` to a list of its own and works this off. A handler that
runs meanwhile may register tasks. Such a task joins the list that is being worked off if its
epoch is not that of the current call, and waits on `st->tasks` otherwise. Running or initialising
a task gives it the epoch of the current call, so that neither happens again in it.
-/

namespace Ivykis

/-- The address of a `struct iv_task_`. -/
abbrev TaskPtr := ℕ

/-- The task part of `struct iv_state`, and the tasks themselves. -/
structure TaskState where
  numobjs      : ℤ
  tasks        : List TaskPtr
  /-- The list that `tasks_current` points to, if it is not null. -/
  tasksCurrent : Option (List TaskPtr)
  taskEpoch    : BitVec 32
  epoch        : TaskPtr → BitVec 32
  /-- `IV_TASK_INIT` has been called for the task. -/
  inited       : TaskPtr → Bool

namespace TaskState

/-- The list that is being worked off. -/
def current (st : TaskState) : List TaskPtr :=
  st.tasksCurrent.getD []

/-- `!iv_list_empty(&t->list)`. -/
def registered (st : TaskState) (t : TaskPtr) : Bool :=
  t ∈ st.current || t ∈ st.tasks

/-- `IV_TASK_INIT`, when the state of the thread has the epoch `e`. -/
@[simps]
def initTask (st : TaskState) (t : TaskPtr) (e : BitVec 32) : TaskState :=
  { st with
    epoch  := Function.update st.epoch t e
    inited := Function.update st.inited t true }

/-- `iv_list_add_tail(&t->list, &st->tasks)`, for a new object. -/
@[simps]
def enqueue (st : TaskState) (t : TaskPtr) : TaskState :=
  { st with numobjs := st.numobjs + 1, tasks := st.tasks ++ [t] }

/-- `iv_list_add_tail(&t->list, st->tasks_current)`, for a new object. -/
@[simps]
def join (st : TaskState) (t : TaskPtr) : TaskState :=
  { st with
    numobjs      := st.numobjs + 1
    tasksCurrent := st.tasksCurrent.map fun cur => cur ++ [t] }

/-- `iv_list_del_init(&t->list)`, wherever `t` is. -/
@[simps]
def remove (st : TaskState) (t : TaskPtr) : TaskState :=
  { st with
    numobjs      := st.numobjs - 1
    tasks        := st.tasks.erase t
    tasksCurrent := st.tasksCurrent.map fun cur => cur.erase t }

/-- The loop of `iv_run_tasks` up to the call of the handler, for the first task of the list. -/
@[simps]
def takeFirst (st : TaskState) (t : TaskPtr) (e : BitVec 32) : TaskState :=
  { st with
    tasksCurrent := st.tasksCurrent.map List.tail
    numobjs      := st.numobjs - 1
    epoch        := Function.update st.epoch t e }

end TaskState

/-- `iv_task_init`, on a state that has the epoch `e`. -/
def ivTaskInit (e : BitVec 32) : TaskState where
  numobjs      := 0
  tasks        := []
  tasksCurrent := none
  taskEpoch    := e
  epoch _      := 0
  inited _     := false

/-- `iv_task_register`. -/
def ivTaskRegister (st : TaskState) (t : TaskPtr) : Except Fault TaskState :=
  if st.registered t then
    .error (.fatal "iv_task_register: called with task still on a list")
  else if st.tasksCurrent = none ∨ st.epoch t = st.taskEpoch then .ok (st.enqueue t)
  else .ok (st.join t)

/-- `iv_task_unregister`. -/
def ivTaskUnregister (st : TaskState) (t : TaskPtr) : Except Fault TaskState :=
  if !st.registered t then
    .error (.fatal "iv_task_unregister: called with task not on a list")
  else .ok (st.remove t)

/-- `iv_run_tasks` up to its loop. -/
@[simps]
def runTasksStart (st : TaskState) : TaskState :=
  { st with tasks := [], tasksCurrent := some st.tasks, taskEpoch := st.taskEpoch + 1 }

/-! ### Runs -/

/-- What user code does with a task. -/
inductive TaskOp where
  | init (t : TaskPtr)
  | register (t : TaskPtr)
  | unregister (t : TaskPtr)
  deriving DecidableEq, Repr

/-- A task is initialised while it is not on a list, and used only after that. -/
def taskCall (st : TaskState) : TaskOp → Option TaskState
  | .init t       => if st.registered t then none else some (st.initTask t st.taskEpoch)
  | .register t   => if st.inited t then (ivTaskRegister st t).toOption else none
  | .unregister t => if st.inited t then (ivTaskUnregister st t).toOption else none

/-- Where a thread is with respect to `iv_run_tasks`, whose local variable is `epoch`. -/
inductive TaskPc where
  | outside
  | loop (epoch : BitVec 32)
  /-- In the handler of `t`. -/
  | handler (t : TaskPtr) (epoch : BitVec 32)
  deriving DecidableEq, Repr

structure TaskLoop where
  st : TaskState
  pc : TaskPc

/-- What a thread can do next. -/
inductive TaskLabel where
  | op (op : TaskOp)
  /-- `IV_TASK_INIT` before `iv_init`, when `e` is `0`, or in another thread. -/
  | initElsewhere (t : TaskPtr) (e : BitVec 32)
  /-- `iv_run_tasks` is called. -/
  | run
  /-- The loop takes `t` off the list and calls its handler. -/
  | call (t : TaskPtr)
  /-- The handler returns. -/
  | ret
  /-- `iv_run_tasks` returns. -/
  | finish
  deriving DecidableEq, Repr

/-- The loop does not run while user code does. -/
def TaskPc.inUserCode : TaskPc → Bool
  | .loop _ => false
  | _       => true

def taskLoopStep (s : TaskLoop) : TaskLabel → Option TaskLoop
  | .op op =>
    if s.pc.inUserCode then (taskCall s.st op).map fun st => { s with st := st } else none
  | .initElsewhere t e =>
    if s.pc = .outside ∧ ¬ s.st.registered t then some { s with st := s.st.initTask t e } else none
  | .run =>
    if s.pc = .outside then some ⟨runTasksStart s.st, .loop (s.st.taskEpoch + 1)⟩ else none
  | .call t =>
    match s.pc with
    | .loop e =>
      if s.st.current.head? = some t then some ⟨s.st.takeFirst t e, .handler t e⟩ else none
    | _       => none
  | .ret =>
    match s.pc with
    | .handler _ e => some { s with pc := .loop e }
    | _            => none
  | .finish =>
    match s.pc with
    | .loop _ =>
      if s.st.current = [] then some ⟨{ s.st with tasksCurrent := none }, .outside⟩ else none
    | _       => none

/-- A thread that uses tasks and calls `iv_run_tasks` any number of times, from epoch `e` on. -/
def taskLts (e : BitVec 32) : Kit.Lts TaskLoop TaskLabel where
  init := ⟨ivTaskInit e, .outside⟩
  step := taskLoopStep

/-! ### Steps -/

/-- `taskLoopStep` by cases; `iv_task_register` has two of them. -/
inductive TaskLoopStep : TaskLoop → TaskLabel → TaskLoop → Prop where
  | init {s : TaskLoop} {t : TaskPtr} (hpc : s.pc.inUserCode) (h : ¬ s.st.registered t) :
      TaskLoopStep s (.op (.init t)) { s with st := s.st.initTask t s.st.taskEpoch }
  | enqueue {s : TaskLoop} {t : TaskPtr} (hpc : s.pc.inUserCode) (hi : s.st.inited t)
      (h : ¬ s.st.registered t)
      (hw : s.st.tasksCurrent = none ∨ s.st.epoch t = s.st.taskEpoch) :
      TaskLoopStep s (.op (.register t)) { s with st := s.st.enqueue t }
  | join {s : TaskLoop} {t : TaskPtr} (hpc : s.pc.inUserCode) (hi : s.st.inited t)
      (h : ¬ s.st.registered t)
      (hw : ¬ (s.st.tasksCurrent = none ∨ s.st.epoch t = s.st.taskEpoch)) :
      TaskLoopStep s (.op (.register t)) { s with st := s.st.join t }
  | unregister {s : TaskLoop} {t : TaskPtr} (hpc : s.pc.inUserCode) (h : s.st.registered t) :
      TaskLoopStep s (.op (.unregister t)) { s with st := s.st.remove t }
  | initElsewhere {st : TaskState} {t : TaskPtr} (e : BitVec 32) (h : ¬ st.registered t) :
      TaskLoopStep ⟨st, .outside⟩ (.initElsewhere t e) ⟨st.initTask t e, .outside⟩
  | run {st : TaskState} :
      TaskLoopStep ⟨st, .outside⟩ .run ⟨runTasksStart st, .loop (st.taskEpoch + 1)⟩
  | call {st : TaskState} {t : TaskPtr} {e : BitVec 32} {rest : List TaskPtr}
      (h : st.current = t :: rest) :
      TaskLoopStep ⟨st, .loop e⟩ (.call t) ⟨st.takeFirst t e, .handler t e⟩
  | ret {st : TaskState} (t : TaskPtr) (e : BitVec 32) :
      TaskLoopStep ⟨st, .handler t e⟩ .ret ⟨st, .loop e⟩
  | finish {st : TaskState} (e : BitVec 32) (h : st.current = []) :
      TaskLoopStep ⟨st, .loop e⟩ .finish ⟨{ st with tasksCurrent := none }, .outside⟩

lemma TaskLoopStep.of_step {s s' : TaskLoop} {a : TaskLabel} (h : taskLoopStep s a = some s') :
    TaskLoopStep s a s' := by
  cases a with
  | op op =>
    simp only [taskLoopStep, Option.ite_none_right_eq_some, Option.map_eq_some_iff] at h
    obtain ⟨hpc, st', hst, rfl⟩ := h
    cases op with
    | init t =>
      simp only [taskCall, Option.ite_none_left_eq_some, Option.some.injEq] at hst
      obtain ⟨hreg, rfl⟩ := hst
      exact .init hpc hreg
    | register t =>
      simp only [taskCall, Option.ite_none_right_eq_some, toOption_eq_some, ivTaskRegister] at hst
      obtain ⟨hi, hst⟩ := hst
      split_ifs at hst with hreg hw
      · obtain rfl := Except.ok.inj hst
        exact .enqueue hpc hi hreg hw
      · obtain rfl := Except.ok.inj hst
        exact .join hpc hi hreg hw
    | unregister t =>
      simp only [taskCall, Option.ite_none_right_eq_some, toOption_eq_some, ivTaskUnregister]
        at hst
      obtain ⟨-, hst⟩ := hst
      split_ifs at hst with hreg
      obtain rfl := Except.ok.inj hst
      exact .unregister hpc (by simpa using hreg)
  | initElsewhere t e =>
    obtain ⟨st, pc⟩ := s
    simp only [taskLoopStep, Option.ite_none_right_eq_some, Option.some.injEq] at h
    obtain ⟨⟨rfl, hreg⟩, rfl⟩ := h
    exact .initElsewhere e hreg
  | run =>
    obtain ⟨st, pc⟩ := s
    simp only [taskLoopStep, Option.ite_none_right_eq_some, Option.some.injEq] at h
    obtain ⟨rfl, rfl⟩ := h
    exact .run
  | call t =>
    obtain ⟨st, pc⟩ := s
    cases pc with
    | loop e =>
      simp only [taskLoopStep, Option.ite_none_right_eq_some, Option.some.injEq] at h
      obtain ⟨hhead, rfl⟩ := h
      exact .call (List.eq_cons_of_mem_head? hhead)
    | outside => cases h
    | handler t e => cases h
  | ret =>
    obtain ⟨st, pc⟩ := s
    cases pc with
    | handler t e =>
      obtain rfl := Option.some.inj h
      exact .ret t e
    | outside => cases h
    | loop e => cases h
  | finish =>
    obtain ⟨st, pc⟩ := s
    cases pc with
    | loop e =>
      simp only [taskLoopStep, Option.ite_none_right_eq_some, Option.some.injEq] at h
      obtain ⟨hcur, rfl⟩ := h
      exact .finish e hcur
    | outside => cases h
    | handler t e => cases h

end Ivykis
