import Ivykis.Work.ExactlyOnce

/-!
# A callback that takes too long

The loop of `iv_work_thread_got_event` compares the value that `seq_tail` had when the handler was
called with the current value of `seq_head`. While a thread is in one callback, the others may take
any number of items. Once they have taken more than `2 ^ 31` of them the sign of the difference is
the wrong one, and the thread takes an item from the empty queue.
-/

namespace Ivykis

open WorkState

variable {maxThreads : ℤ} {st st' : WorkState} {op : WorkOp} {tr : List WorkOp}
  {thr : ThreadId} {work : WorkPtr} {items : List WorkPtr} {lastSeq : BitVec 32} {takenAt : ℕ}

/-- Fewer than `2 ^ 31` items are in the queue. -/
def WorkState.shortQueue (st : WorkState) (op : WorkOp) : Prop :=
  op.isSubmit = true → st.workItems.length + 1 < 2 ^ 31

instance (st : WorkState) (op : WorkOp) : Decidable (st.shortQueue op) :=
  inferInstanceAs (Decidable (_ → _))

/-- The body of the loop of `iv_work_thread_got_event` is entered by `thr`, in the locked section
that starts in `st`: after it has set `last_seq`, or after a callback. -/
def WorkState.EntersBody (st : WorkState) (thr : ThreadId) : Prop :=
  thr ∈ st.live ∧
    (((st.threads thr).pc = .entering ∧ 0 < (st.seqTail - st.seqHead).toInt) ∨
      ∃ work lastSeq takenAt, (st.threads thr).pc = .running work lastSeq takenAt ∧
        0 < (lastSeq - st.seqHead).toInt)

/-- As long as fewer than `2 ^ 31` items are in the queue, and fewer are taken from it during a
callback, the body of the loop finds an item in the queue. -/
theorem entersBody_of_run (h : ((workLts maxThreads).restrict WorkState.inRange).Run tr st)
    (hbody : st.EntersBody thr) : st.workItems ≠ [] := by
  obtain ⟨hinv, hrange⟩ := rangeOk_of_run h
  obtain ⟨hthr, ⟨-, hpos⟩ | ⟨work, lastSeq, takenAt, hpc, hpos⟩⟩ := hbody
  · have hnone : ¬ st.TakesNone (.enter thr none) := hrange.not_takesNone hinv.seq
    exact fun hitems => hnone ⟨hitems, Or.inl ⟨thr, none, rfl, hpos⟩⟩
  · have hnone : ¬ st.TakesNone (.done thr work none) := hrange.not_takesNone hinv.seq
    exact fun hitems => hnone
      ⟨hitems, Or.inr ⟨thr, work, none, lastSeq, takenAt, rfl, hthr, hpc, hpos⟩⟩

/-- The second thread has taken an item since the first one has set `last_seq`. -/
def sharedQueue : List WorkOp :=
  [.submit 5 true 1, .submit 6 true 2, .submit 7 true 9, .started 1, .gotEvent 1,
    .enter 1 (some 5), .started 2, .gotEvent 2, .enter 2 (some 6)]

theorem entersBody_of_run_sharedQueue :
    ∃ st, ((workLts 2).restrict WorkState.inRange).Run sharedQueue st ∧
      (st.threads 1).pc = .running 5 3 1 ∧ st.EntersBody 1 ∧ st.workItems ≠ [] := by
  refine Kit.Lts.exists_run_of_decide (fun st => 1 ∈ st.live ∧
    (st.threads 1).pc = .running 5 3 1 ∧ st.seqHead = 2) (by decide)
    fun st hst ⟨hlive, hpc, hhead⟩ => ?_
  have hbody : st.EntersBody 1 :=
    ⟨hlive, Or.inr ⟨5, 3, 1, hpc, by rw [hhead]; decide⟩⟩
  exact ⟨hpc, hbody, entersBody_of_run hst hbody⟩

/-! ### Steps that can be taken -/

/-- A submission that finds as many threads as there may be, none of them idle. -/
lemma step_submit_full {create : Bool} (howner : st.owner = .loop)
    (hdown : st.shuttingDown = false) (hfresh : st.fresh work) (hthr : thr ∉ st.live)
    (hfreed : st.freed = false) (hidle : st.idleThreads = [])
    (hfull : ¬ st.startedThreads < maxThreads) :
    (workLts maxThreads).step st (.submit work create thr) = some (st.addItem work) := by
  rw [workLts_step, workStep, if_pos ⟨by rw [howner]; rfl, by simp [hdown], hfresh, hthr⟩]
  simp [ivWorkSubmitPool, locked, hfreed, wakeForItem, hidle, hfull]

/-- A callback returns, and its thread has had its share. -/
lemma step_done_again (hthr : thr ∈ st.live)
    (hpc : (st.threads thr).pc = .running work lastSeq takenAt) (hfreed : st.freed = false)
    (hle : ¬ 0 < (lastSeq - st.seqHead).toInt) (hseq : st.seqHead ≠ st.seqTail) :
    (workLts maxThreads).step st (.done thr work none) =
      some ((st.addDone work).lookAgain thr) := by
  have hfinish : gotEventFinish (st.addDone work) thr =
      .ok ((st.addDone work).lookAgain thr) := by
    simp [gotEventFinish, setPc, hseq, postKick, setThread, lookAgain]
  have hloop : gotEventLoop (st.addDone work) thr lastSeq =
      .ok (none, (st.addDone work).lookAgain thr) := by
    simp only [gotEventLoop, addDone_seqHead, if_neg hle, hfinish]
    rfl
  have hdone : gotEventDone st thr work lastSeq =
      .ok (none, (st.addDone work).lookAgain thr) :=
    locked_eq_ok.mpr ⟨hfreed, hloop⟩
  rw [workLts_step]
  simp only [workStep, hpc, hthr, true_and, if_true, checkNext_eq_ok, hdone]

/-- There is nothing to take for a thread that enters the body of the loop. -/
lemma workStep_done_none {next : Option WorkPtr} (hthr : thr ∈ st.live)
    (hpc : (st.threads thr).pc = .running work lastSeq takenAt) (hfreed : st.freed = false)
    (hpos : 0 < (lastSeq - st.seqHead).toInt) (hitems : st.workItems = []) :
    workStep maxThreads st (.done thr work next) = some (.error .invalidAccess) := by
  have hloop : gotEventLoop (st.addDone work) thr lastSeq = .error .invalidAccess := by
    simp only [gotEventLoop, addDone_seqHead, hpos, if_true, addDone_workItems, hitems]
  have hdone : gotEventDone st thr work lastSeq = .error .invalidAccess := by
    rw [gotEventDone, locked, if_neg (by simp [hfreed])]
    exact hloop
  simp only [workStep, hpc, hthr, true_and, if_true, checkNext_eq_error, hdone]

/-- A thread that is not idle takes the first item. -/
lemma step_enter_take (hthr : thr ∈ st.live) (hpc : (st.threads thr).pc = .entering)
    (hfreed : st.freed = false) (hidle : thr ∉ st.idleThreads)
    (hpos : 0 < (st.seqTail - st.seqHead).toInt) (hitems : st.workItems = work :: items) :
    (workLts maxThreads).step st (.enter thr (some work)) =
      some ((st.setThread thr fun t => { t with kicked := false }).takeItem thr st.seqTail work
        items) := by
  have henter : gotEventEnter st thr = .ok (some work,
      (st.setThread thr fun t => { t with kicked := false }).takeItem thr st.seqTail work
        items) := by
    refine locked_eq_ok.mpr ⟨hfreed, ?_⟩
    simp only [leaveIdle, setThread_idleThreads, hidle, if_false, ok_bind, gotEventLoop,
      setThread_seqTail, setThread_seqHead, setThread_workItems, hpos, if_true, hitems]
  rw [workLts_step]
  simp only [workStep, hthr, hpc, and_self, if_true, checkNext_eq_ok, henter]

/-! ### The run -/

/-- Thread 0 is in the callback of item 0. Thread 1 has taken `n` further items in the meantime,
one by one, and is in the callback of the next one. -/
def cycled (n : ℕ) : WorkState where
  shuttingDown   := false
  startedThreads := 2
  idleThreads    := []
  seqHead        := BitVec.ofNat 32 (n + 2)
  seqTail        := BitVec.ofNat 32 (n + 2)
  workItems      := []
  workDone       := (List.range n).map (· + 1)
  evPosted       := decide (0 < n)
  neededPosted   := false
  freed          := false
  live           := {0, 1}
  threads        := fun thr =>
    { kicked := false, kickPosted := false, idleTimer := .unregistered
      pc := if thr = 0 then .running 0 1 1
        else if thr = 1 then .running (n + 1) (BitVec.ofNat 32 (n + 2)) (n + 2)
        else .starting }
  owner          := .loop
  completed      := []
  taken          := n + 2

/-- Another item goes through thread 1. -/
def cycle (n : ℕ) : List WorkOp :=
  [.submit (n + 2) true (n + 2), .done 1 (n + 1) none, .gotEvent 1, .enter 1 (some (n + 2))]

/-- Both threads are started for an item each. -/
def cycleStart : List WorkOp :=
  [.submit 0 true 0, .started 0, .gotEvent 0, .enter 0 (some 0), .submit 1 true 1, .started 1,
    .gotEvent 1, .enter 1 (some 1)]

/-- The first `n` items after that. -/
def cycles : ℕ → List WorkOp
  | 0     => cycleStart
  | n + 1 => cycles n ++ cycle n

lemma submit_cycled (n : ℕ) : (workLts 2).step (cycled n) (.submit (n + 2) true (n + 2)) =
    some ((cycled n).addItem (n + 2)) := by
  have hfresh : (cycled n).fresh (n + 2) := by
    refine ⟨by simp [cycled], ?_, by simp [cycled, stolen], by simp [cycled], ?_⟩
    · intro hmem
      obtain ⟨k, hk, heq⟩ := List.mem_map.mp hmem
      have hlt := List.mem_range.mp hk
      obtain rfl : k = n + 1 := Nat.succ.inj heq
      omega
    · simp [cycled, WorkPc.work]
  exact step_submit_full rfl rfl hfresh (by simp [cycled]) rfl rfl (by simp [cycled])

/-- The callback of the previous item has returned, and thread 1 has been called again. -/
def cycleCalled (n : ℕ) : WorkState :=
  ((((cycled n).addItem (n + 2)).addDone (n + 1)).lookAgain 1).setThread 1
    fun t => { t with kickPosted := false, pc := .entering }

lemma takeItem_cycleCalled (n : ℕ) :
    ((cycleCalled n).setThread 1 fun t => { t with kicked := false }).takeItem 1
      (BitVec.ofNat 32 (n + 3)) (n + 2) [] = cycled (n + 1) := by
  have hdone : (List.range n).map (· + 1) ++ [n + 1] = (List.range (n + 1)).map (· + 1) := by
    rw [List.range_succ, List.map_append]
    rfl
  have hempty : (decide (0 < n) || ((List.range n).map (· + 1)).isEmpty) = true := by
    cases n <;> simp
  have hseq : BitVec.ofNat 32 (n + 2) + 1 = BitVec.ofNat 32 (n + 3) :=
    (BitVec.ofNat_add (n + 2) 1).symm
  have hthreads : Function.update (cycled n).threads 1
      { kicked := false, kickPosted := false, idleTimer := .unregistered,
        pc := .running (n + 2) (BitVec.ofNat 32 (n + 3)) (n + 3) } = (cycled (n + 1)).threads := by
    funext t
    by_cases ht : t = 1
    · simp [ht, cycled]
    · simp [ht, cycled]
  simp only [cycleCalled, takeItem, setThread, lookAgain, addDone, addItem, Function.update_self,
    Function.update_idem]
  simp only [cycled, hdone, hempty, hseq] at hthreads ⊢
  rw [hthreads]
  simp

lemma done_cycled (n : ℕ) :
    (workLts 2).step ((cycled n).addItem (n + 2)) (.done 1 (n + 1) none) =
      some ((((cycled n).addItem (n + 2)).addDone (n + 1)).lookAgain 1) := by
  have hpc : (((cycled n).addItem (n + 2)).threads 1).pc =
      .running (n + 1) (BitVec.ofNat 32 (n + 2)) (n + 2) := rfl
  refine step_done_again ?_ hpc rfl ?_ ?_
  · simp [cycled]
  · simp [cycled]
  · simp [cycled]

lemma gotEvent_cycled (n : ℕ) :
    (workLts 2).step ((((cycled n).addItem (n + 2)).addDone (n + 1)).lookAgain 1) (.gotEvent 1) =
      some (cycleCalled n) :=
  step_gotEvent (by simp [cycled]) (by simp) (by simp) (by simp [cycled])

lemma enter_cycled (n : ℕ) :
    (workLts 2).step (cycleCalled n) (.enter 1 (some (n + 2))) = some (cycled (n + 1)) := by
  have htail : (cycleCalled n).seqTail = BitVec.ofNat 32 (n + 3) :=
    (BitVec.ofNat_add (n + 2) 1).symm
  have hhead : (cycleCalled n).seqHead = BitVec.ofNat 32 (n + 2) := rfl
  have hpos : 0 < ((cycleCalled n).seqTail - (cycleCalled n).seqHead).toInt := by
    rw [htail, hhead]
    exact (Kit.toInt_ofNat_sub_ofNat_pos (by omega) (by omega)).mpr (Nat.lt_succ_self _)
  have hitems : (cycleCalled n).workItems = [n + 2] := rfl
  have hlive : 1 ∈ (cycleCalled n).live := by simp [cycleCalled, cycled]
  rw [step_enter_take hlive (by simp [cycleCalled]) rfl (by simp [cycleCalled, cycled]) hpos
    hitems, htail, takeItem_cycleCalled]

lemma exec_cycle (n : ℕ) :
    ((workLts 2).restrict WorkState.shortQueue).exec (cycled n) (cycle n) =
      some (cycled (n + 1)) := by
  have hshort : (cycled n).shortQueue (.submit (n + 2) true (n + 2)) :=
    fun _ => Nat.lt_of_lt_of_le Nat.one_lt_two (by norm_num)
  have hother {st : WorkState} {op : WorkOp} (hop : op.isSubmit = false) : st.shortQueue op :=
    fun h => absurd (hop.symm.trans h) Bool.false_ne_true
  simp only [cycle, Kit.Lts.exec, Kit.Lts.restrict_step.mpr ⟨hshort, submit_cycled n⟩,
    Kit.Lts.restrict_step.mpr ⟨hother rfl, done_cycled n⟩,
    Kit.Lts.restrict_step.mpr ⟨hother rfl, gotEvent_cycled n⟩,
    Kit.Lts.restrict_step.mpr ⟨hother rfl, enter_cycled n⟩, Option.bind_some]

/-- Both threads are in the callback of their first item. -/
lemma run_cycleStart :
    ((workLts 2).restrict WorkState.shortQueue).Run cycleStart (cycled 0) := by
  have hexec : ((workLts 2).restrict WorkState.shortQueue).exec ivWorkPoolCreate cycleStart =
    some _ := rfl
  refine hexec.trans (congrArg some ?_)
  have hlive : (insert 1 {0} : Finset ThreadId) = {0, 1} := by decide
  simp only [wakeForItem, ivWorkStartThread, addThread, setPc, postKick, setThread, takeItem,
    addItem, ivWorkPoolCreate, Function.update_self, Function.update_idem]
  have hthreads : Function.update (Function.update ivWorkPoolCreate.threads 0
      { kicked := false, kickPosted := false, idleTimer := .unregistered, pc := .running 0 1 1 }) 1
      { kicked := false, kickPosted := false, idleTimer := .unregistered, pc := .running 1 2 2 } =
      (cycled 0).threads := by
    funext t
    by_cases ht₁ : t = 1
    · simp [ht₁, cycled]
    · by_cases ht₀ : t = 0
      · simp [ht₀, cycled]
      · simp [ht₁, ht₀, cycled, ivWorkPoolCreate]
  simpa [cycled, ivWorkPoolCreate, hlive] using hthreads

lemma run_cycles (n : ℕ) :
    ((workLts 2).restrict WorkState.shortQueue).Run (cycles n) (cycled n) := by
  induction n with
  | zero => exact run_cycleStart
  | succ n ih => exact Kit.Lts.run_append.mpr ⟨_, ih, exec_cycle n⟩

/-- With at most one item in the queue at any time, but more than `2 ^ 31` of them taken by thread
1 during the callback of thread 0, the latter enters the body of the loop with an empty queue. -/
theorem entersBody_empty : ∃ tr st, ((workLts 2).restrict WorkState.shortQueue).Run tr st ∧
    st.EntersBody 0 ∧ st.workItems = [] ∧
    workStep 2 st (.done 0 0 none) = some (.error .invalidAccess) := by
  have hpos : 0 < (1 - BitVec.ofNat 32 (2147483648 + 2)).toInt := by decide
  have hlive : 0 ∈ (cycled 2147483648).live := by simp [cycled]
  refine ⟨_, _, run_cycles 2147483648, ⟨hlive, Or.inr ⟨0, 1, 1, rfl, hpos⟩⟩, rfl, ?_⟩
  exact workStep_done_none hlive rfl rfl hpos rfl

end Ivykis
