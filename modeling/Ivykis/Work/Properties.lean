import Ivykis.Work.Invariant

/-!
# No work is stranded, none is done twice

While the queue is not empty some thread is going to look at it, and every item goes through the
pool exactly once. Both rest on the sequence numbers, which have 32 bits: the first needs fewer
than `2 ^ 32` items in the queue, the second, which compares them by the sign of their difference,
fewer than `2 ^ 31`.
-/

namespace Ivykis

open WorkState

variable {maxThreads : ℤ} {st st' : WorkState} {op : WorkOp} {tr : List WorkOp}
  {thr t : ThreadId} {work : WorkPtr} {next : Option WorkPtr} {lastSeq : BitVec 32}

/-! ### Somebody looks at the queue -/

/-- The thread is going to look at the queue. An idle thread is sure to do so only if it has been
kicked: it may die of its timeout otherwise, though its event has been posted. -/
def WorkState.Covers (st : WorkState) (t : ThreadId) : Prop :=
  (st.threads t).pc ≠ .loop ∨
    ((st.threads t).kickPosted = true ∧ ((st.threads t).kicked = true ∨ t ∉ st.idleThreads))

/-- While there is work some thread is going to look at the queue. -/
def WorkState.Covered (st : WorkState) : Prop :=
  st.workItems ≠ [] → ∃ t ∈ st.live, st.Covers t

/-- The threads that can be created are. -/
def WorkOp.createOk : WorkOp → Bool
  | .submit _ create _    => create
  | .startNeeded create _ => create
  | _                     => true

/-- The step puts an item into the queue. -/
def WorkOp.isSubmit : WorkOp → Bool
  | .submit _ _ _           => true
  | .submitContinuation _ _ => true
  | _                       => false

lemma LoopEnd.covered (hloop : LoopEnd st thr lastSeq next st') (hthr : thr ∈ st.live)
    (hidle : thr ∉ st.idleThreads) (hseq : st.SeqOk) (hlt : st.workItems.length < 2 ^ 32) :
    st'.Covered := by
  cases hloop with
  | take _ _ => exact fun _ => ⟨thr, hthr, Or.inl (by simp)⟩
  | idle heq _ => exact fun hne => absurd (hseq.eq_nil_of_head_eq_tail hlt heq) hne
  | die heq _ => exact fun hne => absurd (hseq.eq_nil_of_head_eq_tail hlt heq) hne
  | again _ => exact fun _ => ⟨thr, hthr, Or.inr ⟨by simp, Or.inr hidle⟩⟩

/-- A thread that is not idle is going to look at the queue. -/
lemma WorkState.ThreadsOk.covers (h : st.ThreadsOk maxThreads) (ht : t ∈ st.live)
    (hidle : t ∉ st.idleThreads) : st.Covers t := by
  by_cases hpc : (st.threads t).pc = .loop
  · exact Or.inr ⟨(h.thread t ht).posted hidle hpc, Or.inr hidle⟩
  · exact Or.inl hpc

/-- A submission finds a thread that is idle, or busy, or starts one. -/
lemma covered_wakeForItem {fromOwner create : Bool} (h : st.ThreadsOk maxThreads)
    (howner : st.live = ∅ → fromOwner = true ∧ create = true ∧ 1 ≤ maxThreads) :
    (wakeForItem maxThreads fromOwner create st thr).Covered := by
  intro _
  have hbusy : st.idleThreads = [] → st.live ≠ ∅ → ∃ t ∈ st.live, st.Covers t := by
    intro hidle hlive
    obtain ⟨t, ht⟩ := Finset.nonempty_iff_ne_empty.mpr hlive
    exact ⟨t, ht, h.covers ht (by simp [hidle])⟩
  unfold wakeForItem
  split
  · next idle rest hidle =>
    have hmem : idle ∈ st.idleThreads := hidle ▸ List.mem_cons_self
    exact ⟨idle, h.idle_live idle hmem, Or.inr ⟨by simp, Or.inl (by simp)⟩⟩
  · next hidle =>
    split_ifs with hlt hfrom
    · unfold ivWorkStartThread
      split_ifs with hcreate
      · exact ⟨thr, Finset.mem_insert_self _ _, Or.inl (by simp)⟩
      · exact hbusy hidle fun hlive => hcreate (howner hlive).2.1
    · exact hbusy hidle fun hlive => hfrom (howner hlive).1
    · -- all the threads there may be have been started, and none is idle
      refine hbusy hidle fun hlive => hlt ?_
      rw [h.started, hlive, Finset.card_empty]
      have := (howner hlive).2.2
      omega

/-- A step leaves the queue alone and keeps the threads that look at it, and starts none. -/
structure CoverKept (st : WorkState) (op : WorkOp) (st' : WorkState) : Prop where
  items : st'.workItems = st.workItems
  live : st'.live ⊆ st.live
  down : st'.shuttingDown = st.shuttingDown ∨ op = .put
  covers : ∀ t ∈ st.live, st.Covers t → t ∈ st'.live ∧ st'.Covers t

lemma coverKept_setThread {f : WorkThread → WorkThread}
    (hf : st.Covers thr → (st.setThread thr f).Covers thr) :
    CoverKept st op (st.setThread thr f) := by
  refine ⟨rfl, subset_rfl, Or.inl rfl, fun t ht hcov => ⟨ht, ?_⟩⟩
  by_cases heq : t = thr
  · subst heq
    exact hf hcov
  · simpa [Covers, heq] using hcov

/-- The pool has no thread, and a submission does not give it one. -/
structure Unmanned (maxThreads : ℤ) (st : WorkState) (op : WorkOp) (st' : WorkState) : Prop where
  live : st.live = ∅
  live' : st'.live = ∅
  up : st'.shuttingDown = false
  why : op.createOk = true → ¬ 1 ≤ maxThreads

lemma unmanned_submit {create : Bool} (h : st.ThreadsOk maxThreads) (hlive : st.live = ∅)
    (hup : st.shuttingDown = false) (hnot : ¬ (create = true ∧ 1 ≤ maxThreads)) :
    Unmanned maxThreads st (.submit work create thr)
      (wakeForItem maxThreads true create (st.addItem work) thr) := by
  have hidle : st.idleThreads = [] := by
    by_contra hne
    obtain ⟨t, ht⟩ := List.exists_mem_of_ne_nil _ hne
    simpa [hlive] using h.idle_live t ht
  have hstarted : st.startedThreads = 0 := by
    rw [h.started, hlive]
    rfl
  have heq : wakeForItem maxThreads true create (st.addItem work) thr = st.addItem work := by
    simp only [wakeForItem, addItem_idleThreads, hidle, addItem_startedThreads, hstarted,
      ivWorkStartThread, if_true]
    split_ifs with hlt hcreate
    · exact absurd ⟨hcreate, by omega⟩ hnot
    · rfl
    · rfl
  rw [heq]
  exact ⟨hlive, hlive, hup, fun hcreate hmax => hnot ⟨hcreate, hmax⟩⟩

/-- What a step does to the threads that look at the queue, if the sequence numbers tell whether
the queue is empty. -/
lemma WorkStep.cover (hinv : WorkInv maxThreads st) (hlt : st.workItems.length < 2 ^ 32)
    (hstep : WorkStep maxThreads st op st') :
    st'.Covered ∨ CoverKept st op st' ∨ Unmanned maxThreads st op st' := by
  have hthreads := hinv.threads
  have hsame (hitems : st'.workItems = st.workItems) (hlive : st'.live = st.live)
      (hdown : st'.shuttingDown = st.shuttingDown ∨ op = .put)
      (hcov : ∀ t, st.Covers t → st'.Covers t) : CoverKept st op st' :=
    ⟨hitems, hlive.subset, hdown, fun t ht h => ⟨hlive ▸ ht, hcov t h⟩⟩
  -- an idle thread is in its loop or has just been called
  have hnotIdle {t : ThreadId} (ht : t ∈ st.live) (hpc : (st.threads t).pc ≠ .loop)
      (hpc' : (st.threads t).pc ≠ .entering) : t ∉ st.idleThreads := by
    intro hidle
    rcases (hthreads.thread t ht).pc hidle with heq | heq
    · exact hpc heq
    · exact hpc' heq
  cases hstep with
  | @submit work create thr hdown _ _ _ =>
    have hst : (st.addItem work).ThreadsOk maxThreads := hthreads
    by_cases hsome : st.live = ∅ → create = true ∧ 1 ≤ maxThreads
    · exact Or.inl (covered_wakeForItem hst fun hlive => ⟨rfl, hsome hlive⟩)
    · rw [Classical.not_imp] at hsome
      exact Or.inr (Or.inr (unmanned_submit hthreads hsome.1 hdown hsome.2))
  | @submitContinuation thr work hthr _ _ _ _ =>
    have hst : (st.addItem work).ThreadsOk maxThreads := hthreads
    refine Or.inl (covered_wakeForItem hst fun hlive => ?_)
    rw [addItem_live] at hlive
    simp [hlive] at hthr
  | putLast _ _ => exact Or.inr (Or.inl (hsame rfl rfl (Or.inr rfl) fun _ hcov => hcov))
  | put _ _ =>
    refine Or.inr (Or.inl (hsame rfl rfl (Or.inr rfl) fun t hcov => ?_))
    simp only [Covers, postKicks_threads, postKicks_idleThreads] at hcov ⊢
    split_ifs with hidle
    · exact hcov.imp id fun hposted => ⟨rfl, hposted.2⟩
    · exact hcov
  | event _ _ => exact Or.inr (Or.inl (hsame rfl rfl (Or.inl rfl) fun _ hcov => hcov))
  | steal _ _ => exact Or.inr (Or.inl (hsame rfl rfl (Or.inl rfl) fun _ hcov => hcov))
  | complete _ => exact Or.inr (Or.inl (hsame rfl rfl (Or.inl rfl) fun _ hcov => hcov))
  | eventEnd _ _ => exact Or.inr (Or.inl (hsame rfl rfl (Or.inl rfl) fun _ hcov => hcov))
  | free _ _ _ _ _ => exact Or.inr (Or.inl (hsame rfl rfl (Or.inl rfl) fun _ hcov => hcov))
  | needed _ _ => exact Or.inr (Or.inl (hsame rfl rfl (Or.inl rfl) fun _ hcov => hcov))
  | @startNeeded create thr _ hthr _ _ _ =>
    unfold ivWorkStartThread
    split_ifs
    · exact Or.inl fun _ => ⟨thr, Finset.mem_insert_self _ _, Or.inl (by simp)⟩
    · exact Or.inr (Or.inl ⟨rfl, subset_rfl, Or.inl rfl, fun _ ht hcov => ⟨ht, hcov⟩⟩)
  | startedEnough _ _ => exact Or.inr (Or.inl (hsame rfl rfl (Or.inl rfl) fun _ hcov => hcov))
  | @started thr hthr hpc =>
    have hidle := hnotIdle hthr (by simp [hpc]) (by simp [hpc])
    exact Or.inl fun _ => ⟨thr, hthr, Or.inr ⟨by simp, Or.inr hidle⟩⟩
  | @gotEvent thr hthr _ _ => exact Or.inl fun _ => ⟨thr, hthr, Or.inl (by simp)⟩
  | @enter thr _ _ hthr _ hidle _ hloop =>
    exact Or.inl (hloop.covered hthr hidle ⟨hinv.seq.head, hinv.seq.tail⟩ hlt)
  | @enterIdle thr _ _ hthr _ _ _ hloop =>
    refine Or.inl (hloop.covered hthr ?_ ⟨hinv.seq.head, hinv.seq.tail⟩ hlt)
    rw [unidle_idleThreads, hthreads.idle_nodup.mem_erase_iff]
    exact fun hmem => hmem.1 rfl
  | @done thr _ _ _ _ _ hthr hpc _ hloop =>
    exact Or.inl (hloop.covered hthr (hnotIdle hthr (by simp [hpc]) (by simp [hpc]))
      ⟨hinv.seq.head, hinv.seq.tail⟩ hlt)
  | expire _ _ _ =>
    exact Or.inr (Or.inl (coverKept_setThread fun hcov => by simpa [Covers] using hcov))
  | timeoutKicked _ _ _ _ _ =>
    exact Or.inr (Or.inl (coverKept_setThread fun hcov => by simpa [Covers] using hcov))
  | @timeout thr hthr hpc htimer hkicked _ =>
    refine Or.inr (Or.inl ⟨rfl, Finset.erase_subset _ _, Or.inl rfl, fun t ht hcov => ?_⟩)
    have hne : t ≠ thr := by
      -- the thread that dies is idle and has not been kicked
      rintro rfl
      have hidle : t ∈ st.idleThreads := (hthreads.thread t ht).timer.mpr (by simp [htimer])
      simp [Covers, hpc, hkicked, hidle] at hcov
    refine ⟨Finset.mem_erase_of_ne_of_mem hne ht, ?_⟩
    simpa [Covers, hne, hthreads.idle_nodup.mem_erase_iff] using hcov

lemma CoverKept.covered (hkept : CoverKept st op st') (h : st.Covered) : st'.Covered := by
  intro hne
  obtain ⟨t, ht, hcov⟩ := h (hkept.items ▸ hne)
  exact ⟨t, hkept.covers t ht hcov⟩

/-- Every step keeps a thread that looks at the queue, if threads can be created and the sequence
numbers tell whether the queue is empty. -/
lemma WorkState.Covered.step (h : st.Covered) (hinv : WorkInv maxThreads st)
    (hmax : 1 ≤ maxThreads) (hlt : st.workItems.length < 2 ^ 32) (hcreate : op.createOk = true)
    (hstep : WorkStep maxThreads st op st') : st'.Covered := by
  rcases hstep.cover hinv hlt with hcov | hkept | hun
  · exact hcov
  · exact hkept.covered h
  · exact absurd hmax (hun.why hcreate)

/-! ### What can go wrong -/

lemma locked_eq_error {α : Type*} {x : Except Fault α} {f : Fault} (hfreed : st.freed = false)
    (h : locked st x = .error f) : x = .error f := by
  simpa [locked, hfreed] using h

lemma ivWorkThreadDie_ok (hkicked : (st.threads thr).kicked = false)
    (hidle : thr ∉ st.idleThreads) : ∃ st', ivWorkThreadDie st thr = .ok st' :=
  ⟨_, ivWorkThreadDie_eq_ok.mpr ⟨hkicked, hidle, rfl⟩⟩

/-- A thread that is not idle leaves its handler without an error. -/
lemma WorkState.ThreadsOk.gotEventFinish_ok (h : st.ThreadsOk maxThreads) (hthr : thr ∈ st.live)
    (hidle : thr ∉ st.idleThreads) : ∃ st', gotEventFinish st thr = .ok st' := by
  have hok := h.thread thr hthr
  have htimer : (st.threads thr).idleTimer = .unregistered := by
    by_contra hne
    exact hidle (hok.timer.mpr hne)
  have hkicked : (st.threads thr).kicked = false := by
    by_contra hne
    exact hidle (hok.kicked (Bool.not_eq_false _ ▸ hne))
  simp only [gotEventFinish]
  split_ifs
  · exact ivWorkThreadDie_ok (by simpa [setPc] using hkicked) hidle
  · exact ⟨_, registerIdleTimer_eq_ok.mpr ⟨by simpa [setPc] using htimer, rfl⟩⟩
  · exact ⟨_, rfl⟩

/-- The only thing that can go wrong in the loop is that there is no item to take. -/
lemma WorkState.ThreadsOk.gotEventLoop_error {f : Fault} (h : st.ThreadsOk maxThreads)
    (hthr : thr ∈ st.live) (hidle : thr ∉ st.idleThreads)
    (herr : gotEventLoop st thr lastSeq = .error f) :
    f = .invalidAccess ∧ st.workItems = [] ∧ 0 < (lastSeq - st.seqHead).toInt := by
  unfold gotEventLoop at herr
  split_ifs at herr with hseq
  · split at herr
    · next hitems => exact ⟨(Except.error.inj herr).symm, hitems, hseq⟩
    · exact absurd herr (by simp)
  · obtain ⟨st', hst'⟩ := h.gotEventFinish_ok hthr hidle
    rw [hst', ok_bind] at herr
    exact absurd herr (by simp [pure, Except.pure])

lemma checkNext_eq_error {x : Except Fault (Option WorkPtr × WorkState)} {f : Fault} :
    checkNext next x = some (.error f) ↔ x = .error f := by
  cases x with
  | error f' => simp [checkNext]
  | ok r =>
    obtain ⟨next', st₁⟩ := r
    simp [checkNext]

/-- An item is taken from the empty queue: the test of the loop of `iv_work_thread_got_event` is
met, with the value of `last_seq` that belongs to the step. -/
def WorkState.TakesNone (st : WorkState) (op : WorkOp) : Prop :=
  st.workItems = [] ∧
    ((∃ thr next, op = .enter thr next ∧ 0 < (st.seqTail - st.seqHead).toInt) ∨
      ∃ thr work next lastSeq takenAt, op = .done thr work next ∧ thr ∈ st.live ∧
        (st.threads thr).pc = .running work lastSeq takenAt ∧
        0 < (lastSeq - st.seqHead).toInt)

namespace WorkInv

variable (h : WorkInv maxThreads st) {f : Fault}
include h

lemma freed_eq_false_of_live (hthr : thr ∈ st.live) : st.freed = false := by
  by_contra hne
  have := (h.freed (Bool.not_eq_false _ ▸ hne)).1
  simp [this] at hthr

lemma freed_eq_false_of_owner (howner : st.owner ≠ .loop) : st.freed = false := by
  by_contra hne
  exact howner (h.freed (Bool.not_eq_false _ ▸ hne)).2.2.2.2

lemma freed_eq_false_of_up (hdown : st.shuttingDown = false) : st.freed = false := by
  by_contra hne
  have := (h.freed (Bool.not_eq_false _ ▸ hne)).2.1
  simp [this] at hdown

lemma gotEventEnter_error (hthr : thr ∈ st.live) (hpc : (st.threads thr).pc = .entering)
    (herr : gotEventEnter st thr = .error f) :
    f = .invalidAccess ∧ st.workItems = [] ∧ 0 < (st.seqTail - st.seqHead).toInt := by
  have herr := locked_eq_error (h.freed_eq_false_of_live hthr) herr
  have hok := h.threads.thread thr hthr
  unfold leaveIdle at herr
  simp only [setThread_idleThreads] at herr
  split_ifs at herr with hidle
  · have htimer : (st.threads thr).idleTimer ≠ .unregistered := hok.timer.mp hidle
    have hleave : unregisterIdleTimer
        { st.setThread thr fun t => { t with kicked := false } with
          idleThreads := st.idleThreads.erase thr } thr = .ok (st.unidle thr) := by
      refine unregisterIdleTimer_eq_ok.mpr ⟨by simpa using htimer, ?_⟩
      simp [setThread, unidle]
    rw [hleave, ok_bind] at herr
    have hst : (st.unidle thr).ThreadsOk maxThreads := by
      refine ThreadsInv.pop h.threads ?_
      constructor <;> simp [hpc]
    refine hst.gotEventLoop_error hthr ?_ herr
    rw [unidle_idleThreads, h.threads.idle_nodup.mem_erase_iff]
    exact fun hmem => hmem.1 rfl
  · rw [ok_bind] at herr
    have hst : (st.setThread thr fun t => { t with kicked := false }).ThreadsOk maxThreads :=
      ThreadsInv.update h.threads fun _ => ⟨hok.timer, by simp, hok.pc, hok.posted⟩
    exact hst.gotEventLoop_error hthr hidle herr

lemma ivWorkThreadIdleTimeout_ok (hthr : thr ∈ st.live) :
    ∃ st', ivWorkThreadIdleTimeout st thr = .ok st' := by
  have hfreed := h.freed_eq_false_of_live hthr
  simp only [ivWorkThreadIdleTimeout, locked, hfreed, Bool.false_eq_true, if_false,
    setThread_threads, Function.update_self]
  split_ifs with hkicked
  · exact ⟨_, registerIdleTimer_eq_ok.mpr ⟨by simp, rfl⟩⟩
  · refine ivWorkThreadDie_ok (by simpa using hkicked) ?_
    simp only [setThread_idleThreads, h.threads.idle_nodup.mem_erase_iff]
    exact fun hmem => hmem.1 rfl

/-- No step of the pool fails, but for one that takes an item from the empty queue. -/
theorem fault (herr : workStep maxThreads st op = some (.error f)) :
    f = .invalidAccess ∧ st.TakesNone op := by
  cases op with
  | submit work create thr =>
    simp only [workStep, Option.ite_none_right_eq_some, Option.some.injEq] at herr
    obtain ⟨⟨-, hdown, -, -⟩, herr⟩ := herr
    have herr := locked_eq_error (h.freed_eq_false_of_up (Bool.not_eq_true _ ▸ hdown)) herr
    exact absurd herr (by simp)
  | submitContinuation thr work =>
    simp only [workStep, Option.ite_none_right_eq_some, Option.some.injEq] at herr
    obtain ⟨⟨hthr, -, -, -⟩, herr⟩ := herr
    have herr := locked_eq_error (h.freed_eq_false_of_live hthr) herr
    exact absurd herr (by simp)
  | put =>
    simp only [workStep, Option.ite_none_right_eq_some, Option.some.injEq] at herr
    obtain ⟨⟨-, hdown⟩, herr⟩ := herr
    have herr := locked_eq_error (h.freed_eq_false_of_up (Bool.not_eq_true _ ▸ hdown)) herr
    exact absurd herr (by simp)
  | event => simp [workStep] at herr
  | steal =>
    simp only [workStep, Option.ite_none_right_eq_some, Option.some.injEq] at herr
    have herr' := locked_eq_error (h.freed_eq_false_of_owner (by simp [herr.1])) herr.2
    exact absurd herr' (by simp)
  | complete work =>
    simp only [workStep] at herr
    split at herr
    · simp at herr
    · simp at herr
  | eventEnd =>
    simp only [workStep, Option.ite_none_right_eq_some, Option.some.injEq] at herr
    have herr' := locked_eq_error (h.freed_eq_false_of_owner (by simp [herr.1])) herr.2
    exact absurd herr' (by simp)
  | needed => simp [workStep] at herr
  | startNeeded create thr =>
    simp only [workStep, Option.ite_none_right_eq_some, Option.some.injEq] at herr
    obtain ⟨⟨howner, -⟩, herr⟩ := herr
    have hfreed : { st with owner := .loop }.freed = false :=
      h.freed_eq_false_of_owner (by simp [howner])
    have herr := locked_eq_error hfreed herr
    exact absurd herr (by simp)
  | started thr => simp [workStep] at herr
  | gotEvent thr => simp [workStep] at herr
  | enter thr next =>
    simp only [workStep, Option.ite_none_right_eq_some, checkNext_eq_error] at herr
    obtain ⟨⟨hthr, hpc⟩, herr⟩ := herr
    obtain ⟨hf, hitems, hseq⟩ := h.gotEventEnter_error hthr hpc herr
    exact ⟨hf, hitems, Or.inl ⟨thr, next, rfl, hseq⟩⟩
  | done thr work next =>
    simp only [workStep] at herr
    split at herr
    · next work' lastSeq takenAt hpc =>
      simp only [Option.ite_none_right_eq_some, checkNext_eq_error] at herr
      obtain ⟨⟨hthr, rfl⟩, herr⟩ := herr
      have herr := locked_eq_error (h.freed_eq_false_of_live hthr) herr
      have hidle : thr ∉ st.idleThreads := by
        intro hidle
        simpa [hpc] using (h.threads.thread thr hthr).pc hidle
      have hst : (st.addDone work').ThreadsOk maxThreads := h.threads
      obtain ⟨hf, hitems, hseq⟩ := hst.gotEventLoop_error hthr hidle herr
      exact ⟨hf, hitems, Or.inr ⟨thr, work', next, lastSeq, takenAt, rfl, hthr, hpc, hseq⟩⟩
    · simp at herr
  | expire thr => simp [workStep] at herr
  | timeout thr =>
    simp only [workStep, Option.ite_none_right_eq_some, Option.some.injEq] at herr
    obtain ⟨st', hst'⟩ := h.ivWorkThreadIdleTimeout_ok herr.1.1
    exact absurd (hst'.symm.trans herr.2) (by simp)

end WorkInv

/-! ### No work is stranded -/

/-- Threads can be created, and the queue stays shorter than the range of the sequence numbers. -/
def WorkState.ample (st : WorkState) (op : WorkOp) : Prop :=
  op.createOk = true ∧ (op.isSubmit = true → st.workItems.length + 1 < 2 ^ 32)

instance (st : WorkState) (op : WorkOp) : Decidable (st.ample op) :=
  inferInstanceAs (Decidable (_ ∧ (_ → _)))

lemma LoopEnd.length_le (hloop : LoopEnd st thr lastSeq next st') :
    st'.workItems.length ≤ st.workItems.length := by
  cases hloop with
  | take _ hitems => simp [hitems]
  | idle _ _ => exact le_rfl
  | die _ _ => exact le_rfl
  | again _ => exact le_rfl

lemma wakeForItem_workItems {fromOwner create : Bool} :
    (wakeForItem maxThreads fromOwner create st thr).workItems = st.workItems := by
  unfold wakeForItem
  split
  · rfl
  · split_ifs
    · unfold ivWorkStartThread
      split_ifs <;> rfl
    · rfl
    · rfl

/-- Only a submission makes the queue longer, by one. -/
lemma WorkStep.length_le (hstep : WorkStep maxThreads st op st') :
    st'.workItems.length ≤ st.workItems.length + op.isSubmit.toNat := by
  cases hstep with
  | submit _ _ _ _ => simp [wakeForItem_workItems, WorkOp.isSubmit]
  | submitContinuation _ _ _ _ _ => simp [wakeForItem_workItems, WorkOp.isSubmit]
  | startNeeded _ _ _ _ _ =>
    unfold ivWorkStartThread
    split_ifs
    · exact Nat.le_add_right _ _
    · exact Nat.le_add_right _ _
  | enter _ _ _ _ hloop => exact hloop.length_le.trans (Nat.le_add_right _ _)
  | enterIdle _ _ _ _ hloop => exact hloop.length_le.trans (Nat.le_add_right _ _)
  | done _ _ _ hloop => exact hloop.length_le.trans (Nat.le_add_right _ _)
  | _ => exact Nat.le_add_right _ _

/-- The bound of a condition on submissions is a bound on the queue. -/
lemma WorkStep.length_lt {n : ℕ} (hstep : WorkStep maxThreads st op st')
    (hlt : st.workItems.length < n)
    (hsubmit : op.isSubmit = true → st.workItems.length + 1 < n) : st'.workItems.length < n := by
  have hle := hstep.length_le
  cases hop : op.isSubmit with
  | true =>
    have := hsubmit hop
    simp only [hop, Bool.toNat_true] at hle
    omega
  | false =>
    simp only [hop, Bool.toNat_false] at hle
    omega

lemma covered_of_run (hmax : 1 ≤ maxThreads)
    (h : ((workLts maxThreads).restrict WorkState.ample).Run tr st) :
    WorkInv maxThreads st ∧ st.workItems.length < 2 ^ 32 ∧ st.Covered := by
  refine Kit.Lts.Run.induct (P := fun _ st => WorkInv maxThreads st ∧
    st.workItems.length < 2 ^ 32 ∧ st.Covered)
    ⟨workInv_init, Nat.two_pow_pos 32, fun hne => absurd rfl hne⟩ ?_ h
  rintro _ s op s' - ⟨hinv, hlt, hcov⟩ hstep
  obtain ⟨⟨hcreate, hsubmit⟩, hstep⟩ := Kit.Lts.restrict_step.mp hstep
  have hstep := WorkStep.of_step hstep
  exact ⟨hinv.step hstep, hstep.length_lt hlt hsubmit, hcov.step hinv hmax hlt hcreate hstep⟩

/-- The thread is inside `iv_work_thread_got_event`. -/
def WorkPc.inGotEvent : WorkPc → Bool
  | .entering      => true
  | .running _ _ _ => true
  | _              => false

/-- Somebody will look at the queue: a thread that is starting up, is inside its handler, or has
its kick posted. -/
def WorkState.Attended (st : WorkState) : Prop :=
  ∃ t ∈ st.live, (st.threads t).pc = .starting ∨ (st.threads t).pc.inGotEvent = true ∨
    (st.threads t).kickPosted = true

lemma WorkState.Covered.attended (h : st.Covered) (hne : st.workItems ≠ []) : st.Attended := by
  obtain ⟨t, ht, hcov⟩ := h hne
  refine ⟨t, ht, ?_⟩
  rcases hcov with hpc | hposted
  · cases heq : (st.threads t).pc with
    | starting => exact Or.inl rfl
    | loop => exact absurd heq hpc
    | entering => exact Or.inr (Or.inl rfl)
    | running work lastSeq takenAt => exact Or.inr (Or.inl rfl)
  · exact Or.inr (Or.inr hposted.1)

/-- No work is stranded as long as fewer than `2 ^ 32` items are in the queue. A thread is on the
list of idle threads exactly while its timer is registered or has expired, no thread dies that has
been kicked, and there are not too many threads. -/
theorem work_notStranded (hmax : 1 ≤ maxThreads)
    (h : ((workLts maxThreads).restrict WorkState.ample).Run tr st) :
    (st.workItems ≠ [] → st.Attended) ∧
    (∀ t ∈ st.live, t ∈ st.idleThreads ↔
      (st.threads t).idleTimer = .registered ∨ (st.threads t).idleTimer = .expired) ∧
    (∀ op, workStep maxThreads st op ≠
      some (.error (.fatal "__iv_work_thread_die: called on kicked thread"))) ∧
    (∀ t ∈ st.live, (st.threads t).kicked = true → ∀ st',
      workStep maxThreads st (.timeout t) = some (.ok st') → t ∈ st'.live) ∧
    0 ≤ st.startedThreads ∧ st.startedThreads ≤ maxThreads := by
  obtain ⟨hinv, hlt, hcov⟩ := covered_of_run hmax h
  refine ⟨hcov.attended, fun t ht => ?_, fun op herr => ?_, fun t ht hkicked st' hstep => ?_,
    ?_, ?_⟩
  · rw [(hinv.threads.thread t ht).timer]
    cases (st.threads t).idleTimer <;> simp
  · exact absurd (hinv.fault herr).1 (by simp)
  · cases WorkStep.of_step (workLts_step.mpr hstep) with
    | timeoutKicked hthr _ _ _ _ => exact hthr
    | timeout _ _ _ hnot _ => simp [hkicked] at hnot
  · rw [hinv.threads.started]
    exact Int.natCast_nonneg _
  · by_cases hpos : 0 < st.startedThreads
    · exact hinv.threads.le_max hpos
    · omega

/-- The only thread there may be is idle, and its timer has expired when it is kicked for a new
item. It does not die. -/
def kickedAtTimeout : List WorkOp :=
  [.submit 0 true 0, .submit 1 true 9, .started 0, .gotEvent 0, .enter 0 (some 0),
    .done 0 0 (some 1), .done 0 1 none, .expire 0, .submit 2 true 9, .timeout 0]

theorem work_notStranded_kickedAtTimeout :
    ∃ st, ((workLts 1).restrict WorkState.ample).Run kickedAtTimeout st ∧ st.live = {0} ∧
      st.workItems = [2] ∧ st.Attended := by
  obtain ⟨st, hst, hlive, hitems⟩ : ∃ st,
      ((workLts 1).restrict WorkState.ample).Run kickedAtTimeout st ∧ st.live = {0} ∧
        st.workItems = [2] :=
    ⟨_, rfl, by decide, rfl⟩
  exact ⟨st, hst, hlive, hitems, (work_notStranded le_rfl hst).1 (by simp [hitems])⟩

/-! ### A queue that is too long -/

lemma step_started (hthr : thr ∈ st.live) (hpc : (st.threads thr).pc = .starting) :
    (workLts maxThreads).step st (.started thr) = some (st.lookAgain thr) := by
  have heq : (st.setPc thr .loop).postKick thr = st.lookAgain thr := by
    simp [setPc, postKick, setThread, lookAgain]
  rw [workLts_step, workStep, if_pos ⟨hthr, hpc⟩, heq]

lemma step_gotEvent (hthr : thr ∈ st.live) (hpc : (st.threads thr).pc = .loop)
    (hposted : (st.threads thr).kickPosted = true)
    (htimer : (st.threads thr).idleTimer = .unregistered) :
    (workLts maxThreads).step st (.gotEvent thr) =
      some (st.setThread thr fun t => { t with kickPosted := false, pc := .entering }) := by
  rw [workLts_step, workStep, if_pos ⟨hthr, hpc, hposted, by simp [htimer]⟩]

/-- A thread that finds the sequence numbers equal becomes idle, whatever is in the queue. -/
lemma step_enter_idle (hthr : thr ∈ st.live) (hpc : (st.threads thr).pc = .entering)
    (hfreed : st.freed = false) (hidle : thr ∉ st.idleThreads) (hseq : st.seqHead = st.seqTail)
    (hdown : st.shuttingDown = false) (htimer : (st.threads thr).idleTimer = .unregistered) :
    (workLts maxThreads).step st (.enter thr none) =
      some ((st.setThread thr fun t => { t with kicked := false }).addIdle thr) := by
  have hfinish : gotEventFinish (st.setThread thr fun t => { t with kicked := false }) thr =
      .ok ((st.setThread thr fun t => { t with kicked := false }).addIdle thr) := by
    simp only [gotEventFinish, setPc, setThread_seqHead, setThread_seqTail, hseq, if_true,
      setThread_shuttingDown, hdown, Bool.false_eq_true, if_false]
    refine registerIdleTimer_eq_ok.mpr ⟨by simpa using htimer, ?_⟩
    simp [setThread, addIdle, hdown, hseq]
  rw [workLts_step]
  simp [workStep, hthr, hpc, checkNext_eq_ok, gotEventEnter, locked, hfreed, leaveIdle, hidle,
    gotEventLoop, hseq, hfinish]

/-- A pool of one thread, which is still starting up, with `n` items in the queue. -/
def flooded (n : ℕ) : WorkState :=
  { ivWorkPoolCreate.addThread 0 with
    seqTail := BitVec.ofNat 32 n
    workItems := List.range n }

/-- The owner submits `n` items. -/
def flood (n : ℕ) : List WorkOp :=
  (List.range n).map fun work => .submit work true work

lemma step_flooded (n : ℕ) :
    (workLts 1).step (flooded (n + 1)) (.submit (n + 1) true (n + 1)) =
      some (flooded (n + 2)) := by
  have hfresh : (flooded (n + 1)).fresh (n + 1) := by
    simp [fresh, flooded, ivWorkPoolCreate, stolen, WorkPc.work]
  have hthr : n + 1 ∉ (flooded (n + 1)).live := by
    simp [flooded, ivWorkPoolCreate]
  have hitem : (flooded (n + 1)).addItem (n + 1) = flooded (n + 2) := by
    have htail : BitVec.ofNat 32 (n + 1) + 1 = BitVec.ofNat 32 (n + 2) :=
      (BitVec.ofNat_add (n + 1) 1).symm
    simp only [addItem, flooded, htail, ← List.range_succ]
  rw [workLts_step]
  simp only [workStep, ivWorkSubmitPool, hitem]
  rw [if_pos ⟨rfl, Bool.false_ne_true, hfresh, hthr⟩]
  rfl

lemma run_flood (n : ℕ) : (workLts 1).Run (flood (n + 1)) (flooded (n + 1)) := by
  induction n with
  | zero => rfl
  | succ n ih =>
    have hflood : flood (n + 2) = flood (n + 1) ++ [.submit (n + 1) true (n + 1)] := by
      simp [flood, List.range_succ]
    rw [hflood]
    exact Kit.Lts.run_snoc.mpr ⟨_, ih, step_flooded n⟩

/-- With a multiple of `2 ^ 32` items in the queue the thread goes to sleep at once. -/
lemma run_flood_idle {n : ℕ} (hn : BitVec.ofNat 32 (n + 1) = 0) :
    ∃ st, (workLts 1).Run (flood (n + 1) ++ [.started 0] ++ [.gotEvent 0] ++ [.enter 0 none]) st ∧
      st.workItems = List.range (n + 1) ∧ st.live = {0} ∧ (st.threads 0).pc = .loop ∧
      (st.threads 0).kickPosted = false := by
  refine ⟨_, Kit.Lts.run_snoc.mpr ⟨_, Kit.Lts.run_snoc.mpr ⟨_, Kit.Lts.run_snoc.mpr
    ⟨_, run_flood n, step_started ?_ ?_⟩, step_gotEvent ?_ ?_ ?_ ?_⟩,
    step_enter_idle ?_ ?_ ?_ ?_ ?_ ?_ ?_⟩, ?_⟩
  all_goals simp [flooded, ivWorkPoolCreate, hn]

/-- With `2 ^ 32` items in the queue both sequence numbers are the same, and a thread that looks
at them becomes idle. Nobody is left to do the work. -/
theorem work_stranded : ∃ tr st, (workLts 1).Run tr st ∧ (∀ op ∈ tr, op.createOk = true) ∧
    st.workItems ≠ [] ∧ ¬ st.Attended := by
  have hn : BitVec.ofNat 32 (4294967295 + 1) = 0 := by decide
  obtain ⟨st, hrun, hitems, hlive, hpc, hposted⟩ := run_flood_idle hn
  refine ⟨_, st, hrun, ?_, ?_, ?_⟩
  · intro op hop
    simp only [List.mem_append, List.mem_singleton, flood, List.mem_map] at hop
    rcases hop with ((⟨work, -, rfl⟩ | rfl) | rfl) | rfl
    · rfl
    · rfl
    · rfl
    · rfl
  · rw [hitems, List.range_succ]
    simp
  · rintro ⟨t, ht, hatt⟩
    rw [hlive, Finset.mem_singleton] at ht
    subst ht
    simp [hpc, hposted, WorkPc.inGotEvent] at hatt

end Ivykis
