import Ivykis.Kit.Serial
import Ivykis.Work.Steps

/-!
# What holds of a work pool in every run
-/

namespace Ivykis

open WorkState

variable {maxThreads : ℤ} {st st' : WorkState} {op : WorkOp} {thr t : ThreadId}
  {work : WorkPtr} {next : Option WorkPtr} {lastSeq : BitVec 32}

/-! ### Threads -/

/-- What holds of a thread that is, or is not, on the list of idle threads. -/
structure WorkThread.Ok (thr : WorkThread) (idle : Prop) : Prop where
  timer : idle ↔ thr.idleTimer ≠ .unregistered
  kicked : thr.kicked = true → idle
  pc : idle → thr.pc = .loop ∨ thr.pc = .entering
  /-- A thread that is neither idle nor in a handler is going to be called. -/
  posted : ¬ idle → thr.pc = .loop → thr.kickPosted = true

structure ThreadsInv (maxThreads : ℤ) (live : Finset ThreadId) (threads : ThreadId → WorkThread)
    (idleThreads : List ThreadId) (startedThreads : ℤ) : Prop where
  thread : ∀ t ∈ live, (threads t).Ok (t ∈ idleThreads)
  idle_live : ∀ t ∈ idleThreads, t ∈ live
  idle_nodup : idleThreads.Nodup
  started : startedThreads = live.card
  le_max : 0 < startedThreads → startedThreads ≤ maxThreads

namespace ThreadsInv

variable {live : Finset ThreadId} {threads : ThreadId → WorkThread} {idleThreads : List ThreadId}
  {startedThreads : ℤ} {f : WorkThread}

lemma update (h : ThreadsInv maxThreads live threads idleThreads startedThreads)
    (hok : thr ∈ live → f.Ok (thr ∈ idleThreads)) :
    ThreadsInv maxThreads live (Function.update threads thr f) idleThreads startedThreads := by
  refine ⟨fun t ht => ?_, h.idle_live, h.idle_nodup, h.started, h.le_max⟩
  by_cases heq : t = thr
  · subst heq
    rw [Function.update_self]
    exact hok ht
  · rw [Function.update_of_ne heq]
    exact h.thread t ht

/-- A new thread is neither idle nor kicked. -/
lemma add (h : ThreadsInv maxThreads live threads idleThreads startedThreads) (hthr : thr ∉ live)
    (hlt : startedThreads < maxThreads)
    (hok : f.Ok False) :
    ThreadsInv maxThreads (insert thr live) (Function.update threads thr f) idleThreads
      (startedThreads + 1) := by
  have hidle : thr ∉ idleThreads := fun hmem => hthr (h.idle_live thr hmem)
  refine ⟨fun t ht => ?_, fun t ht => Finset.mem_insert_of_mem (h.idle_live t ht), h.idle_nodup,
    ?_, fun _ => by omega⟩
  · by_cases heq : t = thr
    · subst heq
      rw [Function.update_self]
      simpa only [hidle] using hok
    · rw [Function.update_of_ne heq]
      exact h.thread t (Finset.mem_of_mem_insert_of_ne ht heq)
  · rw [Finset.card_insert_of_notMem hthr, h.started]
    push_cast
    rfl

lemma remove (h : ThreadsInv maxThreads live threads idleThreads startedThreads)
    (hthr : thr ∈ live) :
    ThreadsInv maxThreads (live.erase thr) (Function.update threads thr f)
      (idleThreads.erase thr) (startedThreads - 1) := by
  refine ⟨fun t ht => ?_, fun t ht => ?_, h.idle_nodup.erase thr, ?_, fun hpos => ?_⟩
  · have hne := Finset.ne_of_mem_erase ht
    rw [Function.update_of_ne hne]
    simpa only [h.idle_nodup.mem_erase_iff, ne_eq, hne, not_false_eq_true, true_and] using
      h.thread t (Finset.mem_of_mem_erase ht)
  · rw [h.idle_nodup.mem_erase_iff] at ht
    exact Finset.mem_erase_of_ne_of_mem ht.1 (h.idle_live t ht.2)
  · have hcard := Finset.card_erase_add_one hthr
    have hstarted := h.started
    omega
  · have := h.le_max (by omega)
    omega

lemma push (h : ThreadsInv maxThreads live threads idleThreads startedThreads)
    (hthr : thr ∈ live) (hidle : thr ∉ idleThreads) (hok : f.Ok True) :
    ThreadsInv maxThreads live (Function.update threads thr f) (thr :: idleThreads)
      startedThreads := by
  refine ⟨fun t ht => ?_, ?_, List.nodup_cons.mpr ⟨hidle, h.idle_nodup⟩, h.started, h.le_max⟩
  · by_cases heq : t = thr
    · subst heq
      rw [Function.update_self]
      simpa only [List.mem_cons, true_or] using hok
    · rw [Function.update_of_ne heq]
      simpa only [List.mem_cons, heq, false_or] using h.thread t ht
  · rintro t (_ | ⟨_, ht⟩)
    · exact hthr
    · exact h.idle_live t ht

lemma pop (h : ThreadsInv maxThreads live threads idleThreads startedThreads) (hok : f.Ok False) :
    ThreadsInv maxThreads live (Function.update threads thr f) (idleThreads.erase thr)
      startedThreads := by
  refine ⟨fun t ht => ?_, fun t ht => h.idle_live t (List.mem_of_mem_erase ht),
    h.idle_nodup.erase thr, h.started, h.le_max⟩
  by_cases heq : t = thr
  · subst heq
    rw [Function.update_self]
    simpa only [h.idle_nodup.mem_erase_iff, ne_eq, not_true_eq_false, false_and] using hok
  · rw [Function.update_of_ne heq]
    simpa only [h.idle_nodup.mem_erase_iff, ne_eq, heq, not_false_eq_true, true_and] using
      h.thread t ht

end ThreadsInv

/-- The invariant of the threads, for a state. -/
def WorkState.ThreadsOk (maxThreads : ℤ) (st : WorkState) : Prop :=
  ThreadsInv maxThreads st.live st.threads st.idleThreads st.startedThreads

namespace WorkState.ThreadsOk

variable (h : st.ThreadsOk maxThreads)
include h

/-- A thread in a handler that is not idle can be stopped, and made idle. -/
lemma loopEnd (hthr : thr ∈ st.live) (hidle : thr ∉ st.idleThreads)
    (hloop : LoopEnd st thr lastSeq next st') : st'.ThreadsOk maxThreads := by
  have hok := h.thread thr hthr
  have htimer : (st.threads thr).idleTimer = .unregistered := by
    by_contra hne
    exact hidle (hok.timer.mpr hne)
  have hkicked : (st.threads thr).kicked = false := by
    by_contra hne
    exact hidle (hok.kicked (Bool.not_eq_false _ ▸ hne))
  cases hloop with
  | take hseq hitems =>
    refine ThreadsInv.update h fun _ => ?_
    constructor <;> simp [hidle, htimer, hkicked]
  | idle hseq hdown =>
    refine ThreadsInv.push h hthr hidle ?_
    constructor <;> simp
  | die hseq hdown =>
    have hrem := ThreadsInv.remove (f := { st.threads thr with pc := .loop }) h hthr
    rwa [List.erase_of_not_mem hidle] at hrem
  | again hseq =>
    refine ThreadsInv.update h fun _ => ?_
    constructor <;> simp [hidle, htimer, hkicked]

lemma postKicks : st.postKicks.ThreadsOk maxThreads := by
  refine ⟨fun t ht => ?_, h.idle_live, h.idle_nodup, h.started, h.le_max⟩
  have hok := h.thread t ht
  simp only [postKicks_threads, postKicks_idleThreads]
  split_ifs with hidle
  · exact ⟨hok.timer, hok.kicked, hok.pc, fun _ _ => rfl⟩
  · exact hok

lemma addThread (hthr : thr ∉ st.live) (hlt : st.startedThreads < maxThreads) :
    (st.addThread thr).ThreadsOk maxThreads := by
  refine ThreadsInv.add h hthr hlt ?_
  constructor <;> simp

lemma wakeForItem {fromOwner create : Bool} (hthr : fromOwner = true → thr ∉ st.live) :
    (wakeForItem maxThreads fromOwner create st thr).ThreadsOk maxThreads := by
  unfold Ivykis.wakeForItem
  split
  · next idle rest hidle =>
    have hmem : idle ∈ st.idleThreads := hidle ▸ List.mem_cons_self
    have hok := h.thread idle (h.idle_live idle hmem)
    exact ThreadsInv.update h fun _ =>
      ⟨hok.timer, fun _ => hmem, hok.pc, fun _ _ => rfl⟩
  · split_ifs with hlt howner
    · unfold ivWorkStartThread
      split_ifs
      · exact h.addThread (hthr howner) hlt
      · exact h
    · exact h
    · exact h

/-- Every step keeps the invariant of the threads. -/
lemma step (hstep : WorkStep maxThreads st op st') : st'.ThreadsOk maxThreads := by
  cases hstep with
  | @submit work _ _ _ _ hthr _ =>
    have hst : (st.addItem work).ThreadsOk maxThreads := h
    exact hst.wakeForItem fun _ => hthr
  | @submitContinuation _ work _ _ _ _ _ =>
    have hst : (st.addItem work).ThreadsOk maxThreads := h
    exact hst.wakeForItem (by simp)
  | putLast _ _ => exact h
  | put _ _ => exact h.postKicks
  | event _ _ => exact h
  | steal _ _ => exact h
  | complete _ => exact h
  | eventEnd _ _ => exact h
  | free _ _ _ _ _ => exact h
  | needed _ _ => exact h
  | @startNeeded create thr _ hthr _ hlt _ =>
    have hst : { st with owner := .loop }.ThreadsOk maxThreads := h
    unfold ivWorkStartThread
    split_ifs
    · exact hst.addThread hthr hlt
    · exact hst
  | startedEnough _ _ => exact h
  | @started thr hthr hpc =>
    have hok := h.thread thr hthr
    exact ThreadsInv.update h fun _ =>
      ⟨hok.timer, hok.kicked, fun _ => Or.inl rfl, fun _ _ => rfl⟩
  | @gotEvent thr hthr hpc _ =>
    have hok := h.thread thr hthr
    exact ThreadsInv.update h fun _ =>
      ⟨hok.timer, hok.kicked, fun _ => Or.inr rfl, by simp⟩
  | @enter thr _ _ hthr hpc hidle _ hloop =>
    have hok := h.thread thr hthr
    have hst : (st.setThread thr fun t => { t with kicked := false }).ThreadsOk maxThreads :=
      ThreadsInv.update h fun _ => ⟨hok.timer, by simp, hok.pc, hok.posted⟩
    exact hst.loopEnd hthr hidle hloop
  | @enterIdle thr _ _ hthr hpc hidle _ hloop =>
    have hst : (st.unidle thr).ThreadsOk maxThreads := by
      refine ThreadsInv.pop h ?_
      constructor <;> simp [hpc]
    refine hst.loopEnd hthr ?_ hloop
    rw [unidle_idleThreads, h.idle_nodup.mem_erase_iff]
    exact fun hmem => hmem.1 rfl
  | @done thr work lastSeq takenAt _ _ hthr hpc _ hloop =>
    have hst : (st.addDone work).ThreadsOk maxThreads := h
    refine hst.loopEnd hthr ?_ hloop
    intro hidle
    simpa [hpc] using (h.thread thr hthr).pc hidle
  | @expire thr hthr hpc htimer =>
    have hok := h.thread thr hthr
    have hidle : thr ∈ st.idleThreads := hok.timer.mpr (by simp [htimer])
    exact ThreadsInv.update h fun _ => ⟨by simp [hidle], fun _ => hidle, hok.pc, hok.posted⟩
  | @timeoutKicked thr hthr hpc htimer _ _ =>
    have hok := h.thread thr hthr
    have hidle : thr ∈ st.idleThreads := hok.timer.mpr (by simp [htimer])
    exact ThreadsInv.update h fun _ => ⟨by simp [hidle], fun _ => hidle, hok.pc, hok.posted⟩
  | timeout hthr _ _ _ _ => exact ThreadsInv.remove h hthr

end WorkState.ThreadsOk

/-! ### Sequence numbers -/

/-- The sequence numbers count what has been taken from the queue and put into it. -/
structure WorkState.SeqOk (st : WorkState) : Prop where
  head : st.seqHead = BitVec.ofNat 32 st.taken
  tail : st.seqTail = BitVec.ofNat 32 (st.taken + st.workItems.length)

namespace WorkState.SeqOk

variable (h : st.SeqOk)
include h

lemma addItem : (st.addItem work).SeqOk where
  head := h.head
  tail := by
    rw [addItem_seqTail, h.tail, addItem_taken, addItem_workItems, List.length_append,
      List.length_singleton, ← Nat.add_assoc, BitVec.ofNat_add _ 1]
    rfl

lemma wakeForItem {fromOwner create : Bool} :
    (wakeForItem maxThreads fromOwner create st thr).SeqOk := by
  unfold Ivykis.wakeForItem
  split
  · exact ⟨h.head, h.tail⟩
  · split_ifs
    · unfold ivWorkStartThread
      split_ifs
      · exact ⟨h.head, h.tail⟩
      · exact h
    · exact ⟨h.head, h.tail⟩
    · exact h

lemma loopEnd (hloop : LoopEnd st thr lastSeq next st') : st'.SeqOk := by
  cases hloop with
  | @take work items hseq hitems =>
    refine ⟨?_, ?_⟩
    · rw [takeItem_seqHead, takeItem_taken, h.head, BitVec.ofNat_add _ 1]
      rfl
    · have htail := h.tail
      rw [hitems, List.length_cons] at htail
      rw [takeItem_seqTail, takeItem_taken, takeItem_workItems, htail, Nat.add_right_comm]
      rfl
  | idle _ _ => exact ⟨h.head, h.tail⟩
  | die _ _ => exact ⟨h.head, h.tail⟩
  | again _ => exact ⟨h.head, h.tail⟩

lemma step (hstep : WorkStep maxThreads st op st') : st'.SeqOk := by
  cases hstep with
  | submit _ _ _ _ => exact h.addItem.wakeForItem
  | submitContinuation _ _ _ _ _ => exact h.addItem.wakeForItem
  | startNeeded _ _ _ _ _ =>
    unfold ivWorkStartThread
    split_ifs
    · exact ⟨h.head, h.tail⟩
    · exact ⟨h.head, h.tail⟩
  | @enter thr _ _ _ _ _ _ hloop =>
    have hst : (st.setThread thr fun t => { t with kicked := false }).SeqOk := ⟨h.head, h.tail⟩
    exact hst.loopEnd hloop
  | @enterIdle thr _ _ _ _ _ _ hloop =>
    have hst : (st.unidle thr).SeqOk := ⟨h.head, h.tail⟩
    exact hst.loopEnd hloop
  | @done _ work _ _ _ _ _ _ _ hloop =>
    have hst : (st.addDone work).SeqOk := ⟨h.head, h.tail⟩
    exact hst.loopEnd hloop
  | _ => exact ⟨h.head, h.tail⟩

/-- The number of items in the queue can be told from the sequence numbers. -/
lemma toNat_sub (hlt : st.workItems.length < 2 ^ 32) :
    (st.seqTail - st.seqHead).toNat = st.workItems.length := by
  rw [h.head, h.tail, Kit.toNat_ofNat_sub_ofNat (Nat.le_add_right _ _)]
  · exact Nat.add_sub_cancel_left _ _
  · rwa [Nat.add_sub_cancel_left]

lemma eq_nil_of_head_eq_tail (hlt : st.workItems.length < 2 ^ 32)
    (heq : st.seqHead = st.seqTail) : st.workItems = [] := by
  have hsub := h.toNat_sub hlt
  rw [heq, BitVec.sub_self, BitVec.toNat_zero] at hsub
  exact List.length_eq_zero_iff.mp hsub.symm

end WorkState.SeqOk

/-! ### The invariant -/

lemma LoopEnd.freed_eq (hloop : LoopEnd st thr lastSeq next st') : st'.freed = st.freed := by
  cases hloop <;> rfl

lemma wakeForItem_freed {fromOwner create : Bool} :
    (wakeForItem maxThreads fromOwner create st thr).freed = st.freed := by
  unfold wakeForItem
  split
  · rfl
  · split_ifs
    · unfold ivWorkStartThread
      split_ifs <;> rfl
    · rfl
    · rfl

/-- A step leaves `freed` alone, or it is the end of the pool. -/
lemma WorkStep.freed_eq (hstep : WorkStep maxThreads st op st') :
    st'.freed = st.freed ∨ ((st.startedThreads = 0 ∧ st'.live = st.live) ∧
      st'.shuttingDown = true ∧ st'.evPosted = false ∧ st'.neededPosted = false ∧
      st'.owner = .loop) := by
  cases hstep with
  | submit _ _ _ _ => exact Or.inl wakeForItem_freed
  | submitContinuation _ _ _ _ _ => exact Or.inl wakeForItem_freed
  | free _ _ hdown hstarted _ => exact Or.inr ⟨⟨hstarted, rfl⟩, hdown, rfl, rfl, rfl⟩
  | startNeeded _ _ _ _ _ =>
    unfold ivWorkStartThread
    split_ifs
    · exact Or.inl rfl
    · exact Or.inl rfl
  | enter _ _ _ _ hloop => exact Or.inl hloop.freed_eq
  | enterIdle _ _ _ _ hloop => exact Or.inl hloop.freed_eq
  | done _ _ _ hloop => exact Or.inl hloop.freed_eq
  | _ => exact Or.inl rfl

structure WorkInv (maxThreads : ℤ) (st : WorkState) : Prop where
  threads : st.ThreadsOk maxThreads
  seq : st.SeqOk
  /-- Nothing that could touch the pool is left when it is freed. -/
  freed : st.freed = true → st.live = ∅ ∧ st.shuttingDown = true ∧ st.evPosted = false ∧
    st.neededPosted = false ∧ st.owner = .loop

lemma workInv_init : WorkInv maxThreads ivWorkPoolCreate where
  threads := ⟨by simp [ivWorkPoolCreate], by simp [ivWorkPoolCreate], List.nodup_nil, rfl,
    fun hpos => absurd hpos (lt_irrefl 0)⟩
  seq := ⟨rfl, rfl⟩
  freed := fun hfreed => absurd hfreed Bool.false_ne_true

namespace WorkInv

variable (h : WorkInv maxThreads st)
include h

/-- No step is left to a pool that has been freed. -/
lemma freed_eq_false (hstep : WorkStep maxThreads st op st') : st.freed = false := by
  by_contra hne
  obtain ⟨hlive, -, hev, hneeded, howner⟩ := h.freed (Bool.not_eq_false _ ▸ hne)
  cases hstep with
  | event _ hposted => simp [hev] at hposted
  | complete hcompleting => simp [howner] at hcompleting
  | needed _ hposted => simp [hneeded] at hposted
  | started hthr _ => simp [hlive] at hthr
  | gotEvent hthr _ _ => simp [hlive] at hthr
  | expire hthr _ _ => simp [hlive] at hthr
  | submit _ _ _ hfreed => exact hne hfreed
  | submitContinuation _ _ _ _ hfreed => exact hne hfreed
  | putLast _ hfreed => exact hne hfreed
  | put _ hfreed => exact hne hfreed
  | steal _ hfreed => exact hne hfreed
  | eventEnd _ hfreed => exact hne hfreed
  | free _ hfreed _ _ _ => exact hne hfreed
  | startNeeded _ _ _ _ hfreed => exact hne hfreed
  | startedEnough _ hfreed => exact hne hfreed
  | enter _ _ _ hfreed _ => exact hne hfreed
  | enterIdle _ _ _ hfreed _ => exact hne hfreed
  | done _ _ hfreed _ => exact hne hfreed
  | timeoutKicked _ _ _ _ hfreed => exact hne hfreed
  | timeout _ _ _ _ hfreed => exact hne hfreed

/-- Only `iv_work_event` frees the pool. -/
lemma step (hstep : WorkStep maxThreads st op st') : WorkInv maxThreads st' := by
  have hfreed := h.freed_eq_false hstep
  refine ⟨h.threads.step hstep, h.seq.step hstep, fun hfreed' => ?_⟩
  rcases hstep.freed_eq with heq | ⟨hlive, hrest⟩
  · rw [heq, hfreed] at hfreed'
    exact absurd hfreed' Bool.false_ne_true
  · have hcard := h.threads.started
    rw [hlive.1] at hcard
    exact ⟨hlive.2 ▸ Finset.card_eq_zero.mp (by exact_mod_cast hcard.symm), hrest⟩

end WorkInv

end Ivykis
