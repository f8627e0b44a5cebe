import Ivykis.Wait.Tree

/-!
# Collecting the status of children

What `iv_wait_got_sigchld` does to the interests, for one result of `wait4` and for a list of
them. The status of a child that is dead takes its interest out of the tree. If there is no
interest, then the call follows a null pointer.
-/

namespace Ivykis

variable {M : StatusMacros} {st st' : WaitState} {T T' : Finset InterestPtr} {r : WaitResult}
  {results : List WaitResult}

/-- The result says that the child is dead. -/
def WaitResult.isDead (M : StatusMacros) (r : WaitResult) : Bool :=
  ivWaitStatusDead M r.status

/-- What the handler of an interest is told. -/
def WaitResult.report (r : WaitResult) : ℤ × ℕ :=
  (r.status, r.rusage)

@[inherit_doc WaitResult.report]
def WaitEvent.report (we : WaitEvent) : ℤ × ℕ :=
  (we.status, we.rusage)

/-- What is queued when `wait4` returns `r` for an interest with the pid `pid`. -/
def newEvent (st : WaitState) (r : WaitResult) : WaitEvent :=
  ⟨st.mallocs, r.status, r.rusage⟩

@[simp] lemma newEvent_report : (newEvent st r).report = r.report := rfl

/-! ### One result -/

/-- The interests in the tree are `T` before and `T'` after `r` has been dealt with. -/
structure GotResult (M : StatusMacros) (st : WaitState) (T : Finset InterestPtr) (r : WaitResult)
    (st' : WaitState) (T' : Finset InterestPtr) : Prop where
  tree    : InterestTree st'.pid st'.interests T'
  mem     : ∀ i, i ∈ T' ↔ i ∈ T ∧ ¬ (r.isDead M ∧ r.pid = st.pid i)
  pid     : st'.pid = st.pid
  dead    : ∀ i, st'.dead i ↔ st.dead i ∨ (i ∈ T ∧ r.isDead M ∧ r.pid = st.pid i)
  pending : ∀ i, st'.eventsPending i =
    st.eventsPending i ++ if i ∈ T ∧ r.pid = st.pid i then [newEvent st r] else []
  posted  : ∀ i, st'.posted i ↔ st.posted i ∨ (i ∈ T ∧ r.pid = st.pid i)
  owner   : st'.owner = st.owner
  thread  : st'.thread = st.thread
  mallocs : st'.mallocs = st.mallocs + 1
  freed   : st'.freed = st.freed ++ if ∃ i ∈ T, r.pid = st.pid i then [] else [st.mallocs]
  matched : r.isDead M → ∃ i ∈ T, st.pid i = r.pid

/-- The interest that `__iv_wait_interest_find` returns is the only one with this pid. -/
lemma InterestTree.hit_iff (h : InterestTree st.pid st.interests T) {i j : InterestPtr}
    (hi : i ∈ T) (hpid : r.pid = st.pid i) : (j ∈ T ∧ r.pid = st.pid j) ↔ j = i := by
  constructor
  · rintro ⟨hj, hpid'⟩
    exact h.pid_inj hj hi (hpid'.symm.trans hpid)
  · rintro rfl
    exact ⟨hi, hpid⟩

section Hit

variable (h : InterestTree st.pid st.interests T) {i : InterestPtr} (hi : i ∈ T)
  (hpid : r.pid = st.pid i)
include h hi hpid

lemma InterestTree.pending_queueEvent (j : InterestPtr) :
    (st.malloc.queueEvent i (newEvent st r)).eventsPending j =
      st.eventsPending j ++ if j ∈ T ∧ r.pid = st.pid j then [newEvent st r] else [] := by
  simp only [h.hit_iff hi hpid]
  by_cases hj : j = i
  · subst hj
    simp
  · simp [hj]

lemma InterestTree.posted_queueEvent (j : InterestPtr) :
    (st.malloc.queueEvent i (newEvent st r)).posted j ↔
      st.posted j ∨ (j ∈ T ∧ r.pid = st.pid j) := by
  rw [h.hit_iff hi hpid]
  by_cases hj : j = i
  · simp [hj]
  · simp [hj]

end Hit

namespace GotResult

variable {i : InterestPtr}

/-- The child lives on. -/
lemma queued (h : InterestTree st.pid st.interests T) (hi : i ∈ T) (hpid : r.pid = st.pid i)
    (hd : ¬ r.isDead M) : GotResult M st T r (st.malloc.queueEvent i (newEvent st r)) T where
  tree := h
  mem j := by simp [hd]
  pid := rfl
  dead j := by simp [hd]
  pending := h.pending_queueEvent hi hpid
  posted := h.posted_queueEvent hi hpid
  owner := rfl
  thread := rfl
  mallocs := rfl
  freed := by
    rw [if_pos ⟨i, hi, hpid⟩]
    simp
  matched _ := ⟨i, hi, hpid.symm⟩

/-- The child is dead, and its interest leaves the tree. -/
lemma died (h : InterestTree st.pid st.interests T) (hi : i ∈ T) (hpid : r.pid = st.pid i)
    (hd : r.isDead M) {interests : AvlState} (h' : InterestTree st.pid interests (T.erase i)) :
    GotResult M st T r
      (((st.malloc.queueEvent i (newEvent st r)).setInterests interests).setDead i)
      (T.erase i) where
  tree := h'
  mem j := by
    have := h.hit_iff (j := j) hi hpid
    rw [Finset.mem_erase]
    tauto
  pid := rfl
  dead j := by
    simp only [hd, true_and, h.hit_iff hi hpid]
    by_cases hj : j = i
    · simp [hj]
    · simp [hj]
  pending := h.pending_queueEvent hi hpid
  posted := h.posted_queueEvent hi hpid
  owner := rfl
  thread := rfl
  mallocs := rfl
  freed := by
    rw [if_pos ⟨i, hi, hpid⟩]
    simp
  matched _ := ⟨i, hi, hpid.symm⟩

/-- Nobody is interested in the child, which lives on. -/
lemma ignored (h : InterestTree st.pid st.interests T) (hne : ∀ i ∈ T, st.pid i ≠ r.pid)
    (hd : ¬ r.isDead M) : GotResult M st T r (st.malloc.addFreed [st.mallocs]) T := by
  have hno : ∀ j, ¬ (j ∈ T ∧ r.pid = st.pid j) := fun j hj => hne j hj.1 hj.2.symm
  have hnex : ¬ ∃ j ∈ T, r.pid = st.pid j := fun ⟨j, hj⟩ => hno j hj
  refine ⟨h, fun j => ?_, rfl, fun j => ?_, fun j => ?_, fun j => ?_, rfl, rfl, rfl, ?_,
    fun hdead => absurd hdead hd⟩
  · simp [hd]
  · simp [hd]
  · simp [hno j]
  · simp [hno j]
  · rw [if_neg hnex]
    rfl

end GotResult

/-- What one turn of the loop does. -/
lemma gotResult_eq (h : InterestTree st.pid st.interests T) (hnew : st.mallocs ∉ st.freed) :
    (∃ st' T', gotResult M st r = .ok st' ∧ GotResult M st T r st' T') ∨
      (r.isDead M ∧ (∀ i ∈ T, st.pid i ≠ r.pid) ∧ gotResult M st r = .error .invalidAccess) := by
  rcases h.find_eq r.pid with ⟨i, hi, hpid, hfind⟩ | ⟨hne, hfind⟩
  · have hfind' : ivWaitInterestFind st.malloc r.pid = .ok (some i) := hfind
    by_cases hd : r.isDead M
    · obtain ⟨interests, hdel, h'⟩ := h.delete hi
      refine Or.inl ⟨_, _, ?_, .died h hi hpid.symm hd h'⟩
      have hd' : ivWaitStatusDead M r.status = true := hd
      simp [gotResult, hfind', hd', derefNode, hdel, newEvent]
    · refine Or.inl ⟨_, _, ?_, .queued h hi hpid.symm hd⟩
      have hd' : ¬ ivWaitStatusDead M r.status = true := hd
      simp [gotResult, hfind', hd', newEvent]
  · have hfind' : ivWaitInterestFind st.malloc r.pid = .ok none := hfind
    by_cases hd : r.isDead M
    · refine Or.inr ⟨hd, hne, ?_⟩
      have hd' : ivWaitStatusDead M r.status = true := hd
      simp [gotResult, hfind', hd', derefNode, WaitState.free, hnew]
    · refine Or.inl ⟨_, _, ?_, .ignored h hne hd⟩
      have hd' : ¬ ivWaitStatusDead M r.status = true := hd
      simp [gotResult, hfind', hd', WaitState.free, hnew]

/-! ### A list of results -/

/-- The reports for one pid. -/
def reports (pid : ℤ) (results : List WaitResult) : List (ℤ × ℕ) :=
  (results.filter fun r => r.pid = pid).map WaitResult.report

/-- A list of reports up to the first one of a child that is dead. -/
def upToDead (M : StatusMacros) : List (ℤ × ℕ) → List (ℤ × ℕ)
  | []      => []
  | x :: xs => x :: if ivWaitStatusDead M x.1 then [] else upToDead M xs

/-- The child with this pid has been reported dead. -/
def DiedIn (M : StatusMacros) (results : List WaitResult) (pid : ℤ) : Prop :=
  ∃ r ∈ results, r.isDead M ∧ r.pid = pid

lemma diedIn_cons {pid : ℤ} : DiedIn M (r :: results) pid ↔
    (r.isDead M ∧ r.pid = pid) ∨ DiedIn M results pid := by
  simp [DiedIn]

lemma diedIn_iff {pid : ℤ} : DiedIn M results pid ↔
    ∃ x ∈ reports pid results, ivWaitStatusDead M x.1 := by
  simp only [DiedIn, reports, List.mem_map, List.mem_filter, decide_eq_true_eq]
  constructor
  · rintro ⟨r, hr, hd, hpid⟩
    exact ⟨r.report, ⟨r, ⟨hr, hpid⟩, rfl⟩, hd⟩
  · rintro ⟨x, ⟨r, ⟨hr, hpid⟩, rfl⟩, hd⟩
    exact ⟨r, hr, hd, hpid⟩

/-- The interests in the tree are `T` before and `T'` after the results have been dealt with. -/
structure Reaped (M : StatusMacros) (st : WaitState) (T : Finset InterestPtr)
    (results : List WaitResult) (st' : WaitState) (T' : Finset InterestPtr) : Prop where
  mem     : ∀ i, i ∈ T' ↔ i ∈ T ∧ ¬ DiedIn M results (st.pid i)
  pid     : st'.pid = st.pid
  dead    : ∀ i, st'.dead i ↔ st.dead i ∨ (i ∈ T ∧ DiedIn M results (st.pid i))
  pending : ∀ i, (st'.eventsPending i).map WaitEvent.report =
    (st.eventsPending i).map WaitEvent.report ++
      if i ∈ T then upToDead M (reports (st.pid i) results) else []
  other   : ∀ i, (∀ r ∈ results, r.pid ≠ st.pid i) →
    st'.eventsPending i = st.eventsPending i ∧ st'.posted i = st.posted i
  owner   : st'.owner = st.owner
  thread  : st'.thread = st.thread

namespace Reaped

lemma nil : Reaped M st T [] st T where
  mem i := by simp [DiedIn]
  pid := rfl
  dead i := by simp [DiedIn]
  pending i := by simp [reports, upToDead]
  other i _ := ⟨rfl, rfl⟩
  owner := rfl
  thread := rfl

lemma cons {st'' : WaitState} {T'' : Finset InterestPtr} (h : GotResult M st T r st' T')
    (h' : Reaped M st' T' results st'' T'') : Reaped M st T (r :: results) st'' T'' where
  mem i := by
    rw [h'.mem, h.mem, h.pid, diedIn_cons]
    tauto
  pid := h'.pid.trans h.pid
  dead i := by
    rw [h'.dead, h.dead, h.mem, h.pid, diedIn_cons]
    tauto
  pending i := by
    rw [h'.pending, h.pending, h.pid, List.map_append, List.append_assoc]
    congr 1
    by_cases hi : i ∈ T
    · by_cases hpid : r.pid = st.pid i
      · by_cases hd : r.isDead M
        · have hi' : i ∉ T' := fun hi' => ((h.mem i).mp hi').2 ⟨hd, hpid⟩
          have hd' : ivWaitStatusDead M r.report.1 = true := hd
          simp [hi, hi', hpid, reports, upToDead, hd']
        · have hi' : i ∈ T' := (h.mem i).mpr ⟨hi, fun hd' => hd hd'.1⟩
          have hd' : ¬ ivWaitStatusDead M r.report.1 = true := hd
          simp [hi, hi', hpid, reports, upToDead, hd']
      · have hi' : i ∈ T' := (h.mem i).mpr ⟨hi, fun hd => hpid hd.2⟩
        simp [hi, hi', hpid, reports]
    · have hi' : i ∉ T' := fun hi' => hi ((h.mem i).mp hi').1
      simp [hi, hi']
  other i hi := by
    have hne : ¬ (i ∈ T ∧ r.pid = st.pid i) := fun hhit => hi r List.mem_cons_self hhit.2
    obtain ⟨hpending, hposted⟩ := h'.other i fun r' hr' =>
      h.pid ▸ hi r' (List.mem_cons_of_mem r hr')
    rw [hpending, hposted, h.pending, if_neg hne, List.append_nil]
    refine ⟨rfl, Bool.eq_iff_iff.mpr ?_⟩
    rw [h.posted, or_iff_left hne]
  owner := h'.owner.trans h.owner
  thread := h'.thread.trans h.thread

end Reaped

end Ivykis
