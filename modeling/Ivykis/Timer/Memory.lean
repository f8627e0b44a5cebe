import Ivykis.Kit.Pool
import Ivykis.Timer.Capacity

/-!
# The memory of the radix tree

The nodes above and beside `first_leaf` come from `calloc` and go back with `free`. Every function
of `iv_timer.c` is, as far as memory is concerned, a run of the pool of addresses `Kit.poolLts`,
with `first_leaf` as its base. `iv_timer_deinit` empties the pool, because the loops that free the
children of a node may stop at the first null child: there are no gaps.
-/

namespace Ivykis

/-- The loop of `iv_timer_deinit`; the first argument bounds the number of iterations. -/
def deinitLoop : ℕ → TimerState → Except Fault TimerState
  | 0, st => if st.ratDepth ≠ 0 then .error .stuck else .ok st
  | fuel + 1, st => do
    if st.ratDepth ≠ 0 then
      let st ← ivTimerRadixTreeRemoveLevel st
      deinitLoop fuel st
    else .ok st

/-- `iv_timer_deinit`. -/
def ivTimerDeinit (st : TimerState) : Except Fault TimerState := do
  let st ← deinitLoop st.ratDepth st
  st.store timerRoot .null

/-! ### Memory operations -/

/-- The memory for tree nodes. -/
def TimerState.pool (st : TimerState) : Kit.Pool := ⟨st.live, st.brk, st.avail⟩

/-- `st'` comes from `st` by allocating and freeing nodes, and by what does neither. -/
def MemRun (avail : ℕ) (st st' : TimerState) : Prop :=
  ∃ ops, (Kit.poolLts 1 avail).exec st.pool ops = some st'.pool

section Code

variable {avail : ℕ} {st st' : TimerState} {n : NodePtr} {p : Slot} {t : TimerPtr}

lemma MemRun.of_pool_eq (h : st'.pool = st.pool) : MemRun avail st st' :=
  ⟨[], congrArg some h.symm⟩

lemma MemRun.refl (st : TimerState) : MemRun avail st st :=
  of_pool_eq rfl

lemma MemRun.trans {st₁ st₂ st₃ : TimerState} (h₁₂ : MemRun avail st₁ st₂)
    (h₂₃ : MemRun avail st₂ st₃) : MemRun avail st₁ st₃ := by
  obtain ⟨ops, hops⟩ := h₁₂
  obtain ⟨ops', hops'⟩ := h₂₃
  exact ⟨ops ++ ops', by rw [Kit.Lts.exec_append, hops, Option.bind_some, hops']⟩

lemma memRun_store {c : Child} (h : st.store p c = .ok st') : MemRun avail st st' := by
  rw [TimerState.store] at h
  split_ifs at h
  obtain rfl := Except.ok.inj h
  exact .of_pool_eq rfl

lemma memRun_free (h : st.free n = .ok st') : MemRun avail st st' := by
  rw [TimerState.free] at h
  split_ifs at h with hn
  obtain rfl := Except.ok.inj h
  refine ⟨[.free n], ?_⟩
  have hbase : 1 ≤ n := Nat.one_le_iff_ne_zero.mpr hn.1
  simp [Kit.Lts.exec, Kit.poolLts, Kit.Pool.step, TimerState.pool, hbase, hn.2]

lemma memRun_allocateRatnode (h : ivTimerAllocateRatnode st = .ok (n, st')) :
    MemRun avail st st' := by
  rw [ivTimerAllocateRatnode] at h
  split_ifs at h with havail
  simp only [Except.ok.injEq, Prod.mk.injEq] at h
  obtain ⟨-, rfl⟩ := h
  refine ⟨[.alloc st.brk], ?_⟩
  simp [Kit.Lts.exec, Kit.poolLts, Kit.Pool.step, TimerState.pool, TimerState.calloc, havail]

/-! ### `iv_timer_register` -/

lemma memRun_getNodeGrow (h : getNodeGrow st = .ok st') : MemRun avail st st' := by
  simp only [getNodeGrow, bind_eq_ok] at h
  obtain ⟨⟨r, st₁⟩, halloc, c, -, st₂, hstore, hroot⟩ := h
  have hdepth : MemRun avail st { st with ratDepth := st.ratDepth + 1 } := .of_pool_eq rfl
  exact hdepth.trans ((memRun_allocateRatnode halloc).trans
    ((memRun_store hstore).trans (memRun_store hroot)))

lemma memRun_getNodeLoop {index i : ℕ} {r r' : NodePtr}
    (h : getNodeLoop index i r st = .ok (r', st')) : MemRun avail st st' := by
  induction i generalizing r st with
  | zero =>
    simp only [getNodeLoop, Except.ok.injEq, Prod.mk.injEq] at h
    rw [h.2]
    exact .refl st'
  | succ i ih =>
    simp only [getNodeLoop, bind_eq_ok] at h
    obtain ⟨bits, -, c, -, h⟩ := h
    cases c with
    | null =>
      simp only [bind_eq_ok] at h
      obtain ⟨⟨n, st₁⟩, halloc, st₂, hstore, h⟩ := h
      exact (memRun_allocateRatnode halloc).trans ((memRun_store hstore).trans (ih h))
    | node n => exact ih h
    | timer t => cases h

lemma memRun_getNode {index : ℕ} (h : ivTimerGetNode st index = .ok (p, st')) :
    MemRun avail st st' := by
  simp only [ivTimerGetNode, bind_eq_ok] at h
  obtain ⟨above, -, h⟩ := h
  split_ifs at h
  · simp only [bind_eq_ok] at h
    obtain ⟨st₁, hgrow, r, -, ⟨r', st₂⟩, hloop, h⟩ := h
    rw [← (Prod.mk.inj (Except.ok.inj h)).2]
    exact (memRun_getNodeGrow hgrow).trans (memRun_getNodeLoop hloop)
  · simp only [ok_bind, bind_eq_ok] at h
    obtain ⟨r, -, ⟨r', st₂⟩, hloop, h⟩ := h
    rw [← (Prod.mk.inj (Except.ok.inj h)).2]
    exact memRun_getNodeLoop hloop

lemma memRun_pullUp {fuel index : ℕ} (h : pullUp fuel st index p = .ok st') :
    MemRun avail st st' := by
  induction fuel generalizing st index p with
  | zero => cases h
  | succ fuel ih =>
    rw [pullUp] at h
    split_ifs at h
    · exact Except.ok.inj h ▸ .refl st
    · simp only [bind_eq_ok] at h
      obtain ⟨⟨q, st₁⟩, hget, tp, -, et, -, h⟩ := h
      refine (memRun_getNode hget).trans ?_
      split_ifs at h
      · exact Except.ok.inj h ▸ .refl st₁
      · simp only [bind_eq_ok] at h
        obtain ⟨st₂, hi, st₃, hp, h⟩ := h
        have hindex : MemRun avail st₃ ((st₃.setIndex tp index).setIndex et ↑(index / 2)) :=
          .of_pool_eq rfl
        exact (memRun_store hi).trans ((memRun_store hp).trans (hindex.trans (ih h)))

lemma memRun_register (h : ivTimerRegister st t = .ok st') : MemRun avail st st' := by
  rw [ivTimerRegister] at h
  split_ifs at h
  simp only [bind_eq_ok] at h
  obtain ⟨index, -, ⟨p, st₁⟩, hget, st₂, hstore, hup⟩ := h
  have hnum : MemRun avail st { st with numobjs := st.numobjs + 1, numTimers := index } :=
    .of_pool_eq rfl
  have hindex : MemRun avail st₂ (st₂.setIndex t index) := .of_pool_eq rfl
  exact hnum.trans ((memRun_getNode hget).trans
    ((memRun_store hstore).trans (hindex.trans (memRun_pullUp hup))))

/-! ### `iv_timer_unregister` -/

lemma memRun_selectMin {index indexMin : ℕ} {imin : Slot}
    (h : selectMin st index p = .ok (indexMin, imin, st')) : MemRun avail st st' := by
  simp only [selectMin, bind_eq_ok] at h
  obtain ⟨left, -, h⟩ := h
  split_ifs at h
  · simp only [bind_eq_ok] at h
    obtain ⟨⟨q, st₁⟩, hget, ti, -, t0, -, c, -, h⟩ := h
    obtain rfl : st₁ = st' := by
      cases c with
      | null => exact (Prod.mk.inj (Prod.mk.inj (Except.ok.inj h)).2).2
      | node n =>
        simp only [bind_eq_ok] at h
        obtain ⟨tm, -, t1, -, h⟩ := h
        split_ifs at h <;> exact (Prod.mk.inj (Prod.mk.inj (Except.ok.inj h)).2).2
      | timer u =>
        simp only [bind_eq_ok] at h
        obtain ⟨tm, -, t1, -, h⟩ := h
        split_ifs at h <;> exact (Prod.mk.inj (Prod.mk.inj (Except.ok.inj h)).2).2
    exact memRun_getNode hget
  · rw [← (Prod.mk.inj (Prod.mk.inj (Except.ok.inj h)).2).2]
    exact .refl st

lemma memRun_pushDown {fuel index : ℕ} (h : pushDown fuel st index p = .ok st') :
    MemRun avail st st' := by
  induction fuel generalizing st index p with
  | zero => cases h
  | succ fuel ih =>
    simp only [pushDown, bind_eq_ok] at h
    obtain ⟨⟨indexMin, imin, st₁⟩, hmin, h⟩ := h
    refine (memRun_selectMin hmin).trans ?_
    split_ifs at h
    · exact Except.ok.inj h ▸ .refl st₁
    · simp only [bind_eq_ok] at h
      obtain ⟨et, -, tm, -, st₂, hi, st₃, hm, h⟩ := h
      have hindex : MemRun avail st₃ ((st₃.setIndex tm index).setIndex et indexMin) :=
        .of_pool_eq rfl
      exact (memRun_store hi).trans ((memRun_store hm).trans (hindex.trans (ih h)))

lemma memRun_freeChildren {f : TimerState → NodePtr → Except Fault TimerState}
    (hf : ∀ {st st' : TimerState} {c : NodePtr}, f st c = .ok st' → MemRun avail st st')
    {k i : ℕ} (h : freeChildren f n k i st = .ok st') : MemRun avail st st' := by
  induction k generalizing st i with
  | zero => exact Except.ok.inj h ▸ .refl st
  | succ k ih =>
    simp only [freeChildren, bind_eq_ok] at h
    obtain ⟨c, -, h⟩ := h
    cases c with
    | null => exact Except.ok.inj h ▸ .refl st
    | node c =>
      simp only [bind_eq_ok] at h
      obtain ⟨st₁, hfree, h⟩ := h
      exact (hf hfree).trans (ih h)
    | timer t => cases h

lemma memRun_freeRatnode {depth : ℕ} (h : ivTimerFreeRatnode depth st n = .ok st') :
    MemRun avail st st' := by
  induction depth generalizing st st' n with
  | zero => exact memRun_free h
  | succ depth ih =>
    simp only [ivTimerFreeRatnode, bind_eq_ok] at h
    obtain ⟨st₁, hloop, hfree⟩ := h
    exact (memRun_freeChildren ih hloop).trans (memRun_free hfree)

lemma memRun_removeLevel (h : ivTimerRadixTreeRemoveLevel st = .ok st') :
    MemRun avail st st' := by
  simp only [ivTimerRadixTreeRemoveLevel, bind_eq_ok] at h
  obtain ⟨root, -, st₁, hloop, c, -, st₂, hstore, hfree⟩ := h
  have hdepth : MemRun avail st { st with ratDepth := st.ratDepth - 1 } := .of_pool_eq rfl
  exact hdepth.trans ((memRun_freeChildren memRun_freeRatnode hloop).trans
    ((memRun_store hstore).trans (memRun_free hfree)))

lemma memRun_unlink {m : Slot} (h : unregisterUnlink st t = .ok (p, m, st')) :
    MemRun avail st st' := by
  rw [unregisterUnlink] at h
  split_ifs at h
  simp only [bind_eq_ok] at h
  obtain ⟨⟨q, st₁⟩, hget, c, -, h⟩ := h
  split_ifs at h
  simp only [bind_eq_ok] at h
  obtain ⟨⟨m', st₂⟩, hlast, last, -, st₃, hp, st₄, hm, h⟩ := h
  rw [← (Prod.mk.inj (Prod.mk.inj (Except.ok.inj h)).2).2]
  have hindex : MemRun avail st₃ (st₃.setIndex last (st₃.index t)) := .of_pool_eq rfl
  exact (memRun_getNode hget).trans ((memRun_getNode hlast).trans
    ((memRun_store hp).trans (hindex.trans (memRun_store hm))))

lemma memRun_shrink (h : unregisterShrink st = .ok st') : MemRun avail st st' := by
  rw [unregisterShrink] at h
  split_ifs at h
  · simp only [bind_eq_ok] at h
    obtain ⟨boundary, -, h⟩ := h
    split_ifs at h
    · exact memRun_removeLevel h
    · exact Except.ok.inj h ▸ .refl st
  · exact Except.ok.inj h ▸ .refl st

lemma memRun_restore {m : Slot} (h : unregisterRestore st p m = .ok st') :
    MemRun avail st st' := by
  simp only [unregisterRestore] at h
  have hnum : MemRun avail st { st with numTimers := st.numTimers - 1 } := .of_pool_eq rfl
  refine hnum.trans ?_
  split_ifs at h
  · simp only [bind_eq_ok] at h
    obtain ⟨u, -, st₁, hup, v, -, hdown⟩ := h
    exact (memRun_pullUp hup).trans (memRun_pushDown hdown)
  · exact Except.ok.inj h ▸ .refl _

lemma memRun_unregister (h : ivTimerUnregister st t = .ok st') : MemRun avail st st' := by
  rw [ivTimerUnregister] at h
  split_ifs at h
  · simp only [bind_eq_ok] at h
    obtain ⟨⟨p, m, st₁⟩, hunlink, st₂, hshrink, st₃, hrestore, h⟩ := h
    have hdone : MemRun avail st₃ st' := .of_pool_eq (by rw [← Except.ok.inj h]; rfl)
    exact (memRun_unlink hunlink).trans ((memRun_shrink hshrink).trans
      ((memRun_restore hrestore).trans hdone))
  · exact .of_pool_eq (by rw [← Except.ok.inj h]; rfl)

/-! ### `iv_timer_deinit` -/

lemma memRun_deinitLoop {fuel : ℕ} (h : deinitLoop fuel st = .ok st') : MemRun avail st st' := by
  induction fuel generalizing st with
  | zero =>
    rw [deinitLoop] at h
    split_ifs at h
    exact Except.ok.inj h ▸ .refl st
  | succ fuel ih =>
    rw [deinitLoop] at h
    split_ifs at h
    · simp only [bind_eq_ok] at h
      obtain ⟨st₁, hlevel, h⟩ := h
      exact (memRun_removeLevel hlevel).trans (ih h)
    · exact Except.ok.inj h ▸ .refl st

lemma memRun_deinit (h : ivTimerDeinit st = .ok st') : MemRun avail st st' := by
  simp only [ivTimerDeinit, bind_eq_ok] at h
  obtain ⟨st₁, hloop, hstore⟩ := h
  exact (memRun_deinitLoop hloop).trans (memRun_store hstore)

lemma memRun_step {cap : ℕ} {op : TimerOp} (h : timerStep cap st op = some st') :
    MemRun avail st st' := by
  cases op with
  | register t =>
    simp only [timerStep] at h
    split_ifs at h
    exact memRun_register (toOption_eq_some.mp h)
  | unregister t =>
    simp only [timerStep] at h
    split_ifs at h
    exact memRun_unregister (toOption_eq_some.mp h)
  | setExpires t e =>
    simp only [timerStep] at h
    split_ifs at h
    exact .of_pool_eq (by rw [← Option.some.inj h]; rfl)

/-- A run of the timers is a run of the pool. -/
lemma memRun_of_run {cap : ℕ} {expires : TimerPtr → Timespec} {tr : List TimerOp}
    (h : (timerLts cap expires avail).Run tr st) :
    MemRun avail (ivTimerInit expires avail) st :=
  h.induct (P := fun _ st => MemRun avail (ivTimerInit expires avail) st) (MemRun.refl _)
    fun _ _ _ _ _ hrun hstep => hrun.trans (memRun_step hstep)

lemma pool_init (expires : TimerPtr → Timespec) (avail : ℕ) :
    (ivTimerInit expires avail).pool = (Kit.poolLts 1 avail).init := by
  have hlive : ∀ n : ℕ, (n == firstLeaf) = decide (n < 1) := by
    intro n
    simp [firstLeaf, beq_eq_decide]
  simp only [TimerState.pool, ivTimerInit, Kit.poolLts, hlive]

end Code

/-! ### No gaps -/

/-- After the first null child of a node there is no further node. -/
def NoGap (st : TimerState) : Prop :=
  ∀ n i j m, st.live n = true → i ≤ j → j < timerSplitNodes → st.child n i = .null →
    st.child n j ≠ .node m

/-- One iteration of the loop of `iv_timer_deinit`. -/
def LevelRemoved (st st' : TimerState) : Prop :=
  st.ratDepth ≠ 0 ∧ ivTimerRadixTreeRemoveLevel st = .ok st'

namespace RadixTree

variable {st st' : TimerState} {A : NodeMap} {fuel : ℕ} {n : NodePtr}

lemma noGap (h : RadixTree st A) : NoGap st := by
  intro n i j m hlive hij hj hnull hnode
  obtain ⟨k, q, hn⟩ := (h.live_iff n).mp hlive
  rw [timerSplitNodes_eq] at hj
  cases k with
  | zero =>
    by_cases h0 : q = 0 ∧ j = 0
    · -- the slot is `timer_root`, which is not null
      obtain ⟨rfl, rfl⟩ := h0
      obtain rfl : i = 0 := by omega
      rw [hnull] at hnode
      cases hnode
    · rcases h.slots q n j hn hj h0 with hc | ⟨t, hc⟩
      · cases hc.symm.trans hnode
      · cases hc.symm.trans hnode
  | succ k =>
    rw [h.link i hn (by omega)] at hnull
    rw [h.link j hn hj] at hnode
    have hj' : A k (128 * q + j) ≠ none := by
      intro hnone
      rw [hnone] at hnode
      cases hnode
    obtain ⟨c, hc⟩ := Option.ne_none_iff_exists'.mp
      (h.contig k _ (128 * q + i) hj' (by omega))
    rw [hc] at hnull
    cases hnull

/-- A tree of one level is `first_leaf`. -/
lemma live_iff_of_depthZero (h : RadixTree st A) (h0 : st.ratDepth = 0) :
    st.live n = true ↔ n = firstLeaf := by
  rw [h.live_iff]
  constructor
  · rintro ⟨k, q, hn⟩
    obtain ⟨hk, hq⟩ := h.below k q (by simp [hn])
    obtain rfl : k = 0 := by omega
    obtain rfl := hq h0.symm
    exact (Option.some.inj (h.leaf.symm.trans hn)).symm
  · rintro rfl
    exact ⟨0, 0, h.leaf⟩

lemma levelRemoved (h : RadixTree st A) (hst : LevelRemoved st st') :
    ∃ A', RadixTree st' A' := by
  obtain ⟨st₁, heq, htree, -⟩ := h.removeLevel_eq (e := st.ratDepth - 1) (by
    have := hst.1
    omega)
  obtain rfl : st₁ = st' := Except.ok.inj (heq.symm.trans hst.2)
  exact ⟨_, htree⟩

lemma levelsRemoved (h : RadixTree st A) (hst : Relation.ReflTransGen LevelRemoved st st') :
    ∃ A', RadixTree st' A' := by
  induction hst with
  | refl => exact ⟨A, h⟩
  | tail _ hlast ih =>
    obtain ⟨A', htree⟩ := ih
    exact htree.levelRemoved hlast

lemma deinitLoop_eq (h : RadixTree st A) (hfuel : st.ratDepth ≤ fuel) :
    ∃ st' A', deinitLoop fuel st = .ok st' ∧ RadixTree st' A' ∧ st'.ratDepth = 0 := by
  induction fuel generalizing st A with
  | zero =>
    have h0 : st.ratDepth = 0 := by omega
    exact ⟨st, A, by rw [deinitLoop, if_neg (not_not.mpr h0)], h, h0⟩
  | succ fuel ih =>
    by_cases h0 : st.ratDepth = 0
    · exact ⟨st, A, by rw [deinitLoop, if_neg (not_not.mpr h0)], h, h0⟩
    · obtain ⟨st₁, heq, htree, hdepth, -⟩ := h.removeLevel_eq (e := st.ratDepth - 1) (by omega)
      obtain ⟨st', A', hloop, htree', hdepth'⟩ := ih htree (by omega)
      refine ⟨st', A', ?_, htree', hdepth'⟩
      rw [deinitLoop, if_pos h0, heq, ok_bind, hloop]

/-- `iv_timer_deinit` returns, and leaves `first_leaf` only. -/
theorem deinit_eq (h : RadixTree st A) :
    ∃ st', ivTimerDeinit st = .ok st' ∧ (∀ n, st'.live n = true ↔ n = firstLeaf) ∧
      st'.ratDepth = 0 ∧ st'.child firstLeaf 0 = .null := by
  obtain ⟨st₁, A', hloop, htree, hdepth⟩ := h.deinitLoop_eq le_rfl
  refine ⟨st₁.setChild timerRoot .null, ?_, fun n => htree.live_iff_of_depthZero hdepth, hdepth,
    by simp [TimerState.setChild, timerRoot]⟩
  rw [ivTimerDeinit, hloop, ok_bind]
  exact htree.store htree.leaf (by norm_num) .null

end RadixTree

/-! ### Runs -/

/-- What holds for the memory of the radix tree in `st`, in which `ivTimerInit expires avail` has
ended up. A call that used a freed node, or freed one twice, would fault. -/
structure MemoryOk (expires : TimerPtr → Timespec) (avail : ℕ) (st : TimerState) : Prop where
  register   : ∀ t, st.index t = -1 → st.numTimers + 1 < 2 ^ 28 →
    ivTimerRegister st t = .error outOfMemory ∨ ∃ st', ivTimerRegister st t = .ok st'
  unregister : ∀ t, 1 ≤ st.index t → ∃ st', ivTimerUnregister st t = .ok st'
  /-- `iv_timer_unregister` removes a level from a tree without gaps. -/
  unlink     : ∀ t p m st₁, 1 ≤ st.index t → unregisterUnlink st t = .ok (p, m, st₁) → NoGap st₁
  /-- And so does every iteration of `iv_timer_deinit`. -/
  levels     : ∀ st₁, Relation.ReflTransGen LevelRemoved st st₁ → NoGap st₁
  /-- After `iv_timer_deinit` all that `calloc` has returned since `iv_timer_init` has been freed
  once. -/
  deinit     : ∃ st' ops, ivTimerDeinit st = .ok st' ∧
    (Kit.poolLts 1 avail).exec (ivTimerInit expires avail).pool ops = some st'.pool ∧
    st'.pool.Balanced 1 ops ∧ (∀ n, st'.live n = true ↔ n = firstLeaf) ∧
    st'.ratDepth = 0 ∧ st'.child firstLeaf 0 = .null

section Runs

variable {expires : TimerPtr → Timespec} {avail : ℕ} {tr : List TimerOp} {st : TimerState}

/-- Whatever timers are registered, every node has one parent and one `free`. -/
theorem timerMemory_of_run (h : (timerLts (2 ^ 28) expires avail).Run tr st) :
    MemoryOk expires avail st := by
  obtain ⟨A, hinv⟩ := timerInv_of_run h
  have htree := hinv.tree.tree
  refine ⟨fun t ht hn => ?_, fun t ht => ?_, fun t p m st₁ ht hst => ?_, fun st₁ hst => ?_, ?_⟩
  · rcases hinv.tree.register_eq hinv.valid ht (by norm_num at hn ⊢; omega) with
      ⟨hoom, -⟩ | ⟨st', A', heq, -⟩
    · exact Or.inl hoom
    · exact Or.inr ⟨st', heq⟩
  · obtain ⟨st', A', heq, -⟩ := hinv.tree.unregister_eq hinv.valid ht
    exact ⟨st', heq⟩
  · obtain ⟨st₂, heq, htree₂, -⟩ := hinv.tree.unlink_eq hinv.valid ht
    have hinj := Except.ok.inj (heq.symm.trans hst)
    rw [← (Prod.mk.inj (Prod.mk.inj hinj).2).2]
    exact htree₂.tree.noGap
  · obtain ⟨A', htree'⟩ := htree.levelsRemoved hst
    exact htree'.noGap
  · obtain ⟨st', heq, hlive, hdepth, hroot⟩ := htree.deinit_eq
    obtain ⟨ops, hops⟩ := (memRun_of_run h).trans (memRun_deinit heq)
    refine ⟨st', ops, heq, hops, ?_, hlive, hdepth, hroot⟩
    rw [pool_init] at hops
    exact .of_run hops fun n hn => by
      rw [(hlive n).mp hn]
      exact Nat.one_pos

/-- With `128` timers there is a second leaf, and a node above the two. -/
theorem timerMemory_of_run_twoLevels :
    ∃ st, (timerLts (2 ^ 28) (fun _ => ⟨0, 0⟩) 1000).Run ((List.range 128).map .register) st ∧
      st.ratDepth = 1 ∧ MemoryOk (fun _ => ⟨0, 0⟩) 1000 st := by
  obtain ⟨st, hrun, hn, -⟩ := exists_run (fun _ => ⟨0, 0⟩) (n := 128) (a := 1000) (by norm_num)
    (by norm_num)
  obtain ⟨A, hinv⟩ := timerInv_of_run hrun
  refine ⟨st, hrun, hinv.tree.ratDepth_eq ?_ (Or.inr ?_), timerMemory_of_run hrun⟩
  · rw [hn]
    norm_num
  · rw [hn]
    norm_num

end Runs

end Ivykis
