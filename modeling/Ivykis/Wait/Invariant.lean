import Ivykis.Kit.Placed
import Ivykis.Wait.Reap

/-!
# The invariant of `iv_wait`

In every state that the threads can reach, the tree consists of the interests that are registered
and whose child is not known to be dead, and each `struct wait_event` that has been allocated is in
one queue, in the hands of one thread, or freed.
-/

namespace Ivykis

/-! ### Where a `struct wait_event` is -/

/-- The interest that `iv_wait_completion` has been called for. -/
def WaitPc.this : WaitPc → Option InterestPtr
  | .outside       => none
  | .loop i _      => some i
  | .handler i _ _ => some i

/-- The entries that `iv_wait_completion` has not freed. -/
def WaitPc.events : WaitPc → List WaitEvent
  | .outside             => []
  | .loop _ events       => events
  | .handler _ we events => we :: events

def WaitPc.isLoop : WaitPc → Bool
  | .loop _ _ => true
  | _         => false

inductive WaitPlace where
  | queue (i : InterestPtr)
  | thread (th : ThreadId)
  | freed
  deriving DecidableEq

/-- The addresses of the entries in a place. -/
def WaitState.holds (st : WaitState) : WaitPlace → List ℕ
  | .queue i   => (st.eventsPending i).map WaitEvent.addr
  | .thread th => (st.thread th).pc.events.map WaitEvent.addr
  | .freed     => st.freed

/-- The interest is registered, and `iv_wait_interest_unregister` has not been called for it. -/
def WaitState.Registered (st : WaitState) (i : InterestPtr) : Prop :=
  ∃ th, st.owner i = some th ∧ (st.thread th).unregistering ≠ some i

lemma WaitState.registered_congr {st st' : WaitState} (howner : st'.owner = st.owner)
    (hthread : ∀ th, (st'.thread th).unregistering = (st.thread th).unregistering)
    (i : InterestPtr) : st'.Registered i ↔ st.Registered i := by
  simp only [Registered, howner, hthread]

/-- The invariant, when the interests in `T` are in the tree. -/
structure WaitInv (st : WaitState) (T : Finset InterestPtr) : Prop where
  tree          : InterestTree st.pid st.interests T
  mem           : ∀ i, i ∈ T ↔ st.Registered i ∧ ¬ st.dead i
  handled       : ∀ th i, (st.thread th).handledWaitInterest = some i →
    st.owner i = some th ∧ (st.thread th).pc.this = some i
  unregistering : ∀ th i, (st.thread th).unregistering = some i →
    st.owner i = some th ∧ ¬ (st.thread th).pc.isLoop
  idle          : ∀ i, st.owner i = none → st.eventsPending i = []
  woken         : ∀ i, st.eventsPending i ≠ [] → st.posted i
  placed        : Kit.Placed st.holds fun addr => addr < st.mallocs

lemma waitInv_init (nodes : AvlState) (pid : InterestPtr → ℤ) :
    WaitInv (waitInit nodes pid) ∅ where
  tree := .empty pid nodes
  mem i := by simp [waitInit, WaitState.Registered]
  handled th i h := by simp [waitInit] at h
  unregistering th i h := by simp [waitInit] at h
  idle i _ := rfl
  woken i h := absurd rfl h
  placed := by
    refine (Kit.Placed.empty fun addr => ?_).congr fun p => ?_
    · simp [waitInit]
    · cases p <;> rfl

/-- Whoever is reported dead has an interest in the tree, and is not reported dead twice. -/
structure DeadMatched (M : StatusMacros) (pid : InterestPtr → ℤ) (T : Finset InterestPtr)
    (results : List WaitResult) : Prop where
  interest : ∀ r ∈ results, r.isDead M → ∃ i ∈ T, pid i = r.pid
  once     : results.Pairwise fun r r' => r.isDead M → r'.isDead M → r.pid ≠ r'.pid

namespace WaitInv

variable {M : StatusMacros} {st st' : WaitState} {T T' : Finset InterestPtr} {r : WaitResult}
  {results : List WaitResult} {i : InterestPtr} {th : ThreadId} {addr : ℕ}

lemma lt_mallocs (h : WaitInv st T) {p : WaitPlace} (hp : addr ∈ st.holds p) :
    addr < st.mallocs :=
  (h.placed.issued addr).mpr ⟨p, hp⟩

lemma mallocs_notMem_freed (h : WaitInv st T) : st.mallocs ∉ st.freed := fun hmem =>
  absurd (h.lt_mallocs (p := .freed) hmem) (lt_irrefl _)

lemma notMem_freed (h : WaitInv st T) {p : WaitPlace} (hp : p ≠ .freed) (hmem : addr ∈ st.holds p) :
    addr ∉ st.freed := fun hf => hp (h.placed.unique p .freed addr hmem hf)

lemma notMem_of_owner (h : WaitInv st T) (hi : st.owner i = none) : i ∉ T := by
  intro hmem
  obtain ⟨⟨th, hth, -⟩, -⟩ := (h.mem i).mp hmem
  rw [hi] at hth
  cases hth

/-! ### Collecting -/

/-- The new entry goes to the queue of the interest, or is freed at once. -/
lemma placed_gotResult (h : WaitInv st T) (hg : GotResult M st T r st' T') :
    Kit.Placed st'.holds fun addr => addr < st'.mallocs := by
  have hissued : ∀ a, a < st'.mallocs ↔ a < st.mallocs ∨ a = st.mallocs := by
    intro a
    rw [hg.mallocs]
    omega
  by_cases hex : ∃ i ∈ T, r.pid = st.pid i
  · obtain ⟨i, hi, hpid⟩ := hex
    refine h.placed.add (a := .queue i) (lt_irrefl _) hissued ?_ fun p hp => ?_
    · simp only [WaitState.holds, hg.pending, if_pos (And.intro hi hpid), List.map_append]
      exact List.perm_append_comm
    · cases p with
      | queue j =>
        have hj : ¬ (j ∈ T ∧ r.pid = st.pid j) := fun hj =>
          hp (congrArg _ ((h.tree.hit_iff hi hpid).mp hj))
        simp [WaitState.holds, hg.pending, hj]
      | thread th => rw [WaitState.holds, WaitState.holds, hg.thread]
      | freed =>
        rw [WaitState.holds, WaitState.holds, hg.freed, if_pos ⟨i, hi, hpid⟩, List.append_nil]
  · refine h.placed.add (a := .freed) (lt_irrefl _) hissued ?_ fun p hp => ?_
    · rw [WaitState.holds, WaitState.holds, hg.freed, if_neg hex]
      exact List.perm_append_comm
    · cases p with
      | queue j =>
        have hj : ¬ (j ∈ T ∧ r.pid = st.pid j) := fun hj => hex ⟨j, hj⟩
        simp [WaitState.holds, hg.pending, hj]
      | thread th => rw [WaitState.holds, WaitState.holds, hg.thread]
      | freed => exact absurd rfl hp

lemma of_gotResult (h : WaitInv st T) (hg : GotResult M st T r st' T') : WaitInv st' T' where
  tree := hg.tree
  mem i := by
    rw [hg.mem, hg.dead, WaitState.registered_congr hg.owner fun th => by rw [hg.thread]]
    have := h.mem i
    tauto
  handled := by
    rw [hg.thread, hg.owner]
    exact h.handled
  unregistering := by
    rw [hg.thread, hg.owner]
    exact h.unregistering
  idle i hi := by
    rw [hg.owner] at hi
    rw [hg.pending, h.idle i hi, if_neg fun hj => h.notMem_of_owner hi hj.1, List.nil_append]
  woken i hi := by
    rw [hg.posted]
    rw [hg.pending] at hi
    by_cases hhit : i ∈ T ∧ r.pid = st.pid i
    · exact Or.inr hhit
    · rw [if_neg hhit, List.append_nil] at hi
      exact Or.inl (h.woken i hi)
  placed := h.placed_gotResult hg

/-- `iv_wait_got_sigchld` keeps the invariant. -/
lemma of_reap (h : WaitInv st T) (heq : ivWaitGotSigchld M st results = .ok st') :
    ∃ T', WaitInv st' T' ∧ Reaped M st T results st' T' := by
  induction results generalizing st T with
  | nil =>
    obtain rfl := Except.ok.inj heq
    exact ⟨T, h, .nil⟩
  | cons r results ih =>
    rw [ivWaitGotSigchld, List.foldlM_cons, bind_eq_ok] at heq
    obtain ⟨st₁, heq₁, heq⟩ := heq
    rcases gotResult_eq (M := M) (r := r) h.tree h.mallocs_notMem_freed with
      ⟨st₂, T₂, heq₂, hg⟩ | ⟨-, -, herr⟩
    · obtain rfl : st₁ = st₂ := Except.ok.inj (heq₁.symm.trans heq₂)
      obtain ⟨T', hinv, hreap⟩ := ih (h.of_gotResult hg) heq
      exact ⟨T', hinv, .cons hg hreap⟩
    · rw [herr] at heq₁
      cases heq₁

/-- What is asked of the first result and of the others. -/
lemma deadMatched_cons (hg : GotResult M st T r st' T') :
    DeadMatched M st.pid T (r :: results) ↔ DeadMatched M st'.pid T' results := by
  rw [hg.pid]
  constructor
  · intro hm
    obtain ⟨honce, honce'⟩ := List.pairwise_cons.mp hm.once
    refine ⟨fun r' hr' hd' => ?_, honce'⟩
    obtain ⟨i, hi, hpid⟩ := hm.interest r' (List.mem_cons_of_mem r hr') hd'
    refine ⟨i, (hg.mem i).mpr ⟨hi, fun hd => ?_⟩, hpid⟩
    exact honce r' hr' hd.1 hd' (hd.2.trans hpid)
  · intro hm
    refine ⟨fun r' hr' hd' => ?_, List.pairwise_cons.mpr ⟨fun r' hr' hd hd' heq => ?_, hm.once⟩⟩
    · rcases List.mem_cons.mp hr' with rfl | hr'
      · exact hg.matched hd'
      · obtain ⟨i, hi, hpid⟩ := hm.interest r' hr' hd'
        exact ⟨i, ((hg.mem i).mp hi).1, hpid⟩
    · -- the interest has left the tree with the first report
      obtain ⟨i, hi, hpid⟩ := hm.interest r' hr' hd'
      exact ((hg.mem i).mp hi).2 ⟨hd, heq.trans hpid.symm⟩

/-- `iv_wait_got_sigchld` returns exactly if each child that is reported dead has an interest. -/
lemma reap_ok_iff (h : WaitInv st T) :
    (∃ st', ivWaitGotSigchld M st results = .ok st') ↔ DeadMatched M st.pid T results := by
  induction results generalizing st T with
  | nil => exact iff_of_true ⟨st, rfl⟩ ⟨by simp, .nil⟩
  | cons r results ih =>
    rcases gotResult_eq (M := M) (r := r) h.tree h.mallocs_notMem_freed with
      ⟨st₁, T₁, heq, hg⟩ | ⟨hd, hne, herr⟩
    · rw [deadMatched_cons hg, ← ih (h.of_gotResult hg), ivWaitGotSigchld, List.foldlM_cons, heq,
        ok_bind]
      rfl
    · refine iff_of_false ?_ fun hm => ?_
      · rw [ivWaitGotSigchld, List.foldlM_cons, herr]
        rintro ⟨st', hst'⟩
        cases hst'
      · obtain ⟨i, hi, hpid⟩ := hm.interest r List.mem_cons_self hd
        exact hne i hi hpid

end WaitInv

/-! ### Freeing -/

lemma free_eq_ok {st st' : WaitState} {addr : ℕ} : st.free addr = .ok st' ↔
    (addr < st.mallocs ∧ addr ∉ st.freed) ∧ st.addFreed [addr] = st' := by
  rw [WaitState.free]
  split_ifs with h <;> simp [h]

lemma addFreed_addFreed (st : WaitState) (l l' : List ℕ) :
    (st.addFreed l).addFreed l' = st.addFreed (l ++ l') := by
  simp [WaitState.addFreed, List.append_assoc]

lemma eq_of_freeAll {st st' : WaitState} {L : List WaitEvent}
    (h : L.foldlM (fun st we => st.free we.addr) st = .ok st') :
    st' = st.addFreed (L.map WaitEvent.addr) := by
  induction L generalizing st with
  | nil =>
    obtain rfl := Except.ok.inj h
    simp [WaitState.addFreed]
  | cons we L ih =>
    rw [List.foldlM_cons, bind_eq_ok] at h
    obtain ⟨st₁, h₁, h⟩ := h
    rw [ih h, ← (free_eq_ok.mp h₁).2, addFreed_addFreed]
    rfl

lemma freeAll_ok {st : WaitState} {L : List WaitEvent} (hnd : (L.map WaitEvent.addr).Nodup)
    (h : ∀ a ∈ L.map WaitEvent.addr, a < st.mallocs ∧ a ∉ st.freed) :
    ∃ st', L.foldlM (fun st we => st.free we.addr) st = .ok st' := by
  induction L generalizing st with
  | nil => exact ⟨st, rfl⟩
  | cons we L ih =>
    rw [List.map_cons, List.nodup_cons] at hnd
    have hwe : st.free we.addr = .ok (st.addFreed [we.addr]) :=
      free_eq_ok.mpr ⟨h we.addr (by simp), rfl⟩
    rw [List.foldlM_cons, hwe, ok_bind]
    refine ih hnd.2 fun a ha => ?_
    obtain ⟨hlt, hf⟩ := h a (by simp [ha])
    refine ⟨hlt, ?_⟩
    simp only [WaitState.addFreed_freed, List.mem_append, List.mem_singleton, not_or]
    exact ⟨hf, fun he => hnd.1 (he ▸ ha)⟩

/-! ### Steps -/

/-- The thread that takes the step. -/
def WaitLabel.thread : WaitLabel → ThreadId
  | .register th _ _ | .spawn th _ _ | .reap th _ | .steal th _ | .call th _ _ _ | .skip th
  | .ret th | .finish th | .unregister th _ | .unregistered th => th

/-- The interest that is put into the tree, by which thread and with which pid. -/
def WaitLabel.adds : WaitLabel → Option (ThreadId × InterestPtr × ℤ)
  | .register th i pid     => some (th, i, pid)
  | .spawn th i (some pid) => some (th, i, pid)
  | _                      => none

/-- `waitStep` by cases, when the interests in the tree are `T` before and `T'` after. -/
inductive WaitStep (M : StatusMacros) (st : WaitState) (T : Finset InterestPtr) :
    WaitLabel → WaitState → Finset InterestPtr → Prop where
  | add {a : WaitLabel} {th : ThreadId} {i : InterestPtr} {pid : ℤ} {interests : AvlState}
      (ha : a.adds = some (th, i, pid)) (ho : st.owner i = none)
      (ht : InterestTree (Function.update st.pid i pid) interests (insert i T)) :
      WaitStep M st T a (((st.setPid i pid).register th i).setInterests interests) (insert i T)
  | spawnFailed {th : ThreadId} {i : InterestPtr} (ho : st.owner i = none)
      (hu : (st.thread th).unregistering = none) :
      WaitStep M st T (.spawn th i none) ((st.register th i).unregister th i) T
  | reap {th : ThreadId} {results : List WaitResult} {st' : WaitState} {T' : Finset InterestPtr}
      (hinv : WaitInv st' T') (hr : Reaped M st T results st' T') :
      WaitStep M st T (.reap th results) st' T'
  | steal {th : ThreadId} {i : InterestPtr} (hl : (st.thread th).inLoop)
      (ho : st.owner i = some th) : WaitStep M st T (.steal th i) (st.steal th i) T
  | call {th : ThreadId} {i : InterestPtr} {we : WaitEvent} {events : List WaitEvent}
      (hpc : (st.thread th).pc = .loop i (we :: events))
      (hh : (st.thread th).handledWaitInterest.isSome) :
      WaitStep M st T (.call th i we.status we.rusage) (st.setPc th (.handler i we events)) T
  | skip {th : ThreadId} {i : InterestPtr} {we : WaitEvent} {events : List WaitEvent}
      (hpc : (st.thread th).pc = .loop i (we :: events))
      (hh : ¬ (st.thread th).handledWaitInterest.isSome) :
      WaitStep M st T (.skip th) ((st.addFreed [we.addr]).setPc th (.loop i events)) T
  | ret {th : ThreadId} {i : InterestPtr} {we : WaitEvent} {events : List WaitEvent}
      (hpc : (st.thread th).pc = .handler i we events)
      (hu : (st.thread th).unregistering = none) :
      WaitStep M st T (.ret th) ((st.addFreed [we.addr]).setPc th (.loop i events)) T
  | finish {th : ThreadId} {i : InterestPtr} (hpc : (st.thread th).pc = .loop i []) :
      WaitStep M st T (.finish th) (st.finish th) T
  | unregister {th : ThreadId} {i : InterestPtr} {interests : AvlState}
      (hu : (st.thread th).inUserCode) (ho : st.owner i = some th)
      (ht : InterestTree st.pid interests (T.erase i)) :
      WaitStep M st T (.unregister th i) ((st.setInterests interests).setUnregistering th i)
        (T.erase i)
  | unregistered {th : ThreadId} {i : InterestPtr} (hi : (st.thread th).unregistering = some i) :
      WaitStep M st T (.unregistered th)
        ((st.addFreed ((st.eventsPending i).map WaitEvent.addr)).unregister th i) T

section Step

variable {M : StatusMacros} {st st' : WaitState} {T T' : Finset InterestPtr} {a : WaitLabel}
  {th : ThreadId} {i : InterestPtr}

lemma WaitThread.unregistering_of_inUserCode {t : WaitThread} (h : t.inUserCode) :
    t.unregistering = none ∧ ¬ t.pc.isLoop := by
  obtain ⟨waitCount, handled, pc, unregistering⟩ := t
  cases pc <;> simp_all [WaitThread.inUserCode, WaitPc.isLoop]

lemma WaitThread.pc_of_inLoop {t : WaitThread} (h : t.inLoop) :
    t.unregistering = none ∧ t.pc = .outside := by
  simpa [WaitThread.inLoop] using h

/-- An interest that is registered, and is not being unregistered, is in the tree unless its child
is dead. -/
lemma WaitInv.unregisterLocked_eq (h : WaitInv st T) (hu : (st.thread th).inUserCode)
    (ho : st.owner i = some th) : ∃ interests,
      unregisterLocked st i = .ok (st.setInterests interests) ∧
        InterestTree st.pid interests (T.erase i) := by
  have hreg : st.Registered i := by
    refine ⟨th, ho, ?_⟩
    rw [(WaitThread.unregistering_of_inUserCode hu).1]
    simp
  by_cases hd : st.dead i
  · have hi : i ∉ T := fun hi => ((h.mem i).mp hi).2 hd
    refine ⟨st.interests, ?_, ?_⟩
    · rw [unregisterLocked, if_pos hd]
      rfl
    · rw [Finset.erase_eq_of_notMem hi]
      exact h.tree
  · obtain ⟨interests, heq, ht⟩ := h.tree.delete ((h.mem i).mpr ⟨hreg, hd⟩)
    refine ⟨interests, ?_, ht⟩
    rw [unregisterLocked, if_neg hd, heq]
    rfl

/-- What is queued for an interest can be freed. -/
lemma WaitInv.unregister_ok (h : WaitInv st T) (th : ThreadId) (i : InterestPtr) :
    ∃ st', waitInterestUnregister st th i = .ok st' := by
  obtain ⟨st', heq⟩ := freeAll_ok (h.placed.nodup (.queue i)) fun addr haddr =>
    ⟨h.lt_mallocs (p := .queue i) haddr, h.notMem_freed (p := .queue i) (by simp) haddr⟩
  exact ⟨_, by rw [waitInterestUnregister, heq, ok_bind]⟩

/-- Inserting an interest with a pid that is not in the tree. -/
lemma WaitInv.insert_eq (h : WaitInv st T) {pid : ℤ} (ho : st.owner i = none)
    (hpid : ∀ j ∈ T, st.pid j ≠ pid) : ∃ interests,
      ivAvlTreeInsert (ivWaitInterestCompare (Function.update st.pid i pid)) avlFuel st.interests i
        = .ok (0, interests) ∧
      InterestTree (Function.update st.pid i pid) interests (insert i T) := by
  have hi := h.notMem_of_owner ho
  have hne : ∀ j ∈ T, j ≠ i := fun j hj => ne_of_mem_of_not_mem hj hi
  have htree : InterestTree (Function.update st.pid i pid) st.interests T :=
    h.tree.congr fun j hj => Function.update_of_ne (hne j hj) _ _
  refine htree.insert hi fun j hj => ?_
  rw [Function.update_of_ne (hne j hj), Function.update_self]
  exact hpid j hj

lemma WaitInv.register_eq (h : WaitInv st T) {pid : ℤ} (th : ThreadId) (ho : st.owner i = none)
    (hpid : ∀ j ∈ T, st.pid j ≠ pid) : ∃ interests,
      insertInterest ((st.setPid i pid).register th i) i
        = .ok (((st.setPid i pid).register th i).setInterests interests) ∧
      InterestTree (Function.update st.pid i pid) interests (insert i T) := by
  obtain ⟨interests, heq, ht⟩ := h.insert_eq ho hpid
  refine ⟨interests, ?_, ht⟩
  have heq' : ivAvlTreeInsert (ivWaitInterestCompare ((st.setPid i pid).register th i).pid) avlFuel
      ((st.setPid i pid).register th i).interests i = .ok (0, interests) := heq
  rw [insertInterest, heq', ok_bind]

/-- What a step does. Interests are registered only for pids that are not in the tree. -/
lemma WaitStep.of_step (h : WaitInv st T)
    (hpid : ∀ th i pid, a.adds = some (th, i, pid) → ∀ j ∈ T, st.pid j ≠ pid)
    (hs : waitStep M st a = some st') : ∃ T', WaitStep M st T a st' T' := by
  cases a with
  | register th i pid =>
    simp only [waitStep, Option.ite_none_right_eq_some, toOption_eq_some] at hs
    obtain ⟨⟨hu, ho⟩, hs⟩ := hs
    obtain ⟨interests, heq, ht⟩ := h.register_eq th ho (hpid th i pid rfl)
    obtain rfl := Except.ok.inj (heq.symm.trans hs)
    exact ⟨_, .add rfl ho ht⟩
  | spawn th i fork =>
    simp only [waitStep, Option.ite_none_right_eq_some, toOption_eq_some] at hs
    obtain ⟨⟨hu, ho⟩, hs⟩ := hs
    cases fork with
    | none =>
      have hp : (st.register th i).eventsPending i = [] := by simp
      simp only [ivWaitInterestRegisterSpawn, waitInterestUnregister, hp, List.foldlM_nil] at hs
      obtain rfl := Except.ok.inj hs
      exact ⟨T, .spawnFailed ho (WaitThread.unregistering_of_inUserCode hu).1⟩
    | some pid =>
      obtain ⟨interests, heq, ht⟩ := h.register_eq th ho (hpid th i pid rfl)
      obtain rfl := Except.ok.inj (heq.symm.trans hs)
      exact ⟨_, .add rfl ho ht⟩
  | reap th results =>
    simp only [waitStep, Option.ite_none_right_eq_some, toOption_eq_some] at hs
    obtain ⟨T', hinv, hr⟩ := h.of_reap hs.2
    exact ⟨T', .reap hinv hr⟩
  | steal th i =>
    simp only [waitStep, Option.ite_none_right_eq_some, Option.some.injEq] at hs
    obtain ⟨⟨hl, ho, -⟩, rfl⟩ := hs
    exact ⟨T, .steal hl ho⟩
  | call th i status rusage =>
    simp only [waitStep] at hs
    split at hs
    · rename_i p we events hpc
      simp only [Option.ite_none_right_eq_some, Option.some.injEq] at hs
      obtain ⟨⟨hh, rfl, rfl, rfl⟩, rfl⟩ := hs
      exact ⟨T, .call hpc hh⟩
    · cases hs
  | skip th =>
    simp only [waitStep] at hs
    split at hs
    · rename_i p we events hpc
      simp only [Option.ite_none_left_eq_some, Option.map_eq_some_iff, toOption_eq_some,
        free_eq_ok] at hs
      obtain ⟨hh, st₁, ⟨-, rfl⟩, rfl⟩ := hs
      exact ⟨T, .skip hpc hh⟩
    · cases hs
  | ret th =>
    simp only [waitStep] at hs
    split at hs
    · rename_i p we events hpc
      simp only [Option.ite_none_right_eq_some, Option.map_eq_some_iff, toOption_eq_some,
        free_eq_ok, Option.isNone_iff_eq_none] at hs
      obtain ⟨hu, st₁, ⟨-, rfl⟩, rfl⟩ := hs
      exact ⟨T, .ret hpc hu⟩
    · cases hs
  | finish th =>
    simp only [waitStep] at hs
    split at hs
    · rename_i p hpc
      obtain rfl := Option.some.inj hs
      exact ⟨T, .finish hpc⟩
    · cases hs
  | unregister th i =>
    simp only [waitStep, Option.ite_none_right_eq_some, Option.map_eq_some_iff,
      toOption_eq_some] at hs
    obtain ⟨⟨hu, ho⟩, st₁, hst₁, rfl⟩ := hs
    obtain ⟨interests, heq, ht⟩ := h.unregisterLocked_eq hu ho
    obtain rfl := Except.ok.inj (heq.symm.trans hst₁)
    exact ⟨_, .unregister hu ho ht⟩
  | unregistered th =>
    simp only [waitStep] at hs
    split at hs
    · rename_i i hi
      rw [toOption_eq_some, waitInterestUnregister, bind_eq_ok] at hs
      obtain ⟨st₁, hst₁, hs⟩ := hs
      obtain rfl := eq_of_freeAll hst₁
      obtain rfl := Except.ok.inj hs
      exact ⟨T, .unregistered hi⟩
    · cases hs

/-- The other threads stay where they are. -/
lemma WaitStep.thread_eq (hs : WaitStep M st T a st' T') (hth : th ≠ a.thread) :
    st'.thread th = st.thread th := by
  cases hs with
  | @add a th' j pid interests ha ho ht =>
    obtain rfl : a.thread = th' := by
      cases a with
      | register => exact (Prod.mk.inj (Option.some.inj ha)).1
      | spawn _ _ fork =>
        cases fork with
        | none => cases ha
        | some => exact (Prod.mk.inj (Option.some.inj ha)).1
      | _ => cases ha
    exact Function.update_of_ne hth _ _
  | @spawnFailed th' j ho hu =>
    have hth : th ≠ th' := hth
    change Function.update (Function.update st.thread _ _) _ _ th = _
    rw [Function.update_of_ne hth, Function.update_of_ne hth]
  | reap hinv hr => rw [hr.thread]
  | _ => exact Function.update_of_ne hth _ _

/-- An interest gets a thread when it is registered, and loses it when it is unregistered. -/
lemma WaitStep.owner_eq (hs : WaitStep M st T a st' T') (i : InterestPtr) :
    st'.owner i = st.owner i ∨ (∃ th pid, a.adds = some (th, i, pid)) ∨
      (st.thread a.thread).unregistering = some i ∧ st'.owner i = none := by
  cases hs with
  | @add a th j pid interests ha ho ht =>
    by_cases hij : i = j
    · exact Or.inr (Or.inl ⟨th, pid, hij ▸ ha⟩)
    · exact Or.inl (Function.update_of_ne hij _ _)
  | @spawnFailed th j ho hu =>
    left
    by_cases hij : i = j
    · rw [hij, ho]
      exact Function.update_self ..
    · change Function.update (Function.update st.owner j _) j _ i = _
      rw [Function.update_of_ne hij, Function.update_of_ne hij]
  | reap hinv hr => rw [hr.owner]; exact Or.inl rfl
  | @unregistered th j hj =>
    by_cases hij : i = j
    · exact Or.inr (Or.inr ⟨hij ▸ hj, by simp [hij]⟩)
    · exact Or.inl (Function.update_of_ne hij _ _)
  | _ => exact Or.inl rfl

end Step

/-! ### The invariant is kept -/

namespace WaitState

variable (st : WaitState) (th th' : ThreadId) (i j : InterestPtr)

@[simp] lemma register_thread_pc : ((st.register th i).thread th').pc = (st.thread th').pc := by
  by_cases h : th' = th <;> simp [register, h]

@[simp] lemma register_thread_handled :
    ((st.register th i).thread th').handledWaitInterest =
      (st.thread th').handledWaitInterest := by
  by_cases h : th' = th <;> simp [register, h]

@[simp] lemma register_thread_unregistering :
    ((st.register th i).thread th').unregistering = (st.thread th').unregistering := by
  by_cases h : th' = th <;> simp [register, h]

@[simp] lemma unregister_thread_pc :
    ((st.unregister th i).thread th').pc = (st.thread th').pc := by
  by_cases h : th' = th <;> simp [unregister, h]

@[simp] lemma unregister_thread_unregistering :
    ((st.unregister th i).thread th').unregistering =
      if th' = th then none else (st.thread th').unregistering := by
  by_cases h : th' = th <;> simp [unregister, h]

@[simp] lemma unregister_thread_handled :
    ((st.unregister th i).thread th').handledWaitInterest =
      if th' = th ∧ (st.thread th').handledWaitInterest = some i then none
      else (st.thread th').handledWaitInterest := by
  by_cases h : th' = th <;> simp [unregister, h]

@[simp] lemma steal_thread :
    (st.steal th i).thread th' = if th' = th then
      { st.thread th with
        handledWaitInterest := some i, pc := .loop i (st.eventsPending i) }
      else st.thread th' := by
  by_cases h : th' = th <;> simp [steal, h]

@[simp] lemma setPc_thread (pc : WaitPc) : (st.setPc th pc).thread th' =
    if th' = th then { st.thread th with pc := pc } else st.thread th' := by
  by_cases h : th' = th <;> simp [setPc, h]

@[simp] lemma finish_thread : (st.finish th).thread th' =
    if th' = th then { st.thread th with handledWaitInterest := none, pc := .outside }
    else st.thread th' := by
  by_cases h : th' = th <;> simp [finish, h]

@[simp] lemma setUnregistering_thread : (st.setUnregistering th i).thread th' =
    if th' = th then { st.thread th with unregistering := some i } else st.thread th' := by
  by_cases h : th' = th <;> simp [setUnregistering, h]

end WaitState

/-- A thread is in `iv_wait_interest_unregister` after it has called it. -/
lemma WaitStep.unregistering_eq {M : StatusMacros} {st st' : WaitState} {T T' : Finset InterestPtr}
    {a : WaitLabel} (hs : WaitStep M st T a st' T') (th : ThreadId) :
    (st'.thread th).unregistering = (st.thread th).unregistering ∨
      (st'.thread th).unregistering = none ∨
      ∃ i, a = .unregister th i ∧ (st'.thread th).unregistering = some i := by
  by_cases hth : th = a.thread
  · cases hs with
    | reap hinv hr => exact Or.inl (by rw [hr.thread])
    | spawnFailed | unregistered => simp [hth, WaitLabel.thread]
    | @unregister th' j interests hu ho ht =>
      obtain rfl : th = th' := hth
      exact Or.inr (Or.inr ⟨j, rfl, by simp⟩)
    | _ => simp [hth, WaitLabel.thread]
  · exact Or.inl (by rw [hs.thread_eq hth])

namespace WaitInv

variable {M : StatusMacros} {st st' : WaitState} {T T' : Finset InterestPtr} {a : WaitLabel}
  {th : ThreadId} {i : InterestPtr}

/-- Nobody is doing anything with an interest that is not registered. -/
lemma handled_ne (h : WaitInv st T) (ho : st.owner i = none) (th : ThreadId) :
    (st.thread th).handledWaitInterest ≠ some i := by
  intro hh
  have := (h.handled th i hh).1
  rw [ho] at this
  cases this

lemma unregistering_ne (h : WaitInv st T) (ho : st.owner i = none) (th : ThreadId) :
    (st.thread th).unregistering ≠ some i := by
  intro hu
  have := (h.unregistering th i hu).1
  rw [ho] at this
  cases this

/-! Who is registered after a step. -/

lemma registered_add (h : WaitInv st T) {pid : ℤ} {interests : AvlState} (ho : st.owner i = none)
    (j : InterestPtr) :
    (((st.setPid i pid).register th i).setInterests interests).Registered j ↔
      j = i ∨ st.Registered j := by
  by_cases hj : j = i
  · subst hj
    simp [WaitState.Registered, h.unregistering_ne ho]
  · simp [WaitState.Registered, hj]

lemma registered_remove (h : WaitInv st T) (hi : (st.thread th).unregistering = some i)
    {addrs : List ℕ} (j : InterestPtr) :
    ((st.addFreed addrs).unregister th i).Registered j ↔ st.Registered j := by
  by_cases hj : j = i
  · subst hj
    refine iff_of_false ?_ ?_
    · rintro ⟨th', ho, -⟩
      simp at ho
    · rintro ⟨th', ho, hne⟩
      rw [(h.unregistering th j hi).1, Option.some.injEq] at ho
      exact hne (ho ▸ hi)
  · simp only [WaitState.Registered, WaitState.unregister_owner, Function.update_of_ne hj,
      WaitState.unregister_thread_unregistering, WaitState.addFreed_owner,
      WaitState.addFreed_thread]
    refine exists_congr fun th' => and_congr_right fun _ => ?_
    split_ifs with hth
    · subst hth
      simp [hi, Ne.symm hj]
    · rfl

lemma registered_setPc {pc : WaitPc} {addrs : List ℕ} (j : InterestPtr) :
    ((st.addFreed addrs).setPc th pc).Registered j ↔ st.Registered j := by
  refine WaitState.registered_congr ?_ (fun th' => ?_) j
  · rfl
  · by_cases hth : th' = th <;> simp [hth]

lemma registered_steal (j : InterestPtr) : (st.steal th i).Registered j ↔ st.Registered j := by
  refine WaitState.registered_congr ?_ (fun th' => ?_) j
  · rfl
  · by_cases hth : th' = th <;> simp [hth]

lemma registered_finish (j : InterestPtr) : (st.finish th).Registered j ↔ st.Registered j := by
  refine WaitState.registered_congr ?_ (fun th' => ?_) j
  · rfl
  · by_cases hth : th' = th <;> simp [hth]

lemma registered_unregister {interests : AvlState} (hu : (st.thread th).unregistering = none)
    (ho : st.owner i = some th) (j : InterestPtr) :
    ((st.setInterests interests).setUnregistering th i).Registered j ↔
      j ≠ i ∧ st.Registered j := by
  by_cases hj : j = i
  · subst hj
    refine iff_of_false ?_ fun hj => hj.1 rfl
    rintro ⟨th', ho', hne⟩
    obtain rfl : th = th' := Option.some.inj (ho.symm.trans ho')
    simp at hne
  · rw [and_iff_right hj]
    refine exists_congr fun th' => and_congr_right fun _ => ?_
    by_cases hth : th' = th
    · simp [hth, hu, Ne.symm hj]
    · simp [hth]

/-! Each step on its own. -/

lemma add (h : WaitInv st T) {pid : ℤ} {interests : AvlState} (ho : st.owner i = none)
    (ht : InterestTree (Function.update st.pid i pid) interests (insert i T)) :
    WaitInv (((st.setPid i pid).register th i).setInterests interests) (insert i T) where
  tree := ht
  mem j := by
    rw [Finset.mem_insert, h.mem, h.registered_add ho]
    by_cases hj : j = i
    · simp [hj]
    · simp [hj]
  handled th' j hj := by
    simp only [WaitState.setInterests_thread, WaitState.register_thread_handled,
      WaitState.setPid_thread] at hj
    have hji : j ≠ i := fun he => h.handled_ne ho th' (he ▸ hj)
    simpa [hji] using h.handled th' j hj
  unregistering th' j hj := by
    simp only [WaitState.setInterests_thread, WaitState.register_thread_unregistering,
      WaitState.setPid_thread] at hj
    have hji : j ≠ i := fun he => h.unregistering_ne ho th' (he ▸ hj)
    simpa [hji] using h.unregistering th' j hj
  idle j hj := by
    by_cases hji : j = i
    · simp [hji]
    · simpa [hji] using h.idle j (by simpa [hji] using hj)
  woken j hj := by
    by_cases hji : j = i
    · simp [hji] at hj
    · simpa [hji] using h.woken j (by simpa [hji] using hj)
  placed := by
    refine h.placed.congr fun p => ?_
    cases p with
    | queue j =>
      by_cases hji : j = i
      · simp [WaitState.holds, hji, h.idle i ho]
      · simp [WaitState.holds, hji]
    | thread th' => simp [WaitState.holds]
    | freed => rfl

/-- The end of `iv_wait_interest_unregister`, for an interest that is no longer in the tree. -/
lemma remove (h : WaitInv st T) (hi : (st.thread th).unregistering = some i) :
    WaitInv ((st.addFreed ((st.eventsPending i).map WaitEvent.addr)).unregister th i) T where
  tree := h.tree
  mem j := by
    rw [h.mem, h.registered_remove hi]
    rfl
  handled th' j hj := by
    rw [WaitState.unregister_thread_handled] at hj
    split_ifs at hj with hth
    have hh := h.handled th' j hj
    have hji : j ≠ i := by
      rintro rfl
      have hu := (h.unregistering th j hi).1
      rw [hh.1, Option.some.injEq] at hu
      exact hth ⟨hu, hj⟩
    simpa [hji] using hh
  unregistering th' j hj := by
    rw [WaitState.unregister_thread_unregistering] at hj
    split_ifs at hj with hth
    have hu := h.unregistering th' j hj
    have hji : j ≠ i := by
      rintro rfl
      have hu' := (h.unregistering th j hi).1
      rw [hu.1, Option.some.injEq] at hu'
      exact hth hu'
    simpa [hji] using hu
  idle j hj := by
    by_cases hji : j = i
    · simp [hji]
    · simpa [hji] using h.idle j (by simpa [hji] using hj)
  woken j hj := by
    by_cases hji : j = i
    · simp [hji] at hj
    · simpa [hji] using h.woken j (by simpa [hji] using hj)
  placed := by
    refine h.placed.move (a := .queue i) (b := .freed) (by simp) ?_ fun p hq hf => ?_
    · simp only [WaitState.holds, WaitState.unregister_eventsPending, Function.update_self,
        List.map_nil, List.nil_append, WaitState.unregister_freed, WaitState.addFreed_freed]
      exact List.perm_append_comm
    · cases p with
      | queue j =>
        have hji : j ≠ i := fun he => hq (he ▸ rfl)
        simp [WaitState.holds, hji]
      | thread th' => simp [WaitState.holds]
      | freed => exact absurd rfl hf

/-- The interest is registered and at once unregistered again, which changes nothing. -/
lemma spawnFailed_owner (th : ThreadId) (ho : st.owner i = none) :
    ((st.register th i).unregister th i).owner = st.owner := by
  funext j
  by_cases hj : j = i
  · simp [hj, ho]
  · simp [hj]

lemma spawnFailed_eventsPending (h : WaitInv st T) (th : ThreadId) (ho : st.owner i = none) :
    ((st.register th i).unregister th i).eventsPending = st.eventsPending := by
  funext j
  by_cases hj : j = i
  · simp [hj, h.idle i ho]
  · simp [hj]

lemma spawnFailed_thread (h : WaitInv st T) (ho : st.owner i = none)
    (hu : (st.thread th).unregistering = none) (th' : ThreadId) :
    (((st.register th i).unregister th i).thread th').unregistering =
        (st.thread th').unregistering ∧
      (((st.register th i).unregister th i).thread th').handledWaitInterest =
        (st.thread th').handledWaitInterest ∧
      (((st.register th i).unregister th i).thread th').pc = (st.thread th').pc := by
  by_cases hth : th' = th
  · simp [hth, hu, h.handled_ne ho th]
  · simp [hth]

lemma registered_spawnFailed (h : WaitInv st T) (ho : st.owner i = none)
    (hu : (st.thread th).unregistering = none) (j : InterestPtr) :
    ((st.register th i).unregister th i).Registered j ↔ st.Registered j :=
  WaitState.registered_congr (spawnFailed_owner th ho)
    (fun th' => (h.spawnFailed_thread ho hu th').1) j

lemma spawnFailed (h : WaitInv st T) (ho : st.owner i = none)
    (hu : (st.thread th).unregistering = none) :
    WaitInv ((st.register th i).unregister th i) T := by
  have howner := spawnFailed_owner th ho
  have hpending := h.spawnFailed_eventsPending th ho
  refine ⟨h.tree, fun j => ?_, fun th' j hj => ?_, fun th' j hj => ?_, fun j hj => ?_,
    fun j hj => ?_, ?_⟩
  · rw [h.mem j, h.registered_spawnFailed ho hu]
    refine and_congr_right fun hreg => ?_
    have hji : j ≠ i := by
      rintro rfl
      obtain ⟨th', ho', -⟩ := hreg
      rw [ho] at ho'
      cases ho'
    simp [hji]
  · obtain ⟨-, hhandled, hpc⟩ := h.spawnFailed_thread ho hu th'
    rw [hhandled] at hj
    rw [howner, hpc]
    exact h.handled th' j hj
  · obtain ⟨hunreg, -, hpc⟩ := h.spawnFailed_thread ho hu th'
    rw [hunreg] at hj
    rw [howner, hpc]
    exact h.unregistering th' j hj
  · rw [hpending]
    exact h.idle j (howner ▸ hj)
  · rw [hpending] at hj
    have hji : j ≠ i := by
      rintro rfl
      exact hj (h.idle j ho)
    simpa [hji] using h.woken j hj
  · refine h.placed.congr fun p => ?_
    cases p with
    | queue j => rw [WaitState.holds, WaitState.holds, hpending]
    | thread th' => rw [WaitState.holds, WaitState.holds, (h.spawnFailed_thread ho hu th').2.2]
    | freed => rfl

/-- A thread goes on in `iv_wait_completion`. What it frees on the way is `addrs`. -/
lemma setPc (h : WaitInv st T) {pc : WaitPc} {addrs : List ℕ}
    (hthis : pc.this = (st.thread th).pc.this)
    (hloop : (st.thread th).unregistering = none ∨ ¬ pc.isLoop)
    (hevents : (st.thread th).pc.events.map WaitEvent.addr =
      addrs ++ pc.events.map WaitEvent.addr) :
    WaitInv ((st.addFreed addrs).setPc th pc) T where
  tree := h.tree
  mem j := by
    rw [h.mem, registered_setPc]
    rfl
  handled th' j hj := by
    by_cases hth : th' = th
    · subst hth
      simpa [hthis] using h.handled th' j (by simpa using hj)
    · simpa [hth] using h.handled th' j (by simpa [hth] using hj)
  unregistering th' j hj := by
    by_cases hth : th' = th
    · subst hth
      have hu : (st.thread th').unregistering = some j := by simpa using hj
      rw [hu] at hloop
      simpa [hloop.resolve_left (by simp)] using (h.unregistering th' j hu).1
    · simpa [hth] using h.unregistering th' j (by simpa [hth] using hj)
  idle := h.idle
  woken := h.woken
  placed := by
    refine h.placed.move (a := .thread th) (b := .freed) (by simp) ?_ fun p ht hf => ?_
    · simp only [WaitState.holds, WaitState.setPc_thread, if_true, hevents,
        WaitState.setPc_freed, WaitState.addFreed_freed]
      rw [← List.append_assoc, List.append_assoc addrs]
      exact List.perm_append_comm.trans (by simp)
    · cases p with
      | queue j => rfl
      | thread th' =>
        have hth : th' ≠ th := fun he => ht (he ▸ rfl)
        simp [WaitState.holds, hth]
      | freed => exact absurd rfl hf

lemma steal (h : WaitInv st T) (hl : (st.thread th).inLoop) (ho : st.owner i = some th) :
    WaitInv (st.steal th i) T := by
  obtain ⟨hu, hpc⟩ := WaitThread.pc_of_inLoop hl
  refine ⟨h.tree, fun j => ?_, fun th' j hj => ?_, fun th' j hj => ?_, fun j hj => ?_,
    fun j hj => ?_, ?_⟩
  · rw [h.mem, registered_steal]
    rfl
  · by_cases hth : th' = th
    · subst hth
      obtain rfl : i = j := by simpa using hj
      simp [ho, WaitPc.this]
    · simpa [hth] using h.handled th' j (by simpa [hth] using hj)
  · by_cases hth : th' = th
    · subst hth
      simp [hu] at hj
    · simpa [hth] using h.unregistering th' j (by simpa [hth] using hj)
  · have hji : j ≠ i := by
      rintro rfl
      rw [WaitState.steal_owner, ho] at hj
      cases hj
    simpa [hji] using h.idle j hj
  · have hji : j ≠ i := by
      rintro rfl
      simp at hj
    simpa [hji] using h.woken j (by simpa [hji] using hj)
  · refine h.placed.move (a := .queue i) (b := .thread th) (by simp) ?_ fun p hq ht => ?_
    · simp [WaitState.holds, hpc, WaitPc.events]
    · cases p with
      | queue j =>
        have hji : j ≠ i := fun he => hq (he ▸ rfl)
        simp [WaitState.holds, hji]
      | thread th' =>
        have hth : th' ≠ th := fun he => ht (he ▸ rfl)
        simp [WaitState.holds, hth]
      | freed => rfl

lemma finish (h : WaitInv st T) (hpc : (st.thread th).pc = .loop i []) :
    WaitInv (st.finish th) T := by
  refine ⟨h.tree, fun j => ?_, fun th' j hj => ?_, fun th' j hj => ?_, h.idle, h.woken, ?_⟩
  · rw [h.mem, registered_finish]
    rfl
  · by_cases hth : th' = th
    · simp [hth] at hj
    · simpa [hth] using h.handled th' j (by simpa [hth] using hj)
  · by_cases hth : th' = th
    · subst hth
      have hu := h.unregistering th' j (by simpa using hj)
      simp [hpc, WaitPc.isLoop] at hu
    · simpa [hth] using h.unregistering th' j (by simpa [hth] using hj)
  · refine h.placed.congr fun p => ?_
    cases p with
    | queue j => rfl
    | thread th' =>
      by_cases hth : th' = th
      · simp [WaitState.holds, hth, hpc, WaitPc.events]
      · simp [WaitState.holds, hth]
    | freed => rfl

lemma unregister (h : WaitInv st T) {interests : AvlState} (hu : (st.thread th).inUserCode)
    (ho : st.owner i = some th) (ht : InterestTree st.pid interests (T.erase i)) :
    WaitInv ((st.setInterests interests).setUnregistering th i) (T.erase i) := by
  obtain ⟨hnone, hloop⟩ := WaitThread.unregistering_of_inUserCode hu
  refine ⟨ht, fun j => ?_, fun th' j hj => ?_, fun th' j hj => ?_, h.idle, h.woken, ?_⟩
  · rw [Finset.mem_erase, h.mem j, registered_unregister hnone ho, and_assoc]
    rfl
  · by_cases hth : th' = th
    · subst hth
      simpa using h.handled th' j (by simpa using hj)
    · simpa [hth] using h.handled th' j (by simpa [hth] using hj)
  · by_cases hth : th' = th
    · subst hth
      obtain rfl : i = j := by simpa using hj
      simpa [hloop] using ho
    · simpa [hth] using h.unregistering th' j (by simpa [hth] using hj)
  · refine h.placed.congr fun p => ?_
    cases p with
    | queue j => rfl
    | thread th' =>
      by_cases hth : th' = th
      · simp [WaitState.holds, hth]
      · simp [WaitState.holds, hth]
    | freed => rfl

lemma addFreed_nil (st : WaitState) : st.addFreed [] = st := by
  simp [WaitState.addFreed]

/-- Every step keeps the invariant. -/
theorem step (h : WaitInv st T) (hs : WaitStep M st T a st' T') : WaitInv st' T' := by
  cases hs with
  | add ha ho ht => exact h.add ho ht
  | spawnFailed ho hu => exact h.spawnFailed ho hu
  | reap hinv hr => exact hinv
  | steal hl ho => exact h.steal hl ho
  | call hpc hh =>
    rw [← addFreed_nil st]
    exact h.setPc (by simp [hpc, WaitPc.this]) (Or.inr (by simp [WaitPc.isLoop]))
      (by simp [hpc, WaitPc.events])
  | @skip th i we events hpc hh =>
    have hu : (st.thread th).unregistering = none := by
      by_contra hne
      obtain ⟨j, hj⟩ := Option.ne_none_iff_exists'.mp hne
      have := (h.unregistering th j hj).2
      simp [hpc, WaitPc.isLoop] at this
    exact h.setPc (by simp [hpc, WaitPc.this]) (Or.inl hu) (by simp [hpc, WaitPc.events])
  | ret hpc hu =>
    exact h.setPc (by simp [hpc, WaitPc.this]) (Or.inl hu) (by simp [hpc, WaitPc.events])
  | finish hpc => exact h.finish hpc
  | unregister hu ho ht => exact h.unregister hu ho ht
  | unregistered hi => exact h.remove hi

end WaitInv

/-! ### Runs -/

/-- An interest is registered only for a pid that has none in the tree. -/
def FreshPid (st : WaitState) (a : WaitLabel) : Prop :=
  ∀ x ∈ a.adds, ivWaitInterestFind st x.2.2 = .ok none

instance (st : WaitState) (a : WaitLabel) : Decidable (FreshPid st a) := by
  unfold FreshPid
  cases a.adds with
  | none => exact .isTrue (by simp)
  | some x => exact decidable_of_iff (ivWaitInterestFind st x.2.2 = .ok none) (by simp)

lemma WaitInv.pid_ne_of_freshPid {st : WaitState} {T : Finset InterestPtr} (h : WaitInv st T)
    {a : WaitLabel} (hf : FreshPid st a) (th : ThreadId) (i : InterestPtr) (pid : ℤ)
    (ha : a.adds = some (th, i, pid)) : ∀ j ∈ T, st.pid j ≠ pid := by
  rintro j hj rfl
  have hfind := hf _ ha
  rw [h.tree.find_of_mem hj] at hfind
  cases hfind

variable {M : StatusMacros} {nodes : AvlState} {pid : InterestPtr → ℤ} {tr : List WaitLabel}
  {st : WaitState}

theorem waitInv_of_run (h : ((waitLts M nodes pid).restrict FreshPid).Run tr st) :
    ∃ T, WaitInv st T := by
  refine h.induct (P := fun _ st => ∃ T, WaitInv st T) ⟨∅, waitInv_init nodes pid⟩ ?_
  rintro tr st a st' - ⟨T, hinv⟩ hs
  obtain ⟨hf, hs⟩ := Kit.Lts.restrict_step.mp hs
  obtain ⟨T', hstep⟩ := WaitStep.of_step hinv (hinv.pid_ne_of_freshPid hf) hs
  exact ⟨T', hinv.step hstep⟩

/-- In every state, `iv_wait_got_sigchld` takes out of the tree, and flags, exactly the interests
in children that are reported dead, if and only if each child reported dead has one. -/
theorem reap_of_run (h : ((waitLts M nodes pid).restrict FreshPid).Run tr st) :
    ∃ T t, AvlOk (pidOrder st.pid) st.interests T t ∧
      (∀ i, i ∈ T ↔ st.Registered i ∧ ¬ st.dead i) ∧
      ∀ results, DeadMatched M st.pid T results ↔
        ∃ st' T' t', ivWaitGotSigchld M st results = .ok st' ∧
          AvlOk (pidOrder st'.pid) st'.interests T' t' ∧
          (∀ i, i ∈ T' ↔ i ∈ T ∧ ¬ DiedIn M results (st.pid i)) ∧
          (∀ i, st'.dead i ↔ st.dead i ∨ (i ∈ T ∧ DiedIn M results (st.pid i))) ∧
          st'.pid = st.pid ∧ st'.owner = st.owner ∧
          ∀ i, (∀ r ∈ results, r.pid ≠ st.pid i) →
            st'.eventsPending i = st.eventsPending i ∧ st'.posted i = st.posted i := by
  obtain ⟨T, hinv⟩ := waitInv_of_run h
  obtain ⟨t, ht⟩ := hinv.tree
  refine ⟨T, t, ht.avlOk, hinv.mem, fun results => ⟨fun hm => ?_, ?_⟩⟩
  · obtain ⟨st', heq⟩ := hinv.reap_ok_iff.mpr hm
    obtain ⟨T', hinv', hr⟩ := hinv.of_reap heq
    obtain ⟨t', ht'⟩ := hinv'.tree
    exact ⟨st', T', t', heq, ht'.avlOk, hr.mem, hr.dead, hr.pid, hr.owner, hr.other⟩
  · rintro ⟨st', -, -, heq, -⟩
    exact hinv.reap_ok_iff.mp ⟨st', heq⟩

/-- The macros of Linux. -/
def linuxMacros : StatusMacros where
  wifexited status    := status % 128 = 0
  wifsignaled status  := 0 < status % 128 ∧ status % 128 < 127
  wifcontinued status := status = 0xffff

/-- A child that nobody is interested in exits. -/
theorem reap_null_interest :
    ∃ st, ((waitLts linuxMacros emptyNodes fun _ => 0).restrict FreshPid).Run
        [.register 0 1 7] st ∧
      (st.thread 0).inLoop ∧ 0 < (st.thread 0).waitCount ∧
      ivWaitGotSigchld linuxMacros st [⟨42, 0, 0⟩] = .error .invalidAccess := by
  refine Kit.Lts.exists_run_of_decide (fun st => (st.thread 0).inLoop = true ∧
    0 < (st.thread 0).waitCount ∧ faultOf (ivWaitGotSigchld linuxMacros st [⟨42, 0, 0⟩]) =
      some .invalidAccess) (by decide) fun st _ ⟨hloop, hcount, herr⟩ => ?_
  exact ⟨hloop, hcount, faultOf_eq_some.mp herr⟩

/-- Of two children that somebody is interested in, one stops and then exits; a third child, which
nobody is interested in, stops. -/
def threeResults : List WaitResult :=
  [⟨7, 0x137f, 0⟩, ⟨42, 0x137f, 0⟩, ⟨7, 0, 0⟩]

theorem reap_of_run_two :
    ∃ st T st' T' t', ((waitLts linuxMacros emptyNodes fun _ => 0).restrict FreshPid).Run
        [.register 0 1 7, .register 1 2 9] st ∧
      DeadMatched linuxMacros st.pid T threeResults ∧
      ivWaitGotSigchld linuxMacros st threeResults = .ok st' ∧
      AvlOk (pidOrder st'.pid) st'.interests T' t' ∧ 1 ∈ T ∧ 1 ∉ T' ∧ st'.dead 1 := by
  simp only [exists_and_left]
  refine Kit.Lts.exists_run_of_decide (fun st => st.pid 1 = 7 ∧ st.owner 1 = some 0 ∧
    (st.thread 0).unregistering = none ∧ st.dead 1 = false) (by decide)
    fun st hst ⟨hpid, ho, hu, hd⟩ => ?_
  obtain ⟨T, t, -, hmem, hreap⟩ := reap_of_run hst
  have h₁ : 1 ∈ T := (hmem 1).mpr ⟨⟨0, ho, by rw [hu]; simp⟩, by rw [hd]; simp⟩
  have hdied : DiedIn linuxMacros threeResults (st.pid 1) := by
    rw [hpid]
    exact ⟨⟨7, 0, 0⟩, by decide, by decide, rfl⟩
  have hm : DeadMatched linuxMacros st.pid T threeResults := by
    refine ⟨fun r hr hdead => ⟨1, h₁, ?_⟩, by decide⟩
    have hall : ∀ r ∈ threeResults, r.isDead linuxMacros → r.pid = 7 := by decide
    rw [hpid, hall r hr hdead]
  obtain ⟨st', T', t', heq, ht', hmem', hdead, -⟩ := (hreap _).mp hm
  refine ⟨T, hm, st', heq, T', t', ht', h₁, fun h => ?_, ?_⟩
  · exact ((hmem' 1).mp h).2 hdied
  · exact (hdead 1).mpr (Or.inr ⟨h₁, hdied⟩)

end Ivykis
