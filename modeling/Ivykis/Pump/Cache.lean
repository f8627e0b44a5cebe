import Ivykis.Pump.Properties

/-!
# The cache of buffers

The cache is there from the time that `splice_available` is determined, by this thread or by another
one, until the thread is deinitialised. Which buffers exist is known at any time: each of them
belongs to one pump or is in the cache, and `buf_purge` frees the latter.
-/

namespace Ivykis

namespace CacheInv

variable {splice : Bool} {ti ti' : PumpThread} {bufs : PumpPtr → Option PumpBuf}

/-! ### `buf_purge` -/

/-- One turn of the loop of `buf_purge`: the first buffer of the cache is freed. -/
lemma purgeOne (h : CacheInv splice ti bufs) {b : PumpBuf} (hdeq : bufDequeue ti = some (b, ti')) :
    ∃ ti'', Ivykis.bufFree ti' b = .ok ti'' ∧ CacheInv splice ti'' bufs ∧
      ti''.mallocs = ti.mallocs ∧ ti.bufs.length = ti''.bufs.length + 1 := by
  obtain ⟨rest, hb, rfl⟩ := bufDequeue_eq_some hdeq
  have hmem : b.addr ∈ ti.holds bufs .cache := by simp [PumpThread.holds, hb]
  have hlt : b.addr < ti.mallocs := (h.placed.issued _).mpr ⟨_, hmem⟩
  have hnot : b.addr ∉ ti.freed := fun hf => by
    have := h.placed.unique _ .freed _ hmem hf
    cases this
  have hnum := h.numBufs
  have hbound := h.bound
  rw [hb, List.length_cons] at hnum
  refine ⟨_, if_pos ⟨hlt, hnot⟩, ⟨?_, fun hs c hc => ?_, ?_, ?_⟩, rfl, by simp [hb]⟩
  · refine h.placed.move (a := .cache) (b := .freed) (by simp) ?_ fun p hp hf => ?_
    · simp only [PumpThread.holds, hb, List.map_cons]
      rw [← List.append_assoc]
      exact List.perm_append_singleton _ _
    · cases p with
      | pump i => rfl
      | cache => exact absurd rfl hp
      | freed => exact absurd rfl hf
  · exact h.empty hs c (hb ▸ List.mem_cons_of_mem _ hc)
  · dsimp only
    omega
  · dsimp only
    omega

lemma purgeLoop {n : ℕ} (h : CacheInv splice ti bufs) (hn : ti.bufs.length < n) :
    ∃ ti', bufPurgeLoop n ti = .ok ti' ∧ CacheInv splice ti' bufs ∧ ti'.bufs = [] ∧
      ti'.mallocs = ti.mallocs := by
  induction n generalizing ti with
  | zero => omega
  | succ n ih =>
    rw [bufPurgeLoop]
    split
    · rename_i hdeq
      refine ⟨ti, rfl, h, ?_, rfl⟩
      rw [bufDequeue] at hdeq
      split at hdeq
      · cases hdeq
      · assumption
    · rename_i b ti₁ hdeq
      obtain ⟨ti₂, hfree, h₂, hmallocs, hlen⟩ := h.purgeOne hdeq
      obtain ⟨ti', hloop, h', hnil, hmallocs'⟩ := ih h₂ (by omega)
      rw [hfree, ok_bind]
      exact ⟨ti', hloop, h', hnil, hmallocs'.trans hmallocs⟩

/-- `iv_fd_pump_tls_deinit_thread` frees what is in the cache, and nothing else. -/
lemma tlsDeinit (h : CacheInv splice ti bufs) :
    ∃ ti', ivFdPumpTlsDeinitThread ti = .ok ti' ∧ ti'.bufs = [] ∧ ti'.numBufs = 0 ∧
      (∀ b ∈ ti.bufs, b.addr ∈ ti'.freed) ∧
      ∀ i b, bufs i = some b → b.addr < ti'.mallocs ∧ b.addr ∉ ti'.freed := by
  obtain ⟨ti', heq, h', hnil, hmallocs⟩ := h.purgeLoop (Nat.lt_succ_self _)
  refine ⟨ti', heq, hnil, by rw [h'.numBufs, hnil]; rfl, fun b hb => ?_, fun i b hi => ?_⟩
  · have hmem : b.addr ∈ ti.holds bufs .cache := List.mem_map_of_mem hb
    have hlt : b.addr < ti'.mallocs := hmallocs ▸ (h.placed.issued _).mpr ⟨_, hmem⟩
    obtain ⟨p, hp⟩ := (h'.placed.issued _).mp hlt
    cases p with
    | pump i =>
      have := h.placed.unique _ (.pump i) _ hmem hp
      cases this
    | cache => simp [PumpThread.holds, hnil] at hp
    | freed => exact hp
  · have hmem : b.addr ∈ ti'.holds bufs (.pump i) := by simp [PumpThread.holds, hi]
    refine ⟨(h'.placed.issued _).mpr ⟨_, hmem⟩, fun hf => ?_⟩
    have := h'.placed.unique _ .freed _ hmem hf
    cases this

/-! ### `check_splice_available` -/

/-- Without `splice` nothing is said about pipes. -/
lemma of_splice (h : CacheInv true ti bufs) : CacheInv splice ti bufs :=
  ⟨h.placed, fun _ => h.empty rfl, h.numBufs, h.bound⟩

/-- What `check_splice_available` leaves behind. Until then its two buffers are in local variables,
which are here those of two pumps. -/
lemma checkSplice {alloc₀ alloc₁ eagain : Bool} (h : CacheInv true ti fun _ => none) :
    ∃ splice ti', checkSpliceAvailable ti alloc₀ alloc₁ eagain = .ok (splice, ti') ∧
      CacheInv splice ti' fun _ => none := by
  have hout : ∀ {ti : PumpThread} {bufs : PumpPtr → Option PumpBuf}, CacheInv true ti bufs →
      (∀ i, bufs i = none) → CacheInv true ti fun _ => none :=
    fun hc hnone => hc.congr fun i => by rw [hnone]
  rw [checkSpliceAvailable]
  split
  · rename_i ti₁ hb₀
    rw [bufAlloc_none hb₀]
    exact ⟨false, ti, rfl, h.of_splice⟩
  · rename_i b₀ ti₁ hb₀
    obtain ⟨h₁, hpipe₀⟩ := h.bufAlloc (i := 0) rfl hb₀
    split
    · rename_i ti₂ hb₁
      rw [bufAlloc_none hb₁]
      obtain ⟨ti₃, hfree, h₃⟩ := h₁.bufFree (i := 0) (Function.update_self ..)
      rw [hfree, ok_bind]
      exact ⟨false, ti₃, rfl, (hout h₃ fun i => by simp [Function.update_apply]).of_splice⟩
    · rename_i b₁ ti₂ hb₁
      obtain ⟨h₂, hpipe₁⟩ := h₁.bufAlloc (i := 1) (by simp) hb₁
      split_ifs
      · obtain ⟨ti₃, hput₁, h₃⟩ := h₂.bufPut (i := 1) (Function.update_self ..)
          fun hs (_ : 0 = 0) => hpipe₁ hs
        obtain ⟨ti₄, hput₀, h₄⟩ := h₃.bufPut (i := 0) (b := b₀) (by simp)
          fun hs (_ : 0 = 0) => hpipe₀ hs
        rw [hput₁, ok_bind, hput₀, ok_bind]
        exact ⟨true, ti₄, rfl, hout h₄ fun i => by simp +contextual [Function.update_apply]⟩
      · obtain ⟨ti₃, hfree₀, h₃⟩ := h₂.bufFree (i := 0) (b := b₀) (by simp)
        obtain ⟨ti₄, hfree₁, h₄⟩ := h₃.bufFree (i := 1) (b := b₁) (by simp)
        rw [hfree₀, ok_bind, hfree₁, ok_bind]
        have h' := hout h₄ fun i => by simp +contextual [Function.update_apply]
        exact ⟨false, ti₄, rfl, h'.of_splice⟩

end CacheInv

/-! ### Runs -/

/-- A thread in which `splice_available` has just been determined: by this thread, or by another one
before this one was initialised. -/
inductive PumpStart (junk : ℕ → ℕ → UInt8) : Bool → PumpThread → Prop
  | decided (splice : Bool) : PumpStart junk splice (ivFdPumpTlsInitThread junk)
  | checked {alloc₀ alloc₁ eagain splice : Bool} {ti : PumpThread}
      (h : checkSpliceAvailable (ivFdPumpTlsInitThread junk) alloc₀ alloc₁ eagain =
        .ok (splice, ti)) : PumpStart junk splice ti

lemma PumpStart.cacheInv {junk : ℕ → ℕ → UInt8} {splice : Bool} {ti : PumpThread}
    (h : PumpStart junk splice ti) : CacheInv splice ti fun _ => none := by
  cases h with
  | decided => exact cacheInv_tlsInit splice junk
  | checked h =>
    obtain ⟨splice', ti', heq, hinv⟩ := (cacheInv_tlsInit true junk).checkSplice
    obtain ⟨rfl, rfl⟩ := Prod.mk.inj (Except.ok.inj (heq.symm.trans h))
    exact hinv

/-- A buffer that has been allocated and not been freed. -/
def PumpThread.Allocated (ti : PumpThread) (addr : ℕ) : Prop :=
  addr < ti.mallocs ∧ addr ∉ ti.freed

/-- How often a pump, or the cache, has a buffer. -/
def PumpSystem.owned (s : PumpSystem) (p : PumpPlace) (addr : ℕ) : ℕ :=
  (s.ti.holds (fun i => (s.pump i).buf) p).count addr

/-- What holds of the cache, and of the buffers of a thread. -/
structure CacheOk (splice : Bool) (s : PumpSystem) : Prop where
  numBufs : s.ti.numBufs = s.ti.bufs.length
  bound   : s.ti.numBufs ≤ maxCachedBufs
  /-- A buffer that exists has one owner, and is there once. -/
  owner   : ∀ addr, s.ti.Allocated addr → ∃ p, p ≠ .freed ∧ s.owned p addr = 1 ∧
    ∀ q, q ≠ p → s.owned q addr = 0
  /-- Pumps and the cache only have buffers that exist. -/
  allocated : ∀ p addr, p ≠ .freed → s.owned p addr ≠ 0 → s.ti.Allocated addr
  empty   : splice = true → ∀ b ∈ s.ti.bufs, b.pipe = []
  /-- What a pump has written is the beginning of what it has itself read. -/
  copied  : ∀ i, s.phase i ≠ .unused → putBytes (s.pump i).log <+: gotBytes (s.pump i).log

lemma PumpSystemInv.cacheOk {splice : Bool} {s : PumpSystem} (h : PumpSystemInv splice s) :
    CacheOk splice s where
  numBufs := h.cache.numBufs
  bound := h.cache.bound
  owner addr haddr := by
    obtain ⟨p, hp⟩ := (h.cache.placed.issued addr).mp haddr.1
    refine ⟨p, ?_, ?_, fun q hq => ?_⟩
    · rintro rfl
      exact haddr.2 hp
    · exact List.count_eq_one_of_mem (h.cache.placed.nodup p) hp
    · exact List.count_eq_zero.mpr fun hmem => hq (h.cache.placed.unique q p addr hmem hp)
  allocated p addr hp hne := by
    have hmem := List.count_pos_iff.mp (Nat.pos_of_ne_zero hne)
    refine ⟨(h.cache.placed.issued addr).mpr ⟨p, hmem⟩, fun hf => ?_⟩
    exact hp (h.cache.placed.unique p .freed addr hmem hf)
  empty := h.cache.empty
  copied i hi := (h.stream i hi).copied

variable {splice : Bool} {junk : ℕ → ℕ → UInt8} {ti : PumpThread} {tr : List PumpLabel}
  {s : PumpSystem}

/-- In every run of any number of pumps the cache is what its fields say it is, every buffer has one
owner, and pipes in the cache are empty, so that pumps only write what they have read. No call fails
to return because of a buffer, and `iv_fd_pump_tls_deinit_thread` frees the buffers in the cache,
and only these. -/
theorem pumpCache_of_run (hti : PumpStart junk splice ti) (h : (pumpLtsFrom splice ti).Run tr s) :
    CacheOk splice s ∧
    (∀ i, s.phase i = .live → ∀ ans : PumpAnswers, ans.Complete →
      ∃ x, ivFdPumpPump splice s.ti (s.pump i) ans = .ok x) ∧
    (∀ i, s.phase i ≠ .unused → ∃ x, ivFdPumpDestroy splice s.ti (s.pump i) = .ok x) ∧
    ∃ ti', ivFdPumpTlsDeinitThread s.ti = .ok ti' ∧ ti'.bufs = [] ∧ ti'.numBufs = 0 ∧
      (∀ b ∈ s.ti.bufs, b.addr ∈ ti'.freed) ∧
      ∀ i b, (s.pump i).buf = some b → ti'.Allocated b.addr := by
  have hinv := pumpSystemInv_from hti.cacheInv h
  refine ⟨hinv.cacheOk, fun i hlive ans hans => ?_, fun i _ => ?_, hinv.cache.tlsDeinit⟩
  · exact (hinv.live i hlive).pump_ok hinv.cache rfl hans
  · obtain ⟨ti', ip', heq, -⟩ := hinv.cache.destroy_eq (i := i) rfl (hinv.pipe_eq_nil i)
    exact ⟨_, heq⟩

/-- The pipes of `check_splice_available` are used by two pumps. One of them is destroyed while
there is something in its pipe, which is closed; the other one goes back to the cache. -/
theorem pumpCache_of_run_checked :
    ∃ ti s ti', checkSpliceAvailable (ivFdPumpTlsInitThread fun _ _ => 0) true true true =
        .ok (true, ti) ∧
      (pumpLtsFrom true ti).Run
        [.init 0 false, .init 1 false,
          .pump 0 ⟨true, [.data 1 [2, 3]], 0, [.room 1]⟩,
          .pump 1 ⟨true, [.data 4 []], 0, [.room 5]⟩,
          .destroy 0] s ∧
      s.ti.numBufs = 1 ∧ s.ti.freed = [0] ∧ s.ti.bufs.map PumpBuf.addr = [1] ∧ CacheOk true s ∧
      ivFdPumpTlsDeinitThread s.ti = .ok ti' ∧ ti'.bufs = [] := by
  have hsome : (checkSpliceAvailable (ivFdPumpTlsInitThread fun _ _ => 0) true true
      true).toOption.bind (fun x => ((pumpLtsFrom true x.2).exec (pumpLtsFrom true x.2).init
        [.init 0 false, .init 1 false,
          .pump 0 ⟨true, [.data 1 [2, 3]], 0, [.room 1]⟩,
          .pump 1 ⟨true, [.data 4 []], 0, [.room 5]⟩,
          .destroy 0]).map fun s =>
        (x.1, s.ti.numBufs, s.ti.freed, s.ti.bufs.map PumpBuf.addr)) =
      some (true, 1, [0], [1]) := by decide
  obtain ⟨⟨splice, ti⟩, hcheck, hrun⟩ := Option.bind_eq_some_iff.mp hsome
  obtain ⟨s, hs, heq⟩ := Option.map_eq_some_iff.mp hrun
  obtain ⟨rfl, hnum, hfreed, hbufs⟩ : splice = true ∧ s.ti.numBufs = 1 ∧ s.ti.freed = [0] ∧
      s.ti.bufs.map PumpBuf.addr = [1] := by simpa using heq
  have hcheck := toOption_eq_some.mp hcheck
  obtain ⟨hok, -, -, ti', hdeinit, hnil, -⟩ := pumpCache_of_run (.checked hcheck) hs
  exact ⟨ti, s, ti', hcheck, hs, hnum, hfreed, hbufs, hok, hdeinit, hnil⟩

end Ivykis
