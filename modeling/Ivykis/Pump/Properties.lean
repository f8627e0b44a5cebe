import Ivykis.Kit.Placed
import Ivykis.Pump.Stream

/-!
# Pumps over whole runs

Any number of pumps in a thread share a cache of buffers. Each buffer belongs to one pump or to the
cache, and pipes in the cache are empty, so that no pump gets to see what another one has read.
Hence every pump passes on what it reads, in any run.
-/

namespace Ivykis

inductive PumpPlace where
  | pump (i : PumpPtr)
  | cache
  | freed
  deriving DecidableEq

/-- The buffers in a place, when the pumps have the buffers `bufs`. -/
def PumpThread.holds (ti : PumpThread) (bufs : PumpPtr → Option PumpBuf) : PumpPlace → List ℕ
  | .pump i => ((bufs i).map PumpBuf.addr).toList
  | .cache  => ti.bufs.map PumpBuf.addr
  | .freed  => ti.freed

/-- A pump that gets or gives back a buffer affects no other pump. -/
lemma PumpThread.holds_update_of_ne {ti : PumpThread} {bufs : PumpPtr → Option PumpBuf}
    {i : PumpPtr} {p : PumpPlace} (hp : p ≠ .pump i) (b : Option PumpBuf) :
    ti.holds (Function.update bufs i b) p = ti.holds bufs p := by
  cases p with
  | pump j =>
    have hj : j ≠ i := fun he => hp (he ▸ rfl)
    simp [PumpThread.holds, hj]
  | cache => rfl
  | freed => rfl

lemma bufDequeue_eq_some {ti ti' : PumpThread} {b : PumpBuf} (h : bufDequeue ti = some (b, ti')) :
    ∃ bufs, ti.bufs = b :: bufs ∧ ti' = { ti with numBufs := ti.numBufs - 1, bufs := bufs } := by
  rw [bufDequeue] at h
  split at h
  · rename_i b' bufs hbufs
    obtain ⟨rfl, rfl⟩ := Prod.mk.inj (Option.some.inj h)
    exact ⟨bufs, hbufs, rfl⟩
  · cases h

/-- The cache, and who has which buffer. -/
structure CacheInv (splice : Bool) (ti : PumpThread) (bufs : PumpPtr → Option PumpBuf) : Prop where
  placed  : Kit.Placed (ti.holds bufs) fun addr => addr < ti.mallocs
  empty   : splice = true → ∀ b ∈ ti.bufs, b.pipe = []
  numBufs : ti.numBufs = ti.bufs.length
  bound   : ti.numBufs ≤ maxCachedBufs

namespace CacheInv

variable {splice : Bool} {ti ti' : PumpThread} {bufs bufs' : PumpPtr → Option PumpBuf}
  {i : PumpPtr} {b : PumpBuf} {alloc : Bool} {bytes : ℕ}

lemma congr (h : CacheInv splice ti bufs)
    (hbufs : ∀ j, (bufs' j).map PumpBuf.addr = (bufs j).map PumpBuf.addr) :
    CacheInv splice ti bufs' := by
  refine ⟨h.placed.congr fun p => ?_, h.empty, h.numBufs, h.bound⟩
  cases p with
  | pump j => rw [PumpThread.holds, hbufs, PumpThread.holds]
  | cache => rfl
  | freed => rfl

lemma bufAlloc (h : CacheInv splice ti bufs) (hi : bufs i = none)
    (heq : bufAlloc ti alloc = (some b, ti')) :
    CacheInv splice ti' (Function.update bufs i (some b)) ∧ (splice = true → b.pipe = []) := by
  rw [Ivykis.bufAlloc] at heq
  split_ifs at heq
  · obtain ⟨hb, rfl⟩ := Prod.mk.inj heq
    obtain rfl := Option.some.inj hb
    refine ⟨⟨?_, h.empty, h.numBufs, h.bound⟩, fun _ => rfl⟩
    refine h.placed.add (a := .pump i) (lt_irrefl _) (fun a => ?_) ?_ fun p hp => ?_
    · exact Nat.lt_succ_iff_lt_or_eq
    · simp [PumpThread.holds, hi]
    · rw [PumpThread.holds_update_of_ne hp]
      cases p <;> rfl
  · cases heq

/-- A pump takes a buffer from the cache, or a new one. -/
lemma bufGet (h : CacheInv splice ti bufs) (hi : bufs i = none)
    (heq : bufGet ti alloc = (some b, ti')) :
    CacheInv splice ti' (Function.update bufs i (some b)) ∧ (splice = true → b.pipe = []) := by
  rw [Ivykis.bufGet] at heq
  split at heq
  · rename_i b' ti₁ hdeq
    obtain ⟨hb', rfl⟩ := Prod.mk.inj heq
    obtain rfl := Option.some.inj hb'
    obtain ⟨rest, hb, rfl⟩ := bufDequeue_eq_some hdeq
    refine ⟨⟨?_, fun hs c hc => ?_, ?_, ?_⟩, fun hs => ?_⟩
    · refine h.placed.move (a := .pump i) (b := .cache) (by simp) ?_ fun p hp hc => ?_
      · simp [PumpThread.holds, hi, hb]
      · rw [PumpThread.holds_update_of_ne hp]
        cases p <;> first | rfl | exact absurd rfl hc
    · exact h.empty hs c (hb ▸ List.mem_cons_of_mem _ hc)
    · have := h.numBufs
      rw [hb, List.length_cons] at this
      dsimp only
      omega
    · have := h.bound
      dsimp only
      omega
    · exact h.empty hs _ (hb ▸ List.mem_cons_self)
  · exact h.bufAlloc hi heq

/-- A pump frees its buffer. -/
lemma bufFree (h : CacheInv splice ti bufs) (hi : bufs i = some b) :
    ∃ ti', bufFree ti b = .ok ti' ∧ CacheInv splice ti' (Function.update bufs i none) := by
  have hmem : b.addr ∈ ti.holds bufs (.pump i) := by simp [PumpThread.holds, hi]
  have hlt : b.addr < ti.mallocs := (h.placed.issued _).mpr ⟨_, hmem⟩
  have hnot : b.addr ∉ ti.freed := fun hf => by
    have := h.placed.unique _ .freed _ hmem hf
    cases this
  refine ⟨_, if_pos ⟨hlt, hnot⟩, ?_, h.empty, h.numBufs, h.bound⟩
  refine h.placed.move (a := .pump i) (b := .freed) (by simp) ?_ fun p hp hf => ?_
  · simp only [PumpThread.holds, Function.update_self, hi, Option.map_some, Option.map_none,
      Option.toList_none, Option.toList_some, List.nil_append]
    exact List.perm_append_comm
  · rw [PumpThread.holds_update_of_ne hp]
    cases p <;> first | rfl | exact absurd rfl hf

/-- A pump gives back its buffer. -/
lemma bufPut (h : CacheInv splice ti bufs) (hi : bufs i = some b)
    (hpipe : splice = true → bytes = 0 → b.pipe = []) :
    ∃ ti', bufPut splice ti b bytes = .ok ti' ∧
      CacheInv splice ti' (Function.update bufs i none) := by
  rw [Ivykis.bufPut]
  split_ifs with hs hn
  · exact h.bufFree hi
  · refine ⟨_, rfl, ?_, fun hsplice c hc => ?_, ?_, ?_⟩
    · refine h.placed.move (a := .pump i) (b := .cache) (by simp) ?_ fun p hp hc => ?_
      · simp [PumpThread.holds, hi]
      · rw [PumpThread.holds_update_of_ne hp]
        cases p <;> first | rfl | exact absurd rfl hc
    · rcases List.mem_cons.mp hc with rfl | hc
      · exact hpipe hsplice (by_contra fun hne => hs ⟨hsplice, hne⟩)
      · exact h.empty hsplice c hc
    · simp [h.numBufs]
    · dsimp only
      omega
  · exact h.bufFree hi

lemma update (h : CacheInv splice ti bufs) {buf : Option PumpBuf}
    (haddr : buf.map PumpBuf.addr = (bufs i).map PumpBuf.addr) :
    CacheInv splice ti (Function.update bufs i buf) := by
  refine h.congr fun j => ?_
  by_cases hj : j = i
  · rw [hj, Function.update_self, haddr]
  · rw [Function.update_of_ne hj]

end CacheInv

/-! ### One call -/

section Call

variable {splice : Bool} {ti ti' : PumpThread} {bufs : PumpPtr → Option PumpBuf} {i : PumpPtr}
  {ip ip' : FdPump} {b : PumpBuf} {ans : PumpAnswers} {ret : ℤ}

lemma PumpInv.pipe_eq_nil (h : PumpInv splice ip) (hb : ip.buf = some b) (hs : splice = true)
    (hbytes : ip.bytes = 0) : b.pipe = [] := by
  subst hs
  have hlen := h.length
  rw [FdPump.content_of_some hb, hbytes, if_pos rfl] at hlen
  exact List.length_eq_zero_iff.mp hlen

lemma bufAlloc_none {alloc : Bool} (heq : bufAlloc ti alloc = (none, ti')) : ti' = ti := by
  rw [bufAlloc] at heq
  split_ifs at heq
  · cases heq
  · exact (Prod.mk.inj heq).2.symm

lemma bufGet_none {alloc : Bool} (heq : bufGet ti alloc = (none, ti')) : ti' = ti := by
  rw [bufGet] at heq
  split at heq
  · cases heq
  · exact bufAlloc_none heq

/-- `iv_fd_pump_try_input`. -/
lemma PumpInv.of_tryInput (h : PumpInv splice ip) (hc : CacheInv splice ti bufs)
    (hi : bufs i = ip.buf) (hfull : ip.full = false) (hfin : ip.sawFin = 0)
    (heq : ivFdPumpTryInput splice ti ip ans = .ok (ret, ti', ip')) :
    PumpInv splice ip' ∧ CacheInv splice ti' (Function.update bufs i ip'.buf) := by
  rw [ivFdPumpTryInput] at heq
  split at heq
  · rename_i b hb
    rw [bind_eq_ok] at heq
    obtain ⟨⟨ret₁, ip₁⟩, hinto, heq⟩ := heq
    obtain ⟨rfl, rfl, rfl⟩ : ret₁ = ret ∧ ti = ti' ∧ ip₁ = ip' := by simpa using heq
    obtain ⟨hinv, -, haddr⟩ := h.of_tryInputInto hb hfull hfin hinto
    refine ⟨hinv, hc.update ?_⟩
    rw [haddr, hi, hb, Option.map_some]
  · rename_i hb
    split at heq
    · rename_i ti₁ hget
      obtain ⟨-, rfl, rfl⟩ : -1 = ret ∧ ti₁ = ti' ∧ ip = ip' := by simpa using heq
      rw [bufGet_none hget]
      exact ⟨h, hc.update (by rw [hi])⟩
    · rename_i b ti₁ hget
      rw [bind_eq_ok] at heq
      obtain ⟨⟨ret₁, ip₁⟩, hinto, heq⟩ := heq
      obtain ⟨rfl, rfl, rfl⟩ : ret₁ = ret ∧ ti₁ = ti' ∧ ip₁ = ip' := by simpa using heq
      obtain ⟨hc', hpipe⟩ := hc.bufGet (hi.trans hb) hget
      have hinto' : tryInputInto splice { ip with buf := some b } b ans = .ok (ret₁, ip₁) := hinto
      obtain ⟨hinv, -, haddr⟩ := (h.attach hb hpipe).of_tryInputInto rfl hfull hfin hinto'
      have haddr' : ip₁.buf.map PumpBuf.addr =
          ((Function.update bufs i (some b)) i).map PumpBuf.addr := by
        rw [haddr, Function.update_self, Option.map_some]
      have hc'' := hc'.update haddr'
      rw [Function.update_idem] at hc''
      exact ⟨hinv, hc''⟩

/-- The `switch` at the end. -/
lemma PumpInv.of_pumpBands (h : PumpInv splice ip) (heq : pumpBands ip = .ok (ret, ip')) :
    PumpInv splice ip' ∧ ip'.buf = ip.buf ∧
      (ret = 0 ∧ ip'.sawFin = 2 ∨ ret = 1 ∧ ip'.sawFin ≠ 2) := by
  rw [pumpBands] at heq
  split at heq
  · rename_i hfin
    obtain ⟨rfl, rfl⟩ := Prod.mk.inj (Except.ok.inj heq)
    exact ⟨h.quiet _ (by simp [PumpCall.Quiet]), rfl, by simp [hfin]⟩
  · rename_i hfin
    obtain ⟨rfl, rfl⟩ := Prod.mk.inj (Except.ok.inj heq)
    exact ⟨h.quiet _ (by simp [PumpCall.Quiet]), rfl, by simp [hfin]⟩
  · rename_i hfin
    obtain ⟨rfl, rfl⟩ := Prod.mk.inj (Except.ok.inj heq)
    exact ⟨h.quiet _ (by simp [PumpCall.Quiet]), rfl, by simp [hfin]⟩
  · cases heq

lemma PumpInv.of_pumpInput (h : PumpInv splice ip) (hc : CacheInv splice ti bufs)
    (hi : bufs i = ip.buf) (heq : pumpInput splice ti ip ans = .ok (ret, ti', ip')) :
    PumpInv splice ip' ∧ CacheInv splice ti' (Function.update bufs i ip'.buf) := by
  rw [pumpInput] at heq
  split_ifs at heq with hopen
  · exact h.of_tryInput hc hi hopen.1 hopen.2 heq
  · obtain ⟨-, rfl, rfl⟩ : 0 = ret ∧ ti = ti' ∧ ip = ip' := by simpa using heq
    exact ⟨h, hc.update (by rw [hi])⟩

lemma PumpInv.of_pumpOutput (h : PumpInv splice ip)
    (hc : CacheInv splice ti (Function.update bufs i ip.buf))
    (heq : pumpOutput splice ip ans = .ok (ret, ip')) :
    PumpInv splice ip' ∧ CacheInv splice ti (Function.update bufs i ip'.buf) := by
  rw [pumpOutput] at heq
  split_ifs at heq with hbytes
  · obtain ⟨hinv, -, haddr⟩ := h.of_tryOutput heq
    have hc' := hc.update (haddr.trans (by rw [Function.update_self]))
    rw [Function.update_idem] at hc'
    exact ⟨hinv, hc'⟩
  · obtain ⟨-, rfl⟩ := Prod.mk.inj (Except.ok.inj heq)
    exact ⟨h, hc⟩

/-- `__iv_fd_pump_pump`. -/
lemma PumpInv.of_fdPumpPump (h : PumpInv splice ip) (hc : CacheInv splice ti bufs)
    (hi : bufs i = ip.buf) (heq : fdPumpPump splice ti ip ans = .ok (ret, ti', ip')) :
    PumpInv splice ip' ∧ CacheInv splice ti' (Function.update bufs i ip'.buf) ∧
      (ret = -1 ∨ ret = 0 ∧ ip'.sawFin = 2 ∨ ret = 1 ∧ ip'.sawFin ≠ 2) := by
  rw [fdPumpPump, bind_eq_ok] at heq
  obtain ⟨⟨r₁, ti₁, ip₁⟩, hin, heq⟩ := heq
  obtain ⟨h₁, hc₁⟩ := h.of_pumpInput hc hi hin
  dsimp only at heq
  split_ifs at heq with hr₁
  · obtain ⟨rfl, rfl, rfl⟩ : -1 = ret ∧ ti₁ = ti' ∧ ip₁ = ip' := by simpa using heq
    exact ⟨h₁, hc₁, Or.inl rfl⟩
  rw [bind_eq_ok] at heq
  obtain ⟨⟨r₂, ip₂⟩, hout, heq⟩ := heq
  obtain ⟨h₂, hc₂⟩ := h₁.of_pumpOutput hc₁ hout
  dsimp only at heq
  split_ifs at heq with hr₂
  · obtain ⟨rfl, rfl, rfl⟩ : -1 = ret ∧ ti₁ = ti' ∧ ip₂ = ip' := by simpa using heq
    exact ⟨h₂, hc₂, Or.inl rfl⟩
  rw [bind_eq_ok] at heq
  obtain ⟨⟨r₃, ip₃⟩, hbands, heq⟩ := heq
  obtain ⟨rfl, rfl, rfl⟩ : r₃ = ret ∧ ti₁ = ti' ∧ ip₃ = ip' := by simpa using heq
  obtain ⟨hinv, hbuf, hret⟩ := h₂.of_pumpBands hbands
  exact ⟨hinv, hbuf ▸ hc₂, Or.inr hret⟩

/-- The buffer is given back. -/
lemma CacheInv.releaseBuf_eq (hc : CacheInv splice ti bufs) (hi : bufs i = ip.buf)
    (hpipe : ∀ b, ip.buf = some b → splice = true → ip.bytes = 0 → b.pipe = []) :
    ∃ ti', releaseBuf splice ti ip = .ok (ti', { ip with buf := none }) ∧
      CacheInv splice ti' (Function.update bufs i none) := by
  rw [releaseBuf]
  cases hb : ip.buf with
  | none =>
    refine ⟨ti, ?_, hc.update (by rw [hi, hb])⟩
    simp only [← hb]
  | some b =>
    obtain ⟨ti', heq, hc'⟩ := hc.bufPut (hi.trans hb) (hpipe b hb)
    refine ⟨ti', ?_, hc'⟩
    simp only [heq, ok_bind]

lemma CacheInv.destroy_eq (hc : CacheInv splice ti bufs) (hi : bufs i = ip.buf)
    (hpipe : ∀ b, ip.buf = some b → splice = true → ip.bytes = 0 → b.pipe = []) :
    ∃ ti' ip', ivFdPumpDestroy splice ti ip = .ok (ti', ip') ∧ ip'.buf = none ∧
      CacheInv splice ti' (Function.update bufs i none) := by
  rw [ivFdPumpDestroy]
  generalize hip : (if ip.sawFin ≠ 2 then { ip with log := ip.log ++ [.setBands false false] }
    else ip) = ip₁
  obtain ⟨hbuf, hbytes⟩ : ip₁.buf = ip.buf ∧ ip₁.bytes = ip.bytes := by
    rw [← hip]
    split_ifs <;> exact ⟨rfl, rfl⟩
  rw [← hbuf, ← hbytes] at hpipe
  obtain ⟨ti', heq, hc'⟩ := hc.releaseBuf_eq (hi.trans hbuf.symm) hpipe
  exact ⟨ti', _, heq, rfl, hc'⟩

lemma PumpInv.detach (h : PumpInv splice ip) (hbytes : ip.bytes = 0) :
    PumpInv splice { ip with buf := none } := by
  have hcontent : ip.content splice = [] := by
    rw [← List.length_eq_zero_iff, h.length, hbytes]
  have hstream := h.stream
  rw [hcontent] at hstream
  exact ⟨hbytes.symm, hstream, h.bound, h.full, h.fullPos, h.sawFin, h.eof, h.rest, h.asked,
    h.shutdown.append (List.append_nil _).symm (by simp) rfl Iff.rfl⟩

/-- What a call of `iv_fd_pump_pump` returns, and the state that it leaves the pump in. -/
structure PumpReturned (splice : Bool) (ret : ℤ) (ip : FdPump) : Prop where
  failed : ret < 0 → ip.buf = none
  inv    : 0 ≤ ret → PumpInv splice ip
  stream : StreamOk splice ip
  ret    : ret = -1 ∨ ret = 0 ∧ ip.sawFin = 2 ∨ ret = 1 ∧ ip.sawFin ≠ 2

lemma PumpInv.of_pump (h : PumpInv splice ip) (hc : CacheInv splice ti bufs)
    (hi : bufs i = ip.buf) (heq : ivFdPumpPump splice ti ip ans = .ok (ret, ti', ip')) :
    PumpReturned splice ret ip' ∧ CacheInv splice ti' (Function.update bufs i ip'.buf) := by
  rw [ivFdPumpPump, bind_eq_ok] at heq
  obtain ⟨⟨r₁, ti₁, ip₁⟩, hpump, heq⟩ := heq
  obtain ⟨hinv, hc₁, hret⟩ := h.of_fdPumpPump hc hi hpump
  dsimp only at heq
  split_ifs at heq with hrel
  · obtain ⟨ti₂, hrelease, hc₂⟩ := hc₁.releaseBuf_eq (Function.update_self ..)
      fun b hb => hinv.pipe_eq_nil hb
    rw [hrelease, ok_bind] at heq
    obtain ⟨rfl, rfl, rfl⟩ : r₁ = ret ∧ ti₂ = ti' ∧ { ip₁ with buf := none } = ip' := by
      simpa using heq
    rw [Function.update_idem] at hc₂
    refine ⟨⟨fun _ => rfl, fun hpos => hinv.detach ?_, hinv.streamOk.detach, hret⟩, hc₂⟩
    exact hrel.resolve_left (by omega)
  · obtain ⟨rfl, rfl, rfl⟩ : r₁ = ret ∧ ti₁ = ti' ∧ ip₁ = ip' := by simpa using heq
    rw [not_or] at hrel
    exact ⟨⟨fun hneg => absurd hneg hrel.1, fun _ => hinv, hinv.streamOk, hret⟩, hc₁⟩

/-- `iv_fd_pump_pump` returns. -/
lemma PumpInv.pump_ok (h : PumpInv splice ip) (hc : CacheInv splice ti bufs)
    (hi : bufs i = ip.buf) (hans : ans.Complete) :
    ∃ x, ivFdPumpPump splice ti ip ans = .ok x := by
  have hpump : ∃ x, fdPumpPump splice ti ip ans = .ok x := by
    obtain ⟨⟨r₁, ti₁, ip₁⟩, hin⟩ := pumpInput_ok hans splice ti ip
    obtain ⟨h₁, hc₁⟩ := h.of_pumpInput hc hi hin
    obtain ⟨⟨r₂, ip₂⟩, hout⟩ := pumpOutput_ok hans h₁
    obtain ⟨⟨r₃, ip₃⟩, hbands⟩ := pumpBands_ok (h₁.of_pumpOutput hc₁ hout).1
    rw [fdPumpPump, hin, ok_bind]
    dsimp only
    split_ifs
    · exact ⟨_, rfl⟩
    · rw [hout, ok_bind]
      dsimp only
      split_ifs
      · exact ⟨_, rfl⟩
      · exact ⟨_, by rw [hbands, ok_bind]⟩
  obtain ⟨⟨r₁, ti₁, ip₁⟩, hpump⟩ := hpump
  obtain ⟨hinv, hc₁, -⟩ := h.of_fdPumpPump hc hi hpump
  rw [ivFdPumpPump, hpump, ok_bind]
  dsimp only
  split_ifs
  · obtain ⟨ti₂, hrelease, -⟩ := hc₁.releaseBuf_eq (Function.update_self ..)
      fun b hb => hinv.pipe_eq_nil hb
    exact ⟨_, by rw [hrelease, ok_bind]⟩
  · exact ⟨_, rfl⟩

end Call

/-! ### Runs -/

/-- The invariant of a thread and its pumps. -/
structure PumpSystemInv (splice : Bool) (s : PumpSystem) : Prop where
  cache  : CacheInv splice s.ti fun i => (s.pump i).buf
  live   : ∀ i, s.phase i = .live → PumpInv splice (s.pump i)
  idle   : ∀ i, s.phase i ≠ .live → (s.pump i).buf = none
  stream : ∀ i, s.phase i ≠ .unused → StreamOk splice (s.pump i)

namespace PumpSystemInv

variable {splice : Bool} {s s' : PumpSystem} {a : PumpLabel}

/-- A call for one pump. -/
lemma set (h : PumpSystemInv splice s) {i : PumpPtr} {ti : PumpThread} {ip : FdPump}
    {phase : PumpPhase}
    (hc : CacheInv splice ti (Function.update (fun i => (s.pump i).buf) i ip.buf))
    (hlive : phase = .live → PumpInv splice ip) (hidle : phase ≠ .live → ip.buf = none)
    (hstream : phase ≠ .unused → StreamOk splice ip) :
    PumpSystemInv splice (s.set i ti ip phase) where
  cache := by
    refine hc.congr fun j => ?_
    by_cases hj : j = i
    · simp [PumpSystem.set, hj]
    · simp [PumpSystem.set, hj]
  live j hj := by
    by_cases hji : j = i
    · subst hji
      simp only [PumpSystem.set, Function.update_self] at hj ⊢
      exact hlive hj
    · simp only [PumpSystem.set, Function.update_of_ne hji] at hj ⊢
      exact h.live j hj
  idle j hj := by
    by_cases hji : j = i
    · subst hji
      simp only [PumpSystem.set, Function.update_self] at hj ⊢
      exact hidle hj
    · simp only [PumpSystem.set, Function.update_of_ne hji] at hj ⊢
      exact h.idle j hj
  stream j hj := by
    by_cases hji : j = i
    · subst hji
      simp only [PumpSystem.set, Function.update_self] at hj ⊢
      exact hstream hj
    · simp only [PumpSystem.set, Function.update_of_ne hji] at hj ⊢
      exact h.stream j hj

lemma pipe_eq_nil (h : PumpSystemInv splice s) (i : PumpPtr) (b : PumpBuf)
    (hb : (s.pump i).buf = some b) (hs : splice = true) (hbytes : (s.pump i).bytes = 0) :
    b.pipe = [] := by
  by_cases hlive : s.phase i = .live
  · exact (h.live i hlive).pipe_eq_nil hb hs hbytes
  · rw [h.idle i hlive] at hb
    cases hb

lemma step (h : PumpSystemInv splice s) (hs : pumpStep splice s a = some s') :
    PumpSystemInv splice s' := by
  cases a with
  | init i relayEof =>
    simp only [pumpStep, Option.ite_none_right_eq_some, Option.some.injEq] at hs
    obtain ⟨hphase, rfl⟩ := hs
    have hbuf := h.idle i (by simp [hphase])
    have hinv := pumpInv_init splice relayEof
    refine h.set (h.cache.update ?_) (fun _ => hinv) (fun hne => absurd rfl hne) fun _ =>
      hinv.streamOk
    rw [hbuf]
    rfl
  | pump i ans =>
    simp only [pumpStep, Option.ite_none_right_eq_some, Option.map_eq_some_iff,
      toOption_eq_some] at hs
    obtain ⟨hphase, ⟨ret, ti, ip⟩, hpump, rfl⟩ := hs
    obtain ⟨hret, hc⟩ := (h.live i hphase).of_pump h.cache rfl hpump
    refine h.set hc (fun hlive => hret.inv ?_) (fun hne => hret.failed ?_) fun _ => hret.stream
    · split_ifs at hlive with hneg
      exact not_lt.mp hneg
    · by_contra hneg
      exact hne (if_neg hneg)
  | destroy i =>
    simp only [pumpStep, Option.ite_none_left_eq_some, Option.map_eq_some_iff,
      toOption_eq_some] at hs
    obtain ⟨hphase, ⟨ti, ip⟩, hdestroy, rfl⟩ := hs
    obtain ⟨ti', ip', heq, hbuf, hc⟩ := h.cache.destroy_eq (i := i) rfl (h.pipe_eq_nil i)
    obtain ⟨rfl, rfl⟩ := Prod.mk.inj (Except.ok.inj (heq.symm.trans hdestroy))
    exact h.set (hbuf ▸ hc) (by simp) (fun _ => hbuf) (by simp)

end PumpSystemInv

lemma cacheInv_tlsInit (splice : Bool) (junk : ℕ → ℕ → UInt8) :
    CacheInv splice (ivFdPumpTlsInitThread junk) fun _ => none := by
  refine ⟨(Kit.Placed.empty fun addr => ?_).congr fun p => ?_, ?_, rfl, ?_⟩
  · simp [ivFdPumpTlsInitThread]
  · cases p <;> rfl
  · simp [ivFdPumpTlsInitThread]
  · simp [ivFdPumpTlsInitThread, maxCachedBufs]

lemma pumpSystemInv_from {splice : Bool} {ti : PumpThread} {tr : List PumpLabel} {s : PumpSystem}
    (hti : CacheInv splice ti fun _ => none) (h : (pumpLtsFrom splice ti).Run tr s) :
    PumpSystemInv splice s := by
  refine h.induct (P := fun _ s => PumpSystemInv splice s) ⟨hti, ?_, ?_, ?_⟩
    fun _ _ _ _ _ hinv hs => hinv.step hs
  · simp [pumpLtsFrom]
  · simp [pumpLtsFrom]
  · simp [pumpLtsFrom]

theorem pumpSystemInv_of_run {splice : Bool} {junk : ℕ → ℕ → UInt8} {tr : List PumpLabel}
    {s : PumpSystem} (h : (pumpLts splice junk).Run tr s) : PumpSystemInv splice s :=
  pumpSystemInv_from (cacheInv_tlsInit splice junk) h

variable {splice : Bool} {junk : ℕ → ℕ → UInt8} {tr : List PumpLabel} {s : PumpSystem}

/-- In every run each pump passes on what it reads: what it has written is the beginning of what it
has read, and `bytes` is the length of the rest. It never asks for zero bytes, `saw_fin` is set at
the end of the file only, and is `2` only when everything has been written; and then `shutdown` is
called, once. Calls return, with `0` exactly when `saw_fin` is `2`. -/
theorem pumpStream_of_run (h : (pumpLts splice junk).Run tr s) :
    (∀ i, s.phase i ≠ .unused → StreamOk splice (s.pump i)) ∧
    ∀ i, s.phase i = .live → ∀ ans : PumpAnswers, ans.Complete →
      ∃ ret ti ip, ivFdPumpPump splice s.ti (s.pump i) ans = .ok (ret, ti, ip) ∧
        (ret = -1 ∨ ret = 0 ∧ ip.sawFin = 2 ∨ ret = 1 ∧ ip.sawFin ≠ 2) ∧ StreamOk splice ip := by
  have hinv := pumpSystemInv_of_run h
  refine ⟨hinv.stream, fun i hlive ans hans => ?_⟩
  obtain ⟨⟨ret, ti, ip⟩, heq⟩ := (hinv.live i hlive).pump_ok hinv.cache rfl hans
  obtain ⟨hret, -⟩ := (hinv.live i hlive).of_pump hinv.cache rfl heq
  exact ⟨ret, ti, ip, heq, hret.ret, hret.stream⟩

/-- Three bytes are read, two of them are written, and the rest is written after the end of the
file. -/
theorem pumpStream_of_run_eof :
    ∃ s, (pumpLts true fun _ _ => 0).Run
        [.init 0 true,
          .pump 0 ⟨true, [.eintr, .data 1 [2, 3]], 0, [.room 2]⟩,
          .pump 0 ⟨true, [.eof], 0, [.eagain]⟩,
          .pump 0 ⟨true, [], 0, [.eintr, .room 5]⟩] s ∧
      (s.pump 0).sawFin = 2 ∧ putBytes (s.pump 0).log = [1, 2, 3] ∧
      StreamOk true (s.pump 0) := by
  refine Kit.Lts.exists_run_of_decide (fun s => s.phase 0 = .live ∧ (s.pump 0).sawFin = 2 ∧
    putBytes (s.pump 0).log = [1, 2, 3]) (by decide) fun s hs ⟨hphase, hfin, hput⟩ => ?_
  exact ⟨hfin, hput, (pumpStream_of_run hs).1 0 (by simp [hphase])⟩

end Ivykis
