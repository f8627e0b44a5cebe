import Mathlib.Data.List.Basic
import Mathlib.Data.List.Count
import Ivykis.Pump.Basic

/-!
# What a pump does to the stream

A pump is a queue in both modes: what has been read is what has been written followed by what is in
the buffer. Each part of `iv_fd_pump_pump` keeps this, and with it what the fields of the pump say
about the buffer and about the end of the file.
-/

namespace Ivykis

/-! ### The history of a pump -/

/-- The bytes that an entry of the history has taken from the input. -/
def PumpCall.got : PumpCall → List UInt8
  | .input len (.data b bs) => (b :: bs).take len
  | _                       => []

/-- The bytes that an entry of the history has passed to the output. -/
def PumpCall.put : PumpCall → List UInt8
  | .output bytes => bytes
  | _             => []

def gotBytes (log : List PumpCall) : List UInt8 :=
  log.flatMap PumpCall.got

def putBytes (log : List PumpCall) : List UInt8 :=
  log.flatMap PumpCall.put

/-- The end of the file has been seen. -/
def SawEof (log : List PumpCall) : Prop :=
  ∃ len, .input len .eof ∈ log

section Log

variable (log log' : List PumpCall)

@[simp] lemma gotBytes_append : gotBytes (log ++ log') = gotBytes log ++ gotBytes log' :=
  List.flatMap_append

@[simp] lemma putBytes_append : putBytes (log ++ log') = putBytes log ++ putBytes log' :=
  List.flatMap_append

@[simp] lemma sawEof_append : SawEof (log ++ log') ↔ SawEof log ∨ SawEof log' := by
  simp only [SawEof, List.mem_append, exists_or]

@[simp] lemma gotBytes_singleton (c : PumpCall) : gotBytes [c] = c.got := by simp [gotBytes]

@[simp] lemma putBytes_singleton (c : PumpCall) : putBytes [c] = c.put := by simp [putBytes]

@[simp] lemma sawEof_singleton (c : PumpCall) : SawEof [c] ↔ ∃ len, c = .input len .eof := by
  simp [SawEof, eq_comm]

end Log

/-! ### The invariant -/

/-- What is in the buffer. -/
def FdPump.content (splice : Bool) (ip : FdPump) : List UInt8 :=
  match ip.buf with
  | some b => if splice then b.pipe else (List.range ip.bytes).map b.buf
  | none   => []

/-- `shutdown` has been called once if `saw_fin` is `2` and it is asked for, and not otherwise; and
it was called after the end of the file had been seen and everything had been written. -/
structure ShutdownOk (ip : FdPump) : Prop where
  count : ip.log.count .shutdown = if ip.relayEof ∧ ip.sawFin = 2 then 1 else 0
  after : ∀ l l', ip.log = l ++ .shutdown :: l' → SawEof l ∧ gotBytes l = putBytes l

/-- The fields of a pump and its history. -/
structure PumpInv (splice : Bool) (ip : FdPump) : Prop where
  length   : (ip.content splice).length = ip.bytes
  stream   : gotBytes ip.log = putBytes ip.log ++ ip.content splice
  bound    : splice = false → ip.bytes ≤ bufSize
  full     : splice = false → (ip.full = true ↔ ip.bytes = bufSize)
  fullPos  : ip.full = true → ip.bytes ≠ 0
  sawFin   : ip.sawFin ≤ 2
  eof      : ip.sawFin ≠ 0 ↔ SawEof ip.log
  rest     : ip.sawFin ≠ 0 → (ip.sawFin = 2 ↔ ip.bytes = 0)
  asked    : ∀ len a, .input len a ∈ ip.log → 0 < len
  shutdown : ShutdownOk ip

lemma pumpInv_init (splice relayEof : Bool) : PumpInv splice (ivFdPumpInit relayEof) where
  length := rfl
  stream := rfl
  bound _ := by simp [ivFdPumpInit]
  full _ := by simp [ivFdPumpInit, bufSize]
  fullPos h := by simp [ivFdPumpInit] at h
  sawFin := by simp [ivFdPumpInit]
  eof := by simp [ivFdPumpInit, SawEof]
  rest h := by simp [ivFdPumpInit] at h
  asked := by simp [ivFdPumpInit]
  shutdown := by
    refine ⟨by simp [ivFdPumpInit], fun l l' h => ?_⟩
    have hmem : PumpCall.shutdown ∈ (ivFdPumpInit relayEof).log := by simp [h]
    simp [ivFdPumpInit] at hmem

/-- Nothing but `shutdown` is a `shutdown`. -/
lemma ShutdownOk.append {ip ip' : FdPump} {new : List PumpCall} (h : ShutdownOk ip)
    (hlog : ip'.log = ip.log ++ new) (hnew : .shutdown ∉ new) (hr : ip'.relayEof = ip.relayEof)
    (hf : ip'.sawFin = 2 ↔ ip.sawFin = 2) : ShutdownOk ip' := by
  refine ⟨?_, fun l l' hl => ?_⟩
  · rw [hlog, List.count_append, List.count_eq_zero_of_not_mem hnew, h.count, hr]
    simp only [hf, Nat.add_zero]
  · rw [hlog] at hl
    rcases List.append_eq_append_iff.mp hl with ⟨m, rfl, hm⟩ | ⟨m, hm, hm'⟩
    · exact absurd (hm ▸ List.mem_append_right m List.mem_cons_self) hnew
    · cases m with
      | nil =>
        rw [List.nil_append] at hm'
        exact absurd (hm' ▸ List.mem_cons_self) hnew
      | cons c m =>
        obtain ⟨rfl, rfl⟩ : .shutdown = c ∧ _ := by simpa using hm'
        exact h.after l m hm

/-! ### The buffer as a queue -/

section Content

variable {splice : Bool} {ip : FdPump} {b : PumpBuf}

lemma FdPump.content_of_some (hb : ip.buf = some b) : ip.content splice =
    if splice then b.pipe else (List.range ip.bytes).map b.buf := by
  rw [FdPump.content, hb]

lemma PumpBuf.map_read (b : PumpBuf) (n : ℕ) (chunk : List UInt8) :
    (List.range (n + chunk.length)).map (b.read n chunk).buf =
      (List.range n).map b.buf ++ chunk := by
  refine List.ext_getElem (by simp) fun j hj hj' => ?_
  simp only [List.length_map, List.length_range] at hj
  rw [List.getElem_map, List.getElem_range]
  by_cases hn : j < n
  · rw [List.getElem_append_left (by simpa using hn)]
    simp [PumpBuf.read, Nat.not_le.mpr hn]
  · rw [List.getElem_append_right (by simpa using hn)]
    have hlt : j - n < chunk.length := by omega
    simp [PumpBuf.read, Nat.not_lt.mp hn, hj, hlt]

lemma PumpBuf.map_memmove (b : PumpBuf) (k n : ℕ) :
    (List.range (n - k)).map (b.memmove k (n - k)).buf = ((List.range n).map b.buf).drop k := by
  refine List.ext_getElem (by simp) fun j hj hj' => ?_
  simp only [List.length_map, List.length_range] at hj
  simp [PumpBuf.memmove, hj, Nat.add_comm]

lemma FdPump.content_gotData (hb : ip.buf = some b) (chunk : List UInt8) :
    (ip.gotData splice b chunk).content splice = ip.content splice ++ chunk := by
  rw [FdPump.content_of_some hb, FdPump.content, FdPump.gotData]
  cases splice with
  | true => rfl
  | false => simpa using b.map_read ip.bytes chunk

lemma FdPump.front_eq (hb : ip.buf = some b) (n : ℕ) :
    b.front splice (min n ip.bytes) = (ip.content splice).take (min n ip.bytes) := by
  rw [FdPump.content_of_some hb, PumpBuf.front]
  cases splice with
  | true => rfl
  | false => simp [← List.map_take, List.take_range]

lemma FdPump.content_advance (hb : ip.buf = some b) (out : List UInt8) :
    (ip.advance splice b out).content splice = (ip.content splice).drop out.length := by
  rw [FdPump.content_of_some hb, FdPump.content, FdPump.advance]
  cases splice with
  | true => rfl
  | false => simpa using b.map_memmove out.length ip.bytes

end Content

/-! ### Input -/

/-- An entry of the history that leaves the streams alone. -/
def PumpCall.Quiet : PumpCall → Prop
  | .input len .eagain => 0 < len
  | .input len .eintr  => 0 < len
  | .input len .failed => 0 < len
  | .setBands _ _      => True
  | _                  => False

lemma inputLoop_eq {len : ℕ} {log log' : List PumpCall} {as : List InAnswer} {a : InAnswer}
    (h : inputLoop len log as = .ok (a, log')) :
    ∃ n, log' = log ++ List.replicate n (.input len .eintr) ++ [.input len a] ∧ a ≠ .eintr := by
  induction as generalizing log with
  | nil => cases h
  | cons x as ih =>
    cases x with
    | eintr =>
      obtain ⟨n, rfl, ha⟩ := ih h
      refine ⟨n + 1, ?_, ha⟩
      rw [List.replicate_succ]
      simp
    | _ =>
      obtain ⟨rfl, rfl⟩ := Prod.mk.inj (Except.ok.inj h)
      exact ⟨0, by simp, by simp⟩

@[simp] lemma FdPump.gotEof_buf (ip : FdPump) : ip.gotEof.buf = ip.buf := by
  rw [FdPump.gotEof]
  split_ifs <;> rfl

@[simp] lemma FdPump.gotEof_relayEof (ip : FdPump) : ip.gotEof.relayEof = ip.relayEof := by
  rw [FdPump.gotEof]
  split_ifs <;> rfl

@[simp] lemma FdPump.wrote_relayEof (splice : Bool) (ip : FdPump) (b : PumpBuf)
    (out : List UInt8) : (ip.wrote splice b out).relayEof = ip.relayEof := by
  rw [FdPump.wrote]
  split_ifs <;> rfl

@[simp] lemma FdPump.wrote_addr (splice : Bool) (ip : FdPump) (b : PumpBuf) (out : List UInt8) :
    (ip.wrote splice b out).buf.map PumpBuf.addr = some b.addr := by
  rw [FdPump.wrote]
  split_ifs <;> cases splice <;> rfl

namespace PumpInv

variable {splice : Bool} {ip ip' : FdPump} {b : PumpBuf} {ans : PumpAnswers} {ret : ℤ}

lemma quiet (h : PumpInv splice ip) (new : List PumpCall) (hnew : ∀ c ∈ new, c.Quiet) :
    PumpInv splice { ip with log := ip.log ++ new } := by
  have hgot : gotBytes new = [] := by
    refine List.flatMap_eq_nil_iff.mpr fun c hc => ?_
    have := hnew c hc
    rcases c with ⟨len, _ | _ | _ | _ | _⟩ | _ | _ | _ <;> simp_all [PumpCall.Quiet, PumpCall.got]
  have hput : putBytes new = [] := by
    refine List.flatMap_eq_nil_iff.mpr fun c hc => ?_
    have := hnew c hc
    cases c <;> simp_all [PumpCall.Quiet, PumpCall.put]
  have heof : ¬ SawEof new := by
    rintro ⟨len, hmem⟩
    exact hnew _ hmem
  refine ⟨h.length, ?_, h.bound, h.full, h.fullPos, h.sawFin, ?_, h.rest, fun len a ha => ?_,
    h.shutdown.append rfl ?_ rfl Iff.rfl⟩
  · rw [gotBytes_append, putBytes_append, hgot, hput, List.append_nil, List.append_nil]
    exact h.stream
  · rw [sawEof_append, or_iff_left heof]
    exact h.eof
  · rcases List.mem_append.mp ha with ha | ha
    · exact h.asked len a ha
    · have := hnew _ ha
      cases a <;> simp_all [PumpCall.Quiet]
  · exact fun hmem => hnew _ hmem

/-- A pump that has no buffer gets one. -/
lemma attach (h : PumpInv splice ip) (hbuf : ip.buf = none) (hb : splice = true → b.pipe = []) :
    PumpInv splice { ip with buf := some b } := by
  have hcontent : ip.content splice = [] := by rw [FdPump.content, hbuf]
  have hbytes : ip.bytes = 0 := by rw [← h.length, hcontent, List.length_nil]
  have hcontent' : FdPump.content splice { ip with buf := some b } = [] := by
    cases splice with
    | true => exact hb rfl
    | false => simp [FdPump.content, hbytes]
  refine ⟨?_, ?_, h.bound, h.full, h.fullPos, h.sawFin, h.eof, h.rest, h.asked,
    h.shutdown.append (List.append_nil _).symm (by simp) rfl Iff.rfl⟩
  · rw [hcontent', hbytes, List.length_nil]
  · rw [hcontent', ← hcontent]
    exact h.stream

/-- A pump that is not full asks for at least one byte. -/
lemma inputLen_pos (h : PumpInv splice ip) (hfull : ip.full = false) : 0 < inputLen splice ip := by
  cases splice with
  | true => simp [inputLen]
  | false =>
    have hne : ip.bytes ≠ bufSize := fun he => by simp [(h.full rfl).mpr he] at hfull
    have := h.bound rfl
    simp only [inputLen, Bool.false_eq_true, if_false]
    omega

lemma gotData (h : PumpInv splice ip) (hb : ip.buf = some b) (hfull : ip.full = false)
    (hfin : ip.sawFin = 0) {len : ℕ} (hlen : len = inputLen splice ip) (x : UInt8)
    (xs : List UInt8) :
    PumpInv splice (FdPump.gotData splice { ip with log := ip.log ++ [.input len (.data x xs)] } b
      ((x :: xs).take len)) := by
  have hpos : 0 < len := hlen ▸ h.inputLen_pos hfull
  have hle : ((x :: xs).take len).length ≤ len := List.length_take_le len _
  generalize hchunk : (x :: xs).take len = chunk at hle
  have hcontent : FdPump.content splice (FdPump.gotData splice
      { ip with log := ip.log ++ [.input len (.data x xs)] } b chunk) =
      ip.content splice ++ chunk := FdPump.content_gotData hb chunk
  refine ⟨?_, ?_, fun hs => ?_, fun hs => ?_, fun hf => ?_, h.sawFin, ?_, ?_, ?_,
    h.shutdown.append rfl (by simp) rfl Iff.rfl⟩
  · rw [hcontent, List.length_append, h.length]
    rfl
  · rw [hcontent]
    simp [FdPump.gotData, PumpCall.got, PumpCall.put, hchunk, h.stream]
  · subst hs
    have := h.bound rfl
    simp only [inputLen, Bool.false_eq_true, if_false] at hlen
    simp only [FdPump.gotData]
    omega
  · simp [FdPump.gotData, hfull, hs]
  · simp only [FdPump.gotData, hfull, Bool.false_or, Bool.and_eq_true, decide_eq_true_eq] at hf
    simp [FdPump.gotData, hf.2, bufSize]
  · simpa [FdPump.gotData] using h.eof
  · simp [FdPump.gotData, hfin]
  · intro len' a ha
    rcases List.mem_append.mp ha with ha | ha
    · exact h.asked len' a ha
    · obtain ⟨rfl, -⟩ : len' = len ∧ _ := by simpa using ha
      exact hpos

/-- The end of the file has been seen, and everything has been written. -/
lemma done (hbytes : ip.bytes = 0) (hcontent : ip.content splice = [])
    (hstream : gotBytes ip.log = putBytes ip.log) (hfull : ip.full = false)
    (heof : SawEof ip.log) (hasked : ∀ len a, .input len a ∈ ip.log → 0 < len)
    (hshutdown : ShutdownOk ip) (hfin : ip.sawFin ≠ 2) : PumpInv splice ip.done := by
  have hnot : .shutdown ∉ ip.log := by
    rw [← List.count_eq_zero, hshutdown.count, if_neg fun hf => hfin hf.2]
  have hlog : ip.done.log = ip.log ++ if ip.relayEof then [.shutdown] else [] := rfl
  refine ⟨?_, ?_, fun _ => ?_, fun _ => ?_, fun hf => ?_, le_refl 2, ?_, fun _ => ?_, ?_, ?_, ?_⟩
  · exact (congrArg List.length hcontent).trans hbytes.symm
  · have hcontent' : ip.done.content splice = [] := hcontent
    rw [hcontent', hlog, gotBytes_append, putBytes_append, hstream]
    split_ifs <;> simp [gotBytes, putBytes, PumpCall.got, PumpCall.put]
  · exact hbytes.trans_le (Nat.zero_le _)
  · refine iff_of_false ?_ ?_
    · simp [FdPump.done, hfull]
    · simp [FdPump.done, hbytes, bufSize]
  · simp [FdPump.done, hfull] at hf
  · rw [hlog, sawEof_append]
    exact iff_of_true (by simp [FdPump.done]) (Or.inl heof)
  · exact iff_of_true rfl hbytes
  · intro len a ha
    rw [hlog, List.mem_append] at ha
    refine ha.elim (hasked len a) fun ha => ?_
    split_ifs at ha <;> simp at ha
  · rw [hlog, List.count_append, List.count_eq_zero_of_not_mem hnot]
    cases hr : ip.relayEof <;> simp [FdPump.done, hr]
  · intro l l' hl
    rw [hlog] at hl
    split_ifs at hl
    · obtain ⟨rfl, -⟩ := (List.append_cons_inj_of_notMem hnot List.not_mem_nil).mp hl
      exact ⟨heof, hstream⟩
    · rw [List.append_nil] at hl
      exact absurd (hl ▸ List.mem_append_right l List.mem_cons_self) hnot

lemma gotEof (h : PumpInv splice ip) (hfull : ip.full = false) (hfin : ip.sawFin = 0) {len : ℕ}
    (hlen : len = inputLen splice ip) :
    PumpInv splice (FdPump.gotEof { ip with log := ip.log ++ [.input len .eof] }) := by
  have hpos : 0 < len := hlen ▸ h.inputLen_pos hfull
  have hasked : ∀ len' a, .input len' a ∈ ip.log ++ [.input len .eof] → 0 < len' := by
    intro len' a ha
    rcases List.mem_append.mp ha with ha | ha
    · exact h.asked len' a ha
    · obtain ⟨rfl, -⟩ : len' = len ∧ _ := by simpa using ha
      exact hpos
  have hstream : gotBytes (ip.log ++ [.input len .eof]) =
      putBytes (ip.log ++ [.input len .eof]) ++ ip.content splice := by
    simp [PumpCall.got, PumpCall.put, h.stream]
  have heof : SawEof (ip.log ++ [.input len .eof]) := ⟨len, by simp⟩
  rw [FdPump.gotEof]
  split_ifs with hbytes
  · have hcontent : ip.content splice = [] := by
      rw [← List.length_eq_zero_iff, h.length]
      exact hbytes
    rw [hcontent, List.append_nil] at hstream
    exact done hbytes hcontent hstream hfull heof hasked
      (h.shutdown.append rfl (by simp) rfl (by simp [hfin])) (by simp)
  · refine ⟨h.length, hstream, h.bound, h.full, h.fullPos, by simp, ?_, fun _ => ?_, hasked,
      h.shutdown.append rfl (by simp) rfl (by simp [hfin])⟩
    · exact iff_of_true (by simp) heof
    · exact iff_of_false (by simp) hbytes

lemma setFull (h : PumpInv true ip) (hbytes : ip.bytes ≠ 0) :
    PumpInv true { ip with full := true } :=
  ⟨h.length, h.stream, nofun, nofun, fun _ => hbytes, h.sawFin, h.eof, h.rest, h.asked,
    h.shutdown.append (List.append_nil _).symm (by simp) rfl Iff.rfl⟩

/-- `iv_fd_pump_try_input`, once the pump has a buffer. -/
lemma of_tryInputInto (h : PumpInv splice ip) (hb : ip.buf = some b) (hfull : ip.full = false)
    (hfin : ip.sawFin = 0) (heq : tryInputInto splice ip b ans = .ok (ret, ip')) :
    PumpInv splice ip' ∧ ip'.relayEof = ip.relayEof ∧ ip'.buf.map PumpBuf.addr = some b.addr := by
  have hip : { ip with buf := some b } = ip := by rw [← hb]
  rw [tryInputInto, bind_eq_ok] at heq
  obtain ⟨⟨a, log'⟩, hloop, heq⟩ := heq
  rw [hip] at hloop heq
  obtain ⟨n, rfl, ha⟩ := inputLoop_eq hloop
  have hpos := h.inputLen_pos hfull
  -- the calls that are interrupted
  have h₁ : PumpInv splice { ip with
      log := ip.log ++ List.replicate n (.input (inputLen splice ip) .eintr) } := by
    refine h.quiet _ fun c hc => ?_
    rw [List.eq_of_mem_replicate hc]
    exact hpos
  cases a with
  | data x xs =>
    have hne : (x :: xs).take (inputLen splice ip) ≠ [] := by
      simp [Nat.pos_iff_ne_zero.mp hpos]
    obtain ⟨rfl, rfl⟩ := Prod.mk.inj (Except.ok.inj heq)
    rw [if_neg hne]
    refine ⟨h₁.gotData hb hfull hfin rfl x xs, rfl, ?_⟩
    cases splice <;> rfl
  | eof =>
    obtain ⟨rfl, rfl⟩ := Prod.mk.inj (Except.ok.inj heq)
    exact ⟨h₁.gotEof hfull hfin rfl, by simp, by simp [hb]⟩
  | eagain =>
    have h₂ := h₁.quiet [.input (inputLen splice ip) .eagain]
      (by simpa [PumpCall.Quiet] using hpos)
    obtain ⟨rfl, rfl⟩ := Prod.mk.inj (Except.ok.inj heq)
    split_ifs with hsplice
    · obtain ⟨rfl, hbytes, -⟩ := hsplice
      exact ⟨h₂.setFull hbytes, rfl, by simp [hb]⟩
    · exact ⟨h₂, rfl, by simp [hb]⟩
  | eintr => exact absurd rfl ha
  | failed =>
    have h₂ := h₁.quiet [.input (inputLen splice ip) .failed]
      (by simpa [PumpCall.Quiet] using hpos)
    obtain ⟨rfl, rfl⟩ := Prod.mk.inj (Except.ok.inj heq)
    exact ⟨h₂, rfl, by simp [hb]⟩

/-! ### Output -/

lemma wrote (h : PumpInv splice ip) (hb : ip.buf = some b) {out rest : List UInt8}
    (hout : ip.content splice = out ++ rest) (hne : out ≠ []) :
    PumpInv splice (ip.wrote splice b out) := by
  have hpos : 0 < out.length := List.length_pos_iff.mpr hne
  have hlen : out.length + rest.length = ip.bytes := by
    rw [← h.length, hout, List.length_append]
  have hbytes : (ip.advance splice b out).bytes = rest.length := by
    simp only [FdPump.advance]
    omega
  have hcontent : (ip.advance splice b out).content splice = rest := by
    rw [FdPump.content_advance hb, hout, List.drop_left]
  have hstream : gotBytes (ip.advance splice b out).log =
      putBytes (ip.advance splice b out).log ++ rest := by
    simp [FdPump.advance, PumpCall.got, PumpCall.put, h.stream, hout]
  have hasked : ∀ len a, .input len a ∈ (ip.advance splice b out).log → 0 < len := by
    intro len a ha
    refine (List.mem_append.mp ha).elim (h.asked len a) fun ha => ?_
    simp at ha
  have hshutdown : ShutdownOk (ip.advance splice b out) :=
    h.shutdown.append rfl (by simp) rfl Iff.rfl
  have heof : SawEof (ip.advance splice b out).log ↔ SawEof ip.log := by
    simp [FdPump.advance]
  rw [FdPump.wrote]
  split_ifs with hfin
  · obtain ⟨hzero, hfin⟩ := hfin
    have hnil : rest = [] := List.length_eq_zero_iff.mp (hbytes.symm.trans hzero)
    have hfin' : ip.sawFin = 1 := hfin
    rw [hnil, List.append_nil] at hstream
    refine done hzero (hcontent.trans hnil) hstream rfl ?_ hasked hshutdown ?_
    · rw [heof, ← h.eof, hfin']
      simp
    · rw [hfin]
      simp
  · have hfin' : ip.sawFin ≠ 0 → ip.sawFin = 1 := fun hf => by
      have := (h.rest hf).not.mpr (by omega)
      have := h.sawFin
      omega
    refine ⟨?_, ?_, fun hs => ?_, fun hs => ?_, fun hf => ?_, h.sawFin, ?_, fun hf => ?_, hasked,
      hshutdown⟩
    · rw [hcontent, hbytes]
    · rw [hstream, hcontent]
    · have := h.bound hs
      omega
    · have := h.bound hs
      exact iff_of_false (by simp [FdPump.advance]) (by omega)
    · simp [FdPump.advance] at hf
    · rw [heof]
      exact h.eof
    · have hone := hfin' hf
      have hone' : (ip.advance splice b out).sawFin = 1 := hone
      rw [hone']
      exact iff_of_false (by simp) fun hzero => hfin ⟨hzero, hone'⟩

/-- `iv_fd_pump_try_output`. -/
lemma of_tryOutput (h : PumpInv splice ip)
    (heq : ivFdPumpTryOutput splice ip ans = .ok (ret, ip')) :
    PumpInv splice ip' ∧ ip'.relayEof = ip.relayEof ∧
      ip'.buf.map PumpBuf.addr = ip.buf.map PumpBuf.addr := by
  rw [ivFdPumpTryOutput] at heq
  cases hb : ip.buf with
  | none => simp [hb] at heq
  | some b =>
    simp only [hb, bind_eq_ok] at heq
    obtain ⟨a, -, heq⟩ := heq
    cases a with
    | room n =>
      rw [Except.ok.injEq] at heq
      split_ifs at heq with hout
      · obtain ⟨-, rfl⟩ := Prod.mk.inj heq
        exact ⟨h, rfl, by rw [hb]⟩
      · obtain ⟨-, rfl⟩ := Prod.mk.inj heq
        have hsplit : ip.content splice = b.front splice (min n ip.bytes) ++
            (ip.content splice).drop (min n ip.bytes) := by
          rw [FdPump.front_eq hb, List.take_append_drop]
        refine ⟨h.wrote hb hsplit hout, by simp, by simp⟩
    | eagain =>
      obtain ⟨-, rfl⟩ := Prod.mk.inj (Except.ok.inj heq)
      exact ⟨h, rfl, by rw [hb]⟩
    | eintr =>
      obtain ⟨-, rfl⟩ := Prod.mk.inj (Except.ok.inj heq)
      exact ⟨h, rfl, by rw [hb]⟩
    | failed =>
      obtain ⟨-, rfl⟩ := Prod.mk.inj (Except.ok.inj heq)
      exact ⟨h, rfl, by rw [hb]⟩

end PumpInv

/-! ### What the user sees -/

/-- What a pump has done, and what its fields say about it. -/
structure StreamOk (splice : Bool) (ip : FdPump) : Prop where
  copied   : putBytes ip.log <+: gotBytes ip.log
  bytes    : (gotBytes ip.log).length = (putBytes ip.log).length + ip.bytes
  full     : splice = false → (ip.full = true ↔ ip.bytes = bufSize)
  asked    : ∀ len a, .input len a ∈ ip.log → 0 < len
  eof      : ip.sawFin ≠ 0 ↔ SawEof ip.log
  done     : ip.sawFin = 2 → SawEof ip.log ∧ gotBytes ip.log = putBytes ip.log
  shutdown : ShutdownOk ip

lemma PumpInv.streamOk {splice : Bool} {ip : FdPump} (h : PumpInv splice ip) :
    StreamOk splice ip where
  copied := ⟨ip.content splice, h.stream.symm⟩
  bytes := by rw [h.stream, List.length_append, h.length]
  full := h.full
  asked := h.asked
  eof := h.eof
  done hfin := by
    have hne : ip.sawFin ≠ 0 := by omega
    have hcontent : ip.content splice = [] := by
      rw [← List.length_eq_zero_iff, h.length, ← h.rest hne, hfin]
    refine ⟨h.eof.mp hne, ?_⟩
    rw [h.stream, hcontent, List.append_nil]
  shutdown := h.shutdown

/-- What a pump has done does not depend on what becomes of its buffer. -/
lemma StreamOk.detach {splice : Bool} {ip : FdPump} (h : StreamOk splice ip) :
    StreamOk splice { ip with buf := none } :=
  ⟨h.copied, h.bytes, h.full, h.asked, h.eof, h.done,
    h.shutdown.append (List.append_nil _).symm (by simp) rfl Iff.rfl⟩

/-! ### Calls return -/

/-- The kernel does not interrupt calls forever. -/
def PumpAnswers.Complete (ans : PumpAnswers) : Prop :=
  (∃ a ∈ ans.input, a ≠ .eintr) ∧ ∃ a ∈ ans.output, a ≠ .eintr

lemma inputLoop_ok {as : List InAnswer} (h : ∃ a ∈ as, a ≠ .eintr) (len : ℕ)
    (log : List PumpCall) : ∃ x, inputLoop len log as = .ok x := by
  induction as generalizing log with
  | nil => simp at h
  | cons a as ih =>
    cases a with
    | eintr => exact ih (by simpa using h) _
    | _ => exact ⟨_, rfl⟩

lemma outputLoop_ok {as : List OutAnswer} (h : ∃ a ∈ as, a ≠ .eintr) :
    ∃ a, outputLoop as = .ok a := by
  induction as with
  | nil => simp at h
  | cons a as ih =>
    cases a with
    | eintr => exact ih (by simpa using h)
    | _ => exact ⟨_, rfl⟩

section Returns

variable {splice : Bool} {ip : FdPump} {ans : PumpAnswers}

lemma tryInputInto_ok (h : ans.Complete) (splice : Bool) (ip : FdPump) (b : PumpBuf) :
    ∃ x, tryInputInto splice ip b ans = .ok x := by
  obtain ⟨⟨a, log⟩, hloop⟩ :=
    inputLoop_ok h.1 (inputLen splice { ip with buf := some b }) ip.log
  rw [tryInputInto, hloop, ok_bind]
  cases a <;> exact ⟨_, rfl⟩

lemma pumpInput_ok (h : ans.Complete) (splice : Bool) (ti : PumpThread) (ip : FdPump) :
    ∃ x, pumpInput splice ti ip ans = .ok x := by
  rw [pumpInput]
  split_ifs
  · rw [ivFdPumpTryInput]
    split
    · obtain ⟨x, hx⟩ := tryInputInto_ok h splice ip _
      exact ⟨_, by rw [hx]; rfl⟩
    · split
      · exact ⟨_, rfl⟩
      · obtain ⟨x, hx⟩ := tryInputInto_ok h splice ip _
        exact ⟨_, by rw [hx]; rfl⟩
  · exact ⟨_, rfl⟩

/-- A pump that has bytes has a buffer. -/
lemma pumpOutput_ok (h : ans.Complete) (hinv : PumpInv splice ip) :
    ∃ x, pumpOutput splice ip ans = .ok x := by
  rw [pumpOutput]
  split_ifs with hbytes
  · rw [ivFdPumpTryOutput]
    cases hb : ip.buf with
    | none =>
      have hlen := hinv.length
      rw [FdPump.content, hb] at hlen
      exact absurd hlen.symm hbytes
    | some b =>
      obtain ⟨a, ha⟩ := outputLoop_ok h.2
      simp only [ha, ok_bind]
      cases a <;> exact ⟨_, rfl⟩
  · exact ⟨_, rfl⟩

lemma pumpBands_ok (hinv : PumpInv splice ip) : ∃ x, pumpBands ip = .ok x := by
  have hle := hinv.sawFin
  obtain hfin | hfin | hfin : ip.sawFin = 0 ∨ ip.sawFin = 1 ∨ ip.sawFin = 2 := by omega
  all_goals simp [pumpBands, hfin]

end Returns

end Ivykis
