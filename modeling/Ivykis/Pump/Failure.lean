import Ivykis.Pump.Bands

/-!
# Calls after a call that has failed

`iv_fd_pump_pump` gives its buffer back when it fails, but `bytes` keeps saying how much was in it.
If something was, a later call takes whatever is in another buffer for data of its own, or writes
from a buffer that it does not have. A call that fails with nothing in the buffer does no harm, and
the pump can be used again.
-/

namespace Ivykis

variable {splice : Bool} {ti ti' : PumpThread} {ip ip' : FdPump} {ans : PumpAnswers} {ret : ℤ}

/-- One step, where `iv_fd_pump_pump` is also called after it has returned `-1`. -/
def retryStep (splice : Bool) (s : PumpSystem) : PumpLabel → Option PumpSystem
  | .pump i ans =>
    if s.phase i = .live then
      (ivFdPumpPump splice s.ti (s.pump i) ans).toOption.map fun (_, ti, ip) => s.set i ti ip .live
    else none
  | a => pumpStep splice s a

/-- A thread with any number of pumps, which are used until they are destroyed. -/
def retryLts (splice : Bool) (ti : PumpThread) : Kit.Lts PumpSystem PumpLabel where
  init := (pumpLtsFrom splice ti).init
  step := retryStep splice

/-! ### What goes wrong -/

/-- A pump has read three bytes when its write fails. -/
def failedWrite : List PumpLabel :=
  [.init 0 false, .pump 0 ⟨true, [.data 1 [2, 3]], 0, [.failed]⟩]

/-- Then another pump uses the buffer, and the first one is called again. -/
def staleBytes : List PumpLabel :=
  failedWrite ++ [.init 1 false, .pump 1 ⟨true, [.data 9 [9, 9]], 0, [.room 3]⟩,
    .pump 0 ⟨true, [.data 4 []], 0, [.room 4]⟩]

/-- A write fails after the end of the file has been seen. -/
def failedLastWrite : List PumpLabel :=
  [.init 0 false, .pump 0 ⟨true, [.data 1 []], 0, [.eagain]⟩, .pump 0 ⟨true, [.eof], 0, [.failed]⟩]

/-- After a write that fails, a pump has bytes and no buffer. It then writes bytes that another pump
has read, or from a null pointer. -/
theorem pump_after_failure :
    (∃ s, (retryLts false (ivFdPumpTlsInitThread fun _ _ => 0)).Run failedWrite s ∧
      (s.pump 0).buf.isNone = true ∧ (s.pump 0).bytes = 3) ∧
    (∃ s, (retryLts false (ivFdPumpTlsInitThread fun _ _ => 0)).Run staleBytes s ∧
      putBytes (s.pump 0).log = [9, 9, 9, 4] ∧ gotBytes (s.pump 0).log = [1, 2, 3, 4]) ∧
    ∃ s, (retryLts false (ivFdPumpTlsInitThread fun _ _ => 0)).Run failedLastWrite s ∧
      s.phase 0 = .live ∧
      faultOf (ivFdPumpPump false s.ti (s.pump 0) ⟨true, [.eof], 0, [.room 1]⟩) =
        some .invalidAccess := by
  refine ⟨?_, ?_, ?_⟩
  · exact Kit.Lts.exists_run_of_decide _ (by decide +kernel) fun _ _ => id
  · exact Kit.Lts.exists_run_of_decide _ (by decide +kernel) fun _ _ => id
  · exact Kit.Lts.exists_run_of_decide _ (by decide +kernel) fun _ _ => id

/-! ### Calls that fail with an empty buffer -/

/-- No write fails, and a read only fails while there is nothing in the buffer. Allocations may fail
at any time. -/
def PumpSystem.failsEmpty (s : PumpSystem) : PumpLabel → Prop
  | .pump i ans => (∀ a ∈ ans.output, a ≠ .failed ∧ a ≠ .room 0) ∧
    (.failed ∈ ans.input → (s.pump i).bytes = 0)
  | _           => True

instance (s : PumpSystem) (a : PumpLabel) : Decidable (s.failsEmpty a) := by
  unfold PumpSystem.failsEmpty
  split <;> infer_instance

lemma inputLoop_mem {len : ℕ} {log log' : List PumpCall} {as : List InAnswer} {a : InAnswer}
    (h : inputLoop len log as = .ok (a, log')) : a ∈ as ∧ a ≠ .eintr := by
  induction as generalizing log with
  | nil => cases h
  | cons x as ih =>
    cases x with
    | eintr =>
      obtain ⟨hmem, hne⟩ := ih h
      exact ⟨List.mem_cons_of_mem _ hmem, hne⟩
    | _ =>
      obtain ⟨rfl, -⟩ := Prod.mk.inj (Except.ok.inj h)
      exact ⟨List.mem_cons_self, by simp⟩

lemma outputLoop_mem {as : List OutAnswer} {a : OutAnswer} (h : outputLoop as = .ok a) :
    a ∈ as ∧ a ≠ .eintr := by
  induction as with
  | nil => cases h
  | cons x as ih =>
    cases x with
    | eintr =>
      obtain ⟨hmem, hne⟩ := ih h
      exact ⟨List.mem_cons_of_mem _ hmem, hne⟩
    | _ =>
      obtain rfl := Except.ok.inj h
      exact ⟨List.mem_cons_self, by simp⟩

/-- An input that fails leaves `bytes` alone. -/
lemma tryInputInto_failed {b : PumpBuf} (heq : tryInputInto splice ip b ans = .ok (ret, ip'))
    (hret : ret ≠ 0) : ip'.bytes = ip.bytes ∧ .failed ∈ ans.input := by
  rw [tryInputInto, bind_eq_ok] at heq
  obtain ⟨⟨a, log'⟩, hloop, heq⟩ := heq
  obtain ⟨hmem, hne⟩ := inputLoop_mem hloop
  cases a with
  | data x xs => exact absurd (Prod.mk.inj (Except.ok.inj heq)).1.symm hret
  | eof => exact absurd (Prod.mk.inj (Except.ok.inj heq)).1.symm hret
  | eagain => exact absurd (Prod.mk.inj (Except.ok.inj heq)).1.symm hret
  | eintr => exact absurd rfl hne
  | failed =>
    obtain ⟨-, rfl⟩ := Prod.mk.inj (Except.ok.inj heq)
    exact ⟨rfl, hmem⟩

lemma PumpInv.pumpInput_failed (h : PumpInv splice ip)
    (heq : pumpInput splice ti ip ans = .ok (ret, ti', ip')) (hret : ret ≠ 0)
    (hans : .failed ∈ ans.input → ip.bytes = 0) : ip'.bytes = 0 := by
  rw [pumpInput] at heq
  split_ifs at heq with hopen
  · rw [ivFdPumpTryInput] at heq
    split at heq
    · obtain ⟨⟨ret₁, ip₁⟩, hinto, heq⟩ := bind_eq_ok.mp heq
      obtain ⟨rfl, -, rfl⟩ : ret₁ = ret ∧ ti = ti' ∧ ip₁ = ip' := by simpa using heq
      obtain ⟨hbytes, hmem⟩ := tryInputInto_failed hinto hret
      exact hbytes.trans (hans hmem)
    · next hb =>
      have hzero := h.buf_none hb
      split at heq
      · obtain ⟨-, -, rfl⟩ : -1 = ret ∧ _ ∧ ip = ip' := by simpa using heq
        exact hzero
      · obtain ⟨⟨ret₁, ip₁⟩, hinto, heq⟩ := bind_eq_ok.mp heq
        obtain ⟨rfl, -, rfl⟩ : ret₁ = ret ∧ _ ∧ ip₁ = ip' := by simpa using heq
        exact (tryInputInto_failed hinto hret).1.trans hzero
  · obtain ⟨rfl, -⟩ : 0 = ret ∧ _ := by simpa using heq
    exact absurd rfl hret

/-- An output with room for something does not fail. -/
lemma PumpInv.pumpOutput_failed (h : PumpInv splice ip)
    (hans : ∀ a ∈ ans.output, a ≠ .failed ∧ a ≠ .room 0)
    (heq : pumpOutput splice ip ans = .ok (ret, ip')) : ret = 0 := by
  rw [pumpOutput] at heq
  split_ifs at heq with hbytes
  · rw [ivFdPumpTryOutput] at heq
    cases hb : ip.buf with
    | none => exact absurd (h.buf_none hb) hbytes
    | some b =>
      simp only [hb, bind_eq_ok] at heq
      obtain ⟨a, hloop, heq⟩ := heq
      obtain ⟨hmem, hne⟩ := outputLoop_mem hloop
      cases a with
      | room n =>
        have hn : n ≠ 0 := fun hn => (hans _ hmem).2 (by rw [hn])
        have hout : b.front splice (min n ip.bytes) ≠ [] := by
          rw [FdPump.front_eq hb, ← List.length_pos_iff, List.length_take, h.length]
          omega
        dsimp only at heq
        rw [if_neg hout] at heq
        exact (Prod.mk.inj (Except.ok.inj heq)).1.symm
      | eagain => exact (Prod.mk.inj (Except.ok.inj heq)).1.symm
      | eintr => exact absurd rfl hne
      | failed => exact absurd rfl (hans _ hmem).1
  · exact (Prod.mk.inj (Except.ok.inj heq)).1.symm

/-- A call that fails under the condition leaves nothing behind. -/
lemma PumpInv.fdPumpPump_failed (h : PumpInv splice ip) {bufs : PumpPtr → Option PumpBuf}
    {i : PumpPtr} (hc : CacheInv splice ti bufs) (hi : bufs i = ip.buf)
    (hout : ∀ a ∈ ans.output, a ≠ .failed ∧ a ≠ .room 0)
    (hin : .failed ∈ ans.input → ip.bytes = 0)
    (heq : fdPumpPump splice ti ip ans = .ok (ret, ti', ip')) (hret : ret < 0) :
    ip'.bytes = 0 := by
  rw [fdPumpPump, bind_eq_ok] at heq
  obtain ⟨⟨r₁, ti₁, ip₁⟩, hinput, heq⟩ := heq
  obtain ⟨h₁, hc₁⟩ := h.of_pumpInput hc hi hinput
  dsimp only at heq
  split_ifs at heq with hr₁
  · obtain ⟨-, -, rfl⟩ : -1 = ret ∧ ti₁ = ti' ∧ ip₁ = ip' := by simpa using heq
    exact h.pumpInput_failed hinput hr₁ hin
  rw [bind_eq_ok] at heq
  obtain ⟨⟨r₂, ip₂⟩, houtput, heq⟩ := heq
  have hr₂ : r₂ = 0 := h₁.pumpOutput_failed hout houtput
  rw [if_neg (not_not.mpr hr₂), bind_eq_ok] at heq
  obtain ⟨⟨r₃, ip₃⟩, hbands, heq⟩ := heq
  obtain ⟨rfl, -, rfl⟩ : r₃ = ret ∧ ti₁ = ti' ∧ ip₃ = ip' := by simpa using heq
  obtain ⟨-, -, hret'⟩ := (h₁.of_pumpOutput hc₁ houtput).1.of_pumpBands hbands
  omega

lemma PumpSystemInv.retryStep {s s' : PumpSystem} {a : PumpLabel} (h : PumpSystemInv splice s)
    (ha : s.failsEmpty a) (hs : retryStep splice s a = some s') : PumpSystemInv splice s' := by
  cases a with
  | init i relayEof => exact h.step (a := .init i relayEof) hs
  | destroy i => exact h.step (a := .destroy i) hs
  | pump i ans =>
    simp only [Ivykis.retryStep, Option.ite_none_right_eq_some, Option.map_eq_some_iff,
      toOption_eq_some] at hs
    obtain ⟨hphase, ⟨ret, ti, ip⟩, hpump, rfl⟩ := hs
    have hlive := h.live i hphase
    obtain ⟨hret, hc⟩ := hlive.of_pump h.cache rfl hpump
    refine h.set hc (fun _ => ?_) (fun hne => absurd rfl hne) fun _ => hret.stream
    rcases lt_or_ge ret 0 with hneg | hpos
    · obtain ⟨ti₁, ip₁, hpump₁, rfl⟩ := ivFdPumpPump_buf hpump
      obtain ⟨hinv, -⟩ := hlive.of_fdPumpPump h.cache rfl hpump₁
      rw [if_pos (Or.inl hneg)]
      exact hinv.detach (hlive.fdPumpPump_failed h.cache rfl ha.1 ha.2 hpump₁ hneg)
    · exact hret.inv hpos

variable {junk : ℕ → ℕ → UInt8} {tr : List PumpLabel} {s : PumpSystem}

/-- In every run in which no write fails and reads only fail while the buffer is empty, calls after
calls that have failed included, a pump without a buffer has no bytes. A call then never misses a
buffer, and what a pump writes is the beginning of what it has itself read. -/
theorem pumpConsistent_of_run (hti : PumpStart junk splice ti)
    (h : ((retryLts splice ti).restrict PumpSystem.failsEmpty).Run tr s) :
    ∀ i, s.phase i = .live →
      ((s.pump i).buf = none → (s.pump i).bytes = 0) ∧
      putBytes (s.pump i).log <+: gotBytes (s.pump i).log ∧
      ∀ ans : PumpAnswers, ans.Complete → ∃ ret ti' ip',
        ivFdPumpPump splice s.ti (s.pump i) ans = .ok (ret, ti', ip') ∧
        putBytes ip'.log <+: gotBytes ip'.log := by
  have hinv : PumpSystemInv splice s := by
    refine Kit.Lts.Run.induct (P := fun _ s => PumpSystemInv splice s)
      ⟨hti.cacheInv, ?_, ?_, ?_⟩ (fun _ s a s' _ hinv hs => ?_) h
    · simp [retryLts, pumpLtsFrom, Kit.Lts.restrict]
    · simp [retryLts, pumpLtsFrom, Kit.Lts.restrict]
    · simp [retryLts, pumpLtsFrom, Kit.Lts.restrict]
    · obtain ⟨ha, hs⟩ := Kit.Lts.restrict_step.mp hs
      exact hinv.retryStep ha hs
  intro i hlive
  have hpump := hinv.live i hlive
  refine ⟨hpump.buf_none, hpump.streamOk.copied, fun ans hans => ?_⟩
  obtain ⟨⟨ret, ti', ip'⟩, heq⟩ := hpump.pump_ok hinv.cache rfl hans
  obtain ⟨hret, -⟩ := hpump.of_pump hinv.cache rfl heq
  exact ⟨ret, ti', ip', heq, hret.stream.copied⟩

/-- A read fails, an allocation fails, and then the pump does its work. -/
def failedReads : List PumpLabel :=
  [.init 0 false, .pump 0 ⟨false, [.failed], 0, []⟩, .pump 0 ⟨true, [.eintr, .failed], 0, []⟩,
    .pump 0 ⟨true, [.data 1 [2]], 0, [.room 1]⟩]

theorem pumpConsistent_of_run_failedReads :
    ∃ s, ((retryLts true (ivFdPumpTlsInitThread fun _ _ => 0)).restrict
        PumpSystem.failsEmpty).Run failedReads s ∧
      s.phase 0 = .live ∧ putBytes (s.pump 0).log = [1] ∧
      ((s.pump 0).buf = none → (s.pump 0).bytes = 0) := by
  refine Kit.Lts.exists_run_of_decide (fun s => s.phase 0 = .live ∧ putBytes (s.pump 0).log = [1])
    (by decide +kernel) fun s hs ⟨hlive, hput⟩ => ?_
  exact ⟨hlive, hput, (pumpConsistent_of_run (.decided true) hs 0 hlive).1⟩

end Ivykis
