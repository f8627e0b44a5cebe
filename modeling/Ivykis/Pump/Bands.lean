import Ivykis.Pump.Cache

/-!
# The bands a pump asks for

After a call that has not failed, the user waits for what `set_bands` was last told. A pump that is
not done always asks for something: for input unless the end of the file has been seen or there is
no room, and for output if there is something to be written. Since a pump without room has something
to be written, as has one that has seen the end of the file and is not done, one of the two applies.
-/

namespace Ivykis

variable {splice : Bool} {ti ti' : PumpThread} {ip ip' : FdPump} {ans : PumpAnswers} {ret : ℤ}

/-- What was passed to `set_bands` last is what the fields of the pump say, and the pump has a
buffer exactly when there is something in it. -/
structure BandsOk (ret : ℤ) (ip : FdPump) : Prop where
  wants  : ret = 1 → ∃ pollin pollout, ip.log.getLast? = some (.setBands pollin pollout) ∧
    (pollin = true ∨ pollout = true) ∧ (pollin = true ↔ ¬ SawEof ip.log ∧ ip.full = false) ∧
    (pollout = true ↔ 0 < ip.bytes)
  done   : ret = 0 → ip.log.getLast? = some (.setBands false false)
  full   : ip.full = true → 0 < ip.bytes
  sawFin : ip.sawFin = 1 → 0 < ip.bytes
  buf    : ip.buf.isSome = true ↔ 0 < ip.bytes

/-- The `switch` at the end of `__iv_fd_pump_pump` in one line. -/
lemma pumpBands_log (heq : pumpBands ip = .ok (ret, ip')) :
    ip' = { ip with log := ip.log ++
      [.setBands (decide (ip.sawFin = 0) && !ip.full)
        (decide (ip.sawFin = 1) || decide (ip.sawFin = 0 ∧ ip.bytes ≠ 0))] } := by
  rw [pumpBands] at heq
  split at heq
  · next hfin =>
    obtain ⟨-, rfl⟩ := Prod.mk.inj (Except.ok.inj heq)
    simp [hfin]
  · next hfin =>
    obtain ⟨-, rfl⟩ := Prod.mk.inj (Except.ok.inj heq)
    simp [hfin]
  · next hfin =>
    obtain ⟨-, rfl⟩ := Prod.mk.inj (Except.ok.inj heq)
    simp [hfin]
  · cases heq

/-- A call that has not failed ends with the `switch`. -/
lemma fdPumpPump_bands (heq : fdPumpPump splice ti ip ans = .ok (ret, ti', ip')) (hret : 0 ≤ ret) :
    ∃ ip₁, pumpBands ip₁ = .ok (ret, ip') := by
  rw [fdPumpPump, bind_eq_ok] at heq
  obtain ⟨⟨r₁, ti₁, ip₁⟩, -, heq⟩ := heq
  dsimp only at heq
  split_ifs at heq with hr₁
  · obtain ⟨rfl, -⟩ : -1 = ret ∧ _ := by simpa using heq
    omega
  rw [bind_eq_ok] at heq
  obtain ⟨⟨r₂, ip₂⟩, -, heq⟩ := heq
  dsimp only at heq
  split_ifs at heq with hr₂
  · obtain ⟨rfl, -⟩ : -1 = ret ∧ _ := by simpa using heq
    omega
  rw [bind_eq_ok] at heq
  obtain ⟨⟨r₃, ip₃⟩, hbands, heq⟩ := heq
  obtain ⟨rfl, rfl, rfl⟩ : r₃ = ret ∧ ti₁ = ti' ∧ ip₃ = ip' := by simpa using heq
  exact ⟨ip₂, hbands⟩

lemma releaseBuf_pump (heq : releaseBuf splice ti ip = .ok (ti', ip')) :
    ip' = { ip with buf := none } := by
  rw [releaseBuf] at heq
  split at heq
  · next hb =>
    obtain ⟨-, rfl⟩ := Prod.mk.inj (Except.ok.inj heq)
    rw [← hb]
  · obtain ⟨ti₁, -, heq⟩ := bind_eq_ok.mp heq
    exact (Prod.mk.inj (Except.ok.inj heq)).2.symm

/-- A call of `iv_fd_pump_pump` gives the buffer back if there is nothing in it. -/
lemma ivFdPumpPump_buf (heq : ivFdPumpPump splice ti ip ans = .ok (ret, ti', ip')) :
    ∃ ti₁ ip₁, fdPumpPump splice ti ip ans = .ok (ret, ti₁, ip₁) ∧
      ip' = { ip₁ with buf := if ret < 0 ∨ ip₁.bytes = 0 then none else ip₁.buf } := by
  rw [ivFdPumpPump, bind_eq_ok] at heq
  obtain ⟨⟨r₁, ti₁, ip₁⟩, hpump, heq⟩ := heq
  dsimp only at heq
  split_ifs at heq with hrel
  · obtain ⟨⟨ti₂, ip₂⟩, hrelease, heq⟩ := bind_eq_ok.mp heq
    obtain ⟨rfl, rfl, rfl⟩ : r₁ = ret ∧ ti₂ = ti' ∧ ip₂ = ip' := by simpa using heq
    exact ⟨ti₁, ip₁, hpump, by rw [if_pos hrel, releaseBuf_pump hrelease]⟩
  · obtain ⟨rfl, rfl, rfl⟩ : r₁ = ret ∧ ti₁ = ti' ∧ ip₁ = ip' := by simpa using heq
    exact ⟨ti₁, ip₁, hpump, by rw [if_neg hrel]⟩

lemma PumpInv.buf_none (h : PumpInv splice ip) (hb : ip.buf = none) : ip.bytes = 0 := by
  rw [← h.length, FdPump.content, hb, List.length_nil]

/-- A call that has not failed. -/
lemma PumpReturned.bandsOk (h : PumpReturned splice ret ip') (hret : 0 ≤ ret)
    (heq : ivFdPumpPump splice ti ip ans = .ok (ret, ti', ip')) : BandsOk ret ip' := by
  have hinv := h.inv hret
  obtain ⟨ti₁, ip₁, hpump, hip⟩ := ivFdPumpPump_buf heq
  obtain ⟨ip₂, hbands⟩ := fdPumpPump_bands hpump hret
  have hlog : ip'.log.getLast? = some (.setBands (decide (ip'.sawFin = 0) && !ip'.full)
      (decide (ip'.sawFin = 1) || decide (ip'.sawFin = 0 ∧ ip'.bytes ≠ 0))) := by
    rw [hip, pumpBands_log hbands]
    exact List.getLast?_concat
  have hfull (hf : ip'.full = true) : 0 < ip'.bytes := Nat.pos_of_ne_zero (hinv.fullPos hf)
  have hfin (hf : ip'.sawFin = 1) : 0 < ip'.bytes := by
    have hrest := hinv.rest (by omega)
    omega
  refine ⟨fun h₁ => ⟨_, _, hlog, ?_⟩, fun h₀ => ?_, hfull, hfin, ?_⟩
  · have hne : ip'.sawFin ≠ 2 := by
      have := h.ret
      omega
    have hle := hinv.sawFin
    obtain hf | hf : ip'.sawFin = 0 ∨ ip'.sawFin = 1 := by omega
    · have heof : ¬ SawEof ip'.log := fun hs => hinv.eof.mpr hs hf
      simp only [hf, heof, decide_true, Bool.true_and, Bool.not_eq_true', Nat.zero_ne_one,
        decide_false, Bool.false_or, true_and, decide_eq_true_eq, not_false_iff,
        Nat.pos_iff_ne_zero, ne_eq, and_self, and_true]
      by_cases hp : ip'.full = true
      · exact Or.inr (hinv.fullPos hp)
      · exact Or.inl (Bool.not_eq_true _ ▸ hp)
    · have heof : SawEof ip'.log := hinv.eof.mp (by omega)
      have hpos := hfin hf
      simp [hf, heof, hpos]
  · have hf : ip'.sawFin = 2 := by
      have := h.ret
      omega
    rw [hlog, hf]
    rfl
  · constructor
    · intro hsome
      by_contra hzero
      have hzero' : ip₁.bytes = 0 := by
        rw [hip] at hzero
        exact Nat.eq_zero_of_not_pos hzero
      rw [hip, if_pos (Or.inr hzero')] at hsome
      cases hsome
    · intro hpos
      rw [Option.isSome_iff_ne_none]
      intro hb
      exact absurd (hinv.buf_none hb) (by omega)

variable {junk : ℕ → ℕ → UInt8} {tr : List PumpLabel} {s : PumpSystem} {i : PumpPtr}

/-- In every run, a call that returns `1` has asked for input or output, for input exactly if no end
of the file has been seen and the pump is not full, and for output exactly if there is something to
be written. A call that returns `0` has asked for nothing. The pump is full, or is waiting to write
the rest, only if there is something to be written, and it has a buffer exactly then. -/
theorem bandsOk_of_run (hti : PumpStart junk splice ti) (h : (pumpLtsFrom splice ti).Run tr s)
    (hlive : s.phase i = .live)
    (hpump : ivFdPumpPump splice s.ti (s.pump i) ans = .ok (ret, ti', ip')) (hret : 0 ≤ ret) :
    BandsOk ret ip' := by
  have hinv := pumpSystemInv_from hti.cacheInv h
  obtain ⟨hreturned, -⟩ := (hinv.live i hlive).of_pump hinv.cache rfl hpump
  exact hreturned.bandsOk hret hpump

/-- The buffer is filled, and nothing can be written: the pump asks for output only. -/
theorem bandsOk_of_run_full : ∃ s ti' ip',
    (pumpLtsFrom false (ivFdPumpTlsInitThread fun _ _ => 0)).Run [.init 0 false] s ∧
    ivFdPumpPump false s.ti (s.pump 0) ⟨true, [.data 7 (List.replicate 5000 7)], 0, [.eagain]⟩ =
      .ok (1, ti', ip') ∧ ip'.full = true ∧ BandsOk 1 ip' := by
  have hsome : ((pumpLtsFrom false (ivFdPumpTlsInitThread fun _ _ => 0)).exec
      (pumpLtsFrom false (ivFdPumpTlsInitThread fun _ _ => 0)).init [.init 0 false]).bind (fun s =>
        (ivFdPumpPump false s.ti (s.pump 0)
          ⟨true, [.data 7 (List.replicate 5000 7)], 0, [.eagain]⟩).toOption.map fun x =>
        (s.phase 0, x.1, x.2.2.full)) = some (.live, 1, true) := by
    decide +kernel
  obtain ⟨s, hs, hmap⟩ := Option.bind_eq_some_iff.mp hsome
  obtain ⟨⟨ret, ti', ip'⟩, hpump, heq⟩ := Option.map_eq_some_iff.mp hmap
  have hpump := toOption_eq_some.mp hpump
  obtain ⟨hlive, rfl, hfull⟩ : s.phase 0 = .live ∧ ret = 1 ∧ ip'.full = true := by simpa using heq
  exact ⟨s, ti', ip', hs, hpump, hfull,
    bandsOk_of_run (.decided false) hs hlive hpump (by decide)⟩

end Ivykis
