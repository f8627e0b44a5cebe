import Mathlib.Data.List.Chain
import Ivykis.Basic
import Ivykis.Kit.Serial

/-!
# The clock on Windows (`iv_time_win32.c`)

Where there is no performance counter, the time is taken from `GetTickCount`, a counter of
milliseconds with 32 bits. `last_sec` is the number of seconds at the last call, and the counter
is read relative to it: `1000 * last_sec` wraps just as the counter does.
-/

namespace Ivykis

/-- The values of `method`. -/
inductive TimeMethod where
  | unknown
  | performanceCounter
  | tickCount
  deriving DecidableEq, Repr

/-- The static variables. -/
structure TimeState where
  method  : TimeMethod
  freq    : BitVec 64
  lastSec : BitVec 32
  deriving DecidableEq, Repr

/-- What the system's clocks say at one moment. -/
structure ClockReading where
  /-- The value that `QueryPerformanceCounter` stores, unless it fails. -/
  performanceCounter : Option (BitVec 64)
  tickCount          : BitVec 32
  deriving DecidableEq, Repr

/-- `iv_time_init`; `freq` is what `QueryPerformanceFrequency` stores, unless it fails. -/
def ivTimeInit (freq : Option (BitVec 64)) (st : TimeState) : TimeState :=
  if st.method = .unknown then
    match freq with
    | some freq => { st with method := .performanceCounter, freq := freq }
    | none      => { st with method := .tickCount }
  else st

/-- `iv_time_get` from the point on where it calls `GetTickCount`. -/
def tickTimeGet (tick : BitVec 32) (st : TimeState) : Timespec × TimeState :=
  let msec := tick - 1000 * st.lastSec
  if 1000 ≤ msec then
    let lastSec := st.lastSec + msec / 1000
    (⟨lastSec.toNat, (1000000 * (msec % 1000)).toNat⟩, { st with lastSec := lastSec })
  else (⟨st.lastSec.toNat, (1000000 * msec).toNat⟩, st)

/-- `iv_time_get`. -/
def ivTimeGet (clock : ClockReading) (st : TimeState) : Timespec × TimeState :=
  if st.method = .performanceCounter then
    match clock.performanceCounter with
    | some cnt =>
      (⟨(cnt.sdiv st.freq).toInt, (1000000000 * cnt.srem st.freq / st.freq).toInt⟩, st)
    | none     => tickTimeGet clock.tickCount { st with method := .tickCount }
  else tickTimeGet clock.tickCount st

/-- What successive calls of `iv_time_get` return. -/
def timesGot : TimeState → List ClockReading → List Timespec
  | _, []              => []
  | st, clock :: clocks =>
    let (time, st) := ivTimeGet clock st
    time :: timesGot st clocks

/-! ### The uptime from the counter -/

/-- An uptime in milliseconds as a `struct timespec`. -/
def uptime (t : ℕ) : Timespec := ⟨(t / 1000 : ℕ), (t % 1000 * 1000000 : ℕ)⟩

section Ticks

variable {st : TimeState} {t sec : ℕ}

/-- The counter shows the milliseconds since `last_sec`, as long as there are less than
`2 ^ 32`. -/
lemma ticks_since (hle : 1000 * sec ≤ t) (hlt : t < 1000 * sec + 2 ^ 32) :
    BitVec.ofNat 32 t - 1000 * BitVec.ofNat 32 sec = BitVec.ofNat 32 (t - 1000 * sec) ∧
      (BitVec.ofNat 32 (t - 1000 * sec)).toNat = t - 1000 * sec := by
  constructor
  · rw [show (1000 : BitVec 32) = BitVec.ofNat 32 1000 from rfl, ← BitVec.ofNat_mul,
      Kit.ofNat_sub_ofNat hle]
  · rw [BitVec.toNat_ofNat, Nat.mod_eq_of_lt (by omega)]

/-- Less than a second in nanoseconds. -/
lemma toNat_nsec {x : BitVec 32} (hx : x.toNat < 1000) :
    (1000000 * x).toNat = x.toNat * 1000000 := by
  rw [BitVec.toNat_mul, show (1000000 : BitVec 32).toNat = 1000000 from rfl, mul_comm]
  exact Nat.mod_eq_of_lt (by omega)

/-- One call returns the uptime, and remembers its seconds. -/
lemma tickTimeGet_eq (hsec : st.lastSec = BitVec.ofNat 32 sec) (hle : 1000 * sec ≤ t)
    (hlt : t < 1000 * sec + 2 ^ 32) (ht : t < 1000 * 2 ^ 32) :
    tickTimeGet (BitVec.ofNat 32 t) st =
      (uptime t, { st with lastSec := BitVec.ofNat 32 (t / 1000) }) := by
  obtain ⟨hmsec, htoNat⟩ := ticks_since hle hlt
  obtain ⟨d, rfl⟩ := Nat.exists_eq_add_of_le hle
  rw [Nat.add_sub_cancel_left] at hmsec htoNat
  have h1000 : (1000 : BitVec 32).toNat = 1000 := rfl
  have hsecs : (BitVec.ofNat 32 ((1000 * sec + d) / 1000)).toNat = (1000 * sec + d) / 1000 := by
    rw [BitVec.toNat_ofNat]
    exact Nat.mod_eq_of_lt (by omega)
  simp only [tickTimeGet, hsec, hmsec]
  split_ifs with hge
  · -- at least a second has passed
    have hadd : BitVec.ofNat 32 sec + BitVec.ofNat 32 d / 1000 =
        BitVec.ofNat 32 ((1000 * sec + d) / 1000) := by
      refine BitVec.eq_of_toNat_eq ?_
      rw [BitVec.toNat_add, BitVec.toNat_udiv, htoNat, h1000, hsecs, BitVec.toNat_ofNat]
      omega
    have hrem : (BitVec.ofNat 32 d % 1000).toNat = (1000 * sec + d) % 1000 := by
      rw [BitVec.toNat_umod, htoNat, h1000]
      omega
    rw [hadd, hsecs, toNat_nsec (by omega), hrem]
    rfl
  · rw [BitVec.le_def, htoNat, h1000] at hge
    have hdiv : (1000 * sec + d) / 1000 = sec := by omega
    have hmod : (1000 * sec + d) % 1000 = d := by omega
    rw [hdiv] at hsecs
    rw [hsecs, toNat_nsec (by omega), htoNat, uptime, hdiv, hmod, ← hsec]

end Ticks

/-- How far apart two successive calls may be. -/
def TickGap (t t' : ℕ) : Prop := t ≤ t' ∧ t' - t ≤ 2 ^ 32 - 1000

instance (t t' : ℕ) : Decidable (TickGap t t') := inferInstanceAs (Decidable (_ ∧ _))

lemma timesGot_eq {st : TimeState} {clocks : List ClockReading} {sec : ℕ} {ts : List ℕ}
    (hmethod : st.method = .tickCount) (hsec : st.lastSec = BitVec.ofNat 32 sec)
    (hticks : clocks.map ClockReading.tickCount = ts.map (BitVec.ofNat 32))
    (hfirst : ∀ t ∈ ts.head?, 1000 * sec ≤ t ∧ t < 1000 * sec + 2 ^ 32)
    (hgaps : ts.IsChain TickGap) (hmax : ∀ t ∈ ts, t < 1000 * 2 ^ 32) :
    timesGot st clocks = ts.map uptime := by
  induction ts generalizing st clocks sec with
  | nil =>
    rw [List.map_nil, List.map_eq_nil_iff] at hticks
    rw [hticks, timesGot, List.map_nil]
  | cons t ts ih =>
    obtain ⟨clock, clocks, rfl, htick, hticks⟩ := List.map_eq_cons_iff.mp hticks
    obtain ⟨hgap, hgaps⟩ := List.isChain_cons.mp hgaps
    obtain ⟨hle, hlt⟩ := hfirst t rfl
    have hget : ivTimeGet clock st =
        (uptime t, { st with lastSec := BitVec.ofNat 32 (t / 1000) }) := by
      rw [ivTimeGet, if_neg (by rw [hmethod]; decide), htick]
      exact tickTimeGet_eq hsec hle hlt (hmax t List.mem_cons_self)
    rw [timesGot, hget, List.map_cons]
    refine congrArg (uptime t :: ·) (ih hmethod rfl hticks ?_ hgaps fun u hu => ?_)
    · -- `last_sec` is up to 999 ms behind the call
      intro u hu
      obtain ⟨htu, hut⟩ := hgap u hu
      omega
    · exact hmax u (List.mem_cons_of_mem _ hu)

/-- Successive calls in the mode that uses `GetTickCount` return the uptime, however often the
counter has wrapped, if the first one is made before it wraps and no two of them are a whole turn
of it apart. -/
theorem tickCount_exact {st : TimeState} {clocks : List ClockReading} {ts : List ℕ}
    (hmethod : st.method = .tickCount) (hinit : st.lastSec = 0)
    (hticks : clocks.map ClockReading.tickCount = ts.map fun t => BitVec.ofNat 32 (t % 2 ^ 32))
    (hfirst : ∀ t ∈ ts.head?, t < 2 ^ 32) (hgaps : ts.IsChain TickGap)
    (hmax : ∀ t ∈ ts, t < 1000 * 2 ^ 32) :
    timesGot st clocks = ts.map fun t => ⟨(t / 1000 : ℕ), (t % 1000 * 10 ^ 6 : ℕ)⟩ := by
  have hticks' : clocks.map ClockReading.tickCount = ts.map (BitVec.ofNat 32) := by
    rw [hticks]
    refine List.map_congr_left fun t _ => BitVec.eq_of_toNat_eq ?_
    rw [BitVec.toNat_ofNat, BitVec.toNat_ofNat, Nat.mod_mod]
  refine timesGot_eq hmethod hinit hticks' (fun t ht => ?_) hgaps hmax
  exact ⟨Nat.zero_le t, by simpa using hfirst t ht⟩

/-- Four calls after `iv_time_init`, between which the counter wraps twice. -/
theorem tickCount_exact_wrapped :
    timesGot (ivTimeInit none ⟨.unknown, 0, 0⟩)
        ([5500, 4294967200, 4294966200, 999].map (⟨none, ·⟩)) =
      [⟨5, 500000000⟩, ⟨4294967, 200000000⟩, ⟨8589933, 496000000⟩, ⟨8589935, 591000000⟩] := by
  exact @tickCount_exact _ ([5500, 4294967200, 4294966200, 999].map (⟨none, ·⟩))
    [5500, 4294967200, 8589933496, 8589935591] rfl rfl (by decide) (by decide) (by decide)
    (by decide)

end Ivykis
