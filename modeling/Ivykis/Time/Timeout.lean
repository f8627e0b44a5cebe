import Ivykis.Basic

/-!
# Timeouts (`iv_private.h`, `iv_fd_epoll.c`)

A deadline is an absolute time. The system calls that wait take a duration, some of them as a
`struct timespec` and the others in milliseconds, as an `int`. A duration in milliseconds is
rounded up, so that the deadline has passed when the call returns, and is cut off at one day.
-/

namespace Ivykis

/-! ### The conversions -/

/-- The result of arithmetic on `time_t` and `long`, which have 64 bits. -/
def checkLong (n : ℤ) : Except Fault ℤ :=
  if -2 ^ 63 ≤ n ∧ n < 2 ^ 63 then .ok n else .error .intOverflow

/-- The conversion of a `long` to `int`. -/
def intOfLong (n : ℤ) : ℤ := n.bmod (2 ^ 32)

/-- `st->time` and `st->time_valid`. -/
structure CachedTime where
  time      : Timespec
  timeValid : Bool
  deriving DecidableEq, Repr

/-- `if (!st->time_valid) { ... }`, where `clock` is what `iv_time_get` stores. -/
def CachedTime.validate (clock : Timespec) (st : CachedTime) : CachedTime :=
  if st.timeValid then st else ⟨clock, true⟩

/-- What `to_relative` stores in `*rel`. -/
def relativeTo (now abs : Timespec) : Except Fault Timespec := do
  if timespecGt abs now then
    let sec ← checkLong (abs.tvSec - now.tvSec)
    let nsec ← checkLong (abs.tvNsec - now.tvNsec)
    if nsec < 0 then
      let sec ← checkLong (sec - 1)
      let nsec ← checkLong (nsec + 1000000000)
      .ok ⟨sec, nsec⟩
    else .ok ⟨sec, nsec⟩
  else .ok ⟨0, 0⟩

/-- `to_relative`. -/
def toRelative (clock : Timespec) (st : CachedTime) :
    Option Timespec → Except Fault (Option Timespec × CachedTime)
  | some abs => do
    let st := st.validate clock
    let rel ← relativeTo st.time abs
    .ok (some rel, st)
  | none => .ok (none, st)

/-- `to_msec`. -/
def toMsec (clock : Timespec) (st : CachedTime) :
    Option Timespec → Except Fault (ℤ × CachedTime)
  | some abs => do
    let st := st.validate clock
    let rel ← relativeTo st.time abs
    if rel.tvSec < 86400 then
      let sec ← checkLong (1000 * rel.tvSec)
      let nsec ← checkLong (rel.tvNsec + 999999)
      let msec ← checkLong (sec + nsec.tdiv 1000000)
      .ok (intOfLong msec, st)
    else .ok (86400000, st)
  | none => .ok (-1, st)

/-! ### The calls that wait -/

/-- The call that `iv_fd_epoll_wait` waits in. -/
inductive WaitCall where
  | epollPwait2 (timeout : Option Timespec)
  | epollWait (timeout : ℤ)
  deriving DecidableEq, Repr

/-- `iv_fd_epoll_wait`. `support` is `epoll_pwait2_support`, and `refused` says that `epoll_pwait2`
fails with `EPERM` or `ENOSYS`, which it does without waiting. -/
def ivFdEpollWait (clock : Timespec) (refused support : Bool) (st : CachedTime)
    (abs : Option Timespec) : Except Fault (WaitCall × Bool × CachedTime) := do
  if support then
    let (rel, st) ← toRelative clock st abs
    if !refused then .ok (.epollPwait2 rel, true, st)
    else
      let (msec, st) ← toMsec clock st abs
      .ok (.epollWait msec, false, st)
  else
    let (msec, st) ← toMsec clock st abs
    .ok (.epollWait msec, false, st)

/-- A time in nanoseconds. -/
def Timespec.ns (t : Timespec) : ℤ := t.tvSec * 10 ^ 9 + t.tvNsec

/-- After how many nanoseconds a call returns if nothing happens. -/
def WaitCall.duration : WaitCall → Option ℤ
  | .epollPwait2 timeout => timeout.map Timespec.ns
  | .epollWait timeout   => if timeout < 0 then none else some (timeout * 10 ^ 6)

/-! ### What is converted -/

/-- The nanoseconds are less than a second, and the seconds are not negative. -/
structure Timespec.Normalised (t : Timespec) : Prop where
  sec_nonneg  : 0 ≤ t.tvSec
  sec_lt      : t.tvSec < 2 ^ 63
  nsec_nonneg : 0 ≤ t.tvNsec
  nsec_lt     : t.tvNsec < 10 ^ 9

section Convert

variable {n : ℤ} {abs now rel clock : Timespec} {st : CachedTime}

lemma checkLong_eq (hlow : -2 ^ 63 ≤ n) (hhigh : n < 2 ^ 63) : checkLong n = .ok n :=
  if_pos ⟨hlow, hhigh⟩

lemma intOfLong_eq (hlow : 0 ≤ n) (hhigh : n ≤ intMax) : intOfLong n = n := by
  rw [intMax] at hhigh
  exact Int.bmod_eq_of_le (by omega) (by omega)

/-- On normalised times `timespec_gt` compares nanoseconds. -/
lemma Timespec.Normalised.lt_iff (habs : abs.Normalised) (hnow : now.Normalised) :
    now < abs ↔ now.ns < abs.ns := by
  obtain ⟨-, -, ha₃, ha₄⟩ := habs
  obtain ⟨-, -, hn₃, hn₄⟩ := hnow
  rw [← timespecGt_iff, timespecGt_eq_true]
  simp only [Timespec.ns]
  omega

lemma validate_validate (clock : Timespec) (st : CachedTime) :
    (st.validate clock).validate clock = st.validate clock := by
  unfold CachedTime.validate
  split_ifs <;> rfl

/-- The difference is exact, with a borrow or without. -/
lemma relativeTo_eq (habs : abs.Normalised) (hnow : now.Normalised) :
    ∃ rel, relativeTo now abs = .ok rel ∧ rel.Normalised ∧
      rel.ns = max 0 (abs.ns - now.ns) := by
  obtain ⟨ha₁, ha₂, ha₃, ha₄⟩ := habs
  obtain ⟨hn₁, hn₂, hn₃, hn₄⟩ := hnow
  cases hgt : timespecGt abs now with
  | false =>
    refine ⟨⟨0, 0⟩, by simp [relativeTo, hgt], ⟨by simp, by simp, by simp, by simp⟩, ?_⟩
    rw [timespecGt_eq_false] at hgt
    simp only [Timespec.ns]
    omega
  | true =>
    have hgt' := timespecGt_eq_true.mp hgt
    simp only [relativeTo, hgt, if_true, ok_bind,
      checkLong_eq (n := abs.tvSec - now.tvSec) (by omega) (by omega),
      checkLong_eq (n := abs.tvNsec - now.tvNsec) (by omega) (by omega)]
    split_ifs with hneg
    · -- there is a second to borrow from
      rw [checkLong_eq (by omega) (by omega), ok_bind, checkLong_eq (by omega) (by omega), ok_bind]
      refine ⟨_, rfl, ⟨?_, ?_, ?_, ?_⟩, ?_⟩ <;> simp only [Timespec.ns] <;> omega
    · refine ⟨_, rfl, ⟨?_, ?_, ?_, ?_⟩, ?_⟩ <;> simp only [Timespec.ns] <;> omega

lemma toRelative_eq (h : relativeTo (st.validate clock).time abs = .ok rel) :
    toRelative clock st (some abs) = .ok (some rel, st.validate clock) := by
  simp only [toRelative, h, ok_bind]

/-- The duration in milliseconds, rounded up. -/
lemma toMsec_eq (h : relativeTo (st.validate clock).time abs = .ok rel) (hrel : rel.Normalised) :
    ∃ m, toMsec clock st (some abs) = .ok (m, st.validate clock) ∧
      (rel.ns < 86400 * 10 ^ 9 → rel.ns ≤ m * 10 ^ 6 ∧ m * 10 ^ 6 < rel.ns + 10 ^ 6) ∧
      (86400 * 10 ^ 9 ≤ rel.ns → m = 86400000) := by
  obtain ⟨h₁, h₂, h₃, h₄⟩ := hrel
  simp only [toMsec, h, ok_bind]
  split_ifs with hday
  · have htdiv : (rel.tvNsec + 999999).tdiv 1000000 = (rel.tvNsec + 999999) / 1000000 :=
      Int.tdiv_eq_ediv_of_nonneg (by omega)
    rw [checkLong_eq (by omega) (by omega), ok_bind, checkLong_eq (by omega) (by omega), ok_bind,
      htdiv, checkLong_eq (by omega) (by omega), ok_bind,
      intOfLong_eq (by omega) (by rw [intMax]; omega)]
    refine ⟨_, rfl, ?_, ?_⟩ <;> simp only [Timespec.ns] <;> omega
  · refine ⟨_, rfl, ?_, fun _ => rfl⟩
    simp only [Timespec.ns]
    omega

end Convert

/-- A deadline `abs` at the time `now`. Its distance is converted exactly to a `struct timespec`; in
milliseconds it is rounded up, is `0` only if the deadline has passed, and is at most a day. So
`epoll_wait` does not return before `epoll_pwait2` would, if the deadline is less than a day away,
and less than a millisecond after it; and it does not return at once before the deadline. -/
theorem timeout_conversion {clock abs now : Timespec} {st : CachedTime}
    (hvalid : (st.validate clock).time = now) (habs : abs.Normalised) (hnow : now.Normalised) :
    (∃ rel, toRelative clock st (some abs) = .ok (some rel, st.validate clock) ∧ rel.Normalised ∧
      rel.ns = max 0 (abs.ns - now.ns)) ∧
    (∃ m, toMsec clock st (some abs) = .ok (m, st.validate clock) ∧ (m = 0 ↔ abs ≤ now) ∧
      (now < abs → 1 ≤ m ∧ m ≤ 86400000 ∧ m ≤ intMax) ∧
      (now < abs → abs.ns - now.ns < 86400 * 10 ^ 9 →
        abs.ns - now.ns ≤ m * 10 ^ 6 ∧ m * 10 ^ 6 < abs.ns - now.ns + 10 ^ 6) ∧
      (86400 * 10 ^ 9 ≤ abs.ns - now.ns → m = 86400000)) ∧
    ∃ call call' d d',
      ivFdEpollWait clock false true st (some abs) = .ok (call, true, st.validate clock) ∧
      (∀ refused support, refused = true ∨ support = false →
        ivFdEpollWait clock refused support st (some abs) = .ok (call', false, st.validate clock)) ∧
      call.duration = some d ∧ call'.duration = some d' ∧
      (abs.ns - now.ns < 86400 * 10 ^ 9 → d ≤ d' ∧ d' < d + 10 ^ 6) ∧ (now < abs → 0 < d') := by
  obtain ⟨rel, hrel, hnorm, hns⟩ := relativeTo_eq habs hnow
  rw [← hvalid] at hrel
  obtain ⟨m, hm, hbelow, habove⟩ := toMsec_eq hrel hnorm
  have hrelative := toRelative_eq hrel
  have hlt := habs.lt_iff hnow
  have hle : abs ≤ now ↔ abs.ns ≤ now.ns := by rw [← not_lt, hlt, not_lt]
  rw [hlt, hle]
  refine ⟨⟨rel, hrelative, hnorm, hns⟩, ⟨m, hm, by omega, ?_, by omega, by omega⟩,
    .epollPwait2 (some rel), .epollWait m, rel.ns, m * 10 ^ 6, ?_, fun refused support hpath => ?_,
    rfl, if_neg (by omega), by omega, by omega⟩
  · rw [intMax]
    omega
  · simp [ivFdEpollWait, hrelative]
  · -- `to_msec` is called with the time that `to_relative` may have made valid
    have hagain : toMsec clock (st.validate clock) (some abs) = .ok (m, st.validate clock) := by
      simpa only [toMsec, validate_validate] using hm
    rcases hpath with rfl | rfl
    · cases support <;> simp [ivFdEpollWait, hrelative, hm, hagain]
    · simp [ivFdEpollWait, hm]

/-- A deadline that is 1 ns less than a day away, with a borrow, at a time that has to be read. -/
theorem timeout_conversion_almostADay :
    (∃ rel, toRelative ⟨100, 5⟩ ⟨⟨0, 0⟩, false⟩ (some ⟨86500, 4⟩) =
        .ok (some rel, ⟨⟨100, 5⟩, true⟩) ∧ rel.Normalised ∧ rel.ns = 86400 * 10 ^ 9 - 1) ∧
      ∃ m, toMsec ⟨100, 5⟩ ⟨⟨0, 0⟩, false⟩ (some ⟨86500, 4⟩) = .ok (m, ⟨⟨100, 5⟩, true⟩) ∧
        m = 86400000 := by
  obtain ⟨hrel, ⟨m, hm, -, hrange, hmsec, -⟩, -⟩ := @timeout_conversion ⟨100, 5⟩ ⟨86500, 4⟩
    ⟨100, 5⟩ ⟨⟨0, 0⟩, false⟩ rfl ⟨by decide, by decide, by decide, by decide⟩
    ⟨by decide, by decide, by decide, by decide⟩
  refine ⟨hrel, m, hm, ?_⟩
  obtain ⟨hlow, -⟩ := hmsec (by decide) (by decide)
  obtain ⟨-, hhigh, -⟩ := hrange (by decide)
  simp only [Timespec.ns] at hlow
  omega

end Ivykis
