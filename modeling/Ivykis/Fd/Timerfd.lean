import Mathlib.Tactic.Simps.Basic
import Ivykis.Basic
import Ivykis.Kit.Lts

/-!
# The cached kernel timer (`iv_fd_timeout_check`)

When the same deadline comes up five times in a row, the epoll-timerfd method puts it into a timerfd
and polls without a timeout from then on. The timer is left alone until an earlier deadline comes
up, or until it has expired and has been read.
-/

namespace Ivykis

inductive TimeoutMethod where
  | epollTimerfd
  | epoll
  deriving DecidableEq, Repr

/-- What `iv_fd_poll_and_run` uses for its deadline, with the kernel's view of the timer. -/
structure TimeoutState where
  lastAbs      : Timespec
  lastAbsCount : ℕ
  method       : TimeoutMethod
  /-- `st->u.epoll.timer_fd` has been created. -/
  timerFd      : Bool
  /-- The time at which the timerfd becomes readable, or has become so without being read. -/
  timer        : Option Timespec
  now          : Timespec
  deriving DecidableEq

/-- `timespec_cmp`. -/
def timespecCmp (a : Option Timespec) (b : Timespec) : ℤ :=
  match a with
  | some a =>
    if a.tvSec < b.tvSec then -1
    else if a.tvSec > b.tvSec then 1
    else if a.tvNsec < b.tvNsec then -1
    else if a.tvNsec > b.tvNsec then 1
    else 0
  | none => 1

/-- `timerfd_settime` with an absolute time. It takes no time that is not normalised, and zero turns
the timer off. -/
def timerfdSettime (st : TimeoutState) (val : Timespec) (error : String) :
    Except Fault TimeoutState :=
  if st.timerFd ∧ 0 ≤ val.tvSec ∧ 0 ≤ val.tvNsec ∧ val.tvNsec < 1000000000 then
    .ok { st with timer := if val = ⟨0, 0⟩ then none else some val }
  else .error (.fatal error)

/-- The value that the timer gets for a deadline. -/
def timerValue (abs : Timespec) : Timespec :=
  if abs.tvSec = 0 ∧ abs.tvNsec = 0 then { abs with tvNsec := 1 } else abs

/-- `iv_fd_epoll_timerfd_set_poll_timeout`. A kernel without timerfds (`enosys`) makes it fall back
to the epoll method. -/
def ivFdEpollTimerfdSetPollTimeout (enosys : Bool) (st : TimeoutState) (abs : Timespec) :
    Except Fault (Bool × TimeoutState) :=
  if !st.timerFd && enosys then .ok (false, { st with method := .epoll })
  else do
    let st ← timerfdSettime { st with timerFd := true } (timerValue abs)
      "iv_fd_epoll_timerfd_set_poll_timeout: got error"
    return (true, st)

/-- `iv_fd_epoll_timerfd_clear_poll_timeout`. -/
def ivFdEpollTimerfdClearPollTimeout (st : TimeoutState) : Except Fault TimeoutState :=
  timerfdSettime st ⟨0, 0⟩ "iv_fd_epoll_timerfd_clear_poll_timeout: got error"

/-- The deadline has come up once more. -/
@[simps]
def TimeoutState.countUp (st : TimeoutState) : TimeoutState :=
  { st with
    lastAbsCount := if st.lastAbsCount < 5 then st.lastAbsCount + 1 else st.lastAbsCount }

/-- `iv_fd_timeout_check`, after the timer of an earlier deadline is out of the way. -/
def timeoutCount (enosys : Bool) (st : TimeoutState) (abs : Option Timespec) :
    Except Fault (Bool × TimeoutState) :=
  match abs with
  | some abs =>
    if timespecCmp (some abs) st.lastAbs = 0 then
      let st := st.countUp
      if st.lastAbsCount = 5 then ivFdEpollTimerfdSetPollTimeout enosys st abs else .ok (false, st)
    else .ok (false, { st with lastAbsCount := 1, lastAbs := abs })
  | none => .ok (false, { st with lastAbsCount := 0 })

/-- `iv_fd_timeout_check`. A comparison with `NULL` never gives zero, so that `abs` is there when
the timer is set. -/
def ivFdTimeoutCheck (enosys : Bool) (st : TimeoutState) (abs : Option Timespec) :
    Except Fault (Bool × TimeoutState) := do
  if st.lastAbsCount = 5 then
    if timespecCmp abs st.lastAbs ≥ 0 then return (true, st)
    let st ← ivFdEpollTimerfdClearPollTimeout st
    timeoutCount enosys st abs
  else timeoutCount enosys st abs

/-- How `epoll_wait` returns: when, and whether it was interrupted or has seen the timer. Other
events do not matter here. -/
structure WaitOutcome where
  now         : Timespec
  interrupted : Bool
  timerEvent  : Bool
  deriving DecidableEq

/-- The timerfd can be read. -/
def TimeoutState.readable (st : TimeoutState) : Bool :=
  st.timer.any fun t => decide (t ≤ st.now)

/-- `method->poll`: `iv_fd_epoll_timerfd_poll` or `iv_fd_epoll_poll`, and its result. -/
def methodPoll (st : TimeoutState) (abs : Option Timespec) (out : WaitOutcome) :
    Except Fault (Bool × TimeoutState) :=
  let st := { st with now := out.now }
  match st.method with
  | .epoll => .ok (true, st)
  | .epollTimerfd =>
    if out.interrupted then .ok (abs.isSome, st)
    else if out.timerEvent then
      if st.readable then .ok (true, { st with timer := none })
      else .error (.fatal "iv_fd_epoll_timerfd_poll: got timerfd read error")
    else .ok (abs.isSome, st)

/-- The test of `iv_fd_poll_and_run`: whether to rely on the kernel timer. -/
def usesTimer (enosys : Bool) (st : TimeoutState) (abs : Option Timespec) :
    Except Fault (Bool × TimeoutState) :=
  match st.method with
  | .epollTimerfd => ivFdTimeoutCheck enosys st abs
  -- `method->set_poll_timeout` is `NULL`
  | .epoll => .ok (false, st)

/-- `iv_fd_poll_and_run` up to the loop over the active descriptors, and its result. -/
def ivFdPollAndRun (enosys : Bool) (st : TimeoutState) (abs : Option Timespec) (out : WaitOutcome) :
    Except Fault (Bool × TimeoutState) := do
  let (uses, st) ← usesTimer enosys st abs
  if uses then
    let (runTimers, st) ← methodPoll st none out
    return (runTimers, if runTimers then { st with lastAbsCount := 0 } else st)
  else methodPoll st abs out

/-- A call of `iv_fd_poll_and_run`. -/
structure TimeoutCall where
  abs    : Option Timespec
  enosys : Bool
  out    : WaitOutcome
  deriving DecidableEq

/-- The calls of a thread, one after another. Time does not go back. -/
def timeoutLts (now : Timespec) : Kit.Lts TimeoutState TimeoutCall where
  init := ⟨⟨0, 0⟩, 0, .epollTimerfd, false, none, now⟩
  step st call :=
    if st.now ≤ call.out.now then
      (ivFdPollAndRun call.enosys st call.abs call.out).toOption.map Prod.snd
    else none

/-! ### Deadlines -/

lemma Timespec.le_iff {a b : Timespec} :
    a ≤ b ↔ ¬ (b.tvSec < a.tvSec ∨ (a.tvSec = b.tvSec ∧ b.tvNsec < a.tvNsec)) :=
  timespecGt_eq_false

lemma timespecCmp_eq_zero {a b : Timespec} : timespecCmp (some a) b = 0 ↔ a = b := by
  obtain ⟨asec, ansec⟩ := a
  obtain ⟨bsec, bnsec⟩ := b
  simp only [timespecCmp, Timespec.mk.injEq]
  split_ifs
  · exact iff_of_false (by decide) (by omega)
  · exact iff_of_false (by decide) (by omega)
  · exact iff_of_false (by decide) (by omega)
  · exact iff_of_false (by decide) (by omega)
  · omega

lemma timespecCmp_nonneg {a b : Timespec} : timespecCmp (some a) b ≥ 0 ↔ b ≤ a := by
  unfold timespecCmp
  dsimp only
  rw [Timespec.le_iff]
  split_ifs <;> omega

lemma le_timerValue (abs : Timespec) : abs ≤ timerValue abs := by
  unfold timerValue
  split_ifs with h
  · rw [Timespec.le_iff]
    dsimp only
    omega
  · exact le_rfl

lemma timerValue_mono {a b : Timespec} (h : a ≤ b) : timerValue a ≤ timerValue b := by
  unfold timerValue
  split_ifs with ha hb
  · rw [Timespec.le_iff] at h ⊢
    dsimp only
    omega
  · rw [Timespec.le_iff] at h ⊢
    dsimp only
    omega
  · rw [Timespec.le_iff] at h ⊢
    dsimp only
    omega
  · exact h

lemma timerValue_ne_zero (abs : Timespec) : timerValue abs ≠ ⟨0, 0⟩ := by
  unfold timerValue
  intro h
  split_ifs at h with hzero
  · simp [Timespec.mk.injEq] at h
  · exact hzero ⟨congrArg Timespec.tvSec h, congrArg Timespec.tvNsec h⟩

/-- No deadline is later than any other. -/
def toDeadline : Option Timespec → WithTop Timespec
  | some t => t
  | none   => ⊤

/-! ### The timer is in step with the cache -/

/-- Five in a row: the timer has been set. -/
def TimeoutState.Armed (st : TimeoutState) : Prop :=
  st.timerFd = true ∧ st.timer = some (timerValue st.lastAbs)

structure TimeoutOk (st : TimeoutState) : Prop where
  count_le : st.lastAbsCount ≤ 5
  armed : st.method = .epollTimerfd → st.lastAbsCount = 5 → st.Armed

section Steps

variable {st st' : TimeoutState} {enosys uses ret : Bool} {abs : Option Timespec} {d : Timespec}
  {out : WaitOutcome}

lemma timerfdSettime_eq_ok {val : Timespec} {error : String}
    (h : timerfdSettime st val error = .ok st') :
    st.timerFd = true ∧ st' = { st with timer := if val = ⟨0, 0⟩ then none else some val } := by
  unfold timerfdSettime at h
  by_cases hval : st.timerFd = true ∧ 0 ≤ val.tvSec ∧ 0 ≤ val.tvNsec ∧ val.tvNsec < 1000000000
  · rw [if_pos hval] at h
    exact ⟨hval.1, (Except.ok.inj h).symm⟩
  · rw [if_neg hval] at h
    cases h

/-- The timer is set, or the method is left. -/
lemma setPollTimeout_cases
    (h : ivFdEpollTimerfdSetPollTimeout enosys st d = .ok (uses, st')) :
    (uses = false ∧ st' = { st with method := .epoll }) ∨
      (uses = true ∧ st' = { st with timerFd := true, timer := some (timerValue d) }) := by
  unfold ivFdEpollTimerfdSetPollTimeout at h
  split_ifs at h with hfall
  · obtain ⟨rfl, rfl⟩ := Prod.mk.inj (Except.ok.inj h)
    exact Or.inl ⟨rfl, rfl⟩
  · obtain ⟨st₁, hset, h⟩ := bind_eq_ok.mp h
    obtain ⟨rfl, rfl⟩ := Prod.mk.inj (Except.ok.inj h)
    obtain ⟨-, rfl⟩ := timerfdSettime_eq_ok hset
    exact Or.inr ⟨rfl, by simp [timerValue_ne_zero]⟩

/-- What the test leads to. If the timer is relied on, it is set for a deadline that is not after
the one asked for. -/
structure TimeoutChecked (st' : TimeoutState) (abs : Option Timespec) (uses : Bool) : Prop where
  ok : TimeoutOk st'
  used : uses = true → st'.method = .epollTimerfd ∧ st'.lastAbsCount = 5 ∧
    ∀ d, abs = some d → st'.lastAbs ≤ d
  unused : uses = false → st'.method = .epollTimerfd → st'.lastAbsCount ≠ 5

lemma timeoutCount_checked (hcount : st.lastAbsCount ≤ 5) (hmethod : st.method = .epollTimerfd)
    (h : timeoutCount enosys st abs = .ok (uses, st')) : TimeoutChecked st' abs uses := by
  cases abs with
  | none =>
    obtain ⟨rfl, rfl⟩ := Prod.mk.inj (Except.ok.inj h)
    exact ⟨⟨by simp, by simp⟩, by simp, by simp⟩
  | some d =>
    simp only [timeoutCount, timespecCmp_eq_zero] at h
    by_cases heq : d = st.lastAbs
    · have hle : st.countUp.lastAbsCount ≤ 5 := by
        rw [TimeoutState.countUp_lastAbsCount]
        split_ifs <;> omega
      rw [if_pos heq] at h
      by_cases hfive : st.countUp.lastAbsCount = 5
      · rw [if_pos hfive] at h
        rcases setPollTimeout_cases h with ⟨rfl, rfl⟩ | ⟨rfl, rfl⟩
        · exact ⟨⟨hle, by simp⟩, by simp, by simp⟩
        · refine ⟨⟨hle, fun _ _ => ⟨rfl, ?_⟩⟩, fun _ => ⟨hmethod, hfive, ?_⟩, by simp⟩
          · simp [heq]
          · rintro d' hd
            exact (heq.symm.trans (Option.some.inj hd)).le
      · rw [if_neg hfive] at h
        obtain ⟨rfl, rfl⟩ := Prod.mk.inj (Except.ok.inj h)
        exact ⟨⟨hle, fun _ hf => absurd hf hfive⟩, by simp, fun _ _ => hfive⟩
    · rw [if_neg heq] at h
      obtain ⟨rfl, rfl⟩ := Prod.mk.inj (Except.ok.inj h)
      exact ⟨⟨by simp, by simp⟩, by simp, by simp⟩

lemma usesTimer_checked (hst : TimeoutOk st) (h : usesTimer enosys st abs = .ok (uses, st')) :
    TimeoutChecked st' abs uses := by
  cases hmethod : st.method with
  | epoll =>
    simp only [usesTimer, hmethod, Except.ok.injEq, Prod.mk.injEq] at h
    obtain ⟨rfl, rfl⟩ := h
    exact ⟨hst, by simp, by simp [hmethod]⟩
  | epollTimerfd =>
    simp only [usesTimer, hmethod, ivFdTimeoutCheck] at h
    by_cases hfive : st.lastAbsCount = 5
    · rw [if_pos hfive] at h
      split_ifs at h with hcmp
      · obtain ⟨rfl, rfl⟩ := Prod.mk.inj (Except.ok.inj h)
        refine ⟨hst, fun _ => ⟨hmethod, hfive, ?_⟩, by simp⟩
        rintro d rfl
        exact timespecCmp_nonneg.mp hcmp
      · obtain ⟨st₁, hclear, h⟩ := bind_eq_ok.mp h
        obtain ⟨-, rfl⟩ := timerfdSettime_eq_ok hclear
        refine timeoutCount_checked ?_ ?_ h
        · exact hst.count_le
        · exact hmethod
    · rw [if_neg hfive] at h
      exact timeoutCount_checked hst.count_le hmethod h

/-- The earlier of the timeout and the timer is not after the deadline. -/
lemma TimeoutChecked.min_le (h : TimeoutChecked st' abs uses) :
    min (toDeadline (if uses then none else abs)) (toDeadline st'.timer) ≤
      toDeadline (abs.map timerValue) := by
  cases abs with
  | none => exact le_top
  | some d =>
    cases uses with
    | false => exact (min_le_left _ _).trans (WithTop.coe_le_coe.mpr (le_timerValue d))
    | true =>
      obtain ⟨hmethod, hfive, hle⟩ := h.used rfl
      refine (min_le_right _ _).trans ?_
      rw [(h.ok.armed hmethod hfive).2]
      exact WithTop.coe_le_coe.mpr (timerValue_mono (hle d rfl))

/-- The deadline is taken care of: the timer is set for it. -/
def TimeoutState.Covers (st : TimeoutState) (d : Timespec) : Prop :=
  st.lastAbsCount = 5 ∧ ∃ t, st.timer = some t ∧ t ≤ timerValue d

/-- The ways in which `method->poll` returns. -/
lemma methodPoll_cases (h : methodPoll st abs out = .ok (ret, st')) :
    (st.method = .epoll ∧ ret = true ∧ st' = { st with now := out.now }) ∨
    (st.method = .epollTimerfd ∧ ret = abs.isSome ∧ st' = { st with now := out.now }) ∨
    (st.method = .epollTimerfd ∧ ret = true ∧ st' = { st with now := out.now, timer := none }) := by
  cases hmethod : st.method with
  | epoll =>
    simp only [methodPoll, hmethod, Except.ok.injEq, Prod.mk.injEq] at h
    exact Or.inl ⟨rfl, h.1.symm, h.2.symm⟩
  | epollTimerfd =>
    simp only [methodPoll, hmethod] at h
    split_ifs at h
    · obtain ⟨rfl, rfl⟩ := Prod.mk.inj (Except.ok.inj h)
      exact Or.inr (Or.inl ⟨rfl, rfl, rfl⟩)
    · obtain ⟨rfl, rfl⟩ := Prod.mk.inj (Except.ok.inj h)
      exact Or.inr (Or.inr ⟨rfl, rfl, rfl⟩)
    · obtain ⟨rfl, rfl⟩ := Prod.mk.inj (Except.ok.inj h)
      exact Or.inr (Or.inl ⟨rfl, rfl, rfl⟩)

lemma TimeoutChecked.covers (h : TimeoutChecked st' (some d) true) : st'.Covers d := by
  obtain ⟨hmethod, hfive, hle⟩ := h.used rfl
  exact ⟨hfive, _, (h.ok.armed hmethod hfive).2, timerValue_mono (hle d rfl)⟩

/-- A call keeps the timer in step, and it returns 0 only for a deadline that is covered. -/
lemma ivFdPollAndRun_spec (hst : TimeoutOk st)
    (h : ivFdPollAndRun enosys st abs out = .ok (ret, st')) :
    TimeoutOk st' ∧ (ret = false → ∀ d, abs = some d → st'.Covers d) := by
  obtain ⟨⟨uses, st₁⟩, huses, h⟩ := bind_eq_ok.mp h
  have hchecked := usesTimer_checked hst huses
  obtain ⟨hle, harmed⟩ := hchecked.ok
  cases uses with
  | true =>
    have hmethod := (hchecked.used rfl).1
    obtain ⟨⟨run, st₂⟩, hpoll, h⟩ := bind_eq_ok.mp h
    obtain ⟨rfl, rfl⟩ := Prod.mk.inj (Except.ok.inj h)
    rcases methodPoll_cases hpoll with ⟨hepoll, -⟩ | ⟨-, rfl, rfl⟩ | ⟨-, rfl, rfl⟩
    · rw [hmethod] at hepoll
      cases hepoll
    · refine ⟨⟨hle, harmed⟩, ?_⟩
      rintro - d rfl
      exact hchecked.covers
    · exact ⟨⟨by simp, by simp⟩, by simp⟩
  | false =>
    rcases methodPoll_cases h with ⟨hepoll, rfl, rfl⟩ | ⟨-, rfl, rfl⟩ | ⟨hmethod, rfl, rfl⟩
    · exact ⟨⟨hle, harmed⟩, by simp⟩
    · refine ⟨⟨hle, harmed⟩, ?_⟩
      rintro hret d rfl
      cases hret
    · exact ⟨⟨hle, fun _ hfive => absurd hfive (hchecked.unused rfl hmethod)⟩, by simp⟩

end Steps

section Main

variable {now : Timespec} {tr : List TimeoutCall} {st : TimeoutState}

lemma timeoutOk_of_run (h : (timeoutLts now).Run tr st) : TimeoutOk st := by
  refine h.reachable.invariant ⟨by simp [timeoutLts], by simp [timeoutLts]⟩ ?_
  intro st call st' hst hstep
  obtain ⟨-, hstep⟩ := Option.ite_none_right_eq_some.mp hstep
  obtain ⟨⟨ret, st₁⟩, hcall, rfl⟩ := Option.map_eq_some_iff.mp hstep
  exact (ivFdPollAndRun_spec hst (toOption_eq_some.mp hcall)).1

/-- The loop does not oversleep. Five deadlines in a row have set the timer; the earlier of the
timeout of `method->poll` and the timer is not after the deadline; and if the timers are not run
after the poll, the timer stays set for the deadline. A deadline of zero counts as one
nanosecond. -/
theorem timerfd_noOversleep (h : (timeoutLts now).Run tr st) :
    (st.method = .epollTimerfd → st.lastAbsCount = 5 →
      st.timer = some (timerValue st.lastAbs)) ∧
    (∀ enosys abs uses st', usesTimer enosys st abs = .ok (uses, st') →
      min (toDeadline (if uses then none else abs)) (toDeadline st'.timer) ≤
        toDeadline (abs.map timerValue)) ∧
    ∀ enosys d out st', ivFdPollAndRun enosys st (some d) out = .ok (false, st') →
      st'.lastAbsCount = 5 ∧ ∃ t, st'.timer = some t ∧ t ≤ timerValue d := by
  have hst := timeoutOk_of_run h
  refine ⟨fun hmethod hfive => (hst.armed hmethod hfive).2, ?_, ?_⟩
  · intro enosys abs uses st' huses
    exact (usesTimer_checked hst huses).min_le
  · intro enosys d out st' hcall
    exact (ivFdPollAndRun_spec hst hcall).2 rfl d rfl

/-- An interrupted poll with the deadline zero, as while tasks are pending. -/
def interruptedPoll : TimeoutCall :=
  ⟨some ⟨0, 0⟩, false, ⟨⟨7, 0⟩, true, false⟩⟩

theorem timerfd_noOversleep_zeros :
    ∃ st, (timeoutLts ⟨7, 0⟩).Run (List.replicate 5 interruptedPoll) st ∧ st.lastAbsCount = 5 ∧
      st.timer = some (timerValue st.lastAbs) := by
  obtain ⟨st, hrun, hmethod, hfive⟩ : ∃ st,
      (timeoutLts ⟨7, 0⟩).Run (List.replicate 5 interruptedPoll) st ∧
        st.method = .epollTimerfd ∧ st.lastAbsCount = 5 := ⟨_, rfl, rfl, rfl⟩
  exact ⟨st, hrun, hfive, (timerfd_noOversleep hrun).1 hmethod hfive⟩

/-- The deadline zero comes up for the fifth time, and the poll is interrupted. The call returns 0
while the timer is set for one nanosecond, which is after the deadline. -/
theorem timerfd_zeroDeadline :
    ∃ st st', (timeoutLts ⟨7, 0⟩).Run (List.replicate 4 interruptedPoll) st ∧
      ivFdPollAndRun false st (some ⟨0, 0⟩) ⟨⟨7, 0⟩, true, false⟩ = .ok (false, st') ∧
      st'.timer = some ⟨0, 1⟩ ∧ ¬ (⟨0, 1⟩ : Timespec) ≤ ⟨0, 0⟩ :=
  ⟨_, _, rfl, rfl, rfl, by decide⟩

end Main

end Ivykis
