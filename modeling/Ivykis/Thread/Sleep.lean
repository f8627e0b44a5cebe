import Ivykis.Fd.Timerfd
import Ivykis.Kit.Simulation
import Ivykis.Thread.Advance
import Ivykis.Time.Timeout

/-!
# How long a thread sleeps (`iv_main_posix.c`, `iv_fd.c`)

`iv_main` gives the expiry time of the first timer to `iv_fd_poll_and_run` as a deadline, or zero
while tasks are pending. The deadline is met by the timeout of the call that waits, or by the timer
in the kernel. The timer is set to an absolute time. The timeout is a duration, and is computed
from the cached time, which may have been read at any point after the last wait.

Here a thread runs together with this timer and with the clock. Time passes at any point, but
while the thread waits no more than the kernel needs to end the call.
-/

namespace Ivykis

variable {μ κ : Type}

/-! ### The program -/

instance (t : Timespec) : Decidable t.Normalised :=
  decidable_of_iff (0 ≤ t.tvSec ∧ t.tvSec < 2 ^ 63 ∧ 0 ≤ t.tvNsec ∧ t.tvNsec < 10 ^ 9)
    ⟨fun h => ⟨h.1, h.2.1, h.2.2.1, h.2.2.2⟩,
      fun h => ⟨h.sec_nonneg, h.sec_lt, h.nsec_nonneg, h.nsec_lt⟩⟩

/-- A call that waits, and when it was made. -/
structure Wait where
  call  : WaitCall
  start : Timespec
  deriving DecidableEq

/-- A thread that uses the epoll-timerfd method, with the local variables of `iv_main`. -/
structure MainLoop (μ : Type) where
  thread    : ThreadState μ
  timeout   : TimeoutState
  /-- `epoll_pwait2_support`. -/
  pwait2    : Bool
  abs       : Option Timespec
  /-- What `iv_fd_timeout_check` has returned. -/
  uses      : Bool
  /-- The call that the thread is in. -/
  wait      : Option Wait
  runTimers : Bool
  /-- When the last wait ended. The code does not keep this time. -/
  woke      : Timespec

namespace MainLoop

/-- The clock. -/
def now (s : MainLoop μ) : Timespec := s.timeout.now

/-- The argument `abs` of `method->poll`. -/
def pollAbs (s : MainLoop μ) : Option Timespec :=
  if s.uses then none else s.abs

end MainLoop

/-- The deadline that `iv_main` computes. -/
def mainDeadline (s : ThreadState μ) : Except Fault (Option Timespec) :=
  -- `iv_pending_tasks`
  if s.task.st.tasks ≠ [] then .ok (some ⟨0, 0⟩) else ivGetSoonestTimeout s.timer.st

/-- `st->time` and `st->time_valid`. -/
def ThreadState.cached (s : ThreadState μ) : CachedTime :=
  ⟨s.timer.st.time, s.timer.st.timeValid⟩

/-- The call returns at most `latency` nanoseconds after its timeout, and as long after the time
that the timer is set for. -/
def MainLoop.mayWait (latency : ℤ) (s : MainLoop μ) (now : Timespec) (w : Wait) : Bool :=
  (w.call.duration.all fun d => now.ns ≤ w.start.ns + d + latency) &&
    s.timeout.timer.all fun t => now.ns ≤ max w.start.ns t.ns + latency

inductive MainLabel (κ : Type) where
  /-- It is now `now`. -/
  | tick (now : Timespec)
  /-- User code, or a part of `iv_main` that does not depend on the deadline. -/
  | thread (a : ThreadLabel κ)
  /-- `iv_main` from its exit check on, up to the call of `method->poll`. -/
  | check (enosys : Bool)
  /-- A step of `method->poll` before it waits. -/
  | flush (k : κ)
  /-- `iv_fd_epoll_wait` makes its call. -/
  | block (refused : Bool)
  /-- The call returns; `full` says that there was no room for more events. -/
  | wake (interrupted timerEvent full : Bool) (k : κ)
  /-- `iv_fd_poll_and_run` returns. -/
  | polled

/-- The steps of the thread that are left as they are. The clock is read for the time, and timers
are given normalised times. -/
def MainLoop.allows (s : MainLoop μ) : ThreadLabel κ → Bool
  | .timer (.run now)             => now = s.now
  | .timer (.validateNow now)     => s.thread.userCode && now = s.now
  | .timer .invalidateNow         => s.thread.userCode
  | .timer (.op (.setExpires _ e)) => e.Normalised
  | .check                        => false
  | .poll _                       => false
  | .polled _                     => false
  | _                             => true

section Step

variable (mt : Bool) (P : Poller μ κ)

/-- `iv_main` goes on to `iv_fd_poll_and_run`, unless it returns. -/
def MainLoop.check (s : MainLoop μ) (enosys : Bool) : Option (MainLoop μ) := do
  let thread ← threadStep mt P s.thread .check
  if thread.pc = .poll then
    let abs ← (mainDeadline s.thread).toOption
    let (uses, timeout) ← (usesTimer enosys s.timeout abs).toOption
    some { s with thread := thread, abs := abs, uses := uses, timeout := timeout }
  else some { s with thread := thread }

/-- The thread with the time that `to_relative` or `to_msec` leaves behind. -/
def MainLoop.refresh (s : MainLoop μ) (cached : CachedTime) : Option (ThreadState μ) :=
  if cached = s.thread.cached then some s.thread
  else threadStep mt P s.thread (.timer (.validateNow s.now))

/-- `iv_fd_epoll_wait` up to the call that waits. -/
def MainLoop.block (s : MainLoop μ) (refused : Bool) : Option (MainLoop μ) :=
  if s.thread.pc = .poll ∧ s.wait = none then do
    let (call, pwait2, cached) ←
      (ivFdEpollWait s.now refused s.pwait2 s.thread.cached s.pollAbs).toOption
    let thread ← s.refresh mt P cached
    some { s with thread := thread, pwait2 := pwait2, wait := some ⟨call, s.now⟩ }
  else none

/-- What `iv_fd_poll_and_run` does with the result of `method->poll`. -/
def TimeoutState.afterPoll (st : TimeoutState) (uses runTimers : Bool) : TimeoutState :=
  if uses ∧ runTimers then { st with lastAbsCount := 0 } else st

/-- The rest of `method->poll`, and what `iv_fd_poll_and_run` does with its result. The kernel
reports the timer if there is room for it. -/
def MainLoop.wake (s : MainLoop μ) (interrupted timerEvent full : Bool) (k : κ) :
    Option (MainLoop μ) :=
  if s.wait ≠ none ∧ (s.timeout.readable → timerEvent ∨ interrupted ∨ full) then do
    let thread ← threadStep mt P s.thread (.timer .invalidateNow)
    let thread ← threadStep mt P thread (.poll k)
    let (runTimers, timeout) ←
      (methodPoll s.timeout s.pollAbs ⟨s.now, interrupted, timerEvent⟩).toOption
    if thread.pc = .poll then none
    else some { s with
      thread    := thread
      timeout   := timeout.afterPoll s.uses runTimers
      wait      := none
      runTimers := runTimers
      woke      := s.now }
  else none

def mainStep (latency : ℤ) (s : MainLoop μ) : MainLabel κ → Option (MainLoop μ)
  | .tick now =>
    if s.now ≤ now ∧ now.Normalised ∧ s.wait.all (s.mayWait latency now) then
      some { s with timeout := { s.timeout with now := now } }
    else none
  | .thread a =>
    if s.allows a then (threadStep mt P s.thread a).map fun t => { s with thread := t } else none
  | .check enosys => s.check mt P enosys
  | .flush k =>
    if s.wait = none then
      (threadStep mt P s.thread (.poll k)).bind fun t =>
        if t.pc = .poll then some { s with thread := t } else none
    else none
  | .block refused => s.block mt P refused
  | .wake interrupted timerEvent full k => s.wake mt P interrupted timerEvent full k
  | .polled =>
    (threadStep mt P s.thread (.polled s.runTimers)).map fun t => { s with thread := t }

/-- The runs of a thread that `iv_init` has set up at the time `now`. -/
def mainLts (latency : ℤ) (now : Timespec) (init : ThreadState μ) :
    Kit.Lts (MainLoop μ) (MainLabel κ) where
  init :=
    { thread    := init
      timeout   := ⟨⟨0, 0⟩, 0, .epollTimerfd, false, none, now⟩
      pwait2    := true
      abs       := none
      uses      := false
      wait      := none
      runTimers := true
      woke      := now }
  step := mainStep mt P latency

end Step

/-! ### The thread by itself -/

/-- The steps of the thread in a step of the loop. -/
def MainLabel.threadSteps : MainLabel κ → List (ThreadLabel κ) → Prop
  | .tick _, as       => as = []
  | .thread a, as     => as = [a]
  | .check _, as      => as = [.check]
  | .flush k, as      => as = [.poll k]
  | .block _, as      => as = [] ∨ ∃ now, as = [.timer (.validateNow now)]
  | .wake _ _ _ k, as => as = [.timer .invalidateNow, .poll k]
  | .polled, as       => ∃ runTimers, as = [.polled runTimers]

section Simulation

variable {mt : Bool} {P : Poller μ κ} {latency : ℤ} {s s' : MainLoop μ}

lemma MainLoop.check_eq_some {enosys : Bool} (h : s.check mt P enosys = some s') :
    ∃ thread, threadStep mt P s.thread .check = some thread ∧
      ((thread.pc ≠ .poll ∧ s' = { s with thread := thread }) ∨
        (thread.pc = .poll ∧ ∃ abs uses timeout, mainDeadline s.thread = .ok abs ∧
          usesTimer enosys s.timeout abs = .ok (uses, timeout) ∧
          s' = { s with thread := thread, abs := abs, uses := uses, timeout := timeout })) := by
  simp only [MainLoop.check, Option.bind_eq_bind, Option.bind_eq_some_iff] at h
  obtain ⟨thread, hthread, h⟩ := h
  refine ⟨thread, hthread, ?_⟩
  split_ifs at h with hpc
  · simp only [Option.bind_eq_some_iff, toOption_eq_some] at h
    obtain ⟨abs, habs, ⟨uses, timeout⟩, huses, h⟩ := h
    exact Or.inr ⟨hpc, abs, uses, timeout, habs, huses, (Option.some.inj h).symm⟩
  · exact Or.inl ⟨hpc, (Option.some.inj h).symm⟩

lemma MainLoop.block_eq_some {refused : Bool} (h : s.block mt P refused = some s') :
    s.thread.pc = .poll ∧ s.wait = none ∧ ∃ call pwait2 cached thread,
      ivFdEpollWait s.now refused s.pwait2 s.thread.cached s.pollAbs = .ok (call, pwait2, cached) ∧
      ((cached = s.thread.cached ∧ thread = s.thread) ∨
        threadStep mt P s.thread (.timer (.validateNow s.now)) = some thread) ∧
      s' = { s with thread := thread, pwait2 := pwait2, wait := some ⟨call, s.now⟩ } := by
  obtain ⟨⟨hpc, hwait⟩, h⟩ := Option.ite_none_right_eq_some.mp h
  simp only [Option.bind_eq_bind, Option.bind_eq_some_iff, toOption_eq_some] at h
  obtain ⟨⟨call, pwait2, cached⟩, hcall, thread, hthread, h⟩ := h
  refine ⟨hpc, hwait, call, pwait2, cached, thread, hcall, ?_, (Option.some.inj h).symm⟩
  unfold MainLoop.refresh at hthread
  split_ifs at hthread with hsame
  · exact Or.inl ⟨hsame, (Option.some.inj hthread).symm⟩
  · exact Or.inr hthread

lemma MainLoop.wake_eq_some {interrupted timerEvent full : Bool} {k : κ}
    (h : s.wake mt P interrupted timerEvent full k = some s') :
    s.wait ≠ none ∧ (s.timeout.readable = true → timerEvent ∨ interrupted ∨ full) ∧
    ∃ thread₁ thread runTimers timeout,
      threadStep mt P s.thread (.timer .invalidateNow) = some thread₁ ∧
      threadStep mt P thread₁ (.poll k) = some thread ∧ thread.pc ≠ .poll ∧
      methodPoll s.timeout s.pollAbs ⟨s.now, interrupted, timerEvent⟩ = .ok (runTimers, timeout) ∧
      s' = { s with
        thread    := thread
        timeout   := timeout.afterPoll s.uses runTimers
        wait      := none
        runTimers := runTimers
        woke      := s.now } := by
  obtain ⟨⟨hwait, hroom⟩, h⟩ := Option.ite_none_right_eq_some.mp h
  simp only [Option.bind_eq_bind, Option.bind_eq_some_iff, toOption_eq_some] at h
  obtain ⟨thread₁, hthread₁, thread, hthread, ⟨runTimers, timeout⟩, hpoll, h⟩ := h
  obtain ⟨hpc, h⟩ := Option.ite_none_left_eq_some.mp h
  exact ⟨hwait, hroom, thread₁, thread, runTimers, timeout, hthread₁, hthread, hpc, hpoll,
    (Option.some.inj h).symm⟩

/-- The loop is a run of the thread, in which the times that are read and the value of `run_timers`
have been chosen. -/
lemma mainLts_simulation (latency : ℤ) (now : Timespec) (init : ThreadState μ) :
    Kit.Lts.Simulation (mainLts mt P latency now init) (threadLts mt P init)
      (fun s t => s.thread = t) MainLabel.threadSteps where
  init := rfl
  step {s t a s'} hst h := by
    obtain rfl := hst
    have hone : ∀ {b : ThreadLabel κ} {t' : ThreadState μ}, threadStep mt P s.thread b = some t' →
        (threadLts mt P init).exec s.thread [b] = some t' :=
      fun hb => (Kit.Lts.exec_singleton ..).trans hb
    cases a with
    | tick now =>
      obtain ⟨-, h⟩ := Option.ite_none_right_eq_some.mp h
      obtain rfl := Option.some.inj h
      exact ⟨[], s.thread, rfl, rfl, rfl⟩
    | thread a =>
      obtain ⟨-, h⟩ := Option.ite_none_right_eq_some.mp h
      obtain ⟨t, ht, rfl⟩ := Option.map_eq_some_iff.mp h
      exact ⟨[a], t, rfl, hone ht, rfl⟩
    | check enosys =>
      obtain ⟨t, ht, ⟨-, rfl⟩ | ⟨-, _, _, _, -, -, rfl⟩⟩ := MainLoop.check_eq_some h
      · exact ⟨_, t, rfl, hone ht, rfl⟩
      · exact ⟨_, t, rfl, hone ht, rfl⟩
    | flush k =>
      obtain ⟨-, h⟩ := Option.ite_none_right_eq_some.mp h
      obtain ⟨t, ht, h⟩ := Option.bind_eq_some_iff.mp h
      obtain ⟨-, h⟩ := Option.ite_none_right_eq_some.mp h
      obtain rfl := Option.some.inj h
      exact ⟨_, t, rfl, hone ht, rfl⟩
    | block refused =>
      obtain ⟨-, -, _, _, _, t, -, ⟨-, rfl⟩ | ht, rfl⟩ := MainLoop.block_eq_some h
      · exact ⟨[], s.thread, Or.inl rfl, rfl, rfl⟩
      · exact ⟨_, t, Or.inr ⟨_, rfl⟩, hone ht, rfl⟩
    | wake interrupted timerEvent full k =>
      obtain ⟨-, -, t₁, t, _, _, ht₁, ht, -, -, rfl⟩ := MainLoop.wake_eq_some h
      refine ⟨_, t, rfl, ?_, rfl⟩
      simp only [Kit.Lts.exec, Option.bind_fun_some]
      exact Option.bind_eq_some_iff.mpr ⟨t₁, ht₁, ht⟩
    | polled =>
      obtain ⟨t, ht, rfl⟩ := Option.map_eq_some_iff.mp h
      exact ⟨_, t, ⟨_, rfl⟩, hone ht, rfl⟩

end Simulation

/-! ### The deadline and the timeout -/

/-- How much longer than it should a call may be made to wait. -/
def WaitCall.rounding : WaitCall → ℤ
  | .epollPwait2 _ => 0
  | .epollWait _   => 10 ^ 6 - 1

section Timeout

variable {clock abs : Timespec} {refused support : Bool} {st : CachedTime}

/-- Without a deadline nothing is read, and the call waits for ever. -/
lemma ivFdEpollWait_none (clock : Timespec) (refused support : Bool) (st : CachedTime) :
    ∃ call support', ivFdEpollWait clock refused support st none = .ok (call, support', st) ∧
      call.duration = none := by
  cases support with
  | false => exact ⟨_, _, rfl, rfl⟩
  | true =>
    cases refused with
    | false => exact ⟨_, _, rfl, rfl⟩
    | true => exact ⟨_, _, rfl, rfl⟩

/-- The call waits from the cached time to the deadline, if this has not passed. -/
lemma ivFdEpollWait_some (refused support : Bool) (habs : abs.Normalised)
    (hnow : (st.validate clock).time.Normalised) :
    ∃ call support' d, ivFdEpollWait clock refused support st (some abs)
        = .ok (call, support', st.validate clock) ∧
      call.duration = some d ∧ 0 ≤ d ∧ (d = 0 ∨ (st.validate clock).time.ns < abs.ns ∧
        d ≤ abs.ns - (st.validate clock).time.ns + call.rounding) := by
  obtain ⟨rel, hrel, hnorm, hns⟩ := relativeTo_eq habs hnow
  obtain ⟨m, hm, hbelow, habove⟩ := toMsec_eq hrel hnorm
  have hrelative := toRelative_eq hrel
  have hagain : toMsec clock (st.validate clock) (some abs) = .ok (m, st.validate clock) := by
    simpa only [toMsec, validate_validate] using hm
  have hmsec : (WaitCall.epollWait m).duration = some (m * 10 ^ 6) := if_neg (by omega)
  have hlong : m * 10 ^ 6 = 0 ∨ (st.validate clock).time.ns < abs.ns ∧
      m * 10 ^ 6 ≤ abs.ns - (st.validate clock).time.ns + (WaitCall.epollWait m).rounding := by
    simp only [WaitCall.rounding]
    omega
  cases support with
  | false => exact ⟨.epollWait m, false, _, by simp [ivFdEpollWait, hm], hmsec, by omega, hlong⟩
  | true =>
    cases refused with
    | false =>
      refine ⟨.epollPwait2 (some rel), true, _, by simp [ivFdEpollWait, hrelative], rfl, by omega,
        ?_⟩
      simp only [WaitCall.rounding]
      omega
    | true =>
      exact ⟨.epollWait m, false, _, by simp [ivFdEpollWait, hrelative, hagain], hmsec, by omega,
        hlong⟩

lemma Timespec.Normalised.le_iff {a b : Timespec} (ha : a.Normalised) (hb : b.Normalised) :
    a ≤ b ↔ a.ns ≤ b.ns := by
  rw [← not_lt, ha.lt_iff hb, not_lt]

lemma timerfdSettime_returns {st : TimeoutState} {val : Timespec} (error : String)
    (hfd : st.timerFd = true) (hval : val.Normalised) :
    ∃ st', timerfdSettime st val error = .ok st' :=
  ⟨_, if_pos ⟨hfd, hval.sec_nonneg, hval.nsec_nonneg, hval.nsec_lt⟩⟩

lemma Timespec.Normalised.timerValue (h : abs.Normalised) : (timerValue abs).Normalised := by
  unfold Ivykis.timerValue
  split_ifs
  · exact ⟨h.sec_nonneg, h.sec_lt, by norm_num, by norm_num⟩
  · exact h

lemma timeoutCount_returns {abs : Option Timespec} (enosys : Bool) (st : TimeoutState)
    (habs : ∀ d, abs = some d → d.Normalised) : ∃ res, timeoutCount enosys st abs = .ok res := by
  cases abs with
  | none => exact ⟨_, rfl⟩
  | some d =>
    simp only [timeoutCount, ivFdEpollTimerfdSetPollTimeout]
    split_ifs
    · exact ⟨_, rfl⟩
    · have hfd : { st.countUp with timerFd := true }.timerFd = true := rfl
      obtain ⟨st', hset⟩ := timerfdSettime_returns
        "iv_fd_epoll_timerfd_set_poll_timeout: got error" hfd (habs d rfl).timerValue
      exact ⟨(true, st'), by rw [hset]; rfl⟩
    · exact ⟨_, rfl⟩
    · exact ⟨_, rfl⟩

/-- The test does not touch the clock, and remembers the deadline or leaves the last one. -/
lemma usesTimer_frame {st st' : TimeoutState} {enosys uses : Bool} {abs : Option Timespec}
    (h : usesTimer enosys st abs = .ok (uses, st')) :
    st'.now = st.now ∧ (st'.lastAbs = st.lastAbs ∨ abs = some st'.lastAbs) := by
  have hcount : ∀ {st : TimeoutState}, timeoutCount enosys st abs = .ok (uses, st') →
      st'.now = st.now ∧ (st'.lastAbs = st.lastAbs ∨ abs = some st'.lastAbs) := by
    intro st h
    cases abs with
    | none =>
      obtain ⟨-, rfl⟩ := Prod.mk.inj (Except.ok.inj h)
      exact ⟨rfl, Or.inl rfl⟩
    | some d =>
      simp only [timeoutCount] at h
      split_ifs at h
      · rcases setPollTimeout_cases h with ⟨-, rfl⟩ | ⟨-, rfl⟩ <;> exact ⟨rfl, Or.inl rfl⟩
      · obtain ⟨-, rfl⟩ := Prod.mk.inj (Except.ok.inj h)
        exact ⟨rfl, Or.inl rfl⟩
      · obtain ⟨-, rfl⟩ := Prod.mk.inj (Except.ok.inj h)
        exact ⟨rfl, Or.inr rfl⟩
  cases hmethod : st.method with
  | epoll =>
    simp only [usesTimer, hmethod, Except.ok.injEq, Prod.mk.injEq] at h
    rw [h.2]
    exact ⟨rfl, Or.inl rfl⟩
  | epollTimerfd =>
    simp only [usesTimer, hmethod, ivFdTimeoutCheck] at h
    split_ifs at h
    · obtain ⟨-, rfl⟩ := Prod.mk.inj (Except.ok.inj h)
      exact ⟨rfl, Or.inl rfl⟩
    · obtain ⟨st₁, hclear, h⟩ := bind_eq_ok.mp h
      obtain ⟨-, rfl⟩ := timerfdSettime_eq_ok hclear
      have hframe := hcount h
      exact hframe
    · exact hcount h

/-- The test sets and clears the timer without an error, if the deadline is a normalised time. -/
lemma usesTimer_returns {st : TimeoutState} {abs : Option Timespec} (enosys : Bool)
    (hst : TimeoutOk st) (habs : ∀ d, abs = some d → d.Normalised) :
    ∃ res, usesTimer enosys st abs = .ok res := by
  cases hmethod : st.method with
  | epoll => exact ⟨(false, st), by rw [usesTimer, hmethod]⟩
  | epollTimerfd =>
    simp only [usesTimer, hmethod, ivFdTimeoutCheck]
    split_ifs with hfive hcmp
    · exact ⟨_, rfl⟩
    · have hzero : (⟨0, 0⟩ : Timespec).Normalised := by decide
      obtain ⟨st', hclear⟩ := timerfdSettime_returns
        "iv_fd_epoll_timerfd_clear_poll_timeout: got error" (hst.armed hmethod hfive).1 hzero
      obtain ⟨res, hcount⟩ := timeoutCount_returns enosys st' habs
      exact ⟨res, by rw [ivFdEpollTimerfdClearPollTimeout, hclear]; exact hcount⟩
    · exact timeoutCount_returns enosys st habs

lemma TimeoutChecked.withNow {st : TimeoutState} {abs : Option Timespec} {uses : Bool}
    (h : TimeoutChecked st abs uses) (now : Timespec) :
    TimeoutChecked { st with now := now } abs uses :=
  ⟨⟨h.ok.count_le, h.ok.armed⟩, h.used, h.unused⟩

lemma methodPoll_frame {st st' : TimeoutState} {abs : Option Timespec} {out : WaitOutcome}
    {uses runTimers : Bool} (h : methodPoll st abs out = .ok (runTimers, st')) :
    (st'.afterPoll uses runTimers).now = out.now ∧
      (st'.afterPoll uses runTimers).lastAbs = st.lastAbs := by
  unfold TimeoutState.afterPoll
  rcases methodPoll_cases h with ⟨-, -, rfl⟩ | ⟨-, -, rfl⟩ | ⟨-, -, rfl⟩
  · split_ifs <;> exact ⟨rfl, rfl⟩
  · split_ifs <;> exact ⟨rfl, rfl⟩
  · split_ifs <;> exact ⟨rfl, rfl⟩

/-- A timer event makes the timers run. -/
lemma methodPoll_timerEvent {st st' : TimeoutState} {abs : Option Timespec} {out : WaitOutcome}
    {runTimers : Bool} (hmethod : st.method = .epollTimerfd) (hout : out.interrupted = false)
    (hevent : out.timerEvent = true) (h : methodPoll st abs out = .ok (runTimers, st')) :
    runTimers = true := by
  simp only [methodPoll, hmethod, hout, hevent, if_true, Bool.false_eq_true, if_false] at h
  split_ifs at h
  exact (Prod.mk.inj (Except.ok.inj h)).1.symm

end Timeout

/-- The deadline is not after the expiry time of any timer, and it is zero while tasks are
pending. -/
lemma mainDeadline_spec {mt : Bool} {s : ThreadState μ} (h : s.Ok mt)
    (hnormal : ∀ t, (s.timer.st.expires t).Normalised) :
    ∃ abs, mainDeadline s = .ok abs ∧ (∀ d, abs = some d → d.Normalised) ∧
      (∀ t, 1 ≤ s.timer.st.index t → ∃ d, abs = some d ∧ d ≤ s.timer.st.expires t) ∧
      (s.task.st.tasks ≠ [] → abs = some ⟨0, 0⟩) := by
  unfold mainDeadline
  split_ifs with htasks
  · refine ⟨_, rfl, ?_, fun t _ => ⟨_, rfl, ?_⟩, fun _ => rfl⟩
    · rintro d hd
      obtain rfl := Option.some.inj hd
      decide
    · obtain ⟨h₁, -, h₃, -⟩ := hnormal t
      rw [Timespec.le_iff]
      dsimp only
      omega
  · obtain ⟨A, htree, hv⟩ := h.timer.timers.heap
    by_cases hn : s.timer.st.numTimers = 0
    · refine ⟨none, by rw [ivGetSoonestTimeout, if_neg (not_not.mpr hn)], by simp, ?_,
        fun h => absurd h htasks⟩
      intro t ht
      have hle : s.timer.st.index t ≤ s.timer.st.numTimers := hv.index_le ht
      omega
    · obtain ⟨t, ht, heq, hmin⟩ := htree.getSoonestTimeout_eq hv hn
      refine ⟨_, heq, ?_, fun u hu => ⟨_, rfl, hmin u hu⟩, fun h => absurd h htasks⟩
      rintro d hd
      obtain rfl := Option.some.inj hd
      exact hnormal t

end Ivykis
