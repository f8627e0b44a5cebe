import Ivykis.Thread.Sleep

/-!
# Deadlines are kept

A thread does not sleep longer than its first timer allows, and the timers that are due when it
wakes up are run.
-/

namespace Ivykis

variable {μ κ : Type}

/-! ### What holds while a thread polls and waits -/

namespace MainLoop

variable {mt : Bool} {P : Poller μ κ} {latency : ℤ} {s s' : MainLoop μ}

/-- A time that has been read after the last wait. -/
structure Recent (woke now t : Timespec) : Prop where
  woke_le : woke ≤ t
  le_now  : t ≤ now
  normal  : t.Normalised

/-- The deadline has been computed, and `iv_fd_timeout_check` has been asked about it. -/
structure Polling (s : MainLoop μ) : Prop where
  first  : ∀ t, 1 ≤ s.thread.timer.st.index t →
    ∃ d, s.abs = some d ∧ d ≤ s.thread.timer.st.expires t
  tasks  : s.thread.task.st.tasks ≠ [] → s.abs = some ⟨0, 0⟩
  normal : ∀ d, s.abs = some d → d.Normalised
  asked  : ∃ enosys st st', TimeoutOk st ∧ usesTimer enosys st s.abs = .ok (s.uses, st') ∧
    s.timeout = { st' with now := s.now }

/-- The call has been made with a timeout that is long enough for the deadline, and too long by no
more than the time since the last wait. -/
structure Waiting (latency : ℤ) (s : MainLoop μ) (w : Wait) : Prop where
  pc    : s.thread.pc = .poll
  start : Recent s.woke s.now w.start
  may   : s.mayWait latency s.now w = true
  timed : ∀ d, s.pollAbs = some d → ∃ dur, w.call.duration = some dur ∧
    (dur = 0 ∨ s.woke.ns < d.ns ∧ dur ≤ d.ns - s.woke.ns + w.call.rounding)

structure Ok (latency : ℤ) (s : MainLoop μ) : Prop where
  timeout : TimeoutOk s.timeout
  lastAbs : s.timeout.lastAbs.Normalised
  expires : ∀ t, (s.thread.timer.st.expires t).Normalised
  woke    : Recent s.woke s.now s.woke
  clock   : s.now.Normalised
  cached  : s.thread.timer.st.timeValid = true → Recent s.woke s.now s.thread.timer.st.time
  polling : s.thread.pc = .poll → s.Polling
  waiting : ∀ w, s.wait = some w → s.Waiting latency w
  covered : s.thread.pc = .dispatch → s.runTimers = false → ∀ d, s.abs = some d →
    s.timeout.Covers d

/-- The timers have normalised times, and the cached time has been read after the last wait. -/
def TimesOk (woke now : Timespec) (t : ThreadState μ) : Prop :=
  (∀ u, (t.timer.st.expires u).Normalised) ∧
    (t.timer.st.timeValid = true → Recent woke now t.timer.st.time)

lemma Ok.timesOk {t : ThreadState μ} (h : s.Ok latency) (heq : t.timer = s.thread.timer) :
    TimesOk s.woke s.now t := by
  rw [TimesOk, heq]
  exact ⟨h.expires, h.cached⟩

lemma Polling.checked (h : s.Polling) : TimeoutChecked s.timeout s.abs s.uses := by
  obtain ⟨enosys, st, st', hst, huses, heq⟩ := h.asked
  rw [heq]
  exact (usesTimer_checked hst huses).withNow _

lemma Ok.recent_now (h : s.Ok latency) : Recent s.woke s.now s.now :=
  ⟨h.woke.le_now, le_rfl, h.clock⟩

lemma Recent.tick {woke now now' t : Timespec} (h : Recent woke now t) (hle : now ≤ now') :
    Recent woke now' t :=
  ⟨h.woke_le, h.le_now.trans hle, h.normal⟩

lemma Ok.tick {now : Timespec} (h : s.Ok latency) (hle : s.now ≤ now) (hnow : now.Normalised)
    (hwait : s.wait.all (s.mayWait latency now) = true) :
    Ok latency { s with timeout := { s.timeout with now := now } } where
  timeout := ⟨h.timeout.count_le, h.timeout.armed⟩
  lastAbs := h.lastAbs
  expires := h.expires
  woke := h.woke.tick hle
  clock := hnow
  cached hvalid := (h.cached hvalid).tick hle
  polling hpc := by
    obtain ⟨hfirst, htasks, hnormal, enosys, st, st', hst, huses, heq⟩ := h.polling hpc
    refine ⟨hfirst, htasks, hnormal, enosys, st, st', hst, huses, ?_⟩
    dsimp only [MainLoop.now]
    rw [heq]
  waiting w hw := by
    obtain ⟨hpc, hstart, -, htimed⟩ := h.waiting w hw
    refine ⟨hpc, hstart.tick hle, ?_, htimed⟩
    dsimp only at hw
    rw [hw] at hwait
    exact hwait
  covered := h.covered

/-- A poll that is under way stays as it is, and none begins. -/
def SamePoll (t t' : ThreadState μ) : Prop :=
  (t.pc = .poll → t'.pc = .poll ∧ t'.timer = t.timer ∧ t'.task.st.tasks = t.task.st.tasks) ∧
    (t'.pc = .poll → t.pc = .poll) ∧ (t'.pc = .dispatch → t.pc = .dispatch)

/-- What the steps of user code and of the other parts of `iv_main` mean for a poll. -/
lemma samePoll_of_allows {a : ThreadLabel κ} {t : ThreadState μ} (ha : s.allows a = true)
    (h : ThreadState.Advance s.thread a t) : SamePoll s.thread t := by
  -- user code does not run during a poll
  have huser (huser : s.thread.userCode = true) (hsame : t.pc = s.thread.pc) :
      SamePoll s.thread t := by
    rw [SamePoll, hsame]
    refine ⟨fun hpc => ?_, id, id⟩
    simp [ThreadState.userCode, hpc] at huser
  cases h with
  | user _ hsame hcode => exact huser hcode hsame.pc
  | @timer b _ _ hpc =>
    rcases MainPc.onTimer_cases hpc with ⟨hsame, hb⟩ | ⟨hfrom, hto⟩
    · refine huser ?_ hsame
      rcases hb with hcode | rfl | ⟨now, rfl⟩
      · exact hcode
      · exact ha
      · exact (Bool.and_eq_true_iff.mp ha).1
    · rcases hfrom with hfrom | hfrom <;> rcases hto with hto | hto <;>
        simp [SamePoll, hfrom, hto]
  | @task b _ _ hpc ht htask htimer =>
    rcases MainPc.onTask_cases hpc with ⟨hsame, hcode | ⟨t, e, rfl⟩⟩ | ⟨hfrom, hto⟩
    · exact huser hcode hsame
    · rw [SamePoll, hsame]
      refine ⟨fun hpc => ⟨hpc, htimer, ?_⟩, id, id⟩
      rw [htask]
      exact ht.initElsewhere_tasks
    · rcases hfrom with hfrom | hfrom <;> rcases hto with hto | hto <;>
        simp [SamePoll, hfrom, hto]
  | main hpc hpc' htimer => simp [SamePoll, hpc, hpc']
  | check | poll | polled => cases ha
  | round hpc hpc' htimer => simp [SamePoll, hpc, hpc']

lemma Polling.of_thread {t : ThreadState μ} (h : s.Polling)
    (hindex : t.timer.st.index = s.thread.timer.st.index)
    (hexpires : t.timer.st.expires = s.thread.timer.st.expires)
    (htasks : t.task.st.tasks = s.thread.task.st.tasks) : Polling { s with thread := t } := by
  obtain ⟨hfirst, hzero, hnormal, hasked⟩ := h
  refine ⟨?_, ?_, hnormal, hasked⟩
  · dsimp only
    rwa [hindex, hexpires]
  · dsimp only
    rwa [htasks]

/-- The rules for the timers. -/
lemma Ok.timers {a : ThreadLabel κ} {t : ThreadState μ} (h : s.Ok latency)
    (hthread : s.thread.Ok mt) (hadv : ThreadState.Advance s.thread a t)
    (hread : ∀ now, a = .timer (.run now) ∨ a = .timer (.validateNow now) → now = s.now)
    (hset : ∀ u e, a = .timer (.op (.setExpires u e)) → e.Normalised) :
    TimesOk s.woke s.now t := by
  cases hadv with
  | user _ hplace => exact h.timesOk hplace.timer
  | task hpc ht htask htimer => exact h.timesOk htimer
  | main _ _ htimer => exact h.timesOk htimer
  | check _ _ htimer => exact h.timesOk htimer
  | poll _ _ htimer => exact h.timesOk htimer
  | round _ _ htimer => exact h.timesOk htimer
  | polled _ _ htimer => exact h.timesOk htimer
  | timer hpc ht heq =>
    have hok : TimerLoop.Ok
        { s.thread.timer with st := { s.thread.timer.st with numobjs := s.thread.numobjs } } :=
      ⟨hthread.timer.timers.of_same _ _ _, hthread.timer.outside⟩
    rw [TimesOk, heq]
    refine ⟨ht.expires hok h.expires fun u e hb => hset u e (by rw [hb]), ht.cached hok h.cached ?_⟩
    rintro now hb
    rw [hread now (hb.imp (congrArg _) (congrArg _))]
    exact h.recent_now

/-- A step of the thread by itself. -/
lemma Ok.of_thread {t : ThreadState μ} (h : s.Ok latency) (htimers : TimesOk s.woke s.now t)
    (hpoll : t.pc = .poll → Polling { s with thread := t })
    (hwait : s.wait ≠ none → t.pc = .poll) (hpc : t.pc = .dispatch → s.thread.pc = .dispatch) :
    Ok latency { s with thread := t } where
  timeout := h.timeout
  lastAbs := h.lastAbs
  expires := htimers.1
  woke := h.woke
  clock := h.clock
  cached := htimers.2
  polling := hpoll
  waiting w hw := by
    obtain ⟨-, hstart, hmay, htimed⟩ := h.waiting w hw
    refine ⟨hwait ?_, hstart, hmay, htimed⟩
    rw [show s.wait = some w from hw]
    nofun
  covered hdispatch := h.covered (hpc hdispatch)

lemma Ok.not_waiting (h : s.Ok latency) (hpc : s.thread.pc ≠ .poll) : s.wait = none := by
  cases hw : s.wait with
  | none => rfl
  | some w => exact absurd (h.waiting w hw).pc hpc

lemma Ok.thread_step {a : ThreadLabel κ} {t : ThreadState μ} (h : s.Ok latency)
    (hthread : s.thread.Ok mt) (ha : s.allows a = true)
    (hs : threadStep mt P s.thread a = some t) : Ok latency { s with thread := t } := by
  have hadv := ThreadState.Advance.of_step hs
  obtain ⟨hpoll, hfrom, hdispatch⟩ := samePoll_of_allows ha hadv
  refine h.of_thread (h.timers hthread hadv ?_ ?_) ?_ ?_ hdispatch
  · rintro now (rfl | rfl)
    · exact of_decide_eq_true ha
    · exact of_decide_eq_true (Bool.and_eq_true_iff.mp ha).2
  · rintro u e rfl
    exact of_decide_eq_true ha
  · intro hpc
    obtain ⟨-, htimer, htasks⟩ := hpoll (hfrom hpc)
    exact (h.polling (hfrom hpc)).of_thread (by rw [htimer]) (by rw [htimer]) htasks
  · intro hwait
    obtain ⟨w, hw⟩ := Option.ne_none_iff_exists'.mp hwait
    exact (hpoll (h.waiting w hw).pc).1

lemma Ok.flush {k : κ} {t : ThreadState μ} (h : s.Ok latency) (hwait : s.wait = none)
    (hs : threadStep mt P s.thread (.poll k) = some t) (hpc' : t.pc = .poll) :
    Ok latency { s with thread := t } := by
  cases ThreadState.Advance.of_step hs with
  | user ha => cases ha
  | poll hpc _ htimer htask =>
    refine h.of_thread (h.timesOk htimer) ?_ (fun hne => absurd hwait hne) ?_
    · exact fun _ => (h.polling hpc).of_thread (by rw [htimer]) (by rw [htimer]) (by rw [htask])
    · simp [hpc']

lemma Ok.polled {t : ThreadState μ} (h : s.Ok latency)
    (hs : threadStep mt P s.thread (.polled s.runTimers) = some t) :
    Ok latency { s with thread := t } := by
  cases ThreadState.Advance.of_step hs with
  | user ha => cases ha
  | polled hpc hpc' htimer =>
    have hne : t.pc ≠ .poll ∧ t.pc ≠ .dispatch := by
      rw [hpc']
      split_ifs <;> exact ⟨nofun, nofun⟩
    refine h.of_thread (h.timesOk htimer) (fun hpoll => absurd hpoll hne.1) (fun hwait => ?_)
      fun hdispatch => absurd hdispatch hne.2
    exact absurd (h.not_waiting (by simp [hpc])) hwait

lemma Ok.check_step {enosys : Bool} (h : s.Ok latency) (hthread : s.thread.Ok mt)
    (hs : s.check mt P enosys = some s') : s'.Ok latency := by
  obtain ⟨t, ht, hcases⟩ := check_eq_some hs
  cases ThreadState.Advance.of_step ht with
  | user ha => cases ha
  | check hpc hpc' htimer htask =>
    have hwait : s.wait = none := h.not_waiting (by simp [hpc])
    have htimers := h.timesOk htimer
    rcases hcases with ⟨hne, rfl⟩ | ⟨hpoll, abs, uses, timeout, habs, huses, rfl⟩
    · refine h.of_thread htimers (fun hpoll => absurd hpoll hne) (fun hw => absurd hwait hw) ?_
      intro hdispatch
      simp [hdispatch] at hpc'
    · obtain ⟨abs', habs', hnormal, hfirst, htasks⟩ := mainDeadline_spec hthread h.expires
      obtain rfl := Except.ok.inj (habs'.symm.trans habs)
      obtain ⟨hnow, hlast⟩ : timeout.now = s.now ∧ _ := usesTimer_frame huses
      have hrecent : ∀ {u}, Recent s.woke s.now u → Recent s.woke timeout.now u := by
        rw [hnow]
        exact id
      refine ⟨(usesTimer_checked h.timeout huses).ok, ?_, htimers.1, hrecent h.woke, ?_,
        fun hvalid => hrecent (htimers.2 hvalid), fun _ => ?_, fun w hw => ?_, ?_⟩
      · rcases hlast with hlast | hlast
        · exact hlast.symm ▸ h.lastAbs
        · exact hnormal _ hlast
      · rw [now, hnow]
        exact h.clock
      · refine ⟨?_, ?_, hnormal, enosys, s.timeout, timeout, h.timeout, huses, rfl⟩
        · dsimp only
          rwa [htimer]
        · dsimp only
          rwa [htask]
      · exact absurd (hwait.symm.trans hw) nofun
      · intro hdispatch
        exact absurd (hpoll.symm.trans hdispatch) nofun

lemma abs_of_pollAbs {d : Timespec} (h : s.pollAbs = some d) : s.abs = some d := by
  unfold pollAbs at h
  split_ifs at h
  exact h

/-- The cached time that a timeout is computed from. -/
lemma Ok.recent_validate (h : s.Ok latency) :
    Recent s.woke s.now (s.thread.cached.validate s.now).time := by
  unfold CachedTime.validate
  split_ifs with hvalid
  · exact h.cached hvalid
  · exact h.recent_now

lemma Ok.block_step {refused : Bool} (h : s.Ok latency) (hthread : s.thread.Ok mt)
    (hlatency : 0 ≤ latency) (hs : s.block mt P refused = some s') : s'.Ok latency := by
  obtain ⟨hpc, hwait, call, pwait2, cached, t, hcall, ht, rfl⟩ := block_eq_some hs
  -- the thread is as before, but for the cached time
  obtain ⟨htimers, hindex, hexpires, htasks, hpc'⟩ :
      TimesOk s.woke s.now t ∧ t.timer.st.index = s.thread.timer.st.index ∧
      t.timer.st.expires = s.thread.timer.st.expires ∧
      t.task.st.tasks = s.thread.task.st.tasks ∧ t.pc = .poll := by
    rcases ht with ⟨-, rfl⟩ | ht
    · exact ⟨h.timesOk rfl, rfl, rfl, rfl, hpc⟩
    · have hadv := ThreadState.Advance.of_step ht
      refine ⟨h.timers hthread hadv (by simp) (by simp), ?_⟩
      cases hadv with
      | user ha => cases ha
      | timer hpc' hstep heq htask =>
        obtain ⟨hindex, hexpires⟩ := hstep.same_heap (Or.inr ⟨_, rfl⟩)
        rw [heq, htask]
        refine ⟨hindex, hexpires, rfl, ?_⟩
        rw [hpc] at hpc'
        exact (Option.some.inj hpc').symm
  -- and the call waits as long as the cached time says
  obtain ⟨hpositive, htimed⟩ : (∀ d, call.duration = some d → 0 ≤ d) ∧
      ∀ d, s.pollAbs = some d → ∃ dur, call.duration = some dur ∧
        (dur = 0 ∨ s.woke.ns < d.ns ∧ dur ≤ d.ns - s.woke.ns + call.rounding) := by
    cases habs : s.pollAbs with
    | none =>
      obtain ⟨call', _, heq, hnone⟩ :=
        ivFdEpollWait_none s.now refused s.pwait2 s.thread.cached
      rw [habs, heq] at hcall
      obtain ⟨rfl, -⟩ := Prod.mk.inj (Except.ok.inj hcall)
      simp [hnone]
    | some d =>
      have hrecent := h.recent_validate
      have hnormal := (h.polling hpc).normal d (abs_of_pollAbs habs)
      obtain ⟨call', _, dur, heq, hdur, hnonneg, hle⟩ :=
        ivFdEpollWait_some refused s.pwait2 hnormal hrecent.normal
      rw [habs, heq] at hcall
      obtain ⟨rfl, -⟩ := Prod.mk.inj (Except.ok.inj hcall)
      have hwoke := (h.woke.normal.le_iff hrecent.normal).mp hrecent.woke_le
      rw [hdur]
      refine ⟨fun _ hd => Option.some.inj hd ▸ hnonneg, fun _ hd => ⟨dur, rfl, ?_⟩⟩
      obtain rfl := Option.some.inj hd
      exact hle.imp_right fun hle => by omega
  obtain ⟨hfirst, hzero, hnormal, hasked⟩ := (h.polling hpc).of_thread hindex hexpires htasks
  refine ⟨h.timeout, h.lastAbs, htimers.1, h.woke, h.clock, htimers.2,
    fun _ => ⟨hfirst, hzero, hnormal, hasked⟩, fun w hw => ?_, ?_⟩
  · obtain rfl := Option.some.inj hw
    refine ⟨hpc', h.recent_now, ?_, htimed⟩
    simp only [mayWait, Bool.and_eq_true, Option.all_eq_true, decide_eq_true_eq]
    refine ⟨fun d hd => ?_, fun u _ => ?_⟩
    · have := hpositive d hd
      change s.now.ns ≤ s.now.ns + d + latency
      omega
    · change s.now.ns ≤ max s.now.ns u.ns + latency
      omega
  · intro hdispatch
    exact absurd (hpc'.symm.trans hdispatch) nofun

/-- The two halves of `iv_fd_poll_and_run` together are a call of it. -/
lemma Polling.pollAndRun {out : WaitOutcome} {runTimers : Bool} {timeout : TimeoutState}
    (h : s.Polling) (hpoll : methodPoll s.timeout s.pollAbs out = .ok (runTimers, timeout)) :
    ∃ enosys st, TimeoutOk st ∧
      ivFdPollAndRun enosys st s.abs out = .ok (runTimers, timeout.afterPoll s.uses runTimers) := by
  obtain ⟨enosys, st, st', hst, huses, heq⟩ := h.asked
  have hsame : methodPoll s.timeout s.pollAbs out = methodPoll st' s.pollAbs out := by
    rw [heq]
    rfl
  rw [hsame] at hpoll
  refine ⟨enosys, st, hst, ?_⟩
  rw [ivFdPollAndRun, huses, ok_bind]
  unfold pollAbs at hpoll
  cases hu : s.uses with
  | true =>
    rw [hu, if_pos rfl] at hpoll
    simp only [if_true, hpoll, ok_bind, TimeoutState.afterPoll, true_and]
    rfl
  | false =>
    rw [hu, if_neg Bool.false_ne_true] at hpoll
    simp [hpoll, TimeoutState.afterPoll]

lemma Ok.wake_step {interrupted timerEvent full : Bool} {k : κ} (h : s.Ok latency)
    (hthread : s.thread.Ok mt) (hs : s.wake mt P interrupted timerEvent full k = some s') :
    s'.Ok latency := by
  obtain ⟨hwait, -, t₁, t, runTimers, timeout, ht₁, ht, hpc', hpoll, rfl⟩ := wake_eq_some hs
  obtain ⟨w, hw⟩ := Option.ne_none_iff_exists'.mp hwait
  have hpolling := h.polling (h.waiting w hw).pc
  obtain ⟨enosys, st, hst, hcall⟩ := hpolling.pollAndRun hpoll
  obtain ⟨hok, hcovered⟩ := ivFdPollAndRun_spec hst hcall
  obtain ⟨hnow, hlast⟩ : (timeout.afterPoll s.uses runTimers).now = s.now ∧ _ :=
    methodPoll_frame hpoll
  have hadv₁ := ThreadState.Advance.of_step ht₁
  have htimers := h.timers hthread hadv₁ (by simp) (by simp)
  have hinvalid : t₁.timer.st.timeValid = false := by
    cases hadv₁ with
    | user ha => cases ha
    | timer _ hstep heq =>
      rw [heq]
      exact hstep.invalidated
  cases ThreadState.Advance.of_step ht with
  | user ha => cases ha
  | poll _ _ htimer =>
    refine ⟨hok, hlast.symm ▸ h.lastAbs, ?_, ?_, ?_, fun hvalid => ?_,
      fun hpoll => absurd hpoll hpc', nofun, fun _ => hcovered⟩
    · rw [htimer]
      exact htimers.1
    · exact ⟨le_rfl, hnow.ge, h.clock⟩
    · exact hnow.symm ▸ h.clock
    · dsimp only at hvalid
      rw [htimer, hinvalid] at hvalid
      cases hvalid

/-- A step of the loop keeps everything in order. -/
lemma Ok.step {a : MainLabel κ} (h : s.Ok latency) (hthread : s.thread.Ok mt)
    (hlatency : 0 ≤ latency) (hs : mainStep mt P latency s a = some s') : s'.Ok latency := by
  cases a with
  | tick now =>
    obtain ⟨⟨hle, hnow, hwait⟩, hs⟩ := Option.ite_none_right_eq_some.mp hs
    obtain rfl := Option.some.inj hs
    exact h.tick hle hnow hwait
  | thread a =>
    obtain ⟨ha, hs⟩ := Option.ite_none_right_eq_some.mp hs
    obtain ⟨t, ht, rfl⟩ := Option.map_eq_some_iff.mp hs
    exact h.thread_step hthread ha ht
  | check enosys => exact h.check_step hthread hs
  | flush k =>
    obtain ⟨hwait, hs⟩ := Option.ite_none_right_eq_some.mp hs
    obtain ⟨t, ht, hs⟩ := Option.bind_eq_some_iff.mp hs
    obtain ⟨hpc, hs⟩ := Option.ite_none_right_eq_some.mp hs
    obtain rfl := Option.some.inj hs
    exact h.flush hwait ht hpc
  | block refused => exact h.block_step hthread hlatency hs
  | wake interrupted timerEvent full k => exact h.wake_step hthread hs
  | polled =>
    obtain ⟨t, ht, rfl⟩ := Option.map_eq_some_iff.mp hs
    exact h.polled ht

/-- No later than the deadline allows. -/
lemma Ok.now_le {w : Wait} {d : Timespec} (h : s.Ok latency) (hw : s.wait = some w)
    (habs : s.abs = some d) : s.now.ns ≤ latency + max w.start.ns ((timerValue d).ns +
      if s.uses then 0 else w.start.ns - s.woke.ns + w.call.rounding) := by
  obtain ⟨hpc, hstart, hmay, htimed⟩ := h.waiting w hw
  have hpolling := h.polling hpc
  have hnormal := hpolling.normal d habs
  simp only [mayWait, Bool.and_eq_true, Option.all_eq_true, decide_eq_true_eq] at hmay
  cases huses : s.uses with
  | true =>
    -- the timer is set for a deadline that is not later
    obtain ⟨hmethod, hfive, hle⟩ := hpolling.checked.used huses
    have hnow := hmay.2 _ (h.timeout.armed hmethod hfive).2
    have htimer := (h.lastAbs.timerValue.le_iff hnormal.timerValue).mp
      (timerValue_mono (hle d habs))
    simp only [if_true]
    omega
  | false =>
    obtain ⟨dur, hdur, hle⟩ := htimed d (by rw [pollAbs, huses, habs]; rfl)
    have hnow := hmay.1 dur hdur
    have hvalue := (hnormal.le_iff hnormal.timerValue).mp (le_timerValue d)
    simp only [Bool.false_eq_true, if_false]
    omega

/-- Nor does the thread wait for a deadline of zero. -/
lemma Ok.now_le_of_zero {w : Wait} (h : s.Ok latency) (hw : s.wait = some w)
    (habs : s.abs = some ⟨0, 0⟩) : s.now.ns ≤ latency + max w.start.ns 1 := by
  have hone : (timerValue ⟨0, 0⟩).ns = 1 := by decide
  cases huses : s.uses with
  | true =>
    have hle := h.now_le hw habs
    simpa [huses, hone] using hle
  | false =>
    obtain ⟨hpc, hstart, hmay, htimed⟩ := h.waiting w hw
    simp only [mayWait, Bool.and_eq_true, Option.all_eq_true, decide_eq_true_eq] at hmay
    obtain ⟨dur, hdur, hle⟩ := htimed _ (by rw [pollAbs, huses, habs]; rfl)
    have hnow := hmay.1 dur hdur
    obtain ⟨h₁, -, h₃, -⟩ := h.woke.normal
    have hwoke : 0 ≤ s.woke.ns := by
      simp only [Timespec.ns]
      omega
    have hzero : (⟨0, 0⟩ : Timespec).ns = 0 := rfl
    omega

lemma Ok.check_returns (h : s.Ok latency) (hthread : s.thread.Ok mt) (hpc : s.thread.pc = .check)
    (enosys : Bool) : ∃ s', s.check mt P enosys = some s' := by
  obtain ⟨abs, habs, hnormal, -⟩ := mainDeadline_spec hthread h.expires
  obtain ⟨⟨uses, timeout⟩, huses⟩ := usesTimer_returns enosys h.timeout hnormal
  have hstep : threadStep mt P s.thread .check = some _ := if_pos hpc
  simp only [check, hstep, Option.bind_eq_bind, Option.bind_some, habs, huses, Except.toOption]
  split_ifs <;> exact ⟨_, rfl⟩

/-- The call that waits can be made. -/
lemma Ok.block_returns (h : s.Ok latency) (hthread : s.thread.Ok mt) (hpc : s.thread.pc = .poll)
    (hwait : s.wait = none) (refused : Bool) : ∃ s', s.block mt P refused = some s' := by
  obtain ⟨call, pwait2, cached, hcall⟩ : ∃ call pwait2 cached,
      ivFdEpollWait s.now refused s.pwait2 s.thread.cached s.pollAbs
        = .ok (call, pwait2, cached) := by
    cases habs : s.pollAbs with
    | none =>
      obtain ⟨call, _, heq, -⟩ := ivFdEpollWait_none s.now refused s.pwait2 s.thread.cached
      exact ⟨_, _, _, heq⟩
    | some d =>
      have hnormal : d.Normalised := (h.polling hpc).normal d (abs_of_pollAbs habs)
      obtain ⟨call, _, dur, heq, -⟩ := ivFdEpollWait_some refused s.pwait2 hnormal
        h.recent_validate.normal
      exact ⟨_, _, _, heq⟩
  have hloop : s.thread.timer.pc ≠ .loop := by
    rw [hthread.timerPc (by simp [hpc])]
    nofun
  obtain ⟨t, ht⟩ : ∃ t, s.refresh mt P cached = some t := by
    unfold refresh
    split_ifs
    · exact ⟨_, rfl⟩
    · simp [threadStep, hpc, MainPc.onTimer, ThreadState.timerStep, timerLoopStep, hloop]
  simp [block, hpc, hwait, hcall, Except.toOption, ht]

/-! ### What a poll that found a timer due leads to -/

/-- If a timer is due when an undisturbed wait ends, then the timers are run. -/
lemma Ok.runTimers_of_due {timerEvent : Bool} {k : κ} {u : TimerPtr} (h : s.Ok latency)
    (hs : s.wake mt P false timerEvent false k = some s') (hu : 1 ≤ s.thread.timer.st.index u)
    (hdue : timerValue (s.thread.timer.st.expires u) ≤ s.now) :
    s'.thread.pc = .dispatch ∧ s'.runTimers = true ∧ s'.woke = s.now := by
  obtain ⟨hwait, hroom, t₁, t, runTimers, timeout, -, ht, hpc', hpoll, rfl⟩ := wake_eq_some hs
  obtain ⟨w, hw⟩ := Option.ne_none_iff_exists'.mp hwait
  have hpolling := h.polling (h.waiting w hw).pc
  obtain ⟨d, habs, hle⟩ := hpolling.first u hu
  refine ⟨?_, ?_, rfl⟩
  · cases ThreadState.Advance.of_step ht with
    | user ha => cases ha
    | poll _ hto => exact hto.resolve_left hpc'
  · cases huses : s.uses with
    | false =>
      have habs' : s.pollAbs = some d := by rw [pollAbs, huses, habs]; rfl
      rw [habs'] at hpoll
      rcases methodPoll_cases hpoll with ⟨-, rfl, -⟩ | ⟨-, rfl, -⟩ | ⟨-, rfl, -⟩ <;> rfl
    | true =>
      -- the timer has expired, and there was room to report it
      obtain ⟨hmethod, hfive, hlast⟩ := hpolling.checked.used huses
      have htimer := (h.timeout.armed hmethod hfive).2
      have hread : s.timeout.readable = true := by
        rw [TimeoutState.readable, htimer]
        exact decide_eq_true ((timerValue_mono ((hlast d habs).trans hle)).trans hdue)
      have hevent : timerEvent = true := by simpa using hroom hread
      exact methodPoll_timerEvent hmethod rfl hevent hpoll

/-- Until `iv_fd_poll_and_run` returns, its result stays as it is. -/
lemma Ok.dispatch_step {a : MainLabel κ} (h : s.Ok latency) (hpc : s.thread.pc = .dispatch)
    (ha : a ≠ .polled) (hs : mainStep mt P latency s a = some s') :
    s'.thread.pc = .dispatch ∧ s'.runTimers = s.runTimers ∧ s'.woke = s.woke := by
  have hwait : s.wait = none := h.not_waiting (by simp [hpc])
  cases a with
  | tick now =>
    obtain ⟨-, hs⟩ := Option.ite_none_right_eq_some.mp hs
    obtain rfl := Option.some.inj hs
    exact ⟨hpc, rfl, rfl⟩
  | thread a =>
    obtain ⟨ha, hs⟩ := Option.ite_none_right_eq_some.mp hs
    obtain ⟨t, ht, rfl⟩ := Option.map_eq_some_iff.mp hs
    refine ⟨?_, rfl, rfl⟩
    cases ThreadState.Advance.of_step ht with
    | user _ hsame => exact hsame.pc.trans hpc
    | timer hstep =>
      rcases MainPc.onTimer_cases hstep with ⟨hsame, -⟩ | ⟨hfrom, -⟩
      · exact hsame.trans hpc
      · simp [hpc] at hfrom
    | task hstep =>
      rcases MainPc.onTask_cases hstep with ⟨hsame, -⟩ | ⟨hfrom, -⟩
      · exact hsame.trans hpc
      · simp [hpc] at hfrom
    | main hout => exact absurd (hpc.symm.trans hout) nofun
    | round _ hsame => exact hsame.trans hpc
    | check | poll | polled => cases ha
  | check enosys =>
    obtain ⟨t, ht, -⟩ := check_eq_some hs
    exact absurd (hpc.symm.trans (Option.ite_none_right_eq_some.mp ht).1) nofun
  | flush k =>
    obtain ⟨-, hs⟩ := Option.ite_none_right_eq_some.mp hs
    obtain ⟨t, ht, -⟩ := Option.bind_eq_some_iff.mp hs
    exact absurd (hpc.symm.trans (Option.ite_none_right_eq_some.mp ht).1) nofun
  | block refused => exact absurd (hpc.symm.trans (block_eq_some hs).1) nofun
  | wake => exact absurd hwait (wake_eq_some hs).1
  | polled => exact absurd rfl ha

/-- `iv_run_timers` takes up every timer that was due when the last wait ended. -/
lemma Ok.run_due (h : s.Ok latency) (hthread : s.thread.Ok mt)
    (hpc : s.thread.pc = .beforeTimers) :
    ∃ s', mainStep mt P latency s (.thread (.timer (.run s.now))) = some s' ∧
      s'.thread.pc = .timers ∧
      (∀ u, 1 ≤ s.thread.timer.st.index u → s.thread.timer.st.expires u ≤ s.woke →
        u ∈ s'.thread.timer.st.expired) ∧
      ∀ u ∈ s'.thread.timer.st.expired,
        1 ≤ s.thread.timer.st.index u ∧ s.thread.timer.st.expires u ≤ s.now := by
  have houtside : s.thread.timer.pc = .outside := hthread.timerPc (by simp [hpc])
  obtain ⟨st', hrun, -, hmoved, -⟩ := (hthread.timer.timers.of_same s.thread.timer.st.time
    s.thread.timer.st.timeValid s.thread.numobjs).runTimersStart_eq
      (hthread.timer.outside houtside) s.now
  have hrecent : s.thread.timer.st.numTimers ≠ 0 → Recent s.woke s.now st'.time := by
    intro hn
    rw [hmoved.time hn]
    split_ifs with hvalid
    · exact h.cached hvalid
    · exact h.recent_now
  obtain ⟨A, -, hv⟩ := hthread.timer.timers.heap
  have hnonempty : ∀ u, 1 ≤ s.thread.timer.st.index u → s.thread.timer.st.numTimers ≠ 0 := by
    intro u hu hn
    have hle : s.thread.timer.st.index u ≤ s.thread.timer.st.numTimers := hv.index_le hu
    omega
  refine ⟨{ s with thread := { s.thread with
      timer := ⟨st', .loop⟩, numobjs := st'.numobjs, pc := .timers } }, ?_, rfl, ?_, ?_⟩
  · simp [mainStep, allows, threadStep, hpc, MainPc.onTimer, ThreadState.timerStep, timerLoopStep,
      houtside, hrun, Except.toOption]
  · intro u hu hdue
    exact (hmoved.due u).mpr ⟨hu, hdue.trans (hrecent (hnonempty u hu)).woke_le⟩
  · intro u hu
    obtain ⟨hindex, hdue⟩ := (hmoved.due u).mp hu
    exact ⟨hindex, hdue.trans (hrecent (hnonempty u hindex)).le_now⟩

end MainLoop

section Runs

variable {mt : Bool} {P : Poller μ κ} {fds : FdPtr → Fd} {expires : TimerPtr → Timespec} {avail : ℕ}
  {method : μ} {latency : ℤ} {start : Timespec} {tr : List (MainLabel κ)} {s s' : MainLoop μ}

lemma mainLts_thread_ok
    (h : (mainLts mt P latency start (ivInit fds expires avail method)).Run tr s) :
    s.thread.Ok mt := by
  obtain ⟨_, t, -, ht, rfl⟩ := (mainLts_simulation latency start _).run h
  exact ht.reachable.invariant (P := ThreadState.Ok mt)
    (ThreadState.ok_init mt fds expires avail method) fun s a s' hok hs => hok.step hs

lemma mainLts_ok (h : (mainLts mt P latency start (ivInit fds expires avail method)).Run tr s)
    (hlatency : 0 ≤ latency) (hstart : start.Normalised) (hexpires : ∀ t, (expires t).Normalised) :
    s.Ok latency := by
  refine h.induct (P := fun _ s => s.Ok latency) ?_ ?_
  · have hzero : (⟨0, 0⟩ : Timespec).Normalised := by decide
    exact ⟨⟨by simp [mainLts], by simp [mainLts]⟩, hzero, hexpires, ⟨le_rfl, le_rfl, hstart⟩,
      hstart, nofun, nofun, nofun, nofun⟩
  · intro tr s a s' hrun hok hs
    exact hok.step (mainLts_thread_ok hrun) hlatency hs

/-- The timers are looked at after 2 s, and the first expires after 5 s. The thread goes to sleep
after 3 s, with a timeout that is computed from the time of 2 s. -/
def staleSleep : List (MainLabel EpollPoll) :=
  [.thread (.timer (.op (.register 1))), .thread .main, .thread (.timer (.run ⟨2, 0⟩)),
    .thread (.timer .finish), .thread (.task .run), .thread (.task .finish), .tick ⟨3, 0⟩,
    .check false, .block false, .tick ⟨6, 10⟩]

/-- A timer that is due when a wait ends is run right after the poll. If the wait was not disturbed,
the next thing that `iv_main` does after the handlers of the descriptors is to call
`iv_run_timers`, and this takes up every timer that was due at the end of the wait and is still
registered, and none that is not due. -/
theorem dueTimers_run_after_poll
    (h : (mainLts mt P latency start (ivInit fds expires avail method)).Run tr s)
    (hlatency : 0 ≤ latency) (hstart : start.Normalised) (hexpires : ∀ t, (expires t).Normalised)
    {timerEvent : Bool} {k : κ} {s₁ s₂ : MainLoop μ} {u : TimerPtr} {tr' : List (MainLabel κ)}
    (hwake : mainStep mt P latency s (.wake false timerEvent false k) = some s₁)
    (hu : 1 ≤ s.thread.timer.st.index u)
    (hdue : timerValue (s.thread.timer.st.expires u) ≤ s.now) (htr' : ∀ a ∈ tr', a ≠ .polled)
    (hexec : (mainLts mt P latency start (ivInit fds expires avail method)).exec s₁
      (tr' ++ [.polled]) = some s₂) :
    s₂.thread.pc = .beforeTimers ∧
    ∃ s₃, mainStep mt P latency s₂ (.thread (.timer (.run s₂.now))) = some s₃ ∧
      s₃.thread.pc = .timers ∧
      (∀ t, 1 ≤ s₂.thread.timer.st.index t → s₂.thread.timer.st.expires t ≤ s.now →
        t ∈ s₃.thread.timer.st.expired) ∧
      ∀ t ∈ s₃.thread.timer.st.expired,
        1 ≤ s₂.thread.timer.st.index t ∧ s₂.thread.timer.st.expires t ≤ s₂.now := by
  have hrun₁ : (mainLts mt P latency start (ivInit fds expires avail method)).Run
      (tr ++ [.wake false timerEvent false k]) s₁ := Kit.Lts.run_snoc.mpr ⟨s, h, hwake⟩
  obtain ⟨s', hexec', hpolled⟩ := Kit.Lts.exec_snoc.mp hexec
  have hrun' := Kit.Lts.run_append.mpr ⟨s₁, hrun₁, hexec'⟩
  obtain ⟨hpc', hresult, hwoke⟩ :
      s'.thread.pc = .dispatch ∧ s'.runTimers = true ∧ s'.woke = s.now := by
    refine Kit.Lts.exec_induct (P := fun tr' s' => (∀ a ∈ tr', a ≠ .polled) →
      s'.thread.pc = .dispatch ∧ s'.runTimers = true ∧ s'.woke = s.now) (fun _ =>
        (mainLts_ok h hlatency hstart hexpires).runTimers_of_due hwake hu hdue) ?_ hexec' htr'
    intro tr'' s' a s'' hexec'' ih hstep hne
    obtain ⟨hpc, hresult, hwoke⟩ := ih fun b hb => hne b (List.mem_append_left _ hb)
    have hok := mainLts_ok (Kit.Lts.run_append.mpr ⟨s₁, hrun₁, hexec''⟩) hlatency hstart hexpires
    obtain ⟨hpc', hresult', hwoke'⟩ := hok.dispatch_step hpc (hne a (by simp)) hstep
    exact ⟨hpc', hresult'.trans hresult, hwoke'.trans hwoke⟩
  have hrun₂ := Kit.Lts.run_snoc.mpr ⟨s', hrun', hpolled⟩
  obtain ⟨t, ht, rfl⟩ := Option.map_eq_some_iff.mp hpolled
  have hpc₂ : t.pc = .beforeTimers := by
    cases ThreadState.Advance.of_step ht with
    | user ha => cases ha
    | polled _ hpc₂ => rw [hpc₂, hresult, if_pos rfl]
  have hok₂ := mainLts_ok hrun₂ hlatency hstart hexpires
  obtain ⟨s₃, hstep, hpc₃, htaken, hdue₃⟩ := hok₂.run_due (P := P) (mainLts_thread_ok hrun₂) hpc₂
  refine ⟨hpc₂, s₃, hstep, hpc₃, fun t ht hle => htaken t ht ?_, hdue₃⟩
  exact hle.trans_eq hwoke.symm

theorem dueTimers_run_after_poll_stale :
    ∃ s s₂, (mainLts true epollPoller 10 ⟨2, 0⟩ epollThread).Run staleSleep s ∧
      (mainLts true epollPoller 10 ⟨2, 0⟩ epollThread).exec s
        [.wake false false false (.wait []), .thread (.round .dispatch), .thread (.round .finish),
          .polled] = some s₂ ∧
      ∃ s₃, mainStep true epollPoller 10 s₂ (.thread (.timer (.run s₂.now))) = some s₃ ∧
        1 ∈ s₃.thread.timer.st.expired := by
  have hbefore : ((mainLts true epollPoller 10 ⟨2, 0⟩ epollThread).exec
      (mainLts true epollPoller 10 ⟨2, 0⟩ epollThread).init staleSleep).map
      (fun s => (s.now, s.thread.timer.st.index 1, s.thread.timer.st.expires 1))
      = some (⟨6, 10⟩, 1, ⟨5, 0⟩) := by decide
  have hafter : ((mainLts true epollPoller 10 ⟨2, 0⟩ epollThread).exec
      (mainLts true epollPoller 10 ⟨2, 0⟩ epollThread).init (staleSleep ++
        [.wake false false false (.wait []), .thread (.round .dispatch), .thread (.round .finish),
          .polled])).map
      (fun s => (s.thread.timer.st.index 1, s.thread.timer.st.expires 1))
      = some (1, ⟨5, 0⟩) := by decide
  obtain ⟨s, hrun, hs⟩ := Option.map_eq_some_iff.mp hbefore
  obtain ⟨s₂, hrun₂, hs₂⟩ := Option.map_eq_some_iff.mp hafter
  simp only [Prod.mk.injEq] at hs hs₂
  obtain ⟨s', hrun', hexec⟩ := Kit.Lts.run_append.mp hrun₂
  obtain rfl : s = s' := Option.some.inj (hrun.symm.trans hrun')
  obtain ⟨s₁, hwake, hrest⟩ := Option.bind_eq_some_iff.mp hexec
  have hpolled : (mainLts true epollPoller 10 ⟨2, 0⟩ epollThread).exec s₁
      ([.thread (.round .dispatch), .thread (.round .finish)] ++ [.polled]) = some s₂ := hrest
  obtain ⟨-, s₃, hstep, -, htaken, -⟩ := dueTimers_run_after_poll (u := 1) hrun (by decide)
    (by decide) (fun _ => by decide) hwake (by rw [hs.2.1]) (by rw [hs.2.2, hs.1]; decide)
    (by simp) hpolled
  refine ⟨s, s₂, hrun, hexec, s₃, hstep, htaken 1 (by rw [hs₂.1]) ?_⟩
  rw [hs₂.2, hs.1]
  decide

end Runs

end Ivykis
