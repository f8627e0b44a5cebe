import Ivykis.Fd.DevPoll
import Ivykis.Fd.Epoll
import Ivykis.Fd.Kqueue
import Ivykis.Fd.Poll
import Ivykis.Fd.Port
import Ivykis.Thread.Basic

/-!
# The poll methods of a thread

What is proved of a thread with any poll method holds for each of those that there are: none of them
changes what is registered while it polls. A step of a poll changes what the method has recorded
(`FdState.SameCore`) or what is ready (`SameRegs`).
-/

namespace Ivykis

/-- `iv_fd_poll_method_epoll`. -/
def epollPoller : Poller EpollState EpollPoll where
  method := epollMethod
  poll := ivFdEpollPoll
  poll_same {st₀ k st' pc} h := by
    have hkeeps : EpollKeeps (SameCounts st₀) := by
      refine ⟨fun st h => h.trans (.of_same (.start st)),
        fun st refused fd st' h _ hflush => h.trans (.of_core ?_),
        fun st num mask fd h _ events => h.trans (.of_same (makeEpollReady_sameRegs st fd events))⟩
      have hcore := flushOne_core refused st fd
      rwa [hflush] at hcore
    exact hkeeps.poll (.of_same (.refl st₀)) h

/-- `iv_fd_poll_method_port`. -/
def portPoller : Poller PortState PortPoll where
  method := portMethod
  poll := ivFdPortPoll
  poll_same {st₀ k st' pc} h := by
    have hkeeps : PortKeeps (SameCounts st₀) := by
      refine ⟨fun st h => h.trans (.of_same (.start st)),
        fun st refused fd st' h _ hup => h.trans (.of_core ?_),
        fun st num events fd revents h _ => ?_⟩
      · have hcore := uploadOne_core refused st fd
        rwa [hup] at hcore
      · obtain ⟨st₁, st₂, hcore, hsame, hcore'⟩ := portReady_frame st _ fd revents
        exact ((h.trans (.of_core hcore)).trans (.of_same hsame)).trans (.of_core hcore')
    exact hkeeps.poll (.of_same (.refl st₀)) h

/-- `iv_fd_poll_method_kqueue`. -/
def kqueuePoller : Poller KqueueState KqueuePoll where
  method := kqueueMethod
  poll := ivFdKqueuePoll
  poll_same {st₀ k st' pc} h := by
    have hkeeps : KqueueKeeps (SameCounts st₀) :=
      ⟨fun st h => h.trans (.of_same (.start st)),
        fun _ _ _ _ h hblock => h.trans (.of_core (kqueueBlock_core hblock)),
        fun st _ filter fd h _ => h.trans (.of_same (.ivFdMakeReady st fd {filter.band})),
        fun st h => h.trans (.of_core (setMethod_core st _))⟩
    exact hkeeps.poll (.of_same (.refl st₀)) h

/-- `iv_fd_poll_method_dev_poll`. -/
def devPollPoller : Poller DevPollState DevPollPoll where
  method := devPollMethod
  poll := ivFdDevPollPoll
  poll_same {st₀ k st' pc} h := by
    have hkeeps : DevPollKeeps (SameCounts st₀) :=
      ⟨fun st h => h.trans (.of_same (.start st)),
        fun _ _ _ h hflush => h.trans (.of_core (uploadAll_sameRest hflush).core),
        fun st _ fd h _ _ revents => h.trans (.of_same (makePollReady_sameRegs st fd revents))⟩
    exact hkeeps.poll (.of_same (.refl st₀)) h

/-- `iv_fd_poll_method_poll`, and `iv_fd_poll_method_ppoll`. -/
def pollPoller : Poller PollState PollAnswer where
  method := pollMethod
  poll := ivFdPollPoll
  poll_same {st k st' pc} h := by
    cases k with
    | events revents =>
      obtain ⟨rfl, -⟩ := Prod.mk.inj (Option.some.inj h)
      exact ((SameCounts.of_same (.start st)).trans (.of_core (setMethod_core _ _))).trans
        (.of_same (activateFds_sameRegs _ _))
    | interrupted =>
      obtain ⟨rfl, -⟩ := Prod.mk.inj (Option.some.inj h)
      exact .of_same (.start st)

end Ivykis
