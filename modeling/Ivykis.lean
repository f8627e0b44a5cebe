import Ivykis.Avl.Heights
import Ivykis.Avl.Properties
import Ivykis.Event.Counters
import Ivykis.Event.Raw
import Ivykis.Event.RunPending
import Ivykis.Fd.DevPoll
import Ivykis.Fd.Kqueue
import Ivykis.Fd.PollBounds
import Ivykis.Fd.PortRetrieve
import Ivykis.Fd.Timerfd
import Ivykis.Fd.TryFailed
import Ivykis.Handle.Properties
import Ivykis.Inotify.Dispatch
import Ivykis.List
import Ivykis.Popen.Properties
import Ivykis.Pump.Failure
import Ivykis.Signal.HandOn
import Ivykis.Signal.Select
import Ivykis.Thread.Deadline
import Ivykis.Time.TickCount
import Ivykis.Time.Timeout
import Ivykis.Timer.Memory
import Ivykis.Work.Local
import Ivykis.Work.Shutdown
import Ivykis.Work.Wraparound
