import RopHive.TaskDeque.Payload
import RopHive.Transition.Threads
import RopHive.Schedule.Hive
import RopHive.Schedule.LostWakeup
import RopHive.Schedule.Shutdown
import RopHive.Schedule.Conservation
import RopHive.Transition.Reentrant
import RopHive.Network.Connection
import RopHive.Network.CloseOnce
import RopHive.Network.OrderlyClose
import RopHive.Network.Connect
import RopHive.Network.ConnectOutcome
import RopHive.Schedule.EventCore
import RopHive.Schedule.WorkerTimer
import RopHive.Network.Accept
import RopHive.Network.WatcherLoop
import RopHive.Network.StopSilence
import RopHive.Schedule.KqueueBackend
import RopHive.Network.KqueueConnection
import RopHive.Network.KqueueAccept
import RopHive.Network.KqueueReadiness
import RopHive.Network.KqueueCoverage
import RopHive.Transition.History
import RopHive.Schedule.DirectedPost
import RopHive.Data.PriorityQueue
import RopHive.Schedule.EventLoop
import RopHive.Schedule.EventLoopSleep
import RopHive.Schedule.WaitTimeout
import RopHive.Schedule.InboundOrder
import RopHive.Schedule.TimerPass
import RopHive.Schedule.TimerOrder
import RopHive.Data.IndexedVector
import RopHive.Schedule.InterestBackend
import RopHive.Schedule.EventLoopCore
import RopHive.Schedule.Registry
import RopHive.Schedule.StaleEvents
import RopHive.Schedule.ForeignSource
import RopHive.Network.WriteInterest
import RopHive.Network.SendReady
import RopHive.Data.Ownership
import RopHive.Network.Descriptors
import RopHive.Network.DescriptorOwnership
import RopHive.Network.DescriptorLinearity
import RopHive.Schedule.Deadline
import RopHive.Data.Text
import RopHive.Network.EndpointText
import RopHive.Network.EndpointGrammar
import RopHive.Network.EndpointRoundTrip
import RopHive.Transition.Device
import RopHive.TaskDeque.Sequential
import RopHive.TaskDeque.BoundedList
import RopHive.TaskDeque.WrapAround
import RopHive.Transition.Completion
import RopHive.Network.SendAccount
import RopHive.Data.BatchQueue
import RopHive.Schedule.GlobalPool
import RopHive.Schedule.PoolOrder
import RopHive.Schedule.StealOnce
import RopHive.Schedule.StealQuota
import RopHive.Schedule.Digestion
import RopHive.Schedule.Round
import RopHive.Schedule.RoundRhythm
import RopHive.Data.KeyedVector
import RopHive.Schedule.PollTable
import RopHive.Schedule.PollWait
import RopHive.Schedule.LocalLoop
import RopHive.Schedule.OwnDeque
import RopHive.Schedule.HarvestRoom
import RopHive.Schedule.HarvestFallback
import RopHive.Network.KqueueWriteInterest
import RopHive.Schedule.Lifecycle
import RopHive.Schedule.IocpBackend
import RopHive.Network.IocpCompletion
import RopHive.Network.IocpConnection
import RopHive.Network.IocpFlags
import RopHive.Network.IocpAccept
import RopHive.Network.AcceptSlots
import RopHive.Async.AsyncQueue
import RopHive.Async.QueueOrder
import RopHive.Network.IocpClose
import RopHive.Network.IocpSendReady
import RopHive.Network.IocpStream
import RopHive.Async.AsyncTcpStream
import RopHive.Async.SendOrder
import RopHive.Network.StopTiming
