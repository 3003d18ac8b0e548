import NkeFilter.PendingCounters
import NkeFilter.Reinjection
import NkeFilter.BufferContents
import NkeFilter.SocketAddress
import NkeFilter.ClientSession
import NkeFilter.DataAvailable
import NkeFilter.ReceiveBuffer
import NkeFilter.DeliverWaiting
import NkeFilter.Deadline
import NkeFilter.DetachOnce
import NkeFilter.RetainCount
import NkeFilter.DataQueueBounds
import NkeFilter.FilterSockets
import NkeFilter.IndexPool
import NkeFilter.InjectionOrder
import NkeFilter.Lib.Locks
import NkeFilter.LockOrder
import NkeFilter.NotificationOrder
import NkeFilter.Reported
import NkeFilter.Tag
import NkeFilter.UntrustedRelease
import NkeFilter.BufferTransfers
import NkeFilter.PassThrough
import NkeFilter.DetachingLock
import NkeFilter.PendingUnregistration
import NkeFilter.MemoryDescriptor
import NkeFilter.UserToKernel
import NkeFilter.ServiceInspection
import NkeFilter.ServiceProgress
import NkeFilter.ClientsFreed
