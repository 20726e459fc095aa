import DueServer.ActorGuard
import DueServer.ActorIdentity
import DueServer.ActorOrder
import DueServer.ActorRelations
import DueServer.BytesPool
import DueServer.Calendar
import DueServer.ClientCallPending
import DueServer.ClientConnRedial
import DueServer.ClientConnWait
import DueServer.CloseDeadlock
import DueServer.ConnCounter
import DueServer.ConnFault
import DueServer.ContainerShutdown
import DueServer.DispatcherTable
import DueServer.GateFencing
import DueServer.GateLinkRelease
import DueServer.GateLocator
import DueServer.GateProxy
import DueServer.GateRemoval
import DueServer.Handshake
import DueServer.HookBarrier
import DueServer.LimiterModel
import DueServer.LinkDelivery
import DueServer.LockAcquire
import DueServer.LockRelease
import DueServer.MailboxDrain
import DueServer.MailboxLock
import DueServer.NodeClone
import DueServer.NodeRecycleHanded
import DueServer.NodeWait
import DueServer.OwnershipHistory
import DueServer.PacketStream
import DueServer.ProtocolFraming
import DueServer.ProtocolTokens
import DueServer.RandModel
import DueServer.RedisClients
import DueServer.RedisDecimal
import DueServer.RegistrarHeartbeat
import DueServer.RegistryView
import DueServer.RouterFencing
import DueServer.RouterPanic
import DueServer.RsaBlocks
import DueServer.SessionChannels
import DueServer.SessionFencing
import DueServer.SourceConverge
import DueServer.SourceOwned
import DueServer.WatcherAttach
import DueServer.WatcherDelivery
import DueServer.WriteQueueBudget
import DueServer.WsReuse
