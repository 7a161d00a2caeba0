import RabiRoute.AgentRequests.DeliverySources
import RabiRoute.AgentRequests.EndpointTransportReceiptsSafety
import RabiRoute.AgentRequests.PersistenceTransportOrder
import RabiRoute.AgentRequests.Publication
import RabiRoute.AgentSend.CompletedReplay
import RabiRoute.Delivery.IdentityReadBack
import RabiRoute.IdentityRelations.LearningSafety
import RabiRoute.Manager.ConfigRepository
import RabiRoute.Manager.DurableDeliveryReconciliation
import RabiRoute.Manager.InstanceLockExclusion
import RabiRoute.Manager.JsonlTail
import RabiRoute.Manager.RequestDigest
import RabiRoute.Manager.StorageMutationPoolSafety
import RabiRoute.Manager.WatchBrokerSafety
import RabiRoute.MessageAgentPool.Reservations
import RabiRoute.MessageContext.PrunedReads
import RabiRoute.MessageHistory.TailHistory
import RabiRoute.MessageProcessing.BoardReplay
import RabiRoute.MessageProcessing.CoalescingPersistence
import RabiRoute.MessageProcessing.RefusedOutcome
import RabiRoute.Messages.MessageGroupingTimers
import RabiRoute.PeerTunnel.BufferedChannel
import RabiRoute.PeerTunnel.ConnectionsBound
import RabiRoute.PeerTunnel.FramePrefix
import RabiRoute.PlanStorage.History
import RabiRoute.PlanStorage.LeaseExclusion
import RabiRoute.PluginKernel.FaultIsolation
import RabiRoute.PluginKernel.PlanExactness
import RabiRoute.PluginRuntimeHost.OutcomeArchiveSafety
import RabiRoute.PluginStorage.DistinctRoots
import RabiRoute.PluginStorage.MigrationSafety
import RabiRoute.RecordingAsr.Pump
import RabiRoute.Scheduling.HeartbeatWindows
import RabiRoute.Shared.FileLockExclusion
import RabiRoute.Shared.GatewayPortAssignment
import RabiRoute.Shared.KeyedAsyncLockFairness
import RabiRoute.ThreadCreation.ReservationSafety
