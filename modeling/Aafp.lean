import Aafp.Sdk.Agreement
import Aafp.Sdk.ReplayRace
import Aafp.Core.StatePredicates
import Aafp.Messaging.CloseExchange
import Aafp.Identity.RevocationRuns
import Aafp.Discovery.RecordVersions
import Aafp.Identity.TrustManager
import Aafp.Messaging.ChunkedFrames
import Aafp.Cbor.MapKeys
import Aafp.Messaging.RpcCodec
import Aafp.Messaging.PubSubRuns
import Aafp.Sdk.TopicContainment
import Aafp.Sdk.TopicMatcher
import Aafp.Discovery.ArcSwapRuns
import Aafp.Discovery.LookupResults
import Aafp.Discovery.PersistentRuns
import Aafp.Discovery.PlannerSearch
import Aafp.Relay.Expiry
import Aafp.Relay.ServerRuns
import Aafp.Routing.Slots
import Aafp.Economics.AccountRuns
import Aafp.Economics.SlashingBalance
import Aafp.Execution.ParallelGroups
import Aafp.Execution.CheckpointRuns
import Aafp.Execution.AggregatorQuorum
import Aafp.Execution.SchedulerProgress
import Aafp.Economics.SlashingWindow
import Aafp.Economics.SlashingRecords
import Aafp.Economics.CompensationWindow
import Aafp.Crypto.ReplayExpiry
import Aafp.Economics.PriorityOrder
import Aafp.Economics.PriorityScore
import Aafp.Identity.AttestationFiling
import Aafp.Identity.DirectoryAgreement
import Aafp.Sdk.PoolAccounting
import Aafp.Cbor.Cursor
import Aafp.Messaging.SendBuffer
import Aafp.Messaging.ExtensionCodec
import Aafp.Messaging.PipelineErrors
import Aafp.Identity.TrustImport
import Aafp.Identity.UcanCodec
import Aafp.Identity.UcanAttenuation
import Aafp.Identity.GossipConvergence
