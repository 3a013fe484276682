import Cashew.Lib.BigEndian
import Cashew.Lib.Decoder
import Cashew.Lib.Expiring
import Cashew.Lib.FileSystem
import Cashew.Lib.Forks
import Cashew.Lib.HashChain
import Cashew.Lib.Index
import Cashew.Lib.LastWrite
import Cashew.Lib.Locks
import Cashew.Lib.Machine
import Cashew.Lib.MerkleTree
import Cashew.Lib.Nodes
import Cashew.Lib.OrdMap
import Cashew.Lib.Reader
import Cashew.Lib.Recent
import Cashew.Lib.RecordFiles
import Cashew.Lib.Rounding
import Cashew.Lib.Shuffle
import Cashew.Lib.SimplePaths
import Cashew.Lib.TextSearch
import Cashew.Lib.Trails
import Cashew.Lib.TwoSided
import Cashew.Lib.Window
import Cashew.Lib.Wire
import Cashew.Lib.Worklist
import Cashew.Common
import Cashew.Gateway.ContentRenderer
import Cashew.Gateway.GatewayServer
import Cashew.Gateway.HtmlSanitizer
import Cashew.Gateway.Http
import Cashew.Gateway.StaticFiles
import Cashew.Gateway.WebSocketHandler
import Cashew.Identity.HumanIdentity
import Cashew.Keys.Decay
import Cashew.Keys.HybridCoordinator
import Cashew.Keys.Key
import Cashew.Keys.KeyCodec
import Cashew.Keys.KeyManager
import Cashew.Keys.KeyStore
import Cashew.Keys.ProofOfWork
import Cashew.Ledger.Event
import Cashew.Ledger.Index
import Cashew.Ledger.Ledger
import Cashew.Ledger.Payload
import Cashew.Ledger.State
import Cashew.Network.Connection
import Cashew.Network.Gossip
import Cashew.Network.GossipCodec
import Cashew.Network.LedgerSync
import Cashew.Network.NatTraversal
import Cashew.Network.Network
import Cashew.Network.NetworkCodec
import Cashew.Network.NetworkRegistry
import Cashew.Network.Peer
import Cashew.Network.PeerManager
import Cashew.Network.PeerMessages
import Cashew.Network.PeerRecords
import Cashew.Network.Redundancy
import Cashew.Network.Replication
import Cashew.Network.Router
import Cashew.Network.RoutingTable
import Cashew.Network.Session
import Cashew.Network.SessionManager
import Cashew.Network.StateReconciliation
import Cashew.Node.NodeIdentity
import Cashew.PoStake.ContributionTracker
import Cashew.PoStake.PoStakeEngine
import Cashew.Reputation.Reputation
import Cashew.Reputation.Scores
import Cashew.Reputation.TrustQueries
import Cashew.Reputation.VouchingWorkflow
import Cashew.Security.Access
import Cashew.Security.AttackPrevention
import Cashew.Security.ContentIntegrity
import Cashew.Security.IpProtection
import Cashew.Security.KeyRevocation
import Cashew.Security.OnionRouting
import Cashew.Security.RateLimiter
import Cashew.Security.RevocationCodec
import Cashew.Security.TokenRevocation
import Cashew.Storage.Storage
import Cashew.Thing.Thing
import Cashew.Utils.CheckedReads
import Cashew.Utils.Floats
import Cashew.Utils.Serialization
import Cashew.Utils.TimeUtils
import Cashew.Logic.Bridge
import Cashew.Logic.Gossip
import Cashew.Logic.KeyManager
import Cashew.Logic.LedgerNetwork
import Cashew.Logic.LedgerWf
import Cashew.Logic.PeerManager
import Cashew.Logic.Router
import Cashew.Logic.Session
import Cashew.Logic.SessionManager
import Cashew.Logic.TokenRevocation
import Cashew.Logic.TransitiveTrust
import Cashew.Logic.VouchImpacts
import Cashew.Theorems.AccessControl
import Cashew.Theorems.BandwidthLimiter
import Cashew.Theorems.CacheLimits
import Cashew.Theorems.ConnectionLimits
import Cashew.Theorems.ContentAuthenticity
import Cashew.Theorems.DecayHistory
import Cashew.Theorems.EphemeralAddresses
import Cashew.Theorems.ExternalEvents
import Cashew.Theorems.FailedMerges
import Cashew.Theorems.GatewayLocks
import Cashew.Theorems.GatewayRates
import Cashew.Theorems.GossipCodec
import Cashew.Theorems.GossipDelivery
import Cashew.Theorems.GossipFlooding
import Cashew.Theorems.GossipIds
import Cashew.Theorems.Handshake
import Cashew.Theorems.HtmlSanitizing
import Cashew.Theorems.HumanIdentities
import Cashew.Theorems.IdentityForks
import Cashew.Theorems.Invitations
import Cashew.Theorems.JobQueue
import Cashew.Theorems.KeyBalances
import Cashew.Theorems.KeyCodec
import Cashew.Theorems.KeyDecay
import Cashew.Theorems.KeyIndex
import Cashew.Theorems.KeyIssuance
import Cashew.Theorems.KeyRevocation
import Cashew.Theorems.KeyRotation
import Cashew.Theorems.KeyStore
import Cashew.Theorems.KeyTransfers
import Cashew.Theorems.LedgerConvergence
import Cashew.Theorems.LedgerFile
import Cashew.Theorems.LedgerHistory
import Cashew.Theorems.LedgerNetwork
import Cashew.Theorems.LedgerQueries
import Cashew.Theorems.LedgerReload
import Cashew.Theorems.LedgerViews
import Cashew.Theorems.MerkleBinding
import Cashew.Theorems.MetadataStore
import Cashew.Theorems.Mining
import Cashew.Theorems.NetworkCodec
import Cashew.Theorems.NetworkRegistry
import Cashew.Theorems.NodePresence
import Cashew.Theorems.OnionCircuits
import Cashew.Theorems.OnionLayers
import Cashew.Theorems.OnionNesting
import Cashew.Theorems.OnionRouting
import Cashew.Theorems.OperationLimits
import Cashew.Theorems.PathSelection
import Cashew.Theorems.Payloads
import Cashew.Theorems.PeerCodec
import Cashew.Theorems.PeerExchange
import Cashew.Theorems.PeerLimits
import Cashew.Theorems.PeerReconnects
import Cashew.Theorems.PeerRecords
import Cashew.Theorems.PeerRotation
import Cashew.Theorems.PeerSessions
import Cashew.Theorems.PoStakeRewards
import Cashew.Theorems.ProofOfWork
import Cashew.Theorems.Quorum
import Cashew.Theorems.RandomPeers
import Cashew.Theorems.RateLimits
import Cashew.Theorems.Reconciliation
import Cashew.Theorems.Redundancy
import Cashew.Theorems.Replication
import Cashew.Theorems.ReputationScores
import Cashew.Theorems.RequestForwarding
import Cashew.Theorems.RevocationCodec
import Cashew.Theorems.RevocationSets
import Cashew.Theorems.RouterCodec
import Cashew.Theorems.RouterCompletion
import Cashew.Theorems.RouterDelivery
import Cashew.Theorems.RouterRoutes
import Cashew.Theorems.RoutingIndex
import Cashew.Theorems.Serialization
import Cashew.Theorems.SessionAgreement
import Cashew.Theorems.SessionLifecycle
import Cashew.Theorems.SessionReuse
import Cashew.Theorems.SimultaneousOpen
import Cashew.Theorems.SocketAddress
import Cashew.Theorems.StaleNodes
import Cashew.Theorems.StateRelations
import Cashew.Theorems.StaticFiles
import Cashew.Theorems.StunMessages
import Cashew.Theorems.SyncCodec
import Cashew.Theorems.SyncRequests
import Cashew.Theorems.ThingRoundTrip
import Cashew.Theorems.TokenLifetime
import Cashew.Theorems.TokenRevocation
import Cashew.Theorems.TrafficPadding
import Cashew.Theorems.TransitiveTrust
import Cashew.Theorems.TrustGraph
import Cashew.Theorems.TrustPaths
import Cashew.Theorems.TrustSearches
import Cashew.Theorems.Uptime
import Cashew.Theorems.VouchImpacts
import Cashew.Theorems.VouchRequests
import Cashew.Theorems.Vouching
import Cashew.Theorems.VouchingChains
import Cashew.Theorems.WebSocketLocks
import Cashew.Theorems.WebSocketRuns
