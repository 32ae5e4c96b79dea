import GuixP2p.Lib.Machine
import GuixP2p.Daemon.BlockFetch
import GuixP2p.Daemon.FetchMoves
import GuixP2p.Daemon.FetchInvariants
import GuixP2p.Daemon.FetchSafety
import GuixP2p.Daemon.Handshake
import GuixP2p.NarStore.Serve
import GuixP2p.Daemon.HonestSwarm
import GuixP2p.Daemon.Relay
import GuixP2p.Daemon.RelayEffects
import GuixP2p.Daemon.RelayHandshakes
import GuixP2p.Daemon.RelayBlocks
import GuixP2p.Lib.Sexp
import GuixP2p.Lib.Text
import GuixP2p.Narinfo
import GuixP2p.Narinfo.Signature
import GuixP2p.Config
import GuixP2p.Lib.Action
import GuixP2p.Lib.FileSystem
import GuixP2p.NarHash
import GuixP2p.StorePath
import GuixP2p.Daemon.DownloadLoop
import GuixP2p.HttpClient
import GuixP2p.NarStore.Save
import GuixP2p.Daemon.Protocol
import GuixP2p.Daemon.Metadata
import GuixP2p.Daemon.P2pDownload
import GuixP2p.Daemon.Substitute
import GuixP2p.Daemon.SubstituteSafety
import GuixP2p.Daemon.Query
import GuixP2p.Daemon.Requests
import GuixP2p.Daemon.Binding
import GuixP2p.Narinfo.Boundary
import GuixP2p.Swarm.Assembly
import GuixP2p.Connection
import GuixP2p.Connection.Dial
import GuixP2p.Reputation
import GuixP2p.Runtime.Connections
import GuixP2p.Runtime.FailedDials
import GuixP2p.Runtime.PublicAddresses
import GuixP2p.Runtime.HandshakeCharges
import GuixP2p.Daemon.BlockSizes
import GuixP2p.NarStore.Index
import GuixP2p.NarStore.Integrity
import GuixP2p.NarStore.Effects
import GuixP2p.NarStore.Reopen
import GuixP2p.Daemon.SocketWriter
import GuixP2p.Relay.Forward
import GuixP2p.Relay.Steps
import GuixP2p.Relay.Runs
import GuixP2p.Extension.Socket
import GuixP2p.Relay.RoundTrip
import GuixP2p.Daemon.LogLines
import GuixP2p.Daemon.Stream
import GuixP2p.Relay.Cut
import GuixP2p.Relay.CutDaemon
import GuixP2p.Extension.Session
import GuixP2p.Lib.Digits
import GuixP2p.NarHash.Base32
import GuixP2p.NarHash.Grammar
import GuixP2p.HttpClient.Search
import GuixP2p.Narinfo.Records
import GuixP2p.Daemon.Dispatch
import GuixP2p.PeerStore
import GuixP2p.PeerStore.Persistence
import GuixP2p.PeerStore.Eviction
import GuixP2p.Daemon.LocalMetadata
import GuixP2p.Daemon.Advertise
import GuixP2p.Daemon.QueryStream
import GuixP2p.Extension.BuiltinFirst
import GuixP2p.Dashboard
import GuixP2p.Dashboard.Removal
import GuixP2p.Dashboard.SeedConfig
import GuixP2p.Dashboard.ConfigFrame
import GuixP2p.Daemon.BlockLoss
import GuixP2p.Daemon.Stall
import GuixP2p.Swarm.HeldBytes
import GuixP2p.Daemon.Progress
import GuixP2p.Connection.History
import GuixP2p.Lib.Ranking
import GuixP2p.Reputation.Ban
import GuixP2p.Daemon.Selection
import GuixP2p.Daemon.Credit
import GuixP2p.NarStore.BlockCounts
import GuixP2p.NarStore.FailedSave
import GuixP2p.Lib.Folds
import GuixP2p.Dht
import GuixP2p.Dht.LookupKey
import GuixP2p.Dht.Providers
import GuixP2p.Lib.Fairness
import GuixP2p.Daemon.Liveness
import GuixP2p.Daemon.Starvation
import GuixP2p.Daemon.Replication
import GuixP2p.Dht.Discovery
import GuixP2p.Daemon.Announcements
import GuixP2p.Daemon.HealthMonitor
import GuixP2p.Daemon.ProviderWait
import GuixP2p.Relay.Transparent
import GuixP2p.Extension.SubstituteFirst
import GuixP2p.Runtime.Uploads
import GuixP2p.Runtime.Restart
import GuixP2p.Dashboard.Registries
import GuixP2p.Relay.Queries
