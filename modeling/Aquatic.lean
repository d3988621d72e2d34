import Aquatic.Lib.Transition
import Aquatic.Swarm.PeerMaps
import Aquatic.Swarm.Refinement
import Aquatic.Udp.Swarm
import Aquatic.Udp.SwarmRefinement
import Aquatic.Http.Storage
import Aquatic.Http.StorageRefinement
import Aquatic.Ws.Storage
import Aquatic.Ws.StorageSpec
import Aquatic.Ws.TorrentMapsSpec
import Aquatic.Ws.Ownership
import Aquatic.Ws.Connections
import Aquatic.Ws.PeerIdUse
import Aquatic.Ws.GhostPeers
import Aquatic.Lib.Tickets
import Aquatic.Ws.Offers
import Aquatic.Udp.LostAnnounces
import Aquatic.AutoBan.Policy
import Aquatic.AutoBan.Escalation
import Aquatic.AutoBan.TrackerSpec
import Aquatic.Common.IpBan
import Aquatic.AutoBan.BanGap
import Aquatic.AutoBan.BanChecks
import Aquatic.Ws.SeederCount
import Aquatic.Lib.Slots
import Aquatic.Lib.Ring
import Aquatic.Ws.OnePeer
import Aquatic.AutoBan.ClientBans
import Aquatic.AutoBan.BanSpans
import Aquatic.AutoBan.ClientLadder
import Aquatic.AutoBan.PolicySpec
import Aquatic.AutoBan.BanWrites
import Aquatic.AutoBan.ClientBanFile
import Aquatic.Common.ClientBan
import Aquatic.Common.RequestFilter
import Aquatic.Lib.Bytes
import Aquatic.Udp.Protocol
import Aquatic.Udp.ProtocolSpec
import Aquatic.Udp.TorrentMaps
import Aquatic.Udp.Validator
import Aquatic.Udp.SocketWorker
import Aquatic.Udp.SocketWorkerSpec
import Aquatic.Udp.ConnectionIds
import Aquatic.Udp.ScrapeAnswers
import Aquatic.Udp.TorrentMapsRefinement
import Aquatic.Common.Utf8
import Aquatic.HttpProtocol.Request
import Aquatic.HttpProtocol.RequestRoundTrip
import Aquatic.HttpProtocol.FilteredTargets
import Aquatic.Udp.RequestCodec
import Aquatic.Udp.ResponseSize
import Aquatic.Common.TrustedProxies
import Aquatic.Http.RequestParsing
import Aquatic.Http.Connection
import Aquatic.Http.RequestTarget
import Aquatic.Http.Pipelining
import Aquatic.Ws.ForwardedFor
import Aquatic.Http.Workers
import Aquatic.Http.ScrapeFanOut
import Aquatic.Http.ResponseBuffer
import Aquatic.Http.ResponseSize
import Aquatic.Ws.PendingScrapes
import Aquatic.Ws.ScrapeSlots
import Aquatic.Lib.Tally
import Aquatic.Udp.PeerClients
import Aquatic.Udp.PeerClientsSpec
import Aquatic.Udp.PeerClientCounts
import Aquatic.AutoBan.RecordLimit
import Aquatic.AutoBan.Thresholds
import Aquatic.Common.IpBanLines
import Aquatic.Common.TrustedEntries
import Aquatic.Http.ForwardedHeader
import Aquatic.Common.AddressText
import Aquatic.Common.ListFile
import Aquatic.AutoBan.BanListFile
import Aquatic.Common.AddressDisplay
import Aquatic.AutoBan.ClientBanText
import Aquatic.AutoBan.ClientBanRestart
import Aquatic.Udp.ConnectionAges
import Aquatic.HttpProtocol.UrlDecoding
import Aquatic.HttpProtocol.QueryReference
import Aquatic.HttpProtocol.ResponseCodec
import Aquatic.HttpProtocol.ScrapeFidelity
import Aquatic.Http.ResponseFraming
import Aquatic.Swarm.PeerSelection
import Aquatic.Ws.OfferReceivers
import Aquatic.Common.ClientBanBytes
import Aquatic.Common.SqlKeywords
import Aquatic.WsProtocol.TwentyBytes
import Aquatic.Lib.Json
import Aquatic.WsProtocol.Messages
import Aquatic.WsProtocol.MessageCodec
import Aquatic.Udp.ResponseCodec
import Aquatic.Udp.SendBuffers
import Aquatic.Udp.SendBuffersSpec
import Aquatic.Common.ValidUntil
import Aquatic.Ws.ConnectionHandles
import Aquatic.Http.ConnectionHandles
import Aquatic.Common.Deadlines
import Aquatic.Udp.ShardsRefinement
import Aquatic.Udp.CleaningRounds
import Aquatic.Udp.BufRing
import Aquatic.Udp.BufRingSpec
import Aquatic.Udp.Statistics
import Aquatic.Udp.WorkerLoop
import Aquatic.Udp.WorkerLoopSpec
import Aquatic.Udp.MioWorker
import Aquatic.Udp.MioWorkerSpec
import Aquatic.Lib.Tasks
import Aquatic.Ws.SocketWorker
import Aquatic.Http.SocketWorker
import Aquatic.Ws.SocketWorkerSpec
import Aquatic.Lib.Calls
import Aquatic.Http.Network
import Aquatic.Http.NetworkSpec
import Aquatic.Common.Startup
import Aquatic.Common.StartupSpec
import Aquatic.Common.AccessListFile
import Aquatic.Common.Reloads
import Aquatic.Common.ReloadsSpec
