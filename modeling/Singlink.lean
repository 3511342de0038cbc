import Singlink.Lib.GoMap
import Singlink.Lib.Runs
import Singlink.Lib.GoStrings
import Singlink.Lib.Prog
import Singlink.Lib.Wire
import Singlink.Lib.Cached
import Singlink.Common.Sniff
import Singlink.Route.Rule.MatchState
import Singlink.Route.Rule.Abstract
import Singlink.Route.Rule.Meaning
import Singlink.Route.Rule.RuleSet
import Singlink.Route.Router
import Singlink.Route.Fidelity
import Singlink.V2Board.Types
import Singlink.V2Board.Tracker
import Singlink.V2Board.Held
import Singlink.V2Board.Snapshot
import Singlink.V2Board.Conservation
import Singlink.V2Board.DeviceLimit
import Singlink.V2Board.Routing
import Singlink.V2Board.Rules
import Singlink.V2Board.Digest
import Singlink.V2Board.Panel
import Singlink.V2Board.Controller
import Singlink.V2Board.Close
import Singlink.V2Board.Status
import Singlink.V2Board.Push
import Singlink.V2Board.InPlace
import Singlink.V2Board.SyncRuns
import Singlink.Route.Conn
import Singlink.Route.CloseOnce
import Singlink.Lib.Rely
import Singlink.Route.Trackers
import Singlink.Dns.Cache
import Singlink.Dns.CacheAgree
import Singlink.Dns.Client
import Singlink.Dns.Transparency
import Singlink.Dns.Checked
import Singlink.Dns.Router
import Singlink.Dns.Modes
import Singlink.Dns.LegacyMode
import Singlink.Route.Rule.RemoteRuleSet
import Singlink.Route.Rule.BaseStates
import Singlink.Lib.Codec
import Singlink.Srs.Binary
import Singlink.Srs.Items
import Singlink.Srs.RoundTrip
import Singlink.Lib.Indexed
import Singlink.Adapter.Inbound
import Singlink.Adapter.Dependencies
import Singlink.Adapter.Outbound
import Singlink.Dns.TransportManager
import Singlink.Dns.CacheClear
import Singlink.Dns.FakeIP.Store
import Singlink.Lib.Rotation
import Singlink.Dns.FakeIP.Memory
import Singlink.Dns.FakeIP.Restarts
import Singlink.Dns.FakeIP.CacheFile
import Singlink.Service.Resolved
import Singlink.Dns.ConnPool
import Singlink.Dns.ConnPool.Places
import Singlink.Dns.ConnPool.Runs
import Singlink.Hysteria2.RealmServer
import Singlink.Lib.Metered
import Singlink.Srs.Metered
import Singlink.Srs.Bounds
import Singlink.Service.UserManager
import Singlink.V2Board.Blocks
import Singlink.V2Board.Retry
import Singlink.Transport.Trojan
import Singlink.V2Board.Mapper
import Singlink.V2Board.MapperTLS
import Singlink.V2Board.UserNames
import Singlink.Lib.Msgpack
import Singlink.V2Board.Msgpack
import Singlink.V2Board.MsgpackGrammar
import Singlink.V2Board.UserList
import Singlink.V2Board.UserListFormats
import Singlink.V2Board.Backoff
import Singlink.Dns.ClientSubnet
import Singlink.Lib.Exec
import Singlink.TLSFragment.Index
import Singlink.TLSFragment.Conn
import Singlink.Service.LinkDomains
import Singlink.Adapter.StartOutbounds
import Singlink.Common.Geosite
import Singlink.Transport.TrojanStream
import Singlink.Protocol.Naive
import Singlink.Common.Stun
import Singlink.Protocol.URLTest
import Singlink.Service.UserRequests
import Singlink.V2Board.RateLimit
