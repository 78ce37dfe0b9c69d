import Madoka.Core.CommandLine
import Madoka.Core.ConfigFile
import Madoka.Core.PortList
import Madoka.Core.SavedConfig
import Madoka.Core.SharedPorts
import Madoka.Core.Startup
import Madoka.Crypto.Identity
import Madoka.Crypto.Sha256
import Madoka.Crypto.Tls
import Madoka.Daemon.Accounting
import Madoka.Daemon.Addresses
import Madoka.Daemon.Admission
import Madoka.Daemon.ContactValidity
import Madoka.Daemon.Contacts
import Madoka.Daemon.Convergence
import Madoka.Daemon.DataPlane
import Madoka.Daemon.Delivery
import Madoka.Daemon.Exchange
import Madoka.Daemon.FastPath
import Madoka.Daemon.Handshake
import Madoka.Daemon.HeaderChain
import Madoka.Daemon.Invitations
import Madoka.Daemon.JoinAtomic
import Madoka.Daemon.JoinHandshake
import Madoka.Daemon.JoinRun
import Madoka.Daemon.LiveHops
import Madoka.Daemon.PeerBlocks
import Madoka.Daemon.PortWindow
import Madoka.Daemon.PowerLoss
import Madoka.Daemon.Rebuild
import Madoka.Daemon.ReconnectStep
import Madoka.Daemon.Reconnection
import Madoka.Daemon.Replies
import Madoka.Daemon.Restart
import Madoka.Daemon.RouteChoice
import Madoka.Daemon.RoutingSync
import Madoka.Daemon.RoutingThreads
import Madoka.Daemon.SessionLoop
import Madoka.Daemon.Settling
import Madoka.Daemon.ShortestDelivery
import Madoka.Daemon.StatusFile
import Madoka.Daemon.Traffic
import Madoka.Daemon.TrustedSends
import Madoka.Daemon.Turns
import Madoka.Lib.AsyncVector
import Madoka.Lib.Best
import Madoka.Lib.Bisect
import Madoka.Lib.DistanceVector
import Madoka.Lib.Durable
import Madoka.Lib.FirstMatch
import Madoka.Lib.IdleWindow
import Madoka.Lib.LowerBound
import Madoka.Lib.Nearest
import Madoka.Lib.Recency
import Madoka.Lib.Run
import Madoka.Lib.Sorting
import Madoka.Lib.Tally
import Madoka.Lib.Threshold
import Madoka.Network.ClosestContacts
import Madoka.Network.ContactRecency
import Madoka.Network.DataSerialization
import Madoka.Network.DecodeInto
import Madoka.Network.Freshness
import Madoka.Network.Join
import Madoka.Network.Kademlia
import Madoka.Network.KademliaRuns
import Madoka.Network.Messages
import Madoka.Network.Refusals
import Madoka.Network.RouteTableRuns
import Madoka.Network.RouteUpdate
import Madoka.Network.Routing
import Madoka.Network.SelfLookup
import Madoka.Network.Serialization
import Madoka.Network.Topology
import Madoka.Network.UpdateEffect
import Madoka.Network.WireStack
import Madoka.Protocol.Codec
import Madoka.Security.Canonical
import Madoka.Security.Invite
import Madoka.Security.Trust
import Madoka.Security.TrustAtomic
import Madoka.Security.TrustStore
import Madoka.Transport.Channel
import Madoka.Transport.EndOfStream
import Madoka.Transport.ErrorPointer
import Madoka.Transport.Framing
import Madoka.Transport.Session
import Madoka.Transport.TlsLiveness
