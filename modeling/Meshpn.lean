import Meshpn.Lib.Process
import Meshpn.Lib.Text
import Meshpn.Lib.Ambient
import Meshpn.Lib.Bytes
import Meshpn.Lib.InFlight
import Meshpn.Dns.GuardJournal
import Meshpn.Dns.GuardSafety
import Meshpn.Dns.ResolvedJournal
import Meshpn.Dns.ResolvedSafety
import Meshpn.Dns.OwnedLink
import Meshpn.Dns.CoupledJournal
import Meshpn.Dns.CoupledInvariant
import Meshpn.Dns.OwnedLinkSafety
import Meshpn.Dns.CoupledSettings
import Meshpn.Dns.CoupledSafety
import Meshpn.Dns.LifecycleJournal
import Meshpn.Transport.SendBuffer
import Meshpn.Transport.WebRtc
import Meshpn.Transport.Coalescing
import Meshpn.Transport.SendOrder
import Meshpn.Mesh.Packet
import Meshpn.Lib.Buffer
import Meshpn.Mesh.Delivery
import Meshpn.Tls.Assembly
import Meshpn.Tls.CutHello
import Meshpn.Tls.Peek
import Meshpn.Tls.Incremental
import Meshpn.Tls.SniRewrite
import Meshpn.Tls.HelloPieces
import Meshpn.Tls.SniInverse
import Meshpn.Tls.RetryRelay
import Meshpn.Tls.ReplayGuard
import Meshpn.Tls.EncSniRoundTrip
import Meshpn.Tls.DestinationSafety
import Meshpn.TunnelDns.ClosedSteps
import Meshpn.TunnelDns.FailClosed
import Meshpn.TunnelDns.Recovery
import Meshpn.Exit.IcmpEcho
import Meshpn.Exit.TcpTable
import Meshpn.Exit.TcpWindow
import Meshpn.Exit.TcpUplink
import Meshpn.Routing.Routes
import Meshpn.Routing.Topology
import Meshpn.Routing.EdgeRuns
import Meshpn.Signaling.Fingerprint
import Meshpn.Signaling.BindReplay
import Meshpn.Signaling.Registry
import Meshpn.Network.IpManager
import Meshpn.Bridge.FramingRoundTrip
import Meshpn.Bridge.WireOrder
import Meshpn.Bridge.EndpointRelease
import Meshpn.Bridge.EndpointIsolation
import Meshpn.Control.KeyAgreement
import Meshpn.Device.FrameRoundTrip
import Meshpn.Device.RxBatchSafety
import Meshpn.Device.TxQueueSafety
import Meshpn.Device.KillSwitch
import Meshpn.Device.IpRanges
import Meshpn.Device.DnsProxy
import Meshpn.Device.UsbQueueOrder
import Meshpn.Mesh.Receive
import Meshpn.Mesh.Forwarding
import Meshpn.Mesh.FlowIds
import Meshpn.Workers.ExactlyOnce
import Meshpn.Host.RouteRecovery
import Meshpn.Routing.Optimal
import Meshpn.Network.Batcher
import Meshpn.Device.Agreement
import Meshpn.Device.DnsWire
import Meshpn.Dns.Forwarder
import Meshpn.Dns.DohRuns
import Meshpn.Tls.SessionSafety
import Meshpn.Tls.RelayStream
import Meshpn.Routing.HopCount
import Meshpn.Routing.Scheduler
import Meshpn.Routing.SchedulerRuns
import Meshpn.Routing.Reorder
import Meshpn.Network.TunEcho
import Meshpn.Tls.ClockRecovery
import Meshpn.Tls.CoverLimit
import Meshpn.Dns.Names
import Meshpn.Dns.Parsing
import Meshpn.Dns.FailureReplies
import Meshpn.Dns.TtlFields
import Meshpn.Dns.Ageing
import Meshpn.Dns.AgedMessages
import Meshpn.Dns.DomainPolicy
import Meshpn.Lib.Checked
import Meshpn.Device.MssClamp
import Meshpn.Device.ChecksumRepair
import Meshpn.Device.ChecksumSafety
import Meshpn.Lib.Prefixes
import Meshpn.Device.LanConflict
import Meshpn.Device.RouteRules
import Meshpn.Lib.AddressText
import Meshpn.Lib.CString
import Meshpn.Device.VpnProfile
import Meshpn.Device.LogRing
import Meshpn.Device.TxAccounting
import Meshpn.Device.RxDeadline
import Meshpn.Host.VpnIpv6
import Meshpn.Device.ProfileAddress
import Meshpn.Device.VpnRecord
import Meshpn.Device.Ingress
import Meshpn.Tls.Fingerprints
import Meshpn.Tls.HelloParts
import Meshpn.Tls.FingerprintParts
import Meshpn.Tls.FingerprintAgreement
import Meshpn.Tls.Ja4Canonical
import Meshpn.Device.DnsQuestion
import Meshpn.Device.DnsLabels
import Meshpn.Device.DnsReply
