import OutlineProxy.Carrier.EarlyShape
import OutlineProxy.Carrier.PaddingExact
import OutlineProxy.Routing.Shared
import OutlineProxy.Server.HeldHeader
import OutlineProxy.Server.OrphanRuns
import OutlineProxy.Server.Replay
import OutlineProxy.Server.ReplayWindows
import OutlineProxy.Server.UplinkBudget
import OutlineProxy.Server.VlessMux
import OutlineProxy.Server.XhttpDownlink
import OutlineProxy.Shadowsocks.Connection
import OutlineProxy.Shadowsocks.UdpBody
import OutlineProxy.Socks.Chunk0Failover
import OutlineProxy.Socks.DownlinkExact
import OutlineProxy.Socks.RetryExact
import OutlineProxy.Socks.UdpReassembly
import OutlineProxy.Tcp.AckOptions
import OutlineProxy.Tcp.BandwidthFilter
import OutlineProxy.Tcp.ExactlyOnce
import OutlineProxy.Tcp.FinAck
import OutlineProxy.Tcp.HeapBound
import OutlineProxy.Tcp.LossVisible
import OutlineProxy.Tcp.NextWake
import OutlineProxy.Tcp.Receipts
import OutlineProxy.Tcp.UplinkExact
import OutlineProxy.Transport.UdpMux
import OutlineProxy.Transport.UdpReplies
import OutlineProxy.Transport.UplinkWindow
import OutlineProxy.Tun.CarrierEviction
import OutlineProxy.Tun.Checksums
import OutlineProxy.Tun.Defrag.Outcome
import OutlineProxy.Tun.FlowGauge
import OutlineProxy.Tun.FlowReaders
import OutlineProxy.Tun.RouteMemory
import OutlineProxy.Tun.UdpWire
import OutlineProxy.Uplink.SlotKeys
import OutlineProxy.Uplink.StandbyPool
import OutlineProxy.Vless.Request
import OutlineProxy.Vless.UdpHeader
