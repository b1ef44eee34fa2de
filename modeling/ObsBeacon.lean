import ObsBeacon.Lib.Runs
import ObsBeacon.Lib.BoundedLog
import ObsBeacon.Lib.BoundedWriter
import ObsBeacon.Lib.Amf0
import ObsBeacon.PacketProbe.UnitOrder
import ObsBeacon.PacketProbe.Injection
import ObsBeacon.ConnectionMonitor.Lifecycle
import ObsBeacon.ConnectionMonitor.Balance
import ObsBeacon.ConnectionMonitor.Routing
import ObsBeacon.ConnectionMonitor.StateMachine
import ObsBeacon.ConnectionMonitor.Snapshot
import ObsBeacon.LogCapture
import ObsBeacon.LogWindow
import ObsBeacon.Rtmp.SessionId
import ObsBeacon.Rtmp.UserArguments
import ObsBeacon.Lib.Windows
import ObsBeacon.PacketProbe.Sessions
import ObsBeacon.Lib.FloorMean
import ObsBeacon.PacketProbe.Latency
import ObsBeacon.PacketProbe.WindowClock
import ObsBeacon.ConnectionMonitor.Tracks
import ObsBeacon.PacketProbe.WallClock
import ObsBeacon.PacketProbe.CheckedScan
import ObsBeacon.PacketProbe.Tiling
import ObsBeacon.Lib.RefHeap
import ObsBeacon.PacketProbe.CopyOnWrite
import ObsBeacon.DiagnosticsDock.Refresh
import ObsBeacon.DiagnosticsDock.Route
import ObsBeacon.Lib.Splice
import ObsBeacon.LogHandlers
import ObsBeacon.PacketProbe.EmulationPrevention
import ObsBeacon.Lib.Transport
import ObsBeacon.Rtmp.ChunkBounds
import ObsBeacon.Rtmp.FlvSession
import ObsBeacon.Lib.Dropping
import ObsBeacon.Rtmp.DynamicBitrate
import ObsBeacon.Rtmp.PacketQueue
import ObsBeacon.Rtmp.SendThread
import ObsBeacon.Rtmp.SendBalance
import ObsBeacon.Rtmp.SendOrder
import ObsBeacon.Rtmp.SocketThread
import ObsBeacon.Lib.Memory
import ObsBeacon.Rtmp.AmfBounds
import ObsBeacon.Rtmp.AmfWellFormed
import ObsBeacon.Rtmp.AmfRoundTrip
import ObsBeacon.Rtmp.AmfLongString
