import Bairelay.Udp.Reorder
import Bairelay.Udp.Link
import Bairelay.Lib.Streaming
import Bairelay.Lib.Incremental
import Bairelay.Bc.Codex
import Bairelay.Bc.De
import Bairelay.Bc.RoundTrip
import Bairelay.Codec.Audio
import Bairelay.Codec.Nal
import Bairelay.Media.Frame
import Bairelay.Media.GapBridging
import Bairelay.Media.StreamTranslate
import Bairelay.Lib.Bypass
import Bairelay.Media.Pacer
import Bairelay.Media.StreamSource
import Bairelay.BcMedia.De
import Bairelay.BcMedia.Ser
import Bairelay.Lib.Framing
import Bairelay.BcMedia.Codex
import Bairelay.BcUdp.De
import Bairelay.BcUdp.Ser
import Bairelay.BcUdp.Codex
import Bairelay.Bc.Session
import Bairelay.Connection.Poller
import Bairelay.Connection.Snap
import Bairelay.Connection.SnapRun
import Bairelay.Lib.Purge
import Bairelay.Udp.Source
import Bairelay.Udp.Foreign
import Bairelay.Lib.Fragment
import Bairelay.Rtsp.Rtp
import Bairelay.Rtsp.Packetizer
import Bairelay.Rtsp.Depacketizer
import Bairelay.Rtsp.SessionTask
import Bairelay.Media.Announce
import Bairelay.Rtsp.ReadLoop
import Bairelay.Rtsp.Auth
import Bairelay.Rtsp.Session
import Bairelay.Rtsp.Server
import Bairelay.Rtsp.ServerStep
import Bairelay.Lib.Schedule
import Bairelay.Rtsp.PlayGate
import Bairelay.Rtsp.Cleanup
import Bairelay.Rtsp.SessionOutput
import Bairelay.Rtsp.Access
import Bairelay.Rtsp.SetupAnswers
import Bairelay.Lib.Gate
import Bairelay.Media.SentFrames
import Bairelay.Rtsp.BurstToLive
import Bairelay.Camera.Handle
import Bairelay.Camera.Teardown
import Bairelay.Camera.Subscription
import Bairelay.Lib.Capped
import Bairelay.Wake.Server
import Bairelay.Wake.Admission
import Bairelay.Lib.Notify
import Bairelay.Lib.Writes
import Bairelay.Mqtt.Discovery
import Bairelay.Camera.PushFallback
import Bairelay.Camera.WarmCycle
import Bairelay.Mqtt.Ghosts
import Bairelay.Mqtt.Republish
import Bairelay.Camera.BatteryLatch
import Bairelay.Mqtt.Control
import Bairelay.Camera.WakeLock
import Bairelay.Camera.GracePeriod
import Bairelay.Camera.IdleSince
import Bairelay.Udp.Acks
import Bairelay.Udp.Wrap
import Bairelay.Media.ReplayClock
import Bairelay.Media.PacerSchedule
import Bairelay.Media.VideoPacing
import Bairelay.Lib.StablePartition
import Bairelay.Media.AccessUnit
import Bairelay.Rtsp.KeyFrame
import Bairelay.Bc.PartialMedia
import Bairelay.Codec.AnnexB
import Bairelay.Lib.Backlog
import Bairelay.Lib.UriReference
import Bairelay.Media.AudioFrames
import Bairelay.Rtsp.Digest
import Bairelay.Rtsp.LastFrame
import Bairelay.Rtsp.RtpInfo
import Bairelay.Rtsp.Sdp
import Bairelay.Rtsp.Tracks
import Bairelay.Rtsp.UdpPool
import Bairelay.BcMedia.Extent
import Bairelay.BcMedia.Accessors
import Bairelay.Camera.Clock
import Bairelay.Camera.Motion
import Bairelay.Codec.Adpcm
import Bairelay.Config.Durations
import Bairelay.Config.Merge
import Bairelay.Lib.AnyOrder
import Bairelay.Wake.Resolve
import Bairelay.Udp.Latency
import Bairelay.Lib.Locked
import Bairelay.Rtsp.Interleaved
import Bairelay.Wake.Address
import Bairelay.Wake.Client
import Bairelay.Wake.RegisterCall
import Bairelay.Camera.ConnectLoop
import Bairelay.Connection.Discoverer
import Bairelay.Connection.FindCamera
import Bairelay.Connection.Registration
