import PiWebrtc.Lib.Machine
import PiWebrtc.Lib.Threads
import PiWebrtc.Lib.FileTree
import PiWebrtc.Lib.FilePath
import PiWebrtc.Lib.Scatter
import PiWebrtc.Lib.Raster
import PiWebrtc.Lib.Rewrite
import PiWebrtc.Lib.Lanes
import PiWebrtc.Lib.Decimal
import PiWebrtc.Lib.TextStream
import PiWebrtc.Lib.PercentEncoding
import PiWebrtc.Lib.Base64
import PiWebrtc.Lib.Calendar
import PiWebrtc.Lib.Descending
import PiWebrtc.Lib.OrderStatistics
import PiWebrtc.Lib.Rounding
import PiWebrtc.Lib.SortedMap
import PiWebrtc.Lib.Rescale
import PiWebrtc.Lib.Json
import PiWebrtc.Lib.ConfigFormat
import PiWebrtc.Common.Subject
import PiWebrtc.Common.Unsubscribe
import PiWebrtc.Common.FrameBuffer
import PiWebrtc.Common.LatencyTracer
import PiWebrtc.Common.SideTable
import PiWebrtc.Recorder.RotateFiles
import PiWebrtc.Recorder.RotationProgress
import PiWebrtc.Recorder.MediaQuery
import PiWebrtc.Recorder.Thumbnails
import PiWebrtc.Recorder.OlderFiles
import PiWebrtc.Recorder.LatestFile
import PiWebrtc.Recorder.BeforeTime
import PiWebrtc.Recorder.QueryPaths
import PiWebrtc.Recorder.QueryEscapes
import PiWebrtc.Recorder.ConfinedQueries
import PiWebrtc.Recorder.RecorderManager
import PiWebrtc.Recorder.ContainerLifecycle
import PiWebrtc.Recorder.Keyframes
import PiWebrtc.Recorder.StopWins
import PiWebrtc.Recorder.Segments
import PiWebrtc.Recorder.AudioRecorder
import PiWebrtc.Recorder.VideoTimestamps
import PiWebrtc.Recorder.StreamLifetime
import PiWebrtc.DataChannel.Packet
import PiWebrtc.DataChannel.RtcChannel
import PiWebrtc.DataChannel.FileStream
import PiWebrtc.DataChannel.SendLoop
import PiWebrtc.DataChannel.IpcChannel
import PiWebrtc.DataChannel.Reassembly
import PiWebrtc.DataChannel.Delivery
import PiWebrtc.DataChannel.ChunkBounds
import PiWebrtc.DataChannel.RoundTrip
import PiWebrtc.DataChannel.Remotes
import PiWebrtc.DataChannel.LossyInput
import PiWebrtc.Ipc.UnixSocketServer
import PiWebrtc.Ipc.Descriptors
import PiWebrtc.Ipc.Shutdown
import PiWebrtc.Ipc.PublishLatest
import PiWebrtc.Ipc.LatestData
import PiWebrtc.Ipc.LatestMessages
import PiWebrtc.Ipc.SocketWrites
import PiWebrtc.Ipc.WrittenData
import PiWebrtc.Ipc.WholeMessages
import PiWebrtc.Ipc.GamepadEndpoint
import PiWebrtc.Ipc.SnapshotOrder
import PiWebrtc.Rtc.RtcPeer
import PiWebrtc.Rtc.Renegotiation
import PiWebrtc.Rtc.PendingIce
import PiWebrtc.Rtc.ConnectDeadline
import PiWebrtc.Rtc.LocalSdp
import PiWebrtc.Rtc.RestartIce
import PiWebrtc.Rtc.TracingVideoEncoder
import PiWebrtc.Rtc.BitrateBounds
import PiWebrtc.Rtc.AudioDeviceBridge
import PiWebrtc.Rtc.CFloat
import PiWebrtc.Rtc.RecordedAudio
import PiWebrtc.Signaling.PeerRegistry
import PiWebrtc.Signaling.MqttService
import PiWebrtc.Signaling.ClientMaps
import PiWebrtc.Signaling.PeerLifetime
import PiWebrtc.Signaling.MqttMessages
import PiWebrtc.Signaling.LiveKitService
import PiWebrtc.Signaling.LiveKitTargets
import PiWebrtc.Signaling.MalformedMessages
import PiWebrtc.Signaling.WebSocketClient
import PiWebrtc.Signaling.WebSocketWrites
import PiWebrtc.Signaling.CloudflareService
import PiWebrtc.Signaling.CloudflareReplies
import PiWebrtc.Signaling.CloudflareDevice
import PiWebrtc.Signaling.CloudflareConnections
import PiWebrtc.Signaling.CloudflareRefinement
import PiWebrtc.Signaling.CloudflareReady
import PiWebrtc.Signaling.CloudflareTimers
import PiWebrtc.Signaling.WhepService
import PiWebrtc.Signaling.CandidateMids
import PiWebrtc.Signaling.IceFragment
import PiWebrtc.Signaling.IceRestarts
import PiWebrtc.Signaling.HttpSession
import PiWebrtc.Signaling.Url
import PiWebrtc.Codecs.V4L2Codec
import PiWebrtc.Codecs.CaptureBuffers
import PiWebrtc.Codecs.CapturingTasks
import PiWebrtc.Codecs.BufferIndices
import PiWebrtc.Codecs.JetsonScaler
import PiWebrtc.Codecs.JetsonDecoder
import PiWebrtc.Codecs.JetsonCallbacks
import PiWebrtc.Codecs.JetsonEncoder
import PiWebrtc.Codecs.EncoderTasks
import PiWebrtc.Codecs.Openh264VideoEncoder
import PiWebrtc.Codecs.ResolutionGears
import PiWebrtc.Capturer.RtspCapturer
import PiWebrtc.Capturer.V4L2Capturer
import PiWebrtc.Codecs.InputBuffers
import PiWebrtc.Codecs.CopyPlanes
import PiWebrtc.Codecs.FfmpegDecoder
import PiWebrtc.Track.V4L2DmaTrackSource
import PiWebrtc.Capturer.LibcameraCapturer
import PiWebrtc.Parser.LivekitUrl
import PiWebrtc.Parser.ConfigFile
import PiWebrtc.Parser.CameraControls
import PiWebrtc.Parser.ParseArgs
import PiWebrtc.Signaling.HttpClient
