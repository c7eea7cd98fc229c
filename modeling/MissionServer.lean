import MissionServer.Lib.Machine
import MissionServer.Lib.Crc
import MissionServer.Lib.Codec
import MissionServer.Lib.PushLoop
import MissionServer.Lib.CriticalSection
import MissionServer.Serial
import MissionServer.RtspStream
import MissionServer.SiyiCamera
import MissionServer.Device
import MissionServer.Config.Rc
import MissionServer.MavlinkPublisher
import MissionServer.MavlinkReceiver
import MissionServer.Lib.History
import MissionServer.Lib.Blocks
import MissionServer.Proof.Handlers
import MissionServer.Proof.Recorder
import MissionServer.Proof.VideoStatus
import MissionServer.Proof.AbsentCamera
import MissionServer.Proof.Ack
import MissionServer.UartServer.UserCmd
import MissionServer.Proof.UserCmd
import MissionServer.Proof.TuneRequests
import MissionServer.UartServer.Kernel
import MissionServer.UartServer.Clients
import MissionServer.UartServer.MainLoop
import MissionServer.Proof.Steps
import MissionServer.Proof.Logs
import MissionServer.Proof.Broadcast
import MissionServer.Proof.ClientList
import MissionServer.Proof.Forwarding
import MissionServer.Proof.Frames
import MissionServer.Proof.Delivery
import MissionServer.Proof.Isolation
import MissionServer.Config.Serial
import MissionServer.Proof.SerialConfig
import MissionServer.Config.Devices
import MissionServer.Proof.SiyiFrames
import MissionServer.Lib.Transducer
import MissionServer.Proof.RcControl
import MissionServer.Proof.RcSwitches
import MissionServer.Proof.GimbalControl
import MissionServer.Proof.ZoomControl
import MissionServer.Proof.CameraWire
import MissionServer.Proof.Retransmission
import MissionServer.Lib.Floor
import MissionServer.Proof.Turns
import MissionServer.Lib.LinkedList
import MissionServer.UartServer.Pointers
import MissionServer.Proof.Pointers
import MissionServer.Proof.Lifecycle
import MissionServer.Proof.Sequence
import MissionServer.Proof.ServerActions
import MissionServer.Proof.Unrecorded
import MissionServer.Proof.AnswerStream
import MissionServer.Proof.EarlyAnswers
import MissionServer.Proof.Handshake
import MissionServer.Proof.Captures
import MissionServer.Proof.CaptureOrder
import MissionServer.Proof.Command
import MissionServer.Proof.LoadParams
import MissionServer.Proof.DeviceConfig
import MissionServer.Lib.CrcDistance
import MissionServer.Lib.Decimal
import MissionServer.Lib.CrcPoly
import MissionServer.Proof.Checksum
import MissionServer.Proof.CrcErrors
import MissionServer.UartServer.Start
import MissionServer.Main
import MissionServer.System
import MissionServer.Proof.Port
import MissionServer.Proof.SerialWrite
import MissionServer.Proof.SerialLock
import MissionServer.Proof.Snapshots
import MissionServer.Lib.Linearization
import MissionServer.RtspStream.Threads
import MissionServer.Proof.SnapshotThreads
import MissionServer.RtspStream.RecorderThreads
import MissionServer.Proof.RecorderThreads
import MissionServer.Config.RcFile
import MissionServer.Proof.RcConfig
import MissionServer.Proof.TextFiles
import MissionServer.Proof.HandOver
import MissionServer.Lib.Ledger
import MissionServer.UartServer.Life
import MissionServer.Proof.Descriptors
import MissionServer.Lib.Periodic
import MissionServer.MavlinkPublisher.TxThread
import MissionServer.Proof.Heartbeats
