import Mathlib.Algebra.Order.Ring.Rat
import Mathlib.Algebra.Order.Ring.Abs
import MissionServer.Config.Rc
import MissionServer.Device
import MissionServer.MavlinkPublisher

/-!
# mavlink_receiver.c

The handlers of the messages that come from the flight controller. Their statics, the video status of
`mavlink_publisher.c` and the camera table are one state. Floats are read as exact rationals. The
parser and the decoders are generated code and come as a parameter.
-/

namespace MissionServer

/-- The channels of RC_CHANNELS that the handler reads. -/
structure RcChannels where
  chan1Raw : UInt16
  chan2Raw : UInt16
  chan5Raw : UInt16
  chan9Raw : UInt16
  chan13Raw : UInt16
  chan14Raw : UInt16
  deriving DecidableEq, Repr

structure MavlinkMessage where
  msgid : Nat
  sysid : UInt8
  compid : UInt8
  payload : Bytes
  deriving DecidableEq, Repr

/-- The generated MAVLink library: its parser with a state of its own, its decoders, and the bytes it
sends for a message. -/
structure MavlinkLib (ψ : Type) where
  parseChar : ψ → UInt8 → ψ × Option MavlinkMessage
  rcChannelsDecode : MavlinkMessage → RcChannels
  commandLongDecode : MavlinkMessage → CommandLong
  toSendBuffer : MavlinkFrame → Bytes

structure Mav where
  devs : CameraDevs := fun _ => {}
  rcChannels : Fin 18 → ConfigRc := fun _ => {}
  videoStatus : Bool := false
  serialIsReady : Bool := false
  fcuSysid : UInt8 := 0
  camYaw : Rat := 0
  camPitch : Rat := 0
  buttonALast : UInt16 := 0
  buttonSnapshotLast : UInt16 := 0
  recordLast : UInt16 := 0
  zoomRatio : Int := 10
  zoomDir : Int := 0
  zoomStop : Bool := false

inductive MavOutput
  | device (output : DeviceOutput)
  | frame (frame : MavlinkFrame)
  deriving DecidableEq, Repr

abbrev MavStep := Mav → Mav × List MavOutput

/-- One step after the other, with the outputs in order. -/
def MavStep.andThen (f g : MavStep) : MavStep := fun m =>
  ((g (f m).1).1, (f m).2 ++ (g (f m).1).2)

/-- A call on the camera table. -/
def onDevs (call : CameraDevs → CameraDevs × List DeviceOutput) : MavStep := fun m =>
  ({ m with devs := (call m.devs).1 }, (call m.devs).2.map .device)

/-- Messages sent, without a change of state. -/
def sendFrames (frames : Mav → List MavlinkFrame) : MavStep := fun m => (m, (frames m).map .frame)

/-! ### The video status

The camera number is not looked at. -/

def setVideoStatus (_camId : Int) (m : Mav) : Mav := { m with videoStatus := true }
def resetVideoStatus (_camId : Int) (m : Mav) : Mav := { m with videoStatus := false }
def getVideoStatus (_camId : Int) (m : Mav) : Bool := m.videoStatus

/-! ### RC_CHANNELS -/

/-- `bound_float` of util.h. -/
def boundFloat (val max min : Rat) : Rat :=
  if val > max then max else if val < min then min else val

/-- An RC signal mapped to [-100, 100], reversed where the configuration says so. The ends are subtracted as
`int`, which wraps. -/
def rcSignal (raw : UInt16) (config : ConfigRc) : Rat :=
  ((raw.toNat : Rat) - config.mid) / (((config.max - config.min).bmod (2 ^ 32) : Int) : Rat) * 200 *
    (if config.reverse then -1 else 1)

/-- An axis moves by `INC` where the stick is more than half way out. -/
def rcIncrease (angle signal : Rat) : Rat :=
  if |signal| > 50 then angle + 3 / 10 * (if signal < 0 then -1 else 1) else angle

/-- The float-to-`int16_t` conversion of `gimbal_rotate`'s arguments, towards zero. -/
def toInt16 (q : Rat) : Int16 := Int16.ofInt (q.num.tdiv q.den)

/-- The remembered positions start at 0 and take the first value that comes. -/
def rcInitialization (rc : RcChannels) : MavStep := fun m =>
  ({ m with
      buttonALast := if m.buttonALast = 0 then rc.chan5Raw else m.buttonALast
      recordLast := if m.recordLast = 0 then rc.chan14Raw else m.recordLast
      buttonSnapshotLast := if m.buttonSnapshotLast = 0 then rc.chan13Raw else m.buttonSnapshotLast }, [])

def rcControl (rc : RcChannels) : MavStep := fun m =>
  let rcYaw := rcSignal rc.chan1Raw (getRcConfig m.rcChannels 1)
  let rcPitch := rcSignal rc.chan2Raw (getRcConfig m.rcChannels 2)
  ({ m with
      camYaw := boundFloat (rcIncrease m.camYaw rcYaw) 135 (-135)
      camPitch := boundFloat (rcIncrease m.camPitch rcPitch) 25 (-90) }, [])

def rcButtonA (rc : RcChannels) : MavStep := fun m =>
  if rc.chan5Raw ≠ m.buttonALast then
    ({ m with buttonALast := rc.chan5Raw, camYaw := 0, camPitch := 0 }, [])
  else (m, [])

def rcSnapshot (rc : RcChannels) : MavStep := fun m =>
  if rc.chan13Raw ≠ m.buttonSnapshotLast then
    onDevs (cameraSaveImage 0) { m with buttonSnapshotLast := rc.chan13Raw }
  else (m, [])

def rcZoom (rc : RcChannels) : MavStep := fun m =>
  let zoom : Int := rc.chan9Raw.toNat
  let zoomInc : Int := 5
  if zoom ≤ (getRcConfig m.rcChannels 9).min then ({ m with zoomStop := true, zoomDir := 1 }, [])
  else if zoom ≥ (getRcConfig m.rcChannels 9).max then ({ m with zoomStop := true, zoomDir := -1 }, [])
  else if m.zoomStop then
    let ratio := m.zoomRatio + m.zoomDir * zoomInc
    let ratio := if ratio < 10 then 10 else if ratio > 40 then 40 else ratio
    onDevs (cameraZoom 0 · (UInt8.ofInt (ratio.tdiv 10)) (UInt8.ofInt (ratio.tmod 10)))
      { m with zoomStop := false, zoomRatio := ratio }
  else (m, [])

/-- The video recording button: the recorder is asked to toggle, and the status is flipped. -/
def rcRecord (env : GstEnv) (rc : RcChannels) : MavStep := fun m =>
  if rc.chan14Raw ≠ m.recordLast then
    let (m, out) := onDevs (cameraChangeRecordState 0 · env) { m with recordLast := rc.chan14Raw }
    (if getVideoStatus 0 m then resetVideoStatus 0 m else setVideoStatus 0 m, out)
  else (m, [])

def rcRotate : MavStep := fun m =>
  onDevs (gimbalRotate 0 · (toInt16 (m.camYaw * 10)) (toInt16 (m.camPitch * 10))) m

def mavFcuRcChannels (env : GstEnv) (rc : RcChannels) : MavStep :=
  (rcInitialization rc).andThen <| (rcControl rc).andThen <| (rcButtonA rc).andThen <|
    (rcSnapshot rc).andThen <| (rcZoom rc).andThen <| (rcRecord env rc).andThen rcRotate

/-! ### COMMAND_LONG -/

/-- The acknowledgement of a command that the handler itself accepts. -/
def sendAccepted (cmd : UInt16) (sysid compid : UInt8) : MavStep :=
  sendFrames fun m => mavlinkSendAck m.fcuSysid cmd mavResultAccepted 0 0 sysid compid

/-- The recorder is asked to toggle where the video status is `status`. -/
def changeRecordStateIf (status : Bool) (env : GstEnv) : MavStep := fun m =>
  if getVideoStatus 0 m = status then onDevs (cameraChangeRecordState 0 · env) m else (m, [])

def mavCommandLong (env : GstEnv) (command : UInt16) (sysid compid : UInt8) : MavStep :=
  if command = mavCmdDoDigicamControl then fun m => (m, [])
  else if command = mavCmdRequestCameraInformation then
    sendFrames fun m => mavlinkSendCameraInfo m.fcuSysid sysid compid
  else if command = mavCmdRequestCameraSettings then
    sendFrames fun m => mavlinkSendCameraSettings m.fcuSysid sysid compid
  else if command = mavCmdRequestStorageInformation then
    sendFrames fun m => mavlinkSendStorageInformation m.fcuSysid sysid compid
  else if command = mavCmdRequestCameraCaptureStatus then
    sendFrames fun m => mavlinkSendCameraCaptureStatus m.fcuSysid m.videoStatus sysid compid
  else if command = mavCmdSetCameraMode then
    (sendAccepted mavCmdSetCameraMode sysid compid).andThen
      (sendFrames fun m => mavlinkSendCameraCaptureStatus m.fcuSysid m.videoStatus sysid compid)
  else if command = mavCmdImageStartCapture then
    MavStep.andThen (onDevs (cameraSaveImage 0)) (sendAccepted mavCmdImageStartCapture sysid compid)
  else if command = mavCmdImageStopCapture then sendAccepted mavCmdImageStopCapture sysid compid
  else if command = mavCmdVideoStartCapture then
    (sendAccepted mavCmdVideoStartCapture sysid compid).andThen <|
      (changeRecordStateIf false env).andThen fun m => (setVideoStatus 0 m, [])
  else if command = mavCmdVideoStopCapture then
    (sendAccepted mavCmdVideoStopCapture sysid compid).andThen <|
      (changeRecordStateIf true env).andThen fun m => (resetVideoStatus 0 m, [])
  else fun m => (m, [])

/-! ### Dispatch -/

/-- An assignment of `mav_fcu_autopilot_version`, to `serial_is_ready` or to `fcu_sysid`. -/
inductive HandshakeWrite
  | ready
  | sysid (id : UInt8)
  deriving DecidableEq, Repr

def HandshakeWrite.perform (m : Mav) : HandshakeWrite → Mav
  | .ready => { m with serialIsReady := true }
  | .sysid id => { m with fcuSysid := id }

/-- The assignments in their order. The other thread can look between the two. -/
def autopilotVersionWrites (sysid : UInt8) : List HandshakeWrite := [.ready, .sysid sysid]

def mavFcuAutopilotVersion (sysid : UInt8) : MavStep := fun m =>
  ({ m with serialIsReady := true, fcuSysid := sysid }, [])

theorem mavFcuAutopilotVersion_writes (sysid : UInt8) (m : Mav) :
    mavFcuAutopilotVersion sysid m = ((autopilotVersionWrites sysid).foldl HandshakeWrite.perform m, []) := rfl

/-- PING and GPS_RAW_INT change nothing. -/
def mavFcuPing : MavStep := fun m => (m, [])
def mavFcuGpsRawInt : MavStep := fun m => (m, [])

variable {ψ : Type} (lib : MavlinkLib ψ)

/-- The numbers of COMMAND_LONG and AUTOPILOT_VERSION. -/
def commandLongId : Nat := 76
def autopilotVersionId : Nat := 148

def fcuCmds (env : GstEnv) : List (Nat × (MavlinkMessage → MavStep)) :=
  [(4, fun _ => mavFcuPing),
   (24, fun _ => mavFcuGpsRawInt),
   (65, fun msg => mavFcuRcChannels env (lib.rcChannelsDecode msg)),
   (commandLongId, fun msg => mavCommandLong env (lib.commandLongDecode msg).command msg.sysid msg.compid),
   (autopilotVersionId, fun msg => mavFcuAutopilotVersion msg.sysid)]

/-- The first handler listed for the message's number runs; other messages are ignored. -/
def parseMavlinkMsg (env : GstEnv) (msg : MavlinkMessage) : MavStep := fun m =>
  match (fcuCmds lib env).lookup msg.msgid with
  | some handler => handler msg m
  | none => (m, [])

/-- The receiver with the parser's state. -/
structure Receiver (ψ : Type) where
  fcuStatus : ψ
  mav : Mav

/-- One byte through the parser, and the message it completes through its handler. -/
def readMavlinkChar (env : GstEnv) (byte : UInt8) (r : Receiver ψ) : Receiver ψ × List MavOutput :=
  match lib.parseChar r.fcuStatus byte with
  | (status, some msg) =>
      ({ fcuStatus := status, mav := (parseMavlinkMsg lib env msg r.mav).1 }, (parseMavlinkMsg lib env msg r.mav).2)
  | (status, none) => ({ r with fcuStatus := status }, [])

/-- `envs i` is what happens around the handler of byte `i`. -/
def readMavlinkMsg (envs : Nat → GstEnv) : Bytes → Receiver ψ → Receiver ψ × List MavOutput
  | [], r => (r, [])
  | byte :: bytes, r =>
      let (r', out) := readMavlinkChar lib (envs 0) byte r
      let (r'', out') := readMavlinkMsg (fun i => envs (i + 1)) bytes r'
      (r'', out ++ out')

def flightControllerConnected (m : Mav) : Bool := m.serialIsReady

end MissionServer
