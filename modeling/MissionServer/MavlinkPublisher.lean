import MissionServer.Serial

/-!
# mavlink_publisher.c

The messages the server sends to the flight controller. A message is kept as its header and its
decoded fields; the bytes it is packed into are made by the generated MAVLink library, which is a
parameter. Floating-point fields are rationals. Lines printed by `status` are left out.
-/

namespace MissionServer

/-! ### Constants of the generated headers -/

def mavCompIdAll : UInt8 := 0
def mavCompIdCamera : UInt8 := 100
def mavCompIdOnboardComputer : UInt8 := 191
def mavTypeCamera : UInt8 := 30
def mavAutopilotInvalid : UInt8 := 8
def mavStateStandby : UInt8 := 3
def mavResultAccepted : UInt8 := 0
def cameraModeImage : UInt8 := 0

def mavCmdDoDigicamControl : UInt16 := 203
def mavCmdRequestAutopilotCapabilities : UInt16 := 520
def mavCmdRequestCameraInformation : UInt16 := 521
def mavCmdRequestCameraSettings : UInt16 := 522
def mavCmdRequestStorageInformation : UInt16 := 525
def mavCmdRequestCameraCaptureStatus : UInt16 := 527
def mavCmdSetCameraMode : UInt16 := 530
def mavCmdImageStartCapture : UInt16 := 2000
def mavCmdImageStopCapture : UInt16 := 2001
def mavCmdVideoStartCapture : UInt16 := 2500
def mavCmdVideoStopCapture : UInt16 := 2501

def cameraCapFlagsCaptureVideo : UInt32 := 1
def cameraCapFlagsCaptureImage : UInt32 := 2
def cameraCapFlagsHasModes : UInt32 := 4
def cameraCapFlagsCanCaptureImageInVideoMode : UInt32 := 8
def cameraCapFlagsCanCaptureVideoInImageMode : UInt32 := 16
def cameraCapFlagsHasBasicZoom : UInt32 := 64

/-! ### Messages -/

structure CommandAck where
  command : UInt16
  result : UInt8
  progress : UInt8
  resultParam2 : Int32
  targetSystem : UInt8
  targetComponent : UInt8
  deriving DecidableEq, Repr

structure CameraInformation where
  timeBootMs : UInt32
  vendorName : String
  modelName : String
  firmwareVersion : UInt32
  focalLength : Rat
  sensorSizeH : Rat
  sensorSizeV : Rat
  resolutionH : UInt16
  resolutionV : UInt16
  lensId : UInt8
  flags : UInt32
  camDefinitionVersion : UInt16
  camDefinitionUri : String
  gimbalDeviceId : UInt8
  deriving DecidableEq, Repr

structure CameraSettings where
  timeBootMs : UInt32
  modeId : UInt8
  zoomLevel : Rat
  focusLevel : Rat
  deriving DecidableEq, Repr

structure CameraCaptureStatus where
  timeBootMs : UInt32
  imageStatus : UInt8
  videoStatus : Bool
  imageInterval : Rat
  recordingTimeMs : UInt32
  availableCapacity : Rat
  imageCount : Int32
  deriving DecidableEq, Repr

structure Heartbeat where
  type : UInt8
  autopilot : UInt8
  baseMode : UInt8
  customMode : UInt32
  systemStatus : UInt8
  deriving DecidableEq, Repr

structure PlayTune where
  targetSystem : UInt8
  targetComponent : UInt8
  tune : String
  tune2 : String
  deriving DecidableEq, Repr

/-- The fields of COMMAND_LONG, both as it is sent and as it is received. -/
structure CommandLong where
  targetSystem : UInt8
  targetComponent : UInt8
  command : UInt16
  confirmation : UInt8
  params : List Rat
  deriving DecidableEq, Repr

inductive MavlinkBody
  | heartbeat (body : Heartbeat)
  | playTune (body : PlayTune)
  | commandLong (body : CommandLong)
  | commandAck (body : CommandAck)
  | cameraInformation (body : CameraInformation)
  | cameraSettings (body : CameraSettings)
  | cameraCaptureStatus (body : CameraCaptureStatus)
  deriving DecidableEq, Repr

/-- A message as the `_pack` functions fill it in. -/
structure MavlinkFrame where
  sysId : UInt8
  componentId : UInt8
  body : MavlinkBody
  deriving DecidableEq, Repr

/-! ### Senders

Each returns the messages it hands to `mavlink_send_msg`, in order. -/

def rb5Id : UInt8 := 2

def tuneTable : List String :=
  ["MFT240L8 O4aO5dc O4aO5dc O4aO5dc L16dcdcdcdc",
   "MBT200a8a8a8PaaaP",
   "MFT200e8a8a",
   "MFT200e8e",
   "MFT200e8c8e8c8e8c8",
   "MNT75L1O2G",
   "MBNT100a8",
   "MBNT255a8a8a8a8a8a8a8a8a8a8a8a8a8a8a8a8",
   "MFT255L4AAAL1F#",
   "MFT255L4<<<BAP",
   "MFT255L16agagagag",
   "MFT100a8",
   "MFT100L4>G#6A#6B#4",
   "MFAGPAG",
   "MNBG",
   "MLL32CP8MB",
   "MLL8CDE",
   "ML<<CP4CP4CP4CP4CP4",
   "MFT255a8g8f8e8c8<b8a8g4"]

def tuneCnt : Nat := tuneTable.length

/-- An `int` compared with a `size_t` is converted to 64-bit unsigned. -/
def toSizeT (n : Int) : Nat := (n % 2 ^ 64).toNat

variable (fcuSysid : UInt8)

def mavlinkSendCameraHeartbeat : List MavlinkFrame :=
  [{ sysId := fcuSysid, componentId := mavCompIdCamera,
     body := .heartbeat { type := mavTypeCamera, autopilot := mavAutopilotInvalid, baseMode := 0, customMode := 0,
                          systemStatus := mavStateStandby } }]

def mavlinkSendPlayTune (tuneNum : Int) : List MavlinkFrame :=
  if toSizeT tuneNum ≥ tuneCnt then []
  else
    [{ sysId := rb5Id, componentId := mavCompIdOnboardComputer,
       body := .playTune { targetSystem := fcuSysid, targetComponent := mavCompIdAll,
                           tune := tuneTable.getD tuneNum.toNat "", tune2 := "" } }]

def mavlinkSendRequestAutopilotCapabilities : List MavlinkFrame :=
  [{ sysId := rb5Id, componentId := mavCompIdOnboardComputer,
     body := .commandLong { targetSystem := fcuSysid, targetComponent := mavCompIdAll,
                            command := mavCmdRequestAutopilotCapabilities, confirmation := 0,
                            params := [1, 0, 0, 0, 0, 0, 0] } }]

def mavlinkSendAck (cmd : UInt16) (result progress : UInt8) (resultParam2 : Int32)
    (targetSystem targetComponent : UInt8) : List MavlinkFrame :=
  [{ sysId := fcuSysid, componentId := mavCompIdCamera,
     body := .commandAck { command := cmd, result, progress, resultParam2, targetSystem, targetComponent } }]

def getCameraVendorName : String := "SIYI"
def getCameraModelName : String := "A8-Mini"

def mavlinkSendCameraInfo (targetSystem targetComponent : UInt8) : List MavlinkFrame :=
  mavlinkSendAck fcuSysid mavCmdRequestCameraInformation mavResultAccepted 0 0 targetSystem targetComponent ++
  [{ sysId := fcuSysid, componentId := mavCompIdCamera,
     body := .cameraInformation
       { timeBootMs := 0, vendorName := getCameraVendorName, modelName := getCameraModelName,
         firmwareVersion := 0, focalLength := 0, sensorSizeH := 0, sensorSizeV := 0, resolutionH := 0,
         resolutionV := 0, lensId := 0,
         flags := cameraCapFlagsCaptureVideo ||| cameraCapFlagsCaptureImage ||| cameraCapFlagsHasModes |||
           cameraCapFlagsCanCaptureVideoInImageMode ||| cameraCapFlagsCanCaptureImageInVideoMode |||
           cameraCapFlagsHasBasicZoom,
         camDefinitionVersion := 0, camDefinitionUri := "", gimbalDeviceId := 1 } }]

def mavlinkSendCameraSettings (targetSystem targetComponent : UInt8) : List MavlinkFrame :=
  mavlinkSendAck fcuSysid mavCmdRequestCameraSettings mavResultAccepted 0 0 targetSystem targetComponent ++
  [{ sysId := fcuSysid, componentId := mavCompIdCamera,
     body := .cameraSettings { timeBootMs := 0, modeId := cameraModeImage, zoomLevel := 25, focusLevel := 100 } }]

/-- Only the acknowledgement: the source returns here, "as the message is not mandatory". -/
def mavlinkSendStorageInformation (targetSystem targetComponent : UInt8) : List MavlinkFrame :=
  mavlinkSendAck fcuSysid mavCmdRequestStorageInformation mavResultAccepted 0 0 targetSystem targetComponent

def mavlinkSendCameraCaptureStatus (videoStatus : Bool) (targetSystem targetComponent : UInt8) : List MavlinkFrame :=
  mavlinkSendAck fcuSysid mavCmdRequestCameraCaptureStatus mavResultAccepted 0 0 targetSystem targetComponent ++
  [{ sysId := fcuSysid, componentId := mavCompIdCamera,
     body := .cameraCaptureStatus
       { timeBootMs := 0, imageStatus := 0, videoStatus, imageInterval := 0, recordingTimeMs := 0,
         availableCapacity := 32 * 1024, imageCount := 0 } }]

/-- `mavlink_tx_thread`: what it sends in each period of one second, once the flight controller is
connected. -/
def mavlinkTxThread : List MavlinkFrame := mavlinkSendCameraHeartbeat fcuSysid

end MissionServer
