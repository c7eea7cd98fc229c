import Mathlib.Data.List.FinRange
import MissionServer.Config.Serial
import MissionServer.Device

/-!
# config.c: the devices

`load_devices_configs` reads `devices.yaml`, and for every enabled device the file it names, and opens the
cameras. A `char *` that was never assigned is null in the static `devs` and indeterminate in the locals
of `siyi_camera_init`; both are `none`, and to use one is undefined.
-/

namespace MissionServer

/-- Why a loader does not return: it ends the program with a message, or it does what C does not define. -/
inductive Stop
  | exit (code : Int) (message : String)
  | undefined
  deriving DecidableEq, Repr

abbrev Load (α : Type) := Except Stop α

/-! ### READ_PARAM -/

/-- One `READ_PARAM`: its key, and what it does with the text of the value. -/
structure Param (σ : Type) where
  key : String
  read : String → σ → Load σ

def readString {σ : Type} (key : String) (set : String → σ → σ) : Param σ where
  key
  read value s := .ok (set value s)

def readInt {σ : Type} (key : String) (set : Int → σ → σ) : Param σ where
  key
  read value s := .ok (set (atoi value) s)

def readBool {σ : Type} (key : String) (set : Bool → σ → σ) : Param σ where
  key
  read value s :=
    if value = "true" then .ok (set true s)
    else if value = "false" then .ok (set false s)
    else .error (.exit 1 "Illegal boolean value")

/-- The loop over the events with a chain of `READ_PARAM`s. The first one with the key reads its value,
which must be the next event. -/
def loadParams {σ : Type} (params : List (Param σ)) : List YamlEvent → σ → Load σ
  | [], _ => .error (.exit 1 "Failed to load configuration\n")
  | .streamEnd :: _, s => .ok s
  | .other :: events, s => loadParams params events s
  | .scalar key :: events, s =>
      match params.find? (·.key = key) with
      | none => .error (.exit 1 "Unknown parameter\n")
      | some param =>
          match events with
          | [] => .error (.exit 1 "Failed to load configurations\n")
          | .scalar value :: events =>
              match param.read value s with
              | .ok s => loadParams params events s
              | .error stop => .error stop
          | _ :: _ => .error (.exit 1 "Unexpected YAML input\n")

/-- The files that can be opened, with the events that their parse delivers. -/
abbrev YamlFiles := String → Option (List YamlEvent)

def loadFile {σ : Type} (params : List (Param σ)) (files : YamlFiles) (path : String) (s : σ) : Load σ :=
  match files path with
  | none => .error (.exit 1 "Failed to open the YAML file.\n")
  | some events => loadParams params events s

/-! ### A SIYI camera -/

/-- The locals `siyi_cam_config` and `rtsp_config` of `siyi_camera_init`. -/
structure SiyiLocals where
  savePath : Option String := none
  boardName : Option String := none
  rtspStreamUrl : Option String := none
  videoFormat : Option String := none
  codec : Option String := none
  imageWidth : Option Int := none
  imageHeight : Option Int := none
  ip : Option String := none
  port : Option Int := none
  deriving DecidableEq, Repr

def siyiParams : List (Param SiyiLocals) :=
  [readString "save_path" fun value s => { s with savePath := some value },
   readString "board" fun value s => { s with boardName := some value },
   readString "rtsp_stream_url" fun value s => { s with rtspStreamUrl := some value },
   readString "video_format" fun value s => { s with videoFormat := some value },
   readString "codec" fun value s => { s with codec := some value },
   readInt "image_width" fun value s => { s with imageWidth := some value },
   readInt "image_height" fun value s => { s with imageHeight := some value },
   readString "siyi_camera_ip" fun value s => { s with ip := some value },
   readInt "siyi_camera_port" fun value s => { s with port := some value }]

def loadSiyiConfigs (files : YamlFiles) (yamlPath : String) : Load SiyiLocals := loadFile siyiParams files yamlPath {}

/-- What `rtsp_open` copies for the thread it starts. -/
def SiyiLocals.rtspConfig? (s : SiyiLocals) : Option RtspConfig := do
  some
    { savePath := ← s.savePath
      codec := ← s.codec
      boardName := ← s.boardName
      rtspStreamUrl := ← s.rtspStreamUrl
      videoFormat := ← s.videoFormat
      imageWidth := ← s.imageWidth
      imageHeight := ← s.imageHeight }

/-- What `siyi_cam_open` reads. -/
def SiyiLocals.siyiCamConfig? (s : SiyiLocals) : Option SiyiCamConfig := do
  some { ip := ← s.ip, port := ← s.port }

/-- A setting that has to be there to be used. -/
def used {α : Type} : Option α → Load α
  | some value => .ok value
  | none => .error .undefined

structure DeviceConfig where
  yaml : Option String := none
  type : Option String := none
  enabled : Bool := false
  deriving DecidableEq, Repr

abbrev DeviceConfigs := Fin cameraNumMax → DeviceConfig

/-- The camera table with what the driver does while it is set up, and the settings each camera was opened
with. -/
structure Setup where
  cameras : CameraDevs := fun _ => {}
  outputs : List DeviceOutput := []
  opened : List (Fin cameraNumMax × RtspConfig × SiyiCamConfig) := []

/-- What the system does while camera `id` is opened: its socket, and whether a thread `rtsp_saver` that
has been started by then ends the program, with which code and message. -/
structure InitEnv where
  socket : Fin cameraNumMax → SocketOutcome
  saverExits : Fin cameraNumMax → Option (Int × String)

def pathMax : Nat := 4096

/-- A call on the camera table. A driver that ends the program says why, and one that faults is undefined. -/
def Setup.call (setup : Setup) (message : String) (call : CameraDevs → CameraDevs × List DeviceOutput) : Load Setup :=
  let (cameras, outputs) := call setup.cameras
  if .fault ∈ outputs then .error .undefined
  else if .exit ∈ outputs then .error (.exit 1 message)
  else .ok { setup with cameras, outputs := setup.outputs ++ outputs }

def siyiCamOpenError (os : SocketOutcome) : String :=
  if os.fd = -1 then "siyi_cam_open(): Failed to open the socket"
  else "siyi_cam_open(): Failed to connect to the camera"

def registerSiyiCamera (id : Fin cameraNumMax) (cameras : CameraDevs) : CameraDevs := registerCamera id .siyi cameras

/-- The zoom that `siyi_camera_init` sends. -/
def siyiInitZoom : UInt8 × UInt8 := (1, 0)

def siyiCameraInit (env : InitEnv) (files : YamlFiles) (devs : DeviceConfigs) (id : Fin cameraNumMax) (setup : Setup) :
    Load Setup := do
  let yaml ← used (devs id).yaml
  let path := "configs/" ++ yaml
  -- `sprintf` into `path[PATH_MAX]`
  if pathMax ≤ path.utf8ByteSize then throw .undefined
  let locals ← loadSiyiConfigs files path
  let setup := { setup with cameras := registerSiyiCamera id setup.cameras }
  let rtspConfig ← used locals.rtspConfig?
  let setup ← setup.call "" (cameraOpen id · rtspConfig)
  if let some (code, message) := env.saverExits id then throw (.exit code message)
  let siyiCamConfig ← used locals.siyiCamConfig?
  let setup ← setup.call (siyiCamOpenError (env.socket id)) (gimbalOpen id · siyiCamConfig (env.socket id))
  let setup ← setup.call "" (cameraZoom id · siyiInitZoom.1 siyiInitZoom.2)
  let setup ← setup.call "" (gimbalCentering id)
  return { setup with opened := setup.opened ++ [(id, rtspConfig, siyiCamConfig)] }

/-! ### All devices -/

def updateDevice (devNum : Fin cameraNumMax) (f : DeviceConfig → DeviceConfig) (devs : DeviceConfigs) : DeviceConfigs :=
  Function.update devs devNum (f (devs devNum))

def readDeviceConfig (devNum : Fin cameraNumMax) : List (Param DeviceConfigs) :=
  let device := "device" ++ toString devNum.val
  [readString (device ++ "_config") fun value => updateDevice devNum ({ · with yaml := some value }),
   readString (device ++ "_type") fun value => updateDevice devNum ({ · with type := some value }),
   readBool (device ++ "_enabled") fun value => updateDevice devNum ({ · with enabled := value })]

def devicesParams : List (Param DeviceConfigs) := (List.finRange cameraNumMax).flatMap readDeviceConfig

/-- The loop over the devices. The message about an unknown type prints the type of device 0. -/
def initDevices (env : InitEnv) (files : YamlFiles) (devs : DeviceConfigs) :
    List (Fin cameraNumMax) → Setup → Load Setup
  | [], setup => .ok setup
  | id :: ids, setup =>
      if (devs id).enabled then do
        let type ← used (devs id).type
        if type = "siyi" then
          let setup ← siyiCameraInit env files devs id setup
          initDevices env files devs ids setup
        else if type = "none" then initDevices env files devs ids setup
        else
          let type ← used (devs 0).type
          throw (.exit 0 ("Unknown device `" ++ type ++ "'\n"))
      else initDevices env files devs ids setup

def loadDevicesConfigs (env : InitEnv) (files : YamlFiles) (yamlPath : String) : Load Setup := do
  let devs ← loadFile devicesParams files yamlPath fun _ => {}
  initDevices env files devs (List.finRange cameraNumMax) {}

end MissionServer
