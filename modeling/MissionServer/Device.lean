import Mathlib.Logic.Function.Basic
import MissionServer.RtspStream
import MissionServer.SiyiCamera

/-!
# device.c

The table of cameras and the calls that dispatch to a camera's driver. The one driver of the program,
`siyi_cam_ops`, records through `rtsp_stream.c` and steers through `siyi_camera.c`.
-/

namespace MissionServer

abbrev cameraNumMax : Nat := 6

instance : NeZero cameraNumMax := ⟨by decide⟩

/-- A `void *` to private data: null, an allocation, or an allocation that was freed. -/
inductive Priv (α : Type)
  | null
  | live (value : α)
  | freed
  deriving DecidableEq, Repr

def Priv.isSet {α : Type} : Priv α → Bool
  | .null => false
  | _ => true

/-- The static tables of driver functions that a `camera_ops` pointer can name. -/
inductive OpsTable
  | siyi
  deriving DecidableEq, Repr

structure CameraDev where
  id : Int := 0
  cameraOps : Option OpsTable := none
  cameraPriv : Priv GstData := .null
  gimbalPriv : Priv SiyiCamDev := .null
  deriving DecidableEq, Repr

/-- What a driver function does outside the table: it prints, sends a packet, follows a pointer that
does not lead to an allocation, or ends the program. -/
inductive DeviceOutput
  | report (report : Report)
  | send (fd : Int) (buf : Bytes)
  | fault
  | exit
  deriving DecidableEq, Repr

abbrev DeviceCall := CameraDev → CameraDev × List DeviceOutput

/-- `struct camera_operations`: a driver leaves out what it does not support. -/
structure CameraOperations where
  cameraOpen : Option (RtspConfig → DeviceCall)
  cameraClose : Option DeviceCall
  cameraSaveImage : Option DeviceCall
  cameraChangeRecordState : Option (GstEnv → DeviceCall)
  cameraZoom : Option (UInt8 → UInt8 → DeviceCall)
  gimbalOpen : Option (SiyiCamConfig → SocketOutcome → DeviceCall)
  gimbalClose : Option DeviceCall
  gimbalCentering : Option DeviceCall
  gimbalRotate : Option (Int16 → Int16 → DeviceCall)

/-! ### The SIYI driver -/

/-- A call on the recorder behind `camera_priv`. -/
def onGstData (f : GstData → GstData × List Report) : DeviceCall := fun cam =>
  match cam.cameraPriv with
  | .live gst => ({ cam with cameraPriv := .live (f gst).1 }, (f gst).2.map .report)
  | _ => (cam, [.fault])

/-- A packet sent through the socket behind `gimbal_priv`. -/
def sendSiyiCam (buf : Bytes) : DeviceCall := fun cam =>
  match cam.gimbalPriv with
  | .live siyi => (cam, [.send siyi.fd buf])
  | _ => (cam, [.fault])

def siyiCamOps : CameraOperations where
  cameraOpen := some fun args cam => ({ cam with cameraPriv := .live (rtspOpen cam.id args) }, [])
  cameraClose := some fun cam =>
    match cam.cameraPriv with
    | .live _ => ({ cam with cameraPriv := .freed }, [])
    | _ => (cam, [.fault])
  cameraSaveImage := some (onGstData fun gst => (rtspSaveImage gst, []))
  cameraChangeRecordState := some fun env cam => onGstData (rtspChangeRecordState cam.id env) cam
  cameraZoom := some fun zoomInteger zoomDecimal => sendSiyiCam (siyiCamManualZoom zoomInteger zoomDecimal)
  gimbalOpen := some fun config os cam =>
    match siyiCamOpen config os with
    | some siyi => ({ cam with gimbalPriv := .live siyi }, [])
    | none => (cam, [.exit])
  gimbalClose := some fun cam =>
    match cam.gimbalPriv with
    | .live _ => ({ cam with gimbalPriv := .freed }, [])
    | _ => (cam, [.fault])
  gimbalCentering := some (sendSiyiCam siyiCamGimbalCentering)
  gimbalRotate := some fun yaw pitch => sendSiyiCam (siyiCamGimbalRotate yaw pitch)

def OpsTable.operations : OpsTable → CameraOperations
  | .siyi => siyiCamOps

/-! ### The table -/

abbrev CameraDevs := Fin cameraNumMax → CameraDev

def devicePresent (cam : CameraDev) : Bool := cam.cameraPriv.isSet || cam.gimbalPriv.isSet

def registerCamera (id : Fin cameraNumMax) (cameraOps : OpsTable) (devs : CameraDevs) : CameraDevs :=
  Function.update devs id { devs id with id := id.val, cameraOps := some cameraOps }

/-- Calls one driver function of a camera, where the driver has it. A table that was never set is a
null pointer. -/
def callDriver (op : CameraOperations → Option DeviceCall) (id : Fin cameraNumMax) (devs : CameraDevs) :
    CameraDevs × List DeviceOutput :=
  match (devs id).cameraOps with
  | none => (devs, [.fault])
  | some table =>
      match op table.operations with
      | none => (devs, [])
      | some call => (Function.update devs id (call (devs id)).1, (call (devs id)).2)

/-- The shape of every dispatcher but the two opens: nothing is done on an absent device. -/
def dispatch (op : CameraOperations → Option DeviceCall) (id : Fin cameraNumMax) (devs : CameraDevs) :
    CameraDevs × List DeviceOutput :=
  if ¬ devicePresent (devs id) then (devs, []) else callDriver op id devs

variable (id : Fin cameraNumMax) (devs : CameraDevs)

def cameraOpen (args : RtspConfig) : CameraDevs × List DeviceOutput :=
  callDriver (fun ops => ops.cameraOpen.map fun call => call args) id devs

def cameraClose : CameraDevs × List DeviceOutput := dispatch (·.cameraClose) id devs

def cameraSaveImage : CameraDevs × List DeviceOutput := dispatch (·.cameraSaveImage) id devs

def cameraChangeRecordState (env : GstEnv) : CameraDevs × List DeviceOutput :=
  dispatch (fun ops => ops.cameraChangeRecordState.map fun call => call env) id devs

def cameraZoom (zoomInteger zoomDecimal : UInt8) : CameraDevs × List DeviceOutput :=
  dispatch (fun ops => ops.cameraZoom.map fun call => call zoomInteger zoomDecimal) id devs

def gimbalOpen (args : SiyiCamConfig) (os : SocketOutcome) : CameraDevs × List DeviceOutput :=
  callDriver (fun ops => ops.gimbalOpen.map fun call => call args os) id devs

def gimbalClose : CameraDevs × List DeviceOutput := dispatch (·.gimbalClose) id devs

def gimbalCentering : CameraDevs × List DeviceOutput := dispatch (·.gimbalCentering) id devs

def gimbalRotate (yaw pitch : Int16) : CameraDevs × List DeviceOutput :=
  dispatch (fun ops => ops.gimbalRotate.map fun call => call yaw pitch) id devs

end MissionServer
