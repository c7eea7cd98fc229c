import MissionServer.Device
import MissionServer.Lib.Machine

/-!
# The life of a device

A camera has two halves with private data of their own: the recorder and the gimbal. A dispatcher calls
the driver when either half has ever been opened, but each callback needs its own half, and to close a
half leaves its pointer behind. So a call is harmless exactly when its half is open, or when neither half
was ever opened.
-/

namespace MissionServer

/-! ### Calls -/

inductive Half
  | camera
  | gimbal
  deriving DecidableEq, Repr

/-- What can be called on a device. -/
inductive DeviceRequest
  | cameraOpen (args : RtspConfig)
  | cameraClose
  | cameraSaveImage
  | cameraChangeRecordState (env : GstEnv)
  | cameraZoom (zoomInteger zoomDecimal : UInt8)
  | gimbalOpen (args : SiyiCamConfig) (os : SocketOutcome)
  | gimbalClose
  | gimbalCentering
  | gimbalRotate (yaw pitch : Int16)
  deriving DecidableEq, Repr

namespace DeviceRequest

def call (request : DeviceRequest) (id : Fin cameraNumMax) (devs : CameraDevs) : CameraDevs × List DeviceOutput :=
  match request with
  | cameraOpen args => MissionServer.cameraOpen id devs args
  | cameraClose => MissionServer.cameraClose id devs
  | cameraSaveImage => MissionServer.cameraSaveImage id devs
  | cameraChangeRecordState env => MissionServer.cameraChangeRecordState id devs env
  | cameraZoom zoomInteger zoomDecimal => MissionServer.cameraZoom id devs zoomInteger zoomDecimal
  | gimbalOpen args os => MissionServer.gimbalOpen id devs args os
  | gimbalClose => MissionServer.gimbalClose id devs
  | gimbalCentering => MissionServer.gimbalCentering id devs
  | gimbalRotate yaw pitch => MissionServer.gimbalRotate id devs yaw pitch

/-- The half whose private data the callback uses: `rtsp_*` the recorder's, `siyi_*` the gimbal's. -/
def half : DeviceRequest → Half
  | cameraOpen _ => .camera
  | cameraClose => .camera
  | cameraSaveImage => .camera
  | cameraChangeRecordState _ => .camera
  | cameraZoom _ _ => .gimbal
  | gimbalOpen _ _ => .gimbal
  | gimbalClose => .gimbal
  | gimbalCentering => .gimbal
  | gimbalRotate _ _ => .gimbal

def opens : DeviceRequest → Bool
  | cameraOpen _ => true
  | gimbalOpen _ _ => true
  | _ => false

def closes : DeviceRequest → Bool
  | cameraClose => true
  | gimbalClose => true
  | _ => false

/-- `siyi_cam_open` ends the program where the system refuses the socket. -/
def refused : DeviceRequest → Bool
  | gimbalOpen args os => (siyiCamOpen args os).isNone
  | _ => false

end DeviceRequest

/-! ### The driver -/

namespace DeviceRequest

def op (request : DeviceRequest) (ops : CameraOperations) : Option DeviceCall :=
  match request with
  | cameraOpen args => ops.cameraOpen.map fun call => call args
  | cameraClose => ops.cameraClose
  | cameraSaveImage => ops.cameraSaveImage
  | cameraChangeRecordState env => ops.cameraChangeRecordState.map fun call => call env
  | cameraZoom zoomInteger zoomDecimal => ops.cameraZoom.map fun call => call zoomInteger zoomDecimal
  | gimbalOpen args os => ops.gimbalOpen.map fun call => call args os
  | gimbalClose => ops.gimbalClose
  | gimbalCentering => ops.gimbalCentering
  | gimbalRotate yaw pitch => ops.gimbalRotate.map fun call => call yaw pitch

theorem call_eq (request : DeviceRequest) (id : Fin cameraNumMax) (devs : CameraDevs) :
    request.call id devs =
      if request.opens then callDriver request.op id devs else dispatch request.op id devs := by
  cases request <;> rfl

/-- What the SIYI driver does on a request. -/
def callback (request : DeviceRequest) : DeviceCall := (request.op siyiCamOps).getD fun cam => (cam, [])

theorem op_siyiCamOps (request : DeviceRequest) : request.op siyiCamOps = some request.callback := by
  cases request <;> rfl

end DeviceRequest

/-! ### The history of a device -/

inductive HalfState
  | never
  | isOpen
  | closed
  deriving DecidableEq, Repr

/-- What the calls so far, and nothing else, say about a device. -/
structure DeviceHistory where
  registered : Bool := false
  camera : HalfState := .never
  gimbal : HalfState := .never
  deriving DecidableEq, Repr

def DeviceHistory.half (history : DeviceHistory) : Half → HalfState
  | .camera => history.camera
  | .gimbal => history.gimbal

def DeviceHistory.setHalf (history : DeviceHistory) (state : HalfState) : Half → DeviceHistory
  | .camera => { history with camera := state }
  | .gimbal => { history with gimbal := state }

/-- A device is registered, or something is called on it. -/
inductive DeviceEvent
  | register (id : Fin cameraNumMax)
  | call (id : Fin cameraNumMax) (request : DeviceRequest)
  deriving DecidableEq, Repr

/-- The histories of all devices, until the program ends. -/
structure Histories where
  device : Fin cameraNumMax → DeviceHistory := fun _ => {}
  ended : Bool := false

def Histories.update (h : Histories) (id : Fin cameraNumMax) (f : DeviceHistory → DeviceHistory) : Histories :=
  { h with device := Function.update h.device id (f (h.device id)) }

/-- An open without a registration follows a null `camera_ops`. -/
def Histories.next (h : Histories) (e : DeviceEvent) : Histories :=
  if h.ended then h
  else
    match e with
    | .register id => h.update id ({ · with registered := true })
    | .call id request =>
        if request.opens then
          if ¬ (h.device id).registered ∨ request.refused then { h with ended := true }
          else h.update id (·.setHalf .isOpen request.half)
        else if request.closes ∧ (h.device id).half request.half = .isOpen then
          h.update id (·.setHalf .closed request.half)
        else h

/-- The call comes while its half is open, or before either half was ever opened. -/
def DeviceHistory.Ready (history : DeviceHistory) (half : Half) : Prop :=
  history.half half = .isOpen ∨ (history.camera = .never ∧ history.gimbal = .never)

def Histories.InOrder (h : Histories) : DeviceEvent → Prop
  | .register _ => True
  | .call id request => h.ended = false → request.opens = false → (h.device id).Ready request.half

/-! ### Runs -/

/-- The camera table with the histories. -/
structure Devices where
  devs : CameraDevs := fun _ => {}
  histories : Histories := {}

def Devices.next (d : Devices) (e : DeviceEvent) : Devices where
  devs :=
    if d.histories.ended then d.devs
    else
      match e with
      | .register id => registerCamera id .siyi d.devs
      | .call id request => (request.call id d.devs).1
  histories := d.histories.next e

/-- What is promised of a call: the callback that runs finds its private data allocated and not freed, and
nothing happens on a half that was never opened or was closed, nor on a device that was never registered. -/
structure Devices.Sound (d : Devices) (id : Fin cameraNumMax) (request : DeviceRequest) : Prop where
  noFault : (d.histories.device id).registered = true → .fault ∉ (request.call id d.devs).2
  half : request.opens = false → (d.histories.device id).half request.half ≠ .isOpen →
    request.call id d.devs = (d.devs, [])
  registered : request.opens = false → (d.histories.device id).registered = false →
    request.call id d.devs = (d.devs, [])

def Devices.SoundAt (d : Devices) : DeviceEvent → Prop
  | .register _ => True
  | .call id request => d.histories.ended = false → d.Sound id request

/-! ### What a callback does -/

def Priv.state {α : Type} : Priv α → HalfState
  | .null => .never
  | .live _ => .isOpen
  | .freed => .closed

theorem Priv.isSet_eq {α : Type} (priv : Priv α) : priv.isSet = true ↔ priv.state ≠ .never := by
  cases priv <;> simp [isSet, state]

/-- A device is as its history says. -/
structure CameraDev.Follows (cam : CameraDev) (history : DeviceHistory) : Prop where
  ops : cam.cameraOps = if history.registered then some .siyi else none
  camera : cam.cameraPriv.state = history.camera
  gimbal : cam.gimbalPriv.state = history.gimbal
  unregistered : history.registered = false → history.camera = .never ∧ history.gimbal = .never

theorem devicePresent_iff {cam : CameraDev} {history : DeviceHistory} (h : cam.Follows history) :
    devicePresent cam = true ↔ ¬ (history.camera = .never ∧ history.gimbal = .never) := by
  rw [devicePresent, Bool.or_eq_true, Priv.isSet_eq, Priv.isSet_eq, h.camera, h.gimbal, not_and_or]

theorem CameraDev.Follows.registered_of_isOpen {cam : CameraDev} {history : DeviceHistory} (h : cam.Follows history)
    {half : Half} (hhalf : history.half half = .isOpen) : history.registered = true := by
  by_contra hnot
  obtain ⟨hcamera, hgimbal⟩ := h.unregistered (Bool.eq_false_iff.mpr hnot)
  cases half
  · rw [DeviceHistory.half, hcamera] at hhalf
    cases hhalf
  · rw [DeviceHistory.half, hgimbal] at hhalf
    cases hhalf

theorem CameraDev.Follows.setCameraPriv {cam : CameraDev} {history : DeviceHistory} (h : cam.Follows history)
    (hregistered : history.registered = true) (priv : Priv GstData) :
    ({ cam with cameraPriv := priv } : CameraDev).Follows (history.setHalf priv.state .camera) :=
  ⟨h.ops, rfl, h.gimbal, fun hnot => absurd (hregistered.symm.trans hnot) (by decide)⟩

theorem CameraDev.Follows.setGimbalPriv {cam : CameraDev} {history : DeviceHistory} (h : cam.Follows history)
    (hregistered : history.registered = true) (priv : Priv SiyiCamDev) :
    ({ cam with gimbalPriv := priv } : CameraDev).Follows (history.setHalf priv.state .gimbal) :=
  ⟨h.ops, h.camera, rfl, fun hnot => absurd (hregistered.symm.trans hnot) (by decide)⟩

theorem Priv.exists_live {α : Type} {priv : Priv α} (h : priv.state = .isOpen) : ∃ value, priv = .live value := by
  cases priv with
  | live value => exact ⟨value, rfl⟩
  | null => cases h
  | freed => cases h

theorem onGstData_live (f : GstData → GstData × List Report) {cam : CameraDev} {gst : GstData}
    (hlive : cam.cameraPriv = .live gst) :
    onGstData f cam = ({ cam with cameraPriv := .live (f gst).1 }, (f gst).2.map .report) := by
  simp only [onGstData, hlive]

theorem sendSiyiCam_live (buf : Bytes) {cam : CameraDev} {siyi : SiyiCamDev} (hlive : cam.gimbalPriv = .live siyi) :
    sendSiyiCam buf cam = (cam, [.send siyi.fd buf]) := by
  simp only [sendSiyiCam, hlive]

theorem onGstData_not_live (f : GstData → GstData × List Report) {cam : CameraDev}
    (hnot : cam.cameraPriv.state ≠ .isOpen) : onGstData f cam = (cam, [.fault]) := by
  rw [onGstData]
  split
  case h_1 gst hlive => exact absurd (by rw [hlive]; rfl) hnot
  case h_2 => rfl

theorem sendSiyiCam_not_live (buf : Bytes) {cam : CameraDev} (hnot : cam.gimbalPriv.state ≠ .isOpen) :
    sendSiyiCam buf cam = (cam, [.fault]) := by
  rw [sendSiyiCam]
  split
  case h_1 siyi hlive => exact absurd (by rw [hlive]; rfl) hnot
  case h_2 => rfl

/-- On an open half a callback does not fault, and changes the half only to close it. -/
theorem callback_of_isOpen {cam : CameraDev} {history : DeviceHistory} (h : cam.Follows history)
    (request : DeviceRequest) (hopens : request.opens = false) (hhalf : history.half request.half = .isOpen) :
    .fault ∉ (request.callback cam).2 ∧
      (request.callback cam).1.Follows
        (if request.closes then history.setHalf .closed request.half else history) := by
  have hregistered := h.registered_of_isOpen hhalf
  have hrecorder (f : GstData → GstData × List Report) (hcamera : history.camera = .isOpen) :
      .fault ∉ (onGstData f cam).2 ∧ (onGstData f cam).1.Follows history := by
    obtain ⟨gst, hlive⟩ := Priv.exists_live (h.camera.trans hcamera)
    rw [onGstData_live f hlive]
    have hkeep : history.setHalf .isOpen .camera = history := by rw [DeviceHistory.setHalf, ← hcamera]
    exact ⟨by simp, hkeep ▸ h.setCameraPriv hregistered (.live (f gst).1)⟩
  have hsend (buf : Bytes) (hgimbal : history.gimbal = .isOpen) :
      .fault ∉ (sendSiyiCam buf cam).2 ∧ (sendSiyiCam buf cam).1.Follows history := by
    obtain ⟨siyi, hlive⟩ := Priv.exists_live (h.gimbal.trans hgimbal)
    rw [sendSiyiCam_live buf hlive]
    exact ⟨by simp, h⟩
  cases request with
  | cameraOpen => cases hopens
  | gimbalOpen => cases hopens
  | cameraSaveImage => exact hrecorder _ hhalf
  | cameraChangeRecordState env => exact hrecorder _ hhalf
  | cameraZoom zoomInteger zoomDecimal => exact hsend _ hhalf
  | gimbalCentering => exact hsend _ hhalf
  | gimbalRotate yaw pitch => exact hsend _ hhalf
  | cameraClose =>
      obtain ⟨gst, hlive⟩ := Priv.exists_live (h.camera.trans hhalf)
      have heq : DeviceRequest.cameraClose.callback cam = ({ cam with cameraPriv := .freed }, []) := by
        simp [DeviceRequest.callback, DeviceRequest.op, siyiCamOps, hlive]
      rw [heq]
      exact ⟨by simp, h.setCameraPriv hregistered .freed⟩
  | gimbalClose =>
      obtain ⟨siyi, hlive⟩ := Priv.exists_live (h.gimbal.trans hhalf)
      have heq : DeviceRequest.gimbalClose.callback cam = ({ cam with gimbalPriv := .freed }, []) := by
        simp [DeviceRequest.callback, DeviceRequest.op, siyiCamOps, hlive]
      rw [heq]
      exact ⟨by simp, h.setGimbalPriv hregistered .freed⟩

/-- On any other half it follows a null or stale pointer. -/
theorem callback_of_not_isOpen {cam : CameraDev} {history : DeviceHistory} (h : cam.Follows history)
    (request : DeviceRequest) (hopens : request.opens = false) (hhalf : history.half request.half ≠ .isOpen) :
    request.callback cam = (cam, [.fault]) := by
  have hcamera (hnot : history.camera ≠ .isOpen) : cam.cameraPriv.state ≠ .isOpen := by
    rw [h.camera]
    exact hnot
  have hgimbal (hnot : history.gimbal ≠ .isOpen) : cam.gimbalPriv.state ≠ .isOpen := by
    rw [h.gimbal]
    exact hnot
  cases request with
  | cameraOpen => cases hopens
  | gimbalOpen => cases hopens
  | cameraSaveImage => exact onGstData_not_live _ (hcamera hhalf)
  | cameraChangeRecordState env => exact onGstData_not_live _ (hcamera hhalf)
  | cameraZoom zoomInteger zoomDecimal => exact sendSiyiCam_not_live _ (hgimbal hhalf)
  | gimbalCentering => exact sendSiyiCam_not_live _ (hgimbal hhalf)
  | gimbalRotate yaw pitch => exact sendSiyiCam_not_live _ (hgimbal hhalf)
  | cameraClose =>
      simp only [DeviceRequest.callback, DeviceRequest.op, siyiCamOps, Option.getD_some]
      split
      case h_1 gst hlive => exact absurd (by rw [hlive]; rfl) (hcamera hhalf)
      case h_2 => rfl
  | gimbalClose =>
      simp only [DeviceRequest.callback, DeviceRequest.op, siyiCamOps, Option.getD_some]
      split
      case h_1 siyi hlive => exact absurd (by rw [hlive]; rfl) (hgimbal hhalf)
      case h_2 => rfl

theorem callback_of_opens {cam : CameraDev} {history : DeviceHistory} (h : cam.Follows history)
    (hregistered : history.registered = true) (request : DeviceRequest) (hopens : request.opens = true) :
    .fault ∉ (request.callback cam).2 ∧
      (request.refused = false → (request.callback cam).1.Follows (history.setHalf .isOpen request.half)) := by
  cases request with
  | cameraOpen args =>
      exact ⟨by simp [DeviceRequest.callback, DeviceRequest.op, siyiCamOps],
        fun _ => h.setCameraPriv hregistered (.live (rtspOpen cam.id args))⟩
  | gimbalOpen args os =>
      simp only [DeviceRequest.callback, DeviceRequest.op, siyiCamOps, Option.map_some, Option.getD_some,
        DeviceRequest.refused]
      cases hopen : siyiCamOpen args os with
      | none => exact ⟨by simp, fun hrefused => absurd hrefused (by simp)⟩
      | some siyi => exact ⟨by simp, fun _ => h.setGimbalPriv hregistered (.live siyi)⟩
  | _ => cases hopens

/-! ### What a call does -/

theorem call_of_follows {devs : CameraDevs} {id : Fin cameraNumMax} {history : DeviceHistory}
    (h : (devs id).Follows history) (hregistered : history.registered = true) (request : DeviceRequest) :
    request.call id devs =
      if request.opens = false ∧ history.camera = .never ∧ history.gimbal = .never then (devs, [])
      else (Function.update devs id (request.callback (devs id)).1, (request.callback (devs id)).2) := by
  have hops : (devs id).cameraOps = some .siyi := by rw [h.ops, if_pos hregistered]
  have hdriver : callDriver request.op id devs =
      (Function.update devs id (request.callback (devs id)).1, (request.callback (devs id)).2) := by
    simp only [callDriver, hops, OpsTable.operations, request.op_siyiCamOps]
  rw [request.call_eq]
  cases hopens : request.opens with
  | true => simp [hdriver]
  | false =>
      simp only [Bool.false_eq_true, if_false, true_and, dispatch, hdriver, devicePresent_iff h, not_not]

/-- A call on a device that was never registered: only an open gets as far as the missing driver. -/
theorem call_of_unregistered {devs : CameraDevs} {id : Fin cameraNumMax} {history : DeviceHistory}
    (h : (devs id).Follows history) (hregistered : history.registered = false) (request : DeviceRequest)
    (hopens : request.opens = false) : request.call id devs = (devs, []) := by
  have habsent : ¬ devicePresent (devs id) = true := by
    rw [devicePresent_iff h, not_not]
    exact h.unregistered hregistered
  rw [request.call_eq, hopens, if_neg Bool.false_ne_true, dispatch, if_pos habsent]

/-! ### One event -/

/-- Until the program ends, every device is as its history says. -/
def Devices.Linked (d : Devices) : Prop :=
  d.histories.ended = false → ∀ id, (d.devs id).Follows (d.histories.device id)

theorem DeviceHistory.not_isOpen_of_never {history : DeviceHistory} {half : Half}
    (h : history.camera = .never ∧ history.gimbal = .never) : history.half half ≠ .isOpen := by
  cases half
  · simp [DeviceHistory.half, h.1]
  · simp [DeviceHistory.half, h.2]

theorem sound_of_unregistered {d : Devices} {id : Fin cameraNumMax}
    (h : (d.devs id).Follows (d.histories.device id)) (hregistered : (d.histories.device id).registered = false)
    (request : DeviceRequest) : d.Sound id request := by
  have hcall := call_of_unregistered h hregistered request
  exact ⟨fun hyes => absurd (hyes.symm.trans hregistered) (by decide), fun hopens _ => hcall hopens,
    fun hopens _ => hcall hopens⟩

theorem sound_of_opens {d : Devices} {id : Fin cameraNumMax} (h : (d.devs id).Follows (d.histories.device id))
    (hregistered : (d.histories.device id).registered = true) {request : DeviceRequest}
    (hopens : request.opens = true) : d.Sound id request := by
  refine ⟨fun _ => ?_, fun hnot => absurd (hopens.symm.trans hnot) (by decide),
    fun hnot => absurd (hopens.symm.trans hnot) (by decide)⟩
  rw [call_of_follows h hregistered request, hopens, if_neg (fun hboth => absurd hboth.1 (by decide))]
  exact (callback_of_opens h hregistered request hopens).1

/-- Whether any other call keeps the promise depends on its half alone. -/
theorem sound_iff_ready {d : Devices} {id : Fin cameraNumMax} (h : (d.devs id).Follows (d.histories.device id))
    (hregistered : (d.histories.device id).registered = true) {request : DeviceRequest}
    (hopens : request.opens = false) : d.Sound id request ↔ (d.histories.device id).Ready request.half := by
  have hcall := call_of_follows h hregistered request
  by_cases hnever : (d.histories.device id).camera = .never ∧ (d.histories.device id).gimbal = .never
  · rw [if_pos ⟨hopens, hnever⟩] at hcall
    refine ⟨fun _ => .inr hnever, fun _ => ⟨fun _ => ?_, fun _ _ => hcall, fun _ _ => hcall⟩⟩
    rw [hcall]
    simp
  · rw [if_neg (fun hboth => hnever hboth.2)] at hcall
    by_cases hhalf : (d.histories.device id).half request.half = .isOpen
    · refine ⟨fun _ => .inl hhalf, fun _ => ⟨fun _ => ?_, fun _ hnot => absurd hhalf hnot,
        fun _ hnot => absurd (hregistered.symm.trans hnot) (by decide)⟩⟩
      rw [hcall]
      exact (callback_of_isOpen h request hopens hhalf).1
    · constructor
      · intro hsound
        have hfault := hsound.noFault hregistered
        rw [hcall, callback_of_not_isOpen h request hopens hhalf] at hfault
        simp at hfault
      · intro hready
        obtain hopen | hboth := hready
        · exact absurd hopen hhalf
        · exact absurd hboth hnever

theorem soundAt_iff_inOrder {d : Devices} (h : d.Linked) (e : DeviceEvent) :
    d.SoundAt e ↔ d.histories.InOrder e := by
  cases e with
  | register id => exact Iff.rfl
  | call id request =>
      refine imp_congr_right fun hended => ?_
      have hfollows := h hended id
      cases hregistered : (d.histories.device id).registered with
      | false =>
          have hnever := hfollows.unregistered hregistered
          exact ⟨fun _ _ => .inr hnever, fun _ => sound_of_unregistered hfollows hregistered request⟩
      | true =>
          cases hopens : request.opens with
          | true =>
              exact ⟨fun _ hnot => absurd hnot (by decide), fun _ => sound_of_opens hfollows hregistered hopens⟩
          | false =>
              rw [sound_iff_ready hfollows hregistered hopens]
              exact ⟨fun hready _ => hready, fun hready => hready rfl⟩

theorem follows_update {devs : CameraDevs} {histories : Histories}
    (h : ∀ id, (devs id).Follows (histories.device id)) (id : Fin cameraNumMax) {cam : CameraDev}
    {f : DeviceHistory → DeviceHistory} (hcam : cam.Follows (f (histories.device id))) (id' : Fin cameraNumMax) :
    (Function.update devs id cam id').Follows ((histories.update id f).device id') := by
  show (Function.update devs id cam id').Follows (Function.update histories.device id (f (histories.device id)) id')
  by_cases hid : id' = id
  · subst hid
    rw [Function.update_self, Function.update_self]
    exact hcam
  · rw [Function.update_of_ne hid, Function.update_of_ne hid]
    exact h id'

section Call

variable {h : Histories} {id : Fin cameraNumMax} {request : DeviceRequest}

theorem Histories.next_refused (hrunning : h.ended = false) (hopens : request.opens = true)
    (hrefused : ¬ (h.device id).registered ∨ request.refused) : (h.next (.call id request)).ended = true := by
  simp only [Histories.next, hrunning, hopens, if_pos hrefused, if_true, Bool.false_eq_true, if_false]

theorem Histories.next_open (hrunning : h.ended = false) (hopens : request.opens = true)
    (hregistered : (h.device id).registered = true) (hrefused : request.refused = false) :
    h.next (.call id request) = h.update id (·.setHalf .isOpen request.half) := by
  simp [Histories.next, hrunning, hopens, hregistered, hrefused]

theorem Histories.next_close (hrunning : h.ended = false) (hopens : request.opens = false)
    (hcloses : request.closes = true) (hopen : (h.device id).half request.half = .isOpen) :
    h.next (.call id request) = h.update id (·.setHalf .closed request.half) := by
  simp [Histories.next, hrunning, hopens, hcloses, hopen]

theorem Histories.next_operation (hrunning : h.ended = false) (hopens : request.opens = false)
    (hnot : ¬ (request.closes = true ∧ (h.device id).half request.half = .isOpen)) :
    h.next (.call id request) = h := by
  simp only [Histories.next, hrunning, hopens, if_neg hnot, Bool.false_eq_true, if_false]

theorem linked_call {d : Devices} (hfollows : ∀ id, (d.devs id).Follows (d.histories.device id))
    (hrunning : d.histories.ended = false)
    (hready : request.opens = false → (d.histories.device id).Ready request.half) :
    (d.next (.call id request)).Linked := by
  have hid := hfollows id
  have hdevs : (d.next (.call id request)).devs = (request.call id d.devs).1 := by simp [Devices.next, hrunning]
  have hhistories : (d.next (.call id request)).histories = d.histories.next (.call id request) := rfl
  have hkept (hnever : (d.histories.device id).camera = .never ∧ (d.histories.device id).gimbal = .never)
      (hopens : request.opens = false) : d.histories.next (.call id request) = d.histories :=
    Histories.next_operation hrunning hopens fun hboth => DeviceHistory.not_isOpen_of_never hnever hboth.2
  rw [Devices.Linked, hdevs, hhistories]
  intro hended
  cases hopens : request.opens with
  | true =>
      have haccepted : ¬ (¬ (d.histories.device id).registered ∨ request.refused) := by
        intro hrefused
        rw [Histories.next_refused hrunning hopens hrefused] at hended
        exact absurd hended (by decide)
      simp only [not_or, Bool.not_eq_true, Bool.not_eq_false] at haccepted
      obtain ⟨hregistered, hrefused⟩ := haccepted
      rw [call_of_follows hid hregistered request, if_neg (by simp [hopens]),
        Histories.next_open hrunning hopens hregistered hrefused]
      exact follows_update hfollows id ((callback_of_opens hid hregistered request hopens).2 hrefused)
  | false =>
      cases hregistered : (d.histories.device id).registered with
      | false =>
          rw [call_of_unregistered hid hregistered request hopens, hkept (hid.unregistered hregistered) hopens]
          exact hfollows
      | true =>
          rw [call_of_follows hid hregistered request]
          obtain hopen | hnever := hready hopens
          · have hset : ¬ ((d.histories.device id).camera = .never ∧ (d.histories.device id).gimbal = .never) :=
              fun hnever => DeviceHistory.not_isOpen_of_never hnever hopen
            have hcallback := (callback_of_isOpen hid request hopens hopen).2
            rw [if_neg (fun hboth => hset hboth.2)]
            cases hcloses : request.closes with
            | true =>
                rw [hcloses, if_pos rfl] at hcallback
                rw [Histories.next_close hrunning hopens hcloses hopen]
                exact follows_update hfollows id hcallback
            | false =>
                rw [hcloses] at hcallback
                rw [Histories.next_operation hrunning hopens (by simp [hcloses])]
                have hupdate := follows_update hfollows id (f := fun history => history) hcallback
                simp only [Histories.update, Function.update_eq_self] at hupdate
                exact hupdate
          · rw [if_pos ⟨hopens, hnever⟩, hkept hnever hopens]
            exact hfollows

end Call

theorem linked_next {d : Devices} (h : d.Linked) {e : DeviceEvent} (hsound : d.SoundAt e) : (d.next e).Linked := by
  cases hended : d.histories.ended with
  | true =>
      intro hnot
      have hkeep : (d.next e).histories = d.histories := by simp [Devices.next, Histories.next, hended]
      rw [hkeep, hended] at hnot
      cases hnot
  | false =>
      have hfollows := h hended
      cases e with
      | register id =>
          intro _ id'
          have hid := hfollows id
          have hregister : ({ d.devs id with id := id.val, cameraOps := some .siyi } : CameraDev).Follows
              { d.histories.device id with registered := true } :=
            ⟨rfl, hid.camera, hid.gimbal, fun hnot => by cases hnot⟩
          simp only [Devices.next, Histories.next, hended, registerCamera]
          exact follows_update hfollows id (f := ({ · with registered := true })) hregister id'
      | call id request =>
          exact linked_call hfollows hended ((soundAt_iff_inOrder h (.call id request)).mp hsound hended)

/-! ### Whole runs -/

theorem histories_linked_start : ({} : Devices).Linked :=
  fun _ _ => ⟨rfl, rfl, rfl, fun _ => ⟨rfl, rfl⟩⟩

/-- Every call of a run keeps the promise exactly when every call that is not an open comes while its half is
open, or before either half was ever opened. -/
theorem devices_sound_iff_inOrder (es : List DeviceEvent) :
    Machine.EachStep Devices.next Devices.SoundAt {} es ↔
      Machine.EachStep Histories.next Histories.InOrder {} es := by
  apply Machine.eachStep_iff Devices.next (R := fun d h => d.Linked ∧ d.histories = h)
  · intro d h e hrel
    obtain ⟨hlinked, rfl⟩ := hrel
    exact soundAt_iff_inOrder hlinked e
  · intro d h e hrel hsound
    obtain ⟨hlinked, rfl⟩ := hrel
    exact ⟨linked_next hlinked hsound, rfl⟩
  · exact ⟨histories_linked_start, rfl⟩

/-- A zoom on a camera whose gimbal was never opened gets through to the driver, which follows a null
pointer; and a second close frees the recorder again. -/
theorem half_opened_and_closed_twice :
    let args : RtspConfig := ⟨"/videos", "h264", "rb5", "rtsp://camera", "NV12", 1280, 720⟩
    ¬ Machine.EachStep Devices.next Devices.SoundAt {}
        [.register 0, .call 0 (.cameraOpen args), .call 0 (.cameraZoom 1 0)] ∧
      ¬ Machine.EachStep Devices.next Devices.SoundAt {}
        [.register 0, .call 0 (.cameraOpen args), .call 0 .cameraClose, .call 0 .cameraClose] := by
  intro args
  constructor
  · intro h
    have hsound := h [.register 0, .call 0 (.cameraOpen args)] (.call 0 (.cameraZoom 1 0)) (List.prefix_refl _)
    have hfault := (hsound (by decide)).noFault (by decide)
    exact hfault (by decide)
  · intro h
    have hsound := h [.register 0, .call 0 (.cameraOpen args), .call 0 .cameraClose] (.call 0 .cameraClose)
      (List.prefix_refl _)
    have hfault := (hsound (by decide)).noFault (by decide)
    exact hfault (by decide)

end MissionServer
