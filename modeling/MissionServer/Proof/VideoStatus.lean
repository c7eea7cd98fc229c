import MissionServer.Lib.Machine
import MissionServer.Proof.Handlers
import MissionServer.Proof.Recorder

/-!
# The video status and the recorder

`mavlink_publisher.c` keeps a copy of the recorder's `recording` flag. Every handler that asks the
recorder to toggle flips the copy, whether or not the recorder obeys. The copy is right throughout a
run exactly when the recorder is never asked at a moment at which it refuses.
-/

namespace MissionServer

/-- What reaches the handlers and the recorder of camera 0, in any order. -/
inductive MavEvent
  | rcChannels (env : GstEnv) (rc : RcChannels)
  | commandLong (env : GstEnv) (command : UInt16) (sysid compid : UInt8)
  | autopilotVersion (sysid : UInt8)
  | cameraReady
  | newSample (sample : Bool) (timeinfo : Tm)
  | eos
  deriving DecidableEq, Repr

/-- A callback of camera 0's pipeline. Without a pipeline there is none. -/
def recorderCallback (f : GstData → GstData × List Report) : MavStep := fun m =>
  match (m.devs 0).cameraPriv with
  | .live _ => onDevs (fun devs => (Function.update devs 0 (onGstData f (devs 0)).1, (onGstData f (devs 0)).2)) m
  | _ => (m, [])

def mavStep : MavEvent → MavStep
  | .rcChannels env rc => mavFcuRcChannels env rc
  | .commandLong env command sysid compid => mavCommandLong env command sysid compid
  | .autopilotVersion sysid => mavFcuAutopilotVersion sysid
  | .newSample sample timeinfo => recorderCallback (onNewSampleHandler sample timeinfo)
  | .cameraReady => recorderCallback fun gst => (rtspSaver gst, [])
  | .eos => recorderCallback (eosHandler true)

/-- The state after an event. -/
def Mav.next (m : Mav) (e : MavEvent) : Mav := (mavStep e m).1

/-- The recorder of camera 0, once `camera_open` has run. -/
def Mav.recorder (m : Mav) : Option GstData :=
  match (m.devs 0).cameraPriv with
  | .live gst => some gst
  | _ => none

def Mav.isRecording (m : Mav) : Bool := m.recorder.any (·.recording)

/-- The recorder obeys a toggle request. -/
def Mav.acceptsToggle (m : Mav) : Bool := m.recorder.any fun gst => gst.cameraReady && !gst.busy

/-- The recorder is asked to toggle: by a change of channel 14, by a start where the status says it is
idle, or by a stop where the status says it records. -/
def Mav.toggles (m : Mav) : MavEvent → Bool
  | .rcChannels _ rc => m.recordLast ≠ 0 && rc.chan14Raw ≠ m.recordLast
  | .commandLong _ command _ _ =>
      (command = mavCmdVideoStartCapture && !m.videoStatus) || (command = mavCmdVideoStopCapture && m.videoStatus)
  | .autopilotVersion _ => false
  | .cameraReady => false
  | .newSample _ _ => false
  | .eos => false

theorem Mav.toggles_videoStart (m : Mav) (env : GstEnv) (sysid compid : UInt8) :
    m.toggles (.commandLong env mavCmdVideoStartCapture sysid compid) = !m.videoStatus := by
  simp [Mav.toggles, show mavCmdVideoStartCapture ≠ mavCmdVideoStopCapture by decide]

theorem Mav.toggles_videoStop (m : Mav) (env : GstEnv) (sysid compid : UInt8) :
    m.toggles (.commandLong env mavCmdVideoStopCapture sysid compid) = m.videoStatus := by
  simp [Mav.toggles, show mavCmdVideoStopCapture ≠ mavCmdVideoStartCapture by decide]

/-- Camera 0 has been registered and `camera_open` has run. -/
structure Mav.Opened (m : Mav) : Prop where
  ops : (m.devs 0).cameraOps = some .siyi
  recorder : m.recorder.isSome

/-! ### The camera table -/

theorem Mav.Opened.exists_live {m : Mav} (h : m.Opened) : ∃ gst, (m.devs 0).cameraPriv = .live gst := by
  have hsome := h.recorder
  unfold Mav.recorder at hsome
  split at hsome
  · exact ⟨_, ‹_›⟩
  · simp at hsome

theorem Mav.recorder_of_live {m : Mav} {gst : GstData} (h : (m.devs 0).cameraPriv = .live gst) :
    m.recorder = some gst := by
  simp [Mav.recorder, h]

theorem dispatch_opened {m : Mav} (h : m.Opened) (op : CameraOperations → Option DeviceCall) {call : DeviceCall}
    (hop : op siyiCamOps = some call) :
    dispatch op 0 m.devs = (Function.update m.devs 0 (call (m.devs 0)).1, (call (m.devs 0)).2) := by
  obtain ⟨gst, hlive⟩ := h.exists_live
  have hpresent : devicePresent (m.devs 0) = true := by simp [devicePresent, hlive, Priv.isSet]
  rw [dispatch, if_neg (by simp [hpresent]), callDriver, h.ops]
  simp only [OpsTable.operations, hop]

theorem sendSiyiCam_fst (buf : Bytes) (cam : CameraDev) : (sendSiyiCam buf cam).1 = cam := by
  rw [sendSiyiCam]
  split <;> rfl

theorem dispatch_fst_eq_self {op : CameraOperations → Option DeviceCall} (id : Fin cameraNumMax) (devs : CameraDevs)
    (hop : ∀ call, op siyiCamOps = some call → ∀ cam, (call cam).1 = cam) : (dispatch op id devs).1 = devs := by
  rw [dispatch, callDriver]
  split
  · rfl
  · split
    · rfl
    · rename_i table _
      cases table
      split
      · rfl
      · rename_i call hcall
        simp only [hop call hcall, Function.update_eq_self]

@[simp] theorem cameraZoom_fst (id : Fin cameraNumMax) (devs : CameraDevs) (zoomInteger zoomDecimal : UInt8) :
    (cameraZoom id devs zoomInteger zoomDecimal).1 = devs := by
  apply dispatch_fst_eq_self
  rintro call ⟨rfl⟩ cam
  exact sendSiyiCam_fst _ cam

@[simp] theorem gimbalRotate_fst (id : Fin cameraNumMax) (devs : CameraDevs) (yaw pitch : Int16) :
    (gimbalRotate id devs yaw pitch).1 = devs := by
  apply dispatch_fst_eq_self
  rintro call ⟨rfl⟩ cam
  exact sendSiyiCam_fst _ cam

/-! ### What a handler keeps

Of all a handler does, only its toggle request bears on the video status and the flags of the recorder.
`MavView` is the part of the state that the rest keeps. -/

structure MavView where
  videoStatus : Bool
  recordLast : UInt16
  cameraOps : Option OpsTable
  opened : Bool
  recording : Bool
  accepts : Bool

def Mav.view (m : Mav) : MavView where
  videoStatus := m.videoStatus
  recordLast := m.recordLast
  cameraOps := (m.devs 0).cameraOps
  opened := m.recorder.isSome
  recording := m.isRecording
  accepts := m.acceptsToggle

theorem Mav.opened_iff_view {m : Mav} : m.Opened ↔ m.view.cameraOps = some .siyi ∧ m.view.opened :=
  ⟨fun h => ⟨h.ops, h.recorder⟩, fun h => ⟨h.1, h.2⟩⟩

theorem view_onDevs_eq {call : CameraDevs → CameraDevs × List DeviceOutput} {m : Mav}
    (h : (call m.devs).1 = m.devs) : (onDevs call m).1.view = m.view := by
  simp only [onDevs, h]

theorem recorder_onGstData {m : Mav} {gst : GstData} (hlive : (m.devs 0).cameraPriv = .live gst)
    {call : CameraDevs → CameraDevs × List DeviceOutput} {f : GstData → GstData × List Report}
    (hcall : (call m.devs).1 = Function.update m.devs 0 (onGstData f (m.devs 0)).1) :
    (onDevs call m).1.recorder = some (f gst).1 ∧ ((onDevs call m).1.devs 0).cameraOps = (m.devs 0).cameraOps := by
  simp only [onDevs, hcall, Mav.recorder, Function.update_self, onGstData, hlive, and_self]

theorem view_cameraSaveImage {m : Mav} (h : m.Opened) : (onDevs (cameraSaveImage 0) m).1.view = m.view := by
  obtain ⟨gst, hlive⟩ := h.exists_live
  obtain ⟨hrec, hops⟩ := recorder_onGstData hlive (f := fun gst => (rtspSaveImage gst, []))
    (congrArg Prod.fst (dispatch_opened h (·.cameraSaveImage) rfl))
  have hsame : (rtspSaveImage gst).recording = gst.recording ∧ (rtspSaveImage gst).busy = gst.busy ∧
      (rtspSaveImage gst).cameraReady = gst.cameraReady := by
    rw [rtspSaveImage]
    split <;> exact ⟨rfl, rfl, rfl⟩
  change (onDevs (cameraSaveImage 0) m).1.recorder = _ at hrec
  change ((onDevs (cameraSaveImage 0) m).1.devs 0).cameraOps = _ at hops
  unfold Mav.view Mav.isRecording Mav.acceptsToggle
  rw [hrec, hops, Mav.recorder_of_live hlive]
  simp only [Option.any_some, hsame, Option.isSome_some]
  rfl

/-- A toggle request reaches the recorder, which obeys exactly when it is ready and not busy. -/
theorem view_cameraChangeRecordState {m : Mav} (h : m.Opened) (env : GstEnv) :
    let m' := (onDevs (cameraChangeRecordState 0 · env) m).1
    m'.Opened ∧ m'.videoStatus = m.videoStatus ∧
      m'.isRecording = if m.acceptsToggle then !m.isRecording else m.isRecording := by
  intro m'
  obtain ⟨gst, hlive⟩ := h.exists_live
  obtain ⟨hrec, hops⟩ := recorder_onGstData hlive (f := rtspChangeRecordState (m.devs 0).id env)
    (congrArg Prod.fst (dispatch_opened h
      (fun ops => ops.cameraChangeRecordState.map fun call => call env) rfl))
  change m'.recorder = _ at hrec
  change (m'.devs 0).cameraOps = _ at hops
  refine ⟨⟨hops.trans h.ops, by rw [hrec]; rfl⟩, rfl, ?_⟩
  rw [Mav.isRecording, Mav.isRecording, Mav.acceptsToggle, hrec, Mav.recorder_of_live hlive]
  simp only [Option.any_some]
  rcases rtspChangeRecordState_cases (m.devs 0).id env gst with
    ⟨hready, heq⟩ | ⟨hready, hbusy, heq⟩ | ⟨hready, hbusy, hrecording, -, heq⟩ |
      ⟨hready, hbusy, hrecording, -, heq⟩ | ⟨hready, hbusy, hrecording, heq⟩
  all_goals simp [*]

/-! ### One event -/

theorem view_rcInitialization (rc : RcChannels) (m : Mav) :
    (rcInitialization rc m).1.view =
      { m.view with recordLast := if m.recordLast = 0 then rc.chan14Raw else m.recordLast } := rfl

theorem view_rcControl (rc : RcChannels) (m : Mav) : (rcControl rc m).1.view = m.view := by
  simp only [rcControl, Mav.view, Mav.isRecording, Mav.acceptsToggle, Mav.recorder]

theorem view_rcButtonA (rc : RcChannels) (m : Mav) : (rcButtonA rc m).1.view = m.view := by
  rw [rcButtonA]
  split <;> rfl

theorem view_rcSnapshot (rc : RcChannels) {m : Mav} (h : m.Opened) : (rcSnapshot rc m).1.view = m.view := by
  rw [rcSnapshot]
  split
  · exact view_cameraSaveImage (m := { m with buttonSnapshotLast := rc.chan13Raw }) ⟨h.ops, h.recorder⟩
  · rfl

theorem view_rcZoom (rc : RcChannels) (m : Mav) : (rcZoom rc m).1.view = m.view := by
  rw [rcZoom]
  dsimp only
  split_ifs
  · rfl
  · rfl
  all_goals first | rfl | exact view_onDevs_eq (cameraZoom_fst _ _ _ _)

theorem view_rcRotate (m : Mav) : (rcRotate m).1.view = m.view :=
  view_onDevs_eq (gimbalRotate_fst _ _ _ _)

/-- What an event does to the three things that matter: the camera stays open, the status is flipped
by every toggle request, and the recorder's flag only by one that the recorder obeys. -/
structure Mav.Toggled (m : Mav) (asked : Bool) (m' : Mav) : Prop where
  opened : m'.Opened
  videoStatus : m'.videoStatus = (m.videoStatus ^^ asked)
  isRecording : m'.isRecording = (m.isRecording ^^ (asked && m.acceptsToggle))

theorem Mav.Toggled.of_view_eq {m m' : Mav} (h : m.Opened) (hview : m'.view = m.view) : m.Toggled false m' := by
  refine ⟨?_, ?_, ?_⟩
  · rw [Mav.opened_iff_view, hview, ← Mav.opened_iff_view]
    exact h
  · rw [Bool.xor_false]
    exact congrArg MavView.videoStatus hview
  · rw [Bool.false_and, Bool.xor_false]
    exact congrArg MavView.recording hview

theorem toggled_rcRecord (env : GstEnv) (rc : RcChannels) {m : Mav} (h : m.Opened) :
    m.Toggled (rc.chan14Raw ≠ m.recordLast) (rcRecord env rc m).1 := by
  rw [rcRecord]
  by_cases hchange : rc.chan14Raw = m.recordLast
  · rw [if_neg (not_not.mpr hchange)]
    simpa [hchange] using Mav.Toggled.of_view_eq h rfl
  · rw [if_pos hchange]
    have hspec := view_cameraChangeRecordState (m := { m with recordLast := rc.chan14Raw }) ⟨h.ops, h.recorder⟩ env
    revert hspec
    generalize onDevs (cameraChangeRecordState 0 · env) { m with recordLast := rc.chan14Raw } = result
    obtain ⟨m', out⟩ := result
    intro hspec
    obtain ⟨hopened, hstatus, hrecording⟩ := hspec
    change m'.videoStatus = m.videoStatus at hstatus
    change m'.isRecording = if m.acceptsToggle then !m.isRecording else m.isRecording at hrecording
    have hasked : decide (rc.chan14Raw ≠ m.recordLast) = true := decide_eq_true hchange
    simp only [getVideoStatus, hstatus]
    rw [hasked]
    -- the two branches differ in the status only, and each flips it
    cases hvideo : m.videoStatus
    · refine ⟨⟨hopened.ops, hopened.recorder⟩, by simp [setVideoStatus, hvideo], ?_⟩
      refine hrecording.trans ?_
      cases m.acceptsToggle <;> simp
    · refine ⟨⟨hopened.ops, hopened.recorder⟩, by simp [resetVideoStatus, hvideo], ?_⟩
      refine hrecording.trans ?_
      cases m.acceptsToggle <;> simp

theorem toggled_rcChannels (env : GstEnv) (rc : RcChannels) {m : Mav} (h : m.Opened) :
    m.Toggled (m.toggles (.rcChannels env rc)) (mavFcuRcChannels env rc m).1 := by
  set m₁ := (rcInitialization rc m).1 with hm₁
  set m₂ := (rcControl rc m₁).1 with hm₂
  set m₃ := (rcButtonA rc m₂).1 with hm₃
  set m₄ := (rcSnapshot rc m₃).1 with hm₄
  set m₅ := (rcZoom rc m₄).1 with hm₅
  set m₆ := (rcRecord env rc m₅).1 with hm₆
  have hview₃ : m₃.view = m₁.view := by rw [hm₃, view_rcButtonA, hm₂, view_rcControl]
  have hopened₃ : m₃.Opened := by
    rw [Mav.opened_iff_view, hview₃, hm₁, view_rcInitialization]
    exact ⟨h.ops, h.recorder⟩
  have hview : m₅.view =
      { m.view with recordLast := if m.recordLast = 0 then rc.chan14Raw else m.recordLast } := by
    rw [hm₅, view_rcZoom, hm₄, view_rcSnapshot rc hopened₃, hview₃, hm₁, view_rcInitialization]
  have hopened₅ : m₅.Opened := by
    rw [Mav.opened_iff_view, hview]
    exact ⟨h.ops, h.recorder⟩
  have hlast : m₅.recordLast = if m.recordLast = 0 then rc.chan14Raw else m.recordLast :=
    congrArg MavView.recordLast hview
  have hasked : decide (rc.chan14Raw ≠ m₅.recordLast) = m.toggles (.rcChannels env rc) := by
    rw [hlast, Mav.toggles]
    by_cases hzero : m.recordLast = 0 <;> simp [hzero]
  obtain ⟨hopened, hstatus, hrecording⟩ := toggled_rcRecord env rc hopened₅
  rw [hasked] at hstatus hrecording
  have hfinal : (rcRotate m₆).1.view = m₆.view := view_rcRotate m₆
  refine ⟨?_, ?_, ?_⟩
  · change (rcRotate m₆).1.Opened
    rw [Mav.opened_iff_view, hfinal, ← Mav.opened_iff_view]
    exact hopened
  · calc
      (rcRotate m₆).1.videoStatus = m₆.videoStatus := congrArg MavView.videoStatus hfinal
      _ = _ := hstatus
      _ = _ := by rw [show m₅.videoStatus = m.videoStatus from congrArg MavView.videoStatus hview]
  · calc
      (rcRotate m₆).1.isRecording = m₆.isRecording := congrArg MavView.recording hfinal
      _ = _ := hrecording
      _ = _ := by
        rw [show m₅.isRecording = m.isRecording from congrArg MavView.recording hview,
          show m₅.acceptsToggle = m.acceptsToggle from congrArg MavView.accepts hview]

theorem changeRecordStateIf_spec (status : Bool) (env : GstEnv) {m : Mav} (h : m.Opened) :
    let m' := (changeRecordStateIf status env m).1
    m'.Opened ∧ m'.videoStatus = m.videoStatus ∧
      m'.isRecording = (m.isRecording ^^ (m.videoStatus == status && m.acceptsToggle)) := by
  intro m'
  by_cases hstatus : m.videoStatus = status
  · obtain ⟨hopened, hvideo, hrecording⟩ := view_cameraChangeRecordState h env
    have hm' : m' = (onDevs (cameraChangeRecordState 0 · env) m).1 := congrArg Prod.fst (if_pos hstatus)
    rw [hm']
    refine ⟨hopened, hvideo, hrecording.trans ?_⟩
    rw [beq_iff_eq.mpr hstatus, Bool.true_and]
    cases m.acceptsToggle <;> cases m.isRecording <;> rfl
  · have hm' : m' = m := congrArg Prod.fst (if_neg hstatus)
    rw [hm']
    refine ⟨h, rfl, ?_⟩
    rw [beq_eq_false_iff_ne.mpr hstatus, Bool.false_and, Bool.xor_false]

theorem toggled_commandLong (env : GstEnv) (command : UInt16) (sysid compid : UInt8) {m : Mav} (h : m.Opened) :
    m.Toggled (m.toggles (.commandLong env command sysid compid)) (mavCommandLong env command sysid compid m).1 := by
  by_cases hstart : command = mavCmdVideoStartCapture
  · subst hstart
    obtain ⟨hopened, hvideo, hrecording⟩ := changeRecordStateIf_spec false env h
    rw [Mav.toggles_videoStart]
    refine ⟨⟨hopened.ops, hopened.recorder⟩, ?_, ?_⟩
    · cases hstatus : m.videoStatus <;> rfl
    · refine hrecording.trans ?_
      cases m.videoStatus <;> rfl
  by_cases hstop : command = mavCmdVideoStopCapture
  · subst hstop
    obtain ⟨hopened, hvideo, hrecording⟩ := changeRecordStateIf_spec true env h
    rw [Mav.toggles_videoStop]
    refine ⟨⟨hopened.ops, hopened.recorder⟩, ?_, ?_⟩
    · cases hstatus : m.videoStatus <;> rfl
    · refine hrecording.trans ?_
      cases m.videoStatus <;> rfl
  have hasked : m.toggles (.commandLong env command sysid compid) = false := by simp [Mav.toggles, hstart, hstop]
  rw [hasked]
  apply Mav.Toggled.of_view_eq h
  rw [mavCommandLong]
  simp only [hstart, hstop, if_false]
  repeat' refine iteInduction (motive := fun f : MavStep => (f m).1.view = m.view) (fun _ => ?_) fun _ => ?_
  all_goals first | rfl | exact view_cameraSaveImage h

/-- A callback that keeps the `recording` flag keeps everything that matters here. -/
theorem toggled_recorderCallback {f : GstData → GstData × List Report} {m : Mav} (h : m.Opened)
    (hf : ∀ gst, (f gst).1.recording = gst.recording) : m.Toggled false (recorderCallback f m).1 := by
  obtain ⟨gst, hlive⟩ := h.exists_live
  let call (devs : CameraDevs) : CameraDevs × List DeviceOutput :=
    (Function.update devs 0 (onGstData f (devs 0)).1, (onGstData f (devs 0)).2)
  have hcall : (call m.devs).1 = Function.update m.devs 0 (onGstData f (m.devs 0)).1 := rfl
  obtain ⟨hrec, hops⟩ := recorder_onGstData hlive hcall
  have hstep : (recorderCallback f m).1 = (onDevs call m).1 := by
    simp only [recorderCallback, hlive, call]
  rw [hstep]
  refine ⟨⟨hops.trans h.ops, by rw [hrec]; rfl⟩, by rw [Bool.xor_false]; rfl, ?_⟩
  rw [Mav.isRecording, Mav.isRecording, hrec, Mav.recorder_of_live hlive]
  simp [hf]

theorem Mav.toggled_next {m : Mav} (h : m.Opened) (e : MavEvent) : m.Toggled (m.toggles e) (m.next e) := by
  cases e with
  | rcChannels env rc => exact toggled_rcChannels env rc h
  | commandLong env command sysid compid => exact toggled_commandLong env command sysid compid h
  | autopilotVersion sysid => exact Mav.Toggled.of_view_eq h rfl
  | newSample sample timeinfo =>
      apply toggled_recorderCallback h
      intro gst
      rw [onNewSampleHandler]
      split <;> rfl
  | cameraReady =>
      apply toggled_recorderCallback h
      intro gst
      rw [rtspSaver]
      split <;> rfl
  | eos =>
      apply toggled_recorderCallback h
      intro gst
      rw [eosHandler]
      split_ifs <;> rfl

/-! ### Whole runs -/

/-- What the video status is for: it says whether the recorder is recording. -/
def Mav.Agrees (m : Mav) : Prop := getVideoStatus 0 m = m.isRecording

/-- What clients may conclude from an event: a start command does not stop a recording, a stop command
does not start one, and a capture status tells the truth. -/
structure Mav.Faithful (m : Mav) (e : MavEvent) : Prop where
  start : ∀ env sysid compid, e = .commandLong env mavCmdVideoStartCapture sysid compid →
    m.isRecording = true → (m.next e).isRecording = true
  stop : ∀ env sysid compid, e = .commandLong env mavCmdVideoStopCapture sysid compid →
    m.isRecording = false → (m.next e).isRecording = false
  captureStatus : ∀ frame status, .frame frame ∈ (mavStep e m).2 → frame.body = .cameraCaptureStatus status →
    status.videoStatus = m.isRecording

/-- No request to toggle comes while the recorder refuses. -/
def Mav.Obeyed (m : Mav) (e : MavEvent) : Prop := m.toggles e = true → m.acceptsToggle = true

theorem Mav.agrees_next_iff {m : Mav} (h : m.Opened) (hagrees : m.Agrees) (e : MavEvent) :
    (m.next e).Agrees ↔ m.Obeyed e := by
  obtain ⟨-, hstatus, hrecording⟩ := Mav.toggled_next h e
  rw [Mav.Agrees, getVideoStatus, hstatus, hrecording, Mav.Obeyed]
  rw [Mav.Agrees, getVideoStatus] at hagrees
  rw [hagrees]
  cases m.isRecording <;> cases m.toggles e <;> cases m.acceptsToggle <;> decide

/-! ### What the handlers send -/

/-- Handlers that send no message. -/
def MavStep.Silent (f : MavStep) : Prop := ∀ m, ∀ out ∈ (f m).2, ∃ output, out = .device output

theorem MavStep.Silent.andThen {f g : MavStep} (hf : f.Silent) (hg : g.Silent) : (f.andThen g).Silent := by
  intro m out hout
  obtain hout | hout := List.mem_append.mp hout
  · exact hf m out hout
  · exact hg _ out hout

theorem onDevs_silent (call : CameraDevs → CameraDevs × List DeviceOutput) : (onDevs call).Silent := by
  intro m out hout
  obtain ⟨output, -, rfl⟩ := List.mem_map.mp hout
  exact ⟨output, rfl⟩

theorem quiet_silent (f : Mav → Mav) : MavStep.Silent fun m => (f m, []) := by
  intro m out hout
  simp at hout

theorem silent_rules : MavStep.Rules MavStep.Silent where
  andThen := MavStep.Silent.andThen
  branch c _ hf hg := by
    intro m
    dsimp only
    split
    · exact hf m
    · exact hg m
  quiet _ := quiet_silent _
  saveImage := onDevs_silent _
  changeRecordState env := onDevs_silent _
  zoom args m := onDevs_silent _ m
  rotate args m := onDevs_silent _ m

/-- Handlers whose capture statuses carry the copy as it was before them. -/
def MavStep.Tells (f : MavStep) : Prop := ∀ m frame status,
  .frame frame ∈ (f m).2 → frame.body = .cameraCaptureStatus status → status.videoStatus = m.videoStatus

theorem MavStep.Silent.tells {f : MavStep} (hf : f.Silent) : f.Tells := by
  intro m frame status hmem
  obtain ⟨_, heq⟩ := hf m _ hmem
  cases heq

theorem MavStep.Tells.andThen {f g : MavStep} (hf : f.Tells) (hg : g.Tells)
    (hkeep : ∀ m, (f m).1.videoStatus = m.videoStatus) : (f.andThen g).Tells := by
  intro m frame status hmem hbody
  obtain hmem | hmem := List.mem_append.mp hmem
  · exact hf m frame status hmem hbody
  · exact (hg _ frame status hmem hbody).trans (hkeep m)

theorem sendFrames_tells {frames : Mav → List MavlinkFrame}
    (h : ∀ m frame status, frame ∈ frames m → frame.body = .cameraCaptureStatus status →
      status.videoStatus = m.videoStatus) : (sendFrames frames).Tells := by
  intro m frame status hmem
  obtain ⟨frame', hframe', heq⟩ := List.mem_map.mp hmem
  cases heq
  exact h m frame status hframe'

theorem sendFrames_tells_of_ne {frames : Mav → List MavlinkFrame}
    (h : ∀ m, ∀ frame ∈ frames m, ∀ status, frame.body ≠ .cameraCaptureStatus status) : (sendFrames frames).Tells :=
  sendFrames_tells fun m frame status hmem hbody => absurd hbody (h m frame hmem status)

theorem sendAccepted_tells (cmd : UInt16) (sysid compid : UInt8) : (sendAccepted cmd sysid compid).Tells :=
  sendFrames_tells_of_ne (by simp [mavlinkSendAck])

theorem sendCaptureStatus_tells (sysid compid : UInt8) :
    (sendFrames fun m => mavlinkSendCameraCaptureStatus m.fcuSysid m.videoStatus sysid compid).Tells := by
  apply sendFrames_tells
  intro m frame status hmem hbody
  simp only [mavlinkSendCameraCaptureStatus, mavlinkSendAck, List.cons_append, List.nil_append, List.mem_cons,
    List.not_mem_nil, or_false] at hmem
  obtain rfl | rfl := hmem
  · cases hbody
  · cases hbody
    rfl

theorem mavCommandLong_tells (env : GstEnv) (command : UInt16) (sysid compid : UInt8) :
    (mavCommandLong env command sysid compid).Tells := by
  rw [mavCommandLong]
  repeat' refine iteInduction (fun _ => ?_) fun _ => ?_
  · exact (quiet_silent id).tells
  · exact sendFrames_tells_of_ne (by simp [mavlinkSendCameraInfo, mavlinkSendAck])
  · exact sendFrames_tells_of_ne (by simp [mavlinkSendCameraSettings, mavlinkSendAck])
  · exact sendFrames_tells_of_ne (by simp [mavlinkSendStorageInformation, mavlinkSendAck])
  · exact sendCaptureStatus_tells sysid compid
  · exact (sendAccepted_tells _ sysid compid).andThen (sendCaptureStatus_tells sysid compid) fun _ => rfl
  · exact (onDevs_silent _).tells.andThen (sendAccepted_tells _ sysid compid) fun _ => rfl
  · exact sendAccepted_tells _ sysid compid
  · exact (sendAccepted_tells _ sysid compid).andThen
      ((silent_rules.changeRecordStateIf false env).andThen (quiet_silent (setVideoStatus 0))).tells fun _ => rfl
  · exact (sendAccepted_tells _ sysid compid).andThen
      ((silent_rules.changeRecordStateIf true env).andThen (quiet_silent (resetVideoStatus 0))).tells fun _ => rfl
  · exact (quiet_silent id).tells

theorem recorderCallback_silent (f : GstData → GstData × List Report) : (recorderCallback f).Silent := by
  intro m
  rw [recorderCallback]
  split
  · exact onDevs_silent _ m
  · simp

/-- A capture status that leaves the server carries the copy. -/
theorem mavStep_tells (e : MavEvent) : (mavStep e).Tells := by
  cases e with
  | rcChannels env rc => exact (silent_rules.mavFcuRcChannels env rc).tells
  | commandLong env command sysid compid => exact mavCommandLong_tells env command sysid compid
  | autopilotVersion sysid => exact (quiet_silent _).tells
  | newSample sample timeinfo => exact (recorderCallback_silent _).tells
  | cameraReady => exact (recorderCallback_silent _).tells
  | eos => exact (recorderCallback_silent _).tells

/-- A right copy makes the commands and the reports right. -/
theorem Mav.faithful_of_agrees {m : Mav} (h : m.Opened) (hagrees : m.Agrees) (e : MavEvent) : m.Faithful e := by
  have hcopy : m.videoStatus = m.isRecording := hagrees
  obtain ⟨-, -, hrecording⟩ := Mav.toggled_next h e
  refine ⟨?_, ?_, fun frame status hmem hbody => (mavStep_tells e m frame status hmem hbody).trans hcopy⟩
  · intro env sysid compid hcommand hrec
    subst hcommand
    rw [hrecording, Mav.toggles_videoStart, hcopy, hrec, Bool.not_true, Bool.false_and, Bool.xor_false]
  · intro env sysid compid hcommand hrec
    subst hcommand
    rw [hrecording, Mav.toggles_videoStop, hcopy, hrec, Bool.false_and, Bool.xor_false]

theorem Mav.opened_next {m : Mav} (e : MavEvent) (h : m.Opened) : (m.next e).Opened := (Mav.toggled_next h e).opened

/-- The copy is right throughout a run, and with it the commands and the reports, exactly when no
request to toggle is refused. -/
theorem Mav.agrees_iff_obeyed {m : Mav} (h : m.Opened) (hagrees : m.Agrees) (es : List MavEvent) :
    (Machine.Always Mav.next Mav.Agrees m es ∧ Machine.EachStep Mav.next Mav.Faithful m es) ↔
      Machine.EachStep Mav.next Mav.Obeyed m es := by
  have hexact := Machine.always_iff_eachStep Mav.next (fun _ e h => Mav.opened_next e h)
    (fun _ e h hagrees => Mav.agrees_next_iff h hagrees e) h hagrees es
  rw [← hexact]
  refine ⟨And.left, fun hall => ⟨hall, fun pre e hpre => ?_⟩⟩
  have hopened : (Machine.run Mav.next m pre).Opened :=
    Machine.run_invariant (I := Mav.Opened) (fun _ e => Mav.opened_next e) h pre
  exact Mav.faithful_of_agrees hopened (hall pre ((List.prefix_append pre [e]).trans hpre)) e

/-- The state as `siyi_camera_init` leaves camera 0: registered and opened, with no message handled. -/
def mavAtStart (rcChannels : Fin 18 → ConfigRc) (rtspConfig : RtspConfig) (siyiCamConfig : SiyiCamConfig)
    (os : SocketOutcome) : Mav :=
  let devs := registerCamera 0 .siyi fun _ => {}
  let devs := (cameraOpen 0 devs rtspConfig).1
  { devs := (gimbalOpen 0 devs siyiCamConfig os).1, rcChannels }

theorem mavAtStart_recorder (rcChannels : Fin 18 → ConfigRc) (rtspConfig : RtspConfig) (siyiCamConfig : SiyiCamConfig)
    (os : SocketOutcome) : (mavAtStart rcChannels rtspConfig siyiCamConfig os).recorder = some (rtspOpen 0 rtspConfig) ∧
      ((mavAtStart rcChannels rtspConfig siyiCamConfig os).devs 0).cameraOps = some .siyi := by
  by_cases hfd : os.fd = -1
  · simp [mavAtStart, Mav.recorder, gimbalOpen, cameraOpen, callDriver, registerCamera, OpsTable.operations, siyiCamOps,
      siyiCamOpen, hfd]
  · cases hconnected : os.connected
    all_goals simp [mavAtStart, Mav.recorder, gimbalOpen, cameraOpen, callDriver, registerCamera, OpsTable.operations,
      siyiCamOps, siyiCamOpen, hfd, hconnected]

/-- From the start, in every order of messages, readiness and ends of stream. -/
theorem videoStatus_agrees_iff_obeyed (rcChannels : Fin 18 → ConfigRc) (rtspConfig : RtspConfig)
    (siyiCamConfig : SiyiCamConfig) (os : SocketOutcome) (es : List MavEvent) :
    let m := mavAtStart rcChannels rtspConfig siyiCamConfig os
    (Machine.Always Mav.next Mav.Agrees m es ∧ Machine.EachStep Mav.next Mav.Faithful m es) ↔
      Machine.EachStep Mav.next Mav.Obeyed m es := by
  intro m
  obtain ⟨hrec, hops⟩ := mavAtStart_recorder rcChannels rtspConfig siyiCamConfig os
  refine Mav.agrees_iff_obeyed ⟨hops, by rw [hrec]; rfl⟩ ?_ es
  rw [Mav.Agrees, Mav.isRecording, hrec]
  rfl

/-- A start that comes before the camera is ready is not obeyed, yet the status is set: the copy is
wrong from there on, and the stop that follows starts a recording. -/
theorem videoStart_before_ready :
    let m := mavAtStart (fun _ => {}) ⟨"/videos", "h264", "rb5", "rtsp://camera", "NV12", 1280, 720⟩
      ⟨"192.168.144.25", 37260⟩ ⟨3, true⟩
    let env : GstEnv := ⟨⟨126, 0, 1, 12, 0, 0⟩, 0⟩
    let es : List MavEvent := [.commandLong env mavCmdVideoStartCapture 255 190, .cameraReady,
      .commandLong env mavCmdVideoStopCapture 255 190]
    ¬ Machine.Always Mav.next Mav.Agrees m es ∧ ¬ Machine.EachStep Mav.next Mav.Faithful m es := by
  intro m env es
  constructor
  · intro h
    have hwrong : (Machine.run Mav.next m (es.take 1)).videoStatus = (Machine.run Mav.next m (es.take 1)).isRecording :=
      h (es.take 1) (List.take_prefix 1 es)
    revert hwrong
    decide
  · intro h
    have hstop := (h (es.take 2) (es.getD 2 .eos) (List.prefix_refl es)).stop env 255 190 rfl
    revert hstop
    decide

end MissionServer
