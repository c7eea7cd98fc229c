import MissionServer.Proof.AbsentCamera
import MissionServer.Proof.VideoStatus

/-!
# Acknowledgements

Every command that `mav_command_long` acknowledges is accepted, whatever the camera then does. What
the messages are, and when the accepted request takes effect, is decided in every state that a run from
the start can reach.
-/

namespace MissionServer

/-! ### The reachable states of camera 0 -/

/-- What runs keep of an open recorder. -/
structure GstData.Sound (gst : GstData) : Prop where
  recorder : ∃ marks, RecorderRun.Inv { gst, marks }
  snapshot : gst.snapshotRequest = true → gst.cameraReady = true

/-- Camera 0 is absent, or it is open with a sound recorder. -/
def CameraDev.Sound (cam : CameraDev) : Prop :=
  devicePresent cam = false ∨ cam.cameraOps = some .siyi ∧ ∃ gst, cam.cameraPriv = .live gst ∧ gst.Sound

def Mav.Sound (m : Mav) : Prop := (m.devs 0).Sound

theorem GstData.sound_rtspOpen (camId : Int) (config : RtspConfig) : (rtspOpen camId config).Sound :=
  ⟨⟨[], RecorderRun.inv_opened camId config⟩, by simp [rtspOpen]⟩

theorem GstData.Sound.with_snapshotRequest {gst : GstData} (h : gst.Sound) {request : Bool}
    (hrequest : request = true → gst.cameraReady = true) :
    ({ gst with snapshotRequest := request } : GstData).Sound := by
  obtain ⟨marks, hinv⟩ := h.recorder
  exact ⟨⟨marks, hinv.exclusive, hinv.ready, hinv.pad, hinv.started, hinv.stopped, hinv.permitted⟩, hrequest⟩

theorem GstData.Sound.saveImage {gst : GstData} (h : gst.Sound) : (rtspSaveImage gst).Sound := by
  rw [rtspSaveImage]
  split
  · exact h
  · exact h.with_snapshotRequest fun _ => by simpa using ‹¬¬_›

theorem GstData.Sound.onNewSample {gst : GstData} (h : gst.Sound) (sample : Bool) (timeinfo : Tm) :
    (onNewSampleHandler sample timeinfo gst).1.Sound := by
  rw [onNewSampleHandler]
  split
  · exact h.with_snapshotRequest (by simp)
  · exact h

theorem GstData.Sound.recorderStep {gst : GstData} (h : gst.Sound) {e : RecorderEvent}
    (hrequest : (recorderStep gst e).1.snapshotRequest = gst.snapshotRequest)
    (hready : gst.cameraReady = true → (recorderStep gst e).1.cameraReady = true) : (recorderStep gst e).1.Sound := by
  obtain ⟨marks, hinv⟩ := h.recorder
  refine ⟨⟨_, hinv.step e⟩, fun hreq => hready (h.snapshot ?_)⟩
  rw [← hrequest]
  exact hreq

theorem GstData.Sound.saver {gst : GstData} (h : gst.Sound) : (rtspSaver gst).Sound := by
  refine h.recorderStep (e := .ready) ?_ ?_
  all_goals
    simp only [MissionServer.recorderStep, rtspSaver]
    split
    all_goals simp [*]

theorem GstData.Sound.eos {gst : GstData} (h : gst.Sound) : (eosHandler true gst).1.Sound := by
  refine h.recorderStep (e := .eos) ?_ ?_
  all_goals
    simp only [MissionServer.recorderStep, eosHandler]
    split_ifs
    all_goals simp

theorem rtspChangeRecordState_fst (camId camId' : Int) (env : GstEnv) (gst : GstData) :
    (rtspChangeRecordState camId env gst).1 = (rtspChangeRecordState camId' env gst).1 := by
  unfold rtspChangeRecordState
  split_ifs <;> rfl

theorem GstData.Sound.change {gst : GstData} (h : gst.Sound) (camId : Int) (env : GstEnv) :
    (rtspChangeRecordState camId env gst).1.Sound := by
  rw [rtspChangeRecordState_fst camId gst.cameraId]
  refine h.recorderStep (e := .change env) ?_ ?_
  all_goals
    rcases rtspChangeRecordState_cases gst.cameraId env gst with
      ⟨-, heq⟩ | ⟨-, -, heq⟩ | ⟨-, -, -, -, heq⟩ | ⟨-, -, -, -, heq⟩ | ⟨-, -, -, heq⟩
    all_goals simp [MissionServer.recorderStep, heq]

theorem CameraDev.Sound.dispatch {devs : CameraDevs} (h : (devs 0).Sound)
    {op : CameraOperations → Option DeviceCall} {f : GstData → GstData × List Report}
    (hop : ∃ call, op siyiCamOps = some call ∧ call (devs 0) = onGstData f (devs 0))
    (hf : ∀ gst, gst.Sound → (f gst).1.Sound) : ((MissionServer.dispatch op 0 devs).1 0).Sound := by
  obtain habsent | ⟨hops, gst, hlive, hsound⟩ := h
  · rw [dispatch_absent habsent]
    exact .inl habsent
  · obtain ⟨call, hop, hcall⟩ := hop
    have hpresent : devicePresent (devs 0) = true := by simp [devicePresent, hlive, Priv.isSet]
    rw [MissionServer.dispatch, if_neg (by simp [hpresent]), callDriver, hops]
    simp only [OpsTable.operations, hop, hcall, onGstData, hlive, Function.update_self]
    exact .inr ⟨hops, _, rfl, hf gst hsound⟩

/-- Steps that lead from sound states to sound states. -/
def MavStep.KeepsSound (f : MavStep) : Prop := ∀ m : Mav, m.Sound → (f m).1.Sound

theorem MavStep.KeepsSound.andThen {f g : MavStep} (hf : f.KeepsSound) (hg : g.KeepsSound) :
    (f.andThen g).KeepsSound :=
  fun m h => hg _ (hf m h)

theorem sendFrames_keepsSound (frames : Mav → List MavlinkFrame) : (sendFrames frames).KeepsSound := fun _ h => h

theorem saveImage_keepsSound : (onDevs (cameraSaveImage 0)).KeepsSound :=
  fun _ h => CameraDev.Sound.dispatch h ⟨_, rfl, rfl⟩ fun _ hgst => hgst.saveImage

theorem changeRecordState_keepsSound (env : GstEnv) : (onDevs (cameraChangeRecordState 0 · env)).KeepsSound :=
  fun _ h => CameraDev.Sound.dispatch h ⟨_, rfl, rfl⟩ fun _ hgst => hgst.change _ env

theorem recorderCallback_keepsSound {f : GstData → GstData × List Report} (hf : ∀ gst, gst.Sound → (f gst).1.Sound) :
    (recorderCallback f).KeepsSound := by
  intro m h
  rw [recorderCallback]
  split
  · rename_i gst hlive
    obtain habsent | ⟨hops, gst', hlive', hsound⟩ := h
    · simp [devicePresent, hlive, Priv.isSet] at habsent
    · refine .inr ?_
      simp only [onDevs, Function.update_self, onGstData, hlive']
      exact ⟨hops, _, rfl, hf gst' hsound⟩
  · exact h

theorem keepsSound_rules : MavStep.Rules MavStep.KeepsSound where
  andThen := MavStep.KeepsSound.andThen
  branch c _ hf hg := by
    intro m h
    dsimp only
    split
    · exact hf m h
    · exact hg m h
  quiet hdevs m h := by rwa [Mav.Sound, hdevs]
  saveImage := saveImage_keepsSound
  changeRecordState env := changeRecordState_keepsSound env
  zoom args m h := by simpa only [Mav.Sound, onDevs, cameraZoom_fst] using h
  rotate args m h := by simpa only [Mav.Sound, onDevs, gimbalRotate_fst] using h

theorem Mav.Sound.next {m : Mav} (h : m.Sound) (e : MavEvent) : (m.next e).Sound := by
  cases e with
  | rcChannels env rc => exact keepsSound_rules.mavFcuRcChannels env rc m h
  | commandLong env command sysid compid =>
      exact keepsSound_rules.mavCommandLong sendFrames_keepsSound env command sysid compid m h
  | autopilotVersion sysid => exact h
  | cameraReady => exact recorderCallback_keepsSound (fun _ hgst => hgst.saver) m h
  | newSample sample timeinfo => exact recorderCallback_keepsSound (fun _ hgst => hgst.onNewSample sample timeinfo) m h
  | eos => exact recorderCallback_keepsSound (fun _ hgst => hgst.eos) m h

/-! ### The messages of a command -/

/-- The messages among the outputs of a step. -/
def sentFrames (out : List MavOutput) : List MavlinkFrame :=
  out.filterMap fun
    | .frame frame => some frame
    | .device _ => none

theorem sentFrames_append (out out' : List MavOutput) : sentFrames (out ++ out') = sentFrames out ++ sentFrames out' :=
  List.filterMap_append

theorem MavStep.Silent.sentFrames_eq_nil {f : MavStep} (hf : f.Silent) (m : Mav) : sentFrames (f m).2 = [] := by
  apply List.filterMap_eq_nil_iff.mpr
  intro out hout
  obtain ⟨output, rfl⟩ := hf m out hout
  rfl

theorem sentFrames_sendFrames (frames : Mav → List MavlinkFrame) (m : Mav) :
    sentFrames (sendFrames frames m).2 = frames m := by
  simp [sentFrames, sendFrames, List.filterMap_map]

def acknowledgedCommands : List UInt16 :=
  [mavCmdRequestCameraInformation, mavCmdRequestCameraSettings, mavCmdRequestStorageInformation,
   mavCmdRequestCameraCaptureStatus, mavCmdSetCameraMode, mavCmdImageStartCapture, mavCmdImageStopCapture,
   mavCmdVideoStartCapture, mavCmdVideoStopCapture]

/-- The acknowledgement that a command deserves: its own number, to whom it came from. -/
def acceptedAck (command : UInt16) (sysid compid : UInt8) : MavlinkBody :=
  .commandAck { command, result := mavResultAccepted, progress := 0, resultParam2 := 0, targetSystem := sysid,
                targetComponent := compid }

/-- What follows the acknowledgement: the message a request asks for. Storage information is not
mandatory and never sent. A change of mode also answers a request for the capture status. -/
def Mav.Replies (m : Mav) (command : UInt16) (sysid compid : UInt8) (replies : List MavlinkBody) : Prop :=
  if command = mavCmdRequestCameraInformation then ∃ info, replies = [.cameraInformation info]
  else if command = mavCmdRequestCameraSettings then ∃ settings, replies = [.cameraSettings settings]
  else if command = mavCmdRequestCameraCaptureStatus then
    ∃ status, replies = [.cameraCaptureStatus status] ∧ status.videoStatus = m.videoStatus
  else if command = mavCmdSetCameraMode then
    ∃ status, replies = [acceptedAck mavCmdRequestCameraCaptureStatus sysid compid, .cameraCaptureStatus status] ∧
      status.videoStatus = m.videoStatus
  else replies = []

theorem sentFrames_accepted_then {g : MavStep} (hg : g.Silent) (cmd : UInt16) (sysid compid : UInt8) (m : Mav) :
    sentFrames ((sendAccepted cmd sysid compid).andThen g m).2 =
      mavlinkSendAck m.fcuSysid cmd mavResultAccepted 0 0 sysid compid := by
  rw [MavStep.andThen, sentFrames_append, hg.sentFrames_eq_nil, List.append_nil]
  exact sentFrames_sendFrames _ m

theorem mavCommandLong_messages (env : GstEnv) (command : UInt16) (sysid compid : UInt8) (m : Mav) :
    if command ∈ acknowledgedCommands then
      ∃ replies, (sentFrames (mavCommandLong env command sysid compid m).2).map (·.body) =
        acceptedAck command sysid compid :: replies ∧ m.Replies command sysid compid replies
    else sentFrames (mavCommandLong env command sysid compid m).2 = [] := by
  by_cases hack : command ∈ acknowledgedCommands
  · rw [if_pos hack]
    simp only [acknowledgedCommands, List.mem_cons, List.not_mem_nil, or_false] at hack
    rcases hack with rfl | rfl | rfl | rfl | rfl | rfl | rfl | rfl | rfl
    · exact ⟨_, rfl, _, rfl⟩
    · exact ⟨_, rfl, _, rfl⟩
    · exact ⟨_, rfl, rfl⟩
    · exact ⟨_, rfl, _, rfl, rfl⟩
    · exact ⟨_, rfl, _, rfl, rfl⟩
    · refine ⟨[], ?_, rfl⟩
      change (sentFrames ((onDevs (cameraSaveImage 0)).andThen
        (sendAccepted mavCmdImageStartCapture sysid compid) m).2).map (·.body) = _
      rw [MavStep.andThen, sentFrames_append, (onDevs_silent _).sentFrames_eq_nil, List.nil_append]
      rfl
    · exact ⟨_, rfl, rfl⟩
    · refine ⟨[], ?_, rfl⟩
      exact congrArg (List.map (·.body)) (sentFrames_accepted_then
        ((silent_rules.changeRecordStateIf false env).andThen (quiet_silent (setVideoStatus 0))) _ sysid compid m)
    · refine ⟨[], ?_, rfl⟩
      exact congrArg (List.map (·.body)) (sentFrames_accepted_then
        ((silent_rules.changeRecordStateIf true env).andThen (quiet_silent (resetVideoStatus 0))) _ sysid compid m)
  · rw [if_neg hack]
    simp only [acknowledgedCommands, List.mem_cons, List.not_mem_nil, or_false, not_or] at hack
    obtain ⟨hinfo, hsettings, hstorage, hstatus, hmode, himage, himageStop, hstart, hstop⟩ := hack
    rw [mavCommandLong]
    simp only [hinfo, hsettings, hstorage, hstatus, hmode, himage, himageStop, hstart, hstop, if_false, ite_self]
    rfl

/-! ### When an accepted request takes effect -/

def Mav.snapshotPending (m : Mav) : Bool := m.recorder.any (·.snapshotRequest)

def Mav.isReady (m : Mav) : Bool := m.recorder.any (·.cameraReady)

theorem Mav.recorder_of_absent {m : Mav} (h : devicePresent (m.devs 0) = false) : m.recorder = none := by
  rw [Mav.recorder]
  split
  · simp [devicePresent, ‹(m.devs 0).cameraPriv = _›, Priv.isSet] at h
  · rfl

theorem Mav.Sound.cases {m : Mav} (h : m.Sound) :
    devicePresent (m.devs 0) = false ∨ m.Opened ∧ ∃ gst, m.recorder = some gst ∧ gst.Sound := by
  obtain habsent | ⟨hops, gst, hlive, hsound⟩ := h
  · exact .inl habsent
  · exact .inr ⟨⟨hops, by simp [Mav.recorder, hlive]⟩, gst, Mav.recorder_of_live hlive, hsound⟩

theorem Mav.Sound.acceptsToggle_of_isRecording {m : Mav} (h : m.Sound) (hrec : m.isRecording = true) :
    m.acceptsToggle = true := by
  obtain habsent | ⟨-, gst, hgst, hsound⟩ := h.cases
  · simp [Mav.isRecording, Mav.recorder_of_absent habsent] at hrec
  · obtain ⟨marks, hinv⟩ := hsound.recorder
    simp only [Mav.isRecording, Mav.acceptsToggle, hgst, Option.any_some] at hrec ⊢
    have hready : gst.cameraReady = true := hinv.ready (.inl hrec)
    have hbusy : gst.busy = false := hinv.not_busy hrec
    simp [hready, hbusy]

theorem snapshotPending_of_imageStart (env : GstEnv) (sysid compid : UInt8) {m : Mav} (h : m.Sound) :
    (m.next (.commandLong env mavCmdImageStartCapture sysid compid)).snapshotPending = m.isReady := by
  change (onDevs (cameraSaveImage 0) m).1.snapshotPending = m.isReady
  obtain habsent | ⟨hopened, gst, hgst, hsound⟩ := h.cases
  · have hsame : (onDevs (cameraSaveImage 0) m).1 = m := by simp only [onDevs, cameraSaveImage, dispatch_absent habsent]
    rw [hsame, Mav.snapshotPending, Mav.isReady, Mav.recorder_of_absent habsent]
    rfl
  · obtain ⟨gst', hlive⟩ := hopened.exists_live
    have hrec : (onDevs (cameraSaveImage 0) m).1.recorder = some (rtspSaveImage gst') :=
      (recorder_onGstData hlive (f := fun gst => (rtspSaveImage gst, []))
        (congrArg Prod.fst (dispatch_opened hopened (·.cameraSaveImage) rfl))).1
    obtain rfl : gst' = gst := Option.some.inj ((Mav.recorder_of_live hlive).symm.trans hgst)
    simp only [Mav.snapshotPending, Mav.isReady, hrec, hgst, Option.any_some, rtspSaveImage]
    cases hready : gst'.cameraReady
    · have hsnapshot := hsound.snapshot
      simpa [hready] using hsnapshot
    · simp

/-- With no camera there is none that records, and a command brings none about. -/
theorem Mav.isRecording_next_of_absent {m : Mav} (h : devicePresent (m.devs 0) = false) (env : GstEnv)
    (command : UInt16) (sysid compid : UInt8) :
    (m.next (.commandLong env command sysid compid)).isRecording = false := by
  have hdevs : (m.next (.commandLong env command sysid compid)).devs = m.devs :=
    (mavCommandLong_inert env command sysid compid m h).1
  rw [Mav.isRecording, Mav.recorder_of_absent (by rw [hdevs, h])]
  rfl

/-- Where the video status is right, a start leaves the camera recording exactly when the recorder would
obey a toggle, and a stop always leaves it idle. -/
theorem isRecording_of_videoStart (env : GstEnv) (sysid compid : UInt8) {m : Mav} (h : m.Sound) (hagrees : m.Agrees) :
    (m.next (.commandLong env mavCmdVideoStartCapture sysid compid)).isRecording = m.acceptsToggle := by
  obtain habsent | ⟨hopened, -⟩ := h.cases
  · rw [Mav.isRecording_next_of_absent habsent, Mav.acceptsToggle, Mav.recorder_of_absent habsent]
    rfl
  · have hcopy : m.videoStatus = m.isRecording := hagrees
    rw [(Mav.toggled_next hopened _).isRecording, Mav.toggles_videoStart, hcopy]
    cases hrec : m.isRecording
    · simp
    · simp [h.acceptsToggle_of_isRecording hrec]

theorem isRecording_of_videoStop (env : GstEnv) (sysid compid : UInt8) {m : Mav} (h : m.Sound) (hagrees : m.Agrees) :
    (m.next (.commandLong env mavCmdVideoStopCapture sysid compid)).isRecording = false := by
  obtain habsent | ⟨hopened, -⟩ := h.cases
  · exact Mav.isRecording_next_of_absent habsent env _ sysid compid
  · have hcopy : m.videoStatus = m.isRecording := hagrees
    rw [(Mav.toggled_next hopened _).isRecording, Mav.toggles_videoStop, hcopy]
    cases hrec : m.isRecording
    · simp
    · simp [h.acceptsToggle_of_isRecording hrec]

/-! ### Every reachable state -/

/-- The state before the first message, with or without a camera 0. -/
def mavBoot (rcChannels : Fin 18 → ConfigRc) : Option (RtspConfig × SiyiCamConfig × SocketOutcome) → Mav
  | none => { rcChannels }
  | some (rtspConfig, siyiCamConfig, os) => mavAtStart rcChannels rtspConfig siyiCamConfig os

theorem sound_mavBoot (rcChannels : Fin 18 → ConfigRc) (camera : Option (RtspConfig × SiyiCamConfig × SocketOutcome)) :
    (mavBoot rcChannels camera).Sound := by
  cases camera with
  | none => exact .inl rfl
  | some camera =>
      obtain ⟨rtspConfig, siyiCamConfig, os⟩ := camera
      obtain ⟨hrec, hops⟩ := mavAtStart_recorder rcChannels rtspConfig siyiCamConfig os
      obtain ⟨gst, hlive⟩ := Mav.Opened.exists_live (m := mavAtStart rcChannels rtspConfig siyiCamConfig os)
        ⟨hops, by rw [hrec]; rfl⟩
      obtain rfl : gst = rtspOpen 0 rtspConfig := Option.some.inj ((Mav.recorder_of_live hlive).symm.trans hrec)
      exact .inr ⟨hops, _, hlive, GstData.sound_rtspOpen 0 rtspConfig⟩

/-- What a client may conclude from the answer to a command. -/
structure Mav.Answered (m : Mav) (env : GstEnv) (command : UInt16) (sysid compid : UInt8) : Prop where
  messages :
    if command ∈ acknowledgedCommands then
      ∃ replies, (sentFrames (mavCommandLong env command sysid compid m).2).map (·.body) =
        acceptedAck command sysid compid :: replies ∧ m.Replies command sysid compid replies
    else sentFrames (mavCommandLong env command sysid compid m).2 = []
  imageStart : command = mavCmdImageStartCapture → m.isReady = true →
    (mavCommandLong env command sysid compid m).1.snapshotPending = true
  videoStart : command = mavCmdVideoStartCapture → m.Agrees → m.acceptsToggle = true →
    (mavCommandLong env command sysid compid m).1.isRecording = true
  videoStop : command = mavCmdVideoStopCapture → m.Agrees →
    (mavCommandLong env command sysid compid m).1.isRecording = false

/-- In every reachable state each acknowledged command gets one acknowledgement of its own and the
message it asks for, and it takes effect where the camera can obey and the video status is right. -/
theorem commandLong_answered (rcChannels : Fin 18 → ConfigRc)
    (camera : Option (RtspConfig × SiyiCamConfig × SocketOutcome)) (es : List MavEvent) (env : GstEnv)
    (command : UInt16) (sysid compid : UInt8) :
    (Machine.run Mav.next (mavBoot rcChannels camera) es).Answered env command sysid compid := by
  have h : (Machine.run Mav.next (mavBoot rcChannels camera) es).Sound :=
    Machine.run_invariant (I := Mav.Sound) (fun _ e h => h.next e) (sound_mavBoot rcChannels camera) es
  refine ⟨mavCommandLong_messages env command sysid compid _, ?_, ?_, ?_⟩
  · intro hcommand hready
    subst hcommand
    exact (snapshotPending_of_imageStart env sysid compid h).trans hready
  · intro hcommand hagrees haccepts
    subst hcommand
    exact (isRecording_of_videoStart env sysid compid h hagrees).trans haccepts
  · intro hcommand hagrees
    subst hcommand
    exact isRecording_of_videoStop env sysid compid h hagrees

/-- Accepted without effect: with no camera no snapshot is pending, storage information is not sent,
and a change of mode is acknowledged twice. -/
theorem accepted_without_effect :
    let m := mavBoot (fun _ => {}) none
    let env : GstEnv := ⟨⟨126, 0, 1, 12, 0, 0⟩, 0⟩
    let bodies := fun command => (sentFrames (mavCommandLong env command 255 190 m).2).map (·.body)
    bodies mavCmdImageStartCapture = [acceptedAck mavCmdImageStartCapture 255 190] ∧
    (mavCommandLong env mavCmdImageStartCapture 255 190 m).1.snapshotPending = false ∧
    bodies mavCmdRequestStorageInformation = [acceptedAck mavCmdRequestStorageInformation 255 190] ∧
    (bodies mavCmdSetCameraMode).take 2 =
      [acceptedAck mavCmdSetCameraMode 255 190, acceptedAck mavCmdRequestCameraCaptureStatus 255 190] := by
  decide

end MissionServer
