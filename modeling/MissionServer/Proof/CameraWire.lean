import MissionServer.Proof.GimbalControl
import MissionServer.Proof.SiyiFrames
import MissionServer.Proof.Steps
import MissionServer.Proof.ZoomControl

/-!
# What the camera is told

The packets of a run, read as the camera reads them: they are the orders of the zoom law and of the gimbal law, one
message of the autopilot after the other, and all of them are within the limits of the camera. A camera that obeys
stands where the statics of the server say it does.
-/

namespace MissionServer

/-! ### Orders -/

/-- What a packet tells the camera: a zoom ratio, or where to look, in tenths. -/
inductive CameraOrder
  | zoom (ratio : Int)
  | look (yaw pitch : Int)
  deriving DecidableEq, Repr

def SiyiCommand.order? : SiyiCommand → Option CameraOrder
  | .manualZoom zoomInteger zoomDecimal => some (.zoom (10 * zoomInteger.toNat + zoomDecimal.toNat))
  | .gimbalRotate yaw pitch => some (.look yaw.toInt pitch.toInt)
  | _ => none

/-- A packet as the camera reads it; nothing where it is damaged, or no order. -/
def readOrder (packet : Bytes) : Option CameraOrder :=
  (siyiReader.decode packet).bind fun message => message.command.order?

/-- The limits of the camera and of its gimbal. -/
def CameraOrder.InLimits : CameraOrder → Prop
  | .zoom ratio => 10 ≤ ratio ∧ ratio ≤ 40
  | .look yaw pitch => (-1350 ≤ yaw ∧ yaw ≤ 1350) ∧ -900 ≤ pitch ∧ pitch ≤ 250

/-- Both laws of RC_CHANNELS together. -/
structure CameraLaw where
  zoom : ZoomLaw := {}
  gimbal : GimbalLaw := {}
  deriving DecidableEq, Repr

/-- An event, and the orders that follow from it. -/
def cameraNext (table : RcTable) (c : CameraLaw) (e : MavEvent) : CameraLaw × List CameraOrder :=
  match rcMessage? e with
  | none => (c, [])
  | some rc =>
      let zoomed := zoomStep (zoomConfig table) c.zoom rc
      let steered := gimbalStep ConfigRc.span table c.gimbal rc
      ({ zoom := zoomed.1, gimbal := steered.1 }, zoomed.2.toList.map .zoom ++ [.look steered.2.1 steered.2.2])

/-- Where a camera stands. -/
structure CameraView where
  ratio : Int
  yaw : Int
  pitch : Int
  deriving DecidableEq, Repr

def CameraView.obey (view : CameraView) : CameraOrder → CameraView
  | .zoom ratio => { view with ratio }
  | .look yaw pitch => { view with yaw, pitch }

/-! ### Packets -/

/-- The packets among the outputs, with their sockets. -/
def packets (out : List MavOutput) : List (Int × Bytes) :=
  out.filterMap fun
    | .device (.send fd buf) => some (fd, buf)
    | _ => none

theorem packets_append (out out' : List MavOutput) : packets (out ++ out') = packets out ++ packets out' :=
  List.filterMap_append

/-- The commands that an action of the handler sends. -/
def RcAction.commands : RcAction → List SiyiCommand
  | .zoom zoomInteger zoomDecimal => [.manualZoom zoomInteger zoomDecimal]
  | .rotate yaw pitch => [.gimbalRotate yaw pitch]
  | _ => []

theorem decode_packet (command : SiyiCommand) (hsend : command.Sendable) :
    siyiReader.decode command.packet = some { ctrl := 1, seq := 0, command } := by
  rw [packet_eq command hsend, ← siyiReader_encode, siyiReader.decode_encode]

theorem readOrder_packet (command : SiyiCommand) (hsend : command.Sendable) :
    readOrder command.packet = command.order? := by
  rw [readOrder, decode_packet command hsend, Option.bind_some]

/-! ### A connected camera -/

/-- Camera 0 is open, recorder and gimbal, and its socket is `fd`. -/
structure Mav.Connected (fd : Int) (m : Mav) : Prop where
  ops : (m.devs 0).cameraOps = some .siyi
  recorder : ∃ gst, (m.devs 0).cameraPriv = .live gst
  gimbal : (m.devs 0).gimbalPriv = .live ⟨fd⟩

/-- On a connected camera a step leads to a connected camera, and never follows a bad pointer or ends the program. -/
def MavStep.Sound (fd : Int) (f : MavStep) : Prop :=
  ∀ m, m.Connected fd → (f m).1.Connected fd ∧ crashes (f m).2 = false

theorem Mav.Connected.opened {fd : Int} {m : Mav} (h : m.Connected fd) : m.Opened := by
  obtain ⟨gst, hlive⟩ := h.recorder
  exact ⟨h.ops, by rw [Mav.recorder_of_live hlive]; rfl⟩

theorem Mav.Connected.of_devs {fd : Int} {m m' : Mav} (h : m.Connected fd) (hdevs : m'.devs = m.devs) :
    m'.Connected fd := ⟨hdevs ▸ h.ops, hdevs ▸ h.recorder, hdevs ▸ h.gimbal⟩

variable {fd : Int}

theorem onGstData_connected {m : Mav} (h : m.Connected fd) {call : CameraDevs → CameraDevs × List DeviceOutput}
    (f : GstData → GstData × List Report)
    (hcall : call m.devs = (Function.update m.devs 0 (onGstData f (m.devs 0)).1, (onGstData f (m.devs 0)).2)) :
    (onDevs call m).1.Connected fd ∧ crashes (onDevs call m).2 = false ∧ packets (onDevs call m).2 = [] := by
  obtain ⟨gst, hlive⟩ := h.recorder
  have hcall' : call m.devs =
      (Function.update m.devs 0 { m.devs 0 with cameraPriv := .live (f gst).1 }, (f gst).2.map .report) := by
    rw [hcall]
    simp only [onGstData, hlive]
  refine ⟨⟨?_, ⟨(f gst).1, ?_⟩, ?_⟩, ?_, ?_⟩
  · simp only [onDevs, hcall', Function.update_self]
    exact h.ops
  · simp only [onDevs, hcall', Function.update_self]
  · simp only [onDevs, hcall', Function.update_self]
    exact h.gimbal
  · simp [onDevs, hcall', crashes]
  · simp [onDevs, hcall', packets]

theorem sendSiyiCam_connected {m : Mav} (h : m.Connected fd) (op : CameraOperations → Option DeviceCall) {buf : Bytes}
    (hop : op siyiCamOps = some (sendSiyiCam buf)) : onDevs (dispatch op 0) m = (m, [.device (.send fd buf)]) := by
  have hsend : sendSiyiCam buf (m.devs 0) = (m.devs 0, [.send fd buf]) := by
    simp only [sendSiyiCam, h.gimbal]
  simp only [onDevs, dispatch_opened h.opened op hop, hsend, Function.update_eq_self, List.map_cons, List.map_nil]

theorem saveImage_connected {m : Mav} (h : m.Connected fd) :
    (onDevs (cameraSaveImage 0) m).1.Connected fd ∧ crashes (onDevs (cameraSaveImage 0) m).2 = false ∧
      packets (onDevs (cameraSaveImage 0) m).2 = [] :=
  onGstData_connected h (fun gst => (rtspSaveImage gst, [])) (dispatch_opened h.opened (·.cameraSaveImage) rfl)

theorem changeRecordState_connected (env : GstEnv) {m : Mav} (h : m.Connected fd) :
    (onDevs (cameraChangeRecordState 0 · env) m).1.Connected fd ∧
      crashes (onDevs (cameraChangeRecordState 0 · env) m).2 = false ∧
      packets (onDevs (cameraChangeRecordState 0 · env) m).2 = [] := by
  have hcall := dispatch_opened h.opened (fun ops => ops.cameraChangeRecordState.map fun call => call env) rfl
  exact onGstData_connected h (rtspChangeRecordState (m.devs 0).id env) hcall

theorem sendFrames_sound (frames : Mav → List MavlinkFrame) : (sendFrames frames).Sound fd := by
  intro m h
  refine ⟨h, ?_⟩
  simp [sendFrames, crashes]

theorem sound_rules : MavStep.Rules (MavStep.Sound fd) where
  andThen := by
    intro f g hf hg m h
    obtain ⟨hconnected, hout⟩ := hf m h
    obtain ⟨hconnected', hout'⟩ := hg (f m).1 hconnected
    exact ⟨hconnected', by rw [MavStep.andThen, crashes_append, hout, hout', Bool.or_false]⟩
  branch c _ hf hg := by
    intro m h
    dsimp only
    split
    · exact hf m h
    · exact hg m h
  quiet hf m h := ⟨h.of_devs (hf m), rfl⟩
  saveImage m h := ⟨(saveImage_connected h).1, (saveImage_connected h).2.1⟩
  changeRecordState env m h := ⟨(changeRecordState_connected env h).1, (changeRecordState_connected env h).2.1⟩
  zoom args m h := by
    have hsend := sendSiyiCam_connected h
      (fun ops => ops.cameraZoom.map fun call => call (args m).1 (args m).2) rfl
    simp only [cameraZoom]
    rw [hsend]
    exact ⟨h, rfl⟩
  rotate args m h := by
    have hsend := sendSiyiCam_connected h
      (fun ops => ops.gimbalRotate.map fun call => call (args m).1 (args m).2) rfl
    simp only [gimbalRotate]
    rw [hsend]
    exact ⟨h, rfl⟩

theorem recorderCallback_connected (f : GstData → GstData × List Report) {m : Mav} (h : m.Connected fd) :
    (recorderCallback f m).1.Connected fd ∧ crashes (recorderCallback f m).2 = false ∧
      packets (recorderCallback f m).2 = [] := by
  obtain ⟨gst, hlive⟩ := h.recorder
  have heq : recorderCallback f m =
      onDevs (fun devs => (Function.update devs 0 (onGstData f (devs 0)).1, (onGstData f (devs 0)).2)) m := by
    rw [recorderCallback]
    split
    · rfl
    · rename_i hnot
      exact absurd hlive (hnot gst)
  rw [heq]
  exact onGstData_connected h f rfl

theorem mavStep_sound (e : MavEvent) : (mavStep e).Sound fd := by
  cases e with
  | rcChannels env rc => exact sound_rules.mavFcuRcChannels env rc
  | commandLong env command sysid compid => exact sound_rules.mavCommandLong sendFrames_sound env command sysid compid
  | autopilotVersion sysid => exact fun m h => ⟨h.of_devs rfl, rfl⟩
  | newSample sample timeinfo =>
      exact fun m h => ⟨(recorderCallback_connected _ h).1, (recorderCallback_connected _ h).2.1⟩
  | cameraReady => exact fun m h => ⟨(recorderCallback_connected _ h).1, (recorderCallback_connected _ h).2.1⟩
  | eos => exact fun m h => ⟨(recorderCallback_connected _ h).1, (recorderCallback_connected _ h).2.1⟩

/-! ### The packets of an event -/

theorem packets_perform (env : GstEnv) (action : RcAction) {m : Mav} (h : m.Connected fd) :
    (action.perform env m).1.Connected fd ∧
      packets (action.perform env m).2 = action.commands.map fun command => (fd, command.packet) := by
  cases action with
  | recentre => exact ⟨h, rfl⟩
  | saveImage => exact ⟨(saveImage_connected h).1, (saveImage_connected h).2.2⟩
  | zoom zoomInteger zoomDecimal =>
      have hsend := sendSiyiCam_connected h
        (fun ops => ops.cameraZoom.map fun call => call zoomInteger zoomDecimal) rfl
      rw [show RcAction.perform env (.zoom zoomInteger zoomDecimal) m = _ from hsend]
      exact ⟨h, rfl⟩
  | changeRecordState =>
      obtain ⟨hconnected, -, hpackets⟩ := changeRecordState_connected env h
      refine ⟨hconnected.of_devs ?_, ?_⟩
      · dsimp only [RcAction.perform, MavStep.andThen]
        split <;> rfl
      · rw [RcAction.perform, MavStep.andThen, packets_append, hpackets]
        rfl
  | rotate yaw pitch =>
      have hsend := sendSiyiCam_connected h
        (fun ops => ops.gimbalRotate.map fun call => call yaw pitch) rfl
      rw [show RcAction.perform env (.rotate yaw pitch) m = _ from hsend]
      exact ⟨h, rfl⟩

theorem packets_performAll (env : GstEnv) (actions : List RcAction) {m : Mav} (h : m.Connected fd) :
    packets (performAll env actions m).2 =
      (actions.flatMap RcAction.commands).map fun command => (fd, command.packet) := by
  induction actions generalizing m with
  | nil => rfl
  | cons action actions ih =>
      obtain ⟨hconnected, hpackets⟩ := packets_perform env action h
      rw [performAll, MavStep.andThen, packets_append, hpackets, ih hconnected, List.flatMap_cons, List.map_append]

/-- A step that sends nothing to a connected camera. -/
def MavStep.Unsteered (fd : Int) (f : MavStep) : Prop :=
  ∀ m, m.Connected fd → (f m).1.Connected fd ∧ packets (f m).2 = []

theorem MavStep.Unsteered.andThen {f g : MavStep} (hf : f.Unsteered fd) (hg : g.Unsteered fd) :
    (f.andThen g).Unsteered fd := by
  intro m h
  obtain ⟨hconnected, hout⟩ := hf m h
  obtain ⟨hconnected', hout'⟩ := hg (f m).1 hconnected
  exact ⟨hconnected', by rw [MavStep.andThen, packets_append, hout, hout', List.append_nil]⟩

theorem sendFrames_unsteered (frames : Mav → List MavlinkFrame) : (sendFrames frames).Unsteered fd := by
  intro m h
  refine ⟨h, ?_⟩
  simp [sendFrames, packets]

theorem quiet_unsteered {f : Mav → Mav} (hf : ∀ m, (f m).devs = m.devs) : MavStep.Unsteered fd fun m => (f m, []) :=
  fun m h => ⟨h.of_devs (hf m), rfl⟩

theorem changeRecordStateIf_unsteered (status : Bool) (env : GstEnv) :
    (changeRecordStateIf status env).Unsteered fd := by
  intro m h
  rw [changeRecordStateIf]
  split
  · exact ⟨(changeRecordState_connected env h).1, (changeRecordState_connected env h).2.2⟩
  · exact ⟨h, rfl⟩

theorem mavCommandLong_unsteered (env : GstEnv) (command : UInt16) (sysid compid : UInt8) :
    (mavCommandLong env command sysid compid).Unsteered fd := by
  rw [mavCommandLong]
  repeat' refine iteInduction (fun _ => ?_) fun _ => ?_
  · exact quiet_unsteered fun _ => rfl
  · exact sendFrames_unsteered _
  · exact sendFrames_unsteered _
  · exact sendFrames_unsteered _
  · exact sendFrames_unsteered _
  · exact (sendFrames_unsteered _).andThen (sendFrames_unsteered _)
  · exact MavStep.Unsteered.andThen (fun m h => ⟨(saveImage_connected h).1, (saveImage_connected h).2.2⟩)
      (sendFrames_unsteered _)
  · exact sendFrames_unsteered _
  · refine (sendFrames_unsteered _).andThen ?_
    exact (changeRecordStateIf_unsteered false env).andThen (quiet_unsteered fun _ => rfl)
  · refine (sendFrames_unsteered _).andThen ?_
    exact (changeRecordStateIf_unsteered true env).andThen (quiet_unsteered fun _ => rfl)
  · exact quiet_unsteered fun _ => rfl

/-- Only RC_CHANNELS steers the camera, with the commands of the actions it asks for. -/
theorem packets_mavStep (e : MavEvent) {m : Mav} (h : m.Connected fd) :
    packets (mavStep e m).2 =
      match rcMessage? e with
      | some rc => ((rcHandle rc m.rcChannels m.rcStatics).2.flatMap RcAction.commands).map
          fun command => (fd, command.packet)
      | none => [] := by
  cases e with
  | rcChannels env rc =>
      have hstart : (m.setRcStatics (rcHandle rc m.rcChannels m.rcStatics).1).Connected fd := h.of_devs rfl
      rw [mavStep, mavFcuRcChannels_performs env rc m, packets_performAll env _ hstart]
      rfl
  | commandLong env command sysid compid => exact (mavCommandLong_unsteered env command sysid compid m h).2
  | autopilotVersion sysid => rfl
  | newSample sample timeinfo => exact (recorderCallback_connected _ h).2.2
  | cameraReady => exact (recorderCallback_connected _ h).2.2
  | eos => exact (recorderCallback_connected _ h).2.2

/-! ### One event -/

/-- The handlers are in step with the law. -/
structure InStep (fd : Int) (table : RcTable) (m : Mav) (c : CameraLaw) : Prop where
  connected : m.Connected fd
  table : m.rcChannels = table
  zoom : c.zoom.Tracks m.rcStatics
  ratio : ReachableRatio c.zoom.ratio
  gimbal : c.gimbal.Tracks m.rcStatics

/-- The handler's output for an event. -/
def Mav.answer (m : Mav) (e : MavEvent) : Mav × List MavOutput := mavStep e m

/-- The packets of an output as the camera behind a socket reads them. A packet to another socket, or one that cannot
be read, is nothing. -/
def readPackets (fd : Int) (out : List MavOutput) : List (Option CameraOrder) :=
  (packets out).map fun packet => if packet.1 = fd then readOrder packet.2 else none

theorem orders_of_commands (actions : List RcAction) :
    (actions.flatMap RcAction.commands).map (fun command => readOrder command.packet) =
      (actions.flatMap RcAction.commands).map SiyiCommand.order? := by
  apply List.map_congr_left
  intro command hmem
  obtain ⟨action, -, hmem⟩ := List.mem_flatMap.mp hmem
  apply readOrder_packet
  cases action with
  | recentre => cases hmem
  | saveImage => cases hmem
  | zoom => exact List.mem_singleton.mp hmem ▸ trivial
  | changeRecordState => cases hmem
  | rotate => exact List.mem_singleton.mp hmem ▸ trivial

/-- The commands of a message: those of the zoom, and then where to look. -/
theorem commands_rcHandle (rc : RcChannels) (table : RcTable) (s : RcStatics) :
    (rcHandle rc table s).2.flatMap RcAction.commands =
      (cameraZooms (rcHandle rc table s).2).map (fun zoom => .manualZoom zoom.1 zoom.2) ++
        [.gimbalRotate (toInt16 ((s.angles rc table).1 * 10)) (toInt16 ((s.angles rc table).2 * 10))] := by
  have hzoom : (RcPart.zoom rc table s).2.flatMap RcAction.commands =
      (cameraZooms (RcPart.zoom rc table s).2).map fun zoom => .manualZoom zoom.1 zoom.2 := by
    rw [RcPart.zoom]
    split_ifs <;> rfl
  rw [cameraZooms_rcHandle, rcHandle_eq]
  simp only [List.flatMap_append, hzoom]
  cases rcChanged s.buttonALast rc.chan5Raw <;> cases rcChanged s.buttonSnapshotLast rc.chan13Raw <;>
    cases rcChanged s.recordLast rc.chan14Raw <;> simp [RcAction.commands]

theorem order_zoomParts {ratio : Int} (h : ReachableRatio ratio) :
    SiyiCommand.order? (.manualZoom (zoomParts ratio).1 (zoomParts ratio).2) = some (.zoom ratio) := by
  rw [SiyiCommand.order?, (decodes_zoomParts h).value]

theorem zoomStep_ratio {config : ConfigRc} {z : ZoomLaw} {rc : RcChannels} {ratio : Int}
    (h : (zoomStep config z rc).2 = some ratio) : (zoomStep config z rc).1.ratio = ratio := by
  unfold zoomStep at h ⊢
  split at h
  · exact Option.some.inj h
  · exact Option.some.inj h
  · cases h

theorem InStep.orders {table : RcTable} {m : Mav} {c : CameraLaw} (h : InStep fd table m c)
    (hfits : GimbalFits table) (rc : RcChannels) :
    ((rcHandle rc m.rcChannels m.rcStatics).2.flatMap RcAction.commands).map SiyiCommand.order? =
      ((zoomStep (zoomConfig table) c.zoom rc).2.toList.map CameraOrder.zoom ++
        [CameraOrder.look (gimbalStep ConfigRc.span table c.gimbal rc).2.1
          (gimbalStep ConfigRc.span table c.gimbal rc).2.2]).map some := by
  have hzooms := (h.zoom.step rc table).2
  have hangles := angles_eq hfits.toGimbalRanged h.gimbal rc
  rw [gimbalStep_of_fits hfits] at hangles
  have hreach := reachableRatio_zoomStep (zoomConfig table) rc h.ratio
  obtain ⟨hyaw, hpitch⟩ := gimbalStep_mem ConfigRc.span table c.gimbal rc
  rw [h.table, commands_rcHandle, hzooms, hangles, List.map_append, List.map_append]
  congr 1
  · cases hstep : (zoomStep (zoomConfig table) c.zoom rc).2 with
    | none => rfl
    | some ratio =>
        rw [zoomStep_ratio hstep] at hreach
        exact congrArg (fun order => [order]) (order_zoomParts hreach)
  · rw [List.map_singleton, List.map_singleton, SiyiCommand.order?]
    dsimp only
    rw [toInt16_tenths (by omega) (by omega), toInt16_tenths (by omega) (by omega)]

theorem InStep.next {table : RcTable} {m : Mav} {c : CameraLaw} (h : InStep fd table m c) (hfits : GimbalFits table)
    (e : MavEvent) :
    InStep fd table (m.answer e).1 (cameraNext table c e).1 ∧
      readPackets fd (m.answer e).2 = (cameraNext table c e).2.map some ∧ crashes (m.answer e).2 = false := by
  obtain ⟨hconnected, hsafe⟩ := mavStep_sound e m h.connected
  obtain ⟨htable, hstatics⟩ := m.rcStatics_next e
  have hpackets := packets_mavStep e h.connected
  refine ⟨?_, ?_, hsafe⟩
  · cases hmessage : rcMessage? e with
    | none =>
        rw [hmessage] at hstatics
        simp only [cameraNext, hmessage]
        exact ⟨hconnected, htable.trans h.table, hstatics ▸ h.zoom, h.ratio, hstatics ▸ h.gimbal⟩
    | some rc =>
        simp only [hmessage, h.table] at hstatics
        simp only [cameraNext, hmessage]
        have hsteered := (h.gimbal.step hfits.toGimbalRanged rc).1
        rw [gimbalStep_of_fits hfits] at hsteered
        exact ⟨hconnected, htable.trans h.table, hstatics ▸ (h.zoom.step rc table).1,
          reachableRatio_zoomStep _ rc h.ratio, hstatics ▸ hsteered⟩
  · rw [readPackets, Mav.answer, hpackets]
    cases hmessage : rcMessage? e with
    | none => simp only [cameraNext, hmessage, List.map_nil]
    | some rc =>
        simp only [cameraNext, hmessage, List.map_map, Function.comp_def, if_true]
        rw [orders_of_commands, h.orders hfits rc]

theorem cameraNext_inLimits (table : RcTable) (c : CameraLaw) (hratio : ReachableRatio c.zoom.ratio) (e : MavEvent) :
    ∀ order ∈ (cameraNext table c e).2, order.InLimits := by
  intro order hmem
  cases hmessage : rcMessage? e with
  | none =>
      simp only [cameraNext, hmessage] at hmem
      cases hmem
  | some rc =>
      simp only [cameraNext, hmessage, List.mem_append, List.mem_map, List.mem_singleton] at hmem
      obtain ⟨ratio, hzoom, rfl⟩ | rfl := hmem
      · have hreach := reachableRatio_zoomStep (zoomConfig table) rc hratio
        rw [zoomStep_ratio (Option.mem_toList.mp hzoom)] at hreach
        exact ⟨hreach.low, hreach.high⟩
      · exact gimbalStep_mem ConfigRc.span table c.gimbal rc

/-! ### Whole runs -/

/-- A camera stands where the law says: its ratio always, and its angles once it has been told where to look. -/
structure CameraView.At (view : CameraView) (c : CameraLaw) (told : Prop) : Prop where
  ratio : view.ratio = c.zoom.ratio
  angles : told → view.yaw = c.gimbal.yaw ∧ view.pitch = c.gimbal.pitch

theorem CameraView.At.next {view : CameraView} {c : CameraLaw} {told : Prop} (h : view.At c told) (table : RcTable)
    (e : MavEvent) :
    ((cameraNext table c e).2.foldl CameraView.obey view).At (cameraNext table c e).1
      (told ∨ (rcMessage? e).isSome) := by
  cases hmessage : rcMessage? e with
  | none =>
      simp only [cameraNext, hmessage]
      refine ⟨h.ratio, fun htold => h.angles ?_⟩
      simpa using htold
  | some rc =>
      have hangles := gimbalStep_eq ConfigRc.span table c.gimbal rc
      simp only [cameraNext, hmessage, List.foldl_append, List.foldl_cons, List.foldl_nil]
      refine ⟨?_, fun _ => ?_⟩
      · cases hstep : (zoomStep (zoomConfig table) c.zoom rc).2 with
        | none =>
            have hsame : (zoomStep (zoomConfig table) c.zoom rc).1.ratio = c.zoom.ratio := by
              unfold zoomStep at hstep ⊢
              split at hstep
              · cases hstep
              · cases hstep
              · rfl
            exact h.ratio.trans hsame.symm
        | some ratio => exact (zoomStep_ratio hstep).symm
      · rw [hangles]
        exact ⟨rfl, rfl⟩

theorem InStep.run {table : RcTable} {m : Mav} {c : CameraLaw} (h : InStep fd table m c) (hfits : GimbalFits table)
    (events : List MavEvent) :
    (Transducer.outputs Mav.answer m events).map (readPackets fd) =
        (Transducer.outputs (cameraNext table) c events).map (·.map some) ∧
      (∀ out ∈ Transducer.outputs Mav.answer m events, crashes out = false) ∧
      ∀ order ∈ (Transducer.outputs (cameraNext table) c events).flatten, order.InLimits := by
  induction events generalizing m c with
  | nil => exact ⟨rfl, nofun, nofun⟩
  | cons e events ih =>
      obtain ⟨hnext, hread, hsafe⟩ := h.next hfits e
      obtain ⟨hreads, hsafes, hlimits⟩ := ih hnext
      simp only [Transducer.outputs_cons, List.map_cons, List.flatten_cons, List.forall_mem_cons,
        List.forall_mem_append]
      refine ⟨?_, ⟨hsafe, hsafes⟩, cameraNext_inLimits table c h.ratio e, hlimits⟩
      rw [hread, hreads]

/-- An obedient camera is where the law is, and the law is where the statics are. -/
theorem InStep.view {table : RcTable} {m : Mav} {c : CameraLaw} (h : InStep fd table m c) (hfits : GimbalFits table)
    {view : CameraView} {told : Prop} (hview : view.At c told) (events : List MavEvent) :
    ∃ c', InStep fd table (Machine.run Mav.next m events) c' ∧
      ((Transducer.outputs (cameraNext table) c events).flatten.foldl CameraView.obey view).At c'
        (told ∨ rcMessages events ≠ []) := by
  induction events generalizing m c view told with
  | nil => exact ⟨c, h, hview.ratio, fun htold => hview.angles (htold.resolve_right (not_not.mpr rfl))⟩
  | cons e events ih =>
      obtain ⟨c', hrun, hat⟩ := ih (h.next hfits e).1 (hview.next table e)
      refine ⟨c', hrun, ?_⟩
      rw [Transducer.outputs_cons, List.flatten_cons, List.foldl_append]
      refine ⟨hat.ratio, fun htold => hat.angles ?_⟩
      cases hmessage : rcMessage? e with
      | some rc => exact .inl (.inr rfl)
      | none =>
          rw [rcMessages, List.filterMap_cons_none hmessage] at htold
          exact htold.imp .inl id

/-- Over any run the camera reads, event by event, the orders of the two laws and nothing else: every packet can be
read, and every order is within the limits. No handler follows a bad pointer. A camera that starts at the ratio it
was opened with and obeys has the ratio and the angles of the statics. -/
theorem camera_follows_laws (fd : Int) (devs : CameraDevs) (rcChannels : RcTable)
    (hconnected : Mav.Connected fd { devs, rcChannels }) (hfits : GimbalFits rcChannels) (events : List MavEvent) :
    let m : Mav := { devs, rcChannels }
    let m' := Machine.run Mav.next m events
    let answers := Transducer.outputs Mav.answer m events
    let orders := Transducer.outputs (cameraNext rcChannels) {} events
    answers.map (readPackets fd) = orders.map (·.map some) ∧
      (∀ order ∈ orders.flatten, order.InLimits) ∧
      (∀ out ∈ answers, crashes out = false) ∧
      ∀ view : CameraView, view.ratio = 10 →
        let view' := orders.flatten.foldl CameraView.obey view
        view'.ratio = m'.zoomRatio ∧
          (rcMessages events ≠ [] → (view'.yaw : Rat) = m'.camYaw * 10 ∧ (view'.pitch : Rat) = m'.camPitch * 10) := by
  intro m m' answers orders
  have hzoom : ({} : ZoomLaw).Tracks m.rcStatics := ⟨rfl, rfl, by simp, by simp⟩
  have hgimbal : ({} : GimbalLaw).Tracks m.rcStatics := ⟨by simp [m, Mav.rcStatics], by simp [m, Mav.rcStatics], rfl⟩
  have hstart : InStep fd rcChannels m {} := ⟨hconnected, rfl, hzoom, ⟨by decide, by decide, by decide⟩, hgimbal⟩
  obtain ⟨hreads, hsafe, hlimits⟩ := hstart.run hfits events
  refine ⟨hreads, hlimits, hsafe, fun view hratio => ?_⟩
  have hat : view.At {} False := ⟨hratio, False.elim⟩
  obtain ⟨c, hrun, hview⟩ := hstart.view hfits hat events
  refine ⟨hview.ratio.trans hrun.zoom.ratio.symm, fun hmessages => ?_⟩
  obtain ⟨hyaw, hpitch⟩ := hview.angles (.inr hmessages)
  have hcamYaw : m'.camYaw = (c.gimbal.yaw : Rat) / 10 := hrun.gimbal.yaw
  have hcamPitch : m'.camPitch = (c.gimbal.pitch : Rat) / 10 := hrun.gimbal.pitch
  rw [hyaw, hpitch, hcamYaw, hcamPitch, div_mul_cancel₀ _ (by norm_num), div_mul_cancel₀ _ (by norm_num)]
  exact ⟨rfl, rfl⟩

/-- An open camera on socket 5: the sticks right and in, then the centre, then the button. -/
theorem camera_follows_laws_sticks :
    let rcChannels : RcTable := fun _ => { min := 1000, mid := 1500, max := 2000 }
    let gst := rtspOpen 0 ⟨"", "h264", "", "", "", 1920, 1080⟩
    let devs : CameraDevs := fun _ => { cameraOps := some .siyi, cameraPriv := .live gst, gimbalPriv := .live ⟨5⟩ }
    let m : Mav := { devs, rcChannels }
    let env : GstEnv := ⟨⟨126, 0, 1, 12, 0, 0⟩, 0⟩
    let events : List MavEvent := [.rcChannels env ⟨2000, 1500, 1000, 1000, 1000, 1000⟩, .eos,
      .rcChannels env ⟨1500, 1000, 1000, 1500, 1000, 1000⟩, .rcChannels env ⟨1500, 1500, 2000, 1500, 1000, 1000⟩]
    (Transducer.outputs Mav.answer m events).map (readPackets 5) =
      [[some (.look 3 0)], [], [some (.zoom 15), some (.look 3 (-3))], [some (.look 0 0)]] := by
  intro rcChannels gst devs m env events
  have hconnected : Mav.Connected 5 m := ⟨rfl, ⟨gst, rfl⟩, rfl⟩
  have hranged : GimbalRanged rcChannels := ⟨⟨by decide, by decide, by decide⟩, ⟨by decide, by decide, by decide⟩⟩
  have hfits : GimbalFits rcChannels := { hranged with yawSpan := by decide, pitchSpan := by decide }
  exact (camera_follows_laws 5 devs rcChannels hconnected hfits events).1.trans (by decide)

end MissionServer
