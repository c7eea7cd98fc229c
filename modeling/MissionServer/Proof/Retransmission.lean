import MissionServer.Proof.Ack
import MissionServer.Proof.CameraWire

/-!
# Retransmitted commands

A sender that has missed an acknowledgement sends its COMMAND_LONG again. The handler does not look at the
confirmation count, but a command that comes again finds nothing left to do: it is acknowledged, and that is all.
-/

namespace MissionServer

/-! ### Settled commands -/

/-- A camera that takes requests has one pending. -/
def GstData.Requested (gst : GstData) : Prop := gst.cameraReady = true → gst.snapshotRequest = true

/-- A command has nothing left to do: the status is what it asks for, or its snapshot is pending. -/
structure Mav.Settled (m : Mav) (command : UInt16) : Prop where
  start : command = mavCmdVideoStartCapture → m.videoStatus = true
  stop : command = mavCmdVideoStopCapture → m.videoStatus = false
  snapshot : command = mavCmdImageStartCapture → ∀ gst, m.recorder = some gst → gst.Requested

/-- An event that does not undo a command: the status is not flipped, and the pending snapshot not taken. A camera
that becomes ready has ignored the requests before. -/
def Leaves (command : UInt16) (m : Mav) (e : MavEvent) : Prop :=
  (command = mavCmdVideoStartCapture ∨ command = mavCmdVideoStopCapture → m.toggles e = false) ∧
    (command = mavCmdImageStartCapture → e ≠ .cameraReady ∧ ∀ timeinfo, e ≠ .newSample true timeinfo)

theorem GstData.requested_saveImage (gst : GstData) : (rtspSaveImage gst).Requested := by
  rw [GstData.Requested, rtspSaveImage]
  split
  · intro hready
    exact absurd hready ‹_›
  · exact fun _ => rfl

theorem GstData.Requested.saveImage {gst : GstData} (h : gst.Requested) : rtspSaveImage gst = gst := by
  rw [rtspSaveImage]
  split
  · rfl
  · have hpending : gst.snapshotRequest = true := h (not_not.mp ‹_›)
    rw [← hpending]

/-- What a toggle request does to the recorder concerns no snapshot. -/
theorem GstData.Requested.change {gst : GstData} (h : gst.Requested) (camId : Int) (env : GstEnv) :
    (rtspChangeRecordState camId env gst).1.Requested := by
  rw [GstData.Requested] at h ⊢
  rcases rtspChangeRecordState_cases camId env gst with
    ⟨-, heq⟩ | ⟨-, -, heq⟩ | ⟨-, -, -, -, heq⟩ | ⟨-, -, -, -, heq⟩ | ⟨-, -, -, heq⟩
  all_goals simpa [heq] using h

/-- On an opened camera a step keeps it open and a snapshot requested. -/
def MavStep.KeepsRequest (f : MavStep) : Prop :=
  ∀ m : Mav, m.Opened → (∀ gst, m.recorder = some gst → gst.Requested) →
    (f m).1.Opened ∧ ∀ gst, (f m).1.recorder = some gst → gst.Requested

theorem onGstData_keepsRequest {call : CameraDevs → CameraDevs × List DeviceOutput} {m : Mav} (hopened : m.Opened)
    {f : GstData → GstData × List Report}
    (hcall : (call m.devs).1 = Function.update m.devs 0 (onGstData f (m.devs 0)).1)
    (hf : ∀ gst, m.recorder = some gst → (f gst).1.Requested) :
    (onDevs call m).1.Opened ∧ ∀ gst, (onDevs call m).1.recorder = some gst → gst.Requested := by
  obtain ⟨gst, hlive⟩ := hopened.exists_live
  obtain ⟨hrec, hops⟩ := recorder_onGstData hlive hcall
  refine ⟨⟨hops.trans hopened.ops, by rw [hrec]; rfl⟩, fun gst' hgst' => ?_⟩
  rw [hrec] at hgst'
  exact Option.some.inj hgst' ▸ hf gst (Mav.recorder_of_live hlive)

theorem keepsRequest_of_devs {m m' : Mav} (hdevs : m'.devs = m.devs) (hopened : m.Opened)
    (h : ∀ gst, m.recorder = some gst → gst.Requested) :
    m'.Opened ∧ ∀ gst, m'.recorder = some gst → gst.Requested := by
  have hrec : m'.recorder = m.recorder := by
    simp only [Mav.recorder, hdevs]
  refine ⟨⟨hdevs ▸ hopened.ops, hrec ▸ hopened.recorder⟩, ?_⟩
  rw [hrec]
  exact h

theorem keepsRequest_rules : MavStep.Rules MavStep.KeepsRequest where
  andThen := by
    intro f g hf hg m hopened h
    obtain ⟨hopened', h'⟩ := hf m hopened h
    exact hg _ hopened' h'
  branch c _ hf hg := by
    intro m hopened h
    dsimp only
    split
    · exact hf m hopened h
    · exact hg m hopened h
  quiet hf m hopened h := keepsRequest_of_devs (hf m) hopened h
  saveImage m hopened h :=
    onGstData_keepsRequest hopened (f := fun gst => (rtspSaveImage gst, []))
      (congrArg Prod.fst (dispatch_opened hopened (·.cameraSaveImage) rfl)) fun gst _ => gst.requested_saveImage
  changeRecordState env m hopened h := by
    have hcall := dispatch_opened hopened (fun ops => ops.cameraChangeRecordState.map fun call => call env) rfl
    exact onGstData_keepsRequest hopened (f := rtspChangeRecordState (m.devs 0).id env) (congrArg Prod.fst hcall)
      fun gst hgst => (h gst hgst).change _ env
  zoom args m hopened h := keepsRequest_of_devs (cameraZoom_fst _ _ _ _) hopened h
  rotate args m hopened h := keepsRequest_of_devs (gimbalRotate_fst _ _ _ _) hopened h

theorem recorderCallback_keepsRequest {f : GstData → GstData × List Report}
    (hf : ∀ gst, gst.Requested → (f gst).1.Requested) : (recorderCallback f).KeepsRequest := by
  intro m hopened h
  obtain ⟨gst, hlive⟩ := hopened.exists_live
  have heq : recorderCallback f m =
      onDevs (fun devs => (Function.update devs 0 (onGstData f (devs 0)).1, (onGstData f (devs 0)).2)) m := by
    simp only [recorderCallback, hlive]
  rw [heq]
  exact onGstData_keepsRequest hopened rfl fun gst' hgst' => hf gst' (h gst' hgst')

theorem mavStep_keepsRequest {e : MavEvent} (hready : e ≠ .cameraReady)
    (hsample : ∀ timeinfo, e ≠ .newSample true timeinfo) : (mavStep e).KeepsRequest := by
  cases e with
  | rcChannels env rc => exact keepsRequest_rules.mavFcuRcChannels env rc
  | commandLong env command sysid compid =>
      exact keepsRequest_rules.mavCommandLong (fun _ _ hopened h => ⟨hopened, h⟩) env command sysid compid
  | autopilotVersion sysid => exact fun m hopened h => ⟨⟨hopened.ops, hopened.recorder⟩, h⟩
  | cameraReady => exact absurd rfl hready
  | newSample sample timeinfo =>
      cases sample with
      | true => exact absurd rfl (hsample timeinfo)
      | false => exact recorderCallback_keepsRequest fun gst h => h
  | eos =>
      apply recorderCallback_keepsRequest
      intro gst h
      rw [eosHandler]
      split_ifs <;> exact h

/-! ### The command, what comes between, and the command again -/

theorem settled_next {m : Mav} (hopened : m.Opened) (env : GstEnv) (command : UInt16) (sysid compid : UInt8) :
    (m.next (.commandLong env command sysid compid)).Settled command := by
  obtain ⟨-, hstatus, -⟩ := Mav.toggled_next hopened (.commandLong env command sysid compid)
  refine ⟨?_, ?_, ?_⟩
  · rintro rfl
    rw [hstatus, Mav.toggles_videoStart]
    cases m.videoStatus <;> rfl
  · rintro rfl
    rw [hstatus, Mav.toggles_videoStop]
    cases m.videoStatus <;> rfl
  · rintro rfl gst hgst
    obtain ⟨gst', hlive⟩ := hopened.exists_live
    obtain ⟨hrec, -⟩ := recorder_onGstData hlive (f := fun gst => (rtspSaveImage gst, []))
      (congrArg Prod.fst (dispatch_opened hopened (·.cameraSaveImage) rfl))
    change (m.next (.commandLong env mavCmdImageStartCapture sysid compid)).recorder = _ at hrec
    rw [hrec] at hgst
    exact Option.some.inj hgst ▸ gst'.requested_saveImage

theorem Mav.Settled.next {m : Mav} {command : UInt16} (h : m.Settled command) (hopened : m.Opened) {e : MavEvent}
    (he : Leaves command m e) : (m.next e).Settled command := by
  obtain ⟨-, hstatus, -⟩ := Mav.toggled_next hopened e
  refine ⟨fun hcommand => ?_, fun hcommand => ?_, fun hcommand => ?_⟩
  · rw [hstatus, he.1 (.inl hcommand), h.start hcommand]
    rfl
  · rw [hstatus, he.1 (.inr hcommand), h.stop hcommand]
    rfl
  · obtain ⟨hready, hsample⟩ := he.2 hcommand
    exact (mavStep_keepsRequest hready hsample m hopened (h.snapshot hcommand)).2

/-- A step that changes nothing, and sends messages only. -/
def MavStep.OnlySends (f : MavStep) (m : Mav) : Prop :=
  (f m).1 = m ∧ ∃ frames : List MavlinkFrame, (f m).2 = frames.map .frame

theorem sendFrames_onlySends (frames : Mav → List MavlinkFrame) (m : Mav) : (sendFrames frames).OnlySends m :=
  ⟨rfl, frames m, rfl⟩

theorem MavStep.OnlySends.andThen {f g : MavStep} {m : Mav} (hf : f.OnlySends m) (hg : g.OnlySends m) :
    (f.andThen g).OnlySends m := by
  obtain ⟨hsame, frames, hframes⟩ := hf
  obtain ⟨hsame', frames', hframes'⟩ := hg
  rw [MavStep.OnlySends, MavStep.andThen, hsame, hsame', hframes, hframes']
  exact ⟨rfl, frames ++ frames', List.map_append.symm⟩

theorem skip_onlySends (m : Mav) : MavStep.OnlySends (fun m => (m, [])) m := ⟨rfl, [], rfl⟩

/-- A start where the status is set, or a stop where it is not, does not reach the recorder. -/
theorem video_onlySends (cmd : UInt16) (sysid compid : UInt8) (env : GstEnv) {status : Bool} {f : Mav → Mav} {m : Mav}
    (hstatus : m.videoStatus ≠ status) (hf : f m = m) :
    MavStep.OnlySends ((sendAccepted cmd sysid compid).andThen <|
      (changeRecordStateIf status env).andThen fun m => (f m, [])) m := by
  have hnone : changeRecordStateIf status env m = (m, []) := if_neg hstatus
  refine (sendFrames_onlySends _ m).andThen ?_
  rw [MavStep.OnlySends, MavStep.andThen, hnone, hf]
  exact ⟨rfl, [], rfl⟩

theorem Mav.Settled.again {m : Mav} {command : UInt16} (h : m.Settled command) (hopened : m.Opened) (env : GstEnv)
    (sysid compid : UInt8) : (mavCommandLong env command sysid compid).OnlySends m := by
  obtain ⟨gst, hlive⟩ := hopened.exists_live
  have hrec := Mav.recorder_of_live hlive
  rw [mavCommandLong]
  repeat' refine iteInduction (motive := fun f : MavStep => f.OnlySends m) (fun _ => ?_) fun _ => ?_
  · exact skip_onlySends m
  · exact sendFrames_onlySends _ m
  · exact sendFrames_onlySends _ m
  · exact sendFrames_onlySends _ m
  · exact sendFrames_onlySends _ m
  · exact (sendFrames_onlySends _ m).andThen (sendFrames_onlySends _ m)
  · have hcall := dispatch_opened hopened (·.cameraSaveImage) rfl
    have hsame : onGstData (fun gst => (rtspSaveImage gst, [])) (m.devs 0) = (m.devs 0, []) := by
      rw [onGstData, hlive]
      dsimp only
      rw [(h.snapshot ‹_› gst hrec).saveImage, ← hlive]
      rfl
    have hquiet : onDevs (cameraSaveImage 0) m = (m, []) := by
      rw [onDevs, cameraSaveImage, hcall, hsame, Function.update_eq_self]
      rfl
    exact MavStep.OnlySends.andThen ⟨congrArg Prod.fst hquiet, [], congrArg Prod.snd hquiet⟩ (sendFrames_onlySends _ m)
  · exact sendFrames_onlySends _ m
  · have hstatus := h.start ‹_›
    exact video_onlySends _ sysid compid env (by rw [hstatus]; decide) (by rw [setVideoStatus, ← hstatus])
  · have hstatus := h.stop ‹_›
    exact video_onlySends _ sysid compid env (by rw [hstatus]; decide) (by rw [resetVideoStatus, ← hstatus])
  · exact skip_onlySends m

/-! ### Whole runs -/

theorem Mav.Opened.run {m : Mav} (h : m.Opened) (events : List MavEvent) : (Machine.run Mav.next m events).Opened := by
  have hstep : ∀ (m : Mav) (e : MavEvent), m.Opened → (m.next e).Opened := fun _ e => Mav.opened_next e
  exact Machine.run_invariant hstep h events

theorem Mav.Settled.run {m : Mav} {command : UInt16} (h : m.Settled command) (hopened : m.Opened)
    {events : List MavEvent} (hevents : Machine.EachStep Mav.next (Leaves command) m events) :
    (Machine.run Mav.next m events).Settled command := by
  induction events generalizing m with
  | nil => exact h
  | cons e events ih =>
      obtain ⟨he, hrest⟩ := Machine.eachStep_cons.mp hevents
      exact ih (h.next hopened he) (Mav.opened_next e hopened) hrest

/-- A command that comes again, from whomever and at whatever time, while nothing has undone it, leaves the rest of the
run as it is. All that it adds to the run is its own messages, the acknowledgement first. -/
theorem retransmission_only_acknowledged {m : Mav} (hopened : m.Opened) (command : UInt16) (env env' : GstEnv)
    (sysid compid sysid' compid' : UInt8) (before between after : List MavEvent)
    (hbetween : Machine.EachStep Mav.next (Leaves command)
      (Machine.run Mav.next m (before ++ [.commandLong env command sysid compid])) between) :
    let done := before ++ [.commandLong env command sysid compid] ++ between
    let again := MavEvent.commandLong env' command sysid' compid'
    Machine.run Mav.next m (done ++ again :: after) = Machine.run Mav.next m (done ++ after) ∧
      ∃ frames : List MavlinkFrame,
        Transducer.outputs Mav.answer m (done ++ after) =
          Transducer.outputs Mav.answer m done ++ Transducer.outputs Mav.answer (Machine.run Mav.next m done) after ∧
        Transducer.outputs Mav.answer m (done ++ again :: after) =
          Transducer.outputs Mav.answer m done ++
            frames.map .frame :: Transducer.outputs Mav.answer (Machine.run Mav.next m done) after ∧
        (command ∈ acknowledgedCommands →
          (frames.map (·.body)).head? = some (acceptedAck command sysid' compid')) := by
  intro done again
  have hrun (events : List MavEvent) : Machine.run (fun m e => (Mav.answer m e).1) m events =
      Machine.run Mav.next m events := rfl
  have hsettled : (Machine.run Mav.next m done).Settled command := by
    rw [Machine.run_append]
    refine Mav.Settled.run ?_ (hopened.run _) hbetween
    rw [Machine.run_concat]
    exact settled_next (hopened.run before) env command sysid compid
  obtain ⟨hsame, frames, hframes⟩ := hsettled.again (hopened.run done) env' sysid' compid'
  have hnext : (Machine.run Mav.next m done).next again = Machine.run Mav.next m done := hsame
  refine ⟨?_, frames, ?_, ?_, fun hack => ?_⟩
  · rw [Machine.run_append Mav.next m done (again :: after), Machine.run_append Mav.next m done after,
      Machine.run_cons, hnext]
  · rw [Transducer.outputs_append, hrun]
  · have hanswer : (Machine.run Mav.next m done).answer again = (Machine.run Mav.next m done, frames.map .frame) :=
      Prod.ext hsame hframes
    rw [Transducer.outputs_append, hrun, Transducer.outputs_cons, hanswer]
  · have hmessages := mavCommandLong_messages env' command sysid' compid' (Machine.run Mav.next m done)
    rw [if_pos hack, hframes] at hmessages
    obtain ⟨replies, hbodies, -⟩ := hmessages
    have hsent : sentFrames (frames.map .frame) = frames := by simp [sentFrames, List.filterMap_map]
    rw [hsent] at hbodies
    rw [hbodies, List.head?_cons]

/-- The start of a recording comes again from another component, after the sticks have moved. -/
theorem retransmission_only_acknowledged_video :
    let rcChannels : RcTable := fun _ => { min := 1000, mid := 1500, max := 2000 }
    let devs : CameraDevs := fun _ =>
      { cameraOps := some .siyi, cameraPriv := .live (rtspOpen 0 ⟨"", "h264", "", "", "", 1920, 1080⟩),
        gimbalPriv := .live ⟨5⟩ }
    let m : Mav := { devs, rcChannels }
    let env : GstEnv := ⟨⟨126, 0, 1, 12, 0, 0⟩, 0⟩
    let start (compid : UInt8) := MavEvent.commandLong env mavCmdVideoStartCapture 255 compid
    let sticks := MavEvent.rcChannels env ⟨2000, 1500, 1000, 1000, 1000, 1000⟩
    Machine.run Mav.next m [start 190, sticks, start 191, .eos] = Machine.run Mav.next m [start 190, sticks, .eos] := by
  intro rcChannels devs m env start sticks
  have hbetween : Machine.EachStep Mav.next (Leaves mavCmdVideoStartCapture) (Machine.run Mav.next m [start 190])
      [sticks] := by
    refine Machine.eachStep_cons.mpr ⟨⟨fun _ => by decide, fun h => absurd h (by decide)⟩, ?_⟩
    exact Machine.eachStep_nil
  exact (retransmission_only_acknowledged ⟨rfl, rfl⟩ mavCmdVideoStartCapture env env 255 190 255 191 [] [sticks] [.eos]
    hbetween).1

end MissionServer
