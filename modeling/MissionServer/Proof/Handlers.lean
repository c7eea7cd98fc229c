import MissionServer.MavlinkReceiver

/-!
# What the handlers are made of

The handlers are put together from changes of their statics, calls on camera 0 and messages, by
composition and by branching. A property of steps that these keep holds of a whole handler; the
handlers are taken apart here and nowhere else.
-/

namespace MissionServer

/-- A property of steps that goes through composition and branching, and that the calls on camera 0
have. The arguments of a call may depend on the state. -/
structure MavStep.Rules (P : MavStep → Prop) : Prop where
  andThen {f g : MavStep} : P f → P g → P (f.andThen g)
  branch {f g : MavStep} (c : Mav → Prop) [DecidablePred c] : P f → P g → P fun m => if c m then f m else g m
  quiet {f : Mav → Mav} : (∀ m, (f m).devs = m.devs) → P fun m => (f m, [])
  saveImage : P (onDevs (cameraSaveImage 0))
  changeRecordState (env : GstEnv) : P (onDevs (cameraChangeRecordState 0 · env))
  zoom (args : Mav → UInt8 × UInt8) : P fun m => onDevs (cameraZoom 0 · (args m).1 (args m).2) m
  rotate (args : Mav → Int16 × Int16) : P fun m => onDevs (gimbalRotate 0 · (args m).1 (args m).2) m

namespace MavStep.Rules

variable {P : MavStep → Prop}

theorem skip (h : Rules P) : P fun m => (m, []) := h.quiet (f := id) fun _ => rfl

theorem after (h : Rules P) {f : Mav → Mav} {g : MavStep} (hf : ∀ m, (f m).devs = m.devs) (hg : P g) :
    P fun m => g (f m) :=
  h.andThen (h.quiet hf) hg

theorem rcButtonA (h : Rules P) (rc : RcChannels) : P (rcButtonA rc) :=
  h.branch (fun m => rc.chan5Raw ≠ m.buttonALast) (h.quiet fun _ => rfl) h.skip

theorem rcSnapshot (h : Rules P) (rc : RcChannels) : P (rcSnapshot rc) :=
  h.branch (fun m => rc.chan13Raw ≠ m.buttonSnapshotLast) (h.after (fun _ => rfl) h.saveImage) h.skip

theorem rcZoom (h : Rules P) (rc : RcChannels) : P (rcZoom rc) := by
  let ratio (m : Mav) : Int :=
    let next := m.zoomRatio + m.zoomDir * 5
    if next < 10 then 10 else if next > 40 then 40 else next
  have hturn : P fun m => onDevs (cameraZoom 0 · (UInt8.ofInt ((ratio m).tdiv 10)) (UInt8.ofInt ((ratio m).tmod 10)))
      { m with zoomStop := false, zoomRatio := ratio m } :=
    h.after (f := fun m => { m with zoomStop := false, zoomRatio := ratio m }) (fun _ => rfl)
      (h.zoom fun m => (UInt8.ofInt (m.zoomRatio.tdiv 10), UInt8.ofInt (m.zoomRatio.tmod 10)))
  exact h.branch (fun m => (rc.chan9Raw.toNat : Int) ≤ (getRcConfig m.rcChannels 9).min) (h.quiet fun _ => rfl) <|
    h.branch (fun m => (rc.chan9Raw.toNat : Int) ≥ (getRcConfig m.rcChannels 9).max) (h.quiet fun _ => rfl) <|
      h.branch (fun m => m.zoomStop) hturn h.skip

theorem rcRecord (h : Rules P) (env : GstEnv) (rc : RcChannels) : P (rcRecord env rc) := by
  have hcall : P fun m => onDevs (cameraChangeRecordState 0 · env) { m with recordLast := rc.chan14Raw } :=
    h.after (fun _ => rfl) (h.changeRecordState env)
  have hflip : P fun m => (if getVideoStatus 0 m then resetVideoStatus 0 m else setVideoStatus 0 m, []) := by
    apply h.quiet
    intro m
    split <;> rfl
  have heq : MissionServer.rcRecord env rc = fun m =>
      if rc.chan14Raw ≠ m.recordLast then
        MavStep.andThen (fun m => onDevs (cameraChangeRecordState 0 · env) { m with recordLast := rc.chan14Raw })
          (fun m => (if getVideoStatus 0 m then resetVideoStatus 0 m else setVideoStatus 0 m, [])) m
      else (m, []) := by
    funext m
    simp only [MissionServer.rcRecord, MavStep.andThen, List.append_nil]
  rw [heq]
  exact h.branch (fun m => rc.chan14Raw ≠ m.recordLast) (h.andThen hcall hflip) h.skip

theorem mavFcuRcChannels (h : Rules P) (env : GstEnv) (rc : RcChannels) : P (mavFcuRcChannels env rc) :=
  h.andThen (h.quiet fun _ => rfl) <| h.andThen (h.quiet fun _ => rfl) <| h.andThen (h.rcButtonA rc) <|
    h.andThen (h.rcSnapshot rc) <| h.andThen (h.rcZoom rc) <| h.andThen (h.rcRecord env rc) <|
      h.rotate fun m => (toInt16 (m.camYaw * 10), toInt16 (m.camPitch * 10))

theorem changeRecordStateIf (h : Rules P) (status : Bool) (env : GstEnv) : P (changeRecordStateIf status env) :=
  h.branch (fun m => getVideoStatus 0 m = status) (h.changeRecordState env) h.skip

/-- The commands also send messages. -/
theorem mavCommandLong (h : Rules P) (hsend : ∀ frames, P (sendFrames frames)) (env : GstEnv) (command : UInt16)
    (sysid compid : UInt8) : P (mavCommandLong env command sysid compid) := by
  have hvideo (cmd : UInt16) (status : Bool) {f : Mav → Mav} (hf : ∀ m, (f m).devs = m.devs) :
      P ((sendAccepted cmd sysid compid).andThen <|
        (MissionServer.changeRecordStateIf status env).andThen fun m => (f m, [])) :=
    h.andThen (hsend _) (h.andThen (h.changeRecordStateIf status env) (h.quiet hf))
  rw [MissionServer.mavCommandLong]
  repeat' refine iteInduction (fun _ => ?_) fun _ => ?_
  · exact h.skip
  · exact hsend _
  · exact hsend _
  · exact hsend _
  · exact hsend _
  · exact h.andThen (hsend _) (hsend _)
  · exact h.andThen h.saveImage (hsend _)
  · exact hsend _
  · exact hvideo mavCmdVideoStartCapture false fun _ => rfl
  · exact hvideo mavCmdVideoStopCapture true fun _ => rfl
  · exact h.skip

end MavStep.Rules

end MissionServer
