import MissionServer.Lib.Transducer
import MissionServer.Proof.VideoStatus

/-!
# What RC_CHANNELS asks for

`mav_fcu_rc_channels` decides from its statics and the channel table alone, and all it does besides
changing the statics is a list of actions. `rcHandle` computes both. The handler is `rcHandle` with the
actions performed, so what a sequence of messages asks for can be read off the statics.
-/

namespace MissionServer

/-- The statics of `mav_fcu_rc_channels`. -/
structure RcStatics where
  camYaw : Rat := 0
  camPitch : Rat := 0
  buttonALast : UInt16 := 0
  buttonSnapshotLast : UInt16 := 0
  recordLast : UInt16 := 0
  zoomRatio : Int := 10
  zoomDir : Int := 0
  zoomStop : Bool := false
  deriving DecidableEq, Repr

/-- What the handler can do to camera 0. `recentre` stands for the branch that zeroes both angles. -/
inductive RcAction
  | recentre
  | saveImage
  | zoom (zoomInteger zoomDecimal : UInt8)
  | changeRecordState
  | rotate (yaw pitch : Int16)
  deriving DecidableEq, Repr

abbrev RcTable := Fin 18 → ConfigRc

theorem channel1_mem : (1 : Int) ≤ 1 ∧ (1 : Int) ≤ 18 := by decide
theorem channel2_mem : (1 : Int) ≤ 2 ∧ (2 : Int) ≤ 18 := by decide
theorem channel9_mem : (1 : Int) ≤ 9 ∧ (9 : Int) ≤ 18 := by decide

/-! The channels that the handler looks up. -/

def yawConfig (table : RcTable) : ConfigRc := getRcConfig table 1 channel1_mem
def pitchConfig (table : RcTable) : ConfigRc := getRcConfig table 2 channel2_mem
def zoomConfig (table : RcTable) : ConfigRc := getRcConfig table 9 channel9_mem

/-- A part of the handler: the next statics, and the actions. -/
abbrev RcPart := RcTable → RcStatics → RcStatics × List RcAction

def RcPart.andThen (f g : RcPart) : RcPart := fun table s =>
  ((g table (f table s).1).1, (f table s).2 ++ (g table (f table s).1).2)

namespace RcPart

variable (rc : RcChannels)

def initialization : RcPart := fun _ s =>
  ({ s with
      buttonALast := if s.buttonALast = 0 then rc.chan5Raw else s.buttonALast
      recordLast := if s.recordLast = 0 then rc.chan14Raw else s.recordLast
      buttonSnapshotLast := if s.buttonSnapshotLast = 0 then rc.chan13Raw else s.buttonSnapshotLast }, [])

def control : RcPart := fun table s =>
  ({ s with
      camYaw := boundFloat (rcIncrease s.camYaw (rcSignal rc.chan1Raw (yawConfig table))) 135 (-135)
      camPitch := boundFloat (rcIncrease s.camPitch (rcSignal rc.chan2Raw (pitchConfig table))) 25 (-90) }, [])

def buttonA : RcPart := fun _ s =>
  if rc.chan5Raw ≠ s.buttonALast then
    ({ s with buttonALast := rc.chan5Raw, camYaw := 0, camPitch := 0 }, [.recentre])
  else (s, [])

def snapshot : RcPart := fun _ s =>
  if rc.chan13Raw ≠ s.buttonSnapshotLast then ({ s with buttonSnapshotLast := rc.chan13Raw }, [.saveImage])
  else (s, [])

/-- The ratio after one more turn of the zoom, within its bounds. -/
def nextRatio (s : RcStatics) : Int :=
  let ratio := s.zoomRatio + s.zoomDir * 5
  if ratio < 10 then 10 else if ratio > 40 then 40 else ratio

def zoom : RcPart := fun table s =>
  if (rc.chan9Raw.toNat : Int) ≤ (zoomConfig table).min then ({ s with zoomStop := true, zoomDir := 1 }, [])
  else if (rc.chan9Raw.toNat : Int) ≥ (zoomConfig table).max then ({ s with zoomStop := true, zoomDir := -1 }, [])
  else if s.zoomStop then
    ({ s with zoomStop := false, zoomRatio := nextRatio s },
      [.zoom (UInt8.ofInt ((nextRatio s).tdiv 10)) (UInt8.ofInt ((nextRatio s).tmod 10))])
  else (s, [])

def record : RcPart := fun _ s =>
  if rc.chan14Raw ≠ s.recordLast then ({ s with recordLast := rc.chan14Raw }, [.changeRecordState]) else (s, [])

def rotate : RcPart := fun _ s => (s, [.rotate (toInt16 (s.camYaw * 10)) (toInt16 (s.camPitch * 10))])

end RcPart

def rcHandle (rc : RcChannels) : RcPart :=
  (RcPart.initialization rc).andThen <| (RcPart.control rc).andThen <| (RcPart.buttonA rc).andThen <|
    (RcPart.snapshot rc).andThen <| (RcPart.zoom rc).andThen <| (RcPart.record rc).andThen RcPart.rotate

/-! ### Performing the actions -/

def RcAction.perform (env : GstEnv) : RcAction → MavStep
  | .recentre => fun m => (m, [])
  | .saveImage => onDevs (cameraSaveImage 0)
  | .zoom zoomInteger zoomDecimal => onDevs (cameraZoom 0 · zoomInteger zoomDecimal)
  | .changeRecordState =>
      (onDevs (cameraChangeRecordState 0 · env)).andThen fun m =>
        (if getVideoStatus 0 m then resetVideoStatus 0 m else setVideoStatus 0 m, [])
  | .rotate yaw pitch => onDevs (gimbalRotate 0 · yaw pitch)

def performAll (env : GstEnv) : List RcAction → MavStep
  | [] => fun m => (m, [])
  | action :: actions => (action.perform env).andThen (performAll env actions)

def Mav.rcStatics (m : Mav) : RcStatics where
  camYaw := m.camYaw
  camPitch := m.camPitch
  buttonALast := m.buttonALast
  buttonSnapshotLast := m.buttonSnapshotLast
  recordLast := m.recordLast
  zoomRatio := m.zoomRatio
  zoomDir := m.zoomDir
  zoomStop := m.zoomStop

def Mav.setRcStatics (m : Mav) (s : RcStatics) : Mav :=
  { m with
    camYaw := s.camYaw
    camPitch := s.camPitch
    buttonALast := s.buttonALast
    buttonSnapshotLast := s.buttonSnapshotLast
    recordLast := s.recordLast
    zoomRatio := s.zoomRatio
    zoomDir := s.zoomDir
    zoomStop := s.zoomStop }

@[simp] theorem rcStatics_setRcStatics (m : Mav) (s : RcStatics) : (m.setRcStatics s).rcStatics = s := rfl
@[simp] theorem rcChannels_setRcStatics (m : Mav) (s : RcStatics) : (m.setRcStatics s).rcChannels = m.rcChannels := rfl
@[simp] theorem setRcStatics_setRcStatics (m : Mav) (s t : RcStatics) :
    (m.setRcStatics s).setRcStatics t = m.setRcStatics t := rfl

/-- A step that neither reads nor writes the statics and the channel table. -/
structure MavStep.Outside (f : MavStep) : Prop where
  statics : ∀ m s, f (m.setRcStatics s) = ((f m).1.setRcStatics s, (f m).2)
  table : ∀ m, (f m).1.rcChannels = m.rcChannels

theorem MavStep.Outside.rcStatics {f : MavStep} (h : f.Outside) (m : Mav) : (f m).1.rcStatics = m.rcStatics := by
  have hself : f m = ((f m).1.setRcStatics m.rcStatics, (f m).2) := h.statics m m.rcStatics
  rw [hself, rcStatics_setRcStatics]

theorem MavStep.Outside.andThen {f g : MavStep} (hf : f.Outside) (hg : g.Outside) : (f.andThen g).Outside where
  statics m s := by simp only [MavStep.andThen, hf.statics, hg.statics]
  table m := by rw [MavStep.andThen, hg.table, hf.table]

theorem onDevs_outside (call : CameraDevs → CameraDevs × List DeviceOutput) : (onDevs call).Outside :=
  ⟨fun _ _ => rfl, fun _ => rfl⟩

theorem skip_outside : MavStep.Outside fun m => (m, []) := ⟨fun _ _ => rfl, fun _ => rfl⟩

theorem flip_outside :
    MavStep.Outside fun m => (if getVideoStatus 0 m then resetVideoStatus 0 m else setVideoStatus 0 m, []) := by
  refine ⟨fun m s => ?_, fun m => ?_⟩
  · cases hstatus : m.videoStatus
    all_goals simp [getVideoStatus, setVideoStatus, resetVideoStatus, Mav.setRcStatics, hstatus]
  · dsimp only
    split <;> rfl

theorem RcAction.perform_outside (env : GstEnv) (action : RcAction) : (action.perform env).Outside := by
  cases action with
  | recentre => exact skip_outside
  | saveImage => exact onDevs_outside _
  | zoom => exact onDevs_outside _
  | changeRecordState => exact (onDevs_outside _).andThen flip_outside
  | rotate => exact onDevs_outside _

theorem performAll_outside (env : GstEnv) (actions : List RcAction) : (performAll env actions).Outside := by
  induction actions with
  | nil => exact skip_outside
  | cons action actions ih => exact (action.perform_outside env).andThen ih

theorem performAll_append (env : GstEnv) (actions actions' : List RcAction) :
    performAll env (actions ++ actions') = (performAll env actions).andThen (performAll env actions') := by
  induction actions with
  | nil => rfl
  | cons action actions ih =>
      rw [List.cons_append, performAll, ih, performAll]
      funext m
      simp only [MavStep.andThen, List.append_assoc]

/-! ### The handler performs what `rcHandle` computes -/

/-- `f` does to the statics what `g` says and performs the actions of `g`. -/
def Performs (env : GstEnv) (f : MavStep) (g : RcPart) : Prop := ∀ m,
  f m = performAll env (g m.rcChannels m.rcStatics).2 (m.setRcStatics (g m.rcChannels m.rcStatics).1)

theorem Performs.andThen {env : GstEnv} {f f' : MavStep} {g g' : RcPart} (h : Performs env f g)
    (h' : Performs env f' g') : Performs env (f.andThen f') (g.andThen g') := by
  intro m
  have hout := performAll_outside env (g m.rcChannels m.rcStatics).2
  simp only [MavStep.andThen, RcPart.andThen, h m, performAll_append]
  rw [h' _, hout.rcStatics, hout.table, rcStatics_setRcStatics, rcChannels_setRcStatics, hout.statics m,
    setRcStatics_setRcStatics, hout.statics m]

theorem Performs.branch {env : GstEnv} {f f' : MavStep} {g g' : RcPart} (c : Mav → Prop) [DecidablePred c]
    (d : RcTable → RcStatics → Prop) [∀ table s, Decidable (d table s)] (hc : ∀ m, c m ↔ d m.rcChannels m.rcStatics)
    (h : Performs env f g) (h' : Performs env f' g') :
    Performs env (fun m => if c m then f m else f' m) (fun table s => if d table s then g table s else g' table s) := by
  intro m
  by_cases hd : d m.rcChannels m.rcStatics
  · simp only [if_pos ((hc m).mpr hd), if_pos hd]
    exact h m
  · simp only [if_neg (fun hcm => hd ((hc m).mp hcm)), if_neg hd]
    exact h' m

theorem performs_quiet (env : GstEnv) (next : RcTable → RcStatics → RcStatics) :
    Performs env (fun m => (m.setRcStatics (next m.rcChannels m.rcStatics), [])) (fun table s => (next table s, [])) :=
  fun _ => rfl

theorem performs_action (env : GstEnv) (next : RcTable → RcStatics → RcStatics)
    (action : RcTable → RcStatics → RcAction) :
    Performs env
      (fun m => (action m.rcChannels m.rcStatics).perform env (m.setRcStatics (next m.rcChannels m.rcStatics)))
      (fun table s => (next table s, [action table s])) := by
  intro m
  simp only [performAll, MavStep.andThen, List.append_nil]

theorem performs_initialization (env : GstEnv) (rc : RcChannels) :
    Performs env (rcInitialization rc) (RcPart.initialization rc) := fun _ => rfl

theorem performs_control (env : GstEnv) (rc : RcChannels) : Performs env (rcControl rc) (RcPart.control rc) :=
  fun _ => rfl

theorem performs_buttonA (env : GstEnv) (rc : RcChannels) : Performs env (rcButtonA rc) (RcPart.buttonA rc) :=
  Performs.branch (fun m => rc.chan5Raw ≠ m.buttonALast) (fun _ s => rc.chan5Raw ≠ s.buttonALast) (fun _ => Iff.rfl)
    (performs_action env (fun _ s => { s with buttonALast := rc.chan5Raw, camYaw := 0, camPitch := 0 })
      fun _ _ => .recentre)
    (performs_quiet env fun _ s => s)

theorem performs_snapshot (env : GstEnv) (rc : RcChannels) : Performs env (rcSnapshot rc) (RcPart.snapshot rc) :=
  Performs.branch (fun m => rc.chan13Raw ≠ m.buttonSnapshotLast) (fun _ s => rc.chan13Raw ≠ s.buttonSnapshotLast)
    (fun _ => Iff.rfl)
    (performs_action env (fun _ s => { s with buttonSnapshotLast := rc.chan13Raw }) fun _ _ => .saveImage)
    (performs_quiet env fun _ s => s)

theorem performs_zoom (env : GstEnv) (rc : RcChannels) : Performs env (rcZoom rc) (RcPart.zoom rc) := by
  have hturn := performs_action env (fun _ s => { s with zoomStop := false, zoomRatio := RcPart.nextRatio s })
    fun _ s => .zoom (UInt8.ofInt ((RcPart.nextRatio s).tdiv 10)) (UInt8.ofInt ((RcPart.nextRatio s).tmod 10))
  exact Performs.branch (fun m => (rc.chan9Raw.toNat : Int) ≤ (zoomConfig m.rcChannels).min) _ (fun _ => Iff.rfl)
    (performs_quiet env fun _ s => { s with zoomStop := true, zoomDir := 1 }) <|
    Performs.branch (fun m => (rc.chan9Raw.toNat : Int) ≥ (zoomConfig m.rcChannels).max) _ (fun _ => Iff.rfl)
      (performs_quiet env fun _ s => { s with zoomStop := true, zoomDir := -1 }) <|
      Performs.branch (fun m => m.zoomStop) _ (fun _ => Iff.rfl) hturn (performs_quiet env fun _ s => s)

theorem performs_record (env : GstEnv) (rc : RcChannels) : Performs env (rcRecord env rc) (RcPart.record rc) := by
  have heq : rcRecord env rc = fun m =>
      if rc.chan14Raw ≠ m.recordLast then
        RcAction.changeRecordState.perform env (m.setRcStatics { m.rcStatics with recordLast := rc.chan14Raw })
      else (m, []) := by
    funext m
    simp only [rcRecord, RcAction.perform, MavStep.andThen, List.append_nil]
    rfl
  rw [heq]
  exact Performs.branch (fun m => rc.chan14Raw ≠ m.recordLast) (fun _ s => rc.chan14Raw ≠ s.recordLast)
    (fun _ => Iff.rfl)
    (performs_action env (fun _ s => { s with recordLast := rc.chan14Raw }) fun _ _ => .changeRecordState)
    (performs_quiet env fun _ s => s)

theorem performs_rotate (env : GstEnv) : Performs env rcRotate RcPart.rotate :=
  performs_action env (fun _ s => s) fun _ s => .rotate (toInt16 (s.camYaw * 10)) (toInt16 (s.camPitch * 10))

/-- The handler is `rcHandle` with its actions performed. -/
theorem mavFcuRcChannels_performs (env : GstEnv) (rc : RcChannels) :
    Performs env (mavFcuRcChannels env rc) (rcHandle rc) :=
  (performs_initialization env rc).andThen <| (performs_control env rc).andThen <| (performs_buttonA env rc).andThen <|
    (performs_snapshot env rc).andThen <| (performs_zoom env rc).andThen <| (performs_record env rc).andThen <|
      performs_rotate env

/-! ### What one message asks for -/

/-- A remembered position meets a new value: it counts as a change unless nothing was remembered yet. -/
def rcChanged (last value : UInt16) : Bool := last ≠ 0 && value ≠ last

theorem RcPart.andThen_of {f g : RcPart} {table : RcTable} {s s' : RcStatics} {actions : List RcAction}
    (h : f table s = (s', actions)) : f.andThen g table s = ((g table s').1, actions ++ (g table s').2) := by
  rw [RcPart.andThen, h]

theorem buttonA_eq (rc : RcChannels) (table : RcTable) (s : RcStatics) :
    RcPart.buttonA rc table s =
      ({ s with
          buttonALast := rc.chan5Raw
          camYaw := if rc.chan5Raw ≠ s.buttonALast then 0 else s.camYaw
          camPitch := if rc.chan5Raw ≠ s.buttonALast then 0 else s.camPitch },
        if rc.chan5Raw ≠ s.buttonALast then [.recentre] else []) := by
  rw [RcPart.buttonA]
  by_cases hsame : rc.chan5Raw = s.buttonALast
  · simp [hsame]
  · simp [hsame]

theorem snapshot_eq (rc : RcChannels) (table : RcTable) (s : RcStatics) :
    RcPart.snapshot rc table s =
      ({ s with buttonSnapshotLast := rc.chan13Raw },
        if rc.chan13Raw ≠ s.buttonSnapshotLast then [.saveImage] else []) := by
  rw [RcPart.snapshot]
  by_cases hsame : rc.chan13Raw = s.buttonSnapshotLast
  · simp [hsame]
  · simp [hsame]

theorem record_eq (rc : RcChannels) (table : RcTable) (s : RcStatics) :
    RcPart.record rc table s =
      ({ s with recordLast := rc.chan14Raw }, if rc.chan14Raw ≠ s.recordLast then [.changeRecordState] else []) := by
  rw [RcPart.record]
  by_cases hsame : rc.chan14Raw = s.recordLast
  · simp [hsame]
  · simp [hsame]

theorem zoom_eq (rc : RcChannels) (table : RcTable) {s t : RcStatics} (hratio : s.zoomRatio = t.zoomRatio)
    (hdir : s.zoomDir = t.zoomDir) (hstop : s.zoomStop = t.zoomStop) :
    RcPart.zoom rc table s =
      ({ s with
          zoomRatio := (RcPart.zoom rc table t).1.zoomRatio
          zoomDir := (RcPart.zoom rc table t).1.zoomDir
          zoomStop := (RcPart.zoom rc table t).1.zoomStop }, (RcPart.zoom rc table t).2) := by
  cases s
  cases t
  simp only at hratio hdir hstop
  subst hratio hdir hstop
  simp only [RcPart.zoom, RcPart.nextRatio]
  split_ifs <;> rfl

/-- The angles before the button is looked at. -/
def RcStatics.steered (s : RcStatics) (rc : RcChannels) (table : RcTable) : Rat × Rat :=
  (boundFloat (rcIncrease s.camYaw (rcSignal rc.chan1Raw (yawConfig table))) 135 (-135),
    boundFloat (rcIncrease s.camPitch (rcSignal rc.chan2Raw (pitchConfig table))) 25 (-90))

/-- The angles of the message. -/
def RcStatics.angles (s : RcStatics) (rc : RcChannels) (table : RcTable) : Rat × Rat :=
  if rcChanged s.buttonALast rc.chan5Raw then 0 else s.steered rc table

theorem ne_remembered_iff (last value : UInt16) :
    (value ≠ if last = 0 then value else last) ↔ rcChanged last value = true := by
  by_cases hlast : last = 0
  · simp [rcChanged, hlast]
  · simp [rcChanged, hlast]

/-- The statics when the zoom is reached. -/
def RcStatics.beforeZoom (s : RcStatics) (rc : RcChannels) (table : RcTable) : RcStatics :=
  { s with
    camYaw := (s.angles rc table).1
    camPitch := (s.angles rc table).2
    buttonALast := rc.chan5Raw
    buttonSnapshotLast := rc.chan13Raw
    recordLast := if s.recordLast = 0 then rc.chan14Raw else s.recordLast }

theorem beforeZoom_eq (rc : RcChannels) (table : RcTable) (s : RcStatics) (g : RcPart) :
    ((RcPart.initialization rc).andThen <| (RcPart.control rc).andThen <| (RcPart.buttonA rc).andThen <|
      (RcPart.snapshot rc).andThen g) table s =
      ((g table (s.beforeZoom rc table)).1,
        ((if rcChanged s.buttonALast rc.chan5Raw then [.recentre] else []) ++
          if rcChanged s.buttonSnapshotLast rc.chan13Raw then [.saveImage] else []) ++
          (g table (s.beforeZoom rc table)).2) := by
  rw [RcPart.andThen_of rfl, RcPart.andThen_of rfl, RcPart.andThen_of (buttonA_eq rc table _),
    RcPart.andThen_of (snapshot_eq rc table _)]
  simp only [ne_remembered_iff, RcStatics.beforeZoom, RcStatics.angles, RcStatics.steered, List.nil_append,
    List.append_assoc]
  by_cases hbutton : rcChanged s.buttonALast rc.chan5Raw = true
  · simp only [hbutton, if_true]
    rfl
  · simp only [hbutton]
    rfl

theorem rcHandle_eq (rc : RcChannels) (table : RcTable) (s : RcStatics) :
    rcHandle rc table s =
      ({ camYaw := (s.angles rc table).1
         camPitch := (s.angles rc table).2
         buttonALast := rc.chan5Raw
         buttonSnapshotLast := rc.chan13Raw
         recordLast := rc.chan14Raw
         zoomRatio := (RcPart.zoom rc table s).1.zoomRatio
         zoomDir := (RcPart.zoom rc table s).1.zoomDir
         zoomStop := (RcPart.zoom rc table s).1.zoomStop },
        (if rcChanged s.buttonALast rc.chan5Raw then [.recentre] else []) ++
          (if rcChanged s.buttonSnapshotLast rc.chan13Raw then [.saveImage] else []) ++
          (RcPart.zoom rc table s).2 ++
          (if rcChanged s.recordLast rc.chan14Raw then [.changeRecordState] else []) ++
          [.rotate (toInt16 ((s.angles rc table).1 * 10)) (toInt16 ((s.angles rc table).2 * 10))]) := by
  have hzoom := zoom_eq rc table (s := s.beforeZoom rc table) (t := s) rfl rfl rfl
  rw [rcHandle, beforeZoom_eq, RcPart.andThen_of hzoom, RcPart.andThen_of (record_eq rc table _)]
  simp only [RcPart.rotate, RcStatics.beforeZoom, ne_remembered_iff, List.append_assoc]

/-! ### Whole runs -/

/-- The RC_CHANNELS messages among the events. -/
def rcMessage? : MavEvent → Option RcChannels
  | .rcChannels _ rc => some rc
  | .commandLong _ _ _ _ => none
  | .autopilotVersion _ => none
  | .cameraReady => none
  | .newSample _ _ => none
  | .eos => none

def rcMessages (events : List MavEvent) : List RcChannels := events.filterMap rcMessage?

/-- One event with what its handler asks for, where it is an RC_CHANNELS message. -/
def Mav.rcNext (m : Mav) (e : MavEvent) : Mav × Option (List RcAction) :=
  (m.next e, (rcMessage? e).map fun rc => (rcHandle rc m.rcChannels m.rcStatics).2)

/-- The actions of every RC_CHANNELS message of a run, message by message. -/
def Mav.rcTrace (m : Mav) (events : List MavEvent) : List (List RcAction) :=
  (Transducer.outputs Mav.rcNext m events).filterMap id

/-- Steps that leave the statics and the channel table as they are. -/
def MavStep.KeepsRc (f : MavStep) : Prop := ∀ m, (f m).1.rcChannels = m.rcChannels ∧ (f m).1.rcStatics = m.rcStatics

theorem MavStep.KeepsRc.andThen {f g : MavStep} (hf : f.KeepsRc) (hg : g.KeepsRc) : (f.andThen g).KeepsRc := by
  intro m
  obtain ⟨htable, hstatics⟩ := hg (f m).1
  exact ⟨htable.trans (hf m).1, hstatics.trans (hf m).2⟩

theorem onDevs_keepsRc (call : CameraDevs → CameraDevs × List DeviceOutput) : (onDevs call).KeepsRc :=
  fun _ => ⟨rfl, rfl⟩

theorem sendFrames_keepsRc (frames : Mav → List MavlinkFrame) : (sendFrames frames).KeepsRc := fun _ => ⟨rfl, rfl⟩

theorem skip_keepsRc : MavStep.KeepsRc fun m => (m, []) := fun _ => ⟨rfl, rfl⟩

theorem changeRecordStateIf_keepsRc (status : Bool) (env : GstEnv) : (changeRecordStateIf status env).KeepsRc := by
  intro m
  rw [changeRecordStateIf]
  split <;> exact ⟨rfl, rfl⟩

theorem mavCommandLong_keepsRc (env : GstEnv) (command : UInt16) (sysid compid : UInt8) :
    (mavCommandLong env command sysid compid).KeepsRc := by
  rw [mavCommandLong]
  repeat' refine iteInduction (fun _ => ?_) fun _ => ?_
  · exact skip_keepsRc
  · exact sendFrames_keepsRc _
  · exact sendFrames_keepsRc _
  · exact sendFrames_keepsRc _
  · exact sendFrames_keepsRc _
  · exact (sendFrames_keepsRc _).andThen (sendFrames_keepsRc _)
  · exact (onDevs_keepsRc _).andThen (sendFrames_keepsRc _)
  · exact sendFrames_keepsRc _
  · exact (sendFrames_keepsRc _).andThen ((changeRecordStateIf_keepsRc false env).andThen fun _ => ⟨rfl, rfl⟩)
  · exact (sendFrames_keepsRc _).andThen ((changeRecordStateIf_keepsRc true env).andThen fun _ => ⟨rfl, rfl⟩)
  · exact skip_keepsRc

theorem recorderCallback_keepsRc (f : GstData → GstData × List Report) : (recorderCallback f).KeepsRc := by
  intro m
  rw [recorderCallback]
  split <;> exact ⟨rfl, rfl⟩

/-- Only RC_CHANNELS changes the statics of its handler, and nothing changes the channel table. -/
theorem Mav.rcStatics_next (m : Mav) (e : MavEvent) :
    (m.next e).rcChannels = m.rcChannels ∧
      (m.next e).rcStatics = match rcMessage? e with
        | some rc => (rcHandle rc m.rcChannels m.rcStatics).1
        | none => m.rcStatics := by
  cases e with
  | rcChannels env rc =>
      have hout := performAll_outside env (rcHandle rc m.rcChannels m.rcStatics).2
      simp only [Mav.next, mavStep, mavFcuRcChannels_performs env rc m, rcMessage?]
      rw [hout.table, hout.rcStatics]
      exact ⟨rfl, rfl⟩
  | commandLong env command sysid compid => exact mavCommandLong_keepsRc env command sysid compid m
  | autopilotVersion sysid => exact ⟨rfl, rfl⟩
  | newSample sample timeinfo => exact recorderCallback_keepsRc _ m
  | cameraReady => exact recorderCallback_keepsRc _ m
  | eos => exact recorderCallback_keepsRc _ m

/-- What a run asks for is what `rcHandle` answers to its RC_CHANNELS messages. -/
theorem Mav.rcTrace_eq (m : Mav) (events : List MavEvent) :
    m.rcTrace events =
      Transducer.outputs (fun s rc => rcHandle rc m.rcChannels s) m.rcStatics (rcMessages events) := by
  apply Transducer.filterMap_outputs_eq (R := fun m' s => m'.rcChannels = m.rcChannels ∧ m'.rcStatics = s)
  · intro m' s e hrel
    obtain ⟨htable, hstatics⟩ := hrel
    obtain ⟨htable', hstatics'⟩ := m'.rcStatics_next e
    cases hmessage : rcMessage? e with
    | some rc =>
        rw [hmessage] at hstatics'
        refine ⟨⟨htable'.trans htable, ?_⟩, ?_⟩
        · show (m'.next e).rcStatics = _
          rw [hstatics', htable, hstatics]
        · simp only [Mav.rcNext, hmessage, Option.map_some, id, htable, hstatics]
    | none =>
        rw [hmessage] at hstatics'
        refine ⟨⟨htable'.trans htable, hstatics'.trans hstatics⟩, ?_⟩
        simp only [Mav.rcNext, hmessage, Option.map_none, id]
  · exact ⟨rfl, rfl⟩

/-- What the handler of every RC_CHANNELS message of a run gives out. -/
def Mav.rcOutputs (m : Mav) (events : List MavEvent) : List (List MavOutput) :=
  (Transducer.outputs (fun m e => (m.next e, (rcMessage? e).map fun _ => (mavStep e m).2)) m events).filterMap id

/-- Lists of actions, each performed where its message comes. -/
def Mav.performTrace : Mav → List MavEvent → List (List RcAction) → List (List MavOutput)
  | _, [], _ => []
  | m, .rcChannels env rc :: events, actions :: trace =>
      (performAll env actions m).2 :: (m.next (.rcChannels env rc)).performTrace events trace
  | m, e :: events, trace => (m.next e).performTrace events trace

@[simp] theorem Mav.rcTrace_nil (m : Mav) : m.rcTrace [] = [] := rfl

theorem Mav.rcTrace_cons (m : Mav) (e : MavEvent) (events : List MavEvent) :
    m.rcTrace (e :: events) =
      ((rcMessage? e).map fun rc => (rcHandle rc m.rcChannels m.rcStatics).2).toList ++ (m.next e).rcTrace events := by
  rw [rcTrace, Transducer.outputs_cons, rcNext]
  cases rcMessage? e <;> rfl

/-- The actions of the trace, performed, are all that the handler does to the cameras. -/
theorem Mav.rcOutputs_eq (m : Mav) (events : List MavEvent) :
    m.rcOutputs events = m.performTrace events (m.rcTrace events) := by
  induction events generalizing m with
  | nil => rfl
  | cons e events ih =>
      rw [rcTrace_cons]
      cases e with
      | rcChannels env rc =>
          have hout := performAll_outside env (rcHandle rc m.rcChannels m.rcStatics).2
          have hhandler : (mavStep (.rcChannels env rc) m).2 =
              (performAll env (rcHandle rc m.rcChannels m.rcStatics).2 m).2 := by
            rw [mavStep, mavFcuRcChannels_performs env rc m, hout.statics m]
          exact congrArg₂ List.cons hhandler (ih _)
      | _ => exact ih _

end MissionServer
