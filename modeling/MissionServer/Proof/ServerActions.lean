import MissionServer.Proof.Ack
import MissionServer.Proof.Logs
import MissionServer.Proof.RcControl
import MissionServer.UartServer.Threads

/-!
# What the server's thread does

Its handlers speak as the camera, under the system number of the last AUTOPILOT_VERSION. Before the first
one nothing else is sent but requests for it.
-/

namespace MissionServer

variable {ψ : Type}

/-! ### The handlers -/

/-- A handler other than that of AUTOPILOT_VERSION: it leaves the handshake alone and sends as the camera. -/
structure MavStep.AsCamera (f : MavStep) : Prop where
  fcuSysid : ∀ m, (f m).1.fcuSysid = m.fcuSysid
  serialIsReady : ∀ m, (f m).1.serialIsReady = m.serialIsReady
  frames : ∀ m, ∀ frame ∈ sentFrames (f m).2, frame.componentId = mavCompIdCamera ∧ frame.sysId = m.fcuSysid

theorem MavStep.AsCamera.andThen {f g : MavStep} (hf : f.AsCamera) (hg : g.AsCamera) : (f.andThen g).AsCamera where
  fcuSysid m := (hg.fcuSysid _).trans (hf.fcuSysid m)
  serialIsReady m := (hg.serialIsReady _).trans (hf.serialIsReady m)
  frames m frame hframe := by
    rw [MavStep.andThen, sentFrames_append] at hframe
    obtain hframe | hframe := List.mem_append.mp hframe
    · exact hf.frames m frame hframe
    · obtain ⟨hcomponent, hsysid⟩ := hg.frames _ frame hframe
      exact ⟨hcomponent, hsysid.trans (hf.fcuSysid m)⟩

theorem onDevs_asCamera (call : CameraDevs → CameraDevs × List DeviceOutput) : (onDevs call).AsCamera where
  fcuSysid _ := rfl
  serialIsReady _ := rfl
  frames m frame hframe := by simp [(onDevs_silent call).sentFrames_eq_nil m] at hframe

theorem quiet_asCamera {f : Mav → Mav} (hsysid : ∀ m, (f m).fcuSysid = m.fcuSysid)
    (hready : ∀ m, (f m).serialIsReady = m.serialIsReady) : MavStep.AsCamera fun m => (f m, []) where
  fcuSysid := hsysid
  serialIsReady := hready
  frames m frame hframe := by simp [sentFrames] at hframe

theorem sendFrames_asCamera {frames : Mav → List MavlinkFrame}
    (h : ∀ m, ∀ frame ∈ frames m, frame.componentId = mavCompIdCamera ∧ frame.sysId = m.fcuSysid) :
    (sendFrames frames).AsCamera where
  fcuSysid _ := rfl
  serialIsReady _ := rfl
  frames m frame hframe := h m frame (by rwa [sentFrames_sendFrames] at hframe)

theorem perform_asCamera (env : GstEnv) (action : RcAction) : (action.perform env).AsCamera := by
  cases action with
  | recentre => exact quiet_asCamera (f := id) (fun _ => rfl) fun _ => rfl
  | saveImage => exact onDevs_asCamera _
  | zoom => exact onDevs_asCamera _
  | changeRecordState =>
      have hflip : MavStep.AsCamera fun m =>
          (if getVideoStatus 0 m then resetVideoStatus 0 m else setVideoStatus 0 m, []) := by
        apply quiet_asCamera
        · intro m
          split <;> rfl
        · intro m
          split <;> rfl
      exact (onDevs_asCamera _).andThen hflip
  | rotate => exact onDevs_asCamera _

theorem performAll_asCamera (env : GstEnv) (actions : List RcAction) : (performAll env actions).AsCamera := by
  induction actions with
  | nil => exact quiet_asCamera (f := id) (fun _ => rfl) fun _ => rfl
  | cons action actions ih => exact (perform_asCamera env action).andThen ih

theorem mavFcuRcChannels_asCamera (env : GstEnv) (rc : RcChannels) : (mavFcuRcChannels env rc).AsCamera where
  fcuSysid m := by
    rw [mavFcuRcChannels_performs env rc m]
    exact (performAll_asCamera env _).fcuSysid _
  serialIsReady m := by
    rw [mavFcuRcChannels_performs env rc m]
    exact (performAll_asCamera env _).serialIsReady _
  frames m := by
    rw [mavFcuRcChannels_performs env rc m]
    exact (performAll_asCamera env _).frames _

theorem sendAccepted_asCamera (cmd : UInt16) (sysid compid : UInt8) : (sendAccepted cmd sysid compid).AsCamera :=
  sendFrames_asCamera (by simp [mavlinkSendAck])

theorem changeRecordStateIf_asCamera (status : Bool) (env : GstEnv) : (changeRecordStateIf status env).AsCamera := by
  have hcall := onDevs_asCamera (cameraChangeRecordState 0 · env)
  have hskip := quiet_asCamera (f := id) (fun _ => rfl) fun _ => rfl
  refine ⟨fun m => ?_, fun m => ?_, fun m => ?_⟩
  all_goals
    rw [changeRecordStateIf]
    split
  · exact hcall.fcuSysid m
  · exact hskip.fcuSysid m
  · exact hcall.serialIsReady m
  · exact hskip.serialIsReady m
  · exact hcall.frames m
  · exact hskip.frames m

theorem mavCommandLong_asCamera (env : GstEnv) (command : UInt16) (sysid compid : UInt8) :
    (mavCommandLong env command sysid compid).AsCamera := by
  have hskip : MavStep.AsCamera fun m => (m, []) := quiet_asCamera (f := id) (fun _ => rfl) fun _ => rfl
  have haccepted (cmd) := sendAccepted_asCamera cmd sysid compid
  have hstatus : MavStep.AsCamera (sendFrames fun m =>
      mavlinkSendCameraCaptureStatus m.fcuSysid m.videoStatus sysid compid) :=
    sendFrames_asCamera (by simp [mavlinkSendCameraCaptureStatus, mavlinkSendAck])
  rw [mavCommandLong]
  repeat' refine iteInduction (fun _ => ?_) fun _ => ?_
  · exact hskip
  · exact sendFrames_asCamera (by simp [mavlinkSendCameraInfo, mavlinkSendAck])
  · exact sendFrames_asCamera (by simp [mavlinkSendCameraSettings, mavlinkSendAck])
  · exact sendFrames_asCamera (by simp [mavlinkSendStorageInformation, mavlinkSendAck])
  · exact hstatus
  · exact (haccepted _).andThen hstatus
  · exact (onDevs_asCamera _).andThen (haccepted _)
  · exact haccepted _
  · exact (haccepted _).andThen
      ((changeRecordStateIf_asCamera _ env).andThen (quiet_asCamera (fun _ => rfl) fun _ => rfl))
  · exact (haccepted _).andThen
      ((changeRecordStateIf_asCamera _ env).andThen (quiet_asCamera (fun _ => rfl) fun _ => rfl))
  · exact hskip

theorem parseMavlinkMsg_asCamera (lib : MavlinkLib ψ) (env : GstEnv) {msg : MavlinkMessage}
    (hmsg : msg.msgid ≠ autopilotVersionId) : (parseMavlinkMsg lib env msg).AsCamera := by
  have hskip : MavStep.AsCamera fun m => (m, []) := quiet_asCamera (f := id) (fun _ => rfl) fun _ => rfl
  have hcamera : ∀ handler, (fcuCmds lib env).lookup msg.msgid = some handler → (handler msg).AsCamera := by
    intro handler hlookup
    obtain ⟨before, after, hsplit, -⟩ := List.lookup_eq_some_iff.mp hlookup
    have hmem : (msg.msgid, handler) ∈ fcuCmds lib env := by simp [hsplit]
    simp only [fcuCmds, List.mem_cons, Prod.mk.injEq, List.not_mem_nil, or_false] at hmem
    obtain ⟨-, rfl⟩ | ⟨-, rfl⟩ | ⟨-, rfl⟩ | ⟨-, rfl⟩ | ⟨hid, -⟩ := hmem
    · exact hskip
    · exact hskip
    · exact mavFcuRcChannels_asCamera env _
    · exact mavCommandLong_asCamera env _ _ _
    · exact absurd hid hmsg
  have heq : parseMavlinkMsg lib env msg =
      ((fcuCmds lib env).lookup msg.msgid).elim (fun m => (m, [])) fun handler => handler msg := by
    funext m
    rw [parseMavlinkMsg]
    cases (fcuCmds lib env).lookup msg.msgid <;> rfl
  rw [heq]
  cases hlookup : (fcuCmds lib env).lookup msg.msgid with
  | none => exact hskip
  | some handler => exact hcamera handler hlookup

theorem parseMavlinkMsg_version (lib : MavlinkLib ψ) (env : GstEnv) {msg : MavlinkMessage}
    (hmsg : msg.msgid = autopilotVersionId) (m : Mav) :
    parseMavlinkMsg lib env msg m = ((autopilotVersionWrites msg.sysid).foldl HandshakeWrite.perform m, []) := by
  rw [parseMavlinkMsg, hmsg, ← mavFcuAutopilotVersion_writes]
  rfl

/-! ### The program -/

/-- What a message may be where `v` is the system number of the last AUTOPILOT_VERSION. -/
structure Speaks (v : Option UInt8) (frame : MavlinkFrame) : Prop where
  asCamera : frame.componentId = mavCompIdCamera → frame.sysId = v.getD 0
  before : v = none → frame.componentId = mavCompIdCamera ∨ frame ∈ mavlinkSendRequestAutopilotCapabilities 0

/-- The actions are in keeping with the handshake, and lead from one last version to another. -/
inductive Follows : Option UInt8 → List ServerAction → Option UInt8 → Prop
  | nil (v : Option UInt8) : Follows v [] v
  | ready {v v' : Option UInt8} {actions : List ServerAction} (h : Follows v actions v') :
      Follows v (.assign .ready :: actions) v'
  | sysid {v v' : Option UInt8} {actions : List ServerAction} {id : UInt8} (hid : id ≠ 0)
      (h : Follows (some id) actions v') : Follows v (.assign (.sysid id) :: actions) v'
  | send {v v' : Option UInt8} {actions : List ServerAction} {frame : MavlinkFrame} (hframe : Speaks v frame)
      (h : Follows v actions v') : Follows v (.send frame :: actions) v'
  | forward {v v' : Option UInt8} {actions : List ServerAction} {data : Bytes} (h : Follows v actions v') :
      Follows v (.forward data :: actions) v'
  | ends {v v' : Option UInt8} {actions : List ServerAction} (h : Follows v actions v') :
      Follows v (.ends :: actions) v'

theorem Follows.append {v v' v'' : Option UInt8} {actions actions' : List ServerAction} (h : Follows v actions v')
    (h' : Follows v' actions' v'') : Follows v (actions ++ actions') v'' := by
  induction h with
  | nil => exact h'
  | ready _ ih => exact .ready (ih h')
  | sysid hid _ ih => exact .sysid hid (ih h')
  | send hframe _ ih => exact .send hframe (ih h')
  | forward _ ih => exact .forward (ih h')
  | ends _ ih => exact .ends (ih h')

theorem follows_sends {v : Option UInt8} {frames : List MavlinkFrame} (h : ∀ frame ∈ frames, Speaks v frame) :
    Follows v (frames.map .send) v := by
  induction frames with
  | nil => exact .nil v
  | cons frame frames ih =>
      obtain ⟨hframe, hframes⟩ := List.forall_mem_cons.mp h
      exact .send hframe (ih hframes)

theorem follows_forwards {v : Option UInt8} (pieces : List Bytes) : Follows v (pieces.map .forward) v := by
  induction pieces with
  | nil => exact .nil v
  | cons data pieces ih => exact .forward ih

theorem follows_outputs {v : Option UInt8} {out : List MavOutput} (h : ∀ frame ∈ sentFrames out, Speaks v frame) :
    Follows v (out.filterMap outputAction) v := by
  induction out with
  | nil => exact .nil v
  | cons output out ih =>
      cases output with
      | frame frame =>
          obtain ⟨hframe, hframes⟩ := List.forall_mem_cons.mp h
          exact .send hframe (ih hframes)
      | device output =>
          have hrest := ih h
          cases output with
          | fault => exact .ends hrest
          | exit => exact .ends hrest
          | _ => exact hrest

/-- The statics of the handshake, where `v` is the system number of the last AUTOPILOT_VERSION. -/
structure Mav.Handshaken (m : Mav) (v : Option UInt8) : Prop where
  fcuSysid : m.fcuSysid = v.getD 0
  serialIsReady : m.serialIsReady = v.isSome

section Program

variable {lib : MavlinkLib ψ} {v : Option UInt8}

/-- The parser delivers messages of systems with a number other than 0. -/
def MavlinkLib.FromSystems (lib : MavlinkLib ψ) : Prop :=
  ∀ status byte msg, (lib.parseChar status byte).2 = some msg → msg.sysid ≠ 0

theorem messageActions_follows (env : GstEnv) {msg : MavlinkMessage} (hsysid : msg.sysid ≠ 0) {m : Mav}
    (h : m.Handshaken v) :
    ∃ v', Follows v (messageActions lib env msg m) v' ∧ (parseMavlinkMsg lib env msg m).1.Handshaken v' := by
  rw [messageActions]
  split
  · refine ⟨some msg.sysid, .ready (.sysid hsysid (.nil _)), ?_⟩
    rw [parseMavlinkMsg_version lib env ‹_›]
    exact ⟨rfl, rfl⟩
  · have hcamera := parseMavlinkMsg_asCamera lib env ‹_›
    refine ⟨v, follows_outputs fun frame hframe => ?_, ?_⟩
    · obtain ⟨hcomponent, hfrom⟩ := hcamera.frames m frame hframe
      exact ⟨fun _ => hfrom.trans h.fcuSysid, fun _ => .inl hcomponent⟩
    · exact ⟨(hcamera.fcuSysid m).trans h.fcuSysid, (hcamera.serialIsReady m).trans h.serialIsReady⟩

theorem charActions_follows (hlib : lib.FromSystems) (env : GstEnv) (byte : UInt8) {r : Receiver ψ}
    (h : r.mav.Handshaken v) :
    ∃ v', Follows v (charActions lib env byte r) v' ∧ (readMavlinkChar lib env byte r).1.mav.Handshaken v' := by
  have hsysid := hlib r.fcuStatus byte
  rw [charActions, readMavlinkChar]
  revert hsysid
  obtain ⟨status, _ | msg⟩ := lib.parseChar r.fcuStatus byte
  · exact fun _ => ⟨v, .nil v, h⟩
  · exact fun hsysid => messageActions_follows env (hsysid msg rfl) h

theorem chunkActions_follows (hlib : lib.FromSystems) (envs : Nat → GstEnv) (data : Bytes) {r : Receiver ψ}
    (h : r.mav.Handshaken v) :
    ∃ v', Follows v (chunkActions lib envs data r) v' ∧ (readMavlinkMsg lib envs data r).1.mav.Handshaken v' := by
  induction data generalizing envs r v with
  | nil => exact ⟨v, .nil v, h⟩
  | cons byte bytes ih =>
      obtain ⟨v', hfollows, hnext⟩ := charActions_follows hlib (envs 0) byte h
      obtain ⟨v'', hfollows', hlast⟩ := ih (fun i => envs (i + 1)) hnext
      exact ⟨v'', hfollows.append hfollows', hlast⟩

theorem connectionLoop_follows (hlib : lib.FromSystems) (inputs : List SerialInput) {r : Receiver ψ}
    (h : r.mav.Handshaken v) :
    ∃ v', Follows v (connectionLoop lib inputs r).2 v' ∧ (connectionLoop lib inputs r).1.mav.Handshaken v' := by
  induction inputs generalizing r v with
  | nil => exact ⟨v, .nil v, h⟩
  | cons input inputs ih =>
      rw [connectionLoop]
      split_ifs with hconnected
      · exact ⟨v, .nil v, h⟩
      · obtain rfl : v = none := by
          have hready : v.isSome = false := by
            rw [← h.serialIsReady]
            exact Bool.eq_false_of_not_eq_true hconnected
          exact Option.isNone_iff_eq_none.mp (Option.isSome_eq_false_iff.mp hready)
        have hrequest : Follows none ((mavlinkSendRequestAutopilotCapabilities r.mav.fcuSysid).map .send) none := by
          apply follows_sends
          intro frame hframe
          rw [h.fcuSysid] at hframe
          refine ⟨fun hcomponent => ?_, fun _ => .inr hframe⟩
          obtain rfl := List.mem_singleton.mp hframe
          exact absurd hcomponent (by decide)
        cases serialRead gCacheSize input.data with
        | none =>
            obtain ⟨v', hfollows, hlast⟩ := ih h
            exact ⟨v', hrequest.append hfollows, hlast⟩
        | some data =>
            obtain ⟨v', hfollows, hnext⟩ := chunkActions_follows hlib input.envs data h
            obtain ⟨v'', hfollows', hlast⟩ := ih hnext
            exact ⟨v'', (hrequest.append hfollows).append hfollows', hlast⟩

end Program

/-! ### The main loop -/

/-- The messages of the server's own among the events. -/
def ownSent (h : History) : List MavlinkFrame :=
  h.filterMap fun
    | .own frame => some frame
    | _ => none

theorem ownSent_append (h h' : History) : ownSent (h ++ h') = ownSent h ++ ownSent h' := List.filterMap_append

theorem ownSent_own (frames : List MavlinkFrame) : ownSent (frames.map .own) = frames := by
  simp [ownSent, List.filterMap_map]

theorem ownSent_eq_nil {events : History} (h : ∀ e ∈ events, ∀ frame, e ≠ .own frame) : ownSent events = [] := by
  apply List.filterMap_eq_nil_iff.mpr
  intro e he
  cases e with
  | own frame => exact absurd rfl (h _ he frame)
  | _ => rfl

/-- The messages that actions send. -/
def sends (actions : List ServerAction) : List MavlinkFrame :=
  actions.filterMap fun
    | .send frame => some frame
    | _ => none

theorem sends_append (actions actions' : List ServerAction) :
    sends (actions ++ actions') = sends actions ++ sends actions' :=
  List.filterMap_append

theorem sends_send (frames : List MavlinkFrame) : sends (frames.map .send) = frames := by
  simp [sends, List.filterMap_map]

theorem sends_outputs (out : List MavOutput) : sends (out.filterMap outputAction) = sentFrames out := by
  induction out with
  | nil => rfl
  | cons output out ih =>
      cases output with
      | frame frame => exact congrArg (frame :: ·) ih
      | device output => cases output <;> exact ih

section Loop

variable {lib : MavlinkLib ψ}

theorem sends_chunkActions (envs : Nat → GstEnv) (data : Bytes) (r : Receiver ψ) :
    sends (chunkActions lib envs data r) = sentFrames (readMavlinkMsg lib envs data r).2 := by
  induction data generalizing envs r with
  | nil => rfl
  | cons byte bytes ih =>
      have hchar : sends (charActions lib (envs 0) byte r) = sentFrames (readMavlinkChar lib (envs 0) byte r).2 := by
        rw [charActions, readMavlinkChar]
        obtain ⟨status, _ | msg⟩ := lib.parseChar r.fcuStatus byte
        · rfl
        · dsimp only [messageActions]
          split
          · rw [parseMavlinkMsg_version lib (envs 0) ‹_›]
            rfl
          · exact sends_outputs _
      rw [chunkActions, sends_append, hchar, ih]
      exact (sentFrames_append _ _).symm

theorem forall_sentFrames_readMavlinkMsg {P : MavlinkFrame → Prop}
    (h : ∀ env msg m, ∀ frame ∈ sentFrames (parseMavlinkMsg lib env msg m).2, P frame) (envs : Nat → GstEnv)
    (data : Bytes) (r : Receiver ψ) : ∀ frame ∈ sentFrames (readMavlinkMsg lib envs data r).2, P frame := by
  induction data generalizing envs r with
  | nil => exact fun _ hframe => absurd hframe List.not_mem_nil
  | cons byte bytes ih =>
      have hchar : ∀ frame ∈ sentFrames (readMavlinkChar lib (envs 0) byte r).2, P frame := by
        rw [readMavlinkChar]
        obtain ⟨status, _ | msg⟩ := lib.parseChar r.fcuStatus byte
        · exact fun _ hframe => absurd hframe List.not_mem_nil
        · exact h (envs 0) msg r.mav
      rw [readMavlinkMsg]
      dsimp only
      rw [sentFrames_append]
      exact List.forall_mem_append.mpr ⟨hchar, ih _ _⟩

theorem ownSent_ownFrames (out : List MavOutput) : ownSent (ownFrames out) = sentFrames out := by
  induction out with
  | nil => rfl
  | cons output out ih =>
      cases output with
      | frame frame => exact congrArg (frame :: ·) ih
      | device output => exact ih

theorem Follows.isSome {v v' : Option UInt8} {actions : List ServerAction} (h : Follows v actions v')
    (hv : v.isSome = true) : v'.isSome = true := by
  induction h with
  | nil => exact hv
  | ready _ ih => exact ih hv
  | sysid _ _ ih => exact ih rfl
  | send _ _ ih => exact ih hv
  | forward _ ih => exact ih hv
  | ends _ ih => exact ih hv

/-- The pieces that have been read of clients, as far as there was something to read. -/
def pieces (h : History) : List Bytes :=
  h.filterMap fun
    | .received _ _ data => if data = [] then none else some data
    | _ => none

theorem pieces_append (h h' : History) : pieces (h ++ h') = pieces h ++ pieces h' := List.filterMap_append

theorem pieces_eq_nil {events : History} (h : ∀ e ∈ events, ∀ conn fd data, e ≠ .received conn fd data) :
    pieces events = [] := by
  apply List.filterMap_eq_nil_iff.mpr
  intro e he
  cases e with
  | received conn fd data => exact absurd rfl (h _ he conn fd data)
  | _ => rfl

theorem pieces_own (frames : List MavlinkFrame) : pieces (frames.map .own) = [] :=
  pieces_eq_nil (by simp)

theorem pieces_ownFrames (out : List MavOutput) : pieces (ownFrames out) = [] := by
  refine pieces_eq_nil fun e he conn fd data heq => ?_
  obtain ⟨output, -, hown⟩ := List.mem_filterMap.mp he
  cases output with
  | frame frame =>
      rw [heq] at hown
      cases hown
  | device output => cases hown

/-- The pieces that actions write to the port. -/
def forwards (actions : List ServerAction) : List Bytes :=
  actions.filterMap fun
    | .forward data => some data
    | _ => none

theorem forwards_append (actions actions' : List ServerAction) :
    forwards (actions ++ actions') = forwards actions ++ forwards actions' :=
  List.filterMap_append

theorem forwards_eq_nil {actions : List ServerAction} (h : ∀ data, .forward data ∉ actions) :
    forwards actions = [] := by
  apply List.filterMap_eq_nil_iff.mpr
  intro action haction
  cases action with
  | forward data => exact absurd haction (h data)
  | _ => rfl

theorem forwards_forward (pieces : List Bytes) : forwards (pieces.map .forward) = pieces := by
  simp [forwards, List.filterMap_map]

theorem sends_forwards (pieces : List Bytes) : sends (pieces.map .forward) = [] :=
  List.filterMap_eq_nil_iff.mpr (by simp)

theorem forwards_sends (frames : List MavlinkFrame) : forwards (frames.map .send) = [] :=
  forwards_eq_nil (by simp)

theorem forwards_chunkActions (envs : Nat → GstEnv) (data : Bytes) (r : Receiver ψ) :
    forwards (chunkActions lib envs data r) = [] := by
  induction data generalizing envs r with
  | nil => rfl
  | cons byte bytes ih =>
      have hchar : forwards (charActions lib (envs 0) byte r) = [] := by
        rw [charActions]
        obtain ⟨status, _ | msg⟩ := lib.parseChar r.fcuStatus byte
        · rfl
        · dsimp only [messageActions]
          split
          · rfl
          · refine forwards_eq_nil fun data hmem => ?_
            obtain ⟨output, -, houtput⟩ := List.mem_filterMap.mp hmem
            rcases output with (_ | _ | _ | _) | _
            all_goals cases houtput
      rw [chunkActions, forwards_append, hchar, ih]
      rfl

theorem sends_clientActions (tick : Tick) (s : Server ψ) : sends (clientActions tick s) = [] := by
  rw [clientActions]
  split
  · rfl
  · exact sends_forwards _

theorem haltActions_quiet (halt : Option Halt) :
    sends (haltActions halt) = [] ∧ forwards (haltActions halt) = [] ∧ ∀ v, Follows v (haltActions halt) v := by
  rcases halt with _ | _ | _ | _ | _
  · exact ⟨rfl, rfl, .nil⟩
  · exact ⟨rfl, rfl, .nil⟩
  all_goals exact ⟨rfl, rfl, fun v => .ends (.nil v)⟩

/-- The actions are what the server does on its way from one state to another, once it is connected. -/
structure Server.Performs (lib : MavlinkLib ψ) (s : Server ψ) (actions : List ServerAction) (s' : Server ψ) : Prop where
  own : ownSent s'.history = ownSent s.history ++ sends actions
  pieces : pieces s'.history = pieces s.history ++ forwards actions
  follows : lib.FromSystems → ∀ v, v.isSome = true → s.receiver.mav.Handshaken v →
    ∃ v', Follows v actions v' ∧ s'.receiver.mav.Handshaken v'

namespace Server.Performs

variable {s s' s'' : Server ψ} {actions actions' : List ServerAction}

theorem of_aside (h : s.Logs Aside s') : s.Performs lib [] s' := by
  obtain ⟨events, hhistory, hevents⟩ := h.history
  have hown : ownSent events = [] := ownSent_eq_nil fun e he frame heq => (heq ▸ hevents e he : Aside (.own frame))
  have hpieces : MissionServer.pieces events = [] :=
    pieces_eq_nil fun e he conn fd data heq => (heq ▸ hevents e he : Aside (.received conn fd data))
  refine ⟨?_, ?_, fun _ v _ hmav => ⟨v, .nil v, h.receiver ▸ hmav⟩⟩
  · rw [hhistory, ownSent_append, hown]
    rfl
  · rw [hhistory, pieces_append, hpieces]
    rfl

theorem refl (s : Server ψ) : s.Performs lib [] s := of_aside (.refl s)

theorem trans (h : s.Performs lib actions s') (h' : s'.Performs lib actions' s'') :
    s.Performs lib (actions ++ actions') s'' where
  own := by rw [h'.own, h.own, sends_append, List.append_assoc]
  pieces := by rw [h'.pieces, h.pieces, forwards_append, List.append_assoc]
  follows hlib v hv hmav := by
    obtain ⟨v', hfollows, hnext⟩ := h.follows hlib v hv hmav
    obtain ⟨v'', hfollows', hlast⟩ := h'.follows hlib v' (hfollows.isSome hv) hnext
    exact ⟨v'', hfollows.append hfollows', hlast⟩

theorem halts (h : s.Performs lib actions s') (halt : Option Halt) :
    s.Performs lib (actions ++ haltActions halt) s' := by
  obtain ⟨hsends, hforwards, hfollows⟩ := haltActions_quiet halt
  refine ⟨by rw [h.own, sends_append, hsends, List.append_nil],
    by rw [h.pieces, forwards_append, hforwards, List.append_nil], fun hlib v hv hmav => ?_⟩
  obtain ⟨v', hfirst, hlast⟩ := h.follows hlib v hv hmav
  exact ⟨v', hfirst.append (hfollows v'), hlast⟩

end Server.Performs

theorem handleCommandingClient_pieces (count : Int) (writes : List Int) (s : Server ψ) :
    pieces (handleCommandingClient count writes s).history = pieces s.history ++ passedOn count s := by
  rw [handleCommandingClient]
  split
  · rename_i hclients
    rw [passedOn, hclients]
    exact (List.append_nil _).symm
  · rename_i client rest hclients
    have hpassed : passedOn count s =
        if recvData s.history client.conn count = [] then [] else [recvData s.history client.conn count] := by
      rw [passedOn, hclients]
    rw [hpassed]
    -- the statics are not in the history
    have hstatics : (if s.lastCommander ≠ s.gCommandingClient then
        { s with lastCommander := s.gCommandingClient, tryout := 0 } else s).history = s.history := by
      split <;> rfl
    generalize (if s.lastCommander ≠ s.gCommandingClient then
      { s with lastCommander := s.gCommandingClient, tryout := 0 } else s) = s₁ at hstatics ⊢
    dsimp only
    rw [hstatics]
    set data := recvData s.history client.conn count
    have hreceived : pieces (s₁.log [.received client.conn client.client data]).history =
        pieces s.history ++ if data = [] then [] else [data] := by
      rw [Server.log_history, pieces_append, hstatics]
      simp only [pieces, List.filterMap_cons, List.filterMap_nil]
      split_ifs <;> rfl
    rw [← hreceived]
    generalize s₁.log [.received client.conn client.client data] = s₂
    split_ifs
    · obtain ⟨events, hhistory, hevents⟩ :=
        (Server.Logs.terminate s₂.gClients.head? 0 { s₂ with tryout := s₂.tryout + 1 }).history
      have hnone : pieces events = [] :=
        pieces_eq_nil fun e he conn fd data heq => (heq ▸ hevents e he : Aside (.received conn fd data))
      rw [hhistory, pieces_append, hnone, List.append_nil]
    · rfl
    · split
      all_goals simp [Server.log, pieces]

variable (lib) in
theorem clientEvent_performs (tick : Tick) (s : Server ψ) :
    s.Performs lib (clientActions tick s) (clientEvent tick s) := by
  rw [clientActions, clientEvent]
  cases tick.client.hupOrErr with
  | true => exact .of_aside (.terminate _ _ s)
  | false =>
      cases tick.client.pollIn with
      | false => exact .refl s
      | true =>
          have hlogs := Server.Logs.handle tick.recv tick.writes s
          obtain ⟨events, hhistory, hevents⟩ := hlogs.history
          have hown : ownSent events = [] :=
            ownSent_eq_nil fun e he frame heq => (heq ▸ hevents e he : FromHead s.gClients (.own frame))
          simp only [Bool.not_true, Bool.or_self, Bool.false_eq_true, if_false, if_true]
          refine ⟨?_, ?_, fun _ v _ hmav => ⟨v, follows_forwards _, hlogs.receiver ▸ hmav⟩⟩
          · rw [hhistory, ownSent_append, hown, sends_forwards]
          · rw [handleCommandingClient_pieces, forwards_forward]

theorem receiveChunk_performs (envs : Nat → GstEnv) (data : Bytes) (s : Server ψ) :
    s.Performs lib (chunkActions lib envs data s.receiver) (receiveChunk lib envs data s) := by
  obtain ⟨-, hreceiver, -⟩ := receiveChunk_spec lib envs data s
  have hhistory : (receiveChunk lib envs data s).history =
      s.history ++ (.chunk data :: ownFrames (readMavlinkMsg lib envs data s.receiver).2) := by
    rw [receiveChunk]
    dsimp only
    split <;> rfl
  have hown : ownSent (.chunk data :: ownFrames (readMavlinkMsg lib envs data s.receiver).2) =
      ownSent (ownFrames (readMavlinkMsg lib envs data s.receiver).2) := rfl
  have hpieces : pieces (.chunk data :: ownFrames (readMavlinkMsg lib envs data s.receiver).2) =
      pieces (ownFrames (readMavlinkMsg lib envs data s.receiver).2) := rfl
  refine ⟨?_, ?_, fun hlib v _ hmav => ?_⟩
  · rw [hhistory, ownSent_append, hown, ownSent_ownFrames, sends_chunkActions]
  · rw [hhistory, pieces_append, hpieces, pieces_ownFrames, forwards_chunkActions]
  rw [hreceiver]
  exact chunkActions_follows hlib envs data hmav

theorem serialEvent_performs (sigpipeIgnored : Bool) (tick : Tick) {s : Server ψ} (hlive : s.halt = none) :
    s.Performs lib (serialActions lib tick s) (serialEvent sigpipeIgnored lib tick s) := by
  rw [serialActions, serialEvent]
  rw [hlive]
  cases tick.serial with
  | false => exact .refl s
  | true =>
      rw [sendDataToClients]
      simp only [Option.isSome_none, Bool.not_true, Bool.or_self, Bool.false_eq_true, if_false, if_true]
      obtain _ | data := serialRead gCacheSize tick.serialData
      · exact .refl s
      · obtain _ | ⟨byte, bytes⟩ := data
        · exact .refl s
        · have hchunk : s.Performs lib _ (receiveChunk lib tick.envs (byte :: bytes) s) :=
            receiveChunk_performs tick.envs (byte :: bytes) s
          have hbroadcast : (receiveChunk lib tick.envs (byte :: bytes) s).Logs Aside
              ((receiveChunk lib tick.envs (byte :: bytes) s).andThen fun s =>
                broadcast sigpipeIgnored (byte :: bytes) tick.sends s.gClients.head? 0 s) :=
            (Server.Logs.refl _).andThen (.broadcast _ _ _ _ _ _)
          have hboth := hchunk.trans (.of_aside hbroadcast)
          rwa [List.append_nil] at hboth

/-- Once it is connected a user's command sends nothing as the camera. -/
theorem userCmdEvent_performs (tick : Tick) {s : Server ψ} (hlive : s.halt = none) :
    s.Performs lib (userCmdActions tick s) (userCmdEvent tick s) := by
  rw [userCmdActions, userCmdEvent]
  rw [hlive]
  cases tick.userCmd with
  | false => exact .refl s
  | true =>
      simp only [Option.isSome_none, Bool.not_true, Bool.or_self, Bool.false_eq_true, if_false, if_true]
      refine ⟨?_, ?_, fun _ v hv hmav => ⟨v, follows_sends fun frame hframe => ?_, hmav⟩⟩
      · rw [sends_send, readUserCmdEvent, Server.log_history, ownSent_append, ownSent_own]
      · rw [forwards_sends, readUserCmdEvent, Server.log_history, pieces_append, pieces_own]
      · obtain ⟨userCmd, -, hsent⟩ := List.mem_flatMap.mp hframe
        have hcomponent : frame.componentId = mavCompIdOnboardComputer := by
          unfold selectAction mavlinkSendPlayTune at hsent
          split_ifs at hsent
          · simp at hsent
          · obtain rfl := List.mem_singleton.mp hsent
            rfl
          · simp at hsent
        refine ⟨fun hcamera => absurd (hcomponent.symm.trans hcamera) (by decide), fun hnone => ?_⟩
        rw [hnone] at hv
        cases hv

theorem Server.Performs.andThen {f : Server ψ → Server ψ} {s : Server ψ} {actions : List ServerAction}
    (hlive : s.halt = none → s.Performs lib actions (f s)) (hhalted : s.halt.isSome = true → actions = []) :
    s.Performs lib actions (s.andThen f) := by
  rw [Server.andThen]
  split
  · rw [hhalted ‹_›]
    exact .refl s
  · exact hlive (Option.not_isSome_iff_eq_none.mp ‹_›)

variable (sigpipeIgnored : Bool)

theorem mainLoop_performs (s : Server ψ) (tick : Tick) :
    s.Performs lib (tickActions sigpipeIgnored lib s tick) (mainLoop sigpipeIgnored lib s tick) := by
  refine .andThen (fun hlive => ?_) fun hhalted => if_pos hhalted
  rw [tickActions, hlive]
  simp only [Option.isSome_none, Bool.false_eq_true, if_false]
  split_ifs
  · exact (Server.Performs.of_aside (.stopped tick s)).halts (some .stopped)
  · unfold handleEvents
    have hclient : s.Performs lib (clientActions tick (atPoll tick s)) (clientEvent tick (atPoll tick s)) := by
      have hboth := (Server.Performs.of_aside (.polled tick s)).trans (clientEvent_performs lib tick _)
      rwa [List.nil_append] at hboth
    have hfront : s.Performs lib (clientActions tick (atPoll tick s)) (untilSerial tick (atPoll tick s)) := by
      have hserver : (clientEvent tick (atPoll tick s)).Logs Aside (untilSerial tick (atPoll tick s)) :=
        (Server.Logs.refl _).andThen (.server tick _)
      have hboth := hclient.trans (.of_aside hserver)
      rwa [List.append_nil] at hboth
    generalize clientActions tick (atPoll tick s) = forwarded at hfront ⊢
    generalize untilSerial tick (atPoll tick s) = s₁ at hfront ⊢
    have hserial : s₁.Performs lib (serialActions lib tick s₁) (s₁.andThen (serialEvent sigpipeIgnored lib tick)) :=
      .andThen (serialEvent_performs sigpipeIgnored tick) fun hhalted => by simp [serialActions, hhalted]
    generalize s₁.andThen (serialEvent sigpipeIgnored lib tick) = s₂ at hserial ⊢
    have huserCmd : s₂.Performs lib (userCmdActions tick s₂) (s₂.andThen (userCmdEvent tick)) :=
      .andThen (userCmdEvent_performs tick) fun hhalted => by simp [userCmdActions, hhalted]
    have hpromote : (s₂.andThen (userCmdEvent tick)).Logs Aside ((s₂.andThen (userCmdEvent tick)).andThen promote) :=
      (Server.Logs.refl _).andThen (.promoted _)
    have hbody := (hfront.trans hserial).trans huserCmd
    have hwhole := (hbody.trans (.of_aside hpromote)).halts s₂.halt
    rwa [List.append_nil] at hwhole

/-- What the server's thread does in the main loop is what the history shows of it. -/
theorem mainLoopActions_performs (ticks : List Tick) (s : Server ψ) :
    s.Performs lib (mainLoopActions sigpipeIgnored lib ticks s)
      (Machine.run (mainLoop sigpipeIgnored lib) s ticks) := by
  induction ticks generalizing s with
  | nil => exact .refl s
  | cons tick ticks ih => exact (mainLoop_performs sigpipeIgnored s tick).trans (ih _)

/-- The whole program is in keeping with the handshake. -/
theorem serverActions_follows (hlib : lib.FromSystems) (inputs : List SerialInput) (ticks : List Tick)
    {r : Receiver ψ} (h : r.mav.Handshaken none) :
    ∃ v, Follows none (serverActions sigpipeIgnored lib inputs ticks r) v := by
  obtain ⟨v, hfollows, hmav⟩ := connectionLoop_follows hlib inputs h
  unfold serverActions
  dsimp only
  split_ifs with hconnected
  · have hv : v.isSome = true := hmav.serialIsReady.symm.trans hconnected
    have hloop : (Server.start (connectionLoop lib inputs r).1).Performs lib _ _ :=
      mainLoopActions_performs sigpipeIgnored ticks _
    obtain ⟨v', hfollows', -⟩ := hloop.follows hlib v hv hmav
    exact ⟨v', hfollows.append hfollows'⟩
  · exact ⟨v, hfollows.append (.nil v)⟩

end Loop

end MissionServer
