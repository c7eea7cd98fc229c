import MissionServer.Proof.ServerActions

/-!
# Answers before the version

Every handler can be reached from the connection loop. Whether the server answers as the camera before it has
handled an AUTOPILOT_VERSION can be told from the messages in the bytes that it reads until then: from which of
the two comes first, a version or a COMMAND_LONG that is acknowledged.
-/

namespace MissionServer

variable {ψ : Type}

inductive FirstCome
  | version
  | answer
  deriving DecidableEq, Repr

/-! ### Among the messages -/

/-- The messages in a stream of bytes. -/
def MavlinkLib.messages (lib : MavlinkLib ψ) : ψ → Bytes → List MavlinkMessage
  | _, [] => []
  | status, byte :: bytes =>
      (lib.parseChar status byte).2.toList ++ lib.messages (lib.parseChar status byte).1 bytes

/-- A COMMAND_LONG that `mav_command_long` acknowledges. -/
def MavlinkLib.isAnswered (lib : MavlinkLib ψ) (msg : MavlinkMessage) : Prop :=
  msg.msgid = commandLongId ∧ (lib.commandLongDecode msg).command ∈ acknowledgedCommands

/-- A command that is acknowledged comes before the first AUTOPILOT_VERSION. -/
def CommandBeforeVersion (lib : MavlinkLib ψ) (status : ψ) (bytes : Bytes) : Prop :=
  ∃ before msg after, lib.messages status bytes = before ++ msg :: after ∧
    (∀ earlier ∈ before, earlier.msgid ≠ autopilotVersionId) ∧ lib.isAnswered msg

/-- What the connection loop can read. -/
def connectionBytes (inputs : List SerialInput) : Bytes :=
  inputs.flatMap fun input => (serialRead gCacheSize input.data).getD []

instance (lib : MavlinkLib ψ) (msg : MavlinkMessage) : Decidable (lib.isAnswered msg) :=
  inferInstanceAs (Decidable (_ ∧ _))

def MavlinkLib.comes (lib : MavlinkLib ψ) (msg : MavlinkMessage) : Option FirstCome :=
  if msg.msgid = autopilotVersionId then some .version else if lib.isAnswered msg then some .answer else none

/-! ### Among the actions -/

def ServerAction.comes : ServerAction → Option FirstCome
  | .assign (.sysid _) => some .version
  | .send frame => if frame.componentId = mavCompIdCamera then some .answer else none
  | _ => none

theorem findSome?_answer_iff {α : Type*} (comes : α → Option FirstCome) (xs : List α) :
    xs.findSome? comes = some .answer ↔ ∃ before x after, xs = before ++ x :: after ∧
      (∀ y ∈ before, comes y ≠ some .version) ∧ comes x = some .answer := by
  constructor
  · intro h
    obtain ⟨before, x, after, hsplit, hx, hbefore⟩ := List.findSome?_eq_some_iff.mp h
    exact ⟨before, x, after, hsplit, fun y hy => by simp [hbefore y hy], hx⟩
  · intro h
    obtain ⟨before, x, after, rfl, hbefore, hx⟩ := h
    induction before with
    | nil => rw [List.nil_append, List.findSome?_cons, hx]
    | cons y before ih =>
        obtain ⟨hy, hrest⟩ := List.forall_mem_cons.mp hbefore
        rw [List.cons_append, List.findSome?_cons]
        split
        · rename_i first hfirst
          cases first with
          | version => exact absurd hfirst hy
          | answer => rfl
        · exact ih hrest

theorem commandBeforeVersion_iff (lib : MavlinkLib ψ) (status : ψ) (bytes : Bytes) :
    CommandBeforeVersion lib status bytes ↔ (lib.messages status bytes).findSome? lib.comes = some .answer := by
  rw [findSome?_answer_iff]
  have hversion (msg : MavlinkMessage) : lib.comes msg ≠ some .version ↔ msg.msgid ≠ autopilotVersionId := by
    rw [MavlinkLib.comes]
    split_ifs <;> simp [*]
  have hanswer (msg : MavlinkMessage) : lib.comes msg = some .answer ↔ lib.isAnswered msg := by
    rw [MavlinkLib.comes]
    split_ifs with hmsg hanswered
    · refine iff_of_false (by simp) fun hanswered => ?_
      exact absurd (hanswered.1.symm.trans hmsg) (by decide)
    · exact iff_of_true rfl hanswered
    · exact iff_of_false (by simp) hanswered
  simp only [hversion, hanswer]
  rfl

section Program

variable {lib : MavlinkLib ψ}

theorem comes_outputs {out : List MavOutput} (h : ∀ frame ∈ sentFrames out, frame.componentId = mavCompIdCamera) :
    (out.filterMap outputAction).findSome? ServerAction.comes = if sentFrames out = [] then none else some .answer := by
  induction out with
  | nil => rfl
  | cons output out ih =>
      cases output with
      | frame frame =>
          have hframe := (List.forall_mem_cons.mp h).1
          have hfirst : ServerAction.comes (.send frame) = some .answer := if_pos hframe
          have houtput : outputAction (.frame frame) = some (.send frame) := rfl
          rw [List.filterMap_cons_some houtput, List.findSome?_cons, hfirst]
          rfl
      | device output =>
          have hrest := ih h
          cases output <;> exact hrest

theorem parseMavlinkMsg_silent (lib : MavlinkLib ψ) (env : GstEnv) {msg : MavlinkMessage}
    (hmsg : msg.msgid ≠ commandLongId) (m : Mav) : sentFrames (parseMavlinkMsg lib env msg m).2 = [] := by
  rw [parseMavlinkMsg]
  split
  · rename_i handler hlookup
    obtain ⟨before, after, hsplit, -⟩ := List.lookup_eq_some_iff.mp hlookup
    have hmem : (msg.msgid, handler) ∈ fcuCmds lib env := by simp [hsplit]
    simp only [fcuCmds, List.mem_cons, Prod.mk.injEq, List.not_mem_nil, or_false] at hmem
    obtain ⟨-, rfl⟩ | ⟨-, rfl⟩ | ⟨-, rfl⟩ | ⟨hid, -⟩ | ⟨-, rfl⟩ := hmem
    · rfl
    · rfl
    · exact (silent_rules.mavFcuRcChannels env _).sentFrames_eq_nil m
    · exact absurd hid hmsg
    · rfl
  · rfl

/-- A message is answered where it is an acknowledged command, and at no other time. -/
theorem comes_messageActions (env : GstEnv) (msg : MavlinkMessage) (m : Mav) :
    (messageActions lib env msg m).findSome? ServerAction.comes = lib.comes msg := by
  rw [messageActions, MavlinkLib.comes]
  by_cases hmsg : msg.msgid = autopilotVersionId
  · rw [if_pos hmsg, if_pos hmsg]
    rfl
  rw [if_neg hmsg, if_neg hmsg]
  have hcamera := parseMavlinkMsg_asCamera lib env hmsg
  rw [comes_outputs fun frame hframe => (hcamera.frames m frame hframe).1]
  by_cases hcommand : msg.msgid = commandLongId
  · have hparse : parseMavlinkMsg lib env msg m =
        mavCommandLong env (lib.commandLongDecode msg).command msg.sysid msg.compid m := by
      rw [parseMavlinkMsg, hcommand]
      rfl
    have hmessages := mavCommandLong_messages env (lib.commandLongDecode msg).command msg.sysid msg.compid m
    rw [← hparse] at hmessages
    by_cases hack : (lib.commandLongDecode msg).command ∈ acknowledgedCommands
    · rw [if_pos hack] at hmessages
      obtain ⟨replies, hbodies, -⟩ := hmessages
      have hsome : sentFrames (parseMavlinkMsg lib env msg m).2 ≠ [] := by
        intro hnone
        rw [hnone] at hbodies
        cases hbodies
      rw [if_neg hsome, if_pos ⟨hcommand, hack⟩]
    · rw [if_neg hack] at hmessages
      rw [if_pos hmessages, if_neg fun hanswered => hack hanswered.2]
  · rw [if_neg (show ¬ lib.isAnswered msg from fun hanswered => hcommand hanswered.1), if_pos]
    exact parseMavlinkMsg_silent lib env hcommand m

theorem comes_chunkActions (envs : Nat → GstEnv) (data : Bytes) (r : Receiver ψ) :
    (chunkActions lib envs data r).findSome? ServerAction.comes =
      (lib.messages r.fcuStatus data).findSome? lib.comes := by
  induction data generalizing envs r with
  | nil => rfl
  | cons byte bytes ih =>
      rw [chunkActions, MavlinkLib.messages, List.findSome?_append, List.findSome?_append, ih, charActions,
        readMavlinkChar]
      obtain ⟨status, _ | msg⟩ := lib.parseChar r.fcuStatus byte
      · rfl
      · dsimp only
        rw [comes_messageActions, Option.toList_some, List.findSome?_singleton]

theorem messages_append (lib : MavlinkLib ψ) (envs : Nat → GstEnv) (data rest : Bytes) (r : Receiver ψ) :
    lib.messages r.fcuStatus (data ++ rest) =
      lib.messages r.fcuStatus data ++ lib.messages (readMavlinkMsg lib envs data r).1.fcuStatus rest := by
  induction data generalizing envs r with
  | nil => rfl
  | cons byte bytes ih =>
      have hstatus : (readMavlinkChar lib (envs 0) byte r).1.fcuStatus = (lib.parseChar r.fcuStatus byte).1 := by
        rw [readMavlinkChar]
        split <;> simp [*]
      rw [List.cons_append, MavlinkLib.messages, MavlinkLib.messages, List.append_assoc, ← hstatus,
        ih (fun i => envs (i + 1))]
      rfl

/-- The connection is established by a version. -/
theorem Follows.comes {actions : List ServerAction} {v v' : Option UInt8} (h : Follows v actions v') (hv : v = none)
    (hv' : v'.isSome = true) : (actions.findSome? ServerAction.comes).isSome = true := by
  induction h with
  | nil =>
      rw [hv] at hv'
      cases hv'
  | ready _ ih => exact ih hv hv'
  | sysid _ _ => rfl
  | send _ _ ih =>
      rw [List.findSome?_cons]
      split
      · rfl
      · exact ih hv hv'
  | forward _ ih => exact ih hv hv'
  | ends _ ih => exact ih hv hv'

theorem comes_connectionLoop (hlib : lib.FromSystems) (inputs : List SerialInput) {r : Receiver ψ}
    (h : r.mav.Handshaken none) :
    (connectionLoop lib inputs r).2.findSome? ServerAction.comes =
      (lib.messages r.fcuStatus (connectionBytes inputs)).findSome? lib.comes := by
  induction inputs generalizing r with
  | nil => rfl
  | cons input inputs ih =>
      have hwaiting : ¬ flightControllerConnected r.mav = true := by
        rw [flightControllerConnected, h.serialIsReady]
        exact Bool.false_ne_true
      have hrequest : ((mavlinkSendRequestAutopilotCapabilities r.mav.fcuSysid).map ServerAction.send).findSome?
          ServerAction.comes = none := rfl
      have hbytes : connectionBytes (input :: inputs) =
          (serialRead gCacheSize input.data).getD [] ++ connectionBytes inputs := List.flatMap_cons
      rw [connectionLoop, if_neg hwaiting, hbytes]
      cases serialRead gCacheSize input.data with
      | none =>
          dsimp only
          rw [List.findSome?_append, hrequest, Option.none_or, Option.getD_none, List.nil_append]
          exact ih h
      | some data =>
          dsimp only
          rw [Option.getD_some, messages_append lib input.envs, List.findSome?_append, List.findSome?_append,
            List.findSome?_append, hrequest, Option.none_or, comes_chunkActions]
          obtain ⟨v, hfollows, hnext⟩ := chunkActions_follows hlib input.envs data h
          cases v with
          | none => rw [ih hnext]
          | some id =>
              have hsome := hfollows.comes rfl rfl
              rw [comes_chunkActions] at hsome
              rw [Option.or_of_isSome hsome, Option.or_of_isSome hsome]

/-- The whole program answers first, before any version, exactly where an acknowledged command comes first. -/
theorem comes_serverActions (sigpipeIgnored : Bool) (hlib : lib.FromSystems) (inputs : List SerialInput)
    (ticks : List Tick) {r : Receiver ψ} (h : r.mav.Handshaken none) :
    (serverActions sigpipeIgnored lib inputs ticks r).findSome? ServerAction.comes =
      (lib.messages r.fcuStatus (connectionBytes inputs)).findSome? lib.comes := by
  have hloop := comes_connectionLoop hlib inputs h
  obtain ⟨v, hfollows, hmav⟩ := connectionLoop_follows hlib inputs h
  rw [serverActions]
  split_ifs with hconnected
  · have hsome := hfollows.comes rfl (hmav.serialIsReady.symm.trans hconnected)
    rw [List.findSome?_append, Option.or_of_isSome hsome, hloop]
  · rw [List.append_nil, hloop]

end Program

end MissionServer
