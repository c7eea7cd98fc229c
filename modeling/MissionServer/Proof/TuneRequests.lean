import MissionServer.Main
import MissionServer.Proof.ServerActions
import MissionServer.Proof.UserCmd

/-!
# Tune requests, from the command line to the flight controller

Any number of processes ask for tunes over the command FIFO, each with one write, while the server runs. The kernel
keeps writes of this size whole and gives a read what is there, up to what it asks for.
-/

namespace MissionServer

/-! ### The options -/

def Opt.tune : Opt → Option (Option String)
  | .sendTune optarg => some optarg
  | _ => none

def Opt.netPort : Opt → Option String
  | .port optarg => some optarg
  | _ => none

/-- What the loop makes of its options: each one overrides those before it, and `-h` all others. -/
theorem readOptions_eq (opts : List Opt) (args : MainArgs) :
    readOptions opts args =
      if .help ∈ opts then none
      else some
        { commanderMode := args.commanderMode || (opts.filterMap Opt.tune).getLast?.isSome
          netPort := (opts.filterMap Opt.netPort).getLast?.or args.netPort
          cmdArg := (opts.filterMap Opt.tune).getLast?.getD args.cmdArg } := by
  induction opts generalizing args with
  | nil => simp [readOptions]
  | cons opt opts ih =>
      cases opt with
      | help => simp [readOptions]
      | port optarg =>
          rw [readOptions, ih]
          cases hports : opts.filterMap Opt.netPort <;> simp [Opt.tune, Opt.netPort, hports, List.getLast?_cons]
      | sendTune optarg =>
          rw [readOptions, ih]
          cases htunes : opts.filterMap Opt.tune <;> simp [Opt.tune, Opt.netPort, htunes, List.getLast?_cons]
      | printRc =>
          rw [readOptions, ih]
          simp [Opt.tune, Opt.netPort]
      | other =>
          rw [readOptions, ih]
          simp [Opt.tune, Opt.netPort]

/-- The last `-t` names the tune, wherever it stands, and without one the program is the server. -/
theorem mainMode_eq (opts : List Opt) :
    mainMode opts =
      if .help ∈ opts then .usage
      else
        match (opts.filterMap Opt.tune).getLast? with
        | some command => .commander command
        | none => .server (opts.filterMap Opt.netPort).getLast? := by
  rw [mainMode, readOptions_eq]
  by_cases hhelp : .help ∈ opts
  · rw [if_pos hhelp, if_pos hhelp]
  · rw [if_neg hhelp, if_neg hhelp]
    cases (opts.filterMap Opt.tune).getLast? <;> simp

/-! ### The record of a request -/

theorem getD_bytesLE32 (x : Int32) {i : Nat} (hi : i < 4) :
    ((bytesLE32 x).getD i 0).toNat = x.toBitVec.toNat / 2 ^ (8 * i) % 256 := by
  have hget : (bytesLE32 x).getD i 0 = UInt8.ofNat (x.toBitVec.toNat / 2 ^ (8 * i)) := by
    simp [bytesLE32, hi]
  rw [hget, UInt8.toNat_ofNat']

theorem Stack.int_store (stack : Stack) (off : Int) (x : Int32) : (stack.store off (bytesLE32 x)).int off = x := by
  have hlen : (bytesLE32 x).length = 4 := rfl
  have hbyte : ∀ i : Nat, i < 4 →
      ((stack.store off (bytesLE32 x)) (off + i)).toNat = x.toBitVec.toNat / 2 ^ (8 * i) % 256 := by
    intro i hi
    rw [Stack.store_of_mem (by omega) (by rw [hlen]; omega), show (off + i - off).toNat = i by omega,
      getD_bytesLE32 x hi]
  have hzero := hbyte 0 (by decide)
  have hone := hbyte 1 (by decide)
  have htwo := hbyte 2 (by decide)
  have hthree := hbyte 3 (by decide)
  simp only [Nat.cast_zero, Nat.cast_one, Nat.cast_ofNat, add_zero] at hzero hone htwo hthree
  have hlt := x.toBitVec.isLt
  rw [Stack.int, hzero, hone, htwo, hthree]
  have hsum : x.toBitVec.toNat / 2 ^ (8 * 0) % 256 + 256 * (x.toBitVec.toNat / 2 ^ (8 * 1) % 256 +
      256 * (x.toBitVec.toNat / 2 ^ (8 * 2) % 256 + 256 * (x.toBitVec.toNat / 2 ^ (8 * 3) % 256))) =
      x.toBitVec.toNat := by
    omega
  rw [hsum, BitVec.ofNat_toNat, BitVec.setWidth_eq, Int32.ofBitVec_toBitVec]

theorem Stack.int_store_of_before (stack : Stack) (off off' : Int) (bytes : Bytes) (h : off + 4 ≤ off') :
    (stack.store off' bytes).int off = stack.int off := by
  rw [Stack.int, Stack.int, Stack.store_of_lt (by omega), Stack.store_of_lt (by omega), Stack.store_of_lt (by omega),
    Stack.store_of_lt (by omega)]

theorem toInt_ofInt_atoi (command : String) : (Int32.ofInt (atoi command)).toInt = atoi command := by
  rw [Int32.toInt_ofInt, atoi]
  exact Int.bmod_bmod

theorem commanderCmd_spec (stack : Stack) (command : String) :
    (commanderCmd stack command).userCmd.type = playTuneCmd ∧
      (commanderCmd stack command).userCmd.arg0.toInt = atoi command := by
  constructor
  · have hint := Stack.int_store_of_before (stack.store 0 (bytesLE32 playTuneCmd)) 0 4
      (bytesLE32 (Int32.ofInt (atoi command))) (by decide)
    exact hint.trans (Stack.int_store _ _ _)
  · have hint : (commanderCmd stack command).userCmd.arg0 = Int32.ofInt (atoi command) := Stack.int_store _ 4 _
    rw [hint, toInt_ofInt_atoi]

/-! ### The counter of read_user_cmd

No other function touches it. -/

section Counter

variable {ψ : Type}

theorem peerActs_received (acts : List PeerAct) (s : Server ψ) :
    (peerActs acts s).userCmdReceived = s.userCmdReceived := by
  induction acts generalizing s with
  | nil => rfl
  | cons act acts ih => exact ih (peerAct act s)

theorem terminateClient_received (node : Option ClientNode) (pointer : Nat) (s : Server ψ) :
    (terminateClient node pointer s).1.userCmdReceived = s.userCmdReceived := by
  unfold terminateClient
  split
  · rfl
  · split <;> rfl

theorem terminateClients_received (s : Server ψ) : (terminateClients s).userCmdReceived = s.userCmdReceived := by
  rw [terminateClients]
  generalize s.gClients = clients
  induction clients generalizing s with
  | nil => rfl
  | cons client clients ih => exact (ih _).trans (terminateClient_received _ _ s)

theorem acceptClient_received (outcome : AcceptOutcome) (s : Server ψ) :
    (acceptClient outcome s).userCmdReceived = s.userCmdReceived := by
  rw [acceptClient]
  split
  · rfl
  · rfl
  · dsimp only
    split_ifs <;> rfl

theorem handleCommandingClient_received (count : Int) (writes : List Int) (s : Server ψ) :
    (handleCommandingClient count writes s).userCmdReceived = s.userCmdReceived := by
  rw [handleCommandingClient]
  split
  · rfl
  · have hstatics : (if s.lastCommander ≠ s.gCommandingClient then
        { s with lastCommander := s.gCommandingClient, tryout := 0 } else s).userCmdReceived = s.userCmdReceived := by
      split <;> rfl
    refine Eq.trans ?_ hstatics
    generalize (if s.lastCommander ≠ s.gCommandingClient then
      { s with lastCommander := s.gCommandingClient, tryout := 0 } else s) = s₁
    dsimp only
    split_ifs
    · exact terminateClient_received _ _ _
    · rfl
    · split <;> rfl

theorem untilSerial_received (tick : Tick) (s : Server ψ) :
    (untilSerial tick s).userCmdReceived = s.userCmdReceived := by
  have hclient : (clientEvent tick s).userCmdReceived = s.userCmdReceived := by
    rw [clientEvent]
    split_ifs
    · exact terminateClient_received _ _ s
    · exact handleCommandingClient_received _ _ s
    · rfl
  rw [untilSerial, Server.andThen]
  split
  · exact hclient
  · rw [serverEvent]
    split_ifs
    · exact (acceptClient_received _ _).trans hclient
    · exact hclient

theorem broadcast_received (sigpipeIgnored : Bool) (data : Bytes) (sends : List (List SendOutcome))
    (current : Option ClientNode) (previous : Nat) (s : Server ψ) :
    (broadcast sigpipeIgnored data sends current previous s).userCmdReceived = s.userCmdReceived := by
  induction sends generalizing current previous s with
  | nil => cases current <;> rfl
  | cons outcomes sends ih =>
      cases current with
      | none => rfl
      | some current =>
          have hsend : ∀ off outcome (s' : Server ψ), s'.userCmdReceived = s.userCmdReceived →
              (sendCall sigpipeIgnored data current off outcome s').1.userCmdReceived = s.userCmdReceived := by
            intro off outcome s' hs'
            have hpeers := (peerActs_received outcome.peers s').trans hs'
            rw [sendCall]
            dsimp only
            split_ifs
            all_goals exact hpeers
          have hpush := PushLoop.push_invariant (sendCall sigpipeIgnored data current) data.length
            (P := fun s' : Server ψ => s'.userCmdReceived = s.userCmdReceived) hsend 0 outcomes rfl
          rw [broadcast]
          split
          · rename_i heq
            rw [heq] at hpush
            exact (ih _ _ _).trans hpush
          · rename_i s' heq
            rw [heq] at hpush
            split
            · exact hpush
            · have hterminate := terminateClient_received (some current) previous s'
              revert hterminate
              obtain ⟨s₁, next⟩ := terminateClient (some current) previous s'
              exact fun hterminate => ((ih next previous s₁).trans hterminate).trans hpush
          · rename_i heq
            rw [heq] at hpush
            exact hpush

theorem serialEvent_received (sigpipeIgnored : Bool) (lib : MavlinkLib ψ) (tick : Tick) (s : Server ψ) :
    (serialEvent sigpipeIgnored lib tick s).userCmdReceived = s.userCmdReceived := by
  have hchunk : ∀ data, (receiveChunk lib tick.envs data s).userCmdReceived = s.userCmdReceived := by
    intro data
    rw [receiveChunk]
    dsimp only
    split <;> rfl
  rw [serialEvent]
  split
  · rw [sendDataToClients]
    split
    · rfl
    · rfl
    · rw [Server.andThen]
      split
      · exact hchunk _
      · exact (broadcast_received _ _ _ _ _ _).trans (hchunk _)
  · rfl

theorem promote_received (s : Server ψ) : (promote s).userCmdReceived = s.userCmdReceived := by
  rw [promote]
  split
  · rfl
  · split <;> rfl

end Counter

/-! ### The system -/

/-- What a run of the program asks the server for, with the memory that its record is put together in. -/
structure TuneRequest where
  stack : Stack
  command : String

def TuneRequest.record (request : TuneRequest) : Bytes :=
  (List.range sizeofMavlinkCmd).map fun (i : Nat) => commanderCmd request.stack request.command i

/-- The tune that a request names, if it is one of the table. -/
def TuneRequest.tune (request : TuneRequest) : Option String :=
  if 0 ≤ atoi request.command ∧ atoi request.command < tuneCnt then tuneTable[(atoi request.command).toNat]? else none

/-- The program is run with some options, or the server's loop goes round. -/
inductive TuneEvent
  | process (opts : List Opt) (stack : Stack)
  | tick (tick : Tick)

/-- A server, and what the command FIFO holds. -/
structure TuneSystem (ψ : Type) where
  server : Server ψ
  fifo : Bytes := []

section System

variable {ψ : Type} (sigpipeIgnored : Bool) (lib : MavlinkLib ψ)

/-- The server on its way to the user's command. -/
def beforeUserCmd (tick : Tick) (s : Server ψ) : Server ψ :=
  (untilSerial tick (atPoll tick s)).andThen (serialEvent sigpipeIgnored lib tick)

/-- The iteration gets as far as `read_user_cmd`. -/
def readsUserCmd (tick : Tick) (s : Server ψ) : Bool :=
  s.halt.isNone && !(tick.fails || tick.close) && (beforeUserCmd sigpipeIgnored lib tick s).halt.isNone && tick.userCmd

/-- `poll` reports the FIFO only where it holds something, and `read` gets that. -/
def TuneSystem.polled (s : TuneSystem ψ) (tick : Tick) : Tick :=
  { tick with userCmd := tick.userCmd && !s.fifo.isEmpty, fifo := some s.fifo }

def TuneSystem.next (s : TuneSystem ψ) : TuneEvent → TuneSystem ψ
  | .process opts stack =>
      match mainMode opts with
      | .commander command =>
          match runCommander true stack command with
          | .sent written => { s with fifo := s.fifo ++ written }
          | _ => s
      | _ => s
  | .tick tick =>
      { server := mainLoop sigpipeIgnored lib s.server (s.polled tick)
        fifo :=
          if readsUserCmd sigpipeIgnored lib (s.polled tick) s.server then
            s.fifo.drop (userCmdSize s.server.userCmdReceived)
          else s.fifo }

end System

def TuneEvent.request : TuneEvent → Option TuneRequest
  | .process opts stack =>
      match mainMode opts with
      | .commander (some command) => some ⟨stack, command⟩
      | _ => none
  | .tick _ => none

/-- The tunes the server has sent for its users. -/
def tuneOf (frame : MavlinkFrame) : Option String :=
  if frame.componentId = mavCompIdOnboardComputer then
    match frame.body with
    | .playTune body => some body.tune
    | _ => none
  else none

def tunes (h : History) : List String := (ownSent h).filterMap tuneOf

/-! ### Tunes and other messages -/

section Loop

variable {ψ : Type} {lib : MavlinkLib ψ}

theorem readMavlinkMsg_asCamera (envs : Nat → GstEnv) (data : Bytes) (r : Receiver ψ) :
    ∀ frame ∈ sentFrames (readMavlinkMsg lib envs data r).2, frame.componentId = mavCompIdCamera := by
  apply forall_sentFrames_readMavlinkMsg
  intro env msg m frame hframe
  by_cases hmsg : msg.msgid = 148
  · rw [parseMavlinkMsg_version lib env hmsg] at hframe
    exact absurd hframe List.not_mem_nil
  · exact ((parseMavlinkMsg_asCamera lib env hmsg).frames m frame hframe).1

theorem tunes_serialActions (tick : Tick) (s : Server ψ) :
    (sends (serialActions lib tick s)).filterMap tuneOf = [] := by
  rw [List.filterMap_eq_nil_iff]
  intro frame hframe
  rw [serialActions] at hframe
  split_ifs at hframe
  · exact absurd hframe List.not_mem_nil
  · cases hdata : serialRead gCacheSize tick.serialData with
    | none =>
        rw [hdata] at hframe
        exact absurd hframe List.not_mem_nil
    | some data =>
        rw [hdata] at hframe
        dsimp only at hframe
        rw [sends_chunkActions] at hframe
        rw [tuneOf, readMavlinkMsg_asCamera tick.envs data s.receiver frame hframe, if_neg (by decide)]

theorem selectAction_asOnboardComputer {fcuSysid : UInt8} {userCmd : MavlinkCmd} :
    ∀ frame ∈ selectAction fcuSysid userCmd, frame.componentId = mavCompIdOnboardComputer := by
  intro frame hframe
  unfold selectAction mavlinkSendPlayTune at hframe
  split_ifs at hframe
  · exact absurd hframe List.not_mem_nil
  · obtain rfl := List.mem_singleton.mp hframe
    rfl
  · exact absurd hframe List.not_mem_nil

/-- The request that the FIFO begins with is executed, whatever the stack holds. -/
theorem readUserCmd_record (stack : Stack) (request : TuneRequest) :
    ∃ userCmd, readUserCmd stack (some request.record) 0 = (0, some userCmd) ∧
      ∀ fcuSysid, (selectAction fcuSysid userCmd).filterMap tuneOf = request.tune.toList := by
  have hlen : request.record.length = sizeofMavlinkCmd := by
    rw [TuneRequest.record, List.length_map, List.length_range]
  have hsame : (stack.store 0 request.record).userCmd = (commanderCmd request.stack request.command).userCmd := by
    apply Stack.userCmd_congr
    intro i hlow hhigh
    rw [Stack.store_of_mem hlow (by rw [hlen]; omega), TuneRequest.record]
    have hindex : (i - 0).toNat < sizeofMavlinkCmd := by
      omega
    rw [List.getD_eq_getElem?_getD, List.getElem?_map, List.getElem?_range hindex]
    simp [hlow]
  obtain ⟨htype, harg⟩ := commanderCmd_spec request.stack request.command
  refine ⟨(stack.store 0 request.record).userCmd, ?_, fun fcuSysid => ?_⟩
  · simp only [readUserCmd, hlen]
    rw [if_pos (by decide)]
  · rw [hsame]
    obtain ⟨hplayed, hother⟩ := tuneSent fcuSysid _ htype
    rw [harg] at hplayed hother
    rw [TuneRequest.tune]
    split_ifs with hrange
    · obtain ⟨tune, htune, hbody⟩ := hplayed hrange
      obtain ⟨frame, hframe, hframeBody⟩ := List.map_eq_singleton_iff.mp hbody
      have hcomponent : frame.componentId = mavCompIdOnboardComputer :=
        selectAction_asOnboardComputer frame (hframe ▸ List.mem_singleton_self frame)
      rw [hframe, htune, List.filterMap_cons_some, List.filterMap_nil, Option.toList_some]
      rw [tuneOf, if_pos hcomponent, hframeBody]
    · rw [hother hrange]
      rfl

variable (sigpipeIgnored : Bool)

variable (lib) in
theorem beforeUserCmd_received (tick : Tick) (s : Server ψ) :
    (beforeUserCmd sigpipeIgnored lib tick s).userCmdReceived = s.userCmdReceived := by
  have hfront : (untilSerial tick (atPoll tick s)).userCmdReceived = s.userCmdReceived :=
    (untilSerial_received tick _).trans (peerActs_received tick.peers s)
  rw [beforeUserCmd, Server.andThen]
  split
  · exact hfront
  · exact (serialEvent_received _ _ _ _).trans hfront

/-- The outcome of the `read` of the FIFO. -/
def userCmdRead (tick : Tick) (s : Server ψ) : Int × Option MavlinkCmd :=
  readUserCmd tick.stack (tick.fifo.map (·.take (userCmdSize s.userCmdReceived))) s.userCmdReceived

variable (lib) in
theorem mainLoop_received (tick : Tick) (s : Server ψ) :
    (mainLoop sigpipeIgnored lib s tick).userCmdReceived =
      if readsUserCmd sigpipeIgnored lib tick s then (userCmdRead tick s).1 else s.userCmdReceived := by
  have hbefore := beforeUserCmd_received lib sigpipeIgnored tick s
  by_cases hlive : s.halt = none
  case neg =>
    rw [mainLoop_of_halted sigpipeIgnored lib hlive, readsUserCmd, Option.isNone_eq_false_iff.mpr
      (Option.isSome_iff_ne_none.mpr hlive)]
    rfl
  rw [mainLoop_of_live sigpipeIgnored lib hlive, readsUserCmd, hlive]
  by_cases hleaves : (tick.fails || tick.close) = true
  · rw [if_pos hleaves, hleaves]
    exact (terminateClients_received _).trans (peerActs_received tick.peers s)
  · rw [if_neg hleaves, Bool.eq_false_of_not_eq_true hleaves]
    have hevents : handleEvents sigpipeIgnored lib tick (atPoll tick s) =
        ((beforeUserCmd sigpipeIgnored lib tick s).andThen (userCmdEvent tick)).andThen promote := rfl
    rw [hevents, userCmdRead, ← hbefore]
    generalize beforeUserCmd sigpipeIgnored lib tick s = s₂
    cases hhalt : s₂.halt with
    | some halt => simp [Server.andThen, hhalt]
    | none =>
        cases huserCmd : tick.userCmd with
        | false => simp [Server.andThen, hhalt, userCmdEvent, huserCmd, promote_received]
        | true =>
            simp [Server.andThen, hhalt, userCmdEvent, huserCmd, promote_received, readUserCmdEvent, Server.log]

variable (lib) in
theorem mainLoop_tunes (tick : Tick) (s : Server ψ) :
    ∃ fcuSysid, tunes (mainLoop sigpipeIgnored lib s tick).history = tunes s.history ++
      if readsUserCmd sigpipeIgnored lib tick s then
        ((userCmdRead tick s).2.toList.flatMap (selectAction fcuSysid)).filterMap tuneOf
      else [] := by
  have hbefore := beforeUserCmd_received lib sigpipeIgnored tick s
  refine ⟨(beforeUserCmd sigpipeIgnored lib tick s).receiver.mav.fcuSysid, ?_⟩
  have hperforms : s.Performs lib (tickActions sigpipeIgnored lib s tick) (mainLoop sigpipeIgnored lib s tick) :=
    mainLoop_performs sigpipeIgnored s tick
  rw [tunes, hperforms.own, List.filterMap_append, tunes]
  congr 1
  rw [tickActions, readsUserCmd]
  cases hhalt : s.halt with
  | some halt => rfl
  | none =>
      simp only [Option.isSome_none, Bool.false_eq_true, if_false, Option.isNone_none, Bool.true_and]
      by_cases hleaves : (tick.fails || tick.close) = true
      · rw [if_pos hleaves, hleaves]
        rfl
      · rw [if_neg hleaves, Bool.eq_false_of_not_eq_true hleaves, Bool.not_false, Bool.true_and, sends_append,
          sends_append, sends_append, sends_clientActions, (haltActions_quiet _).1, List.nil_append, List.append_nil,
          List.filterMap_append, tunes_serialActions, List.nil_append, userCmdRead, ← hbefore]
        have hsame : (untilSerial tick (atPoll tick s)).andThen (serialEvent sigpipeIgnored lib tick) =
            beforeUserCmd sigpipeIgnored lib tick s := rfl
        rw [hsame]
        generalize beforeUserCmd sigpipeIgnored lib tick s = s₂
        rw [userCmdActions]
        cases hhalt₂ : s₂.halt with
        | some halt => rfl
        | none =>
            cases huserCmd : tick.userCmd with
            | false => rfl
            | true =>
                simp only [Option.isSome_none, Bool.not_true, Bool.or_self, Bool.false_eq_true, if_false,
                  Option.isNone_none, Bool.and_self, if_true]
                rw [sends_send]

/-! ### Runs -/

/-- The requests made so far have been served from the front, and the others wait in the FIFO. -/
structure TuneSystem.Serves (requests : List TuneRequest) (s : TuneSystem ψ) (played waiting : List TuneRequest) :
    Prop where
  received : s.server.userCmdReceived = 0
  requests : requests = played ++ waiting
  fifo : s.fifo = waiting.flatMap TuneRequest.record
  tunes : MissionServer.tunes s.server.history = played.filterMap TuneRequest.tune

variable {sigpipeIgnored} {s : TuneSystem ψ} {requests played waiting : List TuneRequest}

theorem length_record (request : TuneRequest) : request.record.length = sizeofMavlinkCmd := by
  rw [TuneRequest.record, List.length_map, List.length_range]

/-- An iteration that reads the FIFO serves the request in front. -/
theorem TuneSystem.Serves.reads (h : s.Serves requests played waiting) {tick : Tick}
    (hreads : readsUserCmd sigpipeIgnored lib (s.polled tick) s.server = true) :
    ∃ request rest, waiting = request :: rest ∧
      (s.next sigpipeIgnored lib (.tick tick)).Serves requests (played ++ [request]) rest := by
  have hpolled : (s.polled tick).userCmd = true := by
    simp only [readsUserCmd, Bool.and_eq_true] at hreads
    exact hreads.2
  cases hwaiting : waiting with
  | nil =>
      have hempty : s.fifo = [] := by
        rw [h.fifo, hwaiting]
        rfl
      rw [TuneSystem.polled, hempty] at hpolled
      simp at hpolled
  | cons request rest =>
      refine ⟨request, rest, rfl, ?_⟩
      have hsize : userCmdSize 0 = request.record.length := by
        rw [length_record]
        decide
      have hfifo : s.fifo = request.record ++ rest.flatMap TuneRequest.record := by
        rw [h.fifo, hwaiting, List.flatMap_cons]
      have hread : userCmdRead (s.polled tick) s.server = readUserCmd tick.stack (some request.record) 0 := by
        rw [userCmdRead, h.received, TuneSystem.polled, Option.map_some, hfifo, hsize, List.take_left]
      obtain ⟨userCmd, houtcome, htune⟩ := readUserCmd_record tick.stack request
      obtain ⟨fcuSysid, htunes⟩ := mainLoop_tunes lib sigpipeIgnored (s.polled tick) s.server
      have hreceived := mainLoop_received lib sigpipeIgnored (s.polled tick) s.server
      rw [if_pos hreads, hread, houtcome] at htunes hreceived
      refine ⟨hreceived, ?_, ?_, ?_⟩
      · rw [h.requests, hwaiting, List.append_assoc, List.singleton_append]
      · show (if _ then _ else _) = _
        rw [if_pos hreads, h.received, hfifo, hsize, List.drop_left]
      · have hserved := htune fcuSysid
        simp only [Option.toList_some, List.flatMap_singleton] at htunes
        rw [hserved, h.tunes] at htunes
        show MissionServer.tunes (mainLoop sigpipeIgnored lib s.server (s.polled tick)).history = _
        rw [htunes, List.filterMap_append]
        cases htune : request.tune <;> simp [htune]

theorem TuneSystem.Serves.waits (h : s.Serves requests played waiting) {e : TuneEvent}
    (he : ∀ tick, e = .tick tick → readsUserCmd sigpipeIgnored lib (s.polled tick) s.server = false) :
    (s.next sigpipeIgnored lib e).Serves (requests ++ e.request.toList) played (waiting ++ e.request.toList) := by
  cases e with
  | tick tick =>
      have hreads := he tick rfl
      obtain ⟨fcuSysid, htunes⟩ := mainLoop_tunes lib sigpipeIgnored (s.polled tick) s.server
      have hreceived := mainLoop_received lib sigpipeIgnored (s.polled tick) s.server
      simp only [hreads, Bool.false_eq_true, if_false, List.append_nil] at htunes hreceived
      simp only [TuneEvent.request, Option.toList_none, List.append_nil]
      refine ⟨hreceived.trans h.received, h.requests, ?_, htunes.trans h.tunes⟩
      show (if _ then _ else _) = _
      rw [hreads, if_neg Bool.false_ne_true, h.fifo]
  | process opts stack =>
      have hsame : s.Serves (requests ++ []) played (waiting ++ []) := by
        simpa using h
      simp only [TuneSystem.next, TuneEvent.request]
      cases mainMode opts with
      | usage => exact hsame
      | server netPort => exact hsame
      | commander command =>
          cases command with
          | none => exact hsame
          | some command =>
              refine ⟨h.received, ?_, ?_, h.tunes⟩
              · rw [h.requests, List.append_assoc, Option.toList_some]
              · show s.fifo ++ _ = _
                rw [h.fifo, List.flatMap_append, Option.toList_some, List.flatMap_singleton]
                rfl

variable (lib) in
theorem TuneSystem.run_serves (sigpipeIgnored : Bool) (receiver : Receiver ψ) (es : List TuneEvent) :
    ∃ played waiting, (Machine.run (TuneSystem.next sigpipeIgnored lib) { server := Server.start receiver } es).Serves
      (es.filterMap TuneEvent.request) played waiting := by
  induction es using List.reverseRecOn with
  | nil => exact ⟨[], [], rfl, rfl, rfl, rfl⟩
  | append_singleton es e ih =>
      obtain ⟨played, waiting, h⟩ := ih
      rw [Machine.run_concat, List.filterMap_append]
      have hone : [e].filterMap TuneEvent.request = e.request.toList := by
        cases hrequest : e.request <;> simp [hrequest]
      rw [hone]
      by_cases hreads : ∃ tick, e = .tick tick ∧ readsUserCmd sigpipeIgnored lib
          ((Machine.run (TuneSystem.next sigpipeIgnored lib) { server := Server.start receiver } es).polled tick)
          (Machine.run (TuneSystem.next sigpipeIgnored lib) { server := Server.start receiver } es).server = true
      · obtain ⟨tick, rfl, hreads⟩ := hreads
        obtain ⟨request, rest, -, hnext⟩ := h.reads hreads
        refine ⟨played ++ [request], rest, ?_⟩
        simpa [TuneEvent.request] using hnext
      · refine ⟨played, waiting ++ e.request.toList, h.waits fun tick heq => ?_⟩
        rw [← Bool.not_eq_true]
        exact fun hread => hreads ⟨tick, heq, hread⟩

end Loop

/-- Any number of processes ask for tunes while the server runs, in any order: the tunes it has sent are those of
the first requests, in the order they were made and each once, and the other requests wait in the FIFO. Each
iteration that reads the FIFO serves the one in front. -/
theorem tune_requests_served {ψ : Type} (sigpipeIgnored : Bool) (lib : MavlinkLib ψ) (receiver : Receiver ψ)
    (es : List TuneEvent) :
    let s := Machine.run (TuneSystem.next sigpipeIgnored lib) { server := Server.start receiver } es
    ∃ played waiting, es.filterMap TuneEvent.request = played ++ waiting ∧
      s.fifo = waiting.flatMap TuneRequest.record ∧
      tunes s.server.history = played.filterMap TuneRequest.tune ∧
      ∀ tick, readsUserCmd sigpipeIgnored lib (s.polled tick) s.server = true →
        ∃ request rest, waiting = request :: rest ∧
          (s.next sigpipeIgnored lib (.tick tick)).fifo = rest.flatMap TuneRequest.record ∧
          tunes (s.next sigpipeIgnored lib (.tick tick)).server.history =
            tunes s.server.history ++ request.tune.toList := by
  intro s
  obtain ⟨played, waiting, h⟩ := TuneSystem.run_serves lib sigpipeIgnored receiver es
  refine ⟨played, waiting, h.requests, h.fifo, h.tunes, fun tick hreads => ?_⟩
  obtain ⟨request, rest, hwaiting, hnext⟩ := h.reads hreads
  refine ⟨request, rest, hwaiting, hnext.fifo, ?_⟩
  rw [hnext.tunes, h.tunes, List.filterMap_append]
  cases htune : request.tune <;> simp [htune]

end MissionServer
