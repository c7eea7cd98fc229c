import MissionServer.Proof.ClientList

/-!
# From the serial port to the clients

A connection gets the serial input from the first chunk after its acceptance on, without a gap and
without a repetition, for as long as it stays in the list. The parser gets all of it.
-/

namespace MissionServer

variable {ψ : Type}

/-! ### The input since a connection was accepted -/

theorem chunks_append (h h' : History) : chunks (h ++ h') = chunks h ++ chunks h' := List.flatMap_append

def wasAccepted (conn : Nat) (h : History) : Bool := (acceptedConns h).any (·.1 = conn)

theorem wasAccepted_append (conn : Nat) (h h' : History) :
    wasAccepted conn (h ++ h') = (wasAccepted conn h || wasAccepted conn h') := by
  rw [wasAccepted, acceptedConns_append, List.any_append]
  rfl

theorem chunksSince_append (conn : Nat) (h h' : History) :
    chunksSince conn (h ++ h') =
      if wasAccepted conn h then chunksSince conn h ++ chunks h' else chunksSince conn h' := by
  induction h with
  | nil => rfl
  | cons e h ih =>
      have hcons : wasAccepted conn (e :: h) = (wasAccepted conn [e] || wasAccepted conn h) :=
        wasAccepted_append conn [e] h
      cases e with
      | accepted conn' fd =>
          by_cases heq : conn' = conn
          · simp [chunksSince, heq, chunks_append, wasAccepted, acceptedConns]
          · have hne : wasAccepted conn [.accepted conn' fd] = false := by simp [wasAccepted, acceptedConns, heq]
            rw [hcons, hne, Bool.false_or]
            simpa [chunksSince, heq] using ih
      | _ => exact ih

theorem chunksSince_of_not_accepted {conn : Nat} {h : History} (hnot : wasAccepted conn h = false) :
    chunksSince conn h = [] := by
  induction h with
  | nil => rfl
  | cons e h ih =>
      have hcons : wasAccepted conn (e :: h) = (wasAccepted conn [e] || wasAccepted conn h) :=
        wasAccepted_append conn [e] h
      rw [hcons, Bool.or_eq_false_iff] at hnot
      cases e with
      | accepted conn' fd =>
          have hne : conn' ≠ conn := by simpa [wasAccepted, acceptedConns] using hnot.1
          simpa [chunksSince, hne] using ih hnot.2
      | _ => exact ih hnot.2

theorem chunksSince_accepted (conn new : Nat) (fd : Int) (h : History) :
    chunksSince conn (h ++ [.accepted new fd]) = chunksSince conn h := by
  rw [chunksSince_append]
  split_ifs with haccepted
  · simp [chunks]
  · rw [chunksSince_of_not_accepted (h := h) (Bool.eq_false_iff.mpr haccepted)]
    by_cases heq : new = conn
    · simp [chunksSince, heq, chunks]
    · simp [chunksSince, heq]

/-- Events that put nothing on a connection, take no chunk and accept no one. -/
structure Mute (events : History) : Prop where
  sent : ∀ conn, sentTo conn events = []
  chunks : chunks events = []
  accepted : acceptedConns events = []

theorem mute_nil : Mute [] := ⟨fun _ => rfl, rfl, rfl⟩

theorem Mute.chunksSince_append {events : History} (hmute : Mute events) (conn : Nat) (h : History) :
    chunksSince conn (h ++ events) = chunksSince conn h := by
  rw [MissionServer.chunksSince_append, hmute.chunks, List.append_nil]
  split_ifs with haccepted
  · rfl
  · rw [chunksSince_of_not_accepted (h := events) (by simp [wasAccepted, hmute.accepted]),
      chunksSince_of_not_accepted (h := h) (Bool.eq_false_iff.mpr haccepted)]

theorem mute_own (frames : List MavlinkFrame) : Mute (frames.map .own) := by
  refine ⟨fun conn => ?_, ?_, ?_⟩
  all_goals simp [sentTo, chunks, acceptedConns, List.flatMap_map, List.filterMap_map]

theorem mute_peerAct (h : History) (act : PeerAct) : Mute (act.events h) := by
  obtain heq | ⟨conn, data, -, heq⟩ | ⟨conn, -, heq⟩ := act.events_cases h
  all_goals
    rw [heq]
    exact ⟨fun _ => rfl, rfl, rfl⟩

/-! ### What holds at every step -/

/-- The parser's state after some bytes. -/
def parsed (lib : MavlinkLib ψ) (fcuStatus : ψ) (bytes : Bytes) : ψ :=
  bytes.foldl (fun status byte => (lib.parseChar status byte).1) fcuStatus

theorem readMavlinkMsg_fcuStatus (lib : MavlinkLib ψ) (bytes : Bytes) :
    ∀ (envs : Nat → GstEnv) (r : Receiver ψ),
      (readMavlinkMsg lib envs bytes r).1.fcuStatus = parsed lib r.fcuStatus bytes := by
  induction bytes with
  | nil => exact fun _ _ => rfl
  | cons byte bytes ih =>
      intro envs r
      have hchar : (readMavlinkChar lib (envs 0) byte r).1.fcuStatus = (lib.parseChar r.fcuStatus byte).1 := by
        rw [readMavlinkChar]
        split <;> simp [*]
      simp only [readMavlinkMsg, ih, hchar]
      rfl

/-- What has come in has gone to the parser. A connection has got a first part of what has come in since
it was accepted, and a client of the list, while the server runs, all of it. -/
structure Server.Delivered (lib : MavlinkLib ψ) (fcuStatus : ψ) (s : Server ψ) : Prop where
  isPrefix : ∀ conn, sentTo conn s.history <+: chunksSince conn s.history
  whole : s.halt = none → ∀ client ∈ s.gClients, sentTo client.conn s.history = chunksSince client.conn s.history
  parser : s.receiver.fcuStatus = parsed lib fcuStatus (chunks s.history)

section Steps

variable {lib : MavlinkLib ψ} {fcuStatus : ψ} {s s' : Server ψ}

theorem Server.Delivered.mute {events : History} (h : s.Delivered lib fcuStatus) (hlive : s.halt = none)
    (hhistory : s'.history = s.history ++ events) (hmute : Mute events) (hreceiver : s'.receiver = s.receiver)
    (hsub : ∀ client ∈ s'.gClients, client ∈ s.gClients) : s'.Delivered lib fcuStatus := by
  have hsent (conn) : sentTo conn s'.history = sentTo conn s.history := by
    rw [hhistory, sentTo_append, hmute.sent, List.append_nil]
  have hsince (conn) : chunksSince conn s'.history = chunksSince conn s.history := by
    rw [hhistory, hmute.chunksSince_append]
  refine ⟨fun conn => ?_, fun _ client hmem => ?_, ?_⟩
  · rw [hsent, hsince]
    exact h.isPrefix conn
  · rw [hsent, hsince]
    exact h.whole hlive client (hsub client hmem)
  · rw [hhistory, chunks_append, hmute.chunks, List.append_nil, hreceiver]
    exact h.parser

theorem not_wasAccepted_next (hlinked : s.Linked) :
    wasAccepted (acceptedConns s.history).length s.history = false := by
  simp only [wasAccepted, List.any_eq_false, decide_eq_true_eq]
  intro c hc heq
  have hfresh := hlinked.wellNumbered.fresh c.2
  rw [← heq] at hfresh
  exact hfresh hc

theorem wasAccepted_of_mem (hlinked : s.Linked) {client : ClientNode} (hmem : client ∈ s.gClients) :
    wasAccepted client.conn s.history = true := by
  have haccepted := (mem_openConns.mp (hlinked.mem_openConns hmem)).1
  exact List.any_eq_true.mpr ⟨client.socket, haccepted, decide_eq_true rfl⟩

/-- A new connection, at the end of the list or at once closed again, has got nothing, and nothing has
come in since. -/
theorem Server.Delivered.accepted {events : History} {fd : Int} (hlinked : s.Linked) (hlive : s.halt = none)
    (h : s.Delivered lib fcuStatus)
    (hhistory : s'.history = s.history ++ .accepted (acceptedConns s.history).length fd :: events) (hmute : Mute events)
    (hreceiver : s'.receiver = s.receiver)
    (hsub : ∀ client ∈ s'.gClients, client ∈ s.gClients ∨ client.conn = (acceptedConns s.history).length) :
    s'.Delivered lib fcuStatus := by
  have hsent (conn) : sentTo conn s'.history = sentTo conn s.history := by
    rw [hhistory, List.append_cons, sentTo_append, sentTo_append, hmute.sent, List.append_nil]
    simp [sentTo]
  have hsince (conn) : chunksSince conn s'.history = chunksSince conn s.history := by
    rw [hhistory, List.append_cons, hmute.chunksSince_append, chunksSince_accepted]
  refine ⟨fun conn => ?_, fun _ client hmem => ?_, ?_⟩
  · rw [hsent, hsince]
    exact h.isPrefix conn
  · rw [hsent, hsince]
    obtain hold | hnew := hsub client hmem
    · exact h.whole hlive client hold
    · have hnothing : chunksSince client.conn s.history = [] :=
        chunksSince_of_not_accepted (hnew ▸ not_wasAccepted_next hlinked)
      have hinitial := h.isPrefix client.conn
      rw [hnothing] at hinitial ⊢
      exact List.prefix_nil.mp hinitial
  · rw [hhistory, List.append_cons, chunks_append, chunks_append, hmute.chunks, List.append_nil, hreceiver, h.parser]
    simp [chunks]

theorem Server.Delivered.quietStep (hlinked : s.Linked) (hlive : s.halt = none) (h : s.Delivered lib fcuStatus)
    (hstep : QuietStep s s') : s'.Delivered lib fcuStatus := by
  have hsame {s' : Server ψ} (hhistory : s'.history = s.history) (hreceiver : s'.receiver = s.receiver)
      (hclients : s'.gClients = s.gClients) : s'.Delivered lib fcuStatus :=
    h.mute hlive (hhistory.trans (List.append_nil _).symm) mute_nil hreceiver fun _ hmem => hclients ▸ hmem
  cases hstep with
  | peer act => exact h.mute hlive rfl (mute_peerAct s.history act) rfl fun _ hmem => hmem
  | polled => exact h.mute hlive rfl ⟨fun _ => rfl, rfl, rfl⟩ rfl fun _ hmem => hmem
  | notAccepted => exact h.mute hlive rfl ⟨fun _ => rfl, rfl, rfl⟩ rfl fun _ hmem => hmem
  | rejected hpos hfree => exact h.accepted hlinked hlive rfl ⟨fun _ => rfl, rfl, rfl⟩ rfl fun _ hmem => .inl hmem
  | linked addr port hpos hfree =>
      refine h.accepted hlinked hlive rfl ⟨fun _ => rfl, rfl, rfl⟩ rfl fun client hmem => ?_
      obtain hold | hnew := List.mem_append.mp hmem
      · exact .inl hold
      · exact .inr (List.mem_singleton.mp hnew ▸ rfl)
  | @terminated pre post node hclients =>
      refine h.mute hlive rfl ⟨fun _ => rfl, rfl, rfl⟩ rfl fun client hmem => ?_
      rw [hclients]
      exact ((List.sublist_cons_self node post).append_left pre).subset hmem
  | commander => exact hsame rfl rfl rfl
  | recvFailed hclients => exact h.mute hlive rfl ⟨fun _ => rfl, rfl, rfl⟩ rfl fun _ hmem => hmem
  | @served client rest hclients count hdata writes =>
      obtain ⟨hhistory, -, hclients', hreceiver⟩ := s.served_spec client (recvData s.history client.conn count) writes
      refine h.mute hlive hhistory ?_ hreceiver fun _ hmem => hclients' ▸ hmem
      split_ifs <;> exact ⟨fun _ => rfl, rfl, rfl⟩
  | userCmd received frames => exact h.mute hlive rfl (mute_own frames) rfl fun _ hmem => hmem
  | promoted =>
      obtain ⟨hhistory, hclients, hreceiver, -⟩ := promote_spec s
      exact hsame hhistory hreceiver hclients
  | halted halt => exact hsame rfl rfl rfl

theorem Server.Delivered.quietSteps (hlinked : s.Linked) (h : s.Delivered lib fcuStatus)
    (hsteps : Server.Steps QuietStep s s') : s'.Linked ∧ s'.Delivered lib fcuStatus := by
  refine hsteps.invariant (I := fun s => s.Linked ∧ s.Delivered lib fcuStatus) ?_ ⟨hlinked, h⟩
  intro s s' hlive hstep hboth
  obtain ⟨hlinked, h⟩ := hboth
  exact ⟨hlinked.quietStep hstep, h.quietStep hlinked hlive hstep⟩

end Steps

/-! ### A chunk -/

theorem mute_of_broadcast {clients : List ClientNode} {events : History} (h : ∀ e ∈ events, BroadcastEvent clients e) :
    chunks events = [] ∧ acceptedConns events = [] := by
  refine ⟨List.flatMap_eq_nil_iff.mpr fun e he => ?_, List.filterMap_eq_nil_iff.mpr fun e he => ?_⟩
  all_goals
    have hevent := h e he
    cases e with
    | chunk => exact hevent.elim fun _ hservice => hservice.2.elim
    | accepted => exact hevent.elim fun _ hservice => hservice.2.elim
    | _ => rfl

section Chunk

variable {sigpipeIgnored : Bool} {lib : MavlinkLib ψ} {fcuStatus : ψ} {s s' : Server ψ} {data : Bytes}

theorem parsed_append (bytes bytes' : Bytes) :
    parsed lib fcuStatus (bytes ++ bytes') = parsed lib (parsed lib fcuStatus bytes) bytes' :=
  List.foldl_append

/-- A chunk and what its broadcast has put on the connections of the list. -/
theorem Server.Delivered.chunk {events : History} {frames : List MavlinkFrame} (hlinked : s.Linked)
    (hlive : s.halt = none) (h : s.Delivered lib fcuStatus)
    (hhistory : s'.history = s.history ++ (.chunk data :: frames.map .own ++ events))
    (hparser : s'.receiver.fcuStatus = parsed lib s.receiver.fcuStatus data)
    (hservice : ∀ e ∈ events, BroadcastEvent s.gClients e)
    (hinitial : ∀ client ∈ s.gClients, sentTo client.conn events <+: data)
    (hwhole : s'.halt = none → ∀ client ∈ s'.gClients, client ∈ s.gClients ∧ sentTo client.conn events = data) :
    s'.Delivered lib fcuStatus := by
  obtain ⟨hchunks, haccepted⟩ := mute_of_broadcast hservice
  have hown := mute_own frames
  have hsent (conn) : sentTo conn s'.history = sentTo conn s.history ++ sentTo conn events := by
    rw [hhistory, sentTo_append, sentTo_append, ← List.singleton_append, sentTo_append, hown.sent]
    simp [sentTo]
  have hnew : chunks (.chunk data :: frames.map .own ++ events) = data := by
    rw [chunks_append, ← List.singleton_append, chunks_append, hown.chunks, hchunks]
    simp [chunks]
  have hsince (conn) : chunksSince conn s'.history =
      if wasAccepted conn s.history then chunksSince conn s.history ++ data else [] := by
    rw [hhistory, chunksSince_append, hnew]
    refine if_congr Iff.rfl rfl (chunksSince_of_not_accepted ?_)
    rw [wasAccepted, acceptedConns_append, ← List.singleton_append, acceptedConns_append, hown.accepted, haccepted]
    rfl
  refine ⟨fun conn => ?_, fun hlive' client hmem => ?_, ?_⟩
  · rw [hsent, hsince]
    by_cases hlisted : ∃ client ∈ s.gClients, conn = client.conn
    · obtain ⟨client, hmem, rfl⟩ := hlisted
      rw [if_pos (wasAccepted_of_mem hlinked hmem), h.whole hlive client hmem]
      exact (List.prefix_append_right_inj _).mpr (hinitial client hmem)
    · have hnothing : sentTo conn events = [] :=
        sentTo_of_broadcast hservice fun client hmem heq => hlisted ⟨client, hmem, heq⟩
      rw [hnothing, List.append_nil]
      split_ifs with haccepted
      · exact (h.isPrefix conn).trans (List.prefix_append _ _)
      · have hold := h.isPrefix conn
        rwa [chunksSince_of_not_accepted (Bool.eq_false_iff.mpr haccepted)] at hold
  · obtain ⟨hold, hdata⟩ := hwhole hlive' client hmem
    rw [hsent, hsince, if_pos (wasAccepted_of_mem hlinked hold), h.whole hlive client hold, hdata]
  · rw [hparser, h.parser, hhistory, chunks_append, hnew, parsed_append]

/-- The calls of one broadcast: what every client gets of the chunk, and who stays in the list. -/
structure ChunkDelivered (s s' : Server ψ) (data : Bytes) (events : History) : Prop where
  history : s'.history = s.history ++ events
  chunks : MissionServer.chunks events = data
  isPrefix : ∀ client ∈ s.gClients, sentTo client.conn events <+: data
  whole : ∀ client ∈ s.gClients, failedIn events client = false → sentTo client.conn events = data
  closed : ∀ client ∈ s.gClients, failedIn events client = true → .closed client.conn client.client ∈ events
  gClients : s'.gClients = s.gClients.filter fun client => !failedIn events client

theorem Server.Delivered.sendDataToClients (hlinked : s.Linked) (hlive : s.halt = none) (h : s.Delivered lib fcuStatus)
    (tick : Tick) : (MissionServer.sendDataToClients sigpipeIgnored lib tick s).Delivered lib fcuStatus := by
  obtain heq | ⟨data, hread, hdata⟩ := sendDataToClients_cases sigpipeIgnored lib tick s
  · rw [heq]
    exact h
  obtain ⟨hclients, hreceiver, frames, hhistory⟩ := receiveChunk_spec lib tick.envs data s
  have hparser : (receiveChunk lib tick.envs data s).receiver.fcuStatus = parsed lib s.receiver.fcuStatus data := by
    rw [hreceiver, readMavlinkMsg_fcuStatus]
  obtain ⟨hhalt, heq⟩ | ⟨-, -, events, hbroadcast⟩ :=
    sendDataToClients_spec sigpipeIgnored lib hlinked tick hread hdata
  · rw [heq]
    have hsplit : (receiveChunk lib tick.envs data s).history =
        s.history ++ (.chunk data :: frames.map .own ++ []) := by
      rw [hhistory, List.append_nil]
    exact h.chunk hlinked hlive hsplit hparser (by simp) (fun _ _ => List.nil_prefix) fun hnone => absurd hnone hhalt
  · have hsplit : (MissionServer.sendDataToClients sigpipeIgnored lib tick s).history =
        s.history ++ (.chunk data :: frames.map .own ++ events) := by
      rw [hbroadcast.history, hhistory, List.append_assoc]
    refine h.chunk hlinked hlive hsplit ?_ hbroadcast.service hbroadcast.isPrefix fun hnone client hmem => ?_
    · rw [hbroadcast.receiver, hparser]
    · rw [hbroadcast.gClients hnone, List.nil_append, List.mem_filter] at hmem
      exact ⟨hmem.1, hbroadcast.whole hnone client hmem.1 (by simpa using hmem.2)⟩

theorem sendDataToClients_delivers (hlinked : s.Linked) (tick : Tick)
    (hread : serialRead gCacheSize tick.serialData = some data) (hdata : data ≠ [])
    (hlive : (sendDataToClients sigpipeIgnored lib tick s).halt = none) :
    ∃ events, ChunkDelivered s (sendDataToClients sigpipeIgnored lib tick s) data events := by
  obtain ⟨-, -, frames, hhistory⟩ := receiveChunk_spec lib tick.envs data s
  obtain ⟨hhalt, heq⟩ | ⟨-, -, events, hbroadcast⟩ :=
    sendDataToClients_spec sigpipeIgnored lib hlinked tick hread hdata
  · exact absurd (heq ▸ hlive) hhalt
  have hown := mute_own frames
  have hsent (conn) : sentTo conn (.chunk data :: frames.map .own ++ events) = sentTo conn events := by
    rw [sentTo_append, ← List.singleton_append, sentTo_append, hown.sent]
    rfl
  have hfailed (client) : failedIn (.chunk data :: frames.map .own ++ events) client = failedIn events client := by
    simp [failedIn]
  have hchunks : chunks (.chunk data :: frames.map .own ++ events) = data := by
    rw [chunks_append, ← List.singleton_append, chunks_append, hown.chunks, (mute_of_broadcast hbroadcast.service).1]
    simp [chunks]
  refine ⟨.chunk data :: frames.map .own ++ events, ?_, hchunks, ?_, ?_, ?_, ?_⟩
  · rw [hbroadcast.history, hhistory, List.append_assoc]
  · intro client hmem
    rw [hsent]
    exact hbroadcast.isPrefix client hmem
  · intro client hmem hnot
    rw [hfailed] at hnot
    rw [hsent]
    exact hbroadcast.whole hlive client hmem hnot
  · intro client hmem hfail
    rw [hfailed] at hfail
    exact List.mem_append_right _ (hbroadcast.closed hlive client hmem hfail)
  · simp only [hfailed]
    exact hbroadcast.gClients hlive

/-- A call returns where its sends do, unless SIGPIPE ends the process. -/
theorem sendDataToClients_returns (hlinked : s.Linked) (tick : Tick)
    (hread : serialRead gCacheSize tick.serialData = some data) (hdata : data ≠ [])
    (hhandled : (receiveChunk lib tick.envs data s).halt = none)
    (hreturn : SendsReturn data.length s.gClients.length tick.sends) :
    GoesOnOrKilled sigpipeIgnored (sendDataToClients sigpipeIgnored lib tick s).halt := by
  have hclients : (receiveChunk lib tick.envs data s).gClients = [] ++ s.gClients :=
    (receiveChunk_spec lib tick.envs data s).1
  obtain ⟨hhalt, -⟩ | ⟨-, hwalk, -⟩ := sendDataToClients_spec sigpipeIgnored lib hlinked tick hread hdata
  · exact absurd hhandled hhalt
  · rw [hwalk, hclients]
    exact broadcast_returns lib hdata hhandled hclients hreturn

end Chunk

/-! ### One iteration -/

/-- What an iteration reads from the serial port, if it comes to that. -/
def Tick.serialBytes (tick : Tick) : Bytes :=
  if tick.serial then (serialRead gCacheSize tick.serialData).getD [] else []

/-- The serial input of a run. -/
def serialInput (ticks : List Tick) : Bytes := ticks.flatMap Tick.serialBytes

section Iteration

variable {sigpipeIgnored : Bool} {lib : MavlinkLib ψ} {s s' : Server ψ}

variable (sigpipeIgnored lib) in
theorem serialEvent_of_serialBytes {tick : Tick} (hbytes : tick.serialBytes ≠ []) (s : Server ψ) :
    serialRead gCacheSize tick.serialData = some tick.serialBytes ∧
      serialEvent sigpipeIgnored lib tick s = sendDataToClients sigpipeIgnored lib tick s := by
  rw [Tick.serialBytes] at hbytes ⊢
  rw [serialEvent]
  cases hserial : tick.serial with
  | false => simp [hserial] at hbytes
  | true =>
      simp only [hserial, if_true] at hbytes ⊢
      cases hread : serialRead gCacheSize tick.serialData with
      | none => simp [hread] at hbytes
      | some data => exact ⟨rfl, trivial⟩

theorem serialEvent_of_noBytes {tick : Tick} (hbytes : tick.serialBytes = []) (s : Server ψ) :
    serialEvent sigpipeIgnored lib tick s = s := by
  rw [Tick.serialBytes] at hbytes
  rw [serialEvent]
  split_ifs at hbytes ⊢
  · rw [sendDataToClients]
    cases hread : serialRead gCacheSize tick.serialData with
    | none => rfl
    | some data =>
        rw [hread] at hbytes
        obtain rfl : data = [] := hbytes
        rfl
  · rfl

theorem chunks_quietStep (hstep : QuietStep s s') : chunks s'.history = chunks s.history := by
  have hlog {events : History} (hhistory : s'.history = s.history ++ events) (hchunks : chunks events = []) :
      chunks s'.history = chunks s.history := by
    rw [hhistory, chunks_append, hchunks, List.append_nil]
  cases hstep with
  | peer act => exact hlog rfl (mute_peerAct s.history act).chunks
  | served hclients hdata writes =>
      refine hlog (s.served_spec _ _ writes).1 ?_
      split_ifs <;> rfl
  | userCmd received frames => exact hlog rfl (mute_own frames).chunks
  | promoted => rw [(promote_spec s).1]
  | commander => rfl
  | halted => rfl
  | _ => exact hlog rfl rfl

theorem chunks_quietSteps (hsteps : Server.Steps QuietStep s s') : chunks s'.history = chunks s.history :=
  hsteps.invariant (I := fun s' => chunks s'.history = chunks s.history)
    (fun _ _ _ hstep hsame => (chunks_quietStep hstep).trans hsame) rfl

theorem chunks_sendDataToClients (hlinked : s.Linked) {tick : Tick} {data : Bytes}
    (hread : serialRead gCacheSize tick.serialData = some data) (hdata : data ≠ []) :
    chunks (sendDataToClients sigpipeIgnored lib tick s).history = chunks s.history ++ data := by
  obtain ⟨-, -, frames, hhistory⟩ := receiveChunk_spec lib tick.envs data s
  have hchunk : chunks (receiveChunk lib tick.envs data s).history = chunks s.history ++ data := by
    rw [hhistory, chunks_append, ← List.singleton_append, chunks_append, (mute_own frames).chunks]
    simp [chunks]
  obtain ⟨-, heq⟩ | ⟨-, -, events, hbroadcast⟩ := sendDataToClients_spec sigpipeIgnored lib hlinked tick hread hdata
  · rw [heq, hchunk]
  · rw [hbroadcast.history, chunks_append, (mute_of_broadcast hbroadcast.service).1, List.append_nil, hchunk]

theorem chunks_serialEvent (hlinked : s.Linked) (tick : Tick) :
    chunks (serialEvent sigpipeIgnored lib tick s).history = chunks s.history ++ tick.serialBytes := by
  by_cases hbytes : tick.serialBytes = []
  · rw [hbytes, List.append_nil, serialEvent_of_noBytes hbytes]
  · obtain ⟨hread, heq⟩ := serialEvent_of_serialBytes sigpipeIgnored lib hbytes s
    rw [heq]
    exact chunks_sendDataToClients hlinked hread hbytes

/-- What comes behind the serial port in an iteration: the server goes on as it was, with messages of its own. -/
theorem afterSerial_spec (tick : Tick) (s : Server ψ) :
    let s' := (s.andThen (userCmdEvent tick)).andThen promote
    s'.halt = s.halt ∧ s'.gClients = s.gClients ∧
      ∃ frames : List MavlinkFrame, s'.history = s.history ++ frames.map .own := by
  intro s'
  by_cases hhalt : s.halt = none
  case neg =>
    have hs' : s' = s := by simp only [s', Server.andThen_of_halted hhalt]
    rw [hs']
    exact ⟨rfl, rfl, [], (List.append_nil _).symm⟩
  obtain ⟨hlive, hclients, frames, hhistory⟩ : (userCmdEvent tick s).halt = none ∧
      (userCmdEvent tick s).gClients = s.gClients ∧
      ∃ frames : List MavlinkFrame, (userCmdEvent tick s).history = s.history ++ frames.map .own := by
    rw [userCmdEvent]
    split
    · exact ⟨hhalt, rfl, _, rfl⟩
    · exact ⟨hhalt, rfl, [], (List.append_nil _).symm⟩
  have hs' : s' = promote (userCmdEvent tick s) := by
    simp only [s', Server.andThen_of_live hhalt, Server.andThen_of_live hlive]
  obtain ⟨hhistory', hclients', -, hhalt'⟩ := promote_spec (userCmdEvent tick s)
  rw [hs', hhistory', hclients', hhalt', hlive, hhalt]
  exact ⟨rfl, hclients, frames, hhistory⟩

variable (sigpipeIgnored lib) in
/-- An iteration reads its bytes from the serial port, unless the server halts before it does. -/
theorem chunks_mainLoop (hlinked : s.Linked) (tick : Tick) :
    chunks (mainLoop sigpipeIgnored lib s tick).history <+: chunks s.history ++ tick.serialBytes ∧
    ((mainLoop sigpipeIgnored lib s tick).halt = none →
      chunks (mainLoop sigpipeIgnored lib s tick).history = chunks s.history ++ tick.serialBytes) := by
  by_cases hlive : s.halt = none
  case neg =>
    rw [mainLoop_of_halted sigpipeIgnored lib hlive]
    exact ⟨List.prefix_append _ _, fun hnone => absurd hnone hlive⟩
  obtain ⟨hpoll, hpollLive⟩ := atPoll_steps tick hlive
  rw [mainLoop_of_live sigpipeIgnored lib hlive]
  split_ifs
  · have hstop : chunks (terminateClients (atPoll tick s)).history = chunks s.history :=
      (chunks_quietSteps (terminateClients_steps hpollLive).1).trans (chunks_quietSteps hpoll)
    refine ⟨?_, fun hnone => by cases hnone⟩
    dsimp only
    rw [hstop]
    exact List.prefix_append _ _
  · have hfront := untilSerial_steps tick hpollLive
    have hbefore : chunks (untilSerial tick (atPoll tick s)).history = chunks s.history :=
      (chunks_quietSteps hfront).trans (chunks_quietSteps hpoll)
    have hlinked₁ : (untilSerial tick (atPoll tick s)).Linked := (hlinked.quietSteps hpoll).quietSteps hfront
    rw [handleEvents]
    generalize untilSerial tick (atPoll tick s) = s₁ at hbefore hlinked₁
    obtain ⟨hhalt, -, frames, hhistory⟩ := afterSerial_spec tick (s₁.andThen (serialEvent sigpipeIgnored lib tick))
    rw [hhalt, hhistory, chunks_append, (mute_own frames).chunks, List.append_nil, ← hbefore]
    by_cases hlive₁ : s₁.halt = none
    · rw [Server.andThen_of_live hlive₁, chunks_serialEvent hlinked₁]
      exact ⟨List.prefix_rfl, fun _ => rfl⟩
    · rw [Server.andThen_of_halted hlive₁]
      exact ⟨List.prefix_append _ _, fun hnone => absurd hnone hlive₁⟩

theorem ChunkDelivered.own {s'' : Server ψ} {data : Bytes} {events : History} (h : ChunkDelivered s s' data events)
    {frames : List MavlinkFrame} (hhistory : s''.history = s'.history ++ frames.map .own)
    (hclients : s''.gClients = s'.gClients) : ChunkDelivered s s'' data (events ++ frames.map .own) := by
  have hown := mute_own frames
  have hsent (conn) : sentTo conn (events ++ frames.map .own) = sentTo conn events := by
    rw [sentTo_append, hown.sent, List.append_nil]
  have hfailed (client) : failedIn (events ++ frames.map .own) client = failedIn events client := by
    simp [failedIn]
  refine ⟨?_, ?_, ?_, ?_, ?_, ?_⟩
  · rw [hhistory, h.history, List.append_assoc]
  · rw [chunks_append, hown.chunks, List.append_nil, h.chunks]
  · simpa only [hsent] using h.isPrefix
  · simpa only [hsent, hfailed] using h.whole
  · intro client hmem hfail
    rw [hfailed] at hfail
    exact List.mem_append_left _ (h.closed client hmem hfail)
  · simpa only [hfailed, hclients] using h.gClients

variable (sigpipeIgnored lib) in
theorem mainLoop_serves (hlinked : s.Linked) (hlive : s.halt = none) {tick : Tick} (hfails : tick.fails = false)
    (hclose : tick.close = false) (hbytes : tick.serialBytes ≠ []) :
    let s₁ := untilSerial tick (atPoll tick s)
    let s' := mainLoop sigpipeIgnored lib s tick
    ((receiveChunk lib tick.envs tick.serialBytes s₁).halt = none →
      SendsReturn tick.serialBytes.length s₁.gClients.length tick.sends → GoesOnOrKilled sigpipeIgnored s'.halt) ∧
    (s'.halt = none → ∃ events, ChunkDelivered s₁ s' tick.serialBytes events) := by
  intro s₁ s'
  obtain ⟨hpoll, hpollLive⟩ := atPoll_steps tick hlive
  have hlinked₁ : s₁.Linked := (hlinked.quietSteps hpoll).quietSteps (untilSerial_steps tick hpollLive)
  have hs' : s' = ((s₁.andThen (serialEvent sigpipeIgnored lib tick)).andThen (userCmdEvent tick)).andThen promote := by
    have hstays : (tick.fails || tick.close) = false := by rw [hfails, hclose, Bool.or_self]
    simp only [s', mainLoop_of_live sigpipeIgnored lib hlive, hstays, Bool.false_eq_true, if_false, handleEvents, s₁]
  obtain ⟨hhalt, hclients, frames, hhistory⟩ := afterSerial_spec tick (s₁.andThen (serialEvent sigpipeIgnored lib tick))
  rw [← hs'] at hhalt hclients hhistory
  obtain ⟨hread, hserial⟩ := serialEvent_of_serialBytes sigpipeIgnored lib hbytes s₁
  by_cases hlive₁ : s₁.halt = none
  case neg =>
    rw [Server.andThen_of_halted hlive₁] at hhalt
    refine ⟨fun hhandled _ => ?_, fun hnone => absurd (hhalt.symm.trans hnone) hlive₁⟩
    refine absurd hhandled ?_
    rw [receiveChunk]
    dsimp only
    split
    · exact Option.some_ne_none _
    · exact hlive₁
  rw [Server.andThen_of_live hlive₁, hserial] at hhalt hclients hhistory
  refine ⟨fun hhandled hreturn => ?_, fun hnone => ?_⟩
  · rw [hhalt]
    exact sendDataToClients_returns hlinked₁ tick hread hbytes hhandled hreturn
  · obtain ⟨events, hdelivered⟩ := sendDataToClients_delivers hlinked₁ tick hread hbytes (hhalt.symm.trans hnone)
    exact ⟨_, hdelivered.own hhistory hclients⟩

end Iteration

/-! ### Every run -/

section Run

variable (sigpipeIgnored : Bool) (lib : MavlinkLib ψ) (receiver : Receiver ψ)

theorem delivered_start : (Server.start receiver).Delivered lib receiver.fcuStatus :=
  ⟨fun _ => List.nil_prefix, fun _ _ hmem => absurd hmem List.not_mem_nil, rfl⟩

variable {lib} in
theorem Server.Delivered.mainLoop {s : Server ψ} {fcuStatus : ψ} (hlinked : s.Linked) (h : s.Delivered lib fcuStatus)
    (tick : Tick) : (MissionServer.mainLoop sigpipeIgnored lib s tick).Delivered lib fcuStatus := by
  obtain ⟨s₁, s₂, hfront, hmiddle, hback⟩ := mainLoop_steps sigpipeIgnored lib s tick
  obtain ⟨hlinked₁, h₁⟩ := Server.Delivered.quietSteps hlinked h hfront
  obtain rfl | ⟨hlive₁, rfl⟩ := hmiddle
  · exact (Server.Delivered.quietSteps hlinked₁ h₁ hback).2
  · have hsteps : Server.Steps (Server.Step sigpipeIgnored lib) s₁
        (MissionServer.sendDataToClients sigpipeIgnored lib tick s₁) := sendDataToClients_steps hlinked₁ hlive₁ tick
    have h₂ : (MissionServer.sendDataToClients sigpipeIgnored lib tick s₁).Delivered lib fcuStatus :=
      h₁.sendDataToClients hlinked₁ hlive₁ tick
    exact (Server.Delivered.quietSteps (hlinked₁.steps hsteps) h₂ hback).2

theorem delivered_run (ticks : List Tick) :
    let s := Machine.run (mainLoop sigpipeIgnored lib) (Server.start receiver) ticks
    s.Linked ∧ s.Delivered lib receiver.fcuStatus := by
  refine Machine.run_invariant (I := fun s : Server ψ => s.Linked ∧ s.Delivered lib receiver.fcuStatus) ?_
    ⟨linked_start receiver, delivered_start lib receiver⟩ ticks
  intro s tick hboth
  obtain ⟨hlinked, h⟩ := hboth
  have hsteps : Server.Steps (Server.Step sigpipeIgnored lib) s (mainLoop sigpipeIgnored lib s tick) :=
    mainLoop_allSteps hlinked tick
  exact ⟨hlinked.steps hsteps, h.mainLoop sigpipeIgnored hlinked tick⟩

theorem chunks_run {s : Server ψ} (hlinked : s.Linked) (ticks : List Tick) :
    let s' := Machine.run (mainLoop sigpipeIgnored lib) s ticks
    chunks s'.history <+: chunks s.history ++ serialInput ticks ∧
    (s'.halt = none → chunks s'.history = chunks s.history ++ serialInput ticks) := by
  induction ticks using List.reverseRecOn with
  | nil => simp [serialInput]
  | append_singleton ticks tick ih =>
      have hbefore : (Machine.run (mainLoop sigpipeIgnored lib) s ticks).Linked :=
        Machine.run_invariant (I := Server.Linked) (fun s tick h => h.steps (mainLoop_allSteps h tick)) hlinked ticks
      rw [Machine.run_concat]
      generalize Machine.run (mainLoop sigpipeIgnored lib) s ticks = s₁ at ih hbefore
      obtain ⟨hfront, hwhole⟩ := ih
      obtain ⟨hfront', hwhole'⟩ := chunks_mainLoop sigpipeIgnored lib hbefore tick
      have hinput : serialInput (ticks ++ [tick]) = serialInput ticks ++ tick.serialBytes := by
        simp [serialInput]
      rw [hinput, ← List.append_assoc]
      by_cases hlive : s₁.halt = none
      · rw [← hwhole hlive]
        exact ⟨hfront', hwhole'⟩
      · rw [mainLoop_of_halted sigpipeIgnored lib hlive]
        exact ⟨hfront.trans (List.prefix_append _ _), fun hnone => absurd hnone hlive⟩

/-- In every run what the iterations read from the serial port has gone to the parser, and to every connection what
has come in since its acceptance. From every state of a run an iteration that reads bytes serves each client of the
list or takes it out. -/
theorem mainLoop_delivers (ticks : List Tick) :
    let s := Machine.run (mainLoop sigpipeIgnored lib) (Server.start receiver) ticks
    s.Delivered lib receiver.fcuStatus ∧
    chunks s.history <+: serialInput ticks ∧
    (s.halt = none → chunks s.history = serialInput ticks) ∧
    ∀ tick, s.halt = none → tick.fails = false → tick.close = false → tick.serialBytes ≠ [] →
      let s₁ := untilSerial tick (atPoll tick s)
      let s' := mainLoop sigpipeIgnored lib s tick
      ((receiveChunk lib tick.envs tick.serialBytes s₁).halt = none →
        SendsReturn tick.serialBytes.length s₁.gClients.length tick.sends → GoesOnOrKilled sigpipeIgnored s'.halt) ∧
      (s'.halt = none → ∃ events, ChunkDelivered s₁ s' tick.serialBytes events) := by
  intro s
  obtain ⟨hlinked, hdelivered⟩ : s.Linked ∧ s.Delivered lib receiver.fcuStatus :=
    delivered_run sigpipeIgnored lib receiver ticks
  obtain ⟨hfront, hwhole⟩ := chunks_run sigpipeIgnored lib (linked_start receiver) ticks
  exact ⟨hdelivered, hfront, hwhole, fun tick hlive => mainLoop_serves sigpipeIgnored lib hlinked hlive⟩

end Run

end MissionServer
