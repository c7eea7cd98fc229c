import Mathlib.Logic.Relation
import MissionServer.Lib.Machine
import MissionServer.UartServer.MainLoop

/-!
# The small steps of the main loop

Whatever an iteration meets, it takes the server through a sequence of small steps. What each of them
can do is said once, in `QuietStep` for the steps outside a broadcast and in `Server.Step` for all of
them; an invariant of the server is a fact about each small step.
-/

namespace MissionServer

variable {ψ : Type}

/-! ### The small steps -/

/-- A client taken out of the list. -/
def Server.terminated (s : Server ψ) (pre : List ClientNode) (node : ClientNode) (post : List ClientNode) : Server ψ :=
  let s : Server ψ :=
    { s with clientFd := if node.id = s.gCommandingClient then -1 else s.clientFd, gClients := pre ++ post }
  s.log [.closed node.conn node.client]

/-- A new client at the end of the list. -/
def Server.linked (s : Server ψ) (fd : Int) (addr : UInt32) (port : UInt16) : Server ψ :=
  let conn := (acceptedConns s.history).length
  let id := (s.gLastId + 1).bmod (2 ^ 32)
  let s : Server ψ := { s with gLastId := id, gClients := s.gClients ++ [{ id, addr, port, client := fd, conn }] }
  s.log [.accepted conn fd, .linked conn id]

/-- Bytes of the commanding client that `serial_write` has been called on. -/
def Server.served (s : Server ψ) (client : ClientNode) (data : Bytes) (writes : List Int) : Server ψ :=
  let s : Server ψ := s.log [.received client.conn client.client data]
  match serialWrite data writes with
  | (port, .done) => s.log [.forwarded client.conn port]
  | (port, .failed) => s.log [.forwarded client.conn port, .writeFailed client.conn]
  | (port, .pending) => { s.log [.forwarded client.conn port] with halt := some .blocked }

/-- The steps outside a broadcast. -/
inductive QuietStep : Server ψ → Server ψ → Prop
  | peer (s : Server ψ) (act : PeerAct) : QuietStep s (peerAct act s)
  | polled (s : Server ψ) : QuietStep s (s.log [.polled s.clientFd])
  | notAccepted (s : Server ψ) : QuietStep s (s.log [.closedInvalid])
  | rejected (s : Server ψ) {fd : Int} (hpos : 0 < fd) (hfree : fdInUse s.history fd = false) :
      QuietStep s (s.log [.accepted (acceptedConns s.history).length fd, .closed (acceptedConns s.history).length fd])
  | linked (s : Server ψ) {fd : Int} (addr : UInt32) (port : UInt16) (hpos : 0 < fd)
      (hfree : fdInUse s.history fd = false) : QuietStep s (s.linked fd addr port)
  | terminated (s : Server ψ) {pre post : List ClientNode} {node : ClientNode} (h : s.gClients = pre ++ node :: post) :
      QuietStep s (s.terminated pre node post)
  | commander (s : Server ψ) (lastCommander : Int) (tryout : Nat) : QuietStep s { s with lastCommander, tryout }
  | recvFailed (s : Server ψ) {client : ClientNode} {rest : List ClientNode} (h : s.gClients = client :: rest) :
      QuietStep s (s.log [.received client.conn client.client []])
  | served (s : Server ψ) {client : ClientNode} {rest : List ClientNode} (h : s.gClients = client :: rest)
      {count : Int} (hdata : recvData s.history client.conn count ≠ []) (writes : List Int) :
      QuietStep s (s.served client (recvData s.history client.conn count) writes)
  | userCmd (s : Server ψ) (received : Int) (frames : List MavlinkFrame) :
      QuietStep s ({ s with userCmdReceived := received }.log (frames.map .own))
  | promoted (s : Server ψ) : QuietStep s (promote s)
  | halted (s : Server ψ) {halt : Halt} (h : halt = .blocked ∨ halt = .stopped) :
      QuietStep s { s with halt := some halt }

/-- All steps. A failing `send` ends the process on a connection that its peer has reset, unless SIGPIPE
is ignored. -/
inductive Server.Step (sigpipeIgnored : Bool) (lib : MavlinkLib ψ) : Server ψ → Server ψ → Prop
  | quiet {s s' : Server ψ} (h : QuietStep s s') : Step sigpipeIgnored lib s s'
  | chunk (s : Server ψ) (envs : Nat → GstEnv) (data : Bytes) : Step sigpipeIgnored lib s (receiveChunk lib envs data s)
  | sent (s : Server ψ) {client : ClientNode} (hmem : client ∈ s.gClients)
      (hreset : isReset s.history client.conn = false) (data : Bytes) :
      Step sigpipeIgnored lib s (s.log [.sent client.conn client.client data])
  | sendFailed (s : Server ψ) {client : ClientNode} (hmem : client ∈ s.gClients)
      (hpipe : sigpipeIgnored = true ∨ isReset s.history client.conn = false) :
      Step sigpipeIgnored lib s (s.log [.sendFailed client.conn client.client])
  | killed (s : Server ψ) {client : ClientNode} (hmem : client ∈ s.gClients) (hpipe : sigpipeIgnored = false)
      (hreset : isReset s.history client.conn = true) :
      Step sigpipeIgnored lib s { s.log [.sendFailed client.conn client.client] with halt := some .killed }

/-- Steps of a kind, none of them taken by a server that has halted. -/
def Server.Steps (R : Server ψ → Server ψ → Prop) : Server ψ → Server ψ → Prop :=
  Relation.ReflTransGen fun s s' => s.halt = none ∧ R s s'

namespace Server.Steps

variable {R : Server ψ → Server ψ → Prop} {s s' s'' : Server ψ}

theorem refl (s : Server ψ) : Steps R s s := Relation.ReflTransGen.refl

theorem single (hlive : s.halt = none) (h : R s s') : Steps R s s' := Relation.ReflTransGen.single ⟨hlive, h⟩

theorem trans (h : Steps R s s') (h' : Steps R s' s'') : Steps R s s'' := Relation.ReflTransGen.trans h h'

theorem mono {R' : Server ψ → Server ψ → Prop} (h : Steps R s s') (hle : ∀ s s', R s s' → R' s s') : Steps R' s s' :=
  Relation.ReflTransGen.mono (fun _ _ hstep => ⟨hstep.1, hle _ _ hstep.2⟩) _ _ h

theorem andThen {f : Server ψ → Server ψ} (h : Steps R s s') (hf : s'.halt = none → Steps R s' (f s')) :
    Steps R s (s'.andThen f) := by
  rw [Server.andThen]
  split
  · exact h
  · exact h.trans (hf (Option.not_isSome_iff_eq_none.mp ‹_›))

theorem invariant {I : Server ψ → Prop} (h : Steps R s s') (hstep : ∀ s s', s.halt = none → R s s' → I s → I s')
    (hs : I s) : I s' := by
  induction h with
  | refl => exact hs
  | tail _ hlast ih => exact hstep _ _ hlast.1 hlast.2 ih

end Server.Steps

/-! ### The functions, as steps -/

@[simp] theorem Server.log_halt (s : Server ψ) (events : List KernelEvent) : (s.log events).halt = s.halt := rfl
@[simp] theorem Server.log_gClients (s : Server ψ) (events : List KernelEvent) :
    (s.log events).gClients = s.gClients := rfl
@[simp] theorem Server.log_history (s : Server ψ) (events : List KernelEvent) :
    (s.log events).history = s.history ++ events := rfl

theorem Server.andThen_of_halted {s : Server ψ} (hhalt : s.halt ≠ none) (f : Server ψ → Server ψ) : s.andThen f = s :=
  if_pos (Option.isSome_iff_ne_none.mpr hhalt)

theorem Server.andThen_of_live {s : Server ψ} (hlive : s.halt = none) (f : Server ψ → Server ψ) : s.andThen f = f s :=
  if_neg (by rw [hlive]; exact Bool.false_ne_true)

/-- What a peer does shows as one event, and only on an open connection. -/
theorem PeerAct.events_cases (act : PeerAct) (h : History) :
    act.events h = [] ∨
    (∃ conn data, isOpen h conn = true ∧ act.events h = [.arrived conn data]) ∨
    (∃ conn, isOpen h conn = true ∧ act.events h = [.reset conn]) := by
  cases act with
  | write conn data =>
      by_cases hopen : isOpen h conn = true
      · exact .inr (.inl ⟨conn, data, hopen, if_pos hopen⟩)
      · exact .inl (if_neg hopen)
  | reset conn =>
      by_cases hopen : isOpen h conn = true
      · exact .inr (.inr ⟨conn, hopen, if_pos hopen⟩)
      · exact .inl (if_neg hopen)

theorem peerActs_steps (acts : List PeerAct) {s : Server ψ} (hlive : s.halt = none) :
    Server.Steps QuietStep s (peerActs acts s) ∧ (peerActs acts s).halt = none ∧
      (peerActs acts s).gClients = s.gClients := by
  induction acts generalizing s with
  | nil => exact ⟨.refl s, hlive, rfl⟩
  | cons act acts ih =>
      obtain ⟨hsteps, hhalt, hclients⟩ := ih (s := peerAct act s) hlive
      exact ⟨(Server.Steps.single hlive (.peer s act)).trans hsteps, hhalt, hclients⟩

/-- `terminate_client` on the node that the link points to. -/
theorem terminateClient_eq {s : Server ψ} {pre post : List ClientNode} {node : ClientNode}
    (h : s.gClients = pre ++ node :: post) :
    terminateClient (some node) pre.length s = (s.terminated pre node post, post.head?) := by
  have hget : s.gClients[pre.length]? = some node := by simp [h]
  have herase : s.gClients.eraseIdx pre.length = pre ++ post := by
    rw [h, List.eraseIdx_append_of_length_le le_rfl, Nat.sub_self, List.eraseIdx_cons_zero]
  simp only [terminateClient, hget, ne_eq, not_true_eq_false, if_false, herase, Server.terminated]
  refine Prod.ext rfl ?_
  simp [List.getElem?_append_right, List.head?_eq_getElem?]

theorem terminateHead_eq {s : Server ψ} {client : ClientNode} {rest : List ClientNode}
    (h : s.gClients = client :: rest) :
    terminateClient s.gClients.head? 0 s = (s.terminated [] client rest, rest.head?) := by
  have hsplit : s.gClients = [] ++ client :: rest := h
  rw [h, List.head?_cons]
  exact terminateClient_eq hsplit

theorem terminateHead_steps {s : Server ψ} (hlive : s.halt = none) :
    Server.Steps QuietStep s (terminateClient s.gClients.head? 0 s).1 := by
  cases h : s.gClients with
  | nil => exact .refl s
  | cons client rest =>
      have hsplit : s.gClients = [] ++ client :: rest := h
      rw [← h, terminateHead_eq h]
      exact .single hlive (.terminated s hsplit)

theorem acceptClient_steps (outcome : AcceptOutcome) {s : Server ψ} (hlive : s.halt = none) :
    Server.Steps QuietStep s (acceptClient outcome s) := by
  have hinvalid : Server.Steps QuietStep s (s.log [.closedInvalid]) := .single hlive (.notAccepted s)
  cases outcome with
  | noMemory => exact .refl s
  | invalidSocket => exact hinvalid
  | socket fd isInet addr port =>
      by_cases hfd : 0 < fd ∧ ¬ fdInUse s.history fd
      · have hfree : fdInUse s.history fd = false := by simpa using hfd.2
        simp only [acceptClient, AcceptOutcome.result, if_pos hfd]
        cases isInet with
        | false =>
            have hstep := QuietStep.rejected s hfd.1 hfree
            simpa [Server.log] using Server.Steps.single hlive hstep
        | true =>
            have hstep := QuietStep.linked s addr port hfd.1 hfree
            simpa [Server.log, Server.linked] using Server.Steps.single hlive hstep
      · simp only [acceptClient, AcceptOutcome.result, if_neg hfd]
        exact hinvalid

/-- What one `serial_write` of a client's bytes leaves, however it ends. -/
theorem Server.served_spec (s : Server ψ) (client : ClientNode) (data : Bytes) (writes : List Int) :
    (s.served client data writes).history = s.history ++
      (.received client.conn client.client data :: .forwarded client.conn (serialWrite data writes).1 ::
        if (serialWrite data writes).2 = .failed then [.writeFailed client.conn] else []) ∧
    (s.served client data writes).halt = (if (serialWrite data writes).2 = .pending then some .blocked else s.halt) ∧
    (s.served client data writes).gClients = s.gClients ∧ (s.served client data writes).receiver = s.receiver := by
  rw [Server.served]
  obtain ⟨port, status⟩ := serialWrite data writes
  cases status <;> simp [Server.log]

theorem handleCommandingClient_steps (count : Int) (writes : List Int) {s : Server ψ} (hlive : s.halt = none) :
    Server.Steps QuietStep s (handleCommandingClient count writes s) := by
  rw [handleCommandingClient]
  split
  · exact .refl s
  · rename_i client rest hclients
    -- the statics first: a new commander starts with no failed reads
    obtain ⟨lastCommander, tryout, hstart⟩ : ∃ lastCommander tryout,
        (if s.lastCommander ≠ s.gCommandingClient then { s with lastCommander := s.gCommandingClient, tryout := 0 }
          else s) = { s with lastCommander, tryout } := by
      split
      · exact ⟨_, _, rfl⟩
      · exact ⟨_, _, rfl⟩
    simp only [hstart]
    set s₁ : Server ψ := { s with lastCommander, tryout } with hs₁
    have hsteps : Server.Steps QuietStep s s₁ := .single hlive (.commander s lastCommander tryout)
    by_cases hdata : recvData s₁.history client.conn count = []
    · rw [if_pos hdata, hdata]
      have hrecv : Server.Steps QuietStep s₁ (s₁.log [.received client.conn client.client []]) :=
        .single hlive (.recvFailed s₁ hclients)
      have htry : Server.Steps QuietStep s (({ s₁ with tryout := tryout + 1 } : Server ψ).log
          [.received client.conn client.client []]) :=
        (hsteps.trans hrecv).trans (.single hlive (.commander _ lastCommander (tryout + 1)))
      split
      · exact htry.trans (terminateHead_steps hlive)
      · exact htry
    · rw [if_neg hdata]
      exact hsteps.trans (.single hlive (.served s₁ hclients hdata writes))

theorem promote_spec (s : Server ψ) :
    (promote s).history = s.history ∧ (promote s).gClients = s.gClients ∧ (promote s).receiver = s.receiver ∧
      (promote s).halt = s.halt := by
  rw [promote]
  split
  · exact ⟨rfl, rfl, rfl, rfl⟩
  · split <;> exact ⟨rfl, rfl, rfl, rfl⟩

theorem readUserCmdEvent_steps (tick : Tick) {s : Server ψ} (hlive : s.halt = none) :
    Server.Steps QuietStep s (readUserCmdEvent tick s) :=
  .single hlive (.userCmd s _ _)

theorem terminateClients_steps {s : Server ψ} (hlive : s.halt = none) :
    Server.Steps QuietStep s (terminateClients s) ∧ (terminateClients s).halt = none := by
  rw [terminateClients]
  generalize s.gClients = clients
  induction clients generalizing s with
  | nil => exact ⟨.refl s, hlive⟩
  | cons client clients ih =>
      have hhead : (terminateClient s.gClients.head? 0 s).1.halt = none := by
        cases hclients : s.gClients with
        | nil => exact hlive
        | cons client rest =>
            rw [← hclients, terminateHead_eq hclients]
            exact hlive
      obtain ⟨hsteps, hhalt⟩ := ih hhead
      exact ⟨(terminateHead_steps hlive).trans hsteps, hhalt⟩

theorem clientEvent_steps (tick : Tick) {s : Server ψ} (hlive : s.halt = none) :
    Server.Steps QuietStep s (clientEvent tick s) := by
  rw [clientEvent]
  split_ifs
  · exact terminateHead_steps hlive
  · exact handleCommandingClient_steps _ _ hlive
  · exact .refl s

theorem ownFrames_eq (out : List MavOutput) : ∃ frames : List MavlinkFrame, ownFrames out = frames.map .own := by
  induction out with
  | nil => exact ⟨[], rfl⟩
  | cons output out ih =>
      obtain ⟨frames, hframes⟩ := ih
      cases output with
      | device output => exact ⟨frames, hframes⟩
      | frame frame => exact ⟨frame :: frames, by simpa [ownFrames] using hframes⟩

theorem crashes_append (out out' : List MavOutput) : crashes (out ++ out') = (crashes out || crashes out') :=
  List.any_append

/-- Everything a chunk does to the server but for its sends. -/
theorem receiveChunk_spec (lib : MavlinkLib ψ) (envs : Nat → GstEnv) (data : Bytes) (s : Server ψ) :
    (receiveChunk lib envs data s).gClients = s.gClients ∧
    (receiveChunk lib envs data s).receiver = (readMavlinkMsg lib envs data s.receiver).1 ∧
    ∃ frames : List MavlinkFrame,
      (receiveChunk lib envs data s).history = s.history ++ .chunk data :: frames.map .own := by
  obtain ⟨frames, hframes⟩ := ownFrames_eq (readMavlinkMsg lib envs data s.receiver).2
  rw [receiveChunk]
  dsimp only
  rw [hframes]
  split <;> exact ⟨rfl, rfl, frames, rfl⟩

section Loop

variable (sigpipeIgnored : Bool) (lib : MavlinkLib ψ)

theorem untilSerial_steps (tick : Tick) {s : Server ψ} (hlive : s.halt = none) :
    Server.Steps QuietStep s (untilSerial tick s) := by
  refine (clientEvent_steps tick hlive).andThen fun hlive' => ?_
  rw [serverEvent]
  split
  · exact acceptClient_steps _ hlive'
  · exact .refl _

theorem atPoll_steps (tick : Tick) {s : Server ψ} (hlive : s.halt = none) :
    Server.Steps QuietStep s (atPoll tick s) ∧ (atPoll tick s).halt = none := by
  obtain ⟨hpeers, hpeersLive, -⟩ := peerActs_steps tick.peers hlive
  exact ⟨hpeers.trans (.single hpeersLive (.polled _)), hpeersLive⟩

theorem atPoll_spec (tick : Tick) (s : Server ψ) :
    (atPoll tick s).gClients = s.gClients ∧ (atPoll tick s).gCommandingClient = s.gCommandingClient := by
  have hpeers (acts : List PeerAct) (s : Server ψ) :
      (peerActs acts s).gClients = s.gClients ∧ (peerActs acts s).gCommandingClient = s.gCommandingClient := by
    induction acts generalizing s with
    | nil => exact ⟨rfl, rfl⟩
    | cons act acts ih => exact ih (peerAct act s)
  exact hpeers tick.peers s

/-- An iteration is quiet but for its broadcast. -/
theorem handleEvents_steps (tick : Tick) {s : Server ψ} (hlive : s.halt = none) :
    ∃ s₁ s₂, Server.Steps QuietStep s s₁ ∧
      (s₂ = s₁ ∨ s₁.halt = none ∧ s₂ = sendDataToClients sigpipeIgnored lib tick s₁) ∧
      Server.Steps QuietStep s₂ (handleEvents sigpipeIgnored lib tick s) := by
  have hback (s : Server ψ) : Server.Steps QuietStep s ((s.andThen (userCmdEvent tick)).andThen promote) := by
    refine ((Server.Steps.refl s).andThen fun hlive' => ?_).andThen fun hlive' => .single hlive' (.promoted _)
    rw [userCmdEvent]
    split
    · exact readUserCmdEvent_steps tick hlive'
    · exact .refl _
  refine ⟨_, _, untilSerial_steps tick hlive, ?_, hback _⟩
  generalize untilSerial tick s = s₁
  rw [Server.andThen, serialEvent]
  split_ifs with hhalt hserial
  · exact .inl rfl
  · exact .inr ⟨Option.not_isSome_iff_eq_none.mp hhalt, rfl⟩
  · exact .inl rfl

theorem mainLoop_of_halted {s : Server ψ} (hhalt : s.halt ≠ none) (tick : Tick) :
    mainLoop sigpipeIgnored lib s tick = s :=
  if_pos (Option.isSome_iff_ne_none.mpr hhalt)

theorem mainLoop_of_live {s : Server ψ} (hlive : s.halt = none) (tick : Tick) :
    mainLoop sigpipeIgnored lib s tick =
      if tick.fails || tick.close then { terminateClients (atPoll tick s) with halt := some .stopped }
      else handleEvents sigpipeIgnored lib tick (atPoll tick s) := by
  rw [mainLoop, Server.andThen, hlive, Option.isSome_none, if_neg Bool.false_ne_true]

theorem live_of_mainLoop {s : Server ψ} {tick : Tick} (hlive : (mainLoop sigpipeIgnored lib s tick).halt = none) :
    s.halt = none := by
  by_contra hhalt
  rw [mainLoop_of_halted sigpipeIgnored lib hhalt] at hlive
  exact hhalt hlive

theorem mainLoop_steps (s : Server ψ) (tick : Tick) :
    ∃ s₁ s₂, Server.Steps QuietStep s s₁ ∧
      (s₂ = s₁ ∨ s₁.halt = none ∧ s₂ = sendDataToClients sigpipeIgnored lib tick s₁) ∧
      Server.Steps QuietStep s₂ (mainLoop sigpipeIgnored lib s tick) := by
  by_cases hlive : s.halt = none
  case neg =>
    rw [mainLoop_of_halted sigpipeIgnored lib hlive]
    exact ⟨s, s, .refl s, .inl rfl, .refl s⟩
  obtain ⟨hpoll, hpollLive⟩ := atPoll_steps tick hlive
  rw [mainLoop_of_live sigpipeIgnored lib hlive]
  split_ifs
  · obtain ⟨hsteps, hhalt⟩ := terminateClients_steps hpollLive
    exact ⟨s, s, .refl s, .inl rfl, (hpoll.trans hsteps).trans (.single hhalt (.halted _ (.inr rfl)))⟩
  · obtain ⟨s₁, s₂, hfront, hmiddle, hback⟩ := handleEvents_steps sigpipeIgnored lib tick hpollLive
    exact ⟨s₁, s₂, hpoll.trans hfront, hmiddle, hback⟩

end Loop

end MissionServer
