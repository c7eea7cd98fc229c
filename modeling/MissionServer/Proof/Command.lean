import MissionServer.Proof.Forwarding
import MissionServer.Proof.Logs

/-!
# Who is in command when bytes are written

Only the client at the head of the list is read from. What another client sends waits in its receive
queue, and is the first to be read once the client has come to the head.
-/

namespace MissionServer

variable {ψ : Type} {sigpipeIgnored : Bool} {lib : MavlinkLib ψ} {s s' : Server ψ}

/-! ### The bytes of waiting clients -/

section Tail

variable {α : Type*} {a b : α} {pre post : List α}

theorem mem_tail_concat (h : a ∈ (pre ++ [b]).tail) : a ∈ pre.tail ∨ a = b := by
  cases pre with
  | nil => cases h
  | cons head rest =>
      obtain h | h := List.mem_append.mp h
      · exact .inl h
      · exact .inr (List.mem_singleton.mp h)

theorem mem_tail_of_erased (h : a ∈ (pre ++ post).tail) : a ∈ (pre ++ b :: post).tail := by
  cases pre with
  | nil => exact List.mem_of_mem_tail h
  | cons head rest =>
      obtain h | h := List.mem_append.mp h
      · exact List.mem_append_left _ h
      · exact List.mem_append_right _ (List.mem_cons_of_mem _ h)

end Tail

/-- A step moves no bytes, and a client that it makes wait is new; or it serves the head of the list. -/
theorem Server.Step.bytes_cases (hstep : Server.Step sigpipeIgnored lib s s') :
    (∃ events, s'.history = s.history ++ events ∧ (∀ e ∈ events, MovesNoBytes e) ∧
      ∀ client ∈ s'.gClients.tail, client ∈ s.gClients.tail ∨ client.conn = (acceptedConns s.history).length) ∨
    (∃ client rest count writes, s.gClients = client :: rest ∧ recvData s.history client.conn count ≠ [] ∧
      s' = s.served client (recvData s.history client.conn count) writes) := by
  have hsame {s' : Server ψ} (hclients : s'.gClients = s.gClients) (client : ClientNode)
      (hmem : client ∈ s'.gClients.tail) :
      client ∈ s.gClients.tail ∨ client.conn = (acceptedConns s.history).length := .inl (hclients ▸ hmem)
  cases hstep with
  | quiet hquiet =>
      cases hquiet with
      | peer act =>
          refine .inl ⟨act.events s.history, rfl, ?_, hsame rfl⟩
          obtain heq | ⟨conn, data, -, heq⟩ | ⟨conn, -, heq⟩ := act.events_cases s.history
          all_goals simp [heq, MovesNoBytes]
      | polled => exact .inl ⟨_, rfl, by simp [MovesNoBytes], hsame rfl⟩
      | notAccepted => exact .inl ⟨_, rfl, by simp [MovesNoBytes], hsame rfl⟩
      | rejected hpos hfree => exact .inl ⟨_, rfl, by simp [MovesNoBytes], hsame rfl⟩
      | linked addr port hpos hfree =>
          refine .inl ⟨_, rfl, by simp [MovesNoBytes], fun client hmem => ?_⟩
          obtain hmem | rfl := mem_tail_concat hmem
          · exact .inl hmem
          · exact .inr rfl
      | terminated hclients =>
          refine .inl ⟨_, rfl, by simp [MovesNoBytes], fun client hmem => .inl ?_⟩
          rw [hclients]
          exact mem_tail_of_erased hmem
      | commander => exact .inl ⟨[], (List.append_nil _).symm, by simp, hsame rfl⟩
      | recvFailed hclients => exact .inl ⟨_, rfl, by simp [MovesNoBytes], hsame rfl⟩
      | served hclients hdata writes => exact .inr ⟨_, _, _, _, hclients, hdata, rfl⟩
      | userCmd received frames => exact .inl ⟨_, rfl, by simp [MovesNoBytes], hsame rfl⟩
      | promoted =>
          obtain ⟨hhistory, hclients, -, -⟩ := promote_spec s
          exact .inl ⟨[], hhistory.trans (List.append_nil _).symm, by simp, hsame hclients⟩
      | halted hhalt => exact .inl ⟨[], (List.append_nil _).symm, by simp, hsame rfl⟩
  | chunk envs data =>
      obtain ⟨hclients, -, frames, hhistory⟩ := receiveChunk_spec lib envs data s
      exact .inl ⟨_, hhistory, by simp [MovesNoBytes], hsame hclients⟩
  | sent hmem hreset data => exact .inl ⟨_, rfl, by simp [MovesNoBytes], hsame rfl⟩
  | sendFailed hmem hpipe => exact .inl ⟨_, rfl, by simp [MovesNoBytes], hsame rfl⟩
  | killed hmem hpipe hreset => exact .inl ⟨_, rfl, by simp [MovesNoBytes], hsame rfl⟩

theorem received_of_fresh {h : History} (hperm : History.Permitted CallPermitted h) :
    received (acceptedConns h).length h = [] := by
  apply List.flatMap_eq_nil_iff.mpr
  intro e he
  cases e with
  | received conn fd data => exact if_neg (conn_lt_of_received hperm he).ne
  | _ => rfl

/-- What has reached the port was taken, in this order; and nothing has been taken from a waiting client. -/
structure Server.Queued (s : Server ψ) : Prop where
  forwards : s.Forwards
  sublist : ∀ conn, (forwarded conn s.history).Sublist (received conn s.history)
  waiting : ∀ client ∈ s.gClients.tail, received client.conn s.history = []

theorem Server.Queued.step (hlinked : s.Linked) (hlive : s.halt = none) (hstep : Server.Step sigpipeIgnored lib s s')
    (h : s.Queued) : s'.Queued := by
  refine ⟨h.forwards.step hlinked hlive hstep, fun conn => ?_, fun client hmem => ?_⟩
  all_goals
    obtain ⟨events, hhistory, hevents, hclients⟩ | ⟨head, rest, count, writes, hlist, hdata, heq⟩ := hstep.bytes_cases
  · rw [hhistory, forwarded_append, received_append, forwarded_of_movesNoBytes conn hevents,
      received_of_movesNoBytes conn hevents, List.append_nil, List.append_nil]
    exact h.sublist conn
  · obtain ⟨hhistory, -, -, -⟩ := s.served_spec head (recvData s.history head.conn count) writes
    have hopen : isOpen s.history head.conn = true := hlinked.isOpen (by simp [hlist])
    have hserved := h.forwards.servedBytes hopen hhistory
    rw [heq, hserved.forwarded, hserved.received]
    refine (h.sublist conn).append ?_
    split_ifs
    · obtain ⟨hpre, -⟩ := serialWrite_prefix hdata writes
      exact hpre.sublist
    · exact List.Sublist.refl []
  · rw [hhistory, received_append, received_of_movesNoBytes client.conn hevents, List.append_nil]
    obtain hmem | hfresh := hclients client hmem
    · exact h.waiting client hmem
    · rw [hfresh]
      exact received_of_fresh hlinked.permitted
  · obtain ⟨hhistory, -, hclients, -⟩ := s.served_spec head (recvData s.history head.conn count) writes
    have hopen : isOpen s.history head.conn = true := hlinked.isOpen (by simp [hlist])
    have hserved := h.forwards.servedBytes hopen hhistory
    rw [heq, hclients, hlist] at hmem
    have hne : head.conn ≠ client.conn := (hlinked.head_conn_lt hlist hmem).ne
    rw [heq, hserved.received, if_neg hne, List.append_nil]
    exact h.waiting client (by rwa [hlist])

theorem queued_start (receiver : Receiver ψ) : (Server.start receiver).Queued :=
  ⟨forwards_start receiver, fun _ => List.Sublist.refl [], fun _ hmem => absurd hmem List.not_mem_nil⟩

/-! ### One iteration -/

/-- No bytes on the port but those of the client at the head of the list. -/
def NoOthersBytes (clients : List ClientNode) : KernelEvent → Prop
  | .forwarded conn _ => ∃ client rest, clients = client :: rest ∧ client.conn = conn
  | _ => True

theorem FromHead.noOthersBytes {clients : List ClientNode} {e : KernelEvent} (h : FromHead clients e) :
    NoOthersBytes clients e := by
  cases e with
  | forwarded conn data => exact h
  | _ => trivial

theorem Aside.noOthersBytes {e : KernelEvent} (h : Aside e) (clients : List ClientNode) : NoOthersBytes clients e :=
  (h.fromHead clients).noOthersBytes

theorem serialEvent_extends (clients : List ClientNode) (tick : Tick) (s : Server ψ) :
    s.Extends (NoOthersBytes clients) (serialEvent sigpipeIgnored lib tick s) := by
  rw [serialEvent]
  split
  · unfold sendDataToClients
    split
    · exact .refl s
    · exact .refl s
    · rename_i data hne hread
      obtain ⟨-, -, frames, hhistory⟩ := receiveChunk_spec lib tick.envs data s
      have hchunk : s.Extends (NoOthersBytes clients) (receiveChunk lib tick.envs data s) := by
        refine ⟨_, hhistory, List.forall_mem_cons.mpr ⟨trivial, fun e he => ?_⟩⟩
        obtain ⟨frame, -, rfl⟩ := List.mem_map.mp he
        trivial
      exact hchunk.andThen ((Server.Logs.broadcast _ _ _ _ _ _).history.mono fun _ he => he.noOthersBytes clients)
  · exact .refl s

theorem userCmdEvent_extends (clients : List ClientNode) (tick : Tick) (s : Server ψ) :
    s.Extends (NoOthersBytes clients) (userCmdEvent tick s) := by
  rw [userCmdEvent]
  split
  · refine ⟨_, rfl, fun e he => ?_⟩
    obtain ⟨frame, -, rfl⟩ := List.mem_map.mp he
    trivial
  · exact .refl s

variable (sigpipeIgnored lib) in
/-- What follows the client's event only adds to the history. -/
theorem handleEvents_extends (clients : List ClientNode) (tick : Tick) (s : Server ψ) :
    (clientEvent tick s).Extends (NoOthersBytes clients) (handleEvents sigpipeIgnored lib tick s) := by
  have hserver : (clientEvent tick s).Extends (NoOthersBytes clients) (untilSerial tick s) :=
    (Server.Extends.refl _).andThen ((Server.Logs.server tick _).history.mono fun _ he => he.noOthersBytes _)
  have hpromote (s' : Server ψ) : s'.Extends (NoOthersBytes clients) (promote s') :=
    (Server.Logs.promoted s').history.mono fun _ he => he.noOthersBytes _
  exact ((hserver.andThen (serialEvent_extends _ tick _)).andThen (userCmdEvent_extends _ tick _)).andThen (hpromote _)

theorem mainLoop_extends (s : Server ψ) (tick : Tick) :
    s.Extends (NoOthersBytes s.gClients) (mainLoop sigpipeIgnored lib s tick) := by
  refine (Server.Extends.refl s).andThen ?_
  dsimp only
  split_ifs
  · exact (Server.Logs.stopped tick s).history.mono fun _ he => he.noOthersBytes _
  · have hpolled := (Server.Logs.polled tick s).history.mono fun _ he => he.noOthersBytes s.gClients
    have hclient := (Server.Logs.client tick (atPoll tick s)).history.mono fun _ he => he.noOthersBytes
    have hrest := handleEvents_extends sigpipeIgnored lib s.gClients tick (atPoll tick s)
    rw [(atPoll_spec tick s).1] at hclient
    exact (hpolled.trans hclient).trans hrest

theorem forwarded_of_noOthersBytes {clients : List ClientNode} {events : History}
    (h : ∀ e ∈ events, NoOthersBytes clients e) {conn : Nat}
    (hconn : ¬ ∃ client rest, clients = client :: rest ∧ client.conn = conn) : forwarded conn events = [] := by
  apply List.flatMap_eq_nil_iff.mpr
  intro e he
  cases e with
  | forwarded conn' data =>
      obtain ⟨client, rest, hclients, hclient⟩ := h _ he
      exact if_neg fun heq => hconn ⟨client, rest, hclients, hclient.trans heq⟩
  | _ => rfl

/-- An iteration writes no client's bytes to the port but those of the head of the list. -/
theorem forwarded_mainLoop (s : Server ψ) (tick : Tick) {conn : Nat}
    (hne : forwarded conn (mainLoop sigpipeIgnored lib s tick).history ≠ forwarded conn s.history) :
    ∃ client rest, s.gClients = client :: rest ∧ client.conn = conn := by
  by_contra hconn
  have hextends : s.Extends (NoOthersBytes s.gClients) (mainLoop sigpipeIgnored lib s tick) := mainLoop_extends s tick
  obtain ⟨events, hhistory, hevents⟩ := hextends
  refine hne ?_
  rw [hhistory, forwarded_append, forwarded_of_noOthersBytes hevents hconn, List.append_nil]

/-! ### Runs -/

/-- Who is in command, in a state and in the iteration that leads to the next one. -/
structure Server.WritesInCommand (s s' : Server ψ) : Prop where
  commander : ∀ conn, forwarded conn s'.history ≠ forwarded conn s.history →
    ∃ client rest, s.gClients = client :: rest ∧ client.conn = conn ∧ s.gCommandingClient = client.id
  sublist : ∀ conn, (forwarded conn s.history).Sublist (arrived conn s.history)
  waiting : ∀ client ∈ s.gClients.tail,
    forwarded client.conn s.history = [] ∧ unread s.history client.conn = arrived client.conn s.history

theorem gCommandingClient_run (sigpipeIgnored : Bool) (lib : MavlinkLib ψ) (receiver : Receiver ψ) (ticks : List Tick)
    (hlive : (Machine.run (mainLoop sigpipeIgnored lib) (Server.start receiver) ticks).halt = none)
    {client : ClientNode} {rest : List ClientNode}
    (hclients : (Machine.run (mainLoop sigpipeIgnored lib) (Server.start receiver) ticks).gClients = client :: rest) :
    (Machine.run (mainLoop sigpipeIgnored lib) (Server.start receiver) ticks).gCommandingClient = client.id := by
  rcases List.eq_nil_or_concat ticks with rfl | ⟨earlier, tick, rfl⟩
  · cases hclients
  · rw [List.concat_eq_append, Machine.run_concat] at hlive hclients ⊢
    obtain ⟨s₀, heq⟩ := mainLoop_eq_promote hlive
    rw [heq] at hclients ⊢
    exact gCommandingClient_promote hclients

/-- In every iteration of every run: bytes of a connection reach the port only while its client is in command,
in the order it sent them and none of them twice. From a waiting client nothing has been read, so all that it
has sent is still there when it comes to command. -/
theorem writes_in_command (sigpipeIgnored : Bool) (lib : MavlinkLib ψ) (receiver : Receiver ψ) (ticks : List Tick)
    (tick : Tick) :
    let s := Machine.run (mainLoop sigpipeIgnored lib) (Server.start receiver) ticks
    s.WritesInCommand (mainLoop sigpipeIgnored lib s tick) := by
  intro s
  obtain ⟨-, hqueued⟩ : s.Linked ∧ s.Queued :=
    run_mainLoop_invariant (fun _ _ hlinked hlive hstep h => h.step hlinked hlive hstep) (queued_start receiver) ticks
  refine ⟨fun conn hne => ?_, fun conn => ?_, fun client hmem => ?_⟩
  · obtain ⟨client, rest, hclients, hconn⟩ := forwarded_mainLoop s tick hne
    have hlive : s.halt = none := by
      by_contra hhalt
      exact hne (by rw [mainLoop_of_halted sigpipeIgnored lib hhalt])
    exact ⟨client, rest, hclients, hconn, gCommandingClient_run sigpipeIgnored lib receiver ticks hlive hclients⟩
  · exact (hqueued.sublist conn).trans (hqueued.forwards.taken conn).sublist
  · have hnone := hqueued.waiting client hmem
    have hsublist := hqueued.sublist client.conn
    rw [hnone] at hsublist
    exact ⟨List.sublist_nil.mp hsublist, by rw [unread, hnone]; rfl⟩

/-- What a connection's client sends while it waits is not written. -/
def SentInCommand (sigpipeIgnored : Bool) (lib : MavlinkLib ψ) (receiver : Receiver ψ) (ticks : List Tick) : Prop :=
  ∀ earlier, earlier <+: ticks → ∀ client ∈
      (Machine.run (mainLoop sigpipeIgnored lib) (Server.start receiver) earlier).gClients.tail,
    (forwarded client.conn (Machine.run (mainLoop sigpipeIgnored lib) (Server.start receiver) ticks).history).Sublist
      ((arrived client.conn (Machine.run (mainLoop sigpipeIgnored lib) (Server.start receiver) ticks).history).drop
        (arrived client.conn
          (Machine.run (mainLoop sigpipeIgnored lib) (Server.start receiver) earlier).history).length)

/-- Two clients arrive, the second one sends a byte, the first one hangs up, and the byte is written. -/
theorem queued_byte_is_written :
    ¬ SentInCommand false silentLib ⟨(), {}⟩
      [{ idleTick with server := true, accept := .socket 7 true 0x7f000001 50000 },
       { idleTick with server := true, accept := .socket 8 true 0x7f000001 50001 },
       { idleTick with peers := [.write 1 [42]] },
       { idleTick with client := { hupOrErr := true } },
       { idleTick with client := { pollIn := true }, recv := 1, writes := [1] }] := by
  intro h
  have hwaiting := h
    [{ idleTick with server := true, accept := .socket 7 true 0x7f000001 50000 },
     { idleTick with server := true, accept := .socket 8 true 0x7f000001 50001 },
     { idleTick with peers := [.write 1 [42]] }] ⟨_, rfl⟩
    { id := 1, addr := 0x7f000001, port := 50001, client := 8, conn := 1 }
  exact absurd (hwaiting (by decide +kernel)) (by decide +kernel)

end MissionServer
