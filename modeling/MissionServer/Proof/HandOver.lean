import MissionServer.Proof.Command
import MissionServer.Proof.Delivery

/-!
# Failed reads and the change of command

`handle_commanding_client` keeps its count of failed reads in a static that it resets when it is first called
for another commander. Clients are read from in the order of their ids, and each of them only while it is in
command; so the static, whenever it counts at all, counts the failed reads of the client it is compared for.
-/

namespace MissionServer

variable {ψ : Type}

/-! ### Failed reads -/

/-- A `recv` on a connection that returned no bytes. -/
def IsFailedRead (conn : Nat) : KernelEvent → Bool
  | .received conn' _ data => conn' = conn && data.isEmpty
  | _ => false

def failedReads (conn : Nat) (h : History) : Nat := h.countP (IsFailedRead conn)

theorem failedReads_append (conn : Nat) (h h' : History) :
    failedReads conn (h ++ h') = failedReads conn h + failedReads conn h' :=
  List.countP_append

theorem failedReads_eq_zero {conn : Nat} {h : History} (hnone : ∀ fd, .received conn fd [] ∉ h) :
    failedReads conn h = 0 := by
  apply List.countP_eq_zero.mpr
  intro e he
  cases e with
  | received conn' fd data =>
      cases data with
      | nil =>
          have hne : conn' ≠ conn := by
            intro heq
            subst heq
            exact hnone fd he
          simp [IsFailedRead, hne]
      | cons byte data => simp [IsFailedRead]
  | _ => simp [IsFailedRead]

theorem failedReads_of_fresh {s : Server ψ} (hlinked : s.Linked) {conn : Nat}
    (hconn : (acceptedConns s.history).length ≤ conn) : failedReads conn s.history = 0 := by
  apply failedReads_eq_zero
  intro fd hmem
  exact absurd (conn_lt_of_received hlinked.permitted hmem) (not_lt.mpr hconn)

/-! ### The statics -/

/-- The statics of `handle_commanding_client`, and the failed reads of all connections. -/
def Server.tally (s : Server ψ) : Int × Nat × (Nat → Nat) :=
  (s.lastCommander, s.tryout, fun conn => failedReads conn s.history)

/-- Any event but a `recv`. -/
def NoRead : KernelEvent → Prop
  | .received _ _ _ => False
  | _ => True

theorem failedReads_of_noRead (conn : Nat) {events : History} (h : ∀ e ∈ events, NoRead e) :
    failedReads conn events = 0 :=
  failedReads_eq_zero fun _ hmem => h _ hmem

theorem tally_eq {s s' : Server ψ} {events : History} (hlast : s'.lastCommander = s.lastCommander)
    (htryout : s'.tryout = s.tryout) (hhistory : s'.history = s.history ++ events) (hevents : ∀ e ∈ events, NoRead e) :
    s'.tally = s.tally := by
  have hreads : (fun conn => failedReads conn s'.history) = fun conn => failedReads conn s.history := by
    funext conn
    rw [hhistory, failedReads_append, failedReads_of_noRead conn hevents, Nat.add_zero]
  rw [Server.tally, Server.tally, hlast, htryout, hreads]

theorem tally_inj {s s' : Server ψ} (h : s'.tally = s.tally) :
    s'.lastCommander = s.lastCommander ∧ s'.tryout = s.tryout ∧
      ∀ conn, failedReads conn s'.history = failedReads conn s.history := by
  obtain ⟨hlast, hrest⟩ := Prod.mk.inj h
  obtain ⟨htryout, hreads⟩ := Prod.mk.inj hrest
  exact ⟨hlast, htryout, fun conn => congrFun hreads conn⟩

theorem tally_peerActs (acts : List PeerAct) (s : Server ψ) : (peerActs acts s).tally = s.tally := by
  induction acts generalizing s with
  | nil => rfl
  | cons act acts ih =>
      refine (ih (peerAct act s)).trans (tally_eq rfl rfl rfl ?_)
      obtain hevents | ⟨conn, data, -, hevents⟩ | ⟨conn, -, hevents⟩ := act.events_cases s.history
      all_goals simp [hevents, NoRead]

theorem tally_atPoll (tick : Tick) (s : Server ψ) : (atPoll tick s).tally = s.tally := by
  have hpolled : (atPoll tick s).tally = (peerActs tick.peers s).tally :=
    tally_eq rfl rfl rfl (List.forall_mem_singleton.mpr trivial)
  rw [hpolled, tally_peerActs]

theorem tally_terminateClient (node : Option ClientNode) (pointer : Nat) (s : Server ψ) :
    (terminateClient node pointer s).1.tally = s.tally := by
  unfold terminateClient
  split
  · rfl
  · split
    · rfl
    · exact tally_eq rfl rfl rfl (List.forall_mem_singleton.mpr trivial)

theorem tally_acceptClient (outcome : AcceptOutcome) (s : Server ψ) : (acceptClient outcome s).tally = s.tally := by
  rw [acceptClient]
  split
  · rfl
  · exact tally_eq rfl rfl rfl (List.forall_mem_singleton.mpr trivial)
  · dsimp only
    split_ifs
    all_goals exact tally_eq rfl rfl (List.append_assoc _ _ _) (by simp [NoRead])

theorem tally_serverEvent (tick : Tick) (s : Server ψ) : (serverEvent tick s).tally = s.tally := by
  rw [serverEvent]
  split
  · exact tally_acceptClient _ s
  · rfl

theorem tally_sendCall (sigpipeIgnored : Bool) (data : Bytes) (client : ClientNode) (sent : Nat) (outcome : SendOutcome)
    (s : Server ψ) : (sendCall sigpipeIgnored data client sent outcome s).1.tally = s.tally := by
  refine Eq.trans ?_ (tally_peerActs outcome.peers s)
  rw [sendCall]
  dsimp only
  generalize peerActs outcome.peers s = s₁
  split_ifs
  all_goals exact tally_eq rfl rfl rfl (List.forall_mem_singleton.mpr trivial)

theorem tally_broadcast (sigpipeIgnored : Bool) (data : Bytes) (sends : List (List SendOutcome))
    (current : Option ClientNode) (previous : Nat) (s : Server ψ) :
    (broadcast sigpipeIgnored data sends current previous s).tally = s.tally := by
  induction sends generalizing current previous s with
  | nil => cases current <;> rfl
  | cons outcomes sends ih =>
      cases current with
      | none => rfl
      | some current =>
          have hpush := PushLoop.push_invariant (sendCall sigpipeIgnored data current) data.length
            (P := fun s' => s'.tally = s.tally)
            (fun off outcome s' h => (tally_sendCall sigpipeIgnored data current off outcome s').trans h) 0 outcomes rfl
          rw [broadcast]
          split
          · rename_i heq
            rw [heq] at hpush
            exact (ih _ _ _).trans hpush
          · rename_i s' heq
            rw [heq] at hpush
            split
            · exact hpush
            · exact ((ih _ _ _).trans (tally_terminateClient (some current) previous s')).trans hpush
          · rename_i heq
            rw [heq] at hpush
            exact hpush

theorem tally_andThen {f : Server ψ → Server ψ} (hf : ∀ s : Server ψ, (f s).tally = s.tally) (s : Server ψ) :
    (s.andThen f).tally = s.tally := by
  rw [Server.andThen]
  split
  · rfl
  · exact hf s

theorem tally_promote (s : Server ψ) : (promote s).tally = s.tally := by
  rw [promote]
  split
  · rfl
  · split <;> rfl

section Loop

variable (sigpipeIgnored : Bool) (lib : MavlinkLib ψ)

theorem tally_receiveChunk (envs : Nat → GstEnv) (data : Bytes) (s : Server ψ) :
    (receiveChunk lib envs data s).tally = s.tally := by
  obtain ⟨-, -, frames, hhistory⟩ := receiveChunk_spec lib envs data s
  refine tally_eq ?_ ?_ hhistory ?_
  · rw [receiveChunk]
    dsimp only
    split <;> rfl
  · rw [receiveChunk]
    dsimp only
    split <;> rfl
  · simp [NoRead]

theorem tally_serialEvent (tick : Tick) (s : Server ψ) : (serialEvent sigpipeIgnored lib tick s).tally = s.tally := by
  rw [serialEvent]
  split
  · unfold sendDataToClients
    split
    · rfl
    · rfl
    · rw [tally_andThen (fun s => tally_broadcast sigpipeIgnored _ tick.sends s.gClients.head? 0 s)]
      exact tally_receiveChunk lib tick.envs _ s
  · rfl

theorem tally_userCmdEvent (tick : Tick) (s : Server ψ) : (userCmdEvent tick s).tally = s.tally := by
  rw [userCmdEvent]
  split
  · refine tally_eq rfl rfl rfl (fun e he => ?_)
    obtain ⟨frame, -, rfl⟩ := List.mem_map.mp he
    trivial
  · rfl

/-- Behind the client's event, an iteration reads from no client. -/
theorem tally_handleEvents (tick : Tick) (s : Server ψ) :
    (handleEvents sigpipeIgnored lib tick s).tally = (clientEvent tick s).tally := by
  rw [handleEvents, tally_andThen tally_promote, tally_andThen (tally_userCmdEvent tick),
    tally_andThen (tally_serialEvent sigpipeIgnored lib tick), untilSerial, tally_andThen (tally_serverEvent tick)]

end Loop

/-! ### One read -/

/-- The failed reads that the static has counted for the client in command. -/
def Server.tried (s : Server ψ) : Nat := if s.lastCommander = s.gCommandingClient then s.tryout else 0

/-- The statics once `handle_commanding_client` has looked who is in command. -/
def Server.lookedUp (s : Server ψ) : Server ψ := { s with lastCommander := s.gCommandingClient, tryout := s.tried }

theorem lookedUp_eq (s : Server ψ) :
    (if s.lastCommander ≠ s.gCommandingClient then { s with lastCommander := s.gCommandingClient, tryout := 0 }
      else s) = s.lookedUp := by
  by_cases hsame : s.lastCommander = s.gCommandingClient
  · rw [if_neg (not_not.mpr hsame), Server.lookedUp, Server.tried, if_pos hsame]
    obtain ⟨⟩ := s
    cases hsame
    rfl
  · rw [if_pos hsame, Server.lookedUp, Server.tried, if_neg hsame]

/-- After a failed read that has been counted. -/
def Server.failedRead (s : Server ψ) (client : ClientNode) : Server ψ :=
  { s.lookedUp with tryout := s.tried + 1 }.log [.received client.conn client.client []]

/-- All that `handle_commanding_client` can do with a client. -/
theorem handleCommandingClient_spec {s : Server ψ} {client : ClientNode} {rest : List ClientNode}
    (hclients : s.gClients = client :: rest) (count : Int) (writes : List Int) :
    handleCommandingClient count writes s =
      if recvData s.history client.conn count = [] then
        if s.tried = 3 then (s.failedRead client).terminated [] client rest else s.failedRead client
      else s.lookedUp.served client (recvData s.history client.conn count) writes := by
  rw [handleCommandingClient]
  split
  · rename_i hnil
    rw [hnil] at hclients
    cases hclients
  · rename_i client' rest' hclients'
    obtain ⟨rfl, rfl⟩ := List.cons.inj (hclients'.symm.trans hclients)
    rw [lookedUp_eq]
    dsimp only
    have hlooked : recvData s.lookedUp.history client'.conn count = recvData s.history client'.conn count := rfl
    rw [hlooked]
    by_cases hdata : recvData s.history client'.conn count = []
    · rw [if_pos hdata, if_pos hdata, hdata]
      have hfailed : (s.failedRead client').gClients = client' :: rest' := hclients
      have hterminated : (terminateClient (s.failedRead client').gClients.head? 0 (s.failedRead client')).1 =
          (s.failedRead client').terminated [] client' rest' := congrArg Prod.fst (terminateHead_eq hfailed)
      rw [← hterminated]
      rfl
    · rw [if_neg hdata, if_neg hdata]
      rfl

/-- The serial port is written to, successfully or not. -/
def WritesPort : KernelEvent → Prop
  | .forwarded _ _ => True
  | .writeFailed _ => True
  | .own _ => True
  | _ => False

/-- One call of `handle_commanding_client` on the head of the list; `failed` tells how its `recv` went. -/
structure Server.ReadOnce (s s' : Server ψ) (client : ClientNode) (rest : List ClientNode) (failed : Bool) : Prop where
  lastCommander : s'.lastCommander = s.gCommandingClient
  tryout : s'.tryout = s.tried + failed.toNat
  reads : ∀ conn, failedReads conn s'.history =
    failedReads conn s.history + if conn = client.conn then failed.toNat else 0
  clients : s'.gClients = if failed = true ∧ s.tried = 3 then rest else s.gClients
  closed : failed = true → s.tried = 3 → client.socket ∈ closedConns s'.history
  port : ∃ events, s'.history = s.history ++ events ∧ (failed = true → ∀ e ∈ events, ¬ WritesPort e)

theorem failedReads_received (conn conn' : Nat) (fd : Int) (data : Bytes) :
    failedReads conn [.received conn' fd data] = if conn = conn' ∧ data = [] then 1 else 0 := by
  rw [failedReads, List.countP_singleton]
  cases data with
  | nil => simp [IsFailedRead, eq_comm]
  | cons byte data => simp [IsFailedRead]

theorem served_statics (s : Server ψ) (client : ClientNode) (data : Bytes) (writes : List Int) :
    (s.served client data writes).lastCommander = s.lastCommander ∧
      (s.served client data writes).tryout = s.tryout := by
  rw [Server.served]
  dsimp only
  split <;> exact ⟨rfl, rfl⟩

section ReadOnce

variable (s : Server ψ) (client : ClientNode) (rest : List ClientNode)

theorem failedReads_failedRead (conn : Nat) :
    failedReads conn (s.failedRead client).history =
      failedReads conn s.history + if conn = client.conn then true.toNat else 0 := by
  show failedReads conn (s.history ++ [.received client.conn client.client []]) = _
  rw [failedReads_append, failedReads_received]
  simp

theorem readOnce_fourth (htried : s.tried = 3) :
    s.ReadOnce ((s.failedRead client).terminated [] client rest) client rest true := by
  refine ⟨rfl, rfl, ?_, ?_, ?_, ?_⟩
  · intro conn
    show failedReads conn ((s.failedRead client).history ++ [.closed client.conn client.client]) = _
    rw [failedReads_append, failedReads_failedRead]
    rfl
  · rw [if_pos ⟨rfl, htried⟩]
    rfl
  · intro _ _
    show client.socket ∈ closedConns ((s.failedRead client).history ++ [.closed client.conn client.client])
    rw [closedConns_append_closed]
    exact List.mem_append_right _ List.mem_cons_self
  · refine ⟨[.received client.conn client.client [], .closed client.conn client.client], ?_, ?_⟩
    · exact List.append_assoc _ _ _
    · simp [WritesPort]

theorem readOnce_failed (htried : s.tried ≠ 3) : s.ReadOnce (s.failedRead client) client rest true := by
  refine ⟨rfl, rfl, failedReads_failedRead s client, ?_, ?_, ?_⟩
  · rw [if_neg (fun hboth => htried hboth.2)]
    rfl
  · exact fun _ htried' => absurd htried' htried
  · exact ⟨_, rfl, by simp [WritesPort]⟩

theorem readOnce_served {data : Bytes} (hdata : data ≠ []) (writes : List Int) :
    s.ReadOnce (s.lookedUp.served client data writes) client rest false := by
  obtain ⟨hlast, htryout⟩ := served_statics s.lookedUp client data writes
  obtain ⟨hhistory, -, hclients, -⟩ := s.lookedUp.served_spec client data writes
  refine ⟨hlast, htryout, ?_, ?_, nofun, _, hhistory, nofun⟩
  · intro conn
    rw [hhistory, failedReads_append, Bool.toNat_false, ite_self, Nat.add_zero]
    refine Nat.add_eq_left.mpr (failedReads_eq_zero fun fd hmem => ?_)
    obtain hread | hmem := List.mem_cons.mp hmem
    · exact hdata (KernelEvent.received.inj hread).2.2.symm
    · split_ifs at hmem <;> simp at hmem
  · rw [hclients, if_neg (fun hboth => Bool.false_ne_true hboth.1)]
    rfl

end ReadOnce

theorem handleCommandingClient_reads {s : Server ψ} {client : ClientNode} {rest : List ClientNode}
    (hclients : s.gClients = client :: rest) (count : Int) (writes : List Int) :
    s.ReadOnce (handleCommandingClient count writes s) client rest
      (decide (recvData s.history client.conn count = [])) := by
  rw [handleCommandingClient_spec hclients]
  by_cases hdata : recvData s.history client.conn count = []
  · rw [if_pos hdata, decide_eq_true hdata]
    by_cases htried : s.tried = 3
    · rw [if_pos htried]
      exact readOnce_fourth s client rest htried
    · rw [if_neg htried]
      exact readOnce_failed s client rest htried
  · rw [if_neg hdata, decide_eq_false hdata]
    exact readOnce_served s client rest hdata writes

/-! ### Newcomers -/

theorem Server.Step.list_cases {sigpipeIgnored : Bool} {lib : MavlinkLib ψ} {s s' : Server ψ}
    (hstep : Server.Step sigpipeIgnored lib s s') :
    (s'.gLastId = s.gLastId ∧ ∀ client ∈ s'.gClients, client ∈ s.gClients) ∨
    ∃ fd addr port, s' = s.linked fd addr port := by
  cases hstep with
  | quiet hquiet =>
      cases hquiet with
      | linked addr port hpos hfree => exact .inr ⟨_, addr, port, rfl⟩
      | terminated hclients =>
          refine .inl ⟨rfl, fun client hmem => ?_⟩
          rw [hclients]
          obtain hmem | hmem := List.mem_append.mp hmem
          · exact List.mem_append_left _ hmem
          · exact List.mem_append_right _ (List.mem_cons_of_mem _ hmem)
      | @served client rest hclients count hdata writes =>
          refine .inl ⟨?_, fun client hmem => ?_⟩
          · rw [Server.served]
            dsimp only
            split <;> rfl
          · rwa [(s.served_spec _ _ writes).2.2.1] at hmem
      | promoted =>
          refine .inl ⟨?_, fun client hmem => ?_⟩
          · rw [promote]
            split
            · rfl
            · split <;> rfl
          · rwa [(promote_spec s).2.1] at hmem
      | _ => exact .inl ⟨rfl, fun _ hmem => hmem⟩
  | chunk envs data =>
      refine .inl ⟨(receiveChunk_slot lib envs data s).1, fun client hmem => ?_⟩
      rwa [(receiveChunk_spec lib envs data s).1] at hmem
  | _ => exact .inl ⟨rfl, fun _ hmem => hmem⟩

/-- Of the clients that have come since `s`, the ids and the connections are new. -/
structure Server.Newcomers (s s' : Server ψ) : Prop where
  lastId : s.gLastId ≤ s'.gLastId
  accepted : (acceptedConns s.history).length ≤ (acceptedConns s'.history).length
  clients : ∀ client ∈ s'.gClients,
    client ∈ s.gClients ∨ s.gLastId < client.id ∧ (acceptedConns s.history).length ≤ client.conn

theorem Server.Newcomers.step {sigpipeIgnored : Bool} {lib : MavlinkLib ψ} {s₀ s s' : Server ψ} (h : s₀.Newcomers s)
    (hcommanded : s.Commanded) (hstep : Server.Step sigpipeIgnored lib s s')
    (hcount : (acceptedConns s'.history).length < 2 ^ 31) : s₀.Newcomers s' := by
  obtain ⟨hlastId, hsub⟩ | ⟨fd, addr, port, heq⟩ := hstep.list_cases
  · refine ⟨hlastId ▸ h.lastId, ?_, fun client hmem => h.clients client (hsub client hmem)⟩
    obtain ⟨events, hevents⟩ := hstep.history_prefix
    rw [← hevents, acceptedConns_append, List.length_append]
    exact Nat.le_add_right_of_le h.accepted
  · have hlength : (acceptedConns s'.history).length = (acceptedConns s.history).length + 1 := by
      rw [heq]
      simp [Server.linked, acceptedConns]
    have hid := hcommanded.nextId (by omega)
    have hlastId : s'.gLastId = s.gLastId + 1 := by
      rw [heq]
      exact hid
    have hold := h.lastId
    refine ⟨by omega, by rw [hlength]; exact Nat.le_add_right_of_le h.accepted, fun client hmem => ?_⟩
    rw [heq] at hmem
    obtain hmem | hmem := List.mem_append.mp hmem
    · exact h.clients client hmem
    · rw [List.mem_singleton.mp hmem]
      exact .inr ⟨by simp only [hid]; omega, h.accepted⟩

section Loop

variable {sigpipeIgnored : Bool} {lib : MavlinkLib ψ} {s : Server ψ}

theorem newcomers_mainLoop (hlinked : s.Linked) (hcommanded : s.Commanded) (tick : Tick)
    (hcount : (acceptedConns (mainLoop sigpipeIgnored lib s tick).history).length < 2 ^ 31) :
    (mainLoop sigpipeIgnored lib s tick).Linked ∧ (mainLoop sigpipeIgnored lib s tick).Commanded ∧
      s.Newcomers (mainLoop sigpipeIgnored lib s tick) := by
  have hsteps : Server.Steps (Server.Step sigpipeIgnored lib) s (mainLoop sigpipeIgnored lib s tick) :=
    mainLoop_allSteps hlinked tick
  have hend := hsteps.invariant
    (I := fun s' => s'.Linked ∧ ((acceptedConns s'.history).length < 2 ^ 31 → s'.Commanded ∧ s.Newcomers s')) ?_
    ⟨hlinked, fun _ => ⟨hcommanded, le_rfl, le_rfl, fun _ hmem => .inl hmem⟩⟩
  · exact ⟨hend.1, hend.2 hcount⟩
  · intro s₁ s₂ _ hstep hboth
    obtain ⟨hlinked, hI⟩ := hboth
    refine ⟨hlinked.step hstep, fun hcount => ?_⟩
    obtain ⟨events, hevents⟩ := hstep.history_prefix
    have hcount₁ : (acceptedConns s₁.history).length < 2 ^ 31 := by
      rw [← hevents, acceptedConns_append, List.length_append] at hcount
      omega
    obtain ⟨hcommanded, hnew⟩ := hI hcount₁
    exact ⟨hcommanded.step hlinked hstep hcount, hnew.step hcommanded hstep hcount⟩

end Loop

/-! ### One iteration -/

theorem tally_terminateClients (s : Server ψ) : (terminateClients s).tally = s.tally := by
  rw [terminateClients]
  generalize s.gClients = clients
  induction clients generalizing s with
  | nil => rfl
  | cons client clients ih => exact (ih _).trans (tally_terminateClient _ _ s)

/-- Neither has `poll` failed nor is the server to shut down. -/
def Tick.goesOn (tick : Tick) : Bool := !(tick.fails || tick.close)

/-- The `recv` of an iteration, if it makes one: a connection and what it has got of it. -/
def Server.clientRead (s : Server ψ) (tick : Tick) : Option (Nat × Bytes) :=
  if tick.goesOn ∧ ¬ tick.client.hupOrErr ∧ tick.client.pollIn then
    s.gClients.head?.map fun head => (head.conn, recvData (atPoll tick s).history head.conn tick.recv)
  else none

section Read

variable {s : Server ψ} {tick : Tick}

theorem goesOn_of_clientRead {conn : Nat} {data : Bytes} (h : s.clientRead tick = some (conn, data)) :
    tick.goesOn = true := by
  rw [Server.clientRead] at h
  split_ifs at h with hreads
  exact hreads.1

/-- An iteration that reads calls `handle_commanding_client`, and the `recv` is on the head of the list. -/
theorem clientEvent_of_clientRead {conn : Nat} {data : Bytes} (h : s.clientRead tick = some (conn, data)) :
    ∃ head rest, s.gClients = head :: rest ∧ head.conn = conn ∧
      recvData (atPoll tick s).history head.conn tick.recv = data ∧ tick.client.hupOrErr = false ∧
      (atPoll tick s).ReadOnce (clientEvent tick (atPoll tick s)) head rest (decide (data = [])) := by
  rw [Server.clientRead] at h
  split_ifs at h with hreads
  obtain ⟨-, hhup, hpollIn⟩ := hreads
  cases hclients : s.gClients with
  | nil => simp [hclients] at h
  | cons head rest =>
      rw [hclients, List.head?_cons, Option.map_some, Option.some.injEq] at h
      obtain ⟨hconn, hdata⟩ := Prod.mk.inj h
      have hread := handleCommandingClient_reads ((atPoll_spec tick s).1.trans hclients) tick.recv tick.writes
      rw [hdata] at hread
      refine ⟨head, rest, rfl, hconn, hdata, Bool.eq_false_iff.mpr hhup, ?_⟩
      rwa [clientEvent, if_neg hhup, if_pos hpollIn]

/-- An iteration that goes on without a read: nothing happens to the head, or it is taken out. -/
theorem clientEvent_of_no_clientRead (hgoes : tick.goesOn = true) (h : s.clientRead tick = none) :
    clientEvent tick (atPoll tick s) =
      if tick.client.hupOrErr then (terminateClient s.gClients.head? 0 (atPoll tick s)).1 else atPoll tick s := by
  rw [clientEvent, (atPoll_spec tick s).1]
  split_ifs with hhup hpollIn
  · rfl
  · rw [Server.clientRead, if_pos ⟨hgoes, hhup, hpollIn⟩, Option.map_eq_none_iff, List.head?_eq_none_iff] at h
    rw [handleCommandingClient, (atPoll_spec tick s).1, h]
  · rfl

theorem tally_clientEvent (hgoes : tick.goesOn = true) (h : s.clientRead tick = none) :
    (clientEvent tick (atPoll tick s)).tally = s.tally := by
  rw [clientEvent_of_no_clientRead hgoes h]
  split_ifs
  · exact (tally_terminateClient _ _ _).trans (tally_atPoll tick s)
  · exact tally_atPoll tick s

end Read

section Loop

variable {sigpipeIgnored : Bool} {lib : MavlinkLib ψ} {s : Server ψ}

theorem mainLoop_of_goesOn (hlive : s.halt = none) {tick : Tick} (hgoes : tick.goesOn = true) :
    mainLoop sigpipeIgnored lib s tick = handleEvents sigpipeIgnored lib tick (atPoll tick s) := by
  rw [mainLoop_of_live sigpipeIgnored lib hlive, if_neg (by simpa [Tick.goesOn] using hgoes)]

theorem goesOn_of_live (hlive : s.halt = none) {tick : Tick}
    (hlive' : (mainLoop sigpipeIgnored lib s tick).halt = none) : tick.goesOn = true := by
  rw [mainLoop_of_live sigpipeIgnored lib hlive] at hlive'
  split_ifs at hlive' with hleaves
  simpa [Tick.goesOn] using hleaves

theorem tally_mainLoop (hlive : s.halt = none) {tick : Tick} (hread : s.clientRead tick = none) :
    (mainLoop sigpipeIgnored lib s tick).tally = s.tally := by
  cases hgoes : tick.goesOn with
  | false =>
      have hleaves : (tick.fails || tick.close) = true := by rwa [Tick.goesOn, Bool.not_eq_false'] at hgoes
      rw [mainLoop_of_live sigpipeIgnored lib hlive, if_pos hleaves]
      exact (tally_terminateClients _).trans (tally_atPoll tick s)
  | true =>
      rw [mainLoop_of_goesOn hlive hgoes, tally_handleEvents]
      exact tally_clientEvent hgoes hread

variable (sigpipeIgnored lib) in
theorem mainLoop_reads (hlive : s.halt = none) {tick : Tick} {conn : Nat} {data : Bytes}
    (hread : s.clientRead tick = some (conn, data)) :
    ∃ head rest, s.gClients = head :: rest ∧ head.conn = conn ∧
      (atPoll tick s).ReadOnce (clientEvent tick (atPoll tick s)) head rest (decide (data = [])) ∧
      (mainLoop sigpipeIgnored lib s tick).tally = (clientEvent tick (atPoll tick s)).tally := by
  obtain ⟨head, rest, hclients, hconn, -, -, honce⟩ := clientEvent_of_clientRead hread
  refine ⟨head, rest, hclients, hconn, honce, ?_⟩
  rw [mainLoop_of_goesOn hlive (goesOn_of_clientRead hread), tally_handleEvents]

variable (sigpipeIgnored lib) in
theorem mainLoop_afterClient (hlive : s.halt = none) {tick : Tick} (hgoes : tick.goesOn = true) :
    (clientEvent tick (atPoll tick s)).Extends (NoOthersBytes []) (mainLoop sigpipeIgnored lib s tick) := by
  rw [mainLoop_of_goesOn hlive hgoes]
  exact handleEvents_extends sigpipeIgnored lib [] tick (atPoll tick s)

theorem failedReads_mainLoop (hlive : s.halt = none) (tick : Tick) (conn : Nat) :
    failedReads conn (mainLoop sigpipeIgnored lib s tick).history =
      failedReads conn s.history + if s.clientRead tick = some (conn, []) then 1 else 0 := by
  cases hread : s.clientRead tick with
  | none =>
      rw [if_neg (Option.some_ne_none _).symm]
      exact (tally_inj (tally_mainLoop hlive hread)).2.2 conn
  | some read =>
      obtain ⟨head, rest, -, hconn, honce, htally⟩ := mainLoop_reads sigpipeIgnored lib hlive hread
      rw [(tally_inj htally).2.2, honce.reads, (tally_inj (tally_atPoll tick s)).2.2, hconn]
      refine congrArg (failedReads conn s.history + ·) ?_
      by_cases hsame : conn = read.1
      · by_cases hnone : read.2 = []
        · rw [if_pos hsame, if_pos (by rw [hsame, ← hnone]), decide_eq_true hnone]
          rfl
        · rw [if_pos hsame, if_neg (fun heq => hnone (congrArg Prod.snd (Option.some.inj heq))), decide_eq_false hnone]
          rfl
      · rw [if_neg hsame, if_neg (fun heq => hsame (congrArg Prod.fst (Option.some.inj heq)).symm)]

end Loop

/-! ### The budget -/

/-- The statics at the top of an iteration. No client before the one that they are about is left in the list,
none behind it has been read from, and of it they have counted the failed reads. -/
structure Server.Tallied (s : Server ψ) : Prop where
  lastLe : s.lastCommander ≤ s.gLastId
  order : ∀ client ∈ s.gClients, s.lastCommander ≤ client.id
  waiting : ∀ client ∈ s.gClients, s.lastCommander < client.id → failedReads client.conn s.history = 0
  serving : ∀ client ∈ s.gClients, s.lastCommander = client.id →
    s.tryout = failedReads client.conn s.history ∧ s.tryout ≤ 3

theorem tallied_start (receiver : Receiver ψ) : (Server.start receiver).Tallied where
  lastLe := le_rfl
  order := by
    intro client hmem
    cases hmem
  waiting := by
    intro client hmem
    cases hmem
  serving := by
    intro client hmem
    cases hmem

section Budget

variable {s s' : Server ψ} {head : ClientNode} {rest : List ClientNode}

theorem Server.head_mem (hclients : s.gClients = head :: rest) : head ∈ s.gClients := by
  rw [hclients]
  exact List.mem_cons_self

/-- With the head in command, the next call counts on from the head's own failed reads. -/
theorem Server.Tallied.tried (h : s.Tallied) (hclients : s.gClients = head :: rest)
    (hcommand : s.gCommandingClient = head.id) : s.tried = failedReads head.conn s.history ∧ s.tried ≤ 3 := by
  have hmem := Server.head_mem hclients
  rw [Server.tried, hcommand]
  by_cases hlast : s.lastCommander = head.id
  · rw [if_pos hlast]
    exact h.serving head hmem hlast
  · rw [if_neg hlast]
    exact ⟨(h.waiting head hmem (lt_of_le_of_ne (h.order head hmem) hlast)).symm, Nat.zero_le 3⟩

theorem Server.Tallied.keep (h : s.Tallied) (hlinked : s.Linked) (hnew : s.Newcomers s') (htally : s'.tally = s.tally) :
    s'.Tallied := by
  obtain ⟨hlast, htryout, hreads⟩ := tally_inj htally
  have hlastLe := h.lastLe
  refine ⟨?_, fun client hmem => ?_, fun client hmem hlt => ?_, fun client hmem heq => ?_⟩
  · rw [hlast]
    exact hlastLe.trans hnew.lastId
  · rw [hlast]
    obtain hold | hfresh := hnew.clients client hmem
    · exact h.order client hold
    · omega
  · rw [hreads]
    obtain hold | hfresh := hnew.clients client hmem
    · exact h.waiting client hold (hlast ▸ hlt)
    · exact failedReads_of_fresh hlinked hfresh.2
  · rw [hreads, htryout]
    obtain hold | hfresh := hnew.clients client hmem
    · exact h.serving client hold (hlast ▸ heq)
    · omega

/-- A client in an iteration that begins with this head: it is the head, or has never been read from. -/
theorem Server.Tallied.not_head (h : s.Tallied) (hlinked : s.Linked) (hcommanded : s.Commanded)
    (hclients : s.gClients = head :: rest) (hnew : s.Newcomers s') {client : ClientNode} (hmem : client ∈ s'.gClients)
    (hne : client ≠ head) :
    head.id < client.id ∧ client.conn ≠ head.conn ∧ failedReads client.conn s.history = 0 := by
  have hhead := Server.head_mem hclients
  obtain hold | hfresh := hnew.clients client hmem
  · have hrest : client ∈ rest := by
      rw [hclients] at hold
      exact (List.mem_cons.mp hold).resolve_left hne
    have hlt := hcommanded.head_lt hclients hrest
    refine ⟨hlt, (hlinked.head_conn_lt hclients hrest).ne', ?_⟩
    exact h.waiting client hold (lt_of_le_of_lt (h.order head hhead) hlt)
  · have hconn := hlinked.conn_lt hhead
    exact ⟨lt_of_le_of_lt (hcommanded.idsLe head hhead) hfresh.1, by omega, failedReads_of_fresh hlinked hfresh.2⟩

/-- The fourth failure has closed the socket; a head that is still in the list has failed less often. -/
theorem Server.ReadOnce.spared {mid after : Server ψ} {failed : Bool} (hread : mid.ReadOnce after head rest failed)
    (hbudget : mid.tried ≤ 3) (hlinked' : s'.Linked) (hextends : after.history <+: s'.history)
    (hmem : head ∈ s'.gClients) : mid.tried + failed.toNat ≤ 3 := by
  cases failed with
  | false => exact hbudget
  | true =>
      have hnot : mid.tried ≠ 3 := by
        intro hthree
        obtain ⟨events, hevents⟩ := hextends
        have hclosed : head.socket ∈ closedConns s'.history := by
          rw [← hevents, closedConns_append]
          exact List.mem_append_left _ (hread.closed rfl hthree)
        exact (mem_openConns.mp (hlinked'.mem_openConns hmem)).2 hclosed
      simp only [Bool.toNat_true]
      omega

theorem Server.Tallied.read (h : s.Tallied) (hlinked : s.Linked) (hcommanded : s.Commanded)
    (hclients : s.gClients = head :: rest) (hcommand : s.gCommandingClient = head.id) (hnew : s.Newcomers s')
    (hlinked' : s'.Linked) {mid after : Server ψ} {failed : Bool} (htried : mid.tried = s.tried)
    (hmid : mid.tally = s.tally) (hmidCommand : mid.gCommandingClient = s.gCommandingClient)
    (hread : mid.ReadOnce after head rest failed) (htally : s'.tally = after.tally)
    (hextends : after.history <+: s'.history) : s'.Tallied := by
  obtain ⟨hlast, htryout, hreads⟩ := tally_inj htally
  obtain ⟨-, -, hmidReads⟩ := tally_inj hmid
  rw [hread.lastCommander, hmidCommand, hcommand] at hlast
  have hhead := Server.head_mem hclients
  have hreads (conn : Nat) : failedReads conn s'.history =
      failedReads conn s.history + if conn = head.conn then failed.toNat else 0 := by
    rw [hreads, hread.reads, hmidReads]
  obtain ⟨hcount, hbudget⟩ := h.tried hclients hcommand
  refine ⟨?_, fun client hmem => ?_, fun client hmem hlt => ?_, fun client hmem heq => ?_⟩
  · rw [hlast]
    exact (hcommanded.idsLe head hhead).trans hnew.lastId
  · rw [hlast]
    by_cases hsame : client = head
    · rw [hsame]
    · exact (h.not_head hlinked hcommanded hclients hnew hmem hsame).1.le
  · have hne : client ≠ head := by
      intro hsame
      rw [hlast, hsame] at hlt
      exact lt_irrefl _ hlt
    obtain ⟨-, hconn, hnone⟩ := h.not_head hlinked hcommanded hclients hnew hmem hne
    rw [hreads, if_neg hconn, hnone]
  · have hsame : client = head := by
      by_contra hne
      have hlt := (h.not_head hlinked hcommanded hclients hnew hmem hne).1
      rw [hlast] at heq
      omega
    subst hsame
    rw [htryout, hread.tryout, hreads, if_pos rfl, htried]
    refine ⟨by rw [hcount], ?_⟩
    rw [← htried]
    exact hread.spared (htried ▸ hbudget) hlinked' hextends hmem

end Budget

theorem tried_atPoll (tick : Tick) (s : Server ψ) : (atPoll tick s).tried = s.tried := by
  obtain ⟨hlast, htryout, -⟩ := tally_inj (tally_atPoll tick s)
  rw [Server.tried, Server.tried, hlast, htryout, (atPoll_spec tick s).2]

section Run

variable (sigpipeIgnored : Bool) (lib : MavlinkLib ψ)

theorem Server.Tallied.next {s : Server ψ} (h : s.Tallied) (hlinked : s.Linked) (hcommanded : s.Commanded)
    (hlive : s.halt = none) (hcommand : ∀ head rest, s.gClients = head :: rest → s.gCommandingClient = head.id)
    (tick : Tick) (hcount : (acceptedConns (mainLoop sigpipeIgnored lib s tick).history).length < 2 ^ 31) :
    (mainLoop sigpipeIgnored lib s tick).Tallied := by
  obtain ⟨hlinked', -, hnew⟩ := newcomers_mainLoop hlinked hcommanded tick hcount
  cases hread : s.clientRead tick with
  | none => exact h.keep hlinked hnew (tally_mainLoop hlive hread)
  | some read =>
      obtain ⟨head, rest, hclients, -, honce, htally⟩ := mainLoop_reads sigpipeIgnored lib hlive hread
      obtain ⟨events, hhistory, -⟩ := mainLoop_afterClient sigpipeIgnored lib hlive
        (goesOn_of_clientRead hread)
      have hmid := tally_atPoll tick s
      have hmidCommand := (atPoll_spec tick s).2
      exact h.read hlinked hcommanded hclients (hcommand head rest hclients) hnew hlinked' (tried_atPoll tick s) hmid
        hmidCommand honce htally ⟨events, hhistory.symm⟩

theorem acceptedConns_mainLoop_le (s : Server ψ) (tick : Tick) :
    (acceptedConns s.history).length ≤ (acceptedConns (mainLoop sigpipeIgnored lib s tick).history).length := by
  have hextends : s.Extends (NoOthersBytes s.gClients) (mainLoop sigpipeIgnored lib s tick) := mainLoop_extends s tick
  obtain ⟨events, hhistory, -⟩ := hextends
  rw [hhistory, acceptedConns_append, List.length_append]
  exact Nat.le_add_right _ _

/-- At the top of every iteration of every run with fewer than 2^31 accepted connections. -/
theorem tallied_run (receiver : Receiver ψ) (ticks : List Tick)
    (hcount : (acceptedConns (Machine.run (mainLoop sigpipeIgnored lib) (Server.start receiver) ticks).history).length <
      2 ^ 31)
    (hlive : (Machine.run (mainLoop sigpipeIgnored lib) (Server.start receiver) ticks).halt = none) :
    (Machine.run (mainLoop sigpipeIgnored lib) (Server.start receiver) ticks).Tallied := by
  induction ticks using List.reverseRecOn with
  | nil => exact tallied_start receiver
  | append_singleton ticks tick ih =>
      rw [Machine.run_concat] at hcount hlive ⊢
      have hlive₀ := live_of_mainLoop sigpipeIgnored lib hlive
      have hcount₀ := lt_of_le_of_lt (acceptedConns_mainLoop_le sigpipeIgnored lib _ tick) hcount
      obtain ⟨hlinked, hcommanded⟩ := commanded_run sigpipeIgnored lib receiver ticks
      exact (ih hcount₀ hlive₀).next sigpipeIgnored lib hlinked (hcommanded hcount₀) hlive₀
        (fun _ _ hclients => gCommandingClient_run sigpipeIgnored lib receiver ticks hlive₀ hclients) tick hcount

/-- A client that has come to the head of the list in an iteration has not failed a read yet. -/
theorem failedReads_successor {s : Server ψ} (h : s.Tallied) (hlinked : s.Linked) (hcommanded : s.Commanded)
    (hlive : s.halt = none) {tick : Tick}
    (hcount : (acceptedConns (mainLoop sigpipeIgnored lib s tick).history).length < 2 ^ 31) {head : ClientNode}
    (hmem : head ∈ (mainLoop sigpipeIgnored lib s tick).gClients) (hhead : s.gClients.head? ≠ some head) :
    failedReads head.conn (mainLoop sigpipeIgnored lib s tick).history = 0 := by
  obtain ⟨-, -, hnew⟩ := newcomers_mainLoop hlinked hcommanded tick hcount
  have hbefore : (∀ old rest, s.gClients = old :: rest → old.conn ≠ head.conn) ∧
      failedReads head.conn s.history = 0 := by
    cases hclients : s.gClients with
    | nil =>
        obtain hold | hfresh := hnew.clients head hmem
        · rw [hclients] at hold
          cases hold
        · exact ⟨nofun, failedReads_of_fresh hlinked hfresh.2⟩
    | cons old rest =>
        have hne : head ≠ old := by
          intro heq
          rw [hclients, heq] at hhead
          exact hhead rfl
        obtain ⟨-, hconn, hnone⟩ := h.not_head hlinked hcommanded hclients hnew hmem hne
        refine ⟨fun old' rest' heq => ?_, hnone⟩
        rw [← (List.cons.inj heq).1]
        exact hconn.symm
  obtain ⟨hothers, hnone⟩ := hbefore
  rw [failedReads_mainLoop hlive, hnone, Nat.zero_add, if_neg]
  intro hread
  obtain ⟨old, rest, hclients, hconn, -⟩ := clientEvent_of_clientRead hread
  exact hothers old rest hclients hconn

/-- The events that an iteration has added. -/
def Server.added (s s' : Server ψ) : History := s'.history.drop s.history.length

theorem added_eq {s s' : Server ψ} {events : History} (h : s'.history = s.history ++ events) : s.added s' = events := by
  rw [Server.added, h, List.drop_left]

/-- The head's event takes it out for two reasons: its peer is gone, or a fourth read has failed. -/
def Server.takesOut (s : Server ψ) (tick : Tick) (head : ClientNode) : Prop :=
  tick.client.hupOrErr ∨ s.clientRead tick = some (head.conn, []) ∧ failedReads head.conn s.history = 3

section Event

variable {sigpipeIgnored : Bool} {lib : MavlinkLib ψ} {s : Server ψ} {tick : Tick} {head : ClientNode}
  {rest : List ClientNode}

theorem takesOut_of_clientRead {data : Bytes}
    (hread : s.clientRead tick = some (head.conn, data)) :
    s.takesOut tick head ↔ data = [] ∧ failedReads head.conn s.history = 3 := by
  obtain ⟨-, -, -, -, -, hhup, -⟩ := clientEvent_of_clientRead hread
  simp [Server.takesOut, hhup, hread]

theorem takesOut_of_no_clientRead (hread : s.clientRead tick = none) :
    s.takesOut tick head ↔ tick.client.hupOrErr = true := by
  simp [Server.takesOut, hread]

theorem clientRead_head {conn : Nat} {data : Bytes} (hclients : s.gClients = head :: rest)
    (hread : s.clientRead tick = some (conn, data)) : s.clientRead tick = some (head.conn, data) := by
  obtain ⟨head', rest', hclients', hconn, -⟩ := clientEvent_of_clientRead hread
  obtain ⟨rfl, -⟩ := List.cons.inj (hclients.symm.trans hclients')
  rw [hconn, hread]

/-- The head's event, where the static counts the head's own failed reads. -/
theorem clientEvent_list (hgoes : tick.goesOn = true) (hclients : s.gClients = head :: rest)
    (htried : (atPoll tick s).tried = failedReads head.conn s.history) :
    (s.takesOut tick head → (clientEvent tick (atPoll tick s)).gClients = rest ∧
      head.socket ∈ closedConns (clientEvent tick (atPoll tick s)).history) ∧
    (¬ s.takesOut tick head → (clientEvent tick (atPoll tick s)).gClients = s.gClients) := by
  have hpoll : (atPoll tick s).gClients = s.gClients := (atPoll_spec tick s).1
  cases hread : s.clientRead tick with
  | none =>
      rw [takesOut_of_no_clientRead hread, clientEvent_of_no_clientRead hgoes hread, ← hpoll,
        terminateHead_eq (hpoll.trans hclients)]
      refine ⟨fun hhup => ?_, fun hhup => ?_⟩
      · rw [if_pos hhup]
        refine ⟨rfl, ?_⟩
        show head.socket ∈ closedConns ((atPoll tick s).history ++ [.closed head.conn head.client])
        rw [closedConns_append_closed]
        exact List.mem_append_right _ List.mem_cons_self
      · rw [if_neg hhup]
  | some read =>
      have hhead := clientRead_head hclients hread
      obtain ⟨head', rest', hclients', -, -, -, honce⟩ := clientEvent_of_clientRead hread
      obtain ⟨rfl, rfl⟩ := List.cons.inj (hclients.symm.trans hclients')
      rw [takesOut_of_clientRead hhead, ← htried, ← hpoll, honce.clients]
      refine ⟨fun hboth => ?_, fun hnot => if_neg fun hboth => hnot ⟨of_decide_eq_true hboth.1, hboth.2⟩⟩
      have hfailed : decide (read.2 = []) = true := decide_eq_true hboth.1
      exact ⟨if_pos ⟨hfailed, hboth.2⟩, honce.closed hfailed hboth.2⟩

theorem clientEvent_port (hgoes : tick.goesOn = true)
    (hread : ∀ conn data, s.clientRead tick = some (conn, data) → data = []) :
    (atPoll tick s).Extends (¬ WritesPort ·) (clientEvent tick (atPoll tick s)) := by
  cases hnone : s.clientRead tick with
  | none =>
      rw [clientEvent_of_no_clientRead hgoes hnone]
      split_ifs
      · rw [← (atPoll_spec tick s).1]
        cases hclients : (atPoll tick s).gClients with
        | nil => exact .refl _
        | cons head rest =>
            rw [← hclients, terminateHead_eq hclients]
            exact ⟨_, rfl, by simp [WritesPort]⟩
      · exact .refl _
  | some read =>
      obtain ⟨head, rest, -, -, -, -, honce⟩ := clientEvent_of_clientRead hnone
      obtain ⟨events, hhistory, hwrites⟩ := honce.port
      exact ⟨events, hhistory, hwrites (decide_eq_true (hread _ _ hnone))⟩

end Event

/-- Who may fail how often, at the top of an iteration and in it. The head is in command, with at most three failed
reads, and only it is read from. An iteration counts a failed read on from the head's own. The head's event takes it
out where its peer is gone, and otherwise exactly on its fourth failed read; in an iteration that goes on to the next
it is not in the list any more for these reasons alone, or because a `send` to it has failed. To the port goes what a
client has sent after a successful read only. Whoever heads the list when the iteration ends, the first of the rest
to arrive, is in command for the next one; a new head with no failed read. -/
structure Server.HandsOver (s : Server ψ) (tick : Tick) (s' : Server ψ) : Prop where
  command : ∀ head rest, s.gClients = head :: rest →
    s.gCommandingClient = head.id ∧ s.clientFd = head.client ∧ failedReads head.conn s.history ≤ 3
  reads : ∀ conn, failedReads conn s'.history =
    failedReads conn s.history + if s.clientRead tick = some (conn, []) then 1 else 0
  counted : ∀ conn data, s.clientRead tick = some (conn, data) →
    s'.lastCommander = s.gCommandingClient ∧ s'.tryout = failedReads conn s'.history
  uncounted : s.clientRead tick = none → s'.lastCommander = s.lastCommander ∧ s'.tryout = s.tryout
  event : tick.goesOn = true → ∀ head rest, s.gClients = head :: rest →
    (s.takesOut tick head → (clientEvent tick (atPoll tick s)).gClients = rest) ∧
    (¬ s.takesOut tick head → (clientEvent tick (atPoll tick s)).gClients = s.gClients)
  takenOut : tick.goesOn = true → ∀ head rest, s.gClients = head :: rest → s.takesOut tick head →
    head.socket ∈ closedConns s'.history ∧ head ∉ s'.gClients
  kept : s'.halt = none → ∀ head rest, s.gClients = head :: rest → head ∉ s'.gClients →
    s.takesOut tick head ∨ .sendFailed head.conn head.client ∈ s.added s'
  port : (∀ conn data, s.clientRead tick = some (conn, data) → data = []) →
    (∀ conn data, .forwarded conn data ∉ s.added s') ∧
    (tick.goesOn = true → ∀ e ∈ (atPoll tick s).added (clientEvent tick (atPoll tick s)), ¬ WritesPort e)
  succession : s'.halt = none → ∀ head rest, s'.gClients = head :: rest →
    s'.gCommandingClient = head.id ∧ s'.clientFd = head.client ∧
    (∀ client ∈ rest, head.conn < client.conn) ∧
    (s.gClients.head? ≠ some head → failedReads head.conn s'.history = 0)

theorem gClients_serverEvent (tick : Tick) (s : Server ψ) : s.gClients <+: (serverEvent tick s).gClients := by
  rw [serverEvent, acceptClient]
  split
  · split
    · exact List.prefix_rfl
    · exact List.prefix_rfl
    · dsimp only
      split_ifs
      · exact List.prefix_append _ _
      · exact List.prefix_rfl
  · exact List.prefix_rfl

theorem mem_gClients_untilSerial {tick : Tick} {s : Server ψ} {client : ClientNode}
    (hmem : client ∈ (clientEvent tick s).gClients) : client ∈ (untilSerial tick s).gClients := by
  rw [untilSerial, Server.andThen]
  split
  · exact hmem
  · exact (gClients_serverEvent tick _).subset hmem

/-- Behind the client's event a client goes from the list where a `send` to it fails. -/
theorem sendFailed_of_gone {s : Server ψ} (hlinked : s.Linked) (hlive : s.halt = none) {tick : Tick}
    (hlive' : (mainLoop sigpipeIgnored lib s tick).halt = none) {client : ClientNode}
    (hmem : client ∈ (clientEvent tick (atPoll tick s)).gClients)
    (hgone : client ∉ (mainLoop sigpipeIgnored lib s tick).gClients) :
    .sendFailed client.conn client.client ∈ s.added (mainLoop sigpipeIgnored lib s tick) := by
  have hmem₁ := mem_gClients_untilSerial hmem
  have hgoes := goesOn_of_live hlive hlive'
  by_cases hbytes : tick.serialBytes = []
  · -- with nothing to broadcast the list stays as it is
    obtain ⟨hhalt, hclients, -⟩ :=
      afterSerial_spec tick ((untilSerial tick (atPoll tick s)).andThen (serialEvent sigpipeIgnored lib tick))
    refine absurd ?_ hgone
    rw [mainLoop_of_goesOn hlive hgoes, handleEvents, hclients, Server.andThen]
    split
    · exact hmem₁
    · rwa [serialEvent_of_noBytes hbytes]
  · have hstays : tick.fails = false ∧ tick.close = false := by simpa [Tick.goesOn] using hgoes
    obtain ⟨-, hserved⟩ := mainLoop_serves sigpipeIgnored lib hlinked hlive hstays.1
      hstays.2 hbytes
    obtain ⟨events, hdelivered⟩ := hserved hlive'
    obtain ⟨before, hbefore, -⟩ := (Server.Logs.untilSerial tick s).history
    have hhistory := hdelivered.history
    rw [hbefore, List.append_assoc] at hhistory
    rw [added_eq hhistory]
    rw [hdelivered.gClients, List.mem_filter, not_and, Bool.not_eq_true, Bool.not_eq_false'] at hgone
    exact List.mem_append_right _ (List.contains_iff_mem.mp (hgone hmem₁))

theorem forwarded_notMem_added {s s' : Server ψ} (hextends : s.Extends (NoOthersBytes []) s') (conn : Nat)
    (data : Bytes) : .forwarded conn data ∉ s.added s' := by
  obtain ⟨events, hhistory, hevents⟩ := hextends
  rw [added_eq hhistory]
  intro hmem
  obtain ⟨client, rest, hnil, -⟩ := hevents _ hmem
  cases hnil

theorem mainLoop_port {s : Server ψ} (hlive : s.halt = none) {tick : Tick}
    (hread : ∀ conn data, s.clientRead tick = some (conn, data) → data = []) :
    s.Extends (NoOthersBytes []) (mainLoop sigpipeIgnored lib s tick) := by
  have haside (e : KernelEvent) (he : Aside e) : NoOthersBytes [] e := he.noOthersBytes []
  cases hgoes : tick.goesOn with
  | false =>
      have hleaves : (tick.fails || tick.close) = true := by rwa [Tick.goesOn, Bool.not_eq_false'] at hgoes
      rw [mainLoop_of_live sigpipeIgnored lib hlive, if_pos hleaves]
      exact (Server.Logs.stopped tick s).history.mono haside
  | true =>
      have hclient : (atPoll tick s).Extends (NoOthersBytes []) (clientEvent tick (atPoll tick s)) := by
        refine (clientEvent_port hgoes hread).mono fun e he => ?_
        cases e with
        | forwarded conn data => exact absurd trivial he
        | _ => trivial
      exact (((Server.Logs.polled tick s).history.mono haside).trans hclient).trans
        (mainLoop_afterClient sigpipeIgnored lib hlive hgoes)

/-- In every iteration of every run with fewer than 2^31 accepted connections. -/
theorem commander_hands_over (receiver : Receiver ψ) (ticks : List Tick) (tick : Tick)
    (hlive : (Machine.run (mainLoop sigpipeIgnored lib) (Server.start receiver) ticks).halt = none)
    (hcount : (acceptedConns (Machine.run (mainLoop sigpipeIgnored lib) (Server.start receiver)
      (ticks ++ [tick])).history).length < 2 ^ 31) :
    let s := Machine.run (mainLoop sigpipeIgnored lib) (Server.start receiver) ticks
    s.HandsOver tick (mainLoop sigpipeIgnored lib s tick) := by
  rw [Machine.run_concat] at hcount
  intro s
  have hcount₀ := lt_of_le_of_lt (acceptedConns_mainLoop_le sigpipeIgnored lib s tick) hcount
  obtain ⟨hlinked, hcommanded⟩ := commanded_run sigpipeIgnored lib receiver ticks
  have hcommand := hcommanded hcount₀
  have htallied : s.Tallied := tallied_run sigpipeIgnored lib receiver ticks hcount₀ hlive
  obtain ⟨hlinked', hcommand', -⟩ := newcomers_mainLoop hlinked hcommand tick hcount
  have htried (head : ClientNode) (rest : List ClientNode) (hclients : s.gClients = head :: rest) :
      (atPoll tick s).tried = failedReads head.conn s.history ∧ failedReads head.conn s.history ≤ 3 := by
    obtain ⟨hcommander, -⟩ := commander_run sigpipeIgnored lib receiver ticks hcommand hlive hclients
    obtain ⟨hcounted, hbudget⟩ := htallied.tried hclients hcommander
    rw [tried_atPoll]
    exact ⟨hcounted, hcounted ▸ hbudget⟩
  have hlist (hgoes : tick.goesOn = true) (head : ClientNode) (rest : List ClientNode)
      (hclients : s.gClients = head :: rest) := clientEvent_list hgoes hclients (htried head rest hclients).1
  refine ⟨?_, ?_, ?_, ?_, ?_, ?_, ?_, ?_, ?_⟩
  · intro head rest hclients
    obtain ⟨hcommander, hslot⟩ := commander_run sigpipeIgnored lib receiver ticks hcommand hlive hclients
    exact ⟨hcommander, hslot, (htried head rest hclients).2⟩
  · exact failedReads_mainLoop hlive tick
  · intro conn data hread
    obtain ⟨head, rest, hclients, rfl, honce, htally⟩ := mainLoop_reads sigpipeIgnored lib hlive hread
    obtain ⟨hlast, htryout, hreads⟩ := tally_inj htally
    obtain ⟨-, -, hpollReads⟩ := tally_inj (tally_atPoll tick s)
    refine ⟨?_, ?_⟩
    · rw [hlast, honce.lastCommander, (atPoll_spec tick s).2]
    · rw [htryout, honce.tryout, hreads, honce.reads, if_pos rfl, hpollReads, (htried head rest hclients).1]
  · intro hread
    obtain ⟨hlast, htryout, -⟩ := tally_inj (tally_mainLoop hlive hread)
    exact ⟨hlast, htryout⟩
  · intro hgoes head rest hclients
    obtain ⟨hout, hstays⟩ := hlist hgoes head rest hclients
    exact ⟨fun htakes => (hout htakes).1, hstays⟩
  · intro hgoes head rest hclients htakes
    have hclosed := ((hlist hgoes head rest hclients).1 htakes).2
    obtain ⟨events, hhistory, -⟩ := mainLoop_afterClient sigpipeIgnored lib hlive hgoes
    have hclosed' : head.socket ∈ closedConns (mainLoop sigpipeIgnored lib s tick).history := by
      rw [hhistory, closedConns_append]
      exact List.mem_append_left _ hclosed
    exact ⟨hclosed', fun hmem => (mem_openConns.mp (hlinked'.mem_openConns hmem)).2 hclosed'⟩
  · intro hlive' head rest hclients hgone
    by_cases htakes : s.takesOut tick head
    · exact .inl htakes
    · have hmem : head ∈ (clientEvent tick (atPoll tick s)).gClients := by
        rw [(hlist (goesOn_of_live hlive hlive') head rest hclients).2 htakes]
        exact Server.head_mem hclients
      exact .inr (sendFailed_of_gone sigpipeIgnored lib hlinked hlive hlive' hmem hgone)
  · intro hread
    refine ⟨forwarded_notMem_added (mainLoop_port sigpipeIgnored lib hlive hread), fun hgoes e he => ?_⟩
    obtain ⟨events, hhistory, hevents⟩ := clientEvent_port hgoes hread
    rw [added_eq hhistory] at he
    exact hevents e he
  · intro hlive' head rest hclients
    obtain ⟨hcommander, hslot⟩ := hcommand'.of_mainLoop hlive' hclients
    refine ⟨hcommander, hslot, fun client hmem => hlinked'.head_conn_lt hclients hmem, fun hhead => ?_⟩
    exact failedReads_successor sigpipeIgnored lib htallied hlinked hcommand hlive hcount (Server.head_mem hclients)
      hhead

end Run

/-- Two clients; the first one fails three times, and is about to fail the fourth time. -/
theorem commander_hands_over_fourth :
    (Machine.run (mainLoop false silentLib) (Server.start ⟨(), {}⟩)
      [{ idleTick with server := true, accept := .socket 7 true 0x7f000001 50000 },
       { idleTick with server := true, accept := .socket 8 true 0x7f000001 50001 },
       { idleTick with client := { pollIn := true }, recv := -1 },
       { idleTick with client := { pollIn := true }, recv := -1 },
       { idleTick with client := { pollIn := true }, recv := -1 }]).HandsOver
      { idleTick with client := { pollIn := true }, recv := -1 }
      (Machine.run (mainLoop false silentLib) (Server.start ⟨(), {}⟩)
        [{ idleTick with server := true, accept := .socket 7 true 0x7f000001 50000 },
         { idleTick with server := true, accept := .socket 8 true 0x7f000001 50001 },
         { idleTick with client := { pollIn := true }, recv := -1 },
         { idleTick with client := { pollIn := true }, recv := -1 },
         { idleTick with client := { pollIn := true }, recv := -1 },
         { idleTick with client := { pollIn := true }, recv := -1 }]) :=
  commander_hands_over false silentLib ⟨(), {}⟩
    [{ idleTick with server := true, accept := .socket 7 true 0x7f000001 50000 },
     { idleTick with server := true, accept := .socket 8 true 0x7f000001 50001 },
     { idleTick with client := { pollIn := true }, recv := -1 },
     { idleTick with client := { pollIn := true }, recv := -1 },
     { idleTick with client := { pollIn := true }, recv := -1 }]
    { idleTick with client := { pollIn := true }, recv := -1 } (by decide) (by decide)

end MissionServer
