import MissionServer.Proof.Steps

/-!
# One broadcast

What `send_data_to_clients` does to each client and to the list, for every pattern of short and failing
sends.
-/

namespace MissionServer

variable {ψ : Type}

/-! ### The events of a broadcast -/

/-- What can happen while one client is served. -/
def ServiceEvent (client : ClientNode) : KernelEvent → Prop
  | .arrived _ _ => True
  | .reset _ => True
  | .sent conn fd _ => conn = client.conn ∧ fd = client.client
  | .sendFailed conn fd => conn = client.conn ∧ fd = client.client
  | _ => False

/-- What can happen while a list of clients is served. -/
def BroadcastEvent (clients : List ClientNode) : KernelEvent → Prop
  | .closed conn fd => ∃ client ∈ clients, conn = client.conn ∧ fd = client.client
  | e => ∃ client ∈ clients, ServiceEvent client e

/-- A send to the client has failed. -/
def failedIn (events : History) (client : ClientNode) : Bool :=
  events.contains (.sendFailed client.conn client.client)

theorem sentTo_append (conn : Nat) (h h' : History) : sentTo conn (h ++ h') = sentTo conn h ++ sentTo conn h' :=
  List.flatMap_append

theorem sentTo_eq_nil {conn : Nat} {h : History} (hnone : ∀ fd data, .sent conn fd data ∉ h) : sentTo conn h = [] := by
  apply List.flatMap_eq_nil_iff.mpr
  intro e he
  cases e with
  | sent conn' fd data =>
      by_cases heq : conn' = conn
      · exact absurd (heq ▸ he) (hnone fd data)
      · simp [heq]
  | _ => rfl

theorem failedIn_append (h h' : History) (client : ClientNode) :
    failedIn (h ++ h') client = (failedIn h client || failedIn h' client) := by
  simp [failedIn, List.contains_eq_mem, Bool.decide_or]

theorem peerAct_serviceEvent (client : ClientNode) (h : History) (act : PeerAct) :
    ∀ e ∈ act.events h, ServiceEvent client e := by
  obtain heq | ⟨conn, data, -, heq⟩ | ⟨conn, -, heq⟩ := act.events_cases h
  all_goals simp [heq, ServiceEvent]

theorem sentTo_peerAct (conn : Nat) (h : History) (act : PeerAct) : sentTo conn (act.events h) = [] := by
  obtain heq | ⟨conn', data, -, heq⟩ | ⟨conn', -, heq⟩ := act.events_cases h
  all_goals simp [heq, sentTo]

theorem failedIn_peerAct (client : ClientNode) (h : History) (act : PeerAct) :
    failedIn (act.events h) client = false := by
  obtain heq | ⟨conn, data, -, heq⟩ | ⟨conn, -, heq⟩ := act.events_cases h
  all_goals simp [heq, failedIn]

/-! ### One client -/

/-- The server after some calls of `send` to a client, which have put `sent` on its connection. -/
structure SentTo (sigpipeIgnored : Bool) (lib : MavlinkLib ψ) (client : ClientNode) (s : Server ψ) (sent : Bytes)
    (failed : Bool) (s' : Server ψ) (events : History) : Prop where
  steps : Server.Steps (Server.Step sigpipeIgnored lib) s s'
  gClients : s'.gClients = s.gClients
  receiver : s'.receiver = s.receiver
  history : s'.history = s.history ++ events
  service : ∀ e ∈ events, ServiceEvent client e
  sent : sentTo client.conn events = sent
  failed : failedIn events client = failed

/-- After a call that SIGPIPE may have been raised in. -/
def GoesOnOrKilled (sigpipeIgnored : Bool) (halt : Option Halt) : Prop :=
  halt = none ∨ sigpipeIgnored = false ∧ halt = some .killed

section Push

variable {sigpipeIgnored : Bool} {lib : MavlinkLib ψ} {client : ClientNode} {s s' s'' : Server ψ} {sent data : Bytes}
  {events : History}

variable (sigpipeIgnored lib client s) in
theorem SentTo.start : SentTo sigpipeIgnored lib client s [] false s [] :=
  ⟨.refl s, rfl, rfl, (List.append_nil _).symm, by simp, rfl, rfl⟩

theorem SentTo.peerActs (acts : List PeerAct) (h : SentTo sigpipeIgnored lib client s sent false s' events)
    (hlive : s'.halt = none) :
    (MissionServer.peerActs acts s').halt = none ∧
      ∃ events', SentTo sigpipeIgnored lib client s sent false (MissionServer.peerActs acts s') events' := by
  induction acts generalizing s' events with
  | nil => exact ⟨hlive, events, h⟩
  | cons act acts ih =>
      suffices hnext : SentTo sigpipeIgnored lib client s sent false (peerAct act s')
          (events ++ act.events s'.history) from ih hnext hlive
      refine ⟨h.steps.trans (.single hlive (.quiet (.peer s' act))), h.gClients, h.receiver, ?_, ?_, ?_, ?_⟩
      · rw [← List.append_assoc, ← h.history]
        rfl
      · intro e he
        obtain he | he := List.mem_append.mp he
        · exact h.service e he
        · exact peerAct_serviceEvent client s'.history act e he
      · rw [sentTo_append, sentTo_peerAct, List.append_nil, h.sent]
      · rw [failedIn_append, h.failed, failedIn_peerAct, Bool.or_false]

theorem SentTo.call {e : KernelEvent} (h : SentTo sigpipeIgnored lib client s sent false s' events)
    (hlive : s'.halt = none) (hstep : Server.Step sigpipeIgnored lib s' s'') (hclients : s''.gClients = s'.gClients)
    (hreceiver : s''.receiver = s'.receiver) (hhistory : s''.history = s'.history ++ [e])
    (hservice : ServiceEvent client e) :
    SentTo sigpipeIgnored lib client s (sent ++ sentTo client.conn [e]) (failedIn [e] client) s'' (events ++ [e]) := by
  refine ⟨h.steps.trans (.single hlive hstep), hclients.trans h.gClients, hreceiver.trans h.receiver, ?_, ?_, ?_, ?_⟩
  · rw [hhistory, h.history, List.append_assoc]
  · intro e' he'
    obtain he' | he' := List.mem_append.mp he'
    · exact h.service e' he'
    · obtain rfl := List.mem_singleton.mp he'
      exact hservice
  · rw [sentTo_append, h.sent]
  · rw [failedIn_append, h.failed, Bool.false_or]

theorem SentTo.callFailed (h : SentTo sigpipeIgnored lib client s sent false s' events) (hlive : s'.halt = none)
    (hstep : Server.Step sigpipeIgnored lib s' s'') (hclients : s''.gClients = s'.gClients)
    (hreceiver : s''.receiver = s'.receiver)
    (hhistory : s''.history = s'.history ++ [.sendFailed client.conn client.client]) :
    ∃ events', SentTo sigpipeIgnored lib client s sent true s'' events' := by
  have hcall := h.call hlive hstep hclients hreceiver hhistory ⟨rfl, rfl⟩
  have hnothing : sentTo client.conn [.sendFailed client.conn client.client] = [] := rfl
  have hfailed : failedIn [.sendFailed client.conn client.client] client = true := by simp [failedIn]
  rw [hnothing, List.append_nil, hfailed] at hcall
  exact ⟨_, hcall⟩

variable (sigpipeIgnored) in
/-- Everything one `send` can do: it fails, or a piece of what is left goes out. -/
theorem sendCall_spec {off : Nat} (h : SentTo sigpipeIgnored lib client s (data.take off) false s' events)
    (hlive : s'.halt = none) (hmem : client ∈ s.gClients) (hoff : off < data.length) (outcome : SendOutcome) :
    let result := sendCall sigpipeIgnored data client off outcome s'
    (result.2 < 0 ∧ GoesOnOrKilled sigpipeIgnored result.1.halt ∧
      ∃ events', SentTo sigpipeIgnored lib client s (data.take off) true result.1 events') ∨
    (0 ≤ result.2 ∧ (outcome.sbytes ≠ 0 → 0 < result.2) ∧ off + result.2.toNat ≤ data.length ∧ result.1.halt = none ∧
      ∃ events', SentTo sigpipeIgnored lib client s (data.take (off + result.2.toNat)) false result.1 events') := by
  obtain ⟨hlive₁, events₁, h₁⟩ := h.peerActs outcome.peers hlive
  have hmem₁ : client ∈ (MissionServer.peerActs outcome.peers s').gClients := h₁.gClients ▸ hmem
  have hminus : (-1 : Int) < 0 := by decide
  rw [sendCall]
  dsimp only
  split_ifs with hreset hignored hneg
  · exact .inl ⟨hminus, .inl hlive₁, h₁.callFailed hlive₁ (.sendFailed _ hmem₁ (.inl hignored)) rfl rfl rfl⟩
  · have hpipe : sigpipeIgnored = false := Bool.eq_false_iff.mpr hignored
    exact .inl ⟨hminus, .inr ⟨hpipe, rfl⟩, h₁.callFailed hlive₁ (.killed _ hmem₁ hpipe hreset) rfl rfl rfl⟩
  · have hreset := Bool.eq_false_iff.mpr hreset
    exact .inl ⟨hminus, .inl hlive₁, h₁.callFailed hlive₁ (.sendFailed _ hmem₁ (.inr hreset)) rfl rfl rfl⟩
  · set piece := (data.drop off).take outcome.sbytes.toNat with hpiece
    have hlength : piece.length = min outcome.sbytes.toNat (data.length - off) := by
      rw [hpiece, List.length_take, List.length_drop]
    have htake : data.take (off + piece.length) = data.take off ++ piece := by
      rw [List.take_add, ← List.prefix_iff_eq_take.mp (List.take_prefix outcome.sbytes.toNat (data.drop off))]
    have hcall := h₁.call hlive₁ (.sent _ hmem₁ (Bool.eq_false_iff.mpr hreset) piece) rfl rfl rfl ⟨rfl, rfl⟩
    have hsent : sentTo client.conn [.sent client.conn client.client piece] = piece := by simp [sentTo]
    have hfailed : failedIn [.sent client.conn client.client piece] client = false := by simp [failedIn]
    rw [hsent, ← htake, hfailed] at hcall
    refine .inr ⟨Int.natCast_nonneg _, fun hne => ?_, ?_, hlive₁, _, by simpa only [Int.toNat_natCast] using hcall⟩
    · rw [hlength]
      omega
    · simp only [Int.toNat_natCast]
      omega

variable (sigpipeIgnored lib) in
theorem push_spec (hlive : s.halt = none) (hmem : client ∈ s.gClients) (hdata : data ≠ [])
    (outcomes : List SendOutcome) :
    match PushLoop.push (sendCall sigpipeIgnored data client) data.length 0 outcomes s with
    | (s', .pending) =>
        s'.halt = none ∧ ∃ off events, SentTo sigpipeIgnored lib client s (data.take off) false s' events
    | (s', .failed) =>
        GoesOnOrKilled sigpipeIgnored s'.halt ∧
          ∃ off events, SentTo sigpipeIgnored lib client s (data.take off) true s' events
    | (s', .done) => s'.halt = none ∧ ∃ events, SentTo sigpipeIgnored lib client s data false s' events := by
  have hrule := PushLoop.push_rule (sendCall sigpipeIgnored data client) data.length
    (P := fun off s' => s'.halt = none ∧ ∃ events, SentTo sigpipeIgnored lib client s (data.take off) false s' events)
    (F := fun s' => GoesOnOrKilled sigpipeIgnored s'.halt ∧
      ∃ off events, SentTo sigpipeIgnored lib client s (data.take off) true s' events)
    ?_ ?_ outcomes (List.length_pos_iff.mpr hdata) (s := s) ⟨hlive, [], SentTo.start sigpipeIgnored lib client s⟩
  · revert hrule
    generalize PushLoop.push (sendCall sigpipeIgnored data client) data.length 0 outcomes s = result
    obtain ⟨s', status⟩ := result
    cases status with
    | pending =>
        intro hpart
        obtain ⟨off, -, -, hlive', events, h⟩ := hpart
        exact ⟨hlive', off, events, h⟩
    | failed => exact id
    | done =>
        intro hwhole
        obtain ⟨hlive', events, h⟩ := hwhole
        rw [List.take_length] at h
        exact ⟨hlive', events, h⟩
  · intro off outcome s' hsofar hoff hneg
    obtain ⟨hlive', events, h⟩ := hsofar
    obtain ⟨-, hhalt, events', h'⟩ | ⟨hpos, -⟩ := sendCall_spec sigpipeIgnored h hlive' hmem hoff outcome
    · exact ⟨hhalt, off, events', h'⟩
    · omega
  · intro off outcome s' hsofar hoff hpos
    obtain ⟨hlive', events, h⟩ := hsofar
    obtain ⟨hneg, -⟩ | ⟨-, -, hle, hlive'', h'⟩ := sendCall_spec sigpipeIgnored h hlive' hmem hoff outcome
    · omega
    · exact ⟨hle, hlive'', h'⟩

variable (sigpipeIgnored) in
theorem push_returns (lib : MavlinkLib ψ) (hlive : s.halt = none) (hmem : client ∈ s.gClients) (hdata : data ≠ [])
    {outcomes : List SendOutcome} (hanswered : data.length ≤ outcomes.length)
    (hnonzero : ∀ outcome ∈ outcomes, outcome.sbytes ≠ 0) :
    (PushLoop.push (sendCall sigpipeIgnored data client) data.length 0 outcomes s).2 ≠ .pending := by
  refine PushLoop.push_terminates outcomes (P := fun off s' => s'.halt = none ∧
    ∃ events, SentTo sigpipeIgnored lib client s (data.take off) false s' events) ?_
    (List.length_pos_iff.mpr hdata) ⟨hlive, [], SentTo.start sigpipeIgnored lib client s⟩ (by omega)
  intro off s' outcome houtcome hsofar hoff hpos
  obtain ⟨hlive', events, h⟩ := hsofar
  obtain ⟨hneg, -⟩ | ⟨-, hstrict, hle, hlive'', h'⟩ := sendCall_spec sigpipeIgnored h hlive' hmem hoff outcome
  · omega
  · exact ⟨hstrict (hnonzero outcome houtcome), hle, hlive'', h'⟩

end Push

/-! ### The list -/

theorem sentTo_of_service {client : ClientNode} {events : History} (h : ∀ e ∈ events, ServiceEvent client e)
    {conn : Nat} (hne : conn ≠ client.conn) : sentTo conn events = [] :=
  sentTo_eq_nil fun _ _ hmem => hne (h _ hmem).1

theorem failedIn_of_service {client other : ClientNode} {events : History} (h : ∀ e ∈ events, ServiceEvent client e)
    (hne : other.conn ≠ client.conn) : failedIn events other = false := by
  simp only [failedIn, List.contains_eq_mem, decide_eq_false_iff_not]
  exact fun hmem => hne (h _ hmem).1

theorem sentTo_of_broadcast {clients : List ClientNode} {events : History} (h : ∀ e ∈ events, BroadcastEvent clients e)
    {conn : Nat} (hne : ∀ client ∈ clients, conn ≠ client.conn) : sentTo conn events = [] := by
  apply sentTo_eq_nil
  intro fd data hmem
  obtain ⟨client, hclient, hconn, -⟩ := h _ hmem
  exact hne client hclient hconn

theorem failedIn_of_broadcast {clients : List ClientNode} {events : History}
    (h : ∀ e ∈ events, BroadcastEvent clients e) {other : ClientNode}
    (hne : ∀ client ∈ clients, other.conn ≠ client.conn) : failedIn events other = false := by
  simp only [failedIn, List.contains_eq_mem, decide_eq_false_iff_not]
  intro hmem
  obtain ⟨client, hclient, hconn, -⟩ := h _ hmem
  exact hne client hclient hconn

theorem ServiceEvent.broadcastEvent {clients : List ClientNode} {client : ClientNode} (hmem : client ∈ clients)
    {e : KernelEvent} (h : ServiceEvent client e) : BroadcastEvent clients e := by
  cases e with
  | closed conn fd => exact h.elim
  | _ => exact ⟨client, hmem, h⟩

theorem BroadcastEvent.mono {clients clients' : List ClientNode} (hsub : ∀ client ∈ clients, client ∈ clients')
    {e : KernelEvent} (h : BroadcastEvent clients e) : BroadcastEvent clients' e := by
  cases e with
  | _ =>
      obtain ⟨client, hmem, h⟩ := h
      exact ⟨client, hsub client hmem, h⟩

/-- What a walk over `clients` has done to each of them, where `pre` is the part of the list before
them. -/
structure Broadcasted (sigpipeIgnored : Bool) (lib : MavlinkLib ψ) (data : Bytes) (pre clients : List ClientNode)
    (s s' : Server ψ) (events : History) : Prop where
  steps : Server.Steps (Server.Step sigpipeIgnored lib) s s'
  receiver : s'.receiver = s.receiver
  history : s'.history = s.history ++ events
  service : ∀ e ∈ events, BroadcastEvent clients e
  isPrefix : ∀ client ∈ clients, sentTo client.conn events <+: data
  whole : s'.halt = none → ∀ client ∈ clients, failedIn events client = false → sentTo client.conn events = data
  closed : s'.halt = none → ∀ client ∈ clients, failedIn events client = true →
    .closed client.conn client.client ∈ events
  gClients : s'.halt = none → s'.gClients = pre ++ clients.filter fun client => !failedIn events client

section Walk

variable {sigpipeIgnored : Bool} {lib : MavlinkLib ψ} {s s' s'' : Server ψ} {data : Bytes} {events events' : History}
  {pre rest : List ClientNode} {client : ClientNode}

theorem Broadcasted.nil (hclients : s.gClients = pre ++ []) : Broadcasted sigpipeIgnored lib data pre [] s s [] := by
  refine ⟨.refl s, rfl, ?_, ?_, ?_, ?_, ?_, ?_⟩
  all_goals simp [hclients]

theorem Broadcasted.of_halted {sent : Bytes} {failed : Bool}
    (h : SentTo sigpipeIgnored lib client s sent failed s' events) (hsent : sent <+: data)
    (hrest : ∀ other ∈ rest, other.conn ≠ client.conn)
    (hsteps : Server.Steps (Server.Step sigpipeIgnored lib) s' s'') (hhistory : s''.history = s'.history)
    (hreceiver : s''.receiver = s'.receiver) (hhalt : s''.halt ≠ none) :
    Broadcasted sigpipeIgnored lib data pre (client :: rest) s s'' events := by
  refine ⟨h.steps.trans hsteps, hreceiver.trans h.receiver, hhistory.trans h.history, ?_, ?_, ?_, ?_, ?_⟩
  · exact fun e he => (h.service e he).broadcastEvent List.mem_cons_self
  · intro other hother
    obtain rfl | hother := List.mem_cons.mp hother
    · exact h.sent ▸ hsent
    · rw [sentTo_of_service h.service (hrest other hother)]
      exact List.nil_prefix
  all_goals exact fun hnone => absurd hnone hhalt

/-- The first client has been served, and the walk goes on: behind it, or in its place where a send to it
failed and it has been closed. -/
theorem Broadcasted.cons {sent : Bytes} {failed : Bool} {between : History} {s₁ s₂ : Server ψ}
    (h : SentTo sigpipeIgnored lib client s sent failed s₁ events) (hsent : sent <+: data)
    (hwhole : failed = false → sent = data) (hrest : ∀ other ∈ rest, other.conn ≠ client.conn)
    (hbetween : between = if failed then [.closed client.conn client.client] else [])
    (hsteps : Server.Steps (Server.Step sigpipeIgnored lib) s₁ s₂) (hreceiver : s₂.receiver = s₁.receiver)
    (hhistory : s₂.history = s₁.history ++ between)
    (h' : Broadcasted sigpipeIgnored lib data (if failed then pre else pre ++ [client]) rest s₂ s'' events') :
    Broadcasted sigpipeIgnored lib data pre (client :: rest) s s'' (events ++ (between ++ events')) := by
  have hnothing (conn) : sentTo conn between = [] := by
    rw [hbetween]
    split <;> simp [sentTo]
  have hnone (other) : failedIn between other = false := by
    rw [hbetween]
    split <;> simp [failedIn]
  have hfirst : sentTo client.conn (events ++ (between ++ events')) = sent ∧
      failedIn (events ++ (between ++ events')) client = failed := by
    have hothers : ∀ other ∈ rest, client.conn ≠ other.conn := fun other hother => (hrest other hother).symm
    rw [sentTo_append, sentTo_append, failedIn_append, failedIn_append, h.sent, h.failed, hnothing, hnone,
      sentTo_of_broadcast h'.service hothers, failedIn_of_broadcast h'.service hothers]
    simp
  have hother (other) (hother : other ∈ rest) :
      sentTo other.conn (events ++ (between ++ events')) = sentTo other.conn events' ∧
        failedIn (events ++ (between ++ events')) other = failedIn events' other := by
    rw [sentTo_append, sentTo_append, failedIn_append, failedIn_append, hnothing, hnone,
      sentTo_of_service h.service (hrest other hother), failedIn_of_service h.service (hrest other hother)]
    simp
  refine ⟨(h.steps.trans hsteps).trans h'.steps, (h'.receiver.trans hreceiver).trans h.receiver, ?_, ?_, ?_, ?_, ?_, ?_⟩
  · rw [h'.history, hhistory, h.history, List.append_assoc, List.append_assoc]
  · intro e he
    obtain he | he := List.mem_append.mp he
    · exact (h.service e he).broadcastEvent List.mem_cons_self
    obtain he | he := List.mem_append.mp he
    · rw [hbetween] at he
      split at he
      · obtain rfl := List.mem_singleton.mp he
        exact ⟨client, List.mem_cons_self, rfl, rfl⟩
      · cases he
    · exact (h'.service e he).mono fun _ hmem => List.mem_cons_of_mem client hmem
  · intro other hmem
    obtain rfl | hmem := List.mem_cons.mp hmem
    · rw [hfirst.1]
      exact hsent
    · rw [(hother other hmem).1]
      exact h'.isPrefix other hmem
  · intro hlive other hmem hnot
    obtain rfl | hmem := List.mem_cons.mp hmem
    · rw [hfirst.2] at hnot
      rw [hfirst.1]
      exact hwhole hnot
    · rw [(hother other hmem).2] at hnot
      rw [(hother other hmem).1]
      exact h'.whole hlive other hmem hnot
  · intro hlive other hmem hfail
    obtain rfl | hmem := List.mem_cons.mp hmem
    · rw [hfirst.2] at hfail
      simp [hbetween, hfail]
    · rw [(hother other hmem).2] at hfail
      exact List.mem_append_right _ (List.mem_append_right _ (h'.closed hlive other hmem hfail))
  · intro hlive
    have hcongr : (rest.filter fun other => !failedIn (events ++ (between ++ events')) other) =
        rest.filter fun other => !failedIn events' other :=
      List.filter_congr fun other hmem => by rw [(hother other hmem).2]
    rw [h'.gClients hlive, List.filter_cons, hfirst.2, hcongr]
    cases failed <;> simp

theorem Broadcasted.cons_done (h : SentTo sigpipeIgnored lib client s data false s' events)
    (hrest : ∀ other ∈ rest, other.conn ≠ client.conn)
    (h' : Broadcasted sigpipeIgnored lib data (pre ++ [client]) rest s' s'' events') :
    Broadcasted sigpipeIgnored lib data pre (client :: rest) s s'' (events ++ ([] ++ events')) :=
  Broadcasted.cons h List.prefix_rfl (fun _ => rfl) hrest rfl (.refl s') rfl (List.append_nil _).symm h'

theorem Broadcasted.cons_failed {sent : Bytes} (h : SentTo sigpipeIgnored lib client s sent true s' events)
    (hsent : sent <+: data) (hlive : s'.halt = none) (hclients : s'.gClients = pre ++ client :: rest)
    (hrest : ∀ other ∈ rest, other.conn ≠ client.conn)
    (h' : Broadcasted sigpipeIgnored lib data pre rest (s'.terminated pre client rest) s'' events') :
    Broadcasted sigpipeIgnored lib data pre (client :: rest) s s''
      (events ++ ([.closed client.conn client.client] ++ events')) :=
  Broadcasted.cons h hsent nofun hrest rfl (.single hlive (.quiet (.terminated s' hclients))) rfl rfl h'

/-- The link behind a client that stays in the list. -/
theorem gClients_next (hclients : s.gClients = pre ++ client :: rest) :
    s.gClients = (pre ++ [client]) ++ rest ∧ s.gClients[pre.length + 1]? = rest.head? := by
  have hsplit : s.gClients = (pre ++ [client]) ++ rest := by rw [hclients, List.append_assoc, List.singleton_append]
  refine ⟨hsplit, ?_⟩
  rw [hsplit, List.getElem?_append_right (by simp), List.head?_eq_getElem?]
  simp

variable (sigpipeIgnored lib) in
/-- One client is served: the process blocks or ends there, or the walk goes on with the list without the
client or behind it. -/
theorem broadcast_cons (hlive : s.halt = none) (hclients : s.gClients = pre ++ client :: rest) (hdata : data ≠ [])
    (outcomes : List SendOutcome) (sends : List (List SendOutcome)) :
    let walk := broadcast sigpipeIgnored data (outcomes :: sends) (some client) pre.length s
    ((PushLoop.push (sendCall sigpipeIgnored data client) data.length 0 outcomes s).2 = .pending ∧
      ∃ off s' events, SentTo sigpipeIgnored lib client s (data.take off) false s' events ∧ s'.halt = none ∧
        walk = { s' with halt := some .blocked }) ∨
    (∃ off events, SentTo sigpipeIgnored lib client s (data.take off) true walk events ∧ walk.halt ≠ none ∧
      GoesOnOrKilled sigpipeIgnored walk.halt) ∨
    (∃ off s' events, SentTo sigpipeIgnored lib client s (data.take off) true s' events ∧ s'.halt = none ∧
      s'.gClients = pre ++ client :: rest ∧
      walk = broadcast sigpipeIgnored data sends rest.head? pre.length (s'.terminated pre client rest)) ∨
    ∃ s' events, SentTo sigpipeIgnored lib client s data false s' events ∧ s'.halt = none ∧
      s'.gClients = (pre ++ [client]) ++ rest ∧
      walk = broadcast sigpipeIgnored data sends rest.head? (pre ++ [client]).length s' := by
  intro walk
  have hmem : client ∈ s.gClients := by simp [hclients]
  have hpush := push_spec sigpipeIgnored lib hlive hmem hdata outcomes
  have hwalk : walk = broadcast sigpipeIgnored data (outcomes :: sends) (some client) pre.length s := rfl
  rw [broadcast] at hwalk
  revert hpush hwalk
  generalize PushLoop.push (sendCall sigpipeIgnored data client) data.length 0 outcomes s = result
  obtain ⟨s', status⟩ := result
  intro hpush hwalk
  cases status with
  | pending =>
      obtain ⟨hlive', off, events, h⟩ := hpush
      exact .inl ⟨rfl, off, s', events, h, hlive', hwalk⟩
  | failed =>
      obtain ⟨hhalt, off, events, h⟩ := hpush
      dsimp only at hwalk
      split_ifs at hwalk with hsome
      · rw [hwalk]
        exact .inr (.inl ⟨off, events, h, Option.isSome_iff_ne_none.mp hsome, hhalt⟩)
      · have hclients' : s'.gClients = pre ++ client :: rest := h.gClients.trans hclients
        rw [terminateClient_eq hclients'] at hwalk
        exact .inr (.inr (.inl ⟨off, s', events, h, Option.not_isSome_iff_eq_none.mp hsome, hclients', hwalk⟩))
  | done =>
      obtain ⟨hlive', events, h⟩ := hpush
      obtain ⟨hclients', hnext⟩ := gClients_next (h.gClients.trans hclients)
      dsimp only at hwalk
      rw [hnext] at hwalk
      refine .inr (.inr (.inr ⟨s', events, h, hlive', hclients', ?_⟩))
      rw [hwalk, List.length_append, List.length_singleton]

/-- The walk from a link of the list on. The induction is on the outcomes, one entry for each client
served. -/
theorem broadcast_spec (hdata : data ≠ []) (sends : List (List SendOutcome)) :
    ∀ {pre clients : List ClientNode} {s : Server ψ}, s.halt = none → s.gClients = pre ++ clients →
      (clients.map (·.conn)).Nodup →
      ∃ events, Broadcasted sigpipeIgnored lib data pre clients s
        (broadcast sigpipeIgnored data sends clients.head? pre.length s) events := by
  induction sends with
  | nil =>
      intro pre clients s hlive hclients hnodup
      cases clients with
      | nil => exact ⟨[], .nil hclients⟩
      | cons client rest =>
          rw [List.map_cons, List.nodup_cons] at hnodup
          exact ⟨[], Broadcasted.of_halted (SentTo.start sigpipeIgnored lib client s) List.nil_prefix
            (fun other hmem heq => hnodup.1 (List.mem_map.mpr ⟨other, hmem, heq⟩))
            (.single hlive (.quiet (.halted s (.inl rfl)))) rfl rfl (by simp [broadcast])⟩
  | cons outcomes sends ih =>
      intro pre clients s hlive hclients hnodup
      cases clients with
      | nil => exact ⟨[], .nil hclients⟩
      | cons client rest =>
          rw [List.map_cons, List.nodup_cons] at hnodup
          have hrest : ∀ other ∈ rest, other.conn ≠ client.conn :=
            fun other hmem heq => hnodup.1 (List.mem_map.mpr ⟨other, hmem, heq⟩)
          rw [List.head?_cons]
          obtain ⟨-, off, s', events, h, hlive', heq⟩ | ⟨off, events, h, hhalt, -⟩ |
              ⟨off, s', events, h, hlive', hclients', heq⟩ | ⟨s', events, h, hlive', hclients', heq⟩ :=
            broadcast_cons sigpipeIgnored lib hlive hclients hdata outcomes sends
          · rw [heq]
            exact ⟨events, Broadcasted.of_halted h (List.take_prefix off data) hrest
              (.single hlive' (.quiet (.halted s' (.inl rfl)))) rfl rfl (by simp)⟩
          · exact ⟨events, Broadcasted.of_halted h (List.take_prefix off data) hrest (.refl _) rfl rfl hhalt⟩
          · rw [heq]
            obtain ⟨events', h'⟩ := ih (s := s'.terminated pre client rest) hlive' rfl hnodup.2
            exact ⟨_, Broadcasted.cons_failed h (List.take_prefix off data) hlive' hclients' hrest h'⟩
          · rw [heq]
            obtain ⟨events', h'⟩ := ih hlive' hclients' hnodup.2
            exact ⟨_, Broadcasted.cons_done h hrest h'⟩

/-- Every `send` for `clients` connections and a chunk of `size` bytes returns, and not with zero. -/
def SendsReturn (size clients : Nat) (sends : List (List SendOutcome)) : Prop :=
  clients ≤ sends.length ∧ ∀ outcomes ∈ sends, size ≤ outcomes.length ∧ ∀ outcome ∈ outcomes, outcome.sbytes ≠ 0

theorem broadcast_returns (lib : MavlinkLib ψ) (hdata : data ≠ []) {sends : List (List SendOutcome)} :
    ∀ {pre clients : List ClientNode} {s : Server ψ}, s.halt = none → s.gClients = pre ++ clients →
      SendsReturn data.length clients.length sends →
      GoesOnOrKilled sigpipeIgnored (broadcast sigpipeIgnored data sends clients.head? pre.length s).halt := by
  induction sends with
  | nil =>
      intro pre clients s hlive hclients hreturn
      obtain ⟨hlength, -⟩ := hreturn
      cases clients with
      | nil => exact .inl hlive
      | cons client rest => simp at hlength
  | cons outcomes sends ih =>
      intro pre clients s hlive hclients hsends
      obtain ⟨hlength, hreturn⟩ := hsends
      cases clients with
      | nil => exact .inl hlive
      | cons client rest =>
          have hmem : client ∈ s.gClients := by simp [hclients]
          have hreturn' : SendsReturn data.length rest.length sends :=
            ⟨Nat.le_of_succ_le_succ hlength, fun outcomes h => hreturn outcomes (List.mem_cons_of_mem _ h)⟩
          obtain ⟨hanswered, hnonzero⟩ := hreturn outcomes List.mem_cons_self
          have hends := push_returns sigpipeIgnored lib hlive hmem hdata hanswered hnonzero
          rw [List.head?_cons]
          obtain ⟨hpending, -⟩ | ⟨-, -, -, -, hhalt⟩ | ⟨off, s', events, -, hlive', -, heq⟩ |
              ⟨s', events, -, hlive', hclients', heq⟩ :=
            broadcast_cons sigpipeIgnored lib hlive hclients hdata outcomes sends
          · exact absurd hpending hends
          · exact hhalt
          · rw [heq]
            exact ih (s := s'.terminated pre client rest) hlive' rfl hreturn'
          · rw [heq]
            exact ih hlive' hclients' hreturn'

end Walk

end MissionServer
