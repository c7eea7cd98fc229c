import MissionServer.Proof.ClientList
import MissionServer.Proof.SerialWrite

/-!
# From the commanding client to the serial port

What a connection's client has sent, what `recv` has taken of it and what has reached the port: each is
a part of the one before, and where the port has got all of it is decided when the connection is closed.
-/

namespace MissionServer

variable {ψ : Type}

/-! ### The bytes of a connection in a history -/

theorem arrived_append (conn : Nat) (h h' : History) : arrived conn (h ++ h') = arrived conn h ++ arrived conn h' :=
  List.flatMap_append

theorem received_append (conn : Nat) (h h' : History) : received conn (h ++ h') = received conn h ++ received conn h' :=
  List.flatMap_append

theorem forwarded_append (conn : Nat) (h h' : History) :
    forwarded conn (h ++ h') = forwarded conn h ++ forwarded conn h' :=
  List.flatMap_append

theorem Server.Linked.isOpen {s : Server ψ} (h : s.Linked) {client : ClientNode} (hmem : client ∈ s.gClients) :
    isOpen s.history client.conn = true :=
  List.any_eq_true.mpr ⟨client.socket, h.mem_openConns hmem, decide_eq_true rfl⟩

theorem isOpen_of_closed {h : History} (hperm : History.Permitted CallPermitted h) {conn : Nat} {fd : Int}
    (hclosed : (conn, fd) ∈ closedConns h) : isOpen h conn = false := by
  have hwell := wellNumbered_of_permitted h hperm
  have hnodup : ((acceptedConns h).map Prod.fst).Nodup := by
    rw [hwell.ordinals]
    exact List.nodup_range
  simp only [isOpen, List.any_eq_false, decide_eq_true_eq]
  rintro c hopen rfl
  obtain ⟨haccepted, hnot⟩ := mem_openConns.mp hopen
  have hsame : c = (c.1, fd) := List.inj_on_of_nodup_map hnodup haccepted (hwell.closedAccepted _ hclosed) rfl
  exact hnot (hsame ▸ hclosed)

/-- What moves the bytes of a connection happens while it is open. -/
def BytesPermitted (h : History) : KernelEvent → Prop
  | .arrived conn _ => isOpen h conn = true
  | .received conn _ _ => isOpen h conn = true
  | .forwarded conn _ => isOpen h conn = true
  | .writeFailed conn => isOpen h conn = true
  | _ => True

theorem bytesPermitted_append {h events : History} (hkeeps : KeepsConns events) {e : KernelEvent} :
    BytesPermitted (h ++ events) e ↔ BytesPermitted h e := by
  cases e <;> simp only [BytesPermitted, isOpen, openConns_append_of_keeps hkeeps]

/-- After its close nothing more happens to the bytes of a connection. -/
theorem bytes_of_closed {pre post : History} {conn : Nat} {fd : Int}
    (hcalls : History.Permitted CallPermitted (pre ++ .closed conn fd :: post))
    (hbytes : History.Permitted BytesPermitted (pre ++ .closed conn fd :: post)) :
    arrived conn (pre ++ .closed conn fd :: post) = arrived conn pre ∧
      received conn (pre ++ .closed conn fd :: post) = received conn pre ∧
      (.writeFailed conn ∈ pre ++ .closed conn fd :: post ↔ .writeFailed conn ∈ pre) := by
  -- every later event on the connection would need it open
  have hclosed {e : KernelEvent} (he : e ∈ post) : ∃ h, BytesPermitted h e ∧ isOpen h conn = false := by
    obtain ⟨mid, rest, rfl⟩ := List.append_of_mem he
    have hsplit : pre ++ .closed conn fd :: (mid ++ e :: rest) = (pre ++ .closed conn fd :: mid) ++ e :: rest := by
      simp
    refine ⟨pre ++ .closed conn fd :: mid, hbytes _ e rest hsplit, ?_⟩
    refine isOpen_of_closed (hcalls.of_prefix ?_) (List.mem_filterMap.mpr ⟨.closed conn fd, by simp, rfl⟩)
    rw [hsplit]
    exact List.prefix_append _ _
  have hpost {e : KernelEvent} (he : e ∈ post) :
      (∀ data, e ≠ .arrived conn data) ∧ (∀ fd data, e ≠ .received conn fd data) ∧ e ≠ .writeFailed conn := by
    obtain ⟨h, hperm, hnot⟩ := hclosed he
    refine ⟨?_, ?_, ?_⟩
    all_goals
      intros
      rintro rfl
      simp only [BytesPermitted, hnot, Bool.false_eq_true] at hperm
  have harrived : arrived conn (.closed conn fd :: post) = [] := by
    refine List.flatMap_eq_nil_iff.mpr (List.forall_mem_cons.mpr ⟨rfl, fun e he => ?_⟩)
    cases e with
    | arrived conn' data => exact if_neg fun heq => (hpost he).1 data (by rw [heq])
    | _ => rfl
  have hreceived : received conn (.closed conn fd :: post) = [] := by
    refine List.flatMap_eq_nil_iff.mpr (List.forall_mem_cons.mpr ⟨rfl, fun e he => ?_⟩)
    cases e with
    | received conn' fd' data => exact if_neg fun heq => (hpost he).2.1 fd' data (by rw [heq])
    | _ => rfl
  refine ⟨?_, ?_, ?_⟩
  · rw [arrived_append, harrived, List.append_nil]
  · rw [received_append, hreceived, List.append_nil]
  · simp only [List.mem_append, List.mem_cons, reduceCtorEq, false_or, or_iff_left_iff_imp]
    exact fun he => absurd rfl (hpost he).2.2

/-! ### What holds at every step -/

/-- The port has got of a connection's bytes what `recv` has taken, less what failing writes have lost. -/
structure Server.Forwards (s : Server ψ) : Prop where
  bytes : History.Permitted BytesPermitted s.history
  taken : ∀ conn, received conn s.history <+: arrived conn s.history
  isPrefix : ∀ conn, .writeFailed conn ∉ s.history → forwarded conn s.history <+: received conn s.history
  whole : ∀ conn, s.halt = none ∨ isOpen s.history conn = false → .writeFailed conn ∉ s.history →
    forwarded conn s.history = received conn s.history
  lost : ∀ conn, .writeFailed conn ∈ s.history → (forwarded conn s.history).length < (received conn s.history).length

/-- Events that take no byte from a client and bring none to the port. -/
def MovesNoBytes : KernelEvent → Prop
  | .received _ _ data => data = []
  | .forwarded _ _ => False
  | .writeFailed _ => False
  | _ => True

section Steps

variable {sigpipeIgnored : Bool} {lib : MavlinkLib ψ} {s s' : Server ψ}

theorem received_of_movesNoBytes (conn : Nat) {events : History} (h : ∀ e ∈ events, MovesNoBytes e) :
    received conn events = [] := by
  refine List.flatMap_eq_nil_iff.mpr fun e he => ?_
  cases e with
  | received conn' fd data =>
      have hdata : data = [] := h _ he
      simp [hdata]
  | _ => rfl

theorem forwarded_of_movesNoBytes (conn : Nat) {events : History} (h : ∀ e ∈ events, MovesNoBytes e) :
    forwarded conn events = [] := by
  refine List.flatMap_eq_nil_iff.mpr fun e he => ?_
  cases e with
  | forwarded conn' data => exact (h _ he).elim
  | _ => rfl

theorem Server.Forwards.keep {events : History} (hlive : s.halt = none) (h : s.Forwards)
    (hhistory : s'.history = s.history ++ events) (hevents : ∀ e ∈ events, MovesNoBytes e)
    (hbytes : History.Permitted BytesPermitted s'.history) : s'.Forwards := by
  have hreceived (conn) : received conn s'.history = received conn s.history := by
    rw [hhistory, received_append, received_of_movesNoBytes conn hevents, List.append_nil]
  have hforwarded (conn) : forwarded conn s'.history = forwarded conn s.history := by
    rw [hhistory, forwarded_append, forwarded_of_movesNoBytes conn hevents, List.append_nil]
  have hfailed (conn) : .writeFailed conn ∈ s'.history ↔ .writeFailed conn ∈ s.history := by
    rw [hhistory, List.mem_append, or_iff_left fun he => hevents (.writeFailed conn) he]
  refine ⟨hbytes, fun conn => ?_, fun conn hnot => ?_, fun conn _ hnot => ?_, fun conn hfail => ?_⟩
  · rw [hreceived, hhistory, arrived_append]
    exact (h.taken conn).trans (List.prefix_append _ _)
  · rw [hfailed] at hnot
    rw [hreceived, hforwarded]
    exact h.isPrefix conn hnot
  · rw [hfailed] at hnot
    rw [hreceived, hforwarded]
    exact h.whole conn (.inl hlive) hnot
  · rw [hfailed] at hfail
    rw [hreceived, hforwarded]
    exact h.lost conn hfail

theorem recvData_next (h : s.Forwards) (conn : Nat) (count : Int) :
    received conn s.history ++ recvData s.history conn count <+: arrived conn s.history := by
  obtain ⟨rest, hrest⟩ := h.taken conn
  rw [recvData, unread, ← hrest, List.drop_left]
  exact (List.prefix_append_right_inj _).mpr (List.take_prefix _ _)

/-- One `serial_write` of what `recv` has taken, as far as it gets. -/
structure ServedBytes (client : ClientNode) (data port : Bytes) (status : PushLoop.Status) (s s' : Server ψ) :
    Prop where
  isOpen : ∀ conn, isOpen s'.history conn = isOpen s.history conn
  arrived : ∀ conn, arrived conn s'.history = arrived conn s.history
  received : ∀ conn, received conn s'.history = received conn s.history ++ if client.conn = conn then data else []
  forwarded : ∀ conn, forwarded conn s'.history = forwarded conn s.history ++ if client.conn = conn then port else []
  failed : ∀ conn, .writeFailed conn ∈ s'.history ↔
    .writeFailed conn ∈ s.history ∨ client.conn = conn ∧ status = .failed
  bytes : History.Permitted BytesPermitted s'.history

theorem Server.Forwards.servedBytes (h : s.Forwards) {client : ClientNode}
    (hopen : isOpen s.history client.conn = true) {data port : Bytes} {status : PushLoop.Status}
    (hhistory : s'.history = s.history ++ (.received client.conn client.client data :: .forwarded client.conn port ::
      if status = .failed then [.writeFailed client.conn] else [])) :
    ServedBytes client data port status s s' := by
  set events : History := .received client.conn client.client data :: .forwarded client.conn port ::
    if status = .failed then [.writeFailed client.conn] else [] with hevents
  have hkeeps : KeepsConns events := by
    rw [hevents]
    split_ifs <;> exact ⟨rfl, rfl⟩
  refine ⟨fun conn => ?_, fun conn => ?_, fun conn => ?_, fun conn => ?_, fun conn => ?_, ?_⟩
  · rw [hhistory, isOpen, openConns_append_of_keeps hkeeps, isOpen]
  · rw [hhistory, arrived_append, List.append_right_eq_self, hevents]
    split_ifs <;> rfl
  · rw [hhistory, received_append, hevents]
    split_ifs <;> simp [received, *]
  · rw [hhistory, forwarded_append, hevents]
    split_ifs <;> simp [forwarded, *]
  · rw [hhistory, List.mem_append, hevents]
    split_ifs with hstatus <;> simp [hstatus, eq_comm]
  · rw [hhistory]
    refine h.bytes.append fun pre e post heq => ?_
    rw [heq] at hkeeps
    rw [bytesPermitted_append hkeeps.of_append]
    have he : e ∈ events := by simp [heq]
    simp only [hevents, List.mem_cons] at he
    obtain rfl | rfl | he := he
    · exact hopen
    · exact hopen
    · split_ifs at he
      · obtain rfl := List.mem_singleton.mp he
        exact hopen
      · cases he

theorem Server.Forwards.served (hlinked : s.Linked) (hlive : s.halt = none) (h : s.Forwards) {client : ClientNode}
    {rest : List ClientNode} (hclients : s.gClients = client :: rest) {count : Int}
    (hdata : recvData s.history client.conn count ≠ []) (writes : List Int) :
    (s.served client (recvData s.history client.conn count) writes).Forwards := by
  have hopen : isOpen s.history client.conn = true := hlinked.isOpen (by simp [hclients])
  have hnext := recvData_next h client.conn count
  generalize recvData s.history client.conn count = data at hdata hnext ⊢
  obtain ⟨hinitial, hdone⟩ := serialWrite_prefix hdata writes
  obtain ⟨hhistory, hhalt, -, -⟩ := s.served_spec client data writes
  generalize s.served client data writes = s' at hhistory hhalt ⊢
  generalize serialWrite data writes = write at hinitial hdone hhistory hhalt
  obtain ⟨port, status⟩ := write
  dsimp only at hinitial hdone hhistory hhalt
  have hserved := h.servedBytes hopen hhistory
  refine ⟨hserved.bytes, fun conn => ?_, fun conn hnot => ?_, fun conn hsettled hnot => ?_, fun conn hfail => ?_⟩
  · rw [hserved.received, hserved.arrived]
    split_ifs with hconn
    · exact hconn ▸ hnext
    · rw [List.append_nil]
      exact h.taken conn
  · rw [hserved.failed, not_or] at hnot
    rw [hserved.received, hserved.forwarded, h.whole conn (.inl hlive) hnot.1, List.prefix_append_right_inj]
    split_ifs
    · exact hinitial
    · exact List.prefix_rfl
  · rw [hserved.failed, not_or] at hnot
    rw [hserved.received, hserved.forwarded, h.whole conn (.inl hlive) hnot.1]
    split_ifs with hconn
    · rw [hserved.isOpen, ← hconn, hopen] at hsettled
      have hstatus : status = .done := by
        cases status with
        | pending => simp [hhalt] at hsettled
        | failed => exact absurd ⟨hconn, rfl⟩ hnot.2
        | done => rfl
      rw [hdone.mp hstatus]
    · rfl
  · rw [hserved.received, hserved.forwarded, List.length_append, List.length_append]
    by_cases hold : .writeFailed conn ∈ s.history
    · have hlost := h.lost conn hold
      have hle := hinitial.length_le
      split_ifs
      · omega
      · simpa using hlost
    · obtain ⟨hconn, rfl⟩ := ((hserved.failed conn).mp hfail).resolve_left hold
      have hshort : port.length ≠ data.length := fun hlength => nomatch hdone.mpr (hinitial.eq_of_length hlength)
      have hle := hinitial.length_le
      rw [h.whole conn (.inl hlive) hold, if_pos hconn, if_pos hconn]
      omega

theorem Server.Forwards.quietStep (hlinked : s.Linked) (hlive : s.halt = none) (h : s.Forwards)
    (hstep : QuietStep s s') : s'.Forwards := by
  have hlog {s' : Server ψ} {events : History} (hhistory : s'.history = s.history ++ events)
      (hevents : ∀ e ∈ events, MovesNoBytes e) (halways : ∀ e ∈ events, ∀ pre, BytesPermitted pre e) : s'.Forwards :=
    h.keep hlive hhistory hevents (hhistory ▸ h.bytes.append_always halways)
  have hsame {s' : Server ψ} (hhistory : s'.history = s.history) : s'.Forwards :=
    hlog (hhistory.trans (List.append_nil _).symm) (by simp) (by simp)
  cases hstep with
  | peer act =>
      obtain heq | ⟨conn, data, hopen, heq⟩ | ⟨conn, -, heq⟩ := act.events_cases s.history
      · exact hlog rfl (by simp [heq]) (by simp [heq])
      · have hhistory : (peerAct act s).history = s.history ++ [.arrived conn data] := congrArg (s.history ++ ·) heq
        refine h.keep hlive hhistory (by simp [MovesNoBytes]) ?_
        rw [hhistory]
        exact History.permitted_concat.mpr ⟨h.bytes, hopen⟩
      · exact hlog rfl (by simp [heq, MovesNoBytes]) (by simp [heq, BytesPermitted])
  | polled => exact hlog rfl (by simp [MovesNoBytes]) (by simp [BytesPermitted])
  | notAccepted => exact hlog rfl (by simp [MovesNoBytes]) (by simp [BytesPermitted])
  | rejected hpos hfree => exact hlog rfl (by simp [MovesNoBytes]) (by simp [BytesPermitted])
  | linked addr port hpos hfree => exact hlog rfl (by simp [MovesNoBytes]) (by simp [BytesPermitted])
  | terminated hclients => exact hlog rfl (by simp [MovesNoBytes]) (by simp [BytesPermitted])
  | commander => exact hsame rfl
  | recvFailed hclients =>
      refine h.keep hlive rfl (by simp [MovesNoBytes]) (History.permitted_concat.mpr ⟨h.bytes, ?_⟩)
      exact hlinked.isOpen (by simp [hclients])
  | served hclients hdata writes => exact h.served hlinked hlive hclients hdata writes
  | userCmd received frames => exact hlog rfl (by simp [MovesNoBytes]) (by simp [BytesPermitted])
  | promoted => exact hsame (promote_spec s).1
  | halted hhalt => exact hsame rfl

theorem Server.Forwards.step (hlinked : s.Linked) (hlive : s.halt = none) (h : s.Forwards)
    (hstep : Server.Step sigpipeIgnored lib s s') : s'.Forwards := by
  have hlog {s' : Server ψ} {events : History} (hhistory : s'.history = s.history ++ events)
      (hevents : ∀ e ∈ events, MovesNoBytes e) (halways : ∀ e ∈ events, ∀ pre, BytesPermitted pre e) : s'.Forwards :=
    h.keep hlive hhistory hevents (hhistory ▸ h.bytes.append_always halways)
  cases hstep with
  | quiet hquiet => exact h.quietStep hlinked hlive hquiet
  | chunk envs data =>
      obtain ⟨-, -, frames, hhistory⟩ := receiveChunk_spec lib envs data s
      exact hlog hhistory (by simp [MovesNoBytes]) (by simp [BytesPermitted])
  | sent hmem hreset data => exact hlog rfl (by simp [MovesNoBytes]) (by simp [BytesPermitted])
  | sendFailed hmem hpipe => exact hlog rfl (by simp [MovesNoBytes]) (by simp [BytesPermitted])
  | killed hmem hpipe hreset => exact hlog rfl (by simp [MovesNoBytes]) (by simp [BytesPermitted])

end Steps

/-! ### A tenure -/

theorem forwards_start (receiver : Receiver ψ) : (Server.start receiver).Forwards :=
  ⟨History.permitted_nil, fun _ => List.prefix_rfl, fun _ _ => List.prefix_rfl, fun _ _ _ => rfl, fun _ => nofun⟩

theorem forwards_run (sigpipeIgnored : Bool) (lib : MavlinkLib ψ) (receiver : Receiver ψ) (ticks : List Tick) :
    let s := Machine.run (mainLoop sigpipeIgnored lib) (Server.start receiver) ticks
    s.Linked ∧ s.Forwards :=
  run_mainLoop_invariant (I := Server.Forwards) (fun _ _ hlinked hlive hstep h => h.step hlinked hlive hstep)
    (forwards_start receiver) ticks

/-- In every run, for every connection that the server has closed: the port has got just the bytes that
had become readable on it if none of its writes had failed and nothing was left unread on it. -/
theorem forwarded_eq_arrived_iff (sigpipeIgnored : Bool) (lib : MavlinkLib ψ) (receiver : Receiver ψ)
    (ticks : List Tick) (pre post : History) (conn : Nat) (fd : Int)
    (hclose : (Machine.run (mainLoop sigpipeIgnored lib) (Server.start receiver) ticks).history =
      pre ++ .closed conn fd :: post) :
    let h := (Machine.run (mainLoop sigpipeIgnored lib) (Server.start receiver) ticks).history
    forwarded conn h = arrived conn h ↔ .writeFailed conn ∉ pre ∧ unread pre conn = [] := by
  intro h
  obtain ⟨hlinked, hforwards⟩ := forwards_run sigpipeIgnored lib receiver ticks
  obtain ⟨harrived, hreceived, hfailed⟩ : arrived conn h = arrived conn pre ∧ received conn h = received conn pre ∧
      (.writeFailed conn ∈ h ↔ .writeFailed conn ∈ pre) := by
    have hcalls := hlinked.permitted
    have hbytes := hforwards.bytes
    rw [hclose] at hcalls hbytes
    simp only [h, hclose]
    exact bytes_of_closed hcalls hbytes
  have hsettled : isOpen h conn = false :=
    isOpen_of_closed (h := h) hlinked.permitted (List.mem_filterMap.mpr ⟨.closed conn fd, by simp [h, hclose], rfl⟩)
  have htaken : received conn h <+: arrived conn h := hforwards.taken conn
  have hunread : unread pre conn = [] ↔ received conn h = arrived conn h := by
    rw [unread, List.drop_eq_nil_iff, ← hreceived, ← harrived]
    exact ⟨fun hle => htaken.eq_of_length_le hle, fun heq => (congrArg List.length heq).ge⟩
  rw [hunread, ← hfailed]
  constructor
  · intro heq
    by_cases hfail : .writeFailed conn ∈ h
    · have hlost : (forwarded conn h).length < (received conn h).length := hforwards.lost conn hfail
      have hle := htaken.length_le
      rw [← heq] at hle
      omega
    · exact ⟨hfail, (hforwards.whole conn (.inr hsettled) hfail).symm.trans heq⟩
  · intro hboth
    obtain ⟨hfail, heq⟩ := hboth
    exact (hforwards.whole conn (.inr hsettled) hfail).trans heq

/-- A client arrives and takes command, something happens to it, and it hangs up. -/
def tenure (tick : Tick) : Server Unit :=
  Machine.run (mainLoop false silentLib) (Server.start ⟨(), {}⟩)
    [{ idleTick with server := true, accept := .socket 7 true 0x7f000001 50000 }, tick,
     { idleTick with client := { hupOrErr := true } }]

/-- Two bytes come from the client. -/
def twoBytes : Tick := { idleTick with peers := [.write 0 [1, 2]], client := { pollIn := true }, recv := 2 }

/-- The driver takes them one by one. -/
theorem forwarded_eq_arrived_iff_oneByOne :
    forwarded 0 (tenure { twoBytes with writes := [1, 1] }).history =
        arrived 0 (tenure { twoBytes with writes := [1, 1] }).history ↔
      .writeFailed 0 ∉ (tenure { twoBytes with writes := [1, 1] }).history.dropLast ∧
        unread (tenure { twoBytes with writes := [1, 1] }).history.dropLast 0 = [] :=
  forwarded_eq_arrived_iff false silentLib ⟨(), {}⟩ _ _ [] 0 7 (by decide +kernel)

/-- The driver's buffer is full after the first byte, or the client hangs up with both bytes unread. -/
theorem bytes_are_lost :
    let full := (tenure { twoBytes with writes := [1, -1] }).history
    let hungUp := (tenure { twoBytes with client := { hupOrErr := true, pollIn := true } }).history
    ((0, 7) ∈ closedConns full ∧ arrived 0 full = [1, 2] ∧ forwarded 0 full = [1]) ∧
      ((0, 7) ∈ closedConns hungUp ∧ arrived 0 hungUp = [1, 2] ∧ forwarded 0 hungUp = []) := by
  decide +kernel

end MissionServer
