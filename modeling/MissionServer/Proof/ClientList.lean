import Mathlib.Data.List.Nodup
import MissionServer.Lib.History
import MissionServer.Proof.Broadcast

/-!
# The list of clients and its commander

The list holds exactly the open connections, and no call is made on a connection that is not open. Both
hold at every small step. The commanding client and its poll slot are right at the top of every
iteration; in between, a client that leaves empties the slot, and `promote` fills it again.
-/

namespace MissionServer

variable {ψ : Type}

/-! ### Connections in a history -/

theorem acceptedConns_append (h h' : History) : acceptedConns (h ++ h') = acceptedConns h ++ acceptedConns h' :=
  List.filterMap_append

theorem closedConns_append (h h' : History) : closedConns (h ++ h') = closedConns h ++ closedConns h' :=
  List.filterMap_append

/-- Events that neither open nor close a connection. -/
def KeepsConns (events : History) : Prop := acceptedConns events = [] ∧ closedConns events = []

theorem openConns_append_of_keeps {h events : History} (hkeeps : KeepsConns events) :
    openConns (h ++ events) = openConns h := by
  simp only [openConns, acceptedConns_append, closedConns_append, hkeeps.1, hkeeps.2, List.append_nil]

section Append

variable (h : History) (conn : Nat) (fd : Int)

theorem acceptedConns_append_accepted : acceptedConns (h ++ [.accepted conn fd]) = acceptedConns h ++ [(conn, fd)] := by
  simp [acceptedConns]

theorem closedConns_append_accepted : closedConns (h ++ [.accepted conn fd]) = closedConns h := by simp [closedConns]

theorem acceptedConns_append_closed : acceptedConns (h ++ [.closed conn fd]) = acceptedConns h := by
  simp [acceptedConns]

theorem closedConns_append_closed : closedConns (h ++ [.closed conn fd]) = closedConns h ++ [(conn, fd)] := by
  simp [closedConns]

theorem openConns_append_closed :
    openConns (h ++ [.closed conn fd]) = (openConns h).filter fun c => c ≠ (conn, fd) := by
  rw [openConns, acceptedConns_append_closed, closedConns_append_closed, openConns, List.filter_filter]
  apply List.filter_congr
  intro c _
  simp [Bool.and_comm]

variable {h conn fd}

theorem openConns_append_accepted (hfresh : (conn, fd) ∉ closedConns h) :
    openConns (h ++ [.accepted conn fd]) = openConns h ++ [(conn, fd)] := by
  rw [openConns, acceptedConns_append_accepted, closedConns_append_accepted, List.filter_append, openConns]
  simp [hfresh]

end Append

theorem mem_openConns {h : History} {c : Nat × Int} :
    c ∈ openConns h ↔ c ∈ acceptedConns h ∧ c ∉ closedConns h := by
  simp [openConns]

/-! ### What holds at every step -/

/-- A call on a descriptor is made only while the connection it was returned for is open on it. -/
def CallPermitted (h : History) : KernelEvent → Prop
  | .received conn fd _ => (conn, fd) ∈ openConns h
  | .sent conn fd _ => (conn, fd) ∈ openConns h
  | .sendFailed conn fd => (conn, fd) ∈ openConns h
  | .closed conn fd => (conn, fd) ∈ openConns h
  | .accepted conn fd => conn = (acceptedConns h).length ∧ 0 < fd ∧ fd ∉ (openConns h).map Prod.snd
  | _ => True

/-- The connection and the descriptor of a node. -/
def ClientNode.socket (client : ClientNode) : Nat × Int := (client.conn, client.client)

structure Server.Linked (s : Server ψ) : Prop where
  list : openConns s.history = s.gClients.map ClientNode.socket
  permitted : History.Permitted CallPermitted s.history

/-- Whatever the calls, connections are numbered in the order of their arrival, each is closed at most
once, and those open at one time have different descriptors. -/
structure WellNumbered (h : History) : Prop where
  ordinals : (acceptedConns h).map Prod.fst = List.range (acceptedConns h).length
  closedNodup : (closedConns h).Nodup
  closedAccepted : ∀ c ∈ closedConns h, c ∈ acceptedConns h
  fdsNodup : ((openConns h).map Prod.snd).Nodup
  fdsPos : ∀ c ∈ openConns h, 0 < c.2

theorem WellNumbered.conn_lt {h : History} (hwell : WellNumbered h) {c : Nat × Int} (hmem : c ∈ acceptedConns h) :
    c.1 < (acceptedConns h).length := by
  have hordinal : c.1 ∈ (acceptedConns h).map Prod.fst := List.mem_map_of_mem hmem
  rwa [hwell.ordinals, List.mem_range] at hordinal

theorem WellNumbered.fresh {h : History} (hwell : WellNumbered h) (fd : Int) :
    ((acceptedConns h).length, fd) ∉ acceptedConns h :=
  fun hmem => lt_irrefl _ (hwell.conn_lt hmem)

theorem WellNumbered.keep {h events : History} (hwell : WellNumbered h) (hkeeps : KeepsConns events) :
    WellNumbered (h ++ events) := by
  have haccepted : acceptedConns (h ++ events) = acceptedConns h := by
    rw [acceptedConns_append, hkeeps.1, List.append_nil]
  have hclosed : closedConns (h ++ events) = closedConns h := by
    rw [closedConns_append, hkeeps.2, List.append_nil]
  have hopen := openConns_append_of_keeps (h := h) hkeeps
  exact
    { ordinals := haccepted ▸ hwell.ordinals
      closedNodup := hclosed ▸ hwell.closedNodup
      closedAccepted := hclosed ▸ haccepted ▸ hwell.closedAccepted
      fdsNodup := hopen ▸ hwell.fdsNodup
      fdsPos := hopen ▸ hwell.fdsPos }

theorem WellNumbered.accepted {h : History} (hwell : WellNumbered h) {fd : Int} (hpos : 0 < fd)
    (hfree : fd ∉ (openConns h).map Prod.snd) : WellNumbered (h ++ [.accepted (acceptedConns h).length fd]) := by
  have hopen := openConns_append_accepted fun hmem => hwell.fresh fd (hwell.closedAccepted _ hmem)
  refine ⟨?_, ?_, ?_, ?_, ?_⟩
  · rw [acceptedConns_append_accepted, List.map_append, hwell.ordinals, List.length_append, List.length_singleton,
      List.range_succ]
    rfl
  · rw [closedConns_append_accepted]
    exact hwell.closedNodup
  · rw [closedConns_append_accepted, acceptedConns_append_accepted]
    exact fun c hc => List.mem_append_left _ (hwell.closedAccepted c hc)
  · rw [hopen, List.map_append, List.map_singleton, ← List.concat_eq_append]
    exact List.Nodup.concat hfree hwell.fdsNodup
  · intro c hc
    rw [hopen] at hc
    obtain hc | hc := List.mem_append.mp hc
    · exact hwell.fdsPos c hc
    · rw [List.mem_singleton.mp hc]
      exact hpos

theorem WellNumbered.closed {h : History} (hwell : WellNumbered h) {conn : Nat} {fd : Int}
    (hopen : (conn, fd) ∈ openConns h) : WellNumbered (h ++ [.closed conn fd]) := by
  obtain ⟨haccepted, hnotClosed⟩ := mem_openConns.mp hopen
  refine ⟨?_, ?_, ?_, ?_, ?_⟩
  · rw [acceptedConns_append_closed]
    exact hwell.ordinals
  · rw [closedConns_append_closed, ← List.concat_eq_append]
    exact List.Nodup.concat hnotClosed hwell.closedNodup
  · rw [closedConns_append_closed, acceptedConns_append_closed]
    intro c hc
    obtain hc | hc := List.mem_append.mp hc
    · exact hwell.closedAccepted c hc
    · rw [List.mem_singleton.mp hc]
      exact haccepted
  · rw [openConns_append_closed]
    exact hwell.fdsNodup.sublist (List.filter_sublist.map _)
  · rw [openConns_append_closed]
    exact fun c hc => hwell.fdsPos c (List.mem_filter.mp hc).1

theorem wellNumbered_of_permitted (h : History) (hperm : History.Permitted CallPermitted h) : WellNumbered h := by
  induction h using List.reverseRecOn with
  | nil => exact ⟨rfl, List.nodup_nil, by simp [closedConns], List.nodup_nil, by simp [openConns, acceptedConns]⟩
  | append_singleton h e ih =>
      obtain ⟨hrest, he⟩ := History.permitted_concat.mp hperm
      have hwell := ih hrest
      cases e with
      | accepted conn fd =>
          obtain ⟨rfl, hpos, hfree⟩ := he
          exact hwell.accepted hpos hfree
      | closed conn fd => exact hwell.closed he
      | _ => exact hwell.keep ⟨rfl, rfl⟩

theorem conn_lt_of_received {h : History} (hperm : History.Permitted CallPermitted h) {conn : Nat} {fd : Int}
    {data : Bytes} (hmem : .received conn fd data ∈ h) : conn < (acceptedConns h).length := by
  obtain ⟨pre, post, hsplit⟩ := List.append_of_mem hmem
  have hopen : (conn, fd) ∈ openConns pre := hperm pre _ post hsplit
  have haccepted : (conn, fd) ∈ acceptedConns h := by
    rw [hsplit, acceptedConns_append]
    exact List.mem_append_left _ (mem_openConns.mp hopen).1
  exact (wellNumbered_of_permitted h hperm).conn_lt haccepted

theorem keepsConns_cons {e : KernelEvent} {events : History} :
    KeepsConns (e :: events) ↔ KeepsConns [e] ∧ KeepsConns events := by
  have haccepted : acceptedConns (e :: events) = acceptedConns [e] ++ acceptedConns events :=
    acceptedConns_append [e] events
  have hclosed : closedConns (e :: events) = closedConns [e] ++ closedConns events := closedConns_append [e] events
  simp only [KeepsConns, haccepted, hclosed, List.append_eq_nil_iff]
  tauto

theorem KeepsConns.of_append {pre post : History} (h : KeepsConns (pre ++ post)) : KeepsConns pre := by
  rw [KeepsConns, acceptedConns_append, closedConns_append, List.append_eq_nil_iff, List.append_eq_nil_iff] at h
  exact ⟨h.1.1, h.2.1⟩

theorem callPermitted_append {h events : History} (hkeeps : KeepsConns events) {e : KernelEvent} :
    CallPermitted (h ++ events) e ↔ CallPermitted h e := by
  cases e <;>
    simp only [CallPermitted, openConns_append_of_keeps hkeeps, acceptedConns_append, hkeeps.1, List.append_nil]

theorem permitted_append {h events : History} (hkeeps : KeepsConns events)
    (hperm : History.Permitted CallPermitted h) (hevents : ∀ e ∈ events, CallPermitted h e) :
    History.Permitted CallPermitted (h ++ events) := by
  refine hperm.append fun pre e post heq => ?_
  rw [heq] at hkeeps
  rw [callPermitted_append hkeeps.of_append]
  exact hevents e (by simp [heq])

theorem Server.Linked.wellNumbered {s : Server ψ} (h : s.Linked) : WellNumbered s.history :=
  wellNumbered_of_permitted s.history h.permitted

theorem Server.Linked.mem_openConns {s : Server ψ} (h : s.Linked) {client : ClientNode} (hmem : client ∈ s.gClients) :
    client.socket ∈ openConns s.history := by
  rw [h.list]
  exact List.mem_map_of_mem hmem

theorem Server.Linked.sockets_nodup {s : Server ψ} (h : s.Linked) : (s.gClients.map ClientNode.socket).Nodup := by
  rw [← h.list]
  exact List.Nodup.of_map _ h.wellNumbered.fdsNodup

theorem Server.Linked.keep {s s' : Server ψ} {events : History} (h : s.Linked) (hclients : s'.gClients = s.gClients)
    (hhistory : s'.history = s.history ++ events) (hkeeps : KeepsConns events)
    (hevents : ∀ e ∈ events, CallPermitted s.history e) : s'.Linked := by
  refine ⟨?_, ?_⟩
  · rw [hhistory, openConns_append_of_keeps hkeeps, hclients]
    exact h.list
  · rw [hhistory]
    exact permitted_append hkeeps h.permitted hevents

theorem Server.Linked.call {s s' : Server ψ} {e : KernelEvent} (h : s.Linked) (hclients : s'.gClients = s.gClients)
    (hhistory : s'.history = s.history ++ [e]) (hkeeps : KeepsConns [e]) (he : CallPermitted s.history e) : s'.Linked :=
  h.keep hclients hhistory hkeeps (List.forall_mem_singleton.mpr he)

theorem Server.Linked.accept {s : Server ψ} (h : s.Linked) {fd : Int} (hpos : 0 < fd)
    (hfree : fdInUse s.history fd = false) :
    let conn := (acceptedConns s.history).length
    History.Permitted CallPermitted (s.history ++ [.accepted conn fd]) ∧
      openConns (s.history ++ [.accepted conn fd]) = openConns s.history ++ [(conn, fd)] := by
  have hwell := h.wellNumbered
  refine ⟨History.permitted_concat.mpr ⟨h.permitted, rfl, hpos, ?_⟩, ?_⟩
  · intro hmem
    obtain ⟨c, hc, hfd⟩ := List.mem_map.mp hmem
    simp only [fdInUse, List.any_eq_false, decide_eq_true_eq] at hfree
    exact hfree c hc hfd
  · exact openConns_append_accepted fun hmem => hwell.fresh fd (hwell.closedAccepted _ hmem)

theorem Server.Linked.linked {s : Server ψ} (h : s.Linked) {fd : Int} (addr : UInt32) (port : UInt16) (hpos : 0 < fd)
    (hfree : fdInUse s.history fd = false) : (s.linked fd addr port).Linked := by
  obtain ⟨hperm, hopen⟩ := h.accept hpos hfree
  have hkeeps : KeepsConns [.linked (acceptedConns s.history).length ((s.gLastId + 1).bmod (2 ^ 32))] := ⟨rfl, rfl⟩
  refine ⟨?_, ?_⟩
  · simp only [Server.linked, Server.log_history]
    rw [List.append_cons, openConns_append_of_keeps hkeeps, hopen, h.list, Server.log_gClients, List.map_append]
    rfl
  · simp only [Server.linked, Server.log_history]
    rw [List.append_cons]
    exact permitted_append hkeeps hperm (by simp [CallPermitted])

theorem Server.Linked.rejected {s : Server ψ} (h : s.Linked) {fd : Int} (hpos : 0 < fd)
    (hfree : fdInUse s.history fd = false) :
    (s.log [.accepted (acceptedConns s.history).length fd, .closed (acceptedConns s.history).length fd]).Linked := by
  obtain ⟨hperm, hopen⟩ := h.accept hpos hfree
  have hnew : ∀ c ∈ openConns s.history, c ≠ ((acceptedConns s.history).length, fd) := by
    rintro c hc rfl
    exact h.wellNumbered.fresh fd (MissionServer.mem_openConns.mp hc).1
  refine ⟨?_, ?_⟩
  · rw [Server.log_history, List.append_cons, openConns_append_closed, hopen, List.filter_append,
      List.filter_eq_self.mpr fun c hc => decide_eq_true (hnew c hc), Server.log_gClients, h.list]
    simp
  · rw [Server.log_history, List.append_cons]
    exact History.permitted_concat.mpr ⟨hperm, by rw [CallPermitted, hopen]; simp⟩

theorem Server.Linked.terminated {s : Server ψ} (h : s.Linked) {pre post : List ClientNode} {node : ClientNode}
    (hclients : s.gClients = pre ++ node :: post) : (s.terminated pre node post).Linked := by
  have hmem : node ∈ s.gClients := by simp [hclients]
  have hnodup := h.sockets_nodup
  rw [hclients, List.map_append, List.map_cons] at hnodup
  refine ⟨?_, ?_⟩
  · simp only [Server.terminated, Server.log_history, Server.log_gClients]
    rw [openConns_append_closed, h.list, hclients, List.map_append, List.map_cons, List.map_append, List.filter_append,
      List.filter_cons_of_neg (by simp [ClientNode.socket])]
    rw [List.nodup_append, List.nodup_cons] at hnodup
    obtain ⟨-, ⟨hpost, -⟩, hpre⟩ := hnodup
    congr 1
    · apply List.filter_eq_self.mpr
      exact fun c hc => decide_eq_true (hpre c hc node.socket List.mem_cons_self)
    · apply List.filter_eq_self.mpr
      exact fun c hc => decide_eq_true fun heq : c = node.socket => hpost (heq ▸ hc)
  · simp only [Server.terminated, Server.log_history]
    exact History.permitted_concat.mpr ⟨h.permitted, h.mem_openConns hmem⟩

theorem peerAct_keepsConns (h : History) (act : PeerAct) : KeepsConns (act.events h) := by
  obtain heq | ⟨conn, data, -, heq⟩ | ⟨conn, -, heq⟩ := act.events_cases h
  all_goals
    rw [heq]
    exact ⟨rfl, rfl⟩

theorem keepsConns_own (frames : List MavlinkFrame) : KeepsConns (frames.map .own) := by
  simp [KeepsConns, acceptedConns, closedConns, List.filterMap_map]

theorem Server.Linked.quietStep {s s' : Server ψ} (h : s.Linked) (hstep : QuietStep s s') : s'.Linked := by
  cases hstep with
  | peer act =>
      refine h.keep rfl rfl (peerAct_keepsConns s.history act) ?_
      obtain heq | ⟨conn, data, -, heq⟩ | ⟨conn, -, heq⟩ := act.events_cases s.history
      all_goals simp [heq, CallPermitted]
  | polled => exact h.call rfl rfl ⟨rfl, rfl⟩ trivial
  | notAccepted => exact h.call rfl rfl ⟨rfl, rfl⟩ trivial
  | rejected hpos hfree => exact h.rejected hpos hfree
  | linked addr port hpos hfree => exact h.linked addr port hpos hfree
  | terminated hclients => exact h.terminated hclients
  | commander => exact ⟨h.list, h.permitted⟩
  | recvFailed hclients => exact h.call rfl rfl ⟨rfl, rfl⟩ (h.mem_openConns (by simp [hclients]))
  | @served client rest hclients count hdata writes =>
      have hmem : client.socket ∈ openConns s.history := h.mem_openConns (by simp [hclients])
      obtain ⟨hhistory, -, hclients', -⟩ := s.served_spec client (recvData s.history client.conn count) writes
      refine h.keep hclients' hhistory ?_ ?_
      · split_ifs <;> exact ⟨rfl, rfl⟩
      · refine List.forall_mem_cons.mpr ⟨hmem, ?_⟩
        split_ifs <;> simp [CallPermitted]
  | userCmd received frames =>
      refine h.keep rfl rfl (keepsConns_own frames) ?_
      simp [CallPermitted]
  | promoted =>
      obtain ⟨hhistory, hclients, -, -⟩ := promote_spec s
      exact h.keep hclients (hhistory.trans (List.append_nil _).symm) ⟨rfl, rfl⟩ (by simp)
  | halted halt => exact ⟨h.list, h.permitted⟩

theorem Server.Linked.step {sigpipeIgnored : Bool} {lib : MavlinkLib ψ} {s s' : Server ψ} (h : s.Linked)
    (hstep : Server.Step sigpipeIgnored lib s s') : s'.Linked := by
  cases hstep with
  | quiet hquiet => exact h.quietStep hquiet
  | chunk envs data =>
      obtain ⟨hclients, -, frames, hhistory⟩ := receiveChunk_spec lib envs data s
      refine h.keep hclients hhistory ?_ ?_
      · exact keepsConns_cons.mpr ⟨⟨rfl, rfl⟩, keepsConns_own frames⟩
      · simp [CallPermitted]
  | sent hmem hreset data => exact h.call rfl rfl ⟨rfl, rfl⟩ (h.mem_openConns hmem)
  | sendFailed hmem => exact h.call rfl rfl ⟨rfl, rfl⟩ (h.mem_openConns hmem)
  | killed hmem => exact h.call rfl rfl ⟨rfl, rfl⟩ (h.mem_openConns hmem)

theorem Server.Linked.steps {sigpipeIgnored : Bool} {lib : MavlinkLib ψ} {s s' : Server ψ} (h : s.Linked)
    (hsteps : Server.Steps (Server.Step sigpipeIgnored lib) s s') : s'.Linked :=
  hsteps.invariant (fun _ _ _ hstep hlinked => hlinked.step hstep) h

theorem Server.Linked.quietSteps {s s' : Server ψ} (h : s.Linked) (hsteps : Server.Steps QuietStep s s') : s'.Linked :=
  hsteps.invariant (fun _ _ _ hstep hlinked => hlinked.quietStep hstep) h

theorem Server.Linked.conns_sorted {s : Server ψ} (h : s.Linked) : (s.gClients.map (·.conn)).Pairwise (· < ·) := by
  have hsorted : ((acceptedConns s.history).map Prod.fst).Pairwise (· < ·) := by
    rw [h.wellNumbered.ordinals]
    exact List.pairwise_lt_range
  have hopen : ((openConns s.history).map Prod.fst).Pairwise (· < ·) := hsorted.sublist (List.filter_sublist.map _)
  rw [h.list, List.map_map] at hopen
  exact hopen

theorem Server.Linked.conns_nodup {s : Server ψ} (h : s.Linked) : (s.gClients.map (·.conn)).Nodup :=
  h.conns_sorted.imp ne_of_lt

theorem Server.Linked.conn_lt {s : Server ψ} (h : s.Linked) {client : ClientNode} (hmem : client ∈ s.gClients) :
    client.conn < (acceptedConns s.history).length :=
  h.wellNumbered.conn_lt (MissionServer.mem_openConns.mp (h.mem_openConns hmem)).1

theorem Server.Linked.head_conn_lt {s : Server ψ} (h : s.Linked) {head : ClientNode} {rest : List ClientNode}
    (hclients : s.gClients = head :: rest) {client : ClientNode} (hmem : client ∈ rest) : head.conn < client.conn := by
  have hsorted := h.conns_sorted
  rw [hclients, List.map_cons, List.pairwise_cons] at hsorted
  exact hsorted.1 client.conn (List.mem_map_of_mem hmem)

section Loop

variable {sigpipeIgnored : Bool} {lib : MavlinkLib ψ}

variable (sigpipeIgnored lib) in
/-- `send_data_to_clients` reads nothing, or it takes a chunk. -/
theorem sendDataToClients_cases (tick : Tick) (s : Server ψ) :
    sendDataToClients sigpipeIgnored lib tick s = s ∨
      ∃ data, serialRead gCacheSize tick.serialData = some data ∧ data ≠ [] := by
  rw [sendDataToClients]
  split
  · exact .inl rfl
  · exact .inl rfl
  · rename_i data hne hread
    exact .inr ⟨data, hread, hne⟩

variable (sigpipeIgnored lib) in
/-- A chunk: the parser gets it, and unless a handler ends the process the list is walked over. -/
theorem sendDataToClients_spec {s : Server ψ} (h : s.Linked) (tick : Tick) {data : Bytes}
    (hread : serialRead gCacheSize tick.serialData = some data) (hdata : data ≠ []) :
    let s₁ := receiveChunk lib tick.envs data s
    (s₁.halt ≠ none ∧ sendDataToClients sigpipeIgnored lib tick s = s₁) ∨
    (s₁.halt = none ∧
      sendDataToClients sigpipeIgnored lib tick s = broadcast sigpipeIgnored data tick.sends s₁.gClients.head? 0 s₁ ∧
      ∃ events, Broadcasted sigpipeIgnored lib data [] s.gClients s₁
        (sendDataToClients sigpipeIgnored lib tick s) events) := by
  intro s₁
  have hclients : s₁.gClients = [] ++ s.gClients := (receiveChunk_spec lib tick.envs data s).1
  have heq : sendDataToClients sigpipeIgnored lib tick s =
      s₁.andThen fun s => broadcast sigpipeIgnored data tick.sends s.gClients.head? 0 s := by
    rw [sendDataToClients]
    rw [hread]
    cases data with
    | nil => exact absurd rfl hdata
    | cons byte data => rfl
  by_cases hhalt : s₁.halt = none
  · have hwalk : sendDataToClients sigpipeIgnored lib tick s =
        broadcast sigpipeIgnored data tick.sends s₁.gClients.head? 0 s₁ := by
      rw [heq, Server.andThen, hhalt, Option.isSome_none, if_neg Bool.false_ne_true]
    refine .inr ⟨hhalt, hwalk, ?_⟩
    rw [hwalk, hclients]
    exact broadcast_spec hdata tick.sends hhalt hclients h.conns_nodup
  · refine .inl ⟨hhalt, ?_⟩
    rw [heq, Server.andThen, if_pos (Option.isSome_iff_ne_none.mpr hhalt)]

theorem sendDataToClients_steps {s : Server ψ} (h : s.Linked) (hlive : s.halt = none) (tick : Tick) :
    Server.Steps (Server.Step sigpipeIgnored lib) s (sendDataToClients sigpipeIgnored lib tick s) := by
  obtain heq | ⟨data, hread, hdata⟩ := sendDataToClients_cases sigpipeIgnored lib tick s
  · rw [heq]
    exact .refl s
  obtain ⟨-, heq⟩ | ⟨-, -, events, hbroadcast⟩ := sendDataToClients_spec sigpipeIgnored lib h tick hread hdata
  · rw [heq]
    exact .single hlive (.chunk s tick.envs data)
  · exact (Server.Steps.single hlive (.chunk s tick.envs data)).trans hbroadcast.steps

theorem mainLoop_allSteps {s : Server ψ} (h : s.Linked) (tick : Tick) :
    Server.Steps (Server.Step sigpipeIgnored lib) s (mainLoop sigpipeIgnored lib s tick) := by
  obtain ⟨s₁, s₂, hfront, hmiddle, hback⟩ := mainLoop_steps sigpipeIgnored lib s tick
  have hquiet {s s' : Server ψ} (hsteps : Server.Steps QuietStep s s') :
      Server.Steps (Server.Step sigpipeIgnored lib) s s' :=
    hsteps.mono fun _ _ => .quiet
  obtain rfl | ⟨hlive, rfl⟩ := hmiddle
  · exact (hquiet hfront).trans (hquiet hback)
  · exact ((hquiet hfront).trans (sendDataToClients_steps (h.quietSteps hfront) hlive tick)).trans (hquiet hback)

theorem linked_start (receiver : Receiver ψ) : (Server.start receiver).Linked :=
  ⟨rfl, History.permitted_nil⟩

theorem run_mainLoop_invariant {I : Server ψ → Prop}
    (hstep : ∀ s s' : Server ψ, s.Linked → s.halt = none → Server.Step sigpipeIgnored lib s s' → I s → I s')
    {receiver : Receiver ψ} (hstart : I (Server.start receiver)) (ticks : List Tick) :
    (Machine.run (mainLoop sigpipeIgnored lib) (Server.start receiver) ticks).Linked ∧
      I (Machine.run (mainLoop sigpipeIgnored lib) (Server.start receiver) ticks) := by
  refine Machine.run_invariant (I := fun s : Server ψ => s.Linked ∧ I s) ?_ ⟨linked_start receiver, hstart⟩ ticks
  intro s tick hboth
  obtain ⟨hlinked, hI⟩ := hboth
  refine (mainLoop_allSteps hlinked tick).invariant (I := fun s => s.Linked ∧ I s) ?_ ⟨hlinked, hI⟩
  intro s s' hlive hs hboth
  obtain ⟨hlinked, hI⟩ := hboth
  exact ⟨hlinked.step hs, hstep s s' hlinked hlive hs hI⟩

end Loop

/-! ### The commander -/

/-- `poll` is given no descriptor, or that of an open connection. -/
def PollPermitted (h : History) : KernelEvent → Prop
  | .polled fd => fd = -1 ∨ fd ∈ (openConns h).map Prod.snd
  | _ => True

/-- The ids grow along the list, and the poll slot is empty or has the head of the list, in command.
An empty slot leaves no client of the list in command. -/
structure Server.Commanded (s : Server ψ) : Prop where
  ids : (s.gClients.map (·.id)).Pairwise (· < ·)
  idsLe : ∀ client ∈ s.gClients, client.id ≤ s.gLastId
  lastId : -1 ≤ s.gLastId ∧ s.gLastId < (acceptedConns s.history).length
  commandingLe : s.gCommandingClient ≤ s.gLastId
  slot : (s.clientFd = -1 ∧ ∀ client ∈ s.gClients, s.gCommandingClient < client.id) ∨
    ∃ head rest, s.gClients = head :: rest ∧ s.gCommandingClient = head.id ∧ s.clientFd = head.client
  polls : History.Permitted PollPermitted s.history

theorem Server.Commanded.lastId_append {s : Server ψ} (h : s.Commanded) (events : History) :
    -1 ≤ s.gLastId ∧ s.gLastId < (acceptedConns (s.history ++ events)).length := by
  rw [acceptedConns_append, List.length_append]
  have hlast := h.lastId
  omega

theorem Server.Commanded.head_lt {s : Server ψ} (h : s.Commanded) {head : ClientNode} {rest : List ClientNode}
    (hclients : s.gClients = head :: rest) {client : ClientNode} (hmem : client ∈ rest) : head.id < client.id := by
  have hids := h.ids
  rw [hclients, List.map_cons, List.pairwise_cons] at hids
  exact hids.1 client.id (List.mem_map_of_mem hmem)

/-- Ids do not wrap around below 2^31 connections. -/
theorem Server.Commanded.nextId {s : Server ψ} (h : s.Commanded)
    (hcount : (acceptedConns s.history).length + 1 < 2 ^ 31) : (s.gLastId + 1).bmod (2 ^ 32) = s.gLastId + 1 := by
  have hlast := h.lastId
  exact (Int.bmod_eq_iff (by decide)).mpr ⟨by omega, by omega, by simp⟩

/-- A step that changes neither the list nor what `terminate_client` and `promote` look at. -/
theorem Server.Commanded.keep {s s' : Server ψ} {events : History} (h : s.Commanded)
    (hclients : s'.gClients = s.gClients) (hlastId : s'.gLastId = s.gLastId)
    (hcommanding : s'.gCommandingClient = s.gCommandingClient) (hfd : s'.clientFd = s.clientFd)
    (hhistory : s'.history = s.history ++ events) (hpolls : ∀ fd, .polled fd ∉ events) : s'.Commanded := by
  refine ⟨?_, ?_, ?_, ?_, ?_, ?_⟩
  · rw [hclients]
    exact h.ids
  · rw [hclients, hlastId]
    exact h.idsLe
  · rw [hlastId, hhistory]
    exact h.lastId_append events
  · rw [hcommanding, hlastId]
    exact h.commandingLe
  · rw [hclients, hcommanding, hfd]
    exact h.slot
  · rw [hhistory]
    refine h.polls.append_always fun e he pre => ?_
    cases e with
    | polled fd => exact absurd he (hpolls fd)
    | _ => trivial

theorem Server.Commanded.linked {s : Server ψ} (h : s.Commanded) {fd : Int} (addr : UInt32) (port : UInt16)
    (hcount : (acceptedConns (s.linked fd addr port).history).length < 2 ^ 31) : (s.linked fd addr port).Commanded := by
  have hlast := h.lastId
  have hlength : (acceptedConns (s.linked fd addr port).history).length = (acceptedConns s.history).length + 1 := by
    simp [Server.linked, acceptedConns]
  rw [hlength] at hcount
  have hid := h.nextId hcount
  have hclients : (s.linked fd addr port).gClients =
      s.gClients ++ [⟨s.gLastId + 1, addr, port, fd, (acceptedConns s.history).length⟩] := by
    simp only [Server.linked, Server.log_gClients, hid]
  have hlastId : (s.linked fd addr port).gLastId = s.gLastId + 1 := hid
  refine ⟨?_, ?_, ?_, ?_, ?_, ?_⟩
  · rw [hclients, List.map_append]
    refine List.pairwise_append.mpr ⟨h.ids, List.pairwise_singleton _ _, ?_⟩
    intro id hmem id' hmem'
    obtain ⟨client, hclient, rfl⟩ := List.mem_map.mp hmem
    obtain rfl := List.mem_singleton.mp hmem'
    have hle := h.idsLe client hclient
    simp only
    omega
  · rw [hclients, hlastId]
    intro client hmem
    obtain hmem | hmem := List.mem_append.mp hmem
    · have hle := h.idsLe client hmem
      omega
    · obtain rfl := List.mem_singleton.mp hmem
      exact le_rfl
  · rw [hlastId, hlength]
    omega
  · rw [hlastId]
    have hle := h.commandingLe
    change s.gCommandingClient ≤ s.gLastId + 1
    omega
  · rw [hclients]
    obtain ⟨hfd, hids⟩ | ⟨head, rest, hlist, hcommanding, hfd⟩ := h.slot
    · refine .inl ⟨hfd, fun client hmem => ?_⟩
      obtain hmem | hmem := List.mem_append.mp hmem
      · exact hids client hmem
      · obtain rfl := List.mem_singleton.mp hmem
        have hle := h.commandingLe
        change s.gCommandingClient < s.gLastId + 1
        omega
    · exact .inr ⟨head, _, by rw [hlist, List.cons_append], hcommanding, hfd⟩
  · simp only [Server.linked, Server.log_history]
    rw [List.append_cons]
    exact History.permitted_concat.mpr ⟨History.permitted_concat.mpr ⟨h.polls, trivial⟩, trivial⟩

/-- A client that leaves: the head takes the command with it. -/
theorem Server.Commanded.terminated {s : Server ψ} (h : s.Commanded) {pre post : List ClientNode} {node : ClientNode}
    (hclients : s.gClients = pre ++ node :: post) : (s.terminated pre node post).Commanded := by
  have hsub : (pre ++ post).Sublist s.gClients := by
    rw [hclients]
    exact (List.sublist_cons_self node post).append_left pre
  refine ⟨h.ids.sublist (hsub.map _), fun client hmem => h.idsLe client (hsub.subset hmem), h.lastId_append _,
    h.commandingLe, ?_, ?_⟩
  · change ((if node.id = s.gCommandingClient then -1 else s.clientFd) = -1 ∧
        ∀ client ∈ pre ++ post, s.gCommandingClient < client.id) ∨
      ∃ head rest, pre ++ post = head :: rest ∧ s.gCommandingClient = head.id ∧
        (if node.id = s.gCommandingClient then -1 else s.clientFd) = head.client
    obtain ⟨hfd, hids⟩ | ⟨head, rest, hlist, hcommanding, hfd⟩ := h.slot
    · exact .inl ⟨by rw [hfd, ite_self], fun client hmem => hids client (hsub.subset hmem)⟩
    · cases pre with
      | nil =>
          obtain ⟨rfl, rfl⟩ : node = head ∧ post = rest := by simpa using hclients.symm.trans hlist
          refine .inl ⟨if_pos hcommanding.symm, fun client hmem => ?_⟩
          rw [hcommanding]
          exact h.head_lt hlist hmem
      | cons first pre =>
          obtain ⟨rfl, hrest⟩ : first = head ∧ pre ++ node :: post = rest := by simpa using hclients.symm.trans hlist
          have hne : node.id ≠ s.gCommandingClient := by
            have hnode : node ∈ rest := by
              rw [← hrest]
              exact List.mem_append_right _ List.mem_cons_self
            have hlt := h.head_lt hlist hnode
            omega
          exact .inr ⟨first, pre ++ post, rfl, hcommanding, by rw [if_neg hne, hfd]⟩
  · exact History.permitted_concat.mpr ⟨h.polls, trivial⟩

theorem Server.Commanded.promote {s : Server ψ} (h : s.Commanded) : (promote s).Commanded := by
  rw [MissionServer.promote]
  split
  · exact h
  · rename_i client rest hclients
    split
    · exact ⟨h.ids, h.idsLe, h.lastId, h.idsLe client (by simp [hclients]),
        .inr ⟨client, rest, hclients, rfl, rfl⟩, h.polls⟩
    · exact h

theorem Server.Commanded.polled {s : Server ψ} (hlinked : s.Linked) (h : s.Commanded) :
    (s.log [.polled s.clientFd]).Commanded := by
  refine ⟨h.ids, h.idsLe, h.lastId_append _, h.commandingLe, h.slot, ?_⟩
  refine History.permitted_concat.mpr ⟨h.polls, ?_⟩
  obtain ⟨hfd, -⟩ | ⟨head, rest, hlist, -, hfd⟩ := h.slot
  · exact .inl hfd
  · refine .inr ?_
    rw [hfd]
    exact List.mem_map_of_mem (hlinked.mem_openConns (by simp [hlist]))

theorem Server.Commanded.quietStep {s s' : Server ψ} (hlinked : s.Linked) (h : s.Commanded) (hstep : QuietStep s s')
    (hcount : (acceptedConns s'.history).length < 2 ^ 31) : s'.Commanded := by
  cases hstep with
  | peer act =>
      refine h.keep rfl rfl rfl rfl rfl ?_
      obtain heq | ⟨conn, data, -, heq⟩ | ⟨conn, -, heq⟩ := act.events_cases s.history
      all_goals simp [heq]
  | polled => exact h.polled hlinked
  | notAccepted => exact h.keep rfl rfl rfl rfl rfl (by simp)
  | rejected hpos hfree => exact h.keep rfl rfl rfl rfl rfl (by simp)
  | linked addr port hpos hfree => exact h.linked addr port hcount
  | terminated hclients => exact h.terminated hclients
  | commander => exact ⟨h.ids, h.idsLe, h.lastId, h.commandingLe, h.slot, h.polls⟩
  | recvFailed hclients => exact h.keep rfl rfl rfl rfl rfl (by simp)
  | @served client rest hclients count hdata writes =>
      have hrecv : (s.log [.received client.conn client.client (recvData s.history client.conn count)]).Commanded :=
        h.keep rfl rfl rfl rfl rfl (by simp)
      rw [Server.served]
      dsimp only
      split
      · exact hrecv.keep rfl rfl rfl rfl rfl (by simp)
      · exact hrecv.keep rfl rfl rfl rfl rfl (by simp)
      · exact hrecv.keep rfl rfl rfl rfl rfl (by simp)
  | userCmd received frames => exact h.keep rfl rfl rfl rfl rfl (by simp)
  | promoted => exact h.promote
  | halted halt => exact ⟨h.ids, h.idsLe, h.lastId, h.commandingLe, h.slot, h.polls⟩

theorem receiveChunk_slot (lib : MavlinkLib ψ) (envs : Nat → GstEnv) (data : Bytes) (s : Server ψ) :
    (receiveChunk lib envs data s).gLastId = s.gLastId ∧
      (receiveChunk lib envs data s).gCommandingClient = s.gCommandingClient ∧
      (receiveChunk lib envs data s).clientFd = s.clientFd := by
  rw [receiveChunk]
  dsimp only
  split <;> exact ⟨rfl, rfl, rfl⟩

theorem Server.Commanded.step {sigpipeIgnored : Bool} {lib : MavlinkLib ψ} {s s' : Server ψ} (hlinked : s.Linked)
    (h : s.Commanded) (hstep : Server.Step sigpipeIgnored lib s s')
    (hcount : (acceptedConns s'.history).length < 2 ^ 31) : s'.Commanded := by
  cases hstep with
  | quiet hquiet => exact h.quietStep hlinked hquiet hcount
  | chunk envs data =>
      obtain ⟨hclients, -, frames, hhistory⟩ := receiveChunk_spec lib envs data s
      obtain ⟨hlastId, hcommanding, hfd⟩ := receiveChunk_slot lib envs data s
      exact h.keep hclients hlastId hcommanding hfd hhistory (by simp)
  | sent hmem hreset data => exact h.keep rfl rfl rfl rfl rfl (by simp)
  | sendFailed hmem => exact h.keep rfl rfl rfl rfl rfl (by simp)
  | killed hmem => exact h.keep rfl rfl rfl rfl rfl (by simp)

theorem Server.Step.history_prefix {sigpipeIgnored : Bool} {lib : MavlinkLib ψ} {s s' : Server ψ}
    (h : Server.Step sigpipeIgnored lib s s') : s.history <+: s'.history := by
  cases h with
  | quiet hquiet =>
      cases hquiet with
      | commander => exact List.prefix_rfl
      | halted => exact List.prefix_rfl
      | promoted => rw [(promote_spec s).1]
      | @served client rest hclients count hdata writes =>
          rw [(s.served_spec client _ writes).1]
          exact List.prefix_append _ _
      | _ => exact List.prefix_append _ _
  | chunk envs data =>
      obtain ⟨-, -, frames, hhistory⟩ := receiveChunk_spec lib envs data s
      rw [hhistory]
      exact List.prefix_append _ _
  | sent => exact List.prefix_append _ _
  | sendFailed => exact List.prefix_append _ _
  | killed => exact List.prefix_append _ _

/-! ### The top of an iteration -/

theorem gCommandingClient_promote {s : Server ψ} {head : ClientNode} {rest : List ClientNode}
    (hlist : (promote s).gClients = head :: rest) : (promote s).gCommandingClient = head.id := by
  revert hlist
  rw [promote]
  split
  · rename_i hnil
    simp [hnil]
  · rename_i client rest' hclients
    split
    · intro hlist
      obtain ⟨rfl, -⟩ := List.cons.inj (hclients.symm.trans hlist)
      rfl
    · intro hlist
      obtain ⟨rfl, -⟩ := List.cons.inj (hclients.symm.trans hlist)
      exact not_not.mp ‹_›

/-- At the top of an iteration the head of the list is in command. -/
theorem Server.Commanded.of_promote {s : Server ψ} (h : (MissionServer.promote s).Commanded) {head : ClientNode}
    {rest : List ClientNode} (hlist : (MissionServer.promote s).gClients = head :: rest) :
    (MissionServer.promote s).gCommandingClient = head.id ∧ (MissionServer.promote s).clientFd = head.client := by
  obtain ⟨-, hids⟩ | ⟨head', rest', hlist', -, hfd⟩ := h.slot
  · have hcommanding := gCommandingClient_promote hlist
    have hlt := hids head (by simp [hlist])
    omega
  · obtain ⟨rfl, -⟩ := List.cons.inj (hlist.symm.trans hlist')
    exact ⟨gCommandingClient_promote hlist, hfd⟩

theorem mainLoop_eq_promote {sigpipeIgnored : Bool} {lib : MavlinkLib ψ} {s : Server ψ} {tick : Tick}
    (hlive : (mainLoop sigpipeIgnored lib s tick).halt = none) :
    ∃ s₀, mainLoop sigpipeIgnored lib s tick = promote s₀ := by
  have hbefore := live_of_mainLoop sigpipeIgnored lib hlive
  rw [mainLoop_of_live sigpipeIgnored lib hbefore] at hlive ⊢
  split_ifs at hlive ⊢ with hleave
  · unfold handleEvents at hlive ⊢
    generalize ((untilSerial tick (atPoll tick s)).andThen _).andThen (userCmdEvent tick) = s₀ at hlive ⊢
    unfold Server.andThen at hlive ⊢
    split_ifs at hlive ⊢ with hhalt₀
    · simp [hlive] at hhalt₀
    · exact ⟨s₀, rfl⟩

/-- Before the next `poll`, the head of the list has the command and the poll slot. -/
theorem Server.Commanded.of_mainLoop {sigpipeIgnored : Bool} {lib : MavlinkLib ψ} {s : Server ψ} {tick : Tick}
    (h : (mainLoop sigpipeIgnored lib s tick).Commanded) (hlive : (mainLoop sigpipeIgnored lib s tick).halt = none)
    {head : ClientNode} {rest : List ClientNode}
    (hlist : (mainLoop sigpipeIgnored lib s tick).gClients = head :: rest) :
    (mainLoop sigpipeIgnored lib s tick).gCommandingClient = head.id ∧
      (mainLoop sigpipeIgnored lib s tick).clientFd = head.client := by
  obtain ⟨s₀, heq⟩ := mainLoop_eq_promote hlive
  rw [heq] at h hlist ⊢
  exact h.of_promote hlist

/-- The list and the commander at the top of an iteration, and what has become of every socket. -/
structure Server.Consistent (s : Server ψ) : Prop where
  list : s.gClients.map ClientNode.socket = openConns s.history
  ids : (s.gClients.map (·.id)).Pairwise (· < ·)
  sockets : (s.gClients.map (·.client)).Nodup
  commander : ∀ head rest, s.gClients = head :: rest → s.gCommandingClient = head.id ∧ s.clientFd = head.client
  noCommander : s.gClients = [] → s.clientFd = -1
  accepted : ∀ c ∈ acceptedConns s.history,
    ((s.gClients.map ClientNode.socket).count c = 1 ∧ c ∉ closedConns s.history) ∨
    (c ∉ s.gClients.map ClientNode.socket ∧ (closedConns s.history).count c = 1)
  calls : History.Permitted CallPermitted s.history
  polls : History.Permitted PollPermitted s.history
  refused : ∀ outcome,
    (∃ fd addr port, outcome.result s.history = .socket fd true addr port) ∨
    ((acceptClient outcome s).gClients = s.gClients ∧ (acceptClient outcome s).gLastId = s.gLastId)

theorem acceptClient_refused (outcome : AcceptOutcome) (s : Server ψ) :
    (∃ fd addr port, outcome.result s.history = .socket fd true addr port) ∨
    ((acceptClient outcome s).gClients = s.gClients ∧ (acceptClient outcome s).gLastId = s.gLastId) := by
  rw [acceptClient]
  cases outcome.result s.history with
  | noMemory => exact .inr ⟨rfl, rfl⟩
  | invalidSocket => exact .inr ⟨rfl, rfl⟩
  | socket fd isInet addr port =>
      cases isInet with
      | true => exact .inl ⟨fd, addr, port, rfl⟩
      | false => exact .inr ⟨rfl, rfl⟩

theorem Server.Linked.accepted {s : Server ψ} (h : s.Linked) {c : Nat × Int} (hc : c ∈ acceptedConns s.history) :
    ((s.gClients.map ClientNode.socket).count c = 1 ∧ c ∉ closedConns s.history) ∨
    (c ∉ s.gClients.map ClientNode.socket ∧ (closedConns s.history).count c = 1) := by
  by_cases hclosed : c ∈ closedConns s.history
  · refine .inr ⟨?_, List.count_eq_one_of_mem h.wellNumbered.closedNodup hclosed⟩
    rw [← h.list]
    exact fun hmem => (MissionServer.mem_openConns.mp hmem).2 hclosed
  · refine .inl ⟨List.count_eq_one_of_mem h.sockets_nodup ?_, hclosed⟩
    rw [← h.list]
    exact MissionServer.mem_openConns.mpr ⟨hc, hclosed⟩

theorem commanded_start (receiver : Receiver ψ) : (Server.start receiver).Commanded := by
  refine ⟨List.Pairwise.nil, ?_, ?_, le_rfl, .inl ⟨rfl, ?_⟩, History.permitted_nil⟩
  all_goals simp [Server.start, acceptedConns]

theorem commanded_run (sigpipeIgnored : Bool) (lib : MavlinkLib ψ) (receiver : Receiver ψ) (ticks : List Tick) :
    let s := Machine.run (mainLoop sigpipeIgnored lib) (Server.start receiver) ticks
    s.Linked ∧ ((acceptedConns s.history).length < 2 ^ 31 → s.Commanded) := by
  refine run_mainLoop_invariant (I := fun s => (acceptedConns s.history).length < 2 ^ 31 → s.Commanded)
    ?_ (fun _ => commanded_start receiver) ticks
  intro s s' hlinked _ hstep hI hcount
  obtain ⟨events, hevents⟩ := hstep.history_prefix
  refine (hI ?_).step hlinked hstep hcount
  rw [← hevents, acceptedConns_append, List.length_append] at hcount
  omega

theorem commander_run (sigpipeIgnored : Bool) (lib : MavlinkLib ψ) (receiver : Receiver ψ) (ticks : List Tick)
    (hcommanded : (Machine.run (mainLoop sigpipeIgnored lib) (Server.start receiver) ticks).Commanded)
    (hlive : (Machine.run (mainLoop sigpipeIgnored lib) (Server.start receiver) ticks).halt = none)
    {head : ClientNode} {rest : List ClientNode}
    (hlist : (Machine.run (mainLoop sigpipeIgnored lib) (Server.start receiver) ticks).gClients = head :: rest) :
    (Machine.run (mainLoop sigpipeIgnored lib) (Server.start receiver) ticks).gCommandingClient = head.id ∧
      (Machine.run (mainLoop sigpipeIgnored lib) (Server.start receiver) ticks).clientFd = head.client := by
  rcases List.eq_nil_or_concat ticks with rfl | ⟨earlier, tick, rfl⟩
  · cases hlist
  · rw [List.concat_eq_append, Machine.run_concat] at hcommanded hlive hlist ⊢
    exact hcommanded.of_mainLoop hlive hlist

/-- At the top of every iteration of every run with fewer than 2^31 accepted connections. -/
theorem mainLoop_consistent (sigpipeIgnored : Bool) (lib : MavlinkLib ψ) (receiver : Receiver ψ) (ticks : List Tick)
    (hcount : (acceptedConns (Machine.run (mainLoop sigpipeIgnored lib) (Server.start receiver) ticks).history).length <
      2 ^ 31)
    (hlive : (Machine.run (mainLoop sigpipeIgnored lib) (Server.start receiver) ticks).halt = none) :
    (Machine.run (mainLoop sigpipeIgnored lib) (Server.start receiver) ticks).Consistent := by
  obtain ⟨hlinked, hcommanded⟩ := commanded_run sigpipeIgnored lib receiver ticks
  have h := hcommanded hcount
  refine ⟨hlinked.list.symm, h.ids, ?_, ?_, ?_, fun c hc => hlinked.accepted hc, hlinked.permitted, h.polls,
    fun outcome => acceptClient_refused outcome _⟩
  · have hfds := hlinked.wellNumbered.fdsNodup
    rw [hlinked.list, List.map_map] at hfds
    exact hfds
  · exact fun head rest hlist => commander_run sigpipeIgnored lib receiver ticks h hlive hlist
  · intro hnil
    obtain ⟨hfd, -⟩ | ⟨head, rest, hlist, -⟩ := h.slot
    · exact hfd
    · rw [hnil] at hlist
      cases hlist

/-- A library whose parser never completes a message. -/
def silentLib : MavlinkLib Unit where
  parseChar _ _ := ((), none)
  rcChannelsDecode _ := ⟨0, 0, 0, 0, 0, 0⟩
  commandLongDecode _ := ⟨0, 0, 0, 0, []⟩
  toSendBuffer _ := []

/-- An iteration without events, for runs that fill in theirs. -/
def idleTick : Tick := { envs := fun _ => ⟨⟨0, 0, 0, 0, 0, 0⟩, 0⟩ }

/-- Two clients arrive, the first one hangs up, and its descriptor is used again. -/
theorem mainLoop_consistent_reusedDescriptor :
    (Machine.run (mainLoop false silentLib) (Server.start ⟨(), {}⟩)
      [{ idleTick with server := true, accept := .socket 7 true 0x7f000001 50000 },
       { idleTick with server := true, accept := .socket 8 true 0x7f000001 50001 },
       { idleTick with client := { hupOrErr := true } },
       { idleTick with server := true, accept := .socket 7 true 0x7f000001 50002 }]).Consistent :=
  mainLoop_consistent false silentLib ⟨(), {}⟩ _ (by decide) (by decide)

end MissionServer
