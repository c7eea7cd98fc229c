import MissionServer.Lib.Floor
import MissionServer.Proof.Delivery

/-!
# Clients take turns

Several clients share one serial port. The server gives each the port for as long as it stays, the oldest first, and
lets all of them listen: towards the flight controller the clients are one after the other, and what they hear of it
differs only in where it begins.
-/

namespace MissionServer

variable {ψ : Type}

/-- What an event is on the floor. -/
def floorEvent : KernelEvent → Option (Floor.Event Nat UInt8)
  | .accepted conn _ => some (.comes conn)
  | .forwarded conn data => some (.speaks conn data)
  | .closed conn _ => some (.goes conn)
  | _ => none

/-- What has reached the serial port of all clients. -/
def clientBytes (h : History) : Bytes :=
  h.flatMap fun
    | .forwarded _ data => data
    | _ => []

/-! ### Who speaks -/

/-- Only the bytes of the oldest open connection are written to the port. -/
def FloorPermitted (h : History) : KernelEvent → Prop
  | .forwarded conn _ => ((openConns h).map Prod.fst).head? = some conn
  | _ => True

section Steps

variable {sigpipeIgnored : Bool} {lib : MavlinkLib ψ} {s s' : Server ψ}

theorem floorPermitted_served (hlinked : s.Linked) (h : History.Permitted FloorPermitted s.history)
    {client : ClientNode} {rest : List ClientNode} (hclients : s.gClients = client :: rest) (data : Bytes)
    (writes : List Int) :
    History.Permitted FloorPermitted (s.served client data writes).history := by
  rw [(s.served_spec client data writes).1]
  have hkeeps : KeepsConns [.received client.conn client.client data] := ⟨rfl, rfl⟩
  have hhead : FloorPermitted (s.history ++ [.received client.conn client.client data])
      (.forwarded client.conn (serialWrite data writes).1) := by
    rw [FloorPermitted, openConns_append_of_keeps hkeeps, hlinked.list, hclients]
    rfl
  have hreceived : History.Permitted FloorPermitted (s.history ++ [.received client.conn client.client data]) :=
    h.append_always (by simp [FloorPermitted])
  have hforwarded := History.permitted_concat.mpr ⟨hreceived, hhead⟩
  split_ifs
  · have hfailed : ∀ pre, FloorPermitted pre (KernelEvent.writeFailed client.conn) := fun _ => trivial
    simpa using hforwarded.append_always (List.forall_mem_singleton.mpr hfailed)
  · simpa using hforwarded

theorem floorPermitted_quietStep (hlinked : s.Linked) (h : History.Permitted FloorPermitted s.history)
    (hstep : QuietStep s s') : History.Permitted FloorPermitted s'.history := by
  cases hstep with
  | peer act =>
      refine h.append_always ?_
      obtain heq | ⟨conn, data, -, heq⟩ | ⟨conn, -, heq⟩ := act.events_cases s.history
      all_goals simp [heq, FloorPermitted]
  | polled => exact h.append_always (by simp [FloorPermitted])
  | notAccepted => exact h.append_always (by simp [FloorPermitted])
  | rejected hpos hfree => exact h.append_always (by simp [FloorPermitted])
  | linked addr port hpos hfree => exact h.append_always (by simp [FloorPermitted])
  | terminated hclients => exact h.append_always (by simp [FloorPermitted])
  | commander => exact h
  | recvFailed hclients => exact h.append_always (by simp [FloorPermitted])
  | served hclients hdata writes => exact floorPermitted_served hlinked h hclients _ writes
  | userCmd received frames => exact h.append_always (by simp [FloorPermitted])
  | promoted => exact (promote_spec s).1 ▸ h
  | halted hhalt => exact h

theorem floorPermitted_step (hlinked : s.Linked) (h : History.Permitted FloorPermitted s.history)
    (hstep : Server.Step sigpipeIgnored lib s s') : History.Permitted FloorPermitted s'.history := by
  cases hstep with
  | quiet hquiet => exact floorPermitted_quietStep hlinked h hquiet
  | chunk envs data =>
      obtain ⟨-, -, frames, hhistory⟩ := receiveChunk_spec lib envs data s
      exact hhistory ▸ h.append_always (by simp [FloorPermitted])
  | sent hmem hreset data => exact h.append_always (by simp [FloorPermitted])
  | sendFailed hmem hpipe => exact h.append_always (by simp [FloorPermitted])
  | killed hmem hpipe hreset => exact h.append_always (by simp [FloorPermitted])

end Steps

/-! ### The history as a floor -/

/-- Who has come to the floor are the connections that have been accepted, and who is there those that are open. -/
def floorState (h : History) : Floor.State Nat :=
  { came := (acceptedConns h).map Prod.fst, present := (openConns h).map Prod.fst }

theorem floorState_keep {h events : History} (hkeeps : KeepsConns events) :
    floorState (h ++ events) = floorState h := by
  rw [floorState, openConns_append_of_keeps hkeeps, acceptedConns_append, hkeeps.1, List.append_nil]
  rfl

theorem floorState_accepted {h : History} (hwell : WellNumbered h) (fd : Int) :
    let conn := (acceptedConns h).length
    Floor.step (floorState h) (.comes conn : Floor.Event Nat UInt8) = some (floorState (h ++ [.accepted conn fd])) := by
  intro conn
  have hlast : ∀ j ∈ (floorState h).came, j < conn := by
    intro j hj
    rwa [floorState, hwell.ordinals, List.mem_range] at hj
  rw [Floor.step, if_pos hlast, floorState, floorState, acceptedConns_append_accepted,
    openConns_append_accepted fun hmem => hwell.fresh fd (hwell.closedAccepted _ hmem), List.map_append,
    List.map_append]
  rfl

theorem floorState_closed {h : History} (hwell : WellNumbered h) {conn : Nat} {fd : Int}
    (hopen : (conn, fd) ∈ openConns h) :
    Floor.step (floorState h) (.goes conn : Floor.Event Nat UInt8) = some (floorState (h ++ [.closed conn fd])) := by
  have hnodup : ((openConns h).map Prod.fst).Nodup := by
    have haccepted : ((acceptedConns h).map Prod.fst).Nodup := hwell.ordinals ▸ List.nodup_range
    exact haccepted.sublist (List.filter_sublist.map _)
  have hmem : conn ∈ (openConns h).map Prod.fst := List.mem_map.mpr ⟨(conn, fd), hopen, rfl⟩
  have herase : ((openConns h).map Prod.fst).erase conn =
      ((openConns h).filter fun c => c ≠ (conn, fd)).map Prod.fst := by
    rw [hnodup.erase_eq_filter, List.filter_map]
    congr 1
    refine List.filter_congr fun c hc => ?_
    have hsame : c.1 = conn ↔ c = (conn, fd) :=
      ⟨fun heq => List.inj_on_of_nodup_map hnodup hc hopen heq, fun heq => congrArg Prod.fst heq⟩
    by_cases heq : c.1 = conn
    · simp [hsame.mp heq]
    · simp [heq, mt hsame.mpr heq]
  rw [Floor.step, floorState, if_pos hmem, floorState, acceptedConns_append_closed, openConns_append_closed, herase]

theorem floor_run {h : History} (hcalls : History.Permitted CallPermitted h)
    (hfloor : History.Permitted FloorPermitted h) : Floor.run (h.filterMap floorEvent) = some (floorState h) := by
  induction h using List.reverseRecOn with
  | nil => rfl
  | append_singleton h e ih =>
      obtain ⟨hcalls, hcall⟩ := History.permitted_concat.mp hcalls
      obtain ⟨hfloor, he⟩ := History.permitted_concat.mp hfloor
      have hrun := ih hcalls hfloor
      have hwell := wellNumbered_of_permitted h hcalls
      rw [List.filterMap_append]
      cases e with
      | accepted conn fd =>
          obtain ⟨rfl, -, -⟩ := hcall
          exact (Floor.run_concat _ _).trans (hrun ▸ floorState_accepted hwell fd)
      | closed conn fd => exact (Floor.run_concat _ _).trans (hrun ▸ floorState_closed hwell hcall)
      | forwarded conn data =>
          have hsame : floorState (h ++ [.forwarded conn data]) = floorState h := floorState_keep ⟨rfl, rfl⟩
          have hspeaks : Floor.step (floorState h) (.speaks conn data) = some (floorState h) := if_pos he
          rw [hsame, ← hspeaks]
          exact (Floor.run_concat _ _).trans (hrun ▸ rfl)
      | _ =>
          rw [floorState_keep ⟨rfl, rfl⟩]
          exact (congrArg Floor.run (List.append_nil _)).trans hrun

theorem spoken_bytes (h : History) : (Floor.spoken (h.filterMap floorEvent)).flatMap Prod.snd = clientBytes h := by
  induction h with
  | nil => rfl
  | cons e h ih =>
      cases e with
      | forwarded conn data => exact congrArg (data ++ ·) ih
      | _ => exact ih

theorem said_eq_forwarded (conn : Nat) (h : History) : Floor.said conn (h.filterMap floorEvent) = forwarded conn h := by
  induction h with
  | nil => rfl
  | cons e h ih =>
      cases e with
      | forwarded conn' data =>
          rw [forwarded, List.flatMap_cons, ← forwarded, ← ih]
          by_cases heq : conn' = conn
          · simp [Floor.said, Floor.spoken, floorEvent, heq]
          · simp [Floor.said, Floor.spoken, floorEvent, heq]
      | _ => exact ih

/-! ### What they hear -/

theorem wasAccepted_iff_lt {h : History} (hwell : WellNumbered h) (conn : Nat) :
    wasAccepted conn h = true ↔ conn < (acceptedConns h).length := by
  rw [← List.mem_range, ← hwell.ordinals, wasAccepted, List.any_eq_true, List.mem_map]
  simp only [decide_eq_true_eq]

/-- Who has come later has heard the end of what those before have heard. -/
theorem chunksSince_suffix {h : History} (hcalls : History.Permitted CallPermitted h) {older younger : Nat}
    (hle : older ≤ younger) : chunksSince younger h <:+ chunksSince older h := by
  induction h using List.reverseRecOn with
  | nil => exact List.suffix_rfl
  | append_singleton h e ih =>
      obtain ⟨hrest, -⟩ := History.permitted_concat.mp hcalls
      have hwell := wellNumbered_of_permitted h hrest
      rw [chunksSince_append, chunksSince_append]
      by_cases hyounger : wasAccepted younger h = true
      · have holder : wasAccepted older h = true := by
          rw [wasAccepted_iff_lt hwell] at hyounger ⊢
          omega
        rw [if_pos hyounger, if_pos holder]
        exact List.suffix_append_self_iff.mpr (ih hrest)
      · have hnothing : chunksSince younger [e] = [] := by
          cases e with
          | accepted conn fd =>
              rw [chunksSince]
              split_ifs <;> rfl
          | _ => rfl
        rw [if_neg hyounger, hnothing]
        exact List.nil_suffix

/-- Whatever the clients do, and whatever the calls answer: the server keeps the rules of a floor, so the port gets all
that the first client sends before anything of the second, and so on. Of two clients in the list, the younger has got
the end of what the older has got. -/
theorem clients_take_turns (sigpipeIgnored : Bool) (lib : MavlinkLib ψ) (receiver : Receiver ψ) (ticks : List Tick) :
    let s := Machine.run (mainLoop sigpipeIgnored lib) (Server.start receiver) ticks
    let came := (acceptedConns s.history).map Prod.fst
    Floor.run (s.history.filterMap floorEvent) = some { came, present := s.gClients.map (·.conn) } ∧
      clientBytes s.history = came.flatMap (forwarded · s.history) ∧
      (s.halt = none → s.gClients.Pairwise fun older younger =>
        sentTo younger.conn s.history <:+ sentTo older.conn s.history) := by
  intro s came
  obtain ⟨hlinked, hdelivered⟩ := delivered_run sigpipeIgnored lib receiver ticks
  have hpermitted : History.Permitted FloorPermitted s.history :=
    (run_mainLoop_invariant (I := fun s : Server ψ => History.Permitted FloorPermitted s.history)
      (fun _ _ hlinked _ hstep h => floorPermitted_step hlinked h hstep) History.permitted_nil ticks).2
  have hfloor : Floor.run (s.history.filterMap floorEvent) = some (floorState s.history) :=
    floor_run hlinked.permitted hpermitted
  have hpresent : (openConns s.history).map Prod.fst = s.gClients.map (·.conn) := by
    rw [hlinked.list, List.map_map]
    rfl
  refine ⟨?_, ?_, fun hlive => ?_⟩
  · rw [hfloor, floorState, hpresent]
  · have hturns := Floor.spoken_eq_turns hfloor
    simp only [spoken_bytes, said_eq_forwarded] at hturns
    exact hturns
  · have hsorted : s.gClients.Pairwise fun older younger => older.conn < younger.conn :=
      List.pairwise_map.mp hlinked.conns_sorted
    refine hsorted.imp_of_mem fun {older younger} holder hyounger hlt => ?_
    rw [hdelivered.whole hlive older holder, hdelivered.whole hlive younger hyounger]
    exact chunksSince_suffix hlinked.permitted hlt.le

end MissionServer
