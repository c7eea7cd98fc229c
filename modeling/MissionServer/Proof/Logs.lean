import MissionServer.Proof.Steps

/-!
# What each function adds to the history

Most functions of the main loop neither send a message nor write a client's bytes to the port. What each
of them may log is said here once; a fact about the history that such events do not touch is then kept by
a whole iteration but for the one function that it is about.
-/

namespace MissionServer

variable {ψ : Type}

/-- A step that adds events of a kind. -/
def Server.Extends (P : KernelEvent → Prop) (s s' : Server ψ) : Prop :=
  ∃ events, s'.history = s.history ++ events ∧ ∀ e ∈ events, P e

/-- It also leaves the receiver alone. -/
structure Server.Logs (P : KernelEvent → Prop) (s s' : Server ψ) : Prop where
  receiver : s'.receiver = s.receiver
  history : s.Extends P s'

/-- Neither a message nor a client's bytes, read or on the port. -/
def Aside : KernelEvent → Prop
  | .own _ => False
  | .received _ _ _ => False
  | .forwarded _ _ => False
  | _ => True

/-- Bytes on the port are those of the client at the head of the list. -/
def FromHead (clients : List ClientNode) : KernelEvent → Prop
  | .own _ => False
  | .forwarded conn _ => ∃ client rest, clients = client :: rest ∧ client.conn = conn
  | _ => True

theorem Aside.fromHead {e : KernelEvent} (h : Aside e) (clients : List ClientNode) : FromHead clients e := by
  cases e with
  | forwarded conn data => exact h.elim
  | own frame => exact h
  | _ => trivial

namespace Server.Extends

variable {P Q : KernelEvent → Prop} {s s' s'' : Server ψ}

theorem refl (s : Server ψ) : s.Extends P s := ⟨[], (List.append_nil _).symm, fun _ he => absurd he List.not_mem_nil⟩

theorem trans (h : s.Extends P s') (h' : s'.Extends P s'') : s.Extends P s'' := by
  obtain ⟨events, hhistory, hevents⟩ := h
  obtain ⟨events', hhistory', hevents'⟩ := h'
  refine ⟨events ++ events', ?_, List.forall_mem_append.mpr ⟨hevents, hevents'⟩⟩
  rw [hhistory', hhistory, List.append_assoc]

theorem mono (h : s.Extends P s') (hle : ∀ e, P e → Q e) : s.Extends Q s' := by
  obtain ⟨events, hhistory, hevents⟩ := h
  exact ⟨events, hhistory, fun e he => hle e (hevents e he)⟩

theorem andThen {f : Server ψ → Server ψ} (h : s.Extends P s') (hf : s'.Extends P (f s')) :
    s.Extends P (s'.andThen f) := by
  rw [Server.andThen]
  split
  · exact h
  · exact h.trans hf

end Server.Extends

namespace Server.Logs

variable {P Q : KernelEvent → Prop} {s s' s'' : Server ψ}

theorem refl (s : Server ψ) : s.Logs P s := ⟨rfl, .refl s⟩

theorem trans (h : s.Logs P s') (h' : s'.Logs P s'') : s.Logs P s'' :=
  ⟨h'.receiver.trans h.receiver, h.history.trans h'.history⟩

theorem mono (h : s.Logs P s') (hle : ∀ e, P e → Q e) : s.Logs Q s' := ⟨h.receiver, h.history.mono hle⟩

theorem andThen {f : Server ψ → Server ψ} (h : s.Logs P s') (hf : s'.Logs P (f s')) : s.Logs P (s'.andThen f) := by
  rw [Server.andThen]
  split
  · exact h
  · exact h.trans hf

theorem of_eq (hreceiver : s'.receiver = s.receiver) (hhistory : s'.history = s.history) : s.Logs P s' :=
  ⟨hreceiver, [], hhistory.trans (List.append_nil _).symm, fun _ he => absurd he List.not_mem_nil⟩

theorem of_log {events : List KernelEvent} (hreceiver : s'.receiver = s.receiver)
    (hhistory : s'.history = s.history ++ events) (hevents : ∀ e ∈ events, P e) : s.Logs P s' :=
  ⟨hreceiver, events, hhistory, hevents⟩

theorem peer (acts : List PeerAct) (s : Server ψ) : s.Logs Aside (peerActs acts s) := by
  induction acts generalizing s with
  | nil => exact .refl s
  | cons act acts ih =>
      have hone : s.Logs Aside (peerAct act s) := by
        refine of_log rfl rfl ?_
        obtain hevents | ⟨conn, data, -, hevents⟩ | ⟨conn, -, hevents⟩ := act.events_cases s.history
        all_goals simp [hevents, Aside]
      exact hone.trans (ih _)

theorem polled (tick : Tick) (s : Server ψ) : s.Logs Aside (atPoll tick s) :=
  (peer tick.peers s).trans (of_log rfl rfl (List.forall_mem_singleton.mpr trivial))

theorem terminate (node : Option ClientNode) (pointer : Nat) (s : Server ψ) :
    s.Logs Aside (terminateClient node pointer s).1 := by
  unfold terminateClient
  split
  · exact .refl s
  · split
    · exact .refl s
    · exact of_log rfl rfl (List.forall_mem_singleton.mpr trivial)

theorem terminateAll (s : Server ψ) : s.Logs Aside (terminateClients s) := by
  rw [terminateClients]
  generalize s.gClients = clients
  induction clients generalizing s with
  | nil => exact .refl s
  | cons client clients ih => exact (terminate _ _ s).trans (ih _)

theorem accept (outcome : AcceptOutcome) (s : Server ψ) : s.Logs Aside (acceptClient outcome s) := by
  rw [acceptClient]
  split
  · exact .refl s
  · exact of_log rfl rfl (List.forall_mem_singleton.mpr trivial)
  · dsimp only
    split_ifs
    all_goals exact of_log rfl (List.append_assoc _ _ _) (by simp [Aside])

theorem handle (count : Int) (writes : List Int) (s : Server ψ) :
    s.Logs (FromHead s.gClients) (handleCommandingClient count writes s) := by
  rw [handleCommandingClient]
  split
  · exact .refl s
  · rename_i client rest hclients
    have hhead : FromHead s.gClients = FromHead (client :: rest) := by rw [hclients]
    rw [hhead]
    -- the statics are not in the history
    have hstatics : s.Logs (FromHead (client :: rest))
        (if s.lastCommander ≠ s.gCommandingClient then { s with lastCommander := s.gCommandingClient, tryout := 0 }
          else s) := by
      split
      · exact of_eq rfl rfl
      · exact .refl s
    refine hstatics.trans ?_
    generalize (if s.lastCommander ≠ s.gCommandingClient then
      { s with lastCommander := s.gCommandingClient, tryout := 0 } else s) = s₁
    dsimp only
    have hreceived : s₁.Logs (FromHead (client :: rest)) (s₁.log [.received client.conn client.client
        (recvData s₁.history client.conn count)]) := of_log rfl rfl (List.forall_mem_singleton.mpr trivial)
    refine hreceived.trans ?_
    generalize s₁.log [.received client.conn client.client (recvData s₁.history client.conn count)] = s₂
    have htry : s₂.Logs (FromHead (client :: rest)) { s₂ with tryout := s₂.tryout + 1 } := of_eq rfl rfl
    have hforwarded (port : Bytes) : FromHead (client :: rest) (.forwarded client.conn port) := ⟨client, rest, rfl, rfl⟩
    split_ifs
    · exact htry.trans ((terminate _ _ _).mono fun _ he => he.fromHead _)
    · exact htry
    · split
      · exact of_log rfl rfl (List.forall_mem_singleton.mpr (hforwarded _))
      · exact of_log rfl rfl (List.forall_mem_cons.mpr ⟨hforwarded _, List.forall_mem_singleton.mpr trivial⟩)
      · exact of_log rfl rfl (List.forall_mem_singleton.mpr (hforwarded _))

theorem client (tick : Tick) (s : Server ψ) : s.Logs (FromHead s.gClients) (clientEvent tick s) := by
  rw [clientEvent]
  split_ifs
  · exact (terminate _ _ _).mono fun _ he => he.fromHead _
  · exact handle _ _ _
  · exact .refl s

theorem server (tick : Tick) (s : Server ψ) : s.Logs Aside (serverEvent tick s) := by
  rw [serverEvent]
  split_ifs
  · exact accept _ _
  · exact .refl s

theorem stopped (tick : Tick) (s : Server ψ) :
    s.Logs Aside { terminateClients (atPoll tick s) with halt := some .stopped } :=
  ((polled tick s).trans (terminateAll _)).trans (of_eq rfl rfl)

/-- The client's event is the only one before the serial port's that can write to the port. -/
theorem untilSerial (tick : Tick) (s : Server ψ) :
    s.Logs (FromHead s.gClients) (untilSerial tick (atPoll tick s)) := by
  have hclient := client tick (atPoll tick s)
  rw [(atPoll_spec tick s).1] at hclient
  have hserver : (clientEvent tick (atPoll tick s)).Logs (FromHead s.gClients)
      (serverEvent tick (clientEvent tick (atPoll tick s))) := (server _ _).mono fun _ he => he.fromHead _
  exact (((polled tick s).mono fun _ he => he.fromHead _).trans hclient).andThen hserver

theorem send (sigpipeIgnored : Bool) (data : Bytes) (client : ClientNode) (sent : Nat) (outcome : SendOutcome)
    (s : Server ψ) : s.Logs Aside (sendCall sigpipeIgnored data client sent outcome s).1 := by
  refine (peer outcome.peers s).trans ?_
  rw [sendCall]
  dsimp only
  generalize peerActs outcome.peers s = s₁
  split_ifs
  all_goals exact of_log rfl rfl (List.forall_mem_singleton.mpr trivial)

theorem broadcast (sigpipeIgnored : Bool) (data : Bytes) (sends : List (List SendOutcome))
    (current : Option ClientNode) (previous : Nat) (s : Server ψ) :
    s.Logs Aside (broadcast sigpipeIgnored data sends current previous s) := by
  induction sends generalizing current previous s with
  | nil => cases current <;> exact of_eq rfl rfl
  | cons outcomes sends ih =>
      cases current with
      | none => exact .refl s
      | some current =>
          have hpush := PushLoop.push_invariant (sendCall sigpipeIgnored data current) data.length
            (P := s.Logs Aside) (fun off outcome s' h => h.trans (send sigpipeIgnored data current off outcome s'))
            0 outcomes (.refl s)
          rw [MissionServer.broadcast]
          split
          · rename_i heq
            rw [heq] at hpush
            exact hpush.trans (ih _ _ _)
          · rename_i s' heq
            rw [heq] at hpush
            split
            · exact hpush
            · have hterminate : s'.Logs Aside (terminateClient (some current) previous s').1 := terminate _ _ _
              exact (hpush.trans hterminate).trans (ih _ _ _)
          · rename_i heq
            rw [heq] at hpush
            exact hpush.trans (of_eq rfl rfl)

theorem promoted (s : Server ψ) : s.Logs Aside (promote s) := of_eq (promote_spec s).2.2.1 (promote_spec s).1

end Server.Logs

end MissionServer
