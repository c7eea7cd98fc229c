import Mathlib.Algebra.Order.BigOperators.Group.List
import MissionServer.Proof.HandOver
import MissionServer.UartServer.Pointers

/-!
# The list of clients in memory is the list

Whatever `malloc` returns, the server never dereferences a null pointer or a freed node and never walks in a circle,
and what is allocated is the list. So everything that holds of the server with a list holds of the one with pointers.
-/

namespace MissionServer

open LinkedList

variable {ψ : Type}

/-- The same globals, and in memory the list of clients. -/
structure HeapServer.Represents (p : HeapServer ψ) (s : Server ψ) (xs : List (Addr × ClientNode)) : Prop where
  globals : p.globals = { s with gClients := [] }
  clients : s.gClients = xs.map Prod.snd
  list : p.list.Holds xs

def HeapServer.Refines (p : HeapServer ψ) (s : Server ψ) : Prop := ∃ xs, p.Represents s xs

/-- A function in memory always has a result, and it is that of the function on the list. -/
def Simulates (f : HeapServer ψ → Option (HeapServer ψ)) (g : Server ψ → Server ψ) : Prop :=
  ∀ p s, p.Refines s → ∃ p', f p = some p' ∧ p'.Refines (g s)

/-- The list is not touched. -/
def ListFree (f : Server ψ → Server ψ) : Prop :=
  ∀ (s : Server ψ) (clients : List ClientNode), f { s with gClients := clients } = { f s with gClients := clients }

section Rules

variable {p : HeapServer ψ} {s : Server ψ} {xs : List (Addr × ClientNode)} {f : HeapServer ψ → Option (HeapServer ψ)}
  {g : Server ψ → Server ψ}

theorem HeapServer.Represents.halt (h : p.Represents s xs) : p.globals.halt = s.halt := by rw [h.globals]

theorem HeapServer.Represents.first (h : p.Represents s xs) : p.list.first = LinkedList.start xs := h.list.first_eq

theorem HeapServer.Represents.onGlobals (h : p.Represents s xs) (hg : ListFree g) :
    (p.onGlobals g).Represents (g s) xs := by
  have hsame : g s = { g s with gClients := s.gClients } := hg s s.gClients
  have hclients : (g s).gClients = s.gClients := by rw [hsame]
  refine ⟨?_, hclients.trans h.clients, h.list⟩
  rw [HeapServer.onGlobals, h.globals]
  exact hg s []

theorem simulates_onGlobals (hg : ListFree g) : Simulates (fun p => some (p.onGlobals g)) g := by
  intro p s h
  obtain ⟨xs, h⟩ := h
  exact ⟨_, rfl, xs, h.onGlobals hg⟩

theorem simulates_id : Simulates (ψ := ψ) some id := fun p _ h => ⟨p, rfl, h⟩

theorem Simulates.andThen (hf : Simulates f g) : Simulates (·.andThen f) (·.andThen g) := by
  intro p s h
  have hhalt : p.globals.halt = s.halt := h.elim fun _ h => h.halt
  simp only [HeapServer.andThen, Server.andThen, hhalt]
  split
  · exact ⟨p, rfl, h⟩
  · exact hf p s h

theorem Simulates.comp {f' : HeapServer ψ → Option (HeapServer ψ)} {g' : Server ψ → Server ψ} (hf : Simulates f g)
    (hf' : Simulates f' g') : Simulates (fun p => (f p).bind f') (fun s => g' (g s)) := by
  intro p s h
  obtain ⟨p', hp', h'⟩ := hf p s h
  obtain ⟨p'', hp'', h''⟩ := hf' p' (g s) h'
  refine ⟨p'', ?_, h''⟩
  dsimp only
  rw [hp', Option.bind_some, hp'']

theorem Simulates.ite {f' : HeapServer ψ → Option (HeapServer ψ)} {g' : Server ψ → Server ψ} (c : Prop) [Decidable c]
    (hf : Simulates f g) (hf' : Simulates f' g') :
    Simulates (fun p => if c then f p else f' p) (fun s => if c then g s else g' s) := by
  intro p s h
  by_cases hc : c
  · simpa only [if_pos hc] using hf p s h
  · simpa only [if_neg hc] using hf' p s h

end Rules

/-! ### Functions that leave the list alone -/

theorem listFree_peerActs (acts : List PeerAct) : ListFree (ψ := ψ) (peerActs acts) := by
  intro s clients
  induction acts generalizing s with
  | nil => rfl
  | cons act acts ih => exact ih (peerAct act s)

theorem listFree_atPoll (tick : Tick) : ListFree (ψ := ψ) (atPoll tick) := by
  intro s clients
  rw [atPoll, listFree_peerActs]
  rfl

theorem listFree_receiveChunk (lib : MavlinkLib ψ) (envs : Nat → GstEnv) (data : Bytes) :
    ListFree (receiveChunk lib envs data) := by
  intro s clients
  simp only [receiveChunk]
  split <;> rfl

theorem listFree_userCmdEvent (tick : Tick) : ListFree (ψ := ψ) (userCmdEvent tick) := by
  intro s clients
  rw [userCmdEvent, userCmdEvent]
  split <;> rfl

theorem sendCall_listFree (sigpipeIgnored : Bool) (data : Bytes) (client : ClientNode) (sent : Nat)
    (outcome : SendOutcome) (s : Server ψ) (clients : List ClientNode) :
    sendCall sigpipeIgnored data client sent outcome { s with gClients := clients } =
      ({ (sendCall sigpipeIgnored data client sent outcome s).1 with gClients := clients },
        (sendCall sigpipeIgnored data client sent outcome s).2) := by
  simp only [sendCall, listFree_peerActs outcome.peers s clients]
  split_ifs <;> rfl

/-! ### Functions on the list -/

section List

variable {p : HeapServer ψ} {s : Server ψ} {xs pre post : List (Addr × ClientNode)} {a : Addr} {node : ClientNode}

theorem HeapServer.Represents.head {x : Addr × ClientNode} (h : p.Represents s (x :: xs)) :
    p.list.first = some x.1 ∧ p.list.read x.1 = some { value := x.2, next := LinkedList.start xs } ∧
      s.gClients = x.2 :: xs.map Prod.snd := by
  have hlist : p.list.Holds ([] ++ (x.1, x.2) :: xs) := h.list
  exact ⟨h.first, hlist.read_cell, h.clients⟩

theorem HeapServer.Represents.empty (h : p.Represents s []) : p.list.first = none ∧ s.gClients = [] :=
  ⟨h.first, h.clients⟩

/-- Both take the node out at its place, and go on with the one after it. -/
theorem HeapServer.Represents.terminateClient (h : p.Represents s (pre ++ (a, node) :: post)) :
    ∃ p', p.terminateClient (some a) (linkAfter pre) = some (p', LinkedList.start post) ∧
      p'.Represents (MissionServer.terminateClient (some node) pre.length s).1 (pre ++ post) ∧
      (MissionServer.terminateClient (some node) pre.length s).2 = (post.map Prod.snd).head? := by
  have hclients : s.gClients = pre.map Prod.snd ++ node :: post.map Prod.snd := by
    rw [h.clients, List.map_append, List.map_cons]
  have hterminate := terminateClient_eq hclients
  rw [List.length_map] at hterminate
  obtain ⟨list, hunlink, hholds⟩ := h.list.unlink
  have hload : p.list.load (linkAfter pre) = some (some a) := h.list.load_linkAfter
  have hread := h.list.read_cell
  let clientFd := if node.id = p.globals.gCommandingClient then -1 else p.globals.clientFd
  let globals := { p.globals with clientFd }.log [.closed node.conn node.client]
  have hresult : p.terminateClient (some a) (linkAfter pre) = some ({ globals, list }, LinkedList.start post) := by
    simp only [HeapServer.terminateClient, hload, hread, hunlink, Option.bind_eq_bind, Option.bind_some, ne_eq,
      not_true_eq_false, if_false]
    rfl
  have hglobals : globals = { s.terminated (pre.map Prod.snd) node (post.map Prod.snd) with gClients := [] } := by
    simp only [globals, clientFd, h.globals]
    rfl
  rw [hterminate]
  exact ⟨_, hresult, ⟨hglobals, List.map_append.symm, hholds⟩, rfl⟩

theorem HeapServer.Represents.terminateHead {x : Addr × ClientNode} (h : p.Represents s (x :: xs)) :
    ∃ p', p.terminateClient p.list.first .first = some (p', LinkedList.start xs) ∧
      p'.Represents (MissionServer.terminateClient s.gClients.head? 0 s).1 xs := by
  obtain ⟨hfirst, -, hclients⟩ := h.head
  have hsplit : p.Represents s ([] ++ (x.1, x.2) :: xs) := h
  obtain ⟨p', hterminate, h', -⟩ := hsplit.terminateClient
  rw [hfirst, hclients, List.head?_cons]
  exact ⟨p', hterminate, h'⟩

theorem simulates_terminateHead :
    Simulates (ψ := ψ) (fun p => (p.terminateClient p.list.first .first).map Prod.fst)
      (fun s => (terminateClient s.gClients.head? 0 s).1) := by
  intro p s h
  obtain ⟨xs, h⟩ := h
  cases xs with
  | nil =>
      obtain ⟨hfirst, hclients⟩ := h.empty
      refine ⟨p, ?_, [], ?_⟩
      · dsimp only
        rw [hfirst]
        rfl
      · dsimp only
        rw [hclients]
        exact h
  | cons x xs =>
      obtain ⟨p', hterminate, h'⟩ := h.terminateHead
      exact ⟨p', congrArg (Option.map Prod.fst) hterminate, xs, h'⟩

theorem simulates_acceptClient (malloc : Malloc) (outcome : AcceptOutcome) :
    Simulates (ψ := ψ) (·.acceptClient malloc outcome) (acceptClient outcome) := by
  intro p s h
  obtain ⟨xs, h⟩ := h
  have hhistory : p.globals.history = s.history := by rw [h.globals]
  have hlastId : p.globals.gLastId = s.gLastId := by rw [h.globals]
  have hfresh := malloc.fresh p.list
  simp only [HeapServer.acceptClient, acceptClient, hhistory, hlastId]
  cases outcome.result s.history with
  | noMemory => exact ⟨p, rfl, xs, h⟩
  | invalidSocket =>
      obtain ⟨list, hfree, hholds⟩ := h.list.alloc_free hfresh
        { id := 0, addr := 0, port := 0, client := -1, conn := 0 }
      refine ⟨{ globals := p.globals.log [.closedInvalid], list }, ?_, xs, ?_, h.clients, hholds⟩
      · simp only [hfree, Option.bind_eq_bind, Option.bind_some]
        rfl
      · rw [h.globals]
        rfl
  | socket fd isInet addr port =>
      let conn := (acceptedConns s.history).length
      cases isInet with
      | false =>
          obtain ⟨list, hfree, hholds⟩ := h.list.alloc_free hfresh { id := 0, addr := 0, port := 0, client := fd, conn }
          refine ⟨{ globals := (p.globals.log [.accepted conn fd]).log [.closed conn fd], list }, ?_, xs, ?_, h.clients,
            hholds⟩
          · simp only [conn, hfree, Bool.false_eq_true, not_false_eq_true, if_true, Option.bind_eq_bind,
              Option.bind_some]
            rfl
          · rw [h.globals]
            rfl
      | true =>
          let gLastId := (s.gLastId + 1).bmod (2 ^ 32)
          let newClient : ClientNode := { id := gLastId, addr, port, client := fd, conn }
          obtain ⟨list, happend, hholds⟩ := Memory.Holds.append (x := newClient) h.list hfresh
          let globals := { p.globals.log [.accepted conn fd] with gLastId }.log [.linked conn gLastId]
          refine ⟨{ globals, list }, ?_, xs ++ [(malloc.addr p.list, newClient)], ?_, ?_, hholds⟩
          · simp only [newClient, gLastId, conn] at happend
            simp only [happend, not_true_eq_false, if_false, Option.bind_eq_bind, Option.bind_some]
            rfl
          · simp only [globals, h.globals]
            rfl
          · rw [List.map_append, ← h.clients]
            rfl

theorem listFree_failedRead (client : ClientNode) : ListFree (ψ := ψ) (·.failedRead client) := fun _ _ => rfl

theorem listFree_served (client : ClientNode) (count : Int) (writes : List Int) :
    ListFree (ψ := ψ) fun s => s.lookedUp.served client (recvData s.history client.conn count) writes := by
  intro s clients
  simp only [Server.served]
  cases serialWrite (recvData s.history client.conn count) writes with
  | mk port status => cases status <;> rfl

theorem HeapServer.handleCommandingClient_head {a : Addr} {node : Cell Addr ClientNode} (hfirst : p.list.first = some a)
    (hread : p.list.read a = some node) (count : Int) (writes : List Int) :
    p.handleCommandingClient count writes =
      if recvData p.globals.history node.value.conn count = [] then
        let p' := p.onGlobals (·.failedRead node.value)
        if p.globals.tried = 3 then (p'.terminateClient p'.list.first .first).map Prod.fst else some p'
      else some (p.onGlobals fun s =>
        s.lookedUp.served node.value (recvData s.history node.value.conn count) writes) := by
  simp only [HeapServer.handleCommandingClient, hfirst, hread, Option.bind_eq_bind, Option.bind_some,
    HeapServer.onGlobals, lookedUp_eq]
  have hlooked : recvData p.globals.lookedUp.history node.value.conn count =
      recvData p.globals.history node.value.conn count := rfl
  rw [hlooked]
  by_cases hdata : recvData p.globals.history node.value.conn count = []
  · rw [if_pos hdata, if_pos hdata, hdata]
    have htried : ((p.globals.lookedUp.log [.received node.value.conn node.value.client []]).tryout = 3) =
        (p.globals.tried = 3) := rfl
    simp only [htried]
    split
    · exact (Option.map_eq_bind).symm
    · rfl
  · rw [if_neg hdata, if_neg hdata, Server.served]
    cases serialWrite (recvData p.globals.history node.value.conn count) writes with
    | mk port status => cases status <;> rfl

theorem simulates_handleCommandingClient (count : Int) (writes : List Int) :
    Simulates (ψ := ψ) (·.handleCommandingClient count writes) (handleCommandingClient count writes) := by
  intro p s h
  obtain ⟨xs, h⟩ := h
  cases xs with
  | nil =>
      obtain ⟨hfirst, hclients⟩ := h.empty
      refine ⟨p, ?_, [], ?_⟩
      · simp only [HeapServer.handleCommandingClient, hfirst]
      · rw [handleCommandingClient, hclients]
        exact h
  | cons x xs =>
      obtain ⟨hfirst, hread, hclients⟩ := h.head
      have hhistory : p.globals.history = s.history := by rw [h.globals]
      have htried : p.globals.tried = s.tried := by
        rw [h.globals]
        rfl
      dsimp only
      rw [HeapServer.handleCommandingClient_head hfirst hread, handleCommandingClient_spec hclients, hhistory, htried]
      dsimp only
      split_ifs
      · have hfailed := h.onGlobals (listFree_failedRead x.2)
        obtain ⟨p', hp', h'⟩ := simulates_terminateHead _ _ ⟨_, hfailed⟩
        refine ⟨p', hp', ?_⟩
        have hterminated := terminateHead_eq (s := s.failedRead x.2) hclients
        dsimp only at h'
        rwa [hterminated] at h'
      · exact ⟨_, rfl, _, h.onGlobals (listFree_failedRead x.2)⟩
      · exact ⟨_, rfl, _, h.onGlobals (listFree_served x.2 count writes)⟩

theorem simulates_promote : Simulates (ψ := ψ) HeapServer.promote promote := by
  intro p s h
  obtain ⟨xs, h⟩ := h
  cases xs with
  | nil =>
      obtain ⟨hfirst, hclients⟩ := h.empty
      refine ⟨p, ?_, [], ?_⟩
      · simp only [HeapServer.promote, hfirst]
      · rw [promote, hclients]
        exact h
  | cons x xs =>
      obtain ⟨hfirst, hread, hclients⟩ := h.head
      let takeCommand : Server ψ → Server ψ := fun s =>
        if s.gCommandingClient ≠ x.2.id then { s with clientFd := x.2.client, gCommandingClient := x.2.id } else s
      have htake : ListFree takeCommand := by
        intro s clients
        simp only [takeCommand]
        split_ifs <;> rfl
      refine ⟨p.onGlobals takeCommand, ?_, x :: xs, ?_⟩
      · simp only [HeapServer.promote, hfirst, hread, Option.bind_eq_bind, Option.bind_some]
        rfl
      · have hpromote : promote s = takeCommand s := by
          rw [promote]
          split
          · rename_i hnil
            rw [hclients] at hnil
            cases hnil
          · rename_i client rest hcons
            obtain ⟨rfl, -⟩ := List.cons.inj (hclients.symm.trans hcons)
            rfl
        rw [hpromote]
        exact h.onGlobals htake

/-- The loop at the end takes as many steps as there are nodes. -/
theorem HeapServer.Represents.terminateClients (h : p.Represents s xs) {clients : List ClientNode}
    (hlength : clients.length = xs.length) {steps : Nat} (hsteps : xs.length ≤ steps) :
    ∃ p', p.terminateClients steps = some p' ∧
      p'.Refines (clients.foldl (fun s _ => (MissionServer.terminateClient s.gClients.head? 0 s).1) s) := by
  induction xs generalizing p s clients steps with
  | nil =>
      obtain ⟨hfirst, -⟩ := h.empty
      obtain rfl := List.length_eq_zero_iff.mp hlength
      refine ⟨p, ?_, [], h⟩
      cases steps <;> simp [HeapServer.terminateClients, hfirst]
  | cons x xs ih =>
      obtain ⟨hfirst, -⟩ := h.head
      obtain ⟨client, clients, rfl⟩ := List.exists_cons_of_length_eq_add_one hlength
      obtain ⟨steps, rfl⟩ := Nat.exists_eq_add_of_le' (Nat.one_le_of_lt hsteps)
      obtain ⟨p', hterminate, h'⟩ := h.terminateHead
      obtain ⟨p'', hp'', h''⟩ := ih h' (Nat.succ.inj hlength) (Nat.succ_le_succ_iff.mp hsteps)
      refine ⟨p'', ?_, h''⟩
      rw [HeapServer.terminateClients, hterminate]
      simp only [hfirst, Option.isSome_some, if_true, Option.bind_eq_bind, Option.bind_some]
      exact hp''

theorem simulates_terminateClients : Simulates (ψ := ψ) (fun p => p.terminateClients p.list.size) terminateClients := by
  intro p s h
  obtain ⟨xs, h⟩ := h
  have hsize : xs.length ≤ p.list.size := by
    have hle := Memory.length_le_size h.list.nodup fun a ha => (h.list.cells a).mpr ha
    rwa [List.length_map] at hle
  have hlength : s.gClients.length = xs.length := by rw [h.clients, List.length_map]
  exact h.terminateClients hlength hsize

theorem simulates_clientEvent (tick : Tick) : Simulates (ψ := ψ) (·.clientEvent tick) (clientEvent tick) := by
  have hpoll : Simulates (ψ := ψ) (fun p => if tick.client.pollIn then p.handleCommandingClient tick.recv tick.writes
      else some p) (fun s => if tick.client.pollIn then handleCommandingClient tick.recv tick.writes s else s) :=
    .ite _ (simulates_handleCommandingClient _ _) simulates_id
  exact .ite _ simulates_terminateHead hpoll

end List

/-! ### The broadcast -/

section Broadcast

variable (sigpipeIgnored : Bool) (lib : MavlinkLib ψ)

/-- The pushing of a chunk to one client. -/
def pushTo (data : Bytes) (client : ClientNode) (outcomes : List SendOutcome) (s : Server ψ) :
    Server ψ × PushLoop.Status :=
  PushLoop.push (sendCall sigpipeIgnored data client) data.length 0 outcomes s

theorem pushTo_listFree (data : Bytes) (client : ClientNode) (outcomes : List SendOutcome) (s : Server ψ)
    (clients : List ClientNode) :
    pushTo sigpipeIgnored data client outcomes { s with gClients := clients } =
      ({ (pushTo sigpipeIgnored data client outcomes s).1 with gClients := clients },
        (pushTo sigpipeIgnored data client outcomes s).2) := by
  let view : Server ψ → Server ψ := fun s => { s with gClients := clients }
  have hcall (sent : Nat) (outcome : SendOutcome) (s : Server ψ) :=
    sendCall_listFree sigpipeIgnored data client sent outcome s clients
  exact PushLoop.push_view view hcall 0 outcomes s

theorem HeapServer.Represents.pushTo {p : HeapServer ψ} {s : Server ψ} {xs : List (Addr × ClientNode)}
    (h : p.Represents s xs) (data : Bytes) (client : ClientNode) (outcomes : List SendOutcome) :
    ∃ globals, MissionServer.pushTo sigpipeIgnored data client outcomes p.globals =
        (globals, (MissionServer.pushTo sigpipeIgnored data client outcomes s).2) ∧
      HeapServer.Represents { p with globals } (MissionServer.pushTo sigpipeIgnored data client outcomes s).1 xs := by
  have hsame := pushTo_listFree sigpipeIgnored data client outcomes s s.gClients
  have hclients : (MissionServer.pushTo sigpipeIgnored data client outcomes s).1.gClients = s.gClients := by
    rw [show MissionServer.pushTo sigpipeIgnored data client outcomes s = _ from hsame]
  rw [h.globals, pushTo_listFree sigpipeIgnored data client outcomes s []]
  exact ⟨_, rfl, rfl, hclients.trans h.clients, h.list⟩

theorem HeapServer.Represents.broadcast (data : Bytes) (sends : List (List SendOutcome)) {p : HeapServer ψ}
    {s : Server ψ} {pre post : List (Addr × ClientNode)} (h : p.Represents s (pre ++ post)) :
    ∃ p', p.broadcast sigpipeIgnored data sends (LinkedList.start post) (linkAfter pre) = some p' ∧
      p'.Refines (MissionServer.broadcast sigpipeIgnored data sends (post.map Prod.snd).head? pre.length s) := by
  induction sends generalizing p s pre post with
  | nil =>
      cases post with
      | nil =>
          refine ⟨p, ?_, pre, ?_⟩
          · simp [HeapServer.broadcast, LinkedList.start]
          · simpa [MissionServer.broadcast] using h
      | cons x rest => exact ⟨_, rfl, _, h.onGlobals fun _ _ => rfl⟩
  | cons outcomes sends ih =>
      cases post with
      | nil =>
          refine ⟨p, ?_, pre, ?_⟩
          · simp [HeapServer.broadcast, LinkedList.start]
          · simpa [MissionServer.broadcast] using h
      | cons x rest =>
          have hread := h.list.read_cell
          have hload := h.list.load_linkAfter
          obtain ⟨globals, hpush, h₁⟩ := h.pushTo sigpipeIgnored data x.2 outcomes
          rw [MissionServer.pushTo] at hpush
          simp only [HeapServer.broadcast, MissionServer.broadcast, LinkedList.start, List.map_cons, List.head?_cons,
            Option.map_some, hread, hpush, Option.bind_eq_bind, Option.bind_some]
          rw [MissionServer.pushTo] at h₁ ⊢
          generalize PushLoop.push (sendCall sigpipeIgnored data x.2) data.length 0 outcomes s = pushed at h₁ ⊢
          obtain ⟨s₁, status⟩ := pushed
          dsimp only at h₁
          cases status with
          | pending => exact ⟨_, rfl, _, h₁.onGlobals (g := fun s => { s with halt := some .blocked }) fun _ _ => rfl⟩
          | failed =>
              have hhalt : globals.halt = s₁.halt := h₁.halt
              dsimp only
              rw [hhalt]
              split
              · exact ⟨_, rfl, _, h₁⟩
              · have hsplit : HeapServer.Represents { p with globals } s₁ (pre ++ (x.1, x.2) :: rest) := h₁
                obtain ⟨p', hterminate, h', hnext⟩ := hsplit.terminateClient
                obtain ⟨p'', hp'', h''⟩ := ih h'
                refine ⟨p'', ?_, ?_⟩
                · simp only [hterminate, Option.bind_some]
                  exact hp''
                · rw [hnext]
                  exact h''
          | done =>
              have hnext : s₁.gClients[pre.length + 1]? = (rest.map Prod.snd).head? := by
                rw [h₁.clients, List.map_append, List.getElem?_append_right (by simp)]
                simp [List.head?_eq_getElem?]
              have h₂ : HeapServer.Represents { p with globals } s₁ ((pre ++ [x]) ++ rest) := by simpa using h₁
              obtain ⟨p', hp', h'⟩ := ih h₂
              rw [linkAfter_concat] at hp'
              rw [List.length_append, List.length_singleton] at h'
              refine ⟨p', ?_, ?_⟩
              · simp only [hload, Option.bind_some, LinkedList.start, List.head?_cons, Option.map_some]
                exact hp'
              · dsimp only
                rw [hnext]
                exact h'

theorem simulates_sendDataToClients (tick : Tick) :
    Simulates (·.sendDataToClients sigpipeIgnored lib tick) (sendDataToClients sigpipeIgnored lib tick) := by
  have hbroadcast (data : Bytes) :
      Simulates (ψ := ψ) (fun p => p.broadcast sigpipeIgnored data tick.sends p.list.first .first)
        (fun s => broadcast sigpipeIgnored data tick.sends s.gClients.head? 0 s) := by
    intro p s h
    obtain ⟨xs, h⟩ := h
    have hsplit : p.Represents s ([] ++ xs) := h
    dsimp only
    rw [h.first, h.clients]
    exact hsplit.broadcast sigpipeIgnored data tick.sends
  intro p s h
  simp only [HeapServer.sendDataToClients, sendDataToClients]
  cases serialRead gCacheSize tick.serialData with
  | none => exact ⟨p, rfl, h⟩
  | some data =>
      cases data with
      | nil => exact ⟨p, rfl, h⟩
      | cons byte data =>
          obtain ⟨xs, h⟩ := h
          have hchunk := h.onGlobals (listFree_receiveChunk lib tick.envs (byte :: data))
          exact (hbroadcast (byte :: data)).andThen _ _ ⟨xs, hchunk⟩

theorem simulates_handleEvents (tick : Tick) (malloc : Malloc) :
    Simulates (·.handleEvents sigpipeIgnored lib tick malloc) (handleEvents sigpipeIgnored lib tick) := by
  have hserver : Simulates (ψ := ψ) (fun p => if tick.server then p.acceptClient malloc tick.accept else some p)
      (serverEvent tick) := .ite _ (simulates_acceptClient malloc tick.accept) simulates_id
  have hserial : Simulates (fun p => if tick.serial then p.sendDataToClients sigpipeIgnored lib tick else some p)
      (serialEvent sigpipeIgnored lib tick) := .ite _ (simulates_sendDataToClients sigpipeIgnored lib tick) simulates_id
  have huserCmd := simulates_onGlobals (listFree_userCmdEvent (ψ := ψ) tick)
  have hlast := huserCmd.andThen.comp simulates_promote.andThen
  exact (simulates_clientEvent tick).comp (hserver.andThen.comp (hserial.andThen.comp hlast))

theorem simulates_mainLoop (tick : Tick) (malloc : Malloc) :
    Simulates (·.mainLoop sigpipeIgnored lib (tick, malloc)) (mainLoop sigpipeIgnored lib · tick) := by
  have hstopped := simulates_onGlobals (ψ := ψ) (g := fun s => { s with halt := some .stopped }) fun _ _ => rfl
  have hleave := simulates_terminateClients.comp hstopped
  have hpoll := simulates_onGlobals (listFree_atPoll (ψ := ψ) tick)
  have hevents := simulates_handleEvents sigpipeIgnored lib tick malloc
  exact (hpoll.comp (hleave.ite (tick.fails || tick.close) hevents)).andThen

/-- Whatever happens and wherever `malloc` puts the nodes: the server in memory has a result, so it has dereferenced no
null pointer and no freed node, and has ended every walk. Its list is the list of the clients, its nodes are all that
is allocated, and everything else is as in the server with a list. -/
theorem pointers_refine_list (receiver : Receiver ψ) (ticks : List (Tick × Malloc)) :
    ∃ p xs, HeapServer.run sigpipeIgnored lib receiver ticks = some p ∧
      let s := Machine.run (mainLoop sigpipeIgnored lib) (Server.start receiver) (ticks.map Prod.fst)
      p.globals = { s with gClients := [] } ∧ xs.map Prod.snd = s.gClients ∧ p.list.Holds xs := by
  have hrun : ∃ p, HeapServer.run sigpipeIgnored lib receiver ticks = some p ∧
      p.Refines (Machine.run (mainLoop sigpipeIgnored lib) (Server.start receiver) (ticks.map Prod.fst)) := by
    induction ticks using List.reverseRecOn with
    | nil => exact ⟨_, rfl, [], rfl, rfl, holds_empty⟩
    | append_singleton ticks tick ih =>
        obtain ⟨p, hp, h⟩ := ih
        obtain ⟨p', hp', h'⟩ := simulates_mainLoop sigpipeIgnored lib tick.1 tick.2 p _ h
        refine ⟨p', ?_, ?_⟩
        · have hlast : p.mainLoop sigpipeIgnored lib tick = some p' := hp'
          rw [HeapServer.run] at hp ⊢
          rw [List.foldlM_append, hp]
          change (p.mainLoop sigpipeIgnored lib tick).bind some = some p'
          rw [hlast, Option.bind_some]
        · rw [List.map_append, List.map_singleton, Machine.run_concat]
          exact h'
  obtain ⟨p, hp, xs, h⟩ := hrun
  exact ⟨p, xs, hp, h.globals, h.clients.symm, h.list⟩

end Broadcast

/-- Nodes behind all that are in use. -/
def Malloc.behind : Malloc where
  addr memory := memory.cells.keys.sum + 1
  fresh _ hmem := absurd (List.le_sum_of_mem hmem) (Nat.not_succ_le_self _)

/-- Two clients arrive, and the first one hangs up: its node is given back, and the list begins with the other. -/
example :
    let ticks := [{ idleTick with server := true, accept := .socket 7 true 0x7f000001 50000 },
      { idleTick with server := true, accept := .socket 8 true 0x7f000001 50001 },
      { idleTick with client := { hupOrErr := true } }]
    (HeapServer.run false silentLib ⟨(), {}⟩ (ticks.map (·, .behind))).map
      (fun p => (p.list.first, p.list.cells.keys, p.globals.clientFd)) = some (some 2, [2], 8) := by
  decide +kernel

end MissionServer
