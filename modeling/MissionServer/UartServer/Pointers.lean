import MissionServer.Lib.LinkedList
import MissionServer.UartServer.MainLoop

/-!
# uart_server.c: the list of clients in memory

The same server once more, with the list of clients as the source keeps it: nodes from `malloc` that point to the
next one, the variable `g_clients`, and pointers to the links between them. A step that dereferences a null pointer or
a node that has been freed has no result.
-/

namespace MissionServer

open LinkedList

abbrev Addr := Nat

abbrev ClientMemory := Memory Addr ClientNode

/-- What `malloc` returns. It never gives away a node that is in use. -/
structure Malloc where
  addr : ClientMemory → Addr
  fresh : ∀ memory, addr memory ∉ memory.cells

/-- The globals and the statics, of which the list is not used, and the memory of the list. -/
structure HeapServer (ψ : Type) where
  globals : Server ψ
  list : ClientMemory := {}

variable {ψ : Type}

def HeapServer.start (receiver : Receiver ψ) : HeapServer ψ := { globals := Server.start receiver }

/-- A function that leaves the list alone. -/
def HeapServer.onGlobals (f : Server ψ → Server ψ) (s : HeapServer ψ) : HeapServer ψ :=
  { s with globals := f s.globals }

/-- The next step of a function, unless the server has halted. -/
def HeapServer.andThen (s : HeapServer ψ) (f : HeapServer ψ → Option (HeapServer ψ)) : Option (HeapServer ψ) :=
  if s.globals.halt.isSome then some s else f s

/-- `accept_client`. The node is allocated first, and its fields are zero until the connection is there. -/
def HeapServer.acceptClient (malloc : Malloc) (outcome : AcceptOutcome) (s : HeapServer ψ) : Option (HeapServer ψ) :=
  match outcome.result s.globals.history with
  | .noMemory => some s
  | .invalidSocket => do
      let newClient := malloc.addr s.list
      let list ← (s.list.alloc newClient { id := 0, addr := 0, port := 0, client := -1, conn := 0 }).free newClient
      return { globals := s.globals.log [.closedInvalid], list }
  | .socket fd isInet addr port => do
      let newClient := malloc.addr s.list
      let conn := (acceptedConns s.globals.history).length
      let globals := s.globals.log [.accepted conn fd]
      if ¬ isInet then
        let list ← (s.list.alloc newClient { id := 0, addr := 0, port := 0, client := fd, conn }).free newClient
        return { globals := globals.log [.closed conn fd], list }
      else
        let gLastId := (s.globals.gLastId + 1).bmod (2 ^ 32)
        let list ← (s.list.alloc newClient { id := gLastId, addr, port, client := fd, conn }).append newClient
        return { globals := { globals with gLastId }.log [.linked conn gLastId], list }

/-- `terminate_client`. -/
def HeapServer.terminateClient (node : Option Addr) (pointer : Link Addr) (s : HeapServer ψ) :
    Option (HeapServer ψ × Option Addr) :=
  match node with
  | none => some (s, none)
  | some a => do
      let target ← s.list.load pointer
      if target ≠ some a then return (s, none)
      let node ← s.list.read a
      let clientFd := if node.value.id = s.globals.gCommandingClient then -1 else s.globals.clientFd
      let (list, next) ← s.list.unlink pointer a
      return ({ globals := { s.globals with clientFd }.log [.closed node.value.conn node.value.client], list }, next)

def HeapServer.handleCommandingClient (count : Int) (writes : List Int) (s : HeapServer ψ) : Option (HeapServer ψ) :=
  match s.list.first with
  | none => some s
  | some a => do
      let client ← s.list.read a
      let s := s.onGlobals fun s =>
        if s.lastCommander ≠ s.gCommandingClient then { s with lastCommander := s.gCommandingClient, tryout := 0 }
        else s
      let data := recvData s.globals.history client.value.conn count
      let s := s.onGlobals (·.log [.received client.value.conn client.value.client data])
      if data = [] then
        let s' := s.onGlobals fun s => { s with tryout := s.tryout + 1 }
        if s.globals.tryout = 3 then
          let (s', _) ← s'.terminateClient s'.list.first .first
          return s'
        else return s'
      else
        match serialWrite data writes with
        | (port, .done) => return s.onGlobals (·.log [.forwarded client.value.conn port])
        | (port, .failed) =>
            return s.onGlobals (·.log [.forwarded client.value.conn port, .writeFailed client.value.conn])
        | (port, .pending) =>
            return s.onGlobals fun s => { s.log [.forwarded client.value.conn port] with halt := some .blocked }

section Broadcast

variable (sigpipeIgnored : Bool)

/-- The walk over the list. `previous` is the link that points to `current`, and goes on to the link in the node
that it points to. -/
def HeapServer.broadcast (data : Bytes) :
    List (List SendOutcome) → Option Addr → Link Addr → HeapServer ψ → Option (HeapServer ψ)
  | _, none, _, s => some s
  | [], some _, _, s => some (s.onGlobals fun s => { s with halt := some .blocked })
  | outcomes :: sends, some current, previous, s => do
      let node ← s.list.read current
      match PushLoop.push (sendCall sigpipeIgnored data node.value) data.length 0 outcomes s.globals with
      | (globals, .done) =>
          let target ← s.list.load previous
          let a ← target
          HeapServer.broadcast data sends node.next (.next a) { s with globals }
      | (globals, .failed) =>
          if globals.halt.isSome then return { s with globals }
          else
            let (s, next) ← HeapServer.terminateClient (some current) previous { s with globals }
            HeapServer.broadcast data sends next previous s
      | (globals, .pending) => return { s with globals := { globals with halt := some .blocked } }

variable (lib : MavlinkLib ψ)

def HeapServer.sendDataToClients (tick : Tick) (s : HeapServer ψ) : Option (HeapServer ψ) :=
  match serialRead gCacheSize tick.serialData with
  | none => some s
  | some [] => some s
  | some data =>
      (s.onGlobals (receiveChunk lib tick.envs data)).andThen fun s =>
        s.broadcast sigpipeIgnored data tick.sends s.list.first .first

def HeapServer.promote (s : HeapServer ψ) : Option (HeapServer ψ) :=
  match s.list.first with
  | none => some s
  | some a => do
      let client ← s.list.read a
      return s.onGlobals fun s =>
        if s.gCommandingClient ≠ client.value.id then
          { s with clientFd := client.value.client, gCommandingClient := client.value.id }
        else s

/-- The loop at the end of the server. It takes a node out of the list in every step. -/
def HeapServer.terminateClients : Nat → HeapServer ψ → Option (HeapServer ψ)
  | 0, s => if s.list.first.isSome then none else some s
  | steps + 1, s =>
      if s.list.first.isSome then do
        let (s, _) ← s.terminateClient s.list.first .first
        HeapServer.terminateClients steps s
      else some s

def HeapServer.clientEvent (tick : Tick) (s : HeapServer ψ) : Option (HeapServer ψ) :=
  if tick.client.hupOrErr then (s.terminateClient s.list.first .first).map Prod.fst
  else if tick.client.pollIn then s.handleCommandingClient tick.recv tick.writes
  else some s

/-- The body of the loop after `poll`. -/
def HeapServer.handleEvents (tick : Tick) (malloc : Malloc) (s : HeapServer ψ) : Option (HeapServer ψ) := do
  let s ← s.clientEvent tick
  let s ← s.andThen fun s => if tick.server then s.acceptClient malloc tick.accept else some s
  let s ← s.andThen fun s => if tick.serial then s.sendDataToClients sigpipeIgnored lib tick else some s
  let s ← s.andThen fun s => some (s.onGlobals (MissionServer.userCmdEvent tick))
  s.andThen HeapServer.promote

/-- One iteration of the main loop. -/
def HeapServer.mainLoop (s : HeapServer ψ) (tick : Tick × Malloc) : Option (HeapServer ψ) :=
  s.andThen fun s =>
    let s := s.onGlobals (MissionServer.atPoll tick.1)
    if tick.1.fails || tick.1.close then do
      let s ← s.terminateClients s.list.size
      return s.onGlobals fun s => { s with halt := some .stopped }
    else s.handleEvents sigpipeIgnored lib tick.1 tick.2

def HeapServer.run (receiver : Receiver ψ) (ticks : List (Tick × Malloc)) : Option (HeapServer ψ) :=
  ticks.foldlM (HeapServer.mainLoop sigpipeIgnored lib) (HeapServer.start receiver)

end Broadcast

end MissionServer
