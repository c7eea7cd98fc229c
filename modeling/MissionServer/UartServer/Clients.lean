import MissionServer.MavlinkReceiver
import MissionServer.UartServer.Kernel

/-!
# uart_server.c: the list of clients

The globals of the server, `accept_client` and `terminate_client`. The linked list is a list of nodes,
and a pointer to one of its links is a position in it.
-/

namespace MissionServer

/-- `struct ClientNode`. `conn` is not in the source: it says which connection the socket was returned
for. -/
structure ClientNode where
  id : Int
  addr : UInt32
  port : UInt16
  client : Int
  conn : Nat
  deriving DecidableEq, Repr

/-- Why the server no longer takes steps: it waits inside a call, SIGPIPE ended the process, a handler
did, or the main loop was left. -/
inductive Halt
  | blocked
  | killed
  | crashed
  | stopped
  deriving DecidableEq, Repr

/-- The globals of `uart_server.c` and the statics of its functions. Of `g_waiters` only the commanding
client's descriptor ever changes. -/
structure Server (ψ : Type) where
  gLastId : Int := -1
  gCommandingClient : Int := -1
  gClients : List ClientNode := []
  clientFd : Int := -1
  lastCommander : Int := -1
  tryout : Nat := 0
  userCmdReceived : Int := 0
  receiver : Receiver ψ
  history : History := []
  halt : Option Halt := none

variable {ψ : Type}

def Server.log (events : List KernelEvent) (s : Server ψ) : Server ψ := { s with history := s.history ++ events }

/-- The next step of a function, unless the server has halted. -/
def Server.andThen (s : Server ψ) (f : Server ψ → Server ψ) : Server ψ :=
  if s.halt.isSome then s else f s

def peerAct (act : PeerAct) (s : Server ψ) : Server ψ := s.log (act.events s.history)

def peerActs (acts : List PeerAct) (s : Server ψ) : Server ψ := acts.foldl (fun s act => peerAct act s) s

/-- What `malloc` and `accept` do for `accept_client`. `isInet` tells whether the remote address is one
of IPv4, of the right size. -/
inductive AcceptOutcome
  | noMemory
  | invalidSocket
  | socket (fd : Int) (isInet : Bool) (addr : UInt32) (port : UInt16)
  deriving DecidableEq, Repr

/-- The kernel never returns a descriptor that is in use; such an outcome stands for a failure. -/
def AcceptOutcome.result (h : History) : AcceptOutcome → AcceptOutcome
  | .socket fd isInet addr port => if 0 < fd ∧ ¬ fdInUse h fd then .socket fd isInet addr port else .invalidSocket
  | outcome => outcome

/-- `accept_client`. The cleanup closes any socket but 0, the invalid one included. -/
def acceptClient (outcome : AcceptOutcome) (s : Server ψ) : Server ψ :=
  match outcome.result s.history with
  | .noMemory => s
  | .invalidSocket => s.log [.closedInvalid]
  | .socket fd isInet addr port =>
      let conn := (acceptedConns s.history).length
      let s := s.log [.accepted conn fd]
      if ¬ isInet then s.log [.closed conn fd]
      else
        let gLastId := (s.gLastId + 1).bmod (2 ^ 32)
        let newClient : ClientNode := { id := gLastId, addr, port, client := fd, conn }
        { s with gLastId, gClients := s.gClients ++ [newClient] }.log [.linked conn gLastId]

/-- `terminate_client` on a node and the position of the link that points to it. It returns the node
after it, and null where the link does not point to the node. -/
def terminateClient (node : Option ClientNode) (pointer : Nat) (s : Server ψ) : Server ψ × Option ClientNode :=
  match node with
  | none => (s, none)
  | some node =>
      if s.gClients[pointer]? ≠ some node then (s, none)
      else
        let clientFd := if node.id = s.gCommandingClient then -1 else s.clientFd
        let s := { s with clientFd, gClients := s.gClients.eraseIdx pointer }
        (s.log [.closed node.conn node.client], s.gClients[pointer]?)

end MissionServer
