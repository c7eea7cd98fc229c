import Mathlib.Data.List.Basic
import MissionServer.MavlinkPublisher
import MissionServer.Serial

/-!
# What happens at the server's descriptors

A run leaves one history: what peers do to their connections, what the server's calls do, and what
passes through the serial port. A connection is named by its place in the order in which `accept`
returned sockets; every call also shows the descriptor it was made on. What the kernel holds at a
moment, the unread bytes of a connection and the descriptors in use, is computed from the history.
-/

namespace MissionServer

inductive KernelEvent
  /-- Bytes become readable on a connection. -/
  | arrived (conn : Nat) (data : Bytes)
  /-- The peer has reset its connection. -/
  | reset (conn : Nat)
  /-- `poll` looks at the descriptor in the commanding client's slot. -/
  | polled (fd : Int)
  | accepted (conn : Nat) (fd : Int)
  /-- The client of a connection enters the list. -/
  | linked (conn : Nat) (id : Int)
  /-- A `recv`, with nothing where it does not return a positive count. -/
  | received (conn : Nat) (fd : Int) (data : Bytes)
  /-- One locked `serial_write` of a client's bytes, with what reaches the port. -/
  | forwarded (conn : Nat) (data : Bytes)
  /-- That `serial_write` gave up. -/
  | writeFailed (conn : Nat)
  /-- A positive read from the serial port, handed to `read_mavlink_msg`. -/
  | chunk (data : Bytes)
  | sent (conn : Nat) (fd : Int) (data : Bytes)
  | sendFailed (conn : Nat) (fd : Int)
  | closed (conn : Nat) (fd : Int)
  /-- A `close` of -1, which is no descriptor. -/
  | closedInvalid
  /-- One locked `serial_write` of a message of the server's own. -/
  | own (frame : MavlinkFrame)
  deriving DecidableEq, Repr

abbrev History := List KernelEvent

/-! ### Connections -/

/-- The connections that `accept` has returned, with their descriptors. -/
def acceptedConns (h : History) : List (Nat × Int) :=
  h.filterMap fun
    | .accepted conn fd => some (conn, fd)
    | _ => none

def closedConns (h : History) : List (Nat × Int) :=
  h.filterMap fun
    | .closed conn fd => some (conn, fd)
    | _ => none

def openConns (h : History) : List (Nat × Int) := (acceptedConns h).filter fun c => c ∉ closedConns h

def isOpen (h : History) (conn : Nat) : Bool := (openConns h).any (·.1 = conn)

def fdInUse (h : History) (fd : Int) : Bool := (openConns h).any (·.2 = fd)

def isReset (h : History) (conn : Nat) : Bool := h.contains (.reset conn)

/-! ### Bytes -/

def arrived (conn : Nat) (h : History) : Bytes :=
  h.flatMap fun
    | .arrived conn' data => if conn' = conn then data else []
    | _ => []

def received (conn : Nat) (h : History) : Bytes :=
  h.flatMap fun
    | .received conn' _ data => if conn' = conn then data else []
    | _ => []

def forwarded (conn : Nat) (h : History) : Bytes :=
  h.flatMap fun
    | .forwarded conn' data => if conn' = conn then data else []
    | _ => []

def sentTo (conn : Nat) (h : History) : Bytes :=
  h.flatMap fun
    | .sent conn' _ data => if conn' = conn then data else []
    | _ => []

def chunks (h : History) : Bytes :=
  h.flatMap fun
    | .chunk data => data
    | _ => []

/-- The serial input since a connection was accepted. -/
def chunksSince (conn : Nat) : History → Bytes
  | [] => []
  | .accepted conn' _ :: h => if conn' = conn then chunks h else chunksSince conn h
  | _ :: h => chunksSince conn h

/-- The bytes that `recv` finds on a connection. -/
def unread (h : History) (conn : Nat) : Bytes := (arrived conn h).drop (received conn h).length

/-! ### Peers -/

inductive PeerAct
  | write (conn : Nat) (data : Bytes)
  | reset (conn : Nat)
  deriving DecidableEq, Repr

/-- What a peer does shows only while its connection is open. -/
def PeerAct.events (h : History) : PeerAct → List KernelEvent
  | .write conn data => if isOpen h conn then [.arrived conn data] else []
  | .reset conn => if isOpen h conn then [.reset conn] else []

end MissionServer
