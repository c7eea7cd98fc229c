import MissionServer.Config.Serial

/-!
# uart_server.c: the start of the server

`get_unsigned`, and what `run_uart_server` does before it has an open serial port. A C string is its
characters before the terminating zero.
-/

namespace MissionServer

structure CString where
  chars : Bytes
  noZero : 0 ∉ chars
  deriving DecidableEq

def CString.strlen (s : CString) : Nat := s.chars.length

/-- `isdigit` of the C locale. -/
def isDigit (c : UInt8) : Bool := 0x30 ≤ c && c ≤ 0x39

/-- The loop of `get_unsigned`, on the characters that `s` still has before it. Behind the last one it
finds the zero. -/
def getUnsignedLoop (helper oResult : UInt32) (s : Bytes) : Nat → Bool × UInt32
  | 0 => (true, oResult)
  | len + 1 =>
      let c := s.headD 0
      if !isDigit c then (false, oResult)
      else
        let oResult := oResult * 10 + (c.toUInt32 - 0x30)
        -- Make sure we didn't overflow
        if oResult < helper then (false, oResult)
        else getUnsignedLoop oResult oResult s.tail len

/-- `get_unsigned`, with what `o_result` points to before and after; a null pointer is `none`. -/
def getUnsigned (s : Option CString) (len : Nat) (oResult : Option UInt32) : Bool × Option UInt32 :=
  match s, oResult with
  | some s, some _ =>
      if len = 0 then (false, oResult)
      else
        let (ok, result) := getUnsignedLoop 0 0 s.chars len
        (ok, some result)
  | _, _ => (false, oResult)

/-! ### run_uart_server -/

def defaultPort : UInt32 := 8278

/-- The TCP port, or nothing where it is refused. -/
def serverPort (netPort : Option CString) : Option UInt32 :=
  match netPort with
  | none => some defaultPort
  | some s =>
      match getUnsigned (some s) s.strlen (some defaultPort) with
      | (true, some port) => if port = 0 ∨ port > 0xffff then none else some port
      | _ => none

/-- What the process does before it serves. A bind shows the port that its address names. -/
inductive StartCall
  | help (text : String)
  | error (text : String)
  | socket
  | bind (port : UInt16)
  | listen (backlog : Nat)
  | serial (call : PortCall)
  | closesocket
  | exit (status : Nat)
  deriving DecidableEq, Repr

/-- What the calls answer. -/
structure StartOutcome where
  socket : Bool
  bind : Bool
  listen : Bool
  serial : OpenOutcome
  deriving DecidableEq, Repr

def exitFailure : Nat := 1

/-- `goto terminate`. -/
def terminateStart (text : String) : List StartCall := [.error text, .closesocket, .exit exitFailure]

/-- Up to the open serial port, which comes with the calls where there is one. -/
def openServer (serialCfg : SerialCfg) (port : UInt32) (os : StartOutcome) : List StartCall × Option Int :=
  if !os.socket then ([.socket, .error "Failed to open a TCP socket", .exit exitFailure], none)
  else if !os.bind then
    ([.socket, .bind port.toUInt16] ++ terminateStart s!"Failed to bind to port {port}", none)
  else if !os.listen then
    ([.socket, .bind port.toUInt16, .listen 10] ++ terminateStart "Failed to start TCP listen", none)
  else
    let (path, cfg) := getSerialPortConfig serialCfg
    let (serial, calls) := serialOpen path cfg serialTimeout os.serial
    if serial = serialInvalidFd then
      ([.socket, .bind port.toUInt16, .listen 10] ++ calls.map .serial ++
        terminateStart "Failed to open the requested serial port", none)
    else ([.socket, .bind port.toUInt16, .listen 10] ++ calls.map .serial, some serial)

def runUartServerStart (serialCfg : SerialCfg) (netPort : Option CString) (os : StartOutcome) :
    List StartCall × Option Int :=
  match serverPort netPort with
  | none => ([.help "port must be in the range 1-65535", .exit exitFailure], none)
  | some port => openServer serialCfg port os

end MissionServer
