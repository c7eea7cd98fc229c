import MissionServer.UartServer.MainLoop

/-!
# The server's thread and mavlink_tx_thread

What the two threads share is `serial_is_ready`, `fcu_sysid`, the transmit counter of the MAVLink library
and the serial port. A message takes its number when it is packed; the write under the lock is a later
step, and its failure is dropped. The server's thread never looks at what the other one does, so its
program is computed beforehand, as a list of actions.
-/

namespace MissionServer

/-! ### The program of the server's thread -/

/-- What the other thread can see, and what takes the lock. -/
inductive ServerAction
  | assign (write : HandshakeWrite)
  | send (frame : MavlinkFrame)
  /-- The `serial_write` of what a client has sent. -/
  | forward (data : Bytes)
  /-- The end of the process, by a null pointer, a signal or `exit`. -/
  | ends
  deriving DecidableEq, Repr

def outputAction : MavOutput → Option ServerAction
  | .frame frame => some (.send frame)
  | .device .fault => some .ends
  | .device .exit => some .ends
  | .device _ => none

section Program

variable {ψ : Type} (sigpipeIgnored : Bool) (lib : MavlinkLib ψ)

def messageActions (env : GstEnv) (msg : MavlinkMessage) (m : Mav) : List ServerAction :=
  if msg.msgid = autopilotVersionId then (autopilotVersionWrites msg.sysid).map .assign
  else (parseMavlinkMsg lib env msg m).2.filterMap outputAction

def charActions (env : GstEnv) (byte : UInt8) (r : Receiver ψ) : List ServerAction :=
  match lib.parseChar r.fcuStatus byte with
  | (_, some msg) => messageActions lib env msg r.mav
  | (_, none) => []

/-- The actions of `read_mavlink_msg`. -/
def chunkActions (envs : Nat → GstEnv) : Bytes → Receiver ψ → List ServerAction
  | [], _ => []
  | byte :: bytes, r =>
      charActions lib (envs 0) byte r ++
        chunkActions (fun i => envs (i + 1)) bytes (readMavlinkChar lib (envs 0) byte r).1

/-- One `serial_read` before the connection is established. -/
structure SerialInput where
  data : Option Bytes
  envs : Nat → GstEnv

/-- The loop that asks for the autopilot's capabilities until its version has come. Where the list runs
out the server is still waiting. -/
def connectionLoop : List SerialInput → Receiver ψ → Receiver ψ × List ServerAction
  | [], r => (r, [])
  | input :: inputs, r =>
      if flightControllerConnected r.mav then (r, [])
      else
        let request := (mavlinkSendRequestAutopilotCapabilities r.mav.fcuSysid).map .send
        match serialRead gCacheSize input.data with
        | none => ((connectionLoop inputs r).1, request ++ (connectionLoop inputs r).2)
        | some data =>
            let r' := (readMavlinkMsg lib input.envs data r).1
            ((connectionLoop inputs r').1,
              request ++ chunkActions lib input.envs data r ++ (connectionLoop inputs r').2)

/-- What `handle_commanding_client` passes on: nothing where it has read nothing. -/
def passedOn (count : Int) (s : Server ψ) : List Bytes :=
  match s.gClients with
  | [] => []
  | client :: _ =>
      let data := recvData s.history client.conn count
      if data = [] then [] else [data]

def clientActions (tick : Tick) (s : Server ψ) : List ServerAction :=
  if tick.client.hupOrErr || !tick.client.pollIn then [] else (passedOn tick.recv s).map .forward

def serialActions (tick : Tick) (s : Server ψ) : List ServerAction :=
  if s.halt.isSome || !tick.serial then []
  else
    match serialRead gCacheSize tick.serialData with
    | none => []
    | some data => chunkActions lib tick.envs data s.receiver

def userCmdActions (tick : Tick) (s : Server ψ) : List ServerAction :=
  if s.halt.isSome || !tick.userCmd then []
  else
    let fifo := tick.fifo.map (·.take (userCmdSize s.userCmdReceived))
    let userCmd := (readUserCmd tick.stack fifo s.userCmdReceived).2
    (userCmd.toList.flatMap (selectAction s.receiver.mav.fcuSysid)).map .send

/-- A server that is blocked leaves the process alive. -/
def haltActions : Option Halt → List ServerAction
  | none => []
  | some .blocked => []
  | some .killed => [.ends]
  | some .crashed => [.ends]
  | some .stopped => [.ends]

/-- One iteration of the main loop. -/
def tickActions (s : Server ψ) (tick : Tick) : List ServerAction :=
  if s.halt.isSome then []
  else if tick.fails || tick.close then [.ends]
  else
    let s₁ := untilSerial tick (atPoll tick s)
    let s₂ := s₁.andThen (serialEvent sigpipeIgnored lib tick)
    clientActions tick (atPoll tick s) ++ serialActions lib tick s₁ ++ userCmdActions tick s₂ ++ haltActions s₂.halt

def mainLoopActions : List Tick → Server ψ → List ServerAction
  | [], _ => []
  | tick :: ticks, s =>
      tickActions sigpipeIgnored lib s tick ++ mainLoopActions ticks (mainLoop sigpipeIgnored lib s tick)

/-- `run_uart_server`, from the moment the port is open. -/
def serverActions (inputs : List SerialInput) (ticks : List Tick) (r : Receiver ψ) : List ServerAction :=
  let connected := connectionLoop lib inputs r
  connected.2 ++
    if flightControllerConnected connected.1.mav then
      mainLoopActions sigpipeIgnored lib ticks (Server.start connected.1)
    else []

end Program

/-! ### The threads -/

inductive Thread
  | server
  | txThread
  deriving DecidableEq, Repr

def Thread.other : Thread → Thread
  | .server => .txThread
  | .txThread => .server

/-- A message with the number it has taken. `index` is how many had been packed before it. -/
structure Packed where
  seq : UInt8
  index : Nat
  frame : MavlinkFrame
  deriving DecidableEq, Repr

/-- What is written under the lock in one `serial_write`. -/
inductive PortWrite
  | message (p : Packed)
  | bytes (data : Bytes)
  deriving DecidableEq, Repr

/-- A step of a thread, and whether the `serial_write` that it makes, if it makes one, returns `true`. -/
structure ThreadStep where
  thread : Thread
  written : Bool := true
  deriving DecidableEq, Repr

/-- Both threads. `port` are the writes made under the lock, in order, each with what `serial_write` has
returned. `packedCount` is how many messages have been packed, `handled` is the system number of the last
AUTOPILOT_VERSION that has been handled, and `seen` is what `handled` was when `mavlink_tx_thread` last read
`fcu_sysid`. -/
structure Threads where
  serialIsReady : Bool := false
  fcuSysid : UInt8 := 0
  txSeq : UInt8
  todo : List ServerAction
  txConnected : Bool := false
  txTodo : List MavlinkFrame := []
  packed : Thread → Option Packed := fun _ => none
  port : List (PortWrite × Bool) := []
  ended : Bool := false
  packedCount : Nat := 0
  handled : Option UInt8 := none
  seen : Option UInt8 := none

namespace Threads

def start (txSeq : UInt8) (todo : List ServerAction) : Threads := { txSeq, todo }

/-- The messages that are on the wire as a whole. -/
def wire (s : Threads) : List Packed :=
  s.port.filterMap fun
    | (.message p, true) => some p
    | _ => none

/-- The messages of which the write has failed. -/
def lost (s : Threads) : List Packed :=
  s.port.filterMap fun
    | (.message p, false) => some p
    | _ => none

/-- A `_pack` call takes the next number. -/
def pack (thread : Thread) (frame : MavlinkFrame) (s : Threads) : Threads :=
  { s with
    txSeq := s.txSeq + 1
    packedCount := s.packedCount + 1
    packed := Function.update s.packed thread (some ⟨s.txSeq, s.packedCount, frame⟩) }

/-- The locked `serial_write` of the message that a thread has packed. `mavlink_send_msg` does not look at
what it returns. -/
def write (thread : Thread) (p : Packed) (written : Bool) (s : Threads) : Threads :=
  { s with packed := Function.update s.packed thread none, port := s.port ++ [(.message p, written)] }

/-- Nor does `handle_commanding_client`. -/
def act (written : Bool) (s : Threads) : Threads :=
  match s.todo with
  | [] => s
  | .assign .ready :: todo => { s with todo, serialIsReady := true }
  | .assign (.sysid id) :: todo => { s with todo, fcuSysid := id, handled := some id }
  | .send frame :: todo => { s with todo }.pack .server frame
  | .forward data :: todo => { s with todo, port := s.port ++ [(.bytes data, written)] }
  | .ends :: todo => { s with todo, ended := true }

/-- `mavlink_tx_thread`. Once it is connected it reads `fcu_sysid` and packs what it sends, period after
period. -/
def txThread (s : Threads) : Threads :=
  if s.txConnected then
    match s.txTodo with
    | [] => { s with txTodo := mavlinkTxThread s.fcuSysid, seen := s.handled }
    | frame :: frames => { s with txTodo := frames }.pack .txThread frame
  else { s with txConnected := s.serialIsReady }

/-- A thread takes a step: it writes what it has packed, or goes on to its next message. -/
def next (s : Threads) (step : ThreadStep) : Threads :=
  if s.ended then s
  else
    match s.packed step.thread with
    | some p => s.write step.thread p step.written
    | none =>
        match step.thread with
        | .server => s.act step.written
        | .txThread => s.txThread

end Threads

end MissionServer
