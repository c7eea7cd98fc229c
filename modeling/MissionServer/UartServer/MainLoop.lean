import MissionServer.UartServer.Clients
import MissionServer.UartServer.UserCmd

/-!
# uart_server.c: the main loop

One iteration of `run_uart_server` on what `poll` and the other calls answer. The loops over `write` and
`send` take their outcomes from lists; where a list runs out the server is still inside the call.
-/

namespace MissionServer

/-- One `send`: what peers do before it, and the kernel's answer. -/
structure SendOutcome where
  peers : List PeerAct := []
  sbytes : Int
  deriving DecidableEq, Repr

/-- The ready events of the commanding client's slot. -/
structure ClientRevents where
  hupOrErr : Bool := false
  pollIn : Bool := false
  deriving DecidableEq, Repr

/-- What one iteration meets: what peers do before it, the answer of `poll`, and the answers of the
calls it leads to. `fails` is a failure other than `EINTR`. The serial port, like the FIFO, gives bytes
or fails. -/
structure Tick where
  peers : List PeerAct := []
  fails : Bool := false
  close : Bool := false
  client : ClientRevents := {}
  server : Bool := false
  serial : Bool := false
  userCmd : Bool := false
  recv : Int := 0
  writes : List Int := []
  accept : AcceptOutcome := .invalidSocket
  serialData : Option Bytes := none
  envs : Nat → GstEnv
  sends : List (List SendOutcome) := []
  fifo : Option Bytes := none
  stack : Stack := fun _ => 0

variable {ψ : Type}

/-! ### Forwarding -/

def gCacheSize : Nat := 1024

/-- The bytes a `recv` gets: at most what it asks for, and only what is there. -/
def recvData (h : History) (conn : Nat) (count : Int) : Bytes :=
  (unread h conn).take (min count.toNat gCacheSize)

/-- Both statics are local to the function: the commander it last served, and the failed reads since. -/
def handleCommandingClient (count : Int) (writes : List Int) (s : Server ψ) : Server ψ :=
  match s.gClients with
  | [] => s
  | client :: _ =>
      let s :=
        if s.lastCommander ≠ s.gCommandingClient then { s with lastCommander := s.gCommandingClient, tryout := 0 }
        else s
      let data := recvData s.history client.conn count
      let s := s.log [.received client.conn client.client data]
      if data = [] then
        let s' := { s with tryout := s.tryout + 1 }
        if s.tryout = 3 then (terminateClient s'.gClients.head? 0 s').1 else s'
      else
        match serialWrite data writes with
        | (port, .done) => s.log [.forwarded client.conn port]
        | (port, .failed) => s.log [.forwarded client.conn port, .writeFailed client.conn]
        | (port, .pending) => { s.log [.forwarded client.conn port] with halt := some .blocked }

/-! ### Broadcasting -/

section Broadcast

-- by default SIGPIPE is not ignored and ends the process
variable (sigpipeIgnored : Bool)

/-- One `send` of what is left of the chunk. On a connection that its peer has reset it raises
SIGPIPE. -/
def sendCall (data : Bytes) (client : ClientNode) (sent : Nat) (outcome : SendOutcome) (s : Server ψ) :
    Server ψ × Int :=
  let s := peerActs outcome.peers s
  if isReset s.history client.conn then
    let s := s.log [.sendFailed client.conn client.client]
    (if sigpipeIgnored then s else { s with halt := some .killed }, -1)
  else if outcome.sbytes < 0 then (s.log [.sendFailed client.conn client.client], -1)
  else
    let data := (data.drop sent).take outcome.sbytes.toNat
    (s.log [.sent client.conn client.client data], data.length)

/-- The walk over the list. `previous` is the position of the link that points to `current`; each entry
of `sends` serves one client. -/
def broadcast (data : Bytes) :
    List (List SendOutcome) → Option ClientNode → Nat → Server ψ → Server ψ
  | _, none, _, s => s
  | [], some _, _, s => { s with halt := some .blocked }
  | outcomes :: sends, some current, previous, s =>
      match PushLoop.push (sendCall sigpipeIgnored data current) data.length 0 outcomes s with
      | (s, .done) => broadcast data sends s.gClients[previous + 1]? (previous + 1) s
      | (s, .failed) =>
          if s.halt.isSome then s
          else
            let (s, next) := terminateClient (some current) previous s
            broadcast data sends next previous s
      | (s, .pending) => { s with halt := some .blocked }

variable (lib : MavlinkLib ψ)

/-- A message handler has run into a null pointer, or has ended the program. -/
def crashes (out : List MavOutput) : Bool := out.any fun o => o = .device .fault || o = .device .exit

def ownFrames (out : List MavOutput) : List KernelEvent :=
  out.filterMap fun
    | .frame frame => some (.own frame)
    | .device _ => none

/-- `read_mavlink_msg` inside the server. What the handlers do to devices stays with the devices. -/
def receiveChunk (envs : Nat → GstEnv) (data : Bytes) (s : Server ψ) : Server ψ :=
  let (receiver, out) := readMavlinkMsg lib envs data s.receiver
  let s := { s with receiver }.log (.chunk data :: ownFrames out)
  if crashes out then { s with halt := some .crashed } else s

def sendDataToClients (tick : Tick) (s : Server ψ) : Server ψ :=
  match serialRead gCacheSize tick.serialData with
  | none => s
  | some [] => s
  | some data =>
      (receiveChunk lib tick.envs data s).andThen fun s =>
        broadcast sigpipeIgnored data tick.sends s.gClients.head? 0 s

/-! ### The loop -/

def readUserCmdEvent (tick : Tick) (s : Server ψ) : Server ψ :=
  let fifo := tick.fifo.map (·.take (userCmdSize s.userCmdReceived))
  let (received, userCmd) := readUserCmd tick.stack fifo s.userCmdReceived
  let frames := userCmd.toList.flatMap (selectAction s.receiver.mav.fcuSysid)
  { s with userCmdReceived := received }.log (frames.map .own)

/-- The end of an iteration: the oldest client takes command where another one had it. -/
def promote (s : Server ψ) : Server ψ :=
  match s.gClients with
  | [] => s
  | client :: _ =>
      if s.gCommandingClient ≠ client.id then
        { s with clientFd := client.client, gCommandingClient := client.id }
      else s

def terminateClients (s : Server ψ) : Server ψ :=
  s.gClients.foldl (fun s _ => (terminateClient s.gClients.head? 0 s).1) s

def clientEvent (tick : Tick) (s : Server ψ) : Server ψ :=
  if tick.client.hupOrErr then (terminateClient s.gClients.head? 0 s).1
  else if tick.client.pollIn then handleCommandingClient tick.recv tick.writes s
  else s

def serverEvent (tick : Tick) (s : Server ψ) : Server ψ := if tick.server then acceptClient tick.accept s else s

def serialEvent (tick : Tick) (s : Server ψ) : Server ψ :=
  if tick.serial then sendDataToClients sigpipeIgnored lib tick s else s

def userCmdEvent (tick : Tick) (s : Server ψ) : Server ψ := if tick.userCmd then readUserCmdEvent tick s else s

/-- The server as `poll` returns. -/
def atPoll (tick : Tick) (s : Server ψ) : Server ψ :=
  let s := peerActs tick.peers s
  s.log [.polled s.clientFd]

/-- The first two events of the loop's body: a client's bytes, and a new client. -/
def untilSerial (tick : Tick) (s : Server ψ) : Server ψ := (clientEvent tick s).andThen (serverEvent tick)

/-- The body of the loop after `poll`. -/
def handleEvents (tick : Tick) (s : Server ψ) : Server ψ :=
  (((untilSerial tick s).andThen (serialEvent sigpipeIgnored lib tick)).andThen (userCmdEvent tick)).andThen promote

/-- One iteration of the main loop. A failed `poll` and a request to shut down leave it. -/
def mainLoop (s : Server ψ) (tick : Tick) : Server ψ :=
  s.andThen fun s =>
    let s := atPoll tick s
    if tick.fails || tick.close then { terminateClients s with halt := some .stopped }
    else handleEvents sigpipeIgnored lib tick s

/-- The server once the flight controller has answered. -/
def Server.start (receiver : Receiver ψ) : Server ψ := { receiver }

end Broadcast

end MissionServer
