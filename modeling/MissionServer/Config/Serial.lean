import MissionServer.Serial

/-!
# config.c: the serial port

`load_serial_configs` reads `serial.yaml` through libyaml's event interface and checks what it has
read. The parser is third-party code and appears as the list of events it delivers; where the list ends
early, `yaml_parser_parse` has failed. `exit(1)` is `none`.
-/

namespace MissionServer

/-- A libyaml event as the loader tells them apart. A scalar carries its `char *` text. -/
inductive YamlEvent
  | scalar (value : String)
  | streamEnd
  | other
  deriving DecidableEq, Repr

/-! ### atoi -/

/-- `isspace` of the C locale. -/
def isSpace (c : Char) : Bool := c = ' ' || ('\t' ≤ c && c ≤ '\r')

/-- The digits at the front of a text, read in base 10. -/
def leadingNat (cs : List Char) : Nat :=
  (cs.takeWhile Char.isDigit).foldl (fun n c => 10 * n + (c.toNat - '0'.toNat)) 0

/-- `strtol` in base 10, which stops at the first other character and saturates at the bounds of
`long`. -/
def strtol (text : String) : Int :=
  let cs := text.toList.dropWhile isSpace
  let value : Int :=
    match cs with
    | '-' :: cs => -leadingNat cs
    | '+' :: cs => leadingNat cs
    | cs => leadingNat cs
  max (-2 ^ 63) (min (2 ^ 63 - 1) value)

/-- `atoi` keeps the low 32 bits of what `strtol` returns. -/
def atoi (text : String) : Int := (strtol text).bmod (2 ^ 32)

/-! ### The loader -/

/-- `serial_config`, a zeroed static. -/
structure SerialCfg where
  port : Option String := none
  baudrate : Int := 0
  parity : SerialParity := .none
  dataBits : Int := 0
  stopBits : SerialStopBits := .one
  deriving DecidableEq, Repr

/-- The static and the two locals of `load_serial_configs`. -/
structure SerialLoad where
  serialCfg : SerialCfg := {}
  parity : String := ""
  stopBits : String := ""
  deriving DecidableEq, Repr

/-- The chain of `READ_PARAM`s on a key whose value has been read. -/
def readParam (load : SerialLoad) (key value : String) : Option SerialLoad :=
  if key = "port" then some { load with serialCfg.port := some value }
  else if key = "baudrate" then some { load with serialCfg.baudrate := atoi value }
  else if key = "parity" then some { load with parity := value }
  else if key = "data-bits" then some { load with serialCfg.dataBits := atoi value }
  else if key = "stop-bits" then some { load with stopBits := value }
  else none

/-- The loop over the events. A scalar is a key, and the event after it must be its value. -/
def readParams : List YamlEvent → SerialLoad → Option SerialLoad
  | [], _ => none
  | .streamEnd :: _, load => some load
  | .other :: events, load => readParams events load
  | .scalar key :: .scalar value :: events, load =>
      match readParam load key value with
      | some load => readParams events load
      | none => none
  | .scalar _ :: _, _ => none

def parityOfText (parity : String) : Option SerialParity :=
  if parity = "N" then some .none
  else if parity = "O" then some .odd
  else if parity = "E" then some .even
  else if parity = "M" then some .mark
  else if parity = "S" then some .space
  else none

/-- Any other text prints "Stop bits must be either empty or one of 1, 1.5, or 2", and nothing stops:
the static keeps its value. -/
def stopBitsOfText (stopBits : String) : Option SerialStopBits :=
  if stopBits = "1.5" then some .oneHalf
  else if stopBits = "1" then some .one
  else if stopBits = "2" then some .two
  else none

def checkParams (load : SerialLoad) : Option SerialCfg := do
  let parity ← parityOfText load.parity
  if load.serialCfg.dataBits < 5 ∨ load.serialCfg.dataBits > 8 then none
  else
    some { load.serialCfg with
      parity, stopBits := (stopBitsOfText load.stopBits).getD load.serialCfg.stopBits }

/-- The static keeps what the file does not state; it is zeroed before the first load. -/
def loadSerialConfigs (events : List YamlEvent) (serialCfg : SerialCfg) : Option SerialCfg :=
  (readParams events { serialCfg }).bind checkParams

/-- `get_serial_port_config`. -/
def getSerialPortConfig (serialCfg : SerialCfg) : Option String × SerialConfig :=
  (serialCfg.port,
    { baudrate := UInt32.ofInt serialCfg.baudrate, parity := serialCfg.parity, dataBits := serialCfg.dataBits,
      stopBits := serialCfg.stopBits })

def serialTimeout : Int := 1000

/-- From the file to the port, as `main` and `run_uart_server` do it. -/
def openConfiguredPort (events : List YamlEvent) (os : OpenOutcome) : Option (Int × List PortCall) :=
  (loadSerialConfigs events {}).map fun serialCfg =>
    let (port, cfg) := getSerialPortConfig serialCfg
    serialOpen port cfg serialTimeout os

end MissionServer
