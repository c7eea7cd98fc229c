import Mathlib.Data.Nat.Init
import MissionServer.MavlinkPublisher
import MissionServer.Serial

/-!
# uart_server.c: user commands

`read_user_cmd` and the record it reads from the command FIFO.
-/

namespace MissionServer

/-- `mavlink_cmd`. -/
structure MavlinkCmd where
  type : Int32
  arg : Fin 4 → Int32

/-- `user_cmd.arg[0]`. -/
def MavlinkCmd.arg0 (userCmd : MavlinkCmd) : Int32 := userCmd.arg 0

def sizeofMavlinkCmd : Nat := 20

def playTuneCmd : Int32 := 0

/-- The memory around the local `user_cmd`, by the distance from its first byte. Nothing initialises
it, so each call finds whatever the stack holds. -/
abbrev Stack := Int → UInt8

/-- Bytes written to memory from an offset on. -/
def Stack.store (stack : Stack) (off : Int) (bytes : Bytes) : Stack := fun i =>
  if off ≤ i ∧ i < off + bytes.length then bytes.getD (i - off).toNat 0 else stack i

/-- The `int` at an offset, on a little-endian host. -/
def Stack.int (stack : Stack) (off : Int) : Int32 :=
  Int32.ofBitVec <| BitVec.ofNat 32 <|
    (stack off).toNat + 256 * ((stack (off + 1)).toNat +
      256 * ((stack (off + 2)).toNat + 256 * (stack (off + 3)).toNat))

def Stack.userCmd (stack : Stack) : MavlinkCmd where
  type := stack.int 0
  arg i := stack.int (4 + 4 * i.val)

/-- `sizeof(mavlink_cmd) - received`, which is computed as a `size_t`. -/
def userCmdSize (received : Int) : Nat := toSizeT (sizeofMavlinkCmd - received)

/-- One call with the static counter at `received`. The FIFO gives bytes, or nothing and -1. The
command, if any, is the one that reaches the `switch`. -/
def readUserCmd (stack : Stack) (outcome : Option Bytes) (received : Int) : Int × Option MavlinkCmd :=
  let (stack, received) :=
    match outcome with
    | some bytes => (stack.store received bytes, received + bytes.length)
    | none => (stack, received - 1)
  if received = sizeofMavlinkCmd then (0, some stack.userCmd) else (received, none)

/-- The `switch` on the type of a command. -/
def selectAction (fcuSysid : UInt8) (userCmd : MavlinkCmd) : List MavlinkFrame :=
  if userCmd.type = playTuneCmd then mavlinkSendPlayTune fcuSysid userCmd.arg0.toInt else []

end MissionServer
