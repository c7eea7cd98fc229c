import MissionServer.Config.Serial
import MissionServer.UartServer.UserCmd

/-!
# main.c

The options of the program, and the process that asks a running server for a tune. `getopt_long` comes as the
list of what it returns; what is printed is left out.
-/

namespace MissionServer

/-- A result of `getopt_long`, with `optarg`. After `-t` there is none, for the short options name `t` without an
argument. `other` is any result that the switch has no case for. -/
inductive Opt
  | help
  | port (optarg : String)
  | sendTune (optarg : Option String)
  | printRc
  | other
  deriving DecidableEq, Repr

/-- The locals of `main`. -/
structure MainArgs where
  commanderMode : Bool := false
  netPort : Option String := none
  cmdArg : Option String := none
  deriving DecidableEq, Repr

/-- The loop over the options; nothing where the program prints its usage and returns. -/
def readOptions : List Opt → MainArgs → Option MainArgs
  | [], args => some args
  | .help :: _, _ => none
  | .port optarg :: opts, args => readOptions opts { args with netPort := some optarg }
  | .sendTune optarg :: opts, args => readOptions opts { args with commanderMode := true, cmdArg := optarg }
  | .printRc :: opts, args => readOptions opts args
  | .other :: opts, args => readOptions opts args

/-- How the program goes on once it has read its options. -/
inductive MainMode
  | usage
  | commander (command : Option String)
  | server (netPort : Option String)
  deriving DecidableEq, Repr

def mainMode (opts : List Opt) : MainMode :=
  match readOptions opts {} with
  | none => .usage
  | some args => if args.commanderMode then .commander args.cmdArg else .server args.netPort

/-- The bytes of an `int` on a little-endian host. -/
def bytesLE32 (x : Int32) : Bytes := (List.range 4).map fun i => UInt8.ofNat (x.toBitVec.toNat / 2 ^ (8 * i))

/-- The local `cmd` of `run_commander`, of which only the type and the first argument are assigned. -/
def commanderCmd (stack : Stack) (command : String) : Stack :=
  (stack.store 0 (bytesLE32 playTuneCmd)).store 4 (bytesLE32 (Int32.ofInt (atoi command)))

inductive CommanderEnd
  | notRunning
  | crashed
  | sent (written : Bytes)
  deriving DecidableEq, Repr

/-- `run_commander`. `atoi` on the null pointer ends the process before it has written anything. -/
def runCommander (fifoOpens : Bool) (stack : Stack) (command : Option String) : CommanderEnd :=
  if !fifoOpens then .notRunning
  else
    match command with
    | none => .crashed
    | some command => .sent ((List.range sizeofMavlinkCmd).map fun (i : Nat) => commanderCmd stack command i)

end MissionServer
