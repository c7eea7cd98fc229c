import MissionServer.Config.Serial

/-!
# system.c

The file in which a server leaves its process number. It holds a text, or there is no such file; where a function
ends the process there is no result.
-/

namespace MissionServer

/-- `fgets` on a file at its beginning: a line, or as much of it as fits in the buffer. -/
def fgets (size : Nat) (text : List Char) : Option (List Char) :=
  if text = [] then none
  else
    let line := text.takeWhile (· ≠ '\n') ++ (text.dropWhile (· ≠ '\n')).take 1
    some (line.take (size - 1))

/-- `create_pidfile`; `opens` tells whether the file can be opened for writing. -/
def createPidfile (opens : Bool) (pid : Int32) (_file : Option String) : Option (Option String) :=
  if opens then some (some (toString pid.toInt)) else none

/-- `read_pidfile`. -/
def readPidfile (file : Option String) : Option Int :=
  match file with
  | none => none
  | some text => (fgets (32 - 1) text.toList).map fun buff => atoi (String.ofList buff)

/-- `delete_pidfile`. -/
def deletePidfile (_file : Option String) : Option String := none

/-- `send_signal` of uart_server.c: the process and the signal that `kill` is called with. -/
def sendSignal (signo : Int) (file : Option String) : Option (Int × Int) := (readPidfile file).map (·, signo)

end MissionServer
