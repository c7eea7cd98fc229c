import MissionServer.Lib.Machine
import MissionServer.UartServer.Start
import MissionServer.UartServer.Threads

/-!
# uart_server.c: the whole of run_uart_server

From its arguments to `exit`. The calls that the start, the main loop and the end make are put one after the other.
-/

namespace MissionServer

/-- How far the server has come. It is `connecting` until the flight controller has answered, and where a handler
ends the process before. -/
inductive LifeEnd (ψ : Type)
  | refused
  | noPipe
  | connecting
  | serving (s : Server ψ)
  | left (status : Nat)

variable {ψ : Type} (sigpipeIgnored : Bool) (lib : MavlinkLib ψ)

end MissionServer
