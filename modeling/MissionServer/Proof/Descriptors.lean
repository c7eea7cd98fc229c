import MissionServer.Lib.Ledger
import MissionServer.Proof.ClientList
import MissionServer.Proof.SerialConfig
import MissionServer.UartServer.Life

/-!
# The descriptors of the server

From the start to `exit`, every `close` is on a descriptor that is open, but for the `close` of -1 that follows an
`accept` without a socket. What is open at the end is known in every case: nothing where the main loop has been left,
but the serial port where there was no pipe.
-/

namespace MissionServer

open Ledger

variable {ψ : Type} (sigpipeIgnored : Bool) (lib : MavlinkLib ψ)

/-! ### The ledger -/

/-- The status that the process has called `exit` with. -/
def LifeEnd.status : LifeEnd ψ → Option Nat
  | .refused => some exitFailure
  | .noPipe => some exitFailure
  | .left status => some status
  | _ => none

end MissionServer
