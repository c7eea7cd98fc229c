import MissionServer.Lib.Transducer
import MissionServer.Proof.Unrecorded

/-!
# Answers follow the stream

What the server answers to the autopilot's bytes depends on the bytes alone: not on the reads that they come in, not on
the read with which the connection was established, not on the clients, the command FIFO or the port, and not on the
clock or on what the recorders' pipelines do meanwhile.
-/

namespace MissionServer

variable {ψ : Type} (sigpipeIgnored : Bool) (lib : MavlinkLib ψ)

/-! ### What has been read -/

/-- What is sent as the camera before the process ends. -/
def answers : List ServerAction → List MavlinkFrame
  | [] => []
  | .send frame :: actions => if frame.componentId = mavCompIdCamera then frame :: answers actions else answers actions
  | .ends :: _ => []
  | .assign _ :: actions => answers actions
  | .forward _ :: actions => answers actions

variable {lib}

end MissionServer
