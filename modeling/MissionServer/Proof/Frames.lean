import MissionServer.Lib.Blocks
import MissionServer.Proof.Forwarding

/-!
# Two threads on one port

The lock covers one `serial_write`. What the server's thread sends for itself is one frame a write, and so
are the heartbeats of `mavlink_tx_thread`; what it forwards for a client is whatever `recv` got.
-/

namespace MissionServer

variable {ψ : Type}

/-! ### The port -/

/-- Who has the lock: the server's thread for a client or for itself, or `mavlink_tx_thread`. -/
inductive Writer
  | client (conn : Nat)
  | server
  | txThread
  deriving DecidableEq, Repr

/-- One `serial_write` under the lock. -/
abbrev LockedWrite := Writer × Bytes

section Port

variable (lib : MavlinkLib ψ)

/-- The writes of the server's thread. -/
def serverWrites (h : History) : List LockedWrite :=
  h.filterMap fun
    | .forwarded conn data => some (.client conn, data)
    | .own frame => some (.server, lib.toSendBuffer frame)
    | _ => none

/-- An order in which the two threads may take the lock. -/
inductive Interleaving : List LockedWrite → List LockedWrite → Prop
  | start : Interleaving [] []
  | server {writes port : List LockedWrite} (w : LockedWrite) (h : Interleaving writes port) :
      Interleaving (writes ++ [w]) (port ++ [w])
  | heartbeat {writes port : List LockedWrite} (fcuSysid : UInt8) {frame : MavlinkFrame}
      (hframe : frame ∈ mavlinkTxThread fcuSysid) (h : Interleaving writes port) :
      Interleaving writes (port ++ [(.txThread, lib.toSendBuffer frame)])

/-- On the port the frames of a client's stream and every frame of the server's own are in one block
each. -/
structure FramesWhole (conn : Nat) (frames : List Bytes) (port : List LockedWrite) : Prop where
  forwarded : Blocks.FramesContiguous (.client conn) frames (Blocks.line port)
  own : ∀ pre w post, port = pre ++ w :: post → w.1 = .server ∨ w.1 = .txThread →
    ∃ frame, w.2 = lib.toSendBuffer frame ∧
      Blocks.line port = Blocks.line pre ++ (lib.toSendBuffer frame).map (Prod.mk w.1) ++ Blocks.line post

theorem streamOf_serverWrites (conn : Nat) (h : History) :
    Blocks.streamOf (.client conn) (Blocks.line (serverWrites lib h)) = forwarded conn h := by
  induction h with
  | nil => rfl
  | cons e h ih =>
      cases e with
      | forwarded conn' data =>
          have hcons : serverWrites lib (.forwarded conn' data :: h) =
              (.client conn', data) :: serverWrites lib h := rfl
          rw [hcons]
          by_cases heq : conn' = conn
          · rw [Blocks.streamOf_line_cons_self (by rw [heq]), ih]
            simp [forwarded, heq]
          · rw [Blocks.streamOf_line_cons_of_ne (by simpa using heq), ih]
            simp [forwarded, heq]
      | own frame =>
          have hcons : serverWrites lib (.own frame :: h) =
              (.server, lib.toSendBuffer frame) :: serverWrites lib h := rfl
          rw [hcons, Blocks.streamOf_line_cons_of_ne (by simp)]
          exact ih
      | _ => exact ih

variable {lib}

theorem Interleaving.streamOf (conn : Nat) {writes port : List LockedWrite} (h : Interleaving lib writes port) :
    Blocks.streamOf (.client conn) (Blocks.line port) = Blocks.streamOf (.client conn) (Blocks.line writes) := by
  induction h with
  | start => rfl
  | server w h ih => rw [Blocks.line_append, Blocks.line_append, Blocks.streamOf_append, Blocks.streamOf_append, ih]
  | heartbeat fcuSysid hframe h ih =>
      rw [Blocks.line_append, Blocks.streamOf_append, ih, Blocks.streamOf_line_cons_of_ne (by simp)]
      exact List.append_nil _

theorem Interleaving.own {writes port : List LockedWrite} (h : Interleaving lib writes port)
    (hwrites : ∀ w ∈ writes, w.1 ≠ .txThread ∧ (w.1 = .server → ∃ frame, w.2 = lib.toSendBuffer frame)) :
    ∀ w ∈ port, w.1 = .server ∨ w.1 = .txThread → ∃ frame, w.2 = lib.toSendBuffer frame := by
  induction h with
  | start => exact fun _ hw => absurd hw List.not_mem_nil
  | server w h ih =>
      intro w' hw' hown
      obtain hw' | hw' := List.mem_append.mp hw'
      · exact ih (fun w hw => hwrites w (List.mem_append_left _ hw)) w' hw' hown
      · obtain rfl := List.mem_singleton.mp hw'
        obtain ⟨hnot, hserver⟩ := hwrites w' (List.mem_append_right _ List.mem_cons_self)
        exact hserver (hown.resolve_right hnot)
  | heartbeat fcuSysid hframe h ih =>
      intro w hw hown
      obtain hw | hw := List.mem_append.mp hw
      · exact ih hwrites w hw hown
      · obtain rfl := List.mem_singleton.mp hw
        exact ⟨_, rfl⟩

theorem mem_serverWrites {h : History} {w : LockedWrite} (hw : w ∈ serverWrites lib h) :
    w.1 ≠ .txThread ∧ (w.1 = .server → ∃ frame, w.2 = lib.toSendBuffer frame) := by
  obtain ⟨e, -, he⟩ := List.mem_filterMap.mp hw
  cases e with
  | forwarded conn data =>
      obtain rfl := Option.some.inj he
      exact ⟨nofun, nofun⟩
  | own frame =>
      obtain rfl := Option.some.inj he
      exact ⟨nofun, fun _ => ⟨frame, rfl⟩⟩
  | _ => cases he

end Port

/-! ### Frames -/

/-- In every run, at every moment, and however the threads take the lock: where the client's stream is
made of frames and its writes succeed, the frames stay whole exactly when everyone else writes between
frames, or once nothing more of the client's stream is written. -/
theorem frames_whole_iff (sigpipeIgnored : Bool) (lib : MavlinkLib ψ) (receiver : Receiver ψ) (ticks : List Tick)
    (conn : Nat) (frames : List Bytes) (writes port : List LockedWrite)
    (hframes : arrived conn (Machine.run (mainLoop sigpipeIgnored lib) (Server.start receiver) ticks).history <+:
      frames.flatten)
    (hsucceed : .writeFailed conn ∉ (Machine.run (mainLoop sigpipeIgnored lib) (Server.start receiver) ticks).history)
    (hwrites : writes <+:
      serverWrites lib (Machine.run (mainLoop sigpipeIgnored lib) (Server.start receiver) ticks).history)
    (hport : Interleaving lib writes port) :
    FramesWhole lib conn frames port ↔
      Blocks.OthersWrite (.client conn) (fun sofar after => Blocks.AtBoundary frames sofar ∨ after = []) port := by
  obtain ⟨-, hforwards⟩ := forwards_run sigpipeIgnored lib receiver ticks
  have hstream : Blocks.streamOf (.client conn) (Blocks.line port) <+: frames.flatten := by
    rw [hport.streamOf]
    obtain ⟨later, hlater⟩ := hwrites
    have hforwarded := streamOf_serverWrites lib conn
      (Machine.run (mainLoop sigpipeIgnored lib) (Server.start receiver) ticks).history
    rw [← hlater, Blocks.line_append, Blocks.streamOf_append] at hforwarded
    have hpart := hforwards.isPrefix conn hsucceed
    rw [← hforwarded] at hpart
    exact (((List.prefix_append _ _).trans hpart).trans (hforwards.taken conn)).trans hframes
  rw [← Blocks.framesContiguous_iff hstream]
  refine ⟨fun h => h.forwarded, fun h => ⟨h, fun pre w post heq hown => ?_⟩⟩
  obtain ⟨frame, hframe⟩ := hport.own (fun w hw => mem_serverWrites (hwrites.subset hw)) w (by simp [heq]) hown
  refine ⟨frame, hframe, ?_⟩
  rw [heq, Blocks.line_append, Blocks.line_cons, hframe, List.append_assoc]

/-- A HEARTBEAT of a ground station. -/
def stationHeartbeat : Bytes :=
  [0xfe, 0x09, 0x00, 0xff, 0xbe, 0x00, 0x00, 0x00, 0x00, 0x00, 0x06, 0x08, 0x00, 0x00, 0x03, 0x28, 0x42]

/-- What the camera's HEARTBEAT is packed into, for the system number 1. -/
def cameraHeartbeat : Bytes :=
  [0xfd, 0x09, 0x00, 0x00, 0x00, 0x01, 0x64, 0x00, 0x00, 0x00, 0x00, 0x00, 0x00, 0x00, 0x1e, 0x08, 0x00, 0x03, 0x03,
   0x64, 0x04]

/-- A library that packs the camera's HEARTBEAT. -/
def heartbeatLib : MavlinkLib Unit :=
  { silentLib with toSendBuffer := fun frame => if frame ∈ mavlinkTxThread 1 then cameraHeartbeat else [] }

/-- The ground station's HEARTBEAT comes in two pieces. -/
def twoPieces : List Tick :=
  [{ idleTick with server := true, accept := .socket 7 true 0x7f000001 50000 },
   { idleTick with peers := [.write 0 stationHeartbeat], client := { pollIn := true }, recv := 10, writes := [10] },
   { idleTick with client := { pollIn := true }, recv := 1024, writes := [7] }]

def splitRun : Server Unit := Machine.run (mainLoop false heartbeatLib) (Server.start ⟨(), {}⟩) twoPieces

def firstPiece : LockedWrite := (.client 0, stationHeartbeat.take 10)
def secondPiece : LockedWrite := (.client 0, stationHeartbeat.drop 10)
def heartbeat : LockedWrite := (.txThread, cameraHeartbeat)

theorem splitRun_writes : serverWrites heartbeatLib splitRun.history = [firstPiece, secondPiece] := by
  decide +kernel

theorem Interleaving.heartbeat_next {writes port : List LockedWrite} (h : Interleaving heartbeatLib writes port) :
    Interleaving heartbeatLib writes (port ++ [MissionServer.heartbeat]) := by
  have hpack : ∀ frame ∈ mavlinkTxThread 1, heartbeatLib.toSendBuffer frame = cameraHeartbeat :=
    fun frame hframe => if_pos hframe
  have hnext := Interleaving.heartbeat 1 List.mem_cons_self h
  rwa [hpack _ List.mem_cons_self] at hnext

/-- Both pieces, and then a heartbeat. -/
theorem frames_whole_iff_heartbeatAfter :
    FramesWhole heartbeatLib 0 [stationHeartbeat] [firstPiece, secondPiece, heartbeat] ↔
      Blocks.OthersWrite (.client 0) (fun sofar after => Blocks.AtBoundary [stationHeartbeat] sofar ∨ after = [])
        [firstPiece, secondPiece, heartbeat] := by
  have hwrites : [firstPiece, secondPiece] <+: serverWrites heartbeatLib splitRun.history := by rw [splitRun_writes]
  have hport : Interleaving heartbeatLib [firstPiece, secondPiece] [firstPiece, secondPiece, heartbeat] :=
    Interleaving.heartbeat_next (.server secondPiece (.server firstPiece .start))
  exact frames_whole_iff false heartbeatLib ⟨(), {}⟩ twoPieces 0 [stationHeartbeat] _ _ (by decide +kernel)
    (by decide +kernel) hwrites hport

/-- A heartbeat between the two pieces. -/
theorem heartbeat_cuts_frame :
    arrived 0 splitRun.history = stationHeartbeat ∧ .writeFailed 0 ∉ splitRun.history ∧
      Interleaving heartbeatLib (serverWrites heartbeatLib splitRun.history) [firstPiece, heartbeat, secondPiece] ∧
      ¬ FramesWhole heartbeatLib 0 [stationHeartbeat] [firstPiece, heartbeat, secondPiece] := by
  refine ⟨by decide +kernel, by decide +kernel, ?_, fun h => ?_⟩
  · rw [splitRun_writes]
    exact .server secondPiece (Interleaving.heartbeat_next (.server firstPiece .start))
  · have hblock := h.forwarded [] stationHeartbeat [] rfl (Nat.zero_le _)
    have hcut := Blocks.others_of_contiguous hblock [firstPiece] heartbeat [secondPiece] rfl (by decide) (by decide)
    revert hcut
    decide

end MissionServer
