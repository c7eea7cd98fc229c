import MissionServer.Proof.AbsentCamera
import MissionServer.Proof.Delivery

/-!
# Clients that leave

Two runs with the same arrivals and the same serial input serve a client that is in both lists alike,
whatever the other clients do, as long as the process lives. Without a camera nothing ignores SIGPIPE,
and the first `send` on a connection that its peer has reset ends the process.
-/

namespace MissionServer

variable {ψ : Type}

/-! ### What ends the process -/

/-- A `send` is made only on a connection that its peer has not reset. -/
def SendPermitted (h : History) : KernelEvent → Prop
  | .sent conn _ _ => isReset h conn = false
  | .sendFailed conn _ => isReset h conn = false
  | _ => True

/-- Without a camera no handler ends the process, and SIGPIPE does with the first `send` that is not
permitted. -/
structure Server.Exposed (s : Server ψ) : Prop where
  noCamera : devicePresent (s.receiver.mav.devs 0) = false
  handled : s.halt ≠ some .crashed
  killed : s.halt = some .killed ↔ ¬ History.Permitted SendPermitted s.history

section Steps

variable {lib : MavlinkLib ψ} {s s' : Server ψ}

theorem Server.Exposed.permitted (h : s.Exposed) (hlive : s.halt = none) :
    History.Permitted SendPermitted s.history := by
  by_contra hnot
  rw [h.killed.mpr hnot] at hlive
  cases hlive

theorem Server.Exposed.keep (h : s.Exposed) (hdevs : s'.receiver.mav.devs = s.receiver.mav.devs)
    (hperm : History.Permitted SendPermitted s'.history) (hhalt : s'.halt ≠ some .crashed ∧ s'.halt ≠ some .killed) :
    s'.Exposed :=
  ⟨hdevs ▸ h.noCamera, hhalt.1, iff_of_false hhalt.2 (not_not.mpr hperm)⟩

theorem sendPermitted_peerAct (h : History) (act : PeerAct) : ∀ e ∈ act.events h, ∀ pre, SendPermitted pre e := by
  obtain heq | ⟨conn, data, -, heq⟩ | ⟨conn, -, heq⟩ := act.events_cases h
  all_goals simp [heq, SendPermitted]

theorem Server.Exposed.quietStep (hlive : s.halt = none) (h : s.Exposed) (hstep : QuietStep s s') : s'.Exposed := by
  have hgoesOn : s.halt ≠ some .crashed ∧ s.halt ≠ some .killed := by simp [hlive]
  have hlog {s' : Server ψ} {events : History} (hhistory : s'.history = s.history ++ events)
      (hreceiver : s'.receiver = s.receiver) (hhalt : s'.halt = s.halt)
      (halways : ∀ e ∈ events, ∀ pre, SendPermitted pre e) : s'.Exposed := by
    refine h.keep (by rw [hreceiver]) ?_ (hhalt ▸ hgoesOn)
    rw [hhistory]
    exact (h.permitted hlive).append_always halways
  have hsame {s' : Server ψ} (hhistory : s'.history = s.history) (hreceiver : s'.receiver = s.receiver)
      (hhalt : s'.halt = s.halt) : s'.Exposed :=
    hlog (hhistory.trans (List.append_nil _).symm) hreceiver hhalt (by simp)
  cases hstep with
  | peer act => exact hlog rfl rfl rfl (sendPermitted_peerAct s.history act)
  | polled => exact hlog rfl rfl rfl (by simp [SendPermitted])
  | notAccepted => exact hlog rfl rfl rfl (by simp [SendPermitted])
  | rejected hpos hfree => exact hlog rfl rfl rfl (by simp [SendPermitted])
  | linked addr port hpos hfree => exact hlog rfl rfl rfl (by simp [SendPermitted])
  | terminated hclients => exact hlog rfl rfl rfl (by simp [SendPermitted])
  | commander => exact hsame rfl rfl rfl
  | recvFailed hclients => exact hlog rfl rfl rfl (by simp [SendPermitted])
  | @served client rest hclients count hdata writes =>
      obtain ⟨hhistory, hhalt, -, hreceiver⟩ := s.served_spec client (recvData s.history client.conn count) writes
      refine h.keep (by rw [hreceiver]) ?_ ?_
      · rw [hhistory]
        refine (h.permitted hlive).append_always ?_
        split_ifs <;> simp [SendPermitted]
      · rw [hhalt, hlive]
        split_ifs <;> simp
  | userCmd received frames => exact hlog rfl rfl rfl (by simp [SendPermitted])
  | promoted =>
      obtain ⟨hhistory, -, hreceiver, hhalt⟩ := promote_spec s
      exact hsame hhistory hreceiver hhalt
  | halted hhalt => exact h.keep rfl (h.permitted hlive) (by obtain rfl | rfl := hhalt <;> simp)

theorem crashes_eq_false {out : List MavOutput} (hout : ∀ output, .device output ∉ out) : crashes out = false := by
  rw [crashes, List.any_eq_false]
  intro o ho
  simp only [Bool.or_eq_true, decide_eq_true_eq, not_or]
  exact ⟨fun heq => hout _ (heq ▸ ho), fun heq => hout _ (heq ▸ ho)⟩

theorem Server.Exposed.step (hlive : s.halt = none) (h : s.Exposed) (hstep : Server.Step false lib s s') :
    s'.Exposed := by
  have hperm := h.permitted hlive
  have hgoesOn : s.halt ≠ some .crashed ∧ s.halt ≠ some .killed := by simp [hlive]
  cases hstep with
  | quiet hquiet => exact h.quietStep hlive hquiet
  | chunk envs data =>
      obtain ⟨-, hreceiver, frames, hhistory⟩ := receiveChunk_spec lib envs data s
      obtain ⟨hdevs, hout⟩ := readMavlinkMsg_inert lib data envs s.receiver h.noCamera
      have hhalt : (receiveChunk lib envs data s).halt = s.halt := by
        simp only [receiveChunk, crashes_eq_false hout, Bool.false_eq_true, if_false, Server.log_halt]
      refine h.keep (by rw [hreceiver, hdevs]) ?_ (hhalt ▸ hgoesOn)
      rw [hhistory]
      exact hperm.append_always (by simp [SendPermitted])
  | sent hmem hreset data => exact h.keep rfl (History.permitted_concat.mpr ⟨hperm, hreset⟩) hgoesOn
  | sendFailed hmem hpipe =>
      have hreset := hpipe.resolve_left Bool.false_ne_true
      exact h.keep rfl (History.permitted_concat.mpr ⟨hperm, hreset⟩) hgoesOn
  | @killed client hmem hpipe hreset =>
      refine ⟨h.noCamera, by simp, iff_of_true rfl fun hall => ?_⟩
      have hnot : isReset s.history client.conn = false := (History.permitted_concat.mp hall).2
      rw [hreset] at hnot
      cases hnot

end Steps

/-! ### Two runs -/

/-- What a run is given whatever its clients do: the arrivals, and the serial input. -/
inductive Input
  | arrival (conn : Nat)
  | chunk (data : Bytes)
  deriving DecidableEq, Repr

def inputs (h : History) : List Input :=
  h.filterMap fun
    | .accepted conn _ => some (.arrival conn)
    | .chunk data => some (.chunk data)
    | _ => none

def inputChunks (input : List Input) : Bytes :=
  input.flatMap fun
    | .chunk data => data
    | _ => []

def inputSince (conn : Nat) : List Input → Bytes
  | [] => []
  | .arrival conn' :: input => if conn' = conn then inputChunks input else inputSince conn input
  | .chunk _ :: input => inputSince conn input

theorem chunks_eq_inputChunks (h : History) : chunks h = inputChunks (inputs h) := by
  induction h with
  | nil => rfl
  | cons e h ih =>
      cases e with
      | chunk data => exact congrArg (data ++ ·) ih
      | _ => exact ih

theorem chunksSince_eq_inputSince (conn : Nat) (h : History) : chunksSince conn h = inputSince conn (inputs h) := by
  induction h with
  | nil => rfl
  | cons e h ih =>
      cases e with
      | accepted conn' fd => exact if_congr Iff.rfl (chunks_eq_inputChunks h) ih
      | _ => exact ih

/-- Every call has returned, and no one has asked the server to shut down. -/
def Server.Undisturbed (s : Server ψ) : Prop := s.halt ≠ some .blocked ∧ s.halt ≠ some .stopped

/-- Both servers go on, and who is connected to both has got the same bytes from both. -/
structure Isolated (s s' : Server ψ) : Prop where
  goesOn : s.halt = none
  goesOn' : s'.halt = none
  same : ∀ client ∈ s.gClients, ∀ client' ∈ s'.gClients, client.conn = client'.conn →
    sentTo client.conn s.history = sentTo client'.conn s'.history

theorem exposed_run (lib : MavlinkLib ψ) {receiver : Receiver ψ}
    (hnoCamera : devicePresent (receiver.mav.devs 0) = false) (ticks : List Tick) :
    (Machine.run (mainLoop false lib) (Server.start receiver) ticks).Exposed := by
  refine (run_mainLoop_invariant (I := Server.Exposed) (fun s s' _ hlive hstep h => h.step hlive hstep) ?_ ticks).2
  exact ⟨hnoCamera, nofun, iff_of_false nofun (not_not.mpr History.permitted_nil)⟩

theorem Server.Exposed.live_iff {s : Server ψ} (h : s.Exposed) :
    s.halt = none ↔ s.Undisturbed ∧ History.Permitted SendPermitted s.history := by
  constructor
  · intro hlive
    exact ⟨by simp [Server.Undisturbed, hlive], h.permitted hlive⟩
  · intro h'
    obtain ⟨⟨hblocked, hstopped⟩, hperm⟩ := h'
    have hkilled : s.halt ≠ some .killed := fun heq => h.killed.mp heq hperm
    cases hhalt : s.halt with
    | none => rfl
    | some halt =>
        rw [hhalt] at hblocked hstopped hkilled
        have hhandled := h.handled
        rw [hhalt] at hhandled
        cases halt <;> simp at hblocked hstopped hkilled hhandled

/-- Two runs with the same arrivals and the same serial input, whatever else their clients do. -/
theorem isolated_iff (lib : MavlinkLib ψ) (receiver : Receiver ψ)
    (hnoCamera : devicePresent (receiver.mav.devs 0) = false) (ticks ticks' : List Tick)
    (hinputs : inputs (Machine.run (mainLoop false lib) (Server.start receiver) ticks).history =
      inputs (Machine.run (mainLoop false lib) (Server.start receiver) ticks').history) :
    let s := Machine.run (mainLoop false lib) (Server.start receiver) ticks
    let s' := Machine.run (mainLoop false lib) (Server.start receiver) ticks'
    Isolated s s' ↔
      (s.Undisturbed ∧ History.Permitted SendPermitted s.history) ∧
      (s'.Undisturbed ∧ History.Permitted SendPermitted s'.history) := by
  intro s s'
  rw [← (exposed_run lib hnoCamera ticks).live_iff, ← (exposed_run lib hnoCamera ticks').live_iff]
  constructor
  · exact fun h => ⟨h.goesOn, h.goesOn'⟩
  · intro hboth
    obtain ⟨hlive, hlive'⟩ := hboth
    refine ⟨hlive, hlive', fun client hmem client' hmem' hconn => ?_⟩
    rw [(delivered_run false lib receiver ticks).2.whole hlive client hmem,
      (delivered_run false lib receiver ticks').2.whole hlive' client' hmem', chunksSince_eq_inputSince,
      chunksSince_eq_inputSince, hconn]
    exact congrArg (inputSince client'.conn) hinputs

/-- One byte from the flight controller, which every `send` takes. -/
def byteTick (byte : UInt8) : Tick :=
  { idleTick with serial := true, serialData := some [byte], sends := [[{ sbytes := 1 }], [{ sbytes := 1 }]] }

/-- Two clients arrive, then two bytes, the second in an iteration before which `peers` has happened. -/
def twoByteTicks (peers : List PeerAct) (client : ClientRevents) : List Tick :=
  [{ idleTick with server := true, accept := .socket 7 true 0x7f000001 50000 },
   { idleTick with server := true, accept := .socket 8 true 0x7f000001 50001 },
   byteTick 0x2a, { byteTick 0x2b with peers, client }]

def twoByteRun (peers : List PeerAct) (client : ClientRevents) : Server Unit :=
  Machine.run (mainLoop false silentLib) (Server.start ⟨(), {}⟩) (twoByteTicks peers client)

/-- The commanding client resets its connection, and `poll` reports it. -/
theorem isolated_iff_hangUp :
    Isolated (twoByteRun [] {}) (twoByteRun [.reset 0] { hupOrErr := true }) ↔
      ((twoByteRun [] {}).Undisturbed ∧ History.Permitted SendPermitted (twoByteRun [] {}).history) ∧
      ((twoByteRun [.reset 0] { hupOrErr := true }).Undisturbed ∧
        History.Permitted SendPermitted (twoByteRun [.reset 0] { hupOrErr := true }).history) := by
  have hinputs : inputs (twoByteRun [] {}).history = inputs (twoByteRun [.reset 0] { hupOrErr := true }).history := by
    decide +kernel
  exact isolated_iff silentLib ⟨(), {}⟩ (by decide) (twoByteTicks [] {})
    (twoByteTicks [.reset 0] { hupOrErr := true }) hinputs

/-- A waiting client has closed its connection in good order. The first byte is sent to it, and its system answers with
a reset; the second byte ends the process. -/
theorem reset_ends_process :
    inputs (twoByteRun [] {}).history = inputs (twoByteRun [.reset 1] {}).history ∧
      (twoByteRun [] {}).halt = none ∧ (twoByteRun [.reset 1] {}).halt = some .killed ∧
      ¬ Isolated (twoByteRun [] {}) (twoByteRun [.reset 1] {}) := by
  have hkilled : (twoByteRun [.reset 1] {}).halt = some .killed := by decide +kernel
  refine ⟨by decide +kernel, by decide +kernel, hkilled, fun h => ?_⟩
  have hlive := h.goesOn'
  rw [hkilled] at hlive
  cases hlive

end MissionServer
