import MissionServer.Serial

/-!
# The calls of serial_write

The loop with a log: where in the buffer each `write` starts, how much it asks for and what it returns. The
bytes on the port are the pieces that these calls have taken, one behind the other.
-/

namespace MissionServer

structure WriteCall where
  offset : Nat
  asked : Nat
  result : Int
  deriving DecidableEq, Repr

structure WriteLog where
  port : Bytes := []
  calls : List WriteCall := []
  deriving DecidableEq, Repr

def loggedWrite (buf : Bytes) (written : Nat) (w : Int) (log : WriteLog) : WriteLog × Int :=
  let (port, n) := writeCall buf written w log.port
  ({ port, calls := log.calls ++ [{ offset := written, asked := buf.length - written, result := n }] }, n)

def serialWriteLog (buf : Bytes) (writes : List Int) : WriteLog × PushLoop.Status :=
  PushLoop.push (loggedWrite buf) buf.length 0 writes {}

theorem serialWrite_eq_log (buf : Bytes) (writes : List Int) :
    serialWrite buf writes = ((serialWriteLog buf writes).1.port, (serialWriteLog buf writes).2) :=
  PushLoop.push_view WriteLog.port (fun _ _ _ => rfl) 0 writes {}

/-- What a call has taken of the buffer. -/
def WriteCall.piece (buf : Bytes) (call : WriteCall) : Bytes := (buf.drop call.offset).take call.result.toNat

/-- The bytes a call asks for are bytes of the buffer, and it is not given more. -/
structure WriteCall.Within (buf : Bytes) (call : WriteCall) : Prop where
  inside : call.offset + call.asked ≤ buf.length
  some_asked : 0 < call.asked
  most : call.result ≤ call.asked

/-- The log at the head of the loop. -/
structure Writing (buf : Bytes) (written : Nat) (log : WriteLog) : Prop where
  port : log.port = buf.take written
  pieces : log.port = log.calls.flatMap (·.piece buf)
  within : ∀ call ∈ log.calls, call.Within buf
  counts : ∀ call ∈ log.calls, 0 ≤ call.result

/-- The log after an error. -/
structure GaveUp (buf : Bytes) (log : WriteLog) : Prop where
  short : log.port.length < buf.length
  initial : log.port <+: buf
  pieces : log.port = log.calls.flatMap (·.piece buf)
  within : ∀ call ∈ log.calls, call.Within buf
  last : ∃ front call, log.calls = front ++ [call] ∧ call.result < 0 ∧ ∀ call ∈ front, 0 ≤ call.result

theorem writing_start (buf : Bytes) : Writing buf 0 {} where
  port := by rw [List.take_zero]
  pieces := rfl
  within := by
    intro call hcall
    cases hcall
  counts := by
    intro call hcall
    cases hcall

theorem Writing.error {buf : Bytes} {written : Nat} {log : WriteLog} (h : Writing buf written log)
    (hlt : written < buf.length) {w : Int} (hw : w < 0) : GaveUp buf (loggedWrite buf written w log).1 := by
  simp only [loggedWrite, writeCall, if_pos hw]
  refine ⟨?_, ?_, ?_, ?_, ?_⟩
  · rw [h.port, List.length_take]
    omega
  · rw [h.port]
    exact List.take_prefix _ _
  · rw [List.flatMap_append, ← h.pieces, List.flatMap_singleton, WriteCall.piece]
    exact (List.append_nil log.port).symm
  · intro call hcall
    rw [List.mem_append, List.mem_singleton] at hcall
    obtain hold | hnew := hcall
    · exact h.within call hold
    · rw [hnew]
      exact ⟨by simp only; omega, by simp only; omega, by simp only; omega⟩
  · exact ⟨log.calls, _, rfl, by simp, h.counts⟩

theorem Writing.count {buf : Bytes} {written : Nat} {log : WriteLog} (h : Writing buf written log)
    (hlt : written < buf.length) {w : Int} (hw : ¬ w < 0) :
    Writing buf (written + min w.toNat (buf.length - written)) (loggedWrite buf written w log).1 := by
  simp only [loggedWrite, writeCall, if_neg hw]
  refine ⟨?_, ?_, ?_, ?_⟩
  · rw [h.port, ← List.take_add]
  · rw [List.flatMap_append, ← h.pieces, List.flatMap_singleton, WriteCall.piece, Int.toNat_natCast]
  · intro call hcall
    rw [List.mem_append, List.mem_singleton] at hcall
    obtain hold | hnew := hcall
    · exact h.within call hold
    · rw [hnew]
      exact ⟨by simp only; omega, by simp only; omega, by simp only; omega⟩
  · intro call hcall
    rw [List.mem_append, List.mem_singleton] at hcall
    obtain hold | hnew := hcall
    · exact h.counts call hold
    · rw [hnew]
      exact Int.natCast_nonneg _

theorem loggedWrite_result_of_neg (buf : Bytes) (written : Nat) {w : Int} (log : WriteLog) (hw : w < 0) :
    (loggedWrite buf written w log).2 = -1 := by
  simp only [loggedWrite, writeCall, if_pos hw]

theorem loggedWrite_result (buf : Bytes) (written : Nat) {w : Int} (log : WriteLog) (hw : ¬ w < 0) :
    (loggedWrite buf written w log).2 = min w.toNat (buf.length - written) := by
  simp only [loggedWrite, writeCall, if_neg hw]

/-- How the log stands when the loop does. -/
def Stands (buf : Bytes) (log : WriteLog) : PushLoop.Status → Prop
  | .pending => ∃ written < buf.length, Writing buf written log
  | .failed => GaveUp buf log
  | .done => Writing buf buf.length log

theorem serialWriteLog_stands {buf : Bytes} (hbuf : buf ≠ []) (writes : List Int) :
    Stands buf (serialWriteLog buf writes).1 (serialWriteLog buf writes).2 := by
  have hrule := PushLoop.push_rule (loggedWrite buf) buf.length (P := Writing buf) (F := GaveUp buf) ?_ ?_ writes
    (List.length_pos_iff.mpr hbuf) (writing_start buf)
  · revert hrule
    rw [serialWriteLog]
    generalize PushLoop.push (loggedWrite buf) buf.length 0 writes {} = run
    obtain ⟨log, status⟩ := run
    cases status with
    | pending =>
        intro hrule
        obtain ⟨written, -, hlt, hwriting⟩ := hrule
        exact ⟨written, hlt, hwriting⟩
    | failed => exact id
    | done => exact id
  · intro written w log hwriting hlt hneg
    by_cases hw : w < 0
    · exact hwriting.error hlt hw
    · rw [loggedWrite_result buf written log hw] at hneg
      omega
  · intro written w log hwriting hlt hcount
    by_cases hw : w < 0
    · rw [loggedWrite_result_of_neg buf written log hw] at hcount
      omega
    · rw [loggedWrite_result buf written log hw, Int.toNat_natCast]
      exact ⟨by omega, hwriting.count hlt hw⟩

theorem Stands.calls {buf : Bytes} {log : WriteLog} {status : PushLoop.Status} (h : Stands buf log status) :
    log.port = log.calls.flatMap (·.piece buf) ∧ ∀ call ∈ log.calls, call.Within buf := by
  cases status with
  | pending =>
      obtain ⟨_, -, hwriting⟩ := h
      exact ⟨hwriting.pieces, hwriting.within⟩
  | failed => exact ⟨GaveUp.pieces h, GaveUp.within h⟩
  | done => exact ⟨Writing.pieces h, Writing.within h⟩

theorem serialWrite_prefix {buf : Bytes} (hbuf : buf ≠ []) (writes : List Int) :
    (serialWrite buf writes).1 <+: buf ∧
      ((serialWrite buf writes).2 = .done ↔ (serialWrite buf writes).1 = buf) := by
  have hstands := serialWriteLog_stands hbuf writes
  rw [serialWrite_eq_log]
  generalize serialWriteLog buf writes = run at hstands ⊢
  obtain ⟨log, status⟩ := run
  cases status with
  | pending =>
      obtain ⟨written, hlt, hwriting⟩ := hstands
      refine ⟨hwriting.port ▸ List.take_prefix _ _, iff_of_false nofun fun hall => ?_⟩
      have hlength := congrArg List.length (hwriting.port.symm.trans hall)
      rw [List.length_take] at hlength
      omega
  | failed =>
      have hgave : GaveUp buf log := hstands
      exact ⟨hgave.initial, iff_of_false nofun fun hall => hgave.short.ne (congrArg List.length hall)⟩
  | done =>
      have hdone : Writing buf buf.length log := hstands
      have hport : log.port = buf := by
        rw [hdone.port, List.take_length]
      exact ⟨hport ▸ List.prefix_rfl, iff_of_true rfl hport⟩

theorem serialWriteLog_ends {buf : Bytes} (hbuf : buf ≠ []) {writes : List Int} (hwrites : ∀ w ∈ writes, w ≠ 0)
    (hlen : buf.length ≤ writes.length) : (serialWriteLog buf writes).2 ≠ .pending := by
  refine PushLoop.push_terminates (P := fun _ _ => True) writes ?_ (List.length_pos_iff.mpr hbuf) trivial (by omega)
  intro written log w hmem _ hlt hcount
  have hne := hwrites w hmem
  have hw : ¬ w < 0 := by
    intro hw
    rw [loggedWrite_result_of_neg buf written log hw] at hcount
    omega
  rw [loggedWrite_result buf written log hw, Int.toNat_natCast]
  exact ⟨by omega, by omega, trivial⟩

/-- The run on the first outcomes of a sequence. -/
def writeRun (buf : Bytes) (writes : Nat → Int) (n : Nat) : WriteLog × PushLoop.Status :=
  serialWriteLog buf ((List.range n).map writes)

/-- As many outcomes as there are bytes settle the loop, and later ones are never asked for. What reaches the
port is put together from the pieces the calls have taken, none of which asks for bytes outside the buffer; it
is a prefix of the buffer, all of it exactly when the result is `true`, and shorter when it is `false`, which
ends with the first error. -/
theorem serialWrite_settles {buf : Bytes} (hbuf : buf ≠ []) (writes : Nat → Int) (hwrites : ∀ k, writes k ≠ 0) :
    (writeRun buf writes buf.length).2 ≠ .pending ∧
    (∀ n ≥ buf.length, writeRun buf writes n = writeRun buf writes buf.length) ∧
    (∀ n, serialWrite buf ((List.range n).map writes) = ((writeRun buf writes n).1.port, (writeRun buf writes n).2)) ∧
    (∀ call ∈ (writeRun buf writes buf.length).1.calls,
      call.offset + call.asked ≤ buf.length ∧ 0 < call.asked ∧ call.result ≤ call.asked) ∧
    (writeRun buf writes buf.length).1.port =
      (writeRun buf writes buf.length).1.calls.flatMap (fun call => (buf.drop call.offset).take call.result.toNat) ∧
    (writeRun buf writes buf.length).1.port <+: buf ∧
    ((writeRun buf writes buf.length).2 = .done ↔ (writeRun buf writes buf.length).1.port = buf) ∧
    ((writeRun buf writes buf.length).2 = .failed →
      (writeRun buf writes buf.length).1.port.length < buf.length ∧
      ∃ front last, (writeRun buf writes buf.length).1.calls = front ++ [last] ∧ last.result < 0 ∧
        ∀ call ∈ front, 0 ≤ call.result) := by
  have hends : (writeRun buf writes buf.length).2 ≠ .pending := by
    apply serialWriteLog_ends hbuf
    · intro w hw
      obtain ⟨k, -, hk⟩ := List.mem_map.mp hw
      rw [← hk]
      exact hwrites k
    · rw [List.length_map, List.length_range]
  have hsettled : ∀ n ≥ buf.length, writeRun buf writes n = writeRun buf writes buf.length := by
    intro n hn
    obtain ⟨k, rfl⟩ := Nat.exists_eq_add_of_le hn
    rw [writeRun, List.range_add, List.map_append]
    exact PushLoop.push_append hends _
  have hstands := serialWriteLog_stands hbuf ((List.range buf.length).map writes)
  obtain ⟨hpieces, hwithin⟩ := hstands.calls
  obtain ⟨hinitial, hdone⟩ := serialWrite_prefix hbuf ((List.range buf.length).map writes)
  rw [serialWrite_eq_log] at hinitial hdone
  refine ⟨hends, hsettled, fun n => serialWrite_eq_log _ _, ?_, hpieces, hinitial, hdone, ?_⟩
  · intro call hcall
    exact ⟨(hwithin call hcall).inside, (hwithin call hcall).some_asked, (hwithin call hcall).most⟩
  · intro hfailed
    rw [← writeRun, hfailed] at hstands
    have hgave : GaveUp buf (writeRun buf writes buf.length).1 := hstands
    exact ⟨hgave.short, hgave.last⟩

/-- Three bytes through a port that takes one at a time and then fails. -/
theorem serialWrite_settles_short :
    (writeRun [7, 8, 9] (fun k => if k = 2 then -1 else 1) 3).1.port = [7, 8] ∧
    (writeRun [7, 8, 9] (fun k => if k = 2 then -1 else 1) 3).1.port <+: [7, 8, 9] := by
  have hbuf : ([7, 8, 9] : Bytes) ≠ [] := by decide
  have hsettles := serialWrite_settles hbuf (fun k => if k = 2 then -1 else 1) (fun k => by split <;> decide)
  exact ⟨by decide, hsettles.2.2.2.2.2.1⟩

end MissionServer
