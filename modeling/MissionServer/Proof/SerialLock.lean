import MissionServer.Lib.CriticalSection
import MissionServer.Proof.Sequence
import MissionServer.Proof.SerialWrite

/-!
# The lock around serial_write

The threads once more, with `serial_tx_mtx` and every single `write` a step of its own. They refine the threads
whose locked `serial_write` is one step, and the bytes on the port are whole outputs of `serial_write`, one
behind the other, of messages and of what clients have sent.
-/

namespace MissionServer

open CriticalSection

/-! ### The threads and their sections -/

/-- A client's bytes that come next. -/
def forwarding : List ServerAction → Option PortWrite
  | .forward data :: _ => some (.bytes data)
  | _ => none

/-- What a thread's next step writes under the lock: the message it has packed, or a client's bytes. -/
def Threads.want (s : Threads) (thread : Thread) : Option PortWrite :=
  match s.packed thread with
  | some p => some (.message p)
  | none => if thread = .server then forwarding s.todo else none

theorem Threads.want_next_other (s : Threads) {thread : Thread} {step : ThreadStep} (hne : thread ≠ step.thread) :
    (s.next step).want thread = s.want thread := by
  rw [want, want, s.packed_next_other hne]
  cases thread with
  | txThread => rfl
  | server =>
      obtain ⟨_ | _, written⟩ := step
      · exact absurd rfl hne
      · rw [s.todo_next_txThread]

theorem Threads.port_act (s : Threads) (written : Bool) :
    (s.act written).port = s.port ++ (forwarding s.todo).toList.map (·, written) := by
  rw [act]
  split
  case h_5 htodo =>
      rw [htodo]
      rfl
  all_goals
    rename_i htodo
    rw [htodo]
    exact (List.append_nil _).symm

theorem Threads.port_txThread (s : Threads) : s.txThread.port = s.port := by
  rw [txThread]
  split
  · split <;> rfl
  · rfl

theorem Threads.port_next (s : Threads) (step : ThreadStep) (hlive : s.ended = false) :
    (s.next step).port = s.port ++ (s.want step.thread).toList.map (·, step.written) := by
  obtain ⟨thread, written⟩ := step
  rw [next, if_neg (ne_true_of_eq_false hlive), want]
  dsimp only
  cases s.packed thread with
  | some p => rfl
  | none =>
      cases thread with
      | server => exact s.port_act written
      | txThread => exact s.port_txThread.trans (List.append_nil _).symm

/-- What a thread has packed it writes under the lock, and a client's bytes too. -/
def lockedProgram : Program Threads Thread PortWrite where
  next s e := s.next ⟨e.1, e.2⟩
  want := Threads.want
  stopped := Threads.ended
  written := Threads.port
  want_other s _ _ hne := s.want_next_other hne
  written_next s e := s.port_next ⟨e.1, e.2⟩

section Lock

-- `mavlink_msg_to_send_buffer`
variable (toSendBuffer : Packed → Bytes)

/-- The buffer that `serial_write` is given. -/
def PortWrite.buf : PortWrite → Bytes
  | .message p => toSendBuffer p
  | .bytes data => data

/-- The threads, the bytes on the port, and who is inside `serial_tx_mtx`. -/
abbrev LockedThreads := State Threads Thread PortWrite Int Bytes

def LockedThreads.start (txSeq : UInt8) (todo : List ServerAction) : LockedThreads :=
  { machine := Threads.start txSeq todo, object := [] }

/-- A thread that has something to write locks, writes until `serial_write` returns, and unlocks, step by step; a
call it makes answers with the second component. -/
def LockedThreads.next (s : LockedThreads) (e : Thread × Int) : LockedThreads :=
  step lockedProgram (fun w => writeCall (w.buf toSendBuffer)) (fun w => (w.buf toSendBuffer).length) s e

/-! ### What a section writes -/

/-- `serial_write` on a port that holds some bytes already. -/
theorem push_writeCall (buf : Bytes) (port : Bytes) (writes : List Int) :
    PushLoop.push (writeCall buf) buf.length 0 writes port =
      (port ++ (serialWrite buf writes).1, (serialWrite buf writes).2) := by
  have hcall : ∀ off w written, writeCall buf off w (port ++ written) =
      (port ++ (writeCall buf off w written).1, (writeCall buf off w written).2) := by
    intro off w written
    by_cases hw : w < 0
    · simp only [writeCall, if_pos hw]
    · simp only [writeCall, if_neg hw, List.append_assoc]
  have hview : PushLoop.push (writeCall buf) buf.length 0 writes (port ++ []) = _ :=
    PushLoop.push_view (fun written => port ++ written) hcall 0 writes []
  rwa [List.append_nil] at hview

/-- What a section has written. -/
def written (c : Section PortWrite Int) : Bytes := (serialWrite (c.job.buf toSendBuffer) c.answers).1

/-- What the thread inside has written so far. -/
def writing (s : LockedThreads) : Bytes :=
  s.inside.toList.flatMap fun c => (serialWrite (c.job.buf toSendBuffer) c.answers).1

theorem run_sections (port : Bytes) (sections : List (Section PortWrite Int)) :
    Machine.run (section_ (fun w => writeCall (w.buf toSendBuffer)) (fun w => (w.buf toSendBuffer).length)) port
        sections =
      port ++ sections.flatMap (written toSendBuffer) := by
  induction sections generalizing port with
  | nil => rw [Machine.run_nil, List.flatMap_nil, List.append_nil]
  | cons c sections ih =>
      rw [Machine.run_cons, ih, section_, push_writeCall, List.flatMap_cons, List.append_assoc]
      rfl

theorem serialWrite_part (buf : Bytes) (writes : List Int) :
    (serialWrite buf writes).1 <+: buf ∧ ((serialWrite buf writes).2 = .done → (serialWrite buf writes).1 = buf) := by
  by_cases hbuf : buf = []
  · subst hbuf
    have hnothing : (serialWrite [] writes).1 = [] := by
      refine PushLoop.push_invariant (writeCall []) 0 (P := (· = [])) ?_ 0 writes rfl
      intro off w port hport
      simp [writeCall, hport]
      split <;> rfl
    rw [hnothing]
    exact ⟨List.prefix_rfl, fun _ => rfl⟩
  · obtain ⟨hpart, hwhole⟩ := serialWrite_prefix hbuf writes
    exact ⟨hpart, hwhole.mp⟩

theorem serialWrite_not_failed (buf : Bytes) {writes : List Int} (hwrites : ∀ w ∈ writes, 0 ≤ w) :
    (serialWrite buf writes).2 ≠ .failed := by
  have hrun : ∀ off port, (PushLoop.push (writeCall buf) buf.length off writes port).2 ≠ .failed := by
    induction writes with
    | nil =>
        intro off port
        simp [PushLoop.push]
    | cons w writes ih =>
        intro off port
        have hw : ¬ w < 0 := not_lt.mpr (hwrites w List.mem_cons_self)
        have hpos : 0 ≤ (writeCall buf off w port).2 := by
          rw [writeCall, if_neg hw]
          exact Int.natCast_nonneg _
        by_cases hsize : off + (writeCall buf off w port).2.toNat = buf.length
        · rw [PushLoop.push_cons_done hpos hsize]
          simp
        · rw [PushLoop.push_cons_next hpos hsize]
          exact ih (fun w hw => hwrites w (List.mem_cons_of_mem _ hw)) _ _
  exact hrun 0 []

theorem writeCall_result (buf : Bytes) (off : Nat) {w : Int} (port : Bytes) (hw : ¬ w < 0) :
    (writeCall buf off w port).2 = ((min w.toNat (buf.length - off) : Nat) : Int) := by
  rw [writeCall, if_neg hw]

theorem writeCall_within (buf : Bytes) (off : Nat) (w : Int) (port : Bytes) (hoff : off < buf.length)
    (hpos : 0 ≤ (writeCall buf off w port).2) : off + (writeCall buf off w port).2.toNat ≤ buf.length := by
  by_cases hw : w < 0
  · have hfailed : (writeCall buf off w port).2 = -1 := by
      rw [writeCall, if_pos hw]
    omega
  · rw [writeCall_result buf off port hw, Int.toNat_natCast]
    omega

theorem serialWrite_nil (w : Int) (writes : List Int) : (serialWrite [] (w :: writes)).2 ≠ .pending := by
  by_cases hw : (writeCall [] 0 w []).2 < 0
  · rw [serialWrite, PushLoop.push_cons_failed hw]
    simp
  · have hwithin : (writeCall [] 0 w []).2.toNat = 0 := by
      by_cases hneg : w < 0
      · simp [writeCall, hneg]
      · rw [writeCall_result [] 0 [] hneg]
        simp
    rw [serialWrite, PushLoop.push_cons_done (not_lt.mp hw) (by rw [hwithin]; rfl)]
    simp

/-- As many counts as there are bytes, and one more, settle a write, wherever it stands. -/
theorem serialWrite_settled (buf : Bytes) (writes : List Int) {more : List Int} (hmore : ∀ w ∈ more, 0 < w)
    (hlen : buf.length < more.length) : (serialWrite buf (writes ++ more)).2 ≠ .pending := by
  by_cases hbuf : buf = []
  · have hlong : 0 < (writes ++ more).length := by
      rw [List.length_append]
      omega
    obtain ⟨w, rest, hcons⟩ := List.exists_cons_of_length_pos hlong
    rw [hbuf, hcons]
    exact serialWrite_nil w rest
  · by_cases hended : (serialWrite buf writes).2 = .pending
    · obtain ⟨off, hoff, hrest⟩ :=
        PushLoop.push_append_pending (writeCall_within buf) (List.length_pos_iff.mpr hbuf) hended
      rw [serialWrite, hrest]
      refine PushLoop.push_terminates (P := fun _ _ => True) more ?_ hoff trivial (by omega)
      intro off port w hw _ hoff _
      have hpos := hmore w hw
      rw [writeCall_result buf off port (by omega), Int.toNat_natCast]
      exact ⟨by omega, by omega, trivial⟩
    · rw [serialWrite, PushLoop.push_append hended]
      exact hended

/-! ### The refinement -/

def LockedThreads.Serial (s : LockedThreads) : Prop :=
  CriticalSection.Serial lockedProgram (fun w => writeCall (w.buf toSendBuffer)) (fun w => (w.buf toSendBuffer).length)
    [] s

variable {toSendBuffer}

theorem LockedThreads.Serial.object_eq {s : LockedThreads} (h : LockedThreads.Serial toSendBuffer s) :
    s.object = s.left.flatMap (written toSendBuffer) ++ writing toSendBuffer s := by
  cases hinside : s.inside with
  | none =>
      rw [h.outside hinside, run_sections, List.nil_append, writing, hinside, Option.toList_none, List.flatMap_nil,
        List.append_nil]
  | some c =>
      rw [(h.inside c hinside).now_eq, push_writeCall, run_sections, List.nil_append, writing, hinside,
        Option.toList_some, List.flatMap_singleton]

theorem LockedThreads.Serial.ended {s : LockedThreads} (h : LockedThreads.Serial toSendBuffer s) :
    ∀ c ∈ s.left, (serialWrite (c.job.buf toSendBuffer) c.answers).2 = status c.whole := by
  intro c hc
  obtain ⟨pre, post, hsplit⟩ := List.append_of_mem hc
  have hfront : pre ++ [c] <+: s.left := ⟨post, by rw [hsplit, List.append_assoc, List.singleton_append]⟩
  have hends := h.ends pre c hfront
  rwa [Ends, push_writeCall] at hends

variable (toSendBuffer)

/-- Every run of the threads with their lock, call by call, is a run of the threads that write in one step: the same
writes, messages and clients' bytes, in the order the lock was given back, and each as whole as its calls have made it.
The port holds what `serial_write` has made of one after the other, and at its end of what the thread inside writes;
where no call fails these are whole but for the last. Whoever is inside comes out as soon as its calls have taken their
bytes. -/
theorem lockedThreads_refine (txSeq : UInt8) (todo : List ServerAction) (schedule : List (Thread × Int)) :
    let s := Machine.run (LockedThreads.next toSendBuffer) (LockedThreads.start txSeq todo) schedule
    (∃ steps : List ThreadStep, (steps.map (·.thread)).Sublist (schedule.map (·.1)) ∧
      s.machine = Machine.run Threads.next (Threads.start txSeq todo) steps) ∧
    s.left.map (fun c => (c.job, c.whole)) = s.machine.port ∧
    (∀ c ∈ s.left, (serialWrite (c.job.buf toSendBuffer) c.answers).2 = status c.whole ∧
      (c.whole = true → written toSendBuffer c = c.job.buf toSendBuffer)) ∧
    s.object = s.left.flatMap (written toSendBuffer) ++ writing toSendBuffer s ∧
    (∀ c, s.inside = some c → s.machine.want c.owner = some c.job ∧
      writing toSendBuffer s <+: c.job.buf toSendBuffer) ∧
    ((∀ e ∈ schedule, 0 ≤ e.2) →
      s.object = s.machine.port.flatMap (fun w => w.1.buf toSendBuffer) ++ writing toSendBuffer s) ∧
    (∀ c, s.inside = some c → s.machine.ended = false → ∀ counts : List Int, (∀ w ∈ counts, 0 < w) →
      (c.job.buf toSendBuffer).length < counts.length →
      ∃ n ≤ counts.length, ∀ w, (Machine.run (LockedThreads.next toSendBuffer) s
        ((counts.take n ++ [w]).map fun w => (c.owner, w))).inside = none) := by
  intro s
  have hserial : LockedThreads.Serial toSendBuffer s := run_serial (Threads.start txSeq todo) [] schedule
  obtain ⟨steps, hsub, hmachine, more, hwritten, hleft⟩ :=
    run_machine lockedProgram (fun w => writeCall (w.buf toSendBuffer)) (fun w => (w.buf toSendBuffer).length)
      (LockedThreads.start txSeq todo) schedule
  have hport : s.left.map (fun c => (c.job, c.whole)) = s.machine.port := hleft.trans hwritten.symm
  have hended := hserial.ended
  have hwhole (c) (hc : c ∈ s.left) (hdone : c.whole = true) : written toSendBuffer c = c.job.buf toSendBuffer := by
    refine (serialWrite_part _ _).2 ?_
    rw [hended c hc, hdone]
    rfl
  refine ⟨⟨steps.map fun e => ⟨e.1, e.2⟩, ?_, ?_⟩, hport, fun c hc => ⟨hended c hc, hwhole c hc⟩, hserial.object_eq,
    fun c hc => ?_, fun hcounts => ?_, fun c hc hlive counts hpos hlen => ?_⟩
  · rw [List.map_map]
    exact hsub
  · rw [Machine.run, List.foldl_map]
    exact hmachine
  · refine ⟨hserial.wants c hc, ?_⟩
    rw [writing, hc, Option.toList_some, List.flatMap_singleton]
    exact (serialWrite_part _ _).1
  · rw [hserial.object_eq, ← hport, List.flatMap_map]
    congr 1
    apply List.flatMap_congr
    intro c hc
    have hanswered := (run_answered lockedProgram (fun w => writeCall (w.buf toSendBuffer))
      (fun w => (w.buf toSendBuffer).length) (R := (0 ≤ ·)) (Threads.start txSeq todo) [] schedule hcounts).1 c hc
    have hfailed := serialWrite_not_failed (c.job.buf toSendBuffer) hanswered
    refine hwhole c hc ?_
    rw [hended c hc] at hfailed
    cases hc : c.whole with
    | true => rfl
    | false => exact absurd (by rw [hc]; rfl) hfailed
  · refine leaves (P := lockedProgram) hc (hserial.wants c hc) hlive fun off hoff => ?_
    have hcontinues := hserial.inside c hc
    simp only [Continues, hoff] at hcontinues
    rw [← hcontinues, push_writeCall]
    exact serialWrite_settled _ _ hpos hlen

end Lock

end MissionServer
