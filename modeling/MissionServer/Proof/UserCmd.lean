import MissionServer.Lib.Machine
import MissionServer.UartServer.UserCmd

/-!
# The command FIFO

The counter of `read_user_cmd` outlives a call, the record it counts into does not. The records of the
stream are executed in order exactly as long as no record is read in pieces and no read fails between
records.
-/

namespace MissionServer

/-- A call: how many bytes it gets, or none for a failed read, and what it finds on the stack. -/
structure FifoCall where
  count : Option Nat
  stack : Stack

/-- The FIFO's reader in the middle of a stream. -/
structure FifoRun where
  received : Int := 0
  consumed : Nat := 0
  executed : List MavlinkCmd := []

/-- The next bytes of the stream. -/
def window (stream : Nat → UInt8) (start n : Nat) : Bytes := (List.range n).map fun i => stream (start + i)

def FifoRun.step (stream : Nat → UInt8) (r : FifoRun) (call : FifoCall) : FifoRun :=
  let (received, executed) := readUserCmd call.stack (call.count.map (window stream r.consumed)) r.received
  { received, consumed := r.consumed + call.count.getD 0, executed := r.executed ++ executed.toList }

/-- The record that starts at an offset of the stream. -/
def recordAt (stream : Nat → UInt8) (start : Nat) : MavlinkCmd :=
  Stack.userCmd fun i => stream (start + i.toNat)

/-- The records that lie wholly within the first `n` bytes. -/
def records (stream : Nat → UInt8) (n : Nat) : List MavlinkCmd :=
  (List.range (n / sizeofMavlinkCmd)).map fun k => recordAt stream (sizeofMavlinkCmd * k)

/-- What a reader should have done: executed every record that has come in, with the counter within
the record. -/
structure FifoRun.Correct (stream : Nat → UInt8) (r : FifoRun) : Prop where
  executed : r.executed = records stream r.consumed
  nonneg : 0 ≤ r.received
  lt : r.received < sizeofMavlinkCmd

/-- The counter after a call, which depends on the count alone. -/
def countReceived (received : Int) (count : Option Nat) : Int :=
  let received : Int :=
    match count with
    | some n => received + n
    | none => received - 1
  if received = sizeofMavlinkCmd then 0 else received

/-- The kernel's rule, from a value of the counter on: a read gets at least one byte and at most what
it asked for, or it fails. -/
def ReadsFit (received : Int) (counts : List (Option Nat)) : Prop :=
  Machine.EachStep countReceived (fun received count => ∀ n, count = some n → 1 ≤ n ∧ n ≤ userCmdSize received)
    received counts

/-- Whatever the stream and the stack hold, the reader is correct after every call. -/
def Reassembles (counts : List (Option Nat)) : Prop :=
  ∀ stream calls, calls.map FifoCall.count = counts →
    Machine.Always (FifoRun.step stream) (FifoRun.Correct stream) {} calls

/-- The bytes that reads got, and how many reads failed. -/
def gotten (counts : List (Option Nat)) : Nat := (counts.map fun count => count.getD 0).sum
def failures (counts : List (Option Nat)) : Nat := counts.countP Option.isNone

/-- No further record is completed, and the failed reads never outnumber the bytes, where `g` bytes of
a record have come in and `f` reads have failed since. -/
def Stalls (g f : Nat) (counts : List (Option Nat)) : Prop :=
  ∀ pre, pre <+: counts → g + gotten pre < sizeofMavlinkCmd ∧ f + failures pre ≤ g + gotten pre

/-- Whole records, each in one read, and after the last of them a record that is never completed. -/
def UnbrokenReads (counts : List (Option Nat)) : Prop :=
  ∃ k rest, counts = List.replicate k (some sizeofMavlinkCmd) ++ rest ∧ Stalls 0 0 rest

/-! ### Memory and records -/

theorem Stack.store_of_mem {stack : Stack} {off i : Int} {bytes : Bytes} (hlo : off ≤ i)
    (hhi : i < off + bytes.length) :
    stack.store off bytes i = bytes.getD (i - off).toNat 0 := if_pos ⟨hlo, hhi⟩

theorem Stack.store_of_lt {stack : Stack} {off i : Int} {bytes : Bytes} (h : i < off) :
    stack.store off bytes i = stack i := if_neg (by omega)

@[simp] theorem length_window (stream : Nat → UInt8) (start n : Nat) : (window stream start n).length = n := by
  simp [window]

theorem getD_window {stream : Nat → UInt8} {start n i : Nat} (h : i < n) :
    (window stream start n).getD i 0 = stream (start + i) := by
  simp [window, h]

theorem Stack.store_window {stack : Stack} {stream : Nat → UInt8} {start n : Nat} {off i : Int} (hlo : off ≤ i)
    (hhi : i < off + n) : stack.store off (window stream start n) i = stream (start + (i - off).toNat) := by
  rw [Stack.store_of_mem hlo (by simpa using hhi), getD_window (by omega)]

/-- A command looks at the 20 bytes of its record. -/
theorem Stack.userCmd_congr {stack stack' : Stack} (h : ∀ i : Int, 0 ≤ i → i < sizeofMavlinkCmd → stack i = stack' i) :
    stack.userCmd = stack'.userCmd := by
  have hint (off : Int) (hlo : 0 ≤ off) (hhi : off + 3 < sizeofMavlinkCmd) : stack.int off = stack'.int off := by
    simp only [Stack.int]
    rw [h off (by omega) (by omega), h (off + 1) (by omega) (by omega), h (off + 2) (by omega) (by omega),
      h (off + 3) (by omega) (by omega)]
  simp only [Stack.userCmd, MavlinkCmd.mk.injEq]
  refine ⟨hint 0 (by decide) (by decide), funext fun i => hint _ (by omega) ?_⟩
  have hi := i.isLt
  simp only [sizeofMavlinkCmd]
  omega

/-- An `int` determines its four bytes; the first and the last are the ones needed here. -/
theorem Stack.int_inj {stack stack' : Stack} {off off' : Int} (h : stack.int off = stack'.int off') :
    stack off = stack' off' ∧ stack (off + 3) = stack' (off' + 3) := by
  have hnat := congrArg (fun x : Int32 => x.toBitVec.toNat) h
  have lt_byte (b : UInt8) : b.toNat < 256 := b.toNat_lt
  simp only [Stack.int, Int32.toBitVec_ofBitVec, BitVec.toNat_ofNat] at hnat
  have h₀ := lt_byte (stack off); have h₁ := lt_byte (stack (off + 1))
  have h₂ := lt_byte (stack (off + 2)); have h₃ := lt_byte (stack (off + 3))
  have h₀' := lt_byte (stack' off'); have h₁' := lt_byte (stack' (off' + 1))
  have h₂' := lt_byte (stack' (off' + 2)); have h₃' := lt_byte (stack' (off' + 3))
  constructor
  · apply UInt8.toNat_inj.mp
    omega
  · apply UInt8.toNat_inj.mp
    omega

theorem Stack.userCmd_inj {stack stack' : Stack} (h : stack.userCmd = stack'.userCmd) :
    stack 0 = stack' 0 ∧ stack 19 = stack' 19 := by
  refine ⟨(Stack.int_inj (congrArg MavlinkCmd.type h)).1, ?_⟩
  exact (Stack.int_inj (congrFun (congrArg MavlinkCmd.arg h) 3)).2

theorem records_add {stream : Nat → UInt8} {k n : Nat} (h : n < sizeofMavlinkCmd) :
    records stream (sizeofMavlinkCmd * k + n) = records stream (sizeofMavlinkCmd * k) := by
  have hdiv : (sizeofMavlinkCmd * k + n) / sizeofMavlinkCmd = k := by
    simp only [sizeofMavlinkCmd] at h ⊢
    omega
  rw [records, records, hdiv, Nat.mul_div_cancel_left k (by decide)]

theorem records_succ (stream : Nat → UInt8) (k : Nat) :
    records stream (sizeofMavlinkCmd * (k + 1)) =
      records stream (sizeofMavlinkCmd * k) ++ [recordAt stream (sizeofMavlinkCmd * k)] := by
  simp only [records, Nat.mul_div_cancel_left _ (show 0 < sizeofMavlinkCmd by decide), List.range_succ, List.map_append,
    List.map_cons, List.map_nil]

theorem length_records (stream : Nat → UInt8) (n : Nat) : (records stream n).length = n / sizeofMavlinkCmd := by
  simp [records]

/-! ### One call -/

section Steps

variable (stream : Nat → UInt8) (stack : Stack) {r : FifoRun}

theorem FifoRun.step_failed (h : r.received ≤ sizeofMavlinkCmd) :
    r.step stream ⟨none, stack⟩ = { r with received := r.received - 1 } := by
  have hne : r.received - 1 ≠ sizeofMavlinkCmd := by omega
  simp [FifoRun.step, readUserCmd, hne]

theorem FifoRun.step_begun {n : Nat} (h : r.received + n < sizeofMavlinkCmd) :
    r.step stream ⟨some n, stack⟩ = { r with received := r.received + n, consumed := r.consumed + n } := by
  have hne : r.received + n ≠ sizeofMavlinkCmd := by omega
  simp [FifoRun.step, readUserCmd, hne]

theorem FifoRun.step_complete {n : Nat} (h : r.received + n = sizeofMavlinkCmd) :
    r.step stream ⟨some n, stack⟩ =
      { received := 0, consumed := r.consumed + n,
        executed := r.executed ++ [(stack.store r.received (window stream r.consumed n)).userCmd] } := by
  simp [FifoRun.step, readUserCmd, h]

end Steps

/-! ### Every chunking

`Holds` is the claim about the rest of a run from a state that depends on the stream alone. -/

def Holds (start : (Nat → UInt8) → FifoRun) (counts : List (Option Nat)) : Prop :=
  ∀ stream calls, calls.map FifoCall.count = counts →
    Machine.Always (FifoRun.step stream) (FifoRun.Correct stream) (start stream) calls

theorem holds_nil {start : (Nat → UInt8) → FifoRun} : Holds start [] ↔ ∀ stream, (start stream).Correct stream := by
  constructor
  · intro h stream
    exact Machine.always_nil.mp (h stream [] rfl)
  · intro h stream calls hcalls
    obtain rfl : calls = [] := List.map_eq_nil_iff.mp hcalls
    exact Machine.always_nil.mpr (h stream)

theorem holds_cons {start next : (Nat → UInt8) → FifoRun} {count : Option Nat} {counts : List (Option Nat)}
    (hstart : ∀ stream, (start stream).Correct stream)
    (hnext : ∀ stream stack, (start stream).step stream ⟨count, stack⟩ = next stream) :
    Holds start (count :: counts) ↔ Holds next counts := by
  constructor
  · intro h stream calls hcalls
    have hall := h stream (⟨count, fun _ => 0⟩ :: calls) (by rw [List.map_cons, hcalls])
    rw [Machine.always_cons, hnext] at hall
    exact hall.2
  · intro h stream calls hcalls
    obtain ⟨call, rest, rfl, rfl, hrest⟩ := List.map_eq_cons_iff.mp hcalls
    rw [Machine.always_cons]
    obtain ⟨count, stack⟩ := call
    rw [hnext]
    exact ⟨hstart stream, h stream rest hrest⟩

/-- One bad call settles a run. -/
theorem not_holds_cons {start : (Nat → UInt8) → FifoRun} {count : Option Nat} {counts : List (Option Nat)}
    (stream : Nat → UInt8) (stack : Stack) (h : ¬ ((start stream).step stream ⟨count, stack⟩).Correct stream) :
    ¬ Holds start (count :: counts) := by
  intro hall
  have hrun := hall stream (⟨count, stack⟩ :: counts.map fun count => ⟨count, stack⟩)
    (by simp [Function.comp_def])
  rw [Machine.always_cons] at hrun
  exact h (hrun.2 [] List.nil_prefix)

/-- After `k` records, with `g` bytes of the next one read and `f` failed reads since. -/
def runAt (k g f : Nat) (stream : Nat → UInt8) : FifoRun where
  received := (g : Int) - f
  consumed := sizeofMavlinkCmd * k + g
  executed := records stream (sizeofMavlinkCmd * k)

theorem correct_runAt {k g f : Nat} (hg : g < sizeofMavlinkCmd) (hf : f ≤ g) (stream : Nat → UInt8) :
    (runAt k g f stream).Correct stream := by
  refine ⟨(records_add hg).symm, ?_, ?_⟩
  · simp only [runAt]
    omega
  · simp only [runAt]
    omega

section RunAt

variable {k g f n : Nat} (stream : Nat → UInt8) (stack : Stack)

theorem runAt_failed (hg : g < sizeofMavlinkCmd) :
    (runAt k g f stream).step stream ⟨none, stack⟩ = runAt k g (f + 1) stream := by
  rw [FifoRun.step_failed stream stack (by simp only [runAt]; omega)]
  simp only [runAt, FifoRun.mk.injEq, and_true]
  push_cast
  omega

theorem runAt_begun (hend : g + n < sizeofMavlinkCmd) :
    (runAt k g f stream).step stream ⟨some n, stack⟩ = runAt k (g + n) f stream := by
  rw [FifoRun.step_begun stream stack (by simp only [runAt]; omega)]
  simp only [runAt, FifoRun.mk.injEq, and_true]
  push_cast
  omega

theorem runAt_whole :
    (runAt k 0 0 stream).step stream ⟨some sizeofMavlinkCmd, stack⟩ = runAt (k + 1) 0 0 stream := by
  rw [FifoRun.step_complete stream stack (by simp [runAt])]
  simp only [runAt, FifoRun.mk.injEq, records_succ, List.append_cancel_left_eq, List.singleton_inj]
  refine ⟨rfl, rfl, Stack.userCmd_congr fun i hlo hhi => ?_⟩
  rw [Stack.store_window (by simpa using hlo) (by simpa using hhi)]
  simp

/-- More failures than bytes. -/
theorem not_correct_failed (h : g < f) : ¬ (runAt k g f stream).Correct stream := by
  intro hcorrect
  have hnonneg := hcorrect.nonneg
  simp only [runAt] at hnonneg
  omega

end RunAt

/-- The stream that tells a record put together from pieces from the record it should be: all bytes
are 0 but the last one of record `k`. -/
def probe (k : Nat) : Nat → UInt8 := fun i => if i = sizeofMavlinkCmd * k + 19 then 1 else 0

/-- A read that reaches the end of a record begun earlier goes wrong: the bytes of the earlier reads
are lost, and after a failed read the rest is out of place. -/
theorem not_correct_complete {k g f n : Nat} (hg : 1 ≤ g) (hf : f ≤ g) (hgn : sizeofMavlinkCmd ≤ g + n)
    (hfit : n ≤ userCmdSize (g - f : Int)) (hlt : g < sizeofMavlinkCmd) :
    ¬ ((runAt k g f (probe k)).step (probe k) ⟨some n, fun _ => 1⟩).Correct (probe k) := by
  have hsize : userCmdSize (g - f : Int) = sizeofMavlinkCmd - (g - f) := by
    simp only [userCmdSize, toSizeT, sizeofMavlinkCmd] at *
    omega
  rw [hsize] at hfit
  by_cases hreach : (g : Int) - f + n = sizeofMavlinkCmd
  · intro hcorrect
    have hexec := hcorrect.executed
    rw [FifoRun.step_complete (r := runAt k g f (probe k)) (probe k) _ hreach] at hexec
    have hconsumed : sizeofMavlinkCmd * k + g + n = sizeofMavlinkCmd * (k + 1) + f := by
      simp only [sizeofMavlinkCmd] at *
      omega
    simp only [runAt] at hexec
    rw [hconsumed, records_add (by omega), records_succ, List.append_cancel_left_eq, List.singleton_inj] at hexec
    obtain ⟨hfirst, hlast⟩ := Stack.userCmd_inj hexec
    by_cases hzero : f = 0
    · rw [Stack.store_of_lt (by omega)] at hfirst
      simp [probe, sizeofMavlinkCmd] at hfirst
    · rw [Stack.store_window (by simp only [sizeofMavlinkCmd] at *; omega)
        (by simp only [sizeofMavlinkCmd] at *; omega)] at hlast
      have hmid : probe k (sizeofMavlinkCmd * k + g + (19 - ((g : Int) - f)).toNat) = 0 := if_neg (by omega)
      rw [hmid] at hlast
      simp [probe] at hlast
  · intro hcorrect
    have hexec := hcorrect.executed
    rw [FifoRun.step_begun (r := runAt k g f (probe k)) (probe k) _
      (by simp only [runAt, sizeofMavlinkCmd] at *; omega)] at hexec
    have hlen := congrArg List.length hexec
    simp only [runAt, length_records, sizeofMavlinkCmd] at *
    omega

theorem stalls_nil {g f : Nat} : Stalls g f [] ↔ g < sizeofMavlinkCmd ∧ f ≤ g := by
  simp [Stalls, gotten, failures]

theorem stalls_cons {g f : Nat} {count : Option Nat} {counts : List (Option Nat)} :
    Stalls g f (count :: counts) ↔
      (g < sizeofMavlinkCmd ∧ f ≤ g) ∧ Stalls (g + count.getD 0) (f + if count.isNone then 1 else 0) counts := by
  constructor
  · intro h
    refine ⟨by simpa [gotten, failures] using h [] List.nil_prefix, fun pre hpre => ?_⟩
    have hnext := h (count :: pre) ((List.prefix_cons_inj count).mpr hpre)
    simp only [gotten, failures, List.map_cons, List.sum_cons, List.countP_cons] at hnext ⊢
    omega
  · intro hboth pre hpre
    obtain ⟨hnow, h⟩ := hboth
    cases pre with
    | nil => simpa [gotten, failures] using hnow
    | cons count' pre =>
        obtain ⟨rfl, htail⟩ := List.cons_prefix_cons.mp hpre
        have hnext := h pre htail
        simp only [gotten, failures, List.map_cons, List.sum_cons, List.countP_cons] at hnext ⊢
        omega

theorem Stalls.start {g f : Nat} {counts : List (Option Nat)} (h : Stalls g f counts) :
    g < sizeofMavlinkCmd ∧ f ≤ g := by
  simpa [gotten, failures] using h [] List.nil_prefix

/-- In the middle of a record. -/
theorem holds_begun (k : Nat) (counts : List (Option Nat)) :
    ∀ {g f : Nat}, 1 ≤ g → g < sizeofMavlinkCmd → f ≤ g → ReadsFit ((g : Int) - f) counts →
      (Holds (runAt k g f) counts ↔ Stalls g f counts) := by
  induction counts with
  | nil =>
      intro g f _ hlt hf _
      rw [holds_nil, stalls_nil]
      exact ⟨fun _ => ⟨hlt, hf⟩, fun _ stream => correct_runAt hlt hf stream⟩
  | cons count counts ih =>
      intro g f hg hlt hf hfits
      obtain ⟨hfit, hrest⟩ := Machine.eachStep_cons.mp hfits
      rw [stalls_cons]
      cases count with
      | none =>
          by_cases hroom : f + 1 ≤ g
          · rw [holds_cons (correct_runAt hlt hf) fun stream stack => runAt_failed stream stack hlt,
              ih hg hlt hroom ?_]
            · simp [hlt, hf]
            · rw [countReceived, if_neg (by omega)] at hrest
              have hcast : (g : Int) - (f + 1 : Nat) = g - f - 1 := by omega
              rwa [hcast]
          · refine iff_of_false (not_holds_cons (fun _ => 0) (fun _ => 0) ?_) ?_
            · rw [runAt_failed _ _ hlt]
              exact not_correct_failed _ (by omega)
            · intro hstalls
              have hstart := hstalls.2.start
              simp at hstart
              omega
      | some n =>
          obtain ⟨hn, hsize⟩ := hfit n rfl
          by_cases hend : g + n < sizeofMavlinkCmd
          · rw [holds_cons (correct_runAt hlt hf) fun stream stack => runAt_begun stream stack hend,
              ih (by omega) hend (by omega) ?_]
            · simp [hlt, hf]
            · rw [countReceived, if_neg (by omega)] at hrest
              have hcast : ((g + n : Nat) : Int) - f = g - f + n := by omega
              rwa [hcast]
          · refine iff_of_false (not_holds_cons (probe k) (fun _ => 1) ?_) ?_
            · exact not_correct_complete hg hf (by omega) hsize hlt
            · intro hstalls
              have hstart := hstalls.2.start
              simp at hstart
              omega

theorem unbrokenReads_whole {counts : List (Option Nat)} :
    UnbrokenReads (some sizeofMavlinkCmd :: counts) ↔ UnbrokenReads counts := by
  constructor
  · intro h
    obtain ⟨k, rest, hcounts, hstalls⟩ := h
    cases k with
    | zero =>
        obtain rfl : some sizeofMavlinkCmd :: counts = rest := hcounts
        have hstart := (stalls_cons.mp hstalls).2.start
        simp at hstart
    | succ k =>
        rw [List.replicate_succ, List.cons_append, List.cons.injEq] at hcounts
        exact ⟨k, rest, hcounts.2, hstalls⟩
  · intro h
    obtain ⟨k, rest, rfl, hstalls⟩ := h
    exact ⟨k + 1, rest, rfl, hstalls⟩

theorem unbrokenReads_of_ne {count : Option Nat} {counts : List (Option Nat)} (h : count ≠ some sizeofMavlinkCmd) :
    UnbrokenReads (count :: counts) ↔ Stalls 0 0 (count :: counts) := by
  constructor
  · intro h
    obtain ⟨k, rest, hcounts, hstalls⟩ := h
    cases k with
    | zero => exact hcounts ▸ hstalls
    | succ k =>
        rw [List.replicate_succ, List.cons_append, List.cons.injEq] at hcounts
        exact absurd hcounts.1 h
  · intro hstalls
    exact ⟨0, _, rfl, hstalls⟩

/-- Between records. -/
theorem holds_aligned (counts : List (Option Nat)) :
    ∀ k : Nat, ReadsFit 0 counts → (Holds (runAt k 0 0) counts ↔ UnbrokenReads counts) := by
  induction counts with
  | nil =>
      intro k _
      rw [holds_nil]
      refine iff_of_true (correct_runAt (by decide) (by decide)) ⟨0, [], rfl, ?_⟩
      exact stalls_nil.mpr (by decide)
  | cons count counts ih =>
      intro k hfits
      obtain ⟨hfit, hrest⟩ := Machine.eachStep_cons.mp hfits
      have hstart (stream) : (runAt k 0 0 stream).Correct stream := correct_runAt (by decide) (by decide) stream
      cases count with
      | none =>
          rw [unbrokenReads_of_ne (by simp)]
          refine iff_of_false (not_holds_cons (fun _ => 0) (fun _ => 0) ?_) ?_
          · rw [runAt_failed _ _ (by decide)]
            exact not_correct_failed _ (by omega)
          · intro hstalls
            have hnext := (stalls_cons.mp hstalls).2.start
            simp at hnext
      | some n =>
          obtain ⟨hn, hsize⟩ := hfit n rfl
          have hle : n ≤ sizeofMavlinkCmd := hsize
          by_cases hwhole : n = sizeofMavlinkCmd
          · subst hwhole
            rw [holds_cons hstart fun stream stack => runAt_whole stream stack, unbrokenReads_whole]
            exact ih (k + 1) (by simpa [ReadsFit, countReceived] using hrest)
          · have hlt : n < sizeofMavlinkCmd := by omega
            have hend : 0 + n < sizeofMavlinkCmd := by omega
            rw [holds_cons hstart fun stream stack => runAt_begun stream stack hend,
              unbrokenReads_of_ne (by simpa using hwhole), stalls_cons, Nat.zero_add,
              holds_begun k counts hn hlt (by omega) ?_]
            · simp [sizeofMavlinkCmd]
            · rw [countReceived, if_neg (by omega)] at hrest
              simpa [ReadsFit] using hrest

/-! ### The result -/

/-- A tune request sends the tune it names, or nothing. -/
def TuneSent (fcuSysid : UInt8) (userCmd : MavlinkCmd) : Prop :=
  let n := userCmd.arg0.toInt
  userCmd.type = playTuneCmd →
    (0 ≤ n ∧ n < tuneCnt → ∃ tune, tuneTable[n.toNat]? = some tune ∧
      (selectAction fcuSysid userCmd).map (·.body) =
        [.playTune { targetSystem := fcuSysid, targetComponent := mavCompIdAll, tune, tune2 := "" }]) ∧
    (¬ (0 ≤ n ∧ n < tuneCnt) → selectAction fcuSysid userCmd = [])

theorem tuneSent (fcuSysid : UInt8) (userCmd : MavlinkCmd) : TuneSent fcuSysid userCmd := by
  intro htype
  obtain ⟨hmin, hmax⟩ : -2 ^ 31 ≤ userCmd.arg0.toInt ∧ userCmd.arg0.toInt < 2 ^ 31 :=
    ⟨userCmd.arg0.le_toInt, userCmd.arg0.toInt_lt⟩
  generalize hn : userCmd.arg0.toInt = n at hmin hmax ⊢
  rw [selectAction, if_pos htype, hn, mavlinkSendPlayTune]
  constructor
  · intro hrange
    obtain ⟨hlo, hhi⟩ := hrange
    have hindex : n.toNat < tuneTable.length := by
      simp only [tuneCnt] at hhi
      omega
    have hsize : toSizeT n = n.toNat := by
      simp only [toSizeT]
      omega
    rw [if_neg (by rw [hsize]; simpa [tuneCnt] using hindex)]
    refine ⟨tuneTable[n.toNat], List.getElem?_eq_getElem hindex, ?_⟩
    rw [List.map_cons, List.map_nil, List.getD_eq_getElem?_getD, List.getElem?_eq_getElem hindex, Option.getD_some]
  · intro hout
    have hcnt : tuneCnt = 19 := rfl
    rw [if_pos]
    simp only [toSizeT, hcnt] at hout ⊢
    omega

/-- The reader puts the records together, whatever bytes come and whatever the stack holds, exactly
when every record is read whole, but for a last one that is never completed. Tunes are always right. -/
theorem readUserCmd_reassembles_iff {counts : List (Option Nat)} (hfit : ReadsFit 0 counts) :
    (Reassembles counts ∧ ∀ fcuSysid userCmd, TuneSent fcuSysid userCmd) ↔ UnbrokenReads counts := by
  rw [and_iff_left tuneSent]
  exact holds_aligned counts 0 hfit

/-- Two whole records, then a third of which only a part arrives before a read fails. -/
theorem readUserCmd_reassembles_iff_twoAndAPart :
    ReadsFit 0 [some 20, some 20, some 8, none] ∧
      ((Reassembles [some 20, some 20, some 8, none] ∧ ∀ fcuSysid userCmd, TuneSent fcuSysid userCmd) ↔
        UnbrokenReads [some 20, some 20, some 8, none]) := by
  have hfit : ReadsFit 0 [some 20, some 20, some 8, none] := by
    simp only [ReadsFit, Machine.eachStep_cons, Machine.eachStep_nil]
    refine ⟨?_, ?_, ?_, ?_, trivial⟩
    all_goals
      intro n hn
      cases hn
    all_goals decide
  exact ⟨hfit, readUserCmd_reassembles_iff hfit⟩

/-- The request for tune 5. -/
def tuneFiveRequest : Nat → UInt8 := fun i => if i = 4 then 5 else 0

/-- A record that arrives in two reads: the local of the second call holds nothing of the first, and
with that memory the command is no longer a tune request. A read that fails between records moves the
counter below the record. -/
theorem split_record_is_lost :
    (let r := Machine.run (FifoRun.step tuneFiveRequest) {} [⟨some 8, fun _ => 255⟩, ⟨some 12, fun _ => 255⟩]
     r.received = 0 ∧ r.consumed = 20 ∧ r.executed.map (·.type) = [-1] ∧
       (records tuneFiveRequest r.consumed).map (·.type) = [playTuneCmd]) ∧
    ¬ Reassembles [some 8, some 12] ∧
    (Machine.run (FifoRun.step tuneFiveRequest) {} [⟨none, fun _ => 0⟩]).received = -1 ∧
    ¬ Reassembles [none] := by
  refine ⟨by decide, fun h => ?_, by decide, fun h => ?_⟩
  · have hlast := h tuneFiveRequest [⟨some 8, fun _ => 255⟩, ⟨some 12, fun _ => 255⟩] rfl _ (List.prefix_refl _)
    have htypes := congrArg (List.map (·.type)) hlast.executed
    revert htypes
    decide
  · have hlast := h tuneFiveRequest [⟨none, fun _ => 0⟩] rfl _ (List.prefix_refl _)
    have hnonneg := hlast.nonneg
    revert hnonneg
    decide

end MissionServer
