import Mathlib.Data.List.Induction
import MissionServer.UartServer.Start

/-!
# What get_unsigned accepts

`*o_result` runs through the decimal values of the prefixes, each modulo `2 ^ 32`, and the loop asks only that
they never decrease. A string may wrap and still be accepted, but then its result is at least as large as
every value before it, so that no result below `2 ^ 32 / 10` is a wrapped one.
-/

namespace MissionServer

def AllDigits (chars : Bytes) : Prop := ∀ c ∈ chars, isDigit c = true

instance (chars : Bytes) : Decidable (AllDigits chars) := inferInstanceAs (Decidable (∀ c ∈ chars, isDigit c = true))

/-- The number that a string of digits stands for in base 10. -/
def decimalValue (chars : Bytes) : Nat := chars.foldl (fun n c => 10 * n + (c.toNat - 0x30)) 0

theorem decimalValue_concat (chars : Bytes) (c : UInt8) :
    decimalValue (chars ++ [c]) = 10 * decimalValue chars + (c.toNat - 0x30) := by
  rw [decimalValue, List.foldl_append, List.foldl_cons, List.foldl_nil, decimalValue]

/-- What `*o_result` holds after these characters. -/
def wrappedValue (chars : Bytes) : Nat := decimalValue chars % 2 ^ 32

/-- The values modulo `2 ^ 32` never decrease from a prefix to the next. -/
def NeverDecreases (chars : Bytes) : Prop :=
  ∀ k < chars.length, wrappedValue (chars.take k) ≤ wrappedValue (chars.take (k + 1))

instance (chars : Bytes) : Decidable (NeverDecreases chars) :=
  inferInstanceAs (Decidable (∀ k < chars.length, wrappedValue (chars.take k) ≤ wrappedValue (chars.take (k + 1))))

theorem digit_bounds {c : UInt8} (h : isDigit c = true) : 0x30 ≤ c.toNat ∧ c.toNat ≤ 0x39 := by
  rw [isDigit, Bool.and_eq_true, decide_eq_true_iff, decide_eq_true_iff, UInt8.le_iff_toNat_le,
    UInt8.le_iff_toNat_le] at h
  exact h

theorem wrapped_next (chars : Bytes) {c : UInt8} (h : isDigit c = true) :
    UInt32.ofNat (decimalValue chars) * 10 + (c.toUInt32 - 0x30) = UInt32.ofNat (decimalValue (chars ++ [c])) := by
  obtain ⟨hge, hle⟩ := digit_bounds h
  have hdigit : (c.toUInt32 - 0x30).toNat = c.toNat - 0x30 := by
    rw [UInt32.toNat_sub_of_le, UInt8.toNat_toUInt32]
    · rfl
    · rw [UInt32.le_iff_toNat_le, UInt8.toNat_toUInt32]
      exact hge
  rw [← UInt32.toNat_inj, UInt32.toNat_add, UInt32.toNat_mul, hdigit, UInt32.toNat_ofNat', UInt32.toNat_ofNat',
    decimalValue_concat]
  show (decimalValue chars % 2 ^ 32 * 10 % 2 ^ 32 + (c.toNat - 0x30)) % 2 ^ 32 = _
  omega

theorem toNat_wrapped (chars : Bytes) : (UInt32.ofNat (decimalValue chars)).toNat = wrappedValue chars := by
  rw [UInt32.toNat_ofNat', wrappedValue]

/-- The same from a prefix on that has been read. -/
def NeverDecreasesFrom (front back : Bytes) : Prop :=
  ∀ k < back.length, wrappedValue (front ++ back.take k) ≤ wrappedValue (front ++ back.take (k + 1))

theorem neverDecreasesFrom_cons (front back : Bytes) (c : UInt8) :
    NeverDecreasesFrom front (c :: back) ↔
      wrappedValue front ≤ wrappedValue (front ++ [c]) ∧ NeverDecreasesFrom (front ++ [c]) back := by
  have hshift : ∀ k, front ++ (c :: back).take (k + 1) = front ++ [c] ++ back.take k := by
    intro k
    rw [List.take_succ_cons, List.append_assoc, List.singleton_append]
  constructor
  · intro h
    constructor
    · have hfirst := h 0 (by rw [List.length_cons]; omega)
      rwa [hshift, List.take_zero, List.take_zero, List.append_nil, List.append_nil] at hfirst
    · intro k hk
      have hnext := h (k + 1) (by rw [List.length_cons]; omega)
      rwa [hshift, hshift] at hnext
  · intro h k hk
    obtain ⟨hfirst, hrest⟩ := h
    rw [hshift]
    cases k with
    | zero => rwa [List.take_zero, List.take_zero, List.append_nil, List.append_nil]
    | succ k =>
        rw [hshift]
        exact hrest k (by rw [List.length_cons] at hk; omega)

/-- The loop, started behind some characters that it has read. -/
theorem getUnsignedLoop_iff (front back : Bytes) (r : UInt32) :
    getUnsignedLoop (UInt32.ofNat (decimalValue front)) (UInt32.ofNat (decimalValue front)) back back.length =
        (true, r) ↔
      AllDigits back ∧ NeverDecreasesFrom front back ∧ r = UInt32.ofNat (decimalValue (front ++ back)) := by
  induction back generalizing front with
  | nil =>
      rw [List.append_nil]
      constructor
      · intro h
        refine ⟨?_, ?_, ?_⟩
        · intro c hc
          cases hc
        · intro k hk
          cases hk
        · exact (Prod.mk.inj h).2.symm
      · intro h
        rw [h.2.2]
        rfl
  | cons c back ih =>
      have hsplit : front ++ c :: back = front ++ [c] ++ back := by
        rw [List.append_assoc, List.singleton_append]
      rw [List.length_cons, getUnsignedLoop, List.headD_cons, List.tail_cons, neverDecreasesFrom_cons, hsplit,
        AllDigits, List.forall_mem_cons]
      by_cases hdigit : isDigit c = true
      · simp only [hdigit, Bool.not_true, Bool.false_eq_true, if_false, true_and]
        have hcompare : UInt32.ofNat (decimalValue (front ++ [c])) < UInt32.ofNat (decimalValue front) ↔
            wrappedValue (front ++ [c]) < wrappedValue front := by
          rw [UInt32.lt_iff_toNat_lt, toNat_wrapped, toNat_wrapped]
        rw [wrapped_next front hdigit]
        by_cases hless : wrappedValue (front ++ [c]) < wrappedValue front
        · rw [if_pos (hcompare.mpr hless)]
          constructor
          · intro h
            cases h
          · intro h
            exact absurd hless (not_lt.mpr h.2.1.1)
        · rw [if_neg (fun h => hless (hcompare.mp h)), ih (front ++ [c]), and_iff_right (not_lt.mp hless)]
          rfl
      · simp only [hdigit, Bool.not_false, if_true, Bool.false_eq_true, false_and, iff_false]
        intro h
        cases h

theorem getUnsigned_eq {s : CString} (hne : s.chars ≠ []) (o : UInt32) :
    getUnsigned (some s) s.strlen (some o) =
      ((getUnsignedLoop 0 0 s.chars s.chars.length).1, some (getUnsignedLoop 0 0 s.chars s.chars.length).2) := by
  have hlen : ¬ s.strlen = 0 := fun h => hne (List.eq_nil_of_length_eq_zero h)
  rw [getUnsigned, if_neg hlen]
  rfl

theorem getUnsigned_iff {s : CString} (hne : s.chars ≠ []) (o r : UInt32) :
    getUnsigned (some s) s.strlen (some o) = (true, some r) ↔
      AllDigits s.chars ∧ NeverDecreases s.chars ∧ r = UInt32.ofNat (decimalValue s.chars) := by
  have hloop := getUnsignedLoop_iff [] s.chars r
  rw [getUnsigned_eq hne, Prod.mk.injEq, Option.some.injEq]
  exact Prod.ext_iff.symm.trans hloop

/-! ### Values that fit -/

theorem decimalValue_take_le (chars : Bytes) (k : Nat) :
    decimalValue (chars.take k) ≤ decimalValue (chars.take (k + 1)) := by
  by_cases hk : k < chars.length
  · rw [List.take_succ_eq_append_getElem hk, decimalValue_concat]
    omega
  · rw [List.take_of_length_le (by omega), List.take_of_length_le (by omega)]

theorem decimalValue_take_le_whole (chars : Bytes) (k : Nat) : decimalValue (chars.take k) ≤ decimalValue chars := by
  have hmono := monotone_nat_of_le_succ (decimalValue_take_le chars)
  by_cases hk : k ≤ chars.length
  · calc decimalValue (chars.take k) ≤ decimalValue (chars.take chars.length) := hmono hk
      _ = decimalValue chars := by rw [List.take_length]
  · rw [List.take_of_length_le (by omega)]

theorem neverDecreases_of_lt {chars : Bytes} (hlt : decimalValue chars < 2 ^ 32) : NeverDecreases chars := by
  intro k _
  have hnext := decimalValue_take_le_whole chars (k + 1)
  have hstep := decimalValue_take_le chars k
  rw [wrappedValue, wrappedValue, Nat.mod_eq_of_lt (by omega), Nat.mod_eq_of_lt (by omega)]
  exact hstep

theorem neverDecreases_concat {chars : Bytes} {c : UInt8} (h : NeverDecreases (chars ++ [c])) :
    NeverDecreases chars ∧ wrappedValue chars ≤ wrappedValue (chars ++ [c]) := by
  constructor
  · intro k hk
    have hstep := h k (by rw [List.length_append]; omega)
    rwa [List.take_append_of_le_length (by omega), List.take_append_of_le_length (by omega)] at hstep
  · have hstep := h chars.length (by rw [List.length_append, List.length_singleton]; omega)
    rwa [List.take_left, List.take_of_length_le (by rw [List.length_append, List.length_singleton])] at hstep

/-- Where the values modulo `2 ^ 32` never decrease and end small, none of them has been wrapped. -/
theorem decimalValue_of_small (bound : Nat) (hbound : 10 * bound + 9 < 2 ^ 32) {chars : Bytes}
    (hdigits : AllDigits chars) (hnever : NeverDecreases chars) (hsmall : wrappedValue chars ≤ bound) :
    wrappedValue chars = decimalValue chars := by
  induction chars using List.reverseRecOn with
  | nil => rfl
  | append_singleton chars c ih =>
      obtain ⟨hnever, hstep⟩ := neverDecreases_concat hnever
      have hfront := ih (fun c hc => hdigits c (List.mem_append_left _ hc)) hnever (by omega)
      obtain ⟨_, hdigit⟩ := digit_bounds (hdigits c (by simp))
      rw [wrappedValue, decimalValue_concat, Nat.mod_eq_of_lt]
      omega

/-! ### The port -/

/-- A string of digits for a port number. -/
def DenotesPort (chars : Bytes) (p : Nat) : Prop :=
  chars ≠ [] ∧ AllDigits chars ∧ decimalValue chars = p ∧ 1 ≤ p ∧ p ≤ 65535

theorem port_refused_iff (port : UInt32) :
    (port = 0 ∨ port > 0xffff) ↔ ¬ (1 ≤ port.toNat ∧ port.toNat ≤ 65535) := by
  rw [← UInt32.toNat_inj, gt_iff_lt, UInt32.lt_iff_toNat_lt]
  show (port.toNat = 0 ∨ 65535 < port.toNat) ↔ _
  omega

theorem serverPort_eq_some (s : CString) (port : UInt32) :
    serverPort (some s) = some port ↔
      getUnsigned (some s) s.strlen (some defaultPort) = (true, some port) ∧
        1 ≤ port.toNat ∧ port.toNat ≤ 65535 := by
  simp only [serverPort]
  split
  case h_1 result hresult =>
    rw [hresult]
    by_cases hrange : 1 ≤ result.toNat ∧ result.toNat ≤ 65535
    · rw [if_neg (fun h => (port_refused_iff result).mp h hrange)]
      constructor
      · intro h
        cases h
        exact ⟨rfl, hrange⟩
      · intro h
        cases h.1
        rfl
    · rw [if_pos ((port_refused_iff result).mpr hrange)]
      constructor
      · intro h
        cases h
      · intro h
        cases h.1
        exact absurd h.2 hrange
  case h_2 hrefused =>
    constructor
    · intro h
      cases h
    · intro h
      exact absurd h.1 (hrefused port)

theorem serverPort_iff (s : CString) (port : UInt32) :
    serverPort (some s) = some port ↔ DenotesPort s.chars port.toNat := by
  rw [serverPort_eq_some]
  by_cases hne : s.chars = []
  · have hlen : s.strlen = 0 := by
      rw [CString.strlen, hne, List.length_nil]
    constructor
    · intro h
      rw [getUnsigned, if_pos hlen] at h
      cases h.1
    · intro h
      exact absurd hne h.1
  · rw [getUnsigned_iff hne]
    constructor
    · intro h
      obtain ⟨⟨hdigits, hnever, hport⟩, hrange⟩ := h
      have hwrapped : wrappedValue s.chars = port.toNat := by
        rw [hport, toNat_wrapped]
      have hvalue := decimalValue_of_small 65535 (by decide) hdigits hnever (by omega)
      exact ⟨hne, hdigits, by omega, hrange⟩
    · intro h
      obtain ⟨_, hdigits, hvalue, hrange⟩ := h
      refine ⟨⟨hdigits, neverDecreases_of_lt (by omega), ?_⟩, hrange⟩
      rw [hvalue, UInt32.ofNat_toNat]

/-- A server that opens a socket binds it, and binds it to nothing but its port. -/
theorem openServer_calls (serialCfg : SerialCfg) (port : UInt32) (os : StartOutcome) :
    [.socket] <+: (openServer serialCfg port os).1 ∧
    (os.socket = true → [.socket, .bind port.toUInt16] <+: (openServer serialCfg port os).1) ∧
    ∀ q, .bind q ∈ (openServer serialCfg port os).1 → q = port.toUInt16 := by
  simp only [openServer]
  by_cases hsocket : os.socket = true
  · rw [hsocket]
    by_cases hbind : os.bind = true
    · rw [hbind]
      by_cases hlisten : os.listen = true
      · rw [hlisten]
        simp only [Bool.not_true, Bool.false_eq_true, if_false]
        split_ifs <;> simp [terminateStart]
      · simp [hlisten, terminateStart]
    · simp [hbind, terminateStart]
  · simp [hsocket]

/-- The server goes on with a port exactly where the string is that number in decimal and a port has it; it
then opens a socket and binds it to this port. Any other string ends the process first. -/
theorem runUartServer_port (serialCfg : SerialCfg) (s : CString) (os : StartOutcome) :
    (∀ p : Nat, (serverPort (some s)).map (·.toNat) = some p ↔ DenotesPort s.chars p) ∧
    (∀ p, DenotesPort s.chars p →
      [.socket] <+: (runUartServerStart serialCfg (some s) os).1 ∧
      (os.socket = true → [.socket, .bind (UInt16.ofNat p)] <+: (runUartServerStart serialCfg (some s) os).1) ∧
      ∀ port, .bind port ∈ (runUartServerStart serialCfg (some s) os).1 → port.toNat = p) ∧
    ((∀ p, ¬ DenotesPort s.chars p) →
      runUartServerStart serialCfg (some s) os =
        ([.help "port must be in the range 1-65535", .exit exitFailure], none)) := by
  refine ⟨?_, ?_, ?_⟩
  · intro p
    rw [Option.map_eq_some_iff]
    constructor
    · intro h
      obtain ⟨port, hport, hp⟩ := h
      rw [← hp]
      exact (serverPort_iff s port).mp hport
    · intro h
      have hp : (UInt32.ofNat p).toNat = p := UInt32.toNat_ofNat_of_lt' (lt_of_le_of_lt h.2.2.2.2 (by decide))
      refine ⟨UInt32.ofNat p, (serverPort_iff s _).mpr ?_, hp⟩
      rwa [hp]
  · intro p h
    have hlt : p ≤ 65535 := h.2.2.2.2
    have hp : (UInt32.ofNat p).toNat = p := UInt32.toNat_ofNat_of_lt' (lt_of_le_of_lt hlt (by decide))
    have hcut : (UInt32.ofNat p).toUInt16 = UInt16.ofNat p := by
      rw [← UInt16.toNat_inj, UInt32.toNat_toUInt16, hp, UInt16.toNat_ofNat']
    have hport : serverPort (some s) = some (UInt32.ofNat p) := by
      rw [serverPort_iff, hp]
      exact h
    have hcalls := openServer_calls serialCfg (UInt32.ofNat p) os
    rw [hcut] at hcalls
    rw [runUartServerStart, hport]
    refine ⟨hcalls.1, hcalls.2.1, ?_⟩
    intro port hmem
    rw [hcalls.2.2 port hmem]
    exact UInt16.toNat_ofNat_of_lt' (lt_of_le_of_lt hlt (by decide))
  · intro h
    have hport : serverPort (some s) = none := by
      rw [Option.eq_none_iff_forall_ne_some]
      intro port hport
      exact h port.toNat ((serverPort_iff s port).mp hport)
    rw [runUartServerStart, hport]

/-! ### The result of get_unsigned -/

/-- What `get_unsigned` is for: it accepts the numbers below `2 ^ 32`, and yields them. -/
def ReadsUnsigned (chars : Bytes) (result : Bool × Option UInt32) : Prop :=
  (result.1 = true ↔ AllDigits chars ∧ decimalValue chars < 2 ^ 32) ∧
  (AllDigits chars → decimalValue chars < 2 ^ 32 → result.2 = some (UInt32.ofNat (decimalValue chars)))

theorem getUnsigned_true_iff {s : CString} (hne : s.chars ≠ []) (o : UInt32) :
    (getUnsigned (some s) s.strlen (some o)).1 = true ↔ AllDigits s.chars ∧ NeverDecreases s.chars := by
  have hiff := getUnsigned_iff hne o
  rw [getUnsigned_eq hne] at hiff
  rw [getUnsigned_eq hne]
  constructor
  · intro hok
    have hread := (hiff (getUnsignedLoop 0 0 s.chars s.chars.length).2).mp (by rw [hok])
    exact ⟨hread.1, hread.2.1⟩
  · intro h
    exact (Prod.mk.inj ((hiff _).mpr ⟨h.1, h.2, rfl⟩)).1

/-- The test finds every overflow but those where each value, modulo `2 ^ 32`, is still at least the one
before it. -/
theorem getUnsigned_reads_iff {s : CString} (hne : s.chars ≠ []) (o : UInt32) :
    ReadsUnsigned s.chars (getUnsigned (some s) s.strlen (some o)) ↔
      ¬ AllDigits s.chars ∨ decimalValue s.chars < 2 ^ 32 ∨
        ∃ k < s.chars.length, decimalValue (s.chars.take (k + 1)) % 2 ^ 32 <
          decimalValue (s.chars.take k) % 2 ^ 32 := by
  have hdecreases : (∃ k < s.chars.length, decimalValue (s.chars.take (k + 1)) % 2 ^ 32 <
      decimalValue (s.chars.take k) % 2 ^ 32) ↔ ¬ NeverDecreases s.chars := by
    simp only [NeverDecreases, wrappedValue, not_forall, not_le, exists_prop]
  rw [hdecreases, ReadsUnsigned, getUnsigned_true_iff hne]
  constructor
  · intro h
    by_cases hdigits : AllDigits s.chars
    · by_cases hlt : decimalValue s.chars < 2 ^ 32
      · exact .inr (.inl hlt)
      · exact .inr (.inr (fun hnever => hlt (h.1.mp ⟨hdigits, hnever⟩).2))
    · exact .inl hdigits
  · intro h
    constructor
    · constructor
      · intro haccepted
        obtain ⟨hdigits, hnever⟩ := haccepted
        refine ⟨hdigits, ?_⟩
        obtain hno | hlt | hdecrease := h
        · exact absurd hdigits hno
        · exact hlt
        · exact absurd hnever hdecrease
      · intro hnumber
        exact ⟨hnumber.1, neverDecreases_of_lt hnumber.2⟩
    · intro hdigits hlt
      rw [(getUnsigned_iff hne o _).mpr ⟨hdigits, neverDecreases_of_lt hlt, rfl⟩]

/-- `8278`, the number of the default port. -/
def defaultPortText : CString where
  chars := [0x38, 0x32, 0x37, 0x38]
  noZero := by decide

theorem getUnsigned_reads_default :
    ReadsUnsigned defaultPortText.chars (getUnsigned (some defaultPortText) defaultPortText.strlen (some 0)) :=
  (getUnsigned_reads_iff (by decide) 0).mpr (.inr (.inl (by decide)))

/-- `4772185890`, whose last digit takes the value past `2 ^ 32` and yet up from 477218589 to 477218594. -/
def wrappingText : CString where
  chars := [0x34, 0x37, 0x37, 0x32, 0x31, 0x38, 0x35, 0x38, 0x39, 0x30]
  noZero := by decide

theorem getUnsigned_accepts_wrapped :
    getUnsigned (some wrappingText) wrappingText.strlen (some 0) = (true, some 477218594) ∧
    decimalValue wrappingText.chars = 4772185890 ∧
    ¬ ReadsUnsigned wrappingText.chars (getUnsigned (some wrappingText) wrappingText.strlen (some 0)) := by
  have haccepted : getUnsigned (some wrappingText) wrappingText.strlen (some 0) = (true, some 477218594) := by
    decide
  refine ⟨haccepted, by decide, ?_⟩
  intro hreads
  rw [haccepted] at hreads
  exact absurd (hreads.1.mp rfl).2 (by decide)

end MissionServer
