import Mathlib.Data.BitVec

/-!
# Cyclic redundancy checks

The checksum of a message is the remainder of a shift register that takes it bit by bit, most significant
bit first. A shift is linear in exclusive or, so eight of them are one look-up of the register's top byte
in a table of 256 entries.
-/

namespace Crc

variable {w : Nat} (poly : BitVec w)

/-- One shift of the register: the bit that falls out decides whether the polynomial is added. -/
def shift (r : BitVec w) : BitVec w := (r <<< 1) ^^^ (if r.msb then poly else 0#w)

def shifts : Nat → BitVec w → BitVec w
  | 0, r => r
  | n + 1, r => shift poly (shifts n r)

/-- A byte in the top eight places of the register. -/
def atTop (w : Nat) (byte : BitVec 8) : BitVec w := byte.setWidth w <<< (w - 8)

/-- The top eight places of the register. -/
def top (r : BitVec w) : BitVec 8 := (r >>> (w - 8)).setWidth 8

def byteStep (r : BitVec w) (byte : BitVec 8) : BitVec w := shifts poly 8 (r ^^^ atTop w byte)

def remainder (bytes : List (BitVec 8)) : BitVec w := bytes.foldl (byteStep poly) 0#w

variable {poly}

theorem shift_xor (a b : BitVec w) : shift poly (a ^^^ b) = shift poly a ^^^ shift poly b := by
  have hpoly : (if (a ^^^ b).msb then poly else 0#w) =
      (if a.msb then poly else 0#w) ^^^ (if b.msb then poly else 0#w) := by
    rw [BitVec.msb_xor]
    cases a.msb <;> cases b.msb <;> simp
  rw [shift, shift, shift, hpoly, BitVec.shiftLeft_xor_distrib]
  ac_rfl

theorem shifts_xor (n : Nat) (a b : BitVec w) :
    shifts poly n (a ^^^ b) = shifts poly n a ^^^ shifts poly n b := by
  induction n with
  | zero => rfl
  | succ n ih => simp only [shifts, ih, shift_xor]

/-- While only zeros fall out, the register just moves up. -/
theorem shifts_of_top_clear {n : Nat} {r : BitVec w} (hclear : ∀ i, w - n ≤ i → r.getLsbD i = false) (hn : n ≤ w) :
    shifts poly n r = r <<< n := by
  induction n with
  | zero => simp [shifts]
  | succ n ih =>
      rw [shifts, ih (fun i hi => hclear i (by omega)) (by omega)]
      have hmsb : (r <<< n).msb = false := by
        rw [BitVec.msb_eq_getLsbD_last, BitVec.getLsbD_shiftLeft, hclear (w - 1 - n) (by omega), Bool.and_false]
      simp only [shift, hmsb, Bool.false_eq_true, if_false, BitVec.xor_zero, BitVec.shiftLeft_add]

theorem getLsbD_atTop (byte : BitVec 8) {i : Nat} (hi : i < w) :
    (atTop w byte).getLsbD i = (decide (w - 8 ≤ i) && byte.getLsbD (i - (w - 8))) := by
  rw [atTop, BitVec.getLsbD_shiftLeft, BitVec.getLsbD_setWidth]
  by_cases hle : w - 8 ≤ i
  · simp [hi, hle, not_lt.mpr hle, show i - (w - 8) < w by omega]
  · simp [hle, not_le.mp hle]

theorem atTop_xor (a b : BitVec 8) : atTop w (a ^^^ b) = atTop w a ^^^ atTop w b := by
  apply BitVec.eq_of_getLsbD_eq
  intro i hi
  rw [BitVec.getLsbD_xor, getLsbD_atTop _ hi, getLsbD_atTop _ hi, getLsbD_atTop _ hi, BitVec.getLsbD_xor]
  cases decide (w - 8 ≤ i) <;> rfl

theorem getLsbD_top (r : BitVec w) {i : Nat} (hi : i < 8) :
    (top r).getLsbD i = r.getLsbD (w - 8 + i) := by
  rw [top, BitVec.getLsbD_setWidth, BitVec.getLsbD_ushiftRight, decide_eq_true hi, Bool.true_and]

theorem low_clear (r : BitVec w) {i : Nat} (hi : w - 8 ≤ i) :
    (r ^^^ atTop w (top r)).getLsbD i = false := by
  by_cases hlt : i < w
  · rw [BitVec.getLsbD_xor, getLsbD_atTop _ hlt, decide_eq_true hi, getLsbD_top r (by omega),
      show w - 8 + (i - (w - 8)) = i by omega, Bool.true_and, Bool.xor_self]
  · exact BitVec.getLsbD_of_ge _ _ (by omega)

theorem low_shiftLeft (hw : 8 ≤ w) (r : BitVec w) : (r ^^^ atTop w (top r)) <<< 8 = r <<< 8 := by
  have hzero : atTop w (top r) <<< 8 = 0#w := by
    apply BitVec.eq_of_getLsbD_eq
    intro i hi
    rw [BitVec.getLsbD_shiftLeft, BitVec.getLsbD_zero]
    by_cases hlt : i < 8
    · simp [hlt]
    · rw [getLsbD_atTop _ (by omega), decide_eq_false (by omega : ¬ w - 8 ≤ i - 8), Bool.false_and, Bool.and_false]
  rw [BitVec.shiftLeft_xor_distrib, hzero, BitVec.xor_zero]

/-- The table method: eight shifts are the rest of the register moved up, and the entry of its top byte. -/
theorem byteStep_eq_table (hw : 8 ≤ w) (r : BitVec w) (byte : BitVec 8) :
    byteStep poly r byte = (r <<< 8) ^^^ shifts poly 8 (atTop w (top r ^^^ byte)) := by
  have hsplit : r ^^^ atTop w byte = (r ^^^ atTop w (top r)) ^^^ atTop w (top r ^^^ byte) := by
    rw [atTop_xor, BitVec.xor_assoc, ← BitVec.xor_assoc (atTop w (top r)), BitVec.xor_self, BitVec.zero_xor]
  rw [byteStep, hsplit, shifts_xor, shifts_of_top_clear (fun i hi => low_clear r hi) hw, low_shiftLeft hw]

end Crc
