import Mathlib.Algebra.CharP.Two
import Mathlib.Algebra.Field.ZMod
import Mathlib.Algebra.Polynomial.Div
import Mathlib.Data.List.GetD
import Mathlib.RingTheory.Coprime.Lemmas
import Mathlib.Tactic.LinearCombination
import MissionServer.Lib.Crc

/-!
# The algebra of cyclic redundancy checks

Bits are coefficients over the field with two elements, so that a register of `w` bits is a polynomial of
degree below `w`. A shift multiplies by `X` and divides by the generator, and what a run of shifts leaves is
the remainder of the whole message moved up by `w` places. A burst of at most `w` bits is a power of `X` times
a polynomial too short to be a multiple of the generator.
-/

namespace Crc

open Polynomial

variable {w : Nat} (poly : BitVec w)

/-! ### Bits as coefficients -/

/-- A bit as an element of the field with two elements. -/
def coeffOf (b : Bool) : ZMod 2 := if b then 1 else 0

@[simp] theorem coeffOf_false : coeffOf false = 0 := rfl

theorem coeffOf_xor (a b : Bool) : coeffOf (a ^^ b) = coeffOf a + coeffOf b := by
  cases a <;> cases b <;> decide

theorem coeffOf_injective {a b : Bool} (h : coeffOf a = coeffOf b) : a = b := by
  cases a <;> cases b <;> first | rfl | exact absurd h (by decide)

/-- The polynomial of a register: bit `i` is the coefficient of `X ^ i`. -/
noncomputable def toPoly (r : BitVec w) : (ZMod 2)[X] :=
  ∑ i ∈ Finset.range w, C (coeffOf (r.getLsbD i)) * X ^ i

/-- The divisor of the check: the polynomial with its leading term. -/
noncomputable def generator : (ZMod 2)[X] := X ^ w + toPoly poly

/-- The polynomial of a string of bits, the most significant first. -/
noncomputable def ofBits : List Bool → (ZMod 2)[X]
  | [] => 0
  | b :: bits => C (coeffOf b) * X ^ bits.length + ofBits bits

variable {poly}

@[simp] theorem coeff_toPoly (r : BitVec w) (i : Nat) : (toPoly r).coeff i = coeffOf (r.getLsbD i) := by
  rw [toPoly, finsetSum_coeff]
  simp only [coeff_C_mul_X_pow]
  rw [Finset.sum_ite_eq, ite_eq_left_iff]
  intro hi
  rw [Finset.mem_range, not_lt] at hi
  rw [BitVec.getLsbD_of_ge _ _ hi, coeffOf_false]

theorem toPoly_injective {r s : BitVec w} (h : toPoly r = toPoly s) : r = s := by
  apply BitVec.eq_of_getLsbD_eq
  intro i hi
  apply coeffOf_injective
  rw [← coeff_toPoly, ← coeff_toPoly, h]

theorem degree_toPoly_lt (r : BitVec w) : (toPoly r).degree < w := by
  rw [degree_lt_iff_coeff_zero]
  intro i hi
  rw [coeff_toPoly, BitVec.getLsbD_of_ge _ _ hi, coeffOf_false]

@[simp] theorem toPoly_zero : toPoly (0#w) = 0 := by
  ext i
  simp

theorem toPoly_xor (r s : BitVec w) : toPoly (r ^^^ s) = toPoly r + toPoly s := by
  ext i
  rw [coeff_add, coeff_toPoly, coeff_toPoly, coeff_toPoly, BitVec.getLsbD_xor, coeffOf_xor]

theorem degree_generator (poly : BitVec w) : (generator poly).degree = w := by
  have hlt : (toPoly poly).degree < (X ^ w : (ZMod 2)[X]).degree := by
    rw [degree_X_pow]
    exact degree_toPoly_lt poly
  rw [generator, degree_add_eq_left_of_degree_lt hlt, degree_X_pow]

theorem generator_monic (poly : BitVec w) : (generator poly).Monic := by
  exact monic_X_pow_add (degree_toPoly_lt poly)

/-! ### The register as a remainder -/

theorem toPoly_shiftLeft_one (r : BitVec w) : toPoly (r <<< 1) = toPoly r * X + C (coeffOf r.msb) * X ^ w := by
  ext i
  rw [coeff_add, coeff_C_mul_X_pow, coeff_toPoly, BitVec.getLsbD_shiftLeft]
  cases i with
  | zero =>
      by_cases hw : 0 = w
      · subst hw
        simp [BitVec.msb, BitVec.getMsbD]
      · simp [hw]
  | succ i =>
      rw [coeff_mul_X, coeff_toPoly, Nat.add_sub_cancel, decide_eq_false (by omega : ¬ i + 1 < 1), Bool.not_false,
        Bool.and_true]
      by_cases hlt : i + 1 < w
      · rw [decide_eq_true hlt, Bool.true_and, if_neg (by omega), add_zero]
      · rw [decide_eq_false hlt, Bool.false_and, coeffOf_false]
        by_cases heq : i + 1 = w
        · subst heq
          rw [if_pos rfl, BitVec.msb_eq_getLsbD_last, Nat.add_sub_cancel, CharTwo.add_self_eq_zero]
        · rw [if_neg heq, add_zero, BitVec.getLsbD_of_ge _ _ (by omega), coeffOf_false]

theorem toPoly_masked (b : Bool) (poly : BitVec w) :
    toPoly (if b then poly else 0#w) = C (coeffOf b) * toPoly poly := by
  cases b with
  | false => simp
  | true => simp [coeffOf]

theorem toPoly_shift (r : BitVec w) :
    toPoly (shift poly r) = toPoly r * X + C (coeffOf r.msb) * generator poly := by
  rw [shift, toPoly_xor, toPoly_shiftLeft_one, toPoly_masked, generator]
  ring

variable (poly) in
theorem toPoly_shifts (n : Nat) (r : BitVec w) :
    ∃ q, toPoly (shifts poly n r) = toPoly r * X ^ n + q * generator poly := by
  induction n with
  | zero => exact ⟨0, by simp [shifts]⟩
  | succ n ih =>
      obtain ⟨q, hq⟩ := ih
      exact ⟨q * X + C (coeffOf (shifts poly n r).msb), by rw [shifts, toPoly_shift, hq]; ring⟩

/-- A register is the remainder of whatever it differs from by a multiple of the generator. -/
theorem toPoly_eq_modByMonic {r : BitVec w} {p q : (ZMod 2)[X]} (h : toPoly r = p + q * generator poly) :
    toPoly r = p %ₘ generator poly := by
  refine ((div_modByMonic_unique (-q) (toPoly r) (generator_monic poly) ⟨?_, ?_⟩).2).symm
  · rw [h]
    ring
  · rw [degree_generator]
    exact degree_toPoly_lt r

/-! ### Messages -/

/-- The bits of a byte, the most significant first. -/
def bitsOf (byte : BitVec 8) : List Bool := (List.range 8).map byte.getMsbD

/-- The bits of a message in the order they are sent. -/
def messageBits (bytes : List (BitVec 8)) : List Bool := bytes.flatMap bitsOf

theorem ofBits_append (front back : List Bool) :
    ofBits (front ++ back) = ofBits front * X ^ back.length + ofBits back := by
  induction front with
  | nil => simp [ofBits]
  | cons b front ih =>
      rw [List.cons_append, ofBits, ofBits, ih, List.length_append]
      ring

theorem ofBits_bitsOf (byte : BitVec 8) : ofBits (bitsOf byte) = toPoly byte := by
  have hbits : bitsOf byte = [byte.getLsbD 7, byte.getLsbD 6, byte.getLsbD 5, byte.getLsbD 4, byte.getLsbD 3,
      byte.getLsbD 2, byte.getLsbD 1, byte.getLsbD 0] := rfl
  rw [hbits, toPoly]
  simp only [ofBits, List.length_cons, List.length_nil, Finset.sum_range_succ, Finset.sum_range_zero]
  ring

theorem toPoly_atTop (hw : 8 ≤ w) (byte : BitVec 8) : toPoly (atTop w byte) = toPoly byte * X ^ (w - 8) := by
  ext i
  rw [coeff_toPoly, coeff_mul_X_pow', coeff_toPoly]
  by_cases hi : i < w
  · rw [getLsbD_atTop byte hi]
    by_cases hle : w - 8 ≤ i
    · simp [hle]
    · simp [hle]
  · rw [BitVec.getLsbD_of_ge _ _ (by omega), if_pos (by omega), BitVec.getLsbD_of_ge byte _ (by omega)]

variable (poly) in
theorem toPoly_byteStep (hw : 8 ≤ w) (r : BitVec w) (byte : BitVec 8) :
    ∃ q, toPoly (byteStep poly r byte) = toPoly r * X ^ 8 + toPoly byte * X ^ w + q * generator poly := by
  obtain ⟨q, hq⟩ := toPoly_shifts poly 8 (r ^^^ atTop w byte)
  have hpow : (X : (ZMod 2)[X]) ^ w = X ^ (w - 8) * X ^ 8 := by
    rw [← pow_add]
    congr 1
    omega
  refine ⟨q, ?_⟩
  rw [byteStep, hq, toPoly_xor, toPoly_atTop hw, hpow]
  ring

/-- The register after a message: the message moved up by `w` places, up to a multiple of the generator. -/
theorem toPoly_run (hw : 8 ≤ w) (bytes : List (BitVec 8)) :
    ∃ q, toPoly (remainder poly bytes) = ofBits (messageBits bytes) * X ^ w + q * generator poly := by
  induction bytes using List.reverseRecOn with
  | nil => exact ⟨0, by simp [remainder, messageBits, ofBits]⟩
  | append_singleton bytes byte ih =>
      obtain ⟨q, hq⟩ := ih
      obtain ⟨q', hq'⟩ := toPoly_byteStep poly hw (remainder poly bytes) byte
      refine ⟨q * X ^ 8 + q', ?_⟩
      have hbits : messageBits (bytes ++ [byte]) = messageBits bytes ++ bitsOf byte := by
        simp [messageBits]
      have hlen : (bitsOf byte).length = 8 := rfl
      rw [hbits, ofBits_append, ofBits_bitsOf, hlen, remainder, List.foldl_append, List.foldl_cons, List.foldl_nil]
      rw [remainder] at hq'
      rw [remainder] at hq
      rw [hq', hq]
      ring

theorem remainder_eq_modByMonic (hw : 8 ≤ w) (bytes : List (BitVec 8)) :
    toPoly (remainder poly bytes) = (ofBits (messageBits bytes) * X ^ w) %ₘ generator poly := by
  obtain ⟨q, hq⟩ := toPoly_run hw bytes
  exact toPoly_eq_modByMonic hq

/-! ### Bit by bit -/

/-- One bit of a message: the polynomial is added when the bit differs from the one that falls out. -/
def bitStep (poly r : BitVec w) (b : Bool) : BitVec w := (r <<< 1) ^^^ (if r.msb ^^ b then poly else 0#w)

def serial (poly : BitVec w) (bits : List Bool) : BitVec w := bits.foldl (bitStep poly) 0#w

variable (poly) in
theorem toPoly_bitStep (r : BitVec w) (b : Bool) :
    toPoly (bitStep poly r b) =
      toPoly r * X + C (coeffOf b) * X ^ w + C (coeffOf (r.msb ^^ b)) * generator poly := by
  have htwice : C (coeffOf b) * X ^ w + C (coeffOf b) * X ^ w = (0 : (ZMod 2)[X]) := CharTwo.add_self_eq_zero _
  rw [bitStep, toPoly_xor, toPoly_shiftLeft_one, toPoly_masked, generator, coeffOf_xor, C_add]
  linear_combination -htwice

theorem serial_eq_modByMonic (bits : List Bool) :
    toPoly (serial poly bits) = (ofBits bits * X ^ w) %ₘ generator poly := by
  have hrun : ∃ q, toPoly (serial poly bits) = ofBits bits * X ^ w + q * generator poly := by
    induction bits using List.reverseRecOn with
    | nil => exact ⟨0, by simp [serial, ofBits]⟩
    | append_singleton bits b ih =>
        obtain ⟨q, hq⟩ := ih
        refine ⟨q * X + C (coeffOf ((serial poly bits).msb ^^ b)), ?_⟩
        have hstep := toPoly_bitStep poly (serial poly bits) b
        have hserial : serial poly (bits ++ [b]) = bitStep poly (serial poly bits) b := by
          rw [serial, List.foldl_append, List.foldl_cons, List.foldl_nil, serial]
        have hone : ofBits [b] = C (coeffOf b) := by
          simp [ofBits]
        rw [hserial, hstep, hq, ofBits_append, hone, List.length_singleton]
        ring
  obtain ⟨q, hq⟩ := hrun
  exact toPoly_eq_modByMonic hq

theorem remainder_eq_serial (hw : 8 ≤ w) (bytes : List (BitVec 8)) :
    remainder poly bytes = serial poly (messageBits bytes) := by
  apply toPoly_injective
  rw [remainder_eq_modByMonic hw, serial_eq_modByMonic]

/-! ### Bursts -/

theorem coeff_ofBits (bits : List Bool) (i : Nat) :
    (ofBits bits).coeff i = if i < bits.length then coeffOf (bits.getD (bits.length - 1 - i) false) else 0 := by
  induction bits with
  | nil => simp [ofBits]
  | cons b bits ih =>
      rw [ofBits, coeff_add, coeff_C_mul_X_pow, ih, List.length_cons]
      by_cases hlt : i < bits.length
      · have hindex : bits.length + 1 - 1 - i = bits.length - 1 - i + 1 := by
          omega
        rw [if_neg (by omega), zero_add, if_pos hlt, if_pos (by omega), hindex, List.getD_cons_succ]
      · by_cases heq : i = bits.length
        · have hindex : bits.length + 1 - 1 - i = 0 := by
            omega
          rw [if_pos heq, if_neg hlt, add_zero, if_pos (by omega), hindex, List.getD_cons_zero]
        · rw [if_neg heq, if_neg hlt, zero_add, if_neg (by omega)]

theorem ofBits_injective {a b : List Bool} (hlen : a.length = b.length) (h : ofBits a = ofBits b) : a = b := by
  apply List.ext_getElem hlen
  intro i ha hb
  have hcoeff := congrArg (fun p : (ZMod 2)[X] => p.coeff (a.length - 1 - i)) h
  have hindex : a.length - 1 - (a.length - 1 - i) = i := by
    omega
  simp only [coeff_ofBits, ← hlen] at hcoeff
  rw [if_pos (by omega), if_pos (by omega), hindex] at hcoeff
  have hbit := coeffOf_injective hcoeff
  rwa [List.getD_eq_getElem a false ha, List.getD_eq_getElem b false hb] at hbit

theorem generator_coprime (hw : 0 < w) (hpoly : poly.getLsbD 0 = true) (n : Nat) :
    IsCoprime (generator poly) (X ^ n) := by
  apply IsCoprime.pow_right
  have hconst : (generator poly).coeff 0 = 1 := by
    rw [generator, coeff_add, coeff_X_pow, if_neg (by omega), zero_add, coeff_toPoly, hpoly]
    rfl
  refine ⟨1, -divX (generator poly), ?_⟩
  have hsplit := divX_mul_X_add (generator poly)
  rw [hconst, C_1] at hsplit
  linear_combination -hsplit

/-- The bits that differ lie within `w` places, so their polynomial is one below the degree of the generator,
moved up. -/
theorem burst_eq {a b : List Bool} (hlen : a.length = b.length) {start : Nat}
    (hwindow : ∀ i, a.getD i false ≠ b.getD i false → start ≤ i ∧ i < start + w) :
    ∃ burst : (ZMod 2)[X], burst.degree < w ∧ ofBits a - ofBits b = X ^ (a.length - (start + w)) * burst := by
  have hcoeff : ∀ i, (ofBits a - ofBits b).coeff i ≠ 0 →
      i < a.length ∧ start ≤ a.length - 1 - i ∧ a.length - 1 - i < start + w := by
    intro i hi
    rw [coeff_sub, coeff_ofBits, coeff_ofBits, ← hlen] at hi
    by_cases hlt : i < a.length
    · rw [if_pos hlt, if_pos hlt] at hi
      refine ⟨hlt, hwindow _ (fun heq => hi ?_)⟩
      rw [heq, sub_self]
    · rw [if_neg hlt, if_neg hlt, sub_self] at hi
      exact absurd rfl hi
  have hdvd : X ^ (a.length - (start + w)) ∣ ofBits a - ofBits b := by
    rw [X_pow_dvd_iff]
    intro i hi
    by_contra hne
    have := hcoeff i hne
    omega
  obtain ⟨burst, hburst⟩ := hdvd
  refine ⟨burst, ?_, hburst⟩
  rw [degree_lt_iff_coeff_zero]
  intro i hi
  by_contra hne
  have hmoved : (ofBits a - ofBits b).coeff (i + (a.length - (start + w))) ≠ 0 := by
    rwa [hburst, coeff_X_pow_mul]
  have := hcoeff _ hmoved
  omega

theorem serial_ne_of_burst (hw : 0 < w) (hpoly : poly.getLsbD 0 = true) {a b : List Bool}
    (hlen : a.length = b.length) (hne : a ≠ b) {start : Nat}
    (hwindow : ∀ i, a.getD i false ≠ b.getD i false → start ≤ i ∧ i < start + w) :
    serial poly a ≠ serial poly b := by
  intro heq
  have hmod : (ofBits a * X ^ w) %ₘ generator poly = (ofBits b * X ^ w) %ₘ generator poly := by
    rw [← serial_eq_modByMonic, ← serial_eq_modByMonic, heq]
  have hdvd : generator poly ∣ (ofBits a - ofBits b) * X ^ w := by
    rw [sub_mul, ← modByMonic_eq_zero_iff_dvd (generator_monic poly), sub_modByMonic, hmod, sub_self]
  obtain ⟨burst, hdegree, hburst⟩ := burst_eq hlen hwindow
  have hdvdBurst : generator poly ∣ burst := by
    have hdiff := (generator_coprime hw hpoly w).dvd_of_dvd_mul_right hdvd
    rw [hburst] at hdiff
    exact (generator_coprime hw hpoly _).dvd_of_dvd_mul_left hdiff
  have hzero : burst = 0 := by
    by_contra hburstNe
    rw [← degree_generator poly] at hdegree
    exact (generator_monic poly).not_dvd_of_degree_lt hburstNe hdegree hdvdBurst
  rw [hzero, mul_zero, sub_eq_zero] at hburst
  exact hne (ofBits_injective hlen hburst)

end Crc
