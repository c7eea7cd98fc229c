import Mathlib.GroupTheory.OrderOfElement
import Mathlib.RingTheory.AdjoinRoot
import MissionServer.Lib.CrcPoly

/-!
# The distance of a cyclic redundancy check

A message followed by its register is a multiple of the generator, and so is the difference of two such words.
A generator with the factor `X + 1` divides no polynomial with an odd number of terms, and it divides
`X ^ i + X ^ j` only where the order of `X` divides `j - i`. Words no longer than that order therefore differ
in four bits at least.
-/

namespace Crc

open Polynomial

variable {w : Nat} {poly : BitVec w}

/-! ### Words -/

/-- The number of places in which two strings of bits differ. -/
def errors (a b : List Bool) : Nat := (List.zipWith xor a b).count true

theorem errors_append {a b : List Bool} (hlen : a.length = b.length) (a' b' : List Bool) :
    errors (a ++ a') (b ++ b') = errors a b + errors a' b' := by
  rw [errors, List.zipWith_append hlen, List.count_append, errors, errors]

/-- The bits of a register, the most significant first. -/
def wordBits (r : BitVec w) : List Bool := (List.range w).map r.getMsbD

@[simp] theorem length_wordBits (r : BitVec w) : (wordBits r).length = w := by
  rw [wordBits, List.length_map, List.length_range]

theorem errors_wordBits_xor (r c : BitVec w) : errors (wordBits r) (wordBits (r ^^^ c)) = (wordBits c).count true := by
  rw [errors]
  congr 1
  simp only [wordBits, List.zipWith_map, List.zipWith_self, BitVec.getMsbD_xor]
  apply List.map_congr_left
  intro i hi
  rw [← Bool.xor_assoc, Bool.xor_self, Bool.false_xor]

theorem ofBits_wordBits (r : BitVec w) : ofBits (wordBits r) = toPoly r := by
  ext i
  rw [coeff_ofBits, coeff_toPoly, length_wordBits]
  by_cases hi : i < w
  · have hlt : w - 1 - i < (wordBits r).length := by
      rw [length_wordBits]
      omega
    rw [if_pos hi, List.getD_eq_getElem _ _ hlt]
    simp only [wordBits, List.getElem_map, List.getElem_range]
    rw [BitVec.getMsbD_eq_getLsbD, decide_eq_true (by omega), Bool.true_and, show w - 1 - (w - 1 - i) = i by omega]
  · rw [if_neg hi, BitVec.getLsbD_of_ge _ _ (by omega), coeffOf_false]

theorem dvd_ofBits_codeword (bits : List Bool) :
    generator poly ∣ ofBits (bits ++ wordBits (serial poly bits)) := by
  have hsplit := modByMonic_add_div (ofBits bits * X ^ w) (generator poly)
  have htwice : toPoly (serial poly bits) + toPoly (serial poly bits) = 0 := CharTwo.add_self_eq_zero _
  refine ⟨(ofBits bits * X ^ w) /ₘ generator poly, ?_⟩
  rw [ofBits_append, ofBits_wordBits, length_wordBits]
  rw [← serial_eq_modByMonic] at hsplit
  linear_combination htwice - hsplit

theorem ofBits_zipWith {a b : List Bool} (hlen : a.length = b.length) :
    ofBits (List.zipWith xor a b) = ofBits a + ofBits b := by
  induction a generalizing b with
  | nil =>
      obtain rfl := List.length_eq_zero_iff.mp hlen.symm
      simp [ofBits]
  | cons x a ih =>
      cases b with
      | nil => exact absurd hlen (by simp)
      | cons y b =>
          have hlen' : a.length = b.length := Nat.succ.inj hlen
          rw [List.zipWith_cons_cons, ofBits, ofBits, ofBits, ih hlen', List.length_zipWith, ← hlen', Nat.min_self,
            coeffOf_xor, C_add]
          ring

/-! ### Polynomials with few terms -/

theorem ofBits_cons_false (bits : List Bool) : ofBits (false :: bits) = ofBits bits := by
  rw [ofBits, coeffOf_false, C_0, zero_mul, zero_add]

theorem ofBits_cons_true (bits : List Bool) : ofBits (true :: bits) = X ^ bits.length + ofBits bits := by
  have hone : coeffOf true = 1 := rfl
  rw [ofBits, hone, C_1, one_mul]

theorem eval_one_ofBits (bits : List Bool) : (ofBits bits).eval 1 = (bits.count true : ZMod 2) := by
  induction bits with
  | nil => simp [ofBits]
  | cons b bits ih =>
      cases b with
      | false => rw [ofBits_cons_false, ih, List.count_cons_of_ne (by decide)]
      | true =>
          rw [ofBits_cons_true, eval_add, eval_pow, eval_X, one_pow, ih, List.count_cons_self, Nat.cast_add,
            Nat.cast_one, add_comm]

theorem ofBits_of_count_zero {bits : List Bool} (h : bits.count true = 0) : ofBits bits = 0 := by
  induction bits with
  | nil => rfl
  | cons b bits ih =>
      cases b with
      | false =>
          rw [List.count_cons_of_ne (by decide)] at h
          rw [ofBits_cons_false, ih h]
      | true =>
          rw [List.count_cons_self] at h
          exact absurd h (Nat.succ_ne_zero _)

theorem ofBits_of_count_one {bits : List Bool} (h : bits.count true = 1) :
    ∃ i < bits.length, ofBits bits = X ^ i := by
  induction bits with
  | nil => exact absurd h (by simp)
  | cons b bits ih =>
      cases b with
      | false =>
          rw [List.count_cons_of_ne (by decide)] at h
          obtain ⟨i, hi, heq⟩ := ih h
          exact ⟨i, Nat.lt_succ_of_lt hi, by rw [ofBits_cons_false, heq]⟩
      | true =>
          rw [List.count_cons_self] at h
          have hrest : bits.count true = 0 := Nat.succ.inj h
          exact ⟨bits.length, Nat.lt_succ_self _, by rw [ofBits_cons_true, ofBits_of_count_zero hrest, add_zero]⟩

theorem ofBits_of_count_two {bits : List Bool} (h : bits.count true = 2) :
    ∃ i j, i < j ∧ j < bits.length ∧ ofBits bits = X ^ i + X ^ j := by
  induction bits with
  | nil => exact absurd h (by simp)
  | cons b bits ih =>
      cases b with
      | false =>
          rw [List.count_cons_of_ne (by decide)] at h
          obtain ⟨i, j, hij, hj, heq⟩ := ih h
          exact ⟨i, j, hij, Nat.lt_succ_of_lt hj, by rw [ofBits_cons_false, heq]⟩
      | true =>
          rw [List.count_cons_self] at h
          obtain ⟨i, hi, heq⟩ := ofBits_of_count_one (Nat.succ.inj h)
          exact ⟨i, bits.length, hi, Nat.lt_succ_self _, by rw [ofBits_cons_true, heq, add_comm]⟩

/-! ### The order of `X` -/

variable (poly) in
/-- A register as a residue modulo the generator. -/
noncomputable def residue (r : BitVec w) : AdjoinRoot (generator poly) := AdjoinRoot.mk (generator poly) (toPoly r)

variable (poly) in
/-- The least power of `X` that leaves the remainder one. -/
noncomputable def order : Nat := orderOf (AdjoinRoot.root (generator poly))

theorem root_pow_eq_one_iff (n : Nat) :
    AdjoinRoot.root (generator poly) ^ n = 1 ↔ generator poly ∣ X ^ n + 1 := by
  have hmk : AdjoinRoot.mk (generator poly) (X ^ n - 1) = AdjoinRoot.root (generator poly) ^ n - 1 := by
    rw [map_sub, map_pow, AdjoinRoot.mk_X, map_one]
  rw [← sub_eq_zero, ← hmk, AdjoinRoot.mk_eq_zero, CharTwo.sub_eq_add]

theorem not_dvd_two_terms (hw : 0 < w) (hpoly : poly.getLsbD 0 = true) {i j : Nat} (hij : i < j)
    (hnear : j - i < order poly) : ¬ generator poly ∣ X ^ i + X ^ j := by
  intro hdvd
  have hsplit : (X : (ZMod 2)[X]) ^ i + X ^ j = X ^ i * (X ^ (j - i) + 1) := by
    rw [mul_add, mul_one, ← pow_add, Nat.add_sub_cancel' hij.le, add_comm]
  rw [hsplit] at hdvd
  have hone := (root_pow_eq_one_iff (j - i)).mpr ((generator_coprime hw hpoly i).dvd_of_dvd_mul_left hdvd)
  exact pow_ne_one_of_lt_orderOf (Nat.sub_ne_zero_of_lt hij) hnear hone

/-! ### Multiplying registers -/

variable (poly) in
/-- The product of two registers: the shifts of the first that the bits of the second ask for. -/
def mulFrom (a b : BitVec w) : Nat → BitVec w
  | 0 => 0#w
  | n + 1 => mulFrom a b n ^^^ (if b.getLsbD n then shifts poly n a else 0#w)

variable (poly) in
def mul (a b : BitVec w) : BitVec w := mulFrom poly a b w

variable (poly) in
/-- A register squared `n` times. -/
def squared (r : BitVec w) : Nat → BitVec w
  | 0 => r
  | n + 1 => mul poly (squared r n) (squared r n)

theorem residue_injective {r s : BitVec w} (h : residue poly r = residue poly s) : r = s := by
  rw [residue, residue, AdjoinRoot.mk_eq_mk] at h
  have hdegree : (toPoly r - toPoly s).degree < (generator poly).degree := by
    rw [degree_generator, CharTwo.sub_eq_add, ← toPoly_xor]
    exact degree_toPoly_lt _
  have hzero := eq_zero_of_dvd_of_degree_lt h hdegree
  exact toPoly_injective (sub_eq_zero.mp hzero)

theorem residue_xor (r s : BitVec w) : residue poly (r ^^^ s) = residue poly r + residue poly s := by
  rw [residue, toPoly_xor, map_add, residue, residue]

theorem residue_shifts (n : Nat) (r : BitVec w) :
    residue poly (shifts poly n r) = residue poly r * AdjoinRoot.root (generator poly) ^ n := by
  obtain ⟨q, hq⟩ := toPoly_shifts poly n r
  rw [residue, hq, map_add, map_mul, map_mul, AdjoinRoot.mk_self, mul_zero, add_zero, map_pow, AdjoinRoot.mk_X,
    residue]

theorem residue_mul (a b : BitVec w) : residue poly (mul poly a b) = residue poly a * residue poly b := by
  have hfrom : ∀ n, residue poly (mulFrom poly a b n) = residue poly a *
      AdjoinRoot.mk (generator poly) (∑ i ∈ Finset.range n, C (coeffOf (b.getLsbD i)) * X ^ i) := by
    intro n
    induction n with
    | zero =>
        rw [mulFrom, Finset.sum_range_zero, map_zero, mul_zero, residue, toPoly_zero, map_zero]
    | succ n ih =>
        rw [mulFrom, residue_xor, ih, Finset.sum_range_succ, map_add, mul_add]
        congr 1
        cases b.getLsbD n with
        | false => simp [residue]
        | true =>
            have hone : coeffOf true = 1 := rfl
            rw [if_pos rfl, residue_shifts, hone, C_1, one_mul, map_pow, AdjoinRoot.mk_X]
  rw [mul, hfrom, residue, residue, toPoly, toPoly]

theorem residue_squared (r : BitVec w) (n : Nat) : residue poly (squared poly r n) = residue poly r ^ 2 ^ n := by
  induction n with
  | zero => rw [squared, pow_zero, pow_one]
  | succ n ih => rw [squared, residue_mul, ih, ← pow_add, pow_succ, Nat.mul_two]

theorem residue_one (hw : 0 < w) : residue poly (1#w) = 1 := by
  have hone : toPoly (1#w) = 1 := by
    ext i
    rw [coeff_toPoly, coeff_one, BitVec.getLsbD_one]
    by_cases hi : i = 0
    · rw [decide_eq_true hw, decide_eq_true hi, if_pos hi]
      rfl
    · rw [decide_eq_false hi, Bool.and_false, if_neg hi, coeffOf_false]
  rw [residue, hone, map_one]

variable (poly) in
/-- The register that holds `X ^ n`, where these powers of two make up `n`. -/
def power (ks : List Nat) : BitVec w := ks.foldr (fun k r => mul poly (squared poly (shift poly 1#w) k) r) 1#w

theorem residue_power (hw : 0 < w) (ks : List Nat) :
    residue poly (power poly ks) = AdjoinRoot.root (generator poly) ^ (ks.map (2 ^ ·)).sum := by
  have hshift : residue poly (shift poly 1#w) = AdjoinRoot.root (generator poly) := by
    have hone : residue poly (shifts poly 1 1#w) = _ := residue_shifts 1 1#w
    rwa [shifts, shifts, residue_one hw, one_mul, pow_one] at hone
  induction ks with
  | nil => exact residue_one hw
  | cons k ks ih =>
      rw [List.map_cons, List.sum_cons, pow_add, ← ih, ← hshift, ← residue_squared, ← residue_mul]
      rfl

theorem root_pow_iff_power (hw : 0 < w) (ks : List Nat) :
    AdjoinRoot.root (generator poly) ^ (ks.map (2 ^ ·)).sum = 1 ↔ power poly ks = 1#w := by
  rw [← residue_power hw, ← residue_one hw]
  exact ⟨fun h => residue_injective h, fun h => by rw [h]⟩

/-! ### Distance -/

section Distance

variable {a b : List Bool} (hlen : a.length = b.length) (hne : a ≠ b) (ha : generator poly ∣ ofBits a)
  (hb : generator poly ∣ ofBits b)

include hlen hne in
theorem errors_pos : 0 < errors a b := by
  rw [Nat.pos_iff_ne_zero]
  intro hzero
  have hsum := ofBits_of_count_zero hzero
  rw [ofBits_zipWith hlen, CharTwo.add_eq_zero] at hsum
  exact hne (ofBits_injective hlen hsum)

include hlen ha hb in
theorem errors_even (hone : (generator poly).eval 1 = 0) : Even (errors a b) := by
  obtain ⟨q, hq⟩ := dvd_add ha hb
  have hcount := eval_one_ofBits (List.zipWith xor a b)
  rw [ofBits_zipWith hlen, hq, eval_mul, hone, zero_mul] at hcount
  rw [even_iff_two_dvd, errors]
  exact (ZMod.natCast_eq_zero_iff _ 2).mp hcount.symm

include hlen ha hb in
theorem errors_ne_two (hw : 0 < w) (hpoly : poly.getLsbD 0 = true) (hshort : a.length ≤ order poly) :
    errors a b ≠ 2 := by
  intro htwo
  obtain ⟨i, j, hij, hj, hterms⟩ := ofBits_of_count_two htwo
  have hlt : j < a.length := by
    rw [List.length_zipWith] at hj
    omega
  apply not_dvd_two_terms hw hpoly hij (by omega : j - i < order poly)
  rw [← hterms, ofBits_zipWith hlen]
  exact dvd_add ha hb

include hlen hne ha hb in
/-- Multiples of a generator with the factor `X + 1` are at least two bits apart, and four where they are no
longer than the order of `X`. -/
theorem errors_bounds (hw : 0 < w) (hpoly : poly.getLsbD 0 = true) (hone : (generator poly).eval 1 = 0) :
    2 ≤ errors a b ∧ (a.length ≤ order poly → 4 ≤ errors a b) := by
  have hpos := errors_pos hlen hne
  obtain ⟨half, heven⟩ := errors_even hlen ha hb hone
  refine ⟨by omega, fun hshort => ?_⟩
  have htwo := errors_ne_two hlen ha hb hw hpoly hshort
  omega

end Distance

end Crc
