import MissionServer.Lib.CrcPoly
import MissionServer.Proof.SiyiFrames

/-!
# What the checksum of a frame is worth

The table-driven loop divides by the polynomial `X ^ 16 + X ^ 12 + X ^ 5 + 1`, and so no error burst of at
most 16 bits goes unnoticed.
-/

namespace MissionServer

open Polynomial

theorem generator_crc16Poly : Crc.generator crc16Poly = X ^ 16 + X ^ 12 + X ^ 5 + 1 := by
  have hbits : Crc.toPoly crc16Poly = X ^ 12 + X ^ 5 + 1 := by
    have hcoeff : ∀ i < 16, Crc.coeffOf (crc16Poly.getLsbD i) = if i = 12 ∨ i = 5 ∨ i = 0 then 1 else 0 := by
      decide
    ext i
    rw [Crc.coeff_toPoly, coeff_add, coeff_add, coeff_X_pow, coeff_X_pow, coeff_one]
    by_cases hi : i < 16
    · rw [hcoeff i hi]
      by_cases h12 : i = 12
      · simp [h12]
      · by_cases h5 : i = 5
        · simp [h5]
        · by_cases h0 : i = 0 <;> simp [h12, h5, h0]
    · rw [BitVec.getLsbD_of_ge _ _ (by omega), if_neg (by omega), if_neg (by omega), if_neg (by omega)]
      simp
  rw [Crc.generator, hbits]
  ring

/-- The bits of a byte string in the order the checksum takes them. -/
def bitsOfBytes (bytes : Bytes) : List Bool := Crc.messageBits (bytes.map (·.toBitVec))

theorem toBitVec_crc16Calculate (bytes : Bytes) :
    (crc16Calculate bytes).toBitVec = Crc.remainder crc16Poly (bytes.map (·.toBitVec)) := by
  rw [crc16Calculate_eq, siyiCrc, UInt16.toBitVec_ofBitVec]

/-! ### The expression of the loop -/

/-- The index of the table entry, in the integers that the operands are promoted to. -/
def crc16Index (crc byte : Nat) : Nat := ((crc >>> 8) &&& 0xff) ^^^ byte

/-- The right side of the assignment, before it is cut to 16 bits. -/
def crc16Promoted (crc byte : Nat) : Nat :=
  ((crc <<< 8) &&& 0xff00) ^^^ (crc16Tab.getD (crc16Index crc byte) 0).toNat

theorem crc16Index_lt (crc : UInt16) (byte : UInt8) : crc16Index crc.toNat byte.toNat < crc16Tab.size := by
  have hsize : crc16Tab.size = 2 ^ 8 := by decide +kernel
  rw [hsize, crc16Index]
  exact Nat.xor_lt_two_pow (Nat.and_lt_two_pow _ (by decide)) byte.toNat_lt

theorem crc16Promoted_lt (crc : UInt16) (byte : UInt8) : crc16Promoted crc.toNat byte.toNat < 2 ^ 16 := by
  exact Nat.xor_lt_two_pow (Nat.and_lt_two_pow _ (by decide)) (UInt16.toNat_lt _)

theorem toNat_crc16Step (crc : UInt16) (byte : UInt8) :
    (crc16Step crc byte).toNat = crc16Promoted crc.toNat byte.toNat := by
  have hindex : (((crc >>> 8) &&& (0xff : UInt16)) ^^^ byte.toUInt16).toNat = crc16Index crc.toNat byte.toNat := by
    simp only [UInt16.toNat_xor, UInt16.toNat_and, UInt16.toNat_shiftRight, UInt8.toNat_toUInt16]
    rfl
  have hmoved : ((crc <<< 8) &&& (0xff00 : UInt16)).toNat = (crc.toNat <<< 8) &&& 0xff00 := by
    have hfits : ((crc.toNat <<< 8) &&& 0xff00) % 2 ^ 16 = (crc.toNat <<< 8) &&& 0xff00 :=
      Nat.mod_eq_of_lt (Nat.and_lt_two_pow _ (by decide))
    rw [UInt16.toNat_and, UInt16.toNat_shiftLeft, ← hfits, Nat.and_mod_two_pow]
    rfl
  rw [crc16Step, UInt16.toNat_xor, hindex, hmoved, crc16Promoted]

/-- The checksum is the remainder of the message moved up by 16 places, the register of the bit by bit check,
and nothing is lost on the way: the index stays in the table, the right side fits in 16 bits, and one turn of
the loop is one step of the division. -/
theorem crc16Calculate_division (bytes : Bytes) :
    Crc.toPoly (crc16Calculate bytes).toBitVec =
      (Crc.ofBits (bitsOfBytes bytes) * X ^ 16) %ₘ (X ^ 16 + X ^ 12 + X ^ 5 + 1) ∧
    (crc16Calculate bytes).toBitVec = Crc.serial 0x1021#16 (bitsOfBytes bytes) ∧
    (∀ (crc : UInt16) (byte : UInt8),
      crc16Index crc.toNat byte.toNat < crc16Tab.size ∧
      crc16Promoted crc.toNat byte.toNat < 2 ^ 16 ∧
      (crc16Step crc byte).toNat = crc16Promoted crc.toNat byte.toNat ∧
      Crc.toPoly (crc16Step crc byte).toBitVec =
        (Crc.toPoly crc.toBitVec * X ^ 8 + Crc.toPoly byte.toBitVec * X ^ 16) %ₘ
          (X ^ 16 + X ^ 12 + X ^ 5 + 1)) := by
  rw [toBitVec_crc16Calculate, ← generator_crc16Poly]
  refine ⟨Crc.remainder_eq_modByMonic (by decide) _, Crc.remainder_eq_serial (by decide) _, ?_⟩
  intro crc byte
  refine ⟨crc16Index_lt crc byte, crc16Promoted_lt crc byte, toNat_crc16Step crc byte, ?_⟩
  obtain ⟨q, hq⟩ := Crc.toPoly_byteStep crc16Poly (by decide) crc.toBitVec byte.toBitVec
  rw [crc16Step_eq]
  exact Crc.toPoly_eq_modByMonic hq

/-! ### Bursts -/

theorem length_bitsOfBytes (bytes : Bytes) : (bitsOfBytes bytes).length = 8 * bytes.length := by
  induction bytes with
  | nil => rfl
  | cons byte bytes ih =>
      have hcons : bitsOfBytes (byte :: bytes) = Crc.bitsOf byte.toBitVec ++ bitsOfBytes bytes := rfl
      have hlen : (Crc.bitsOf byte.toBitVec).length = 8 := rfl
      rw [hcons, List.length_append, ih, hlen, List.length_cons]
      omega

theorem getElem?_bitsOfBytes (bytes : Bytes) (i : Nat) :
    (bitsOfBytes bytes)[i]? = bytes[i / 8]?.map (fun byte => byte.toBitVec.getMsbD (i % 8)) := by
  induction bytes generalizing i with
  | nil => rfl
  | cons byte bytes ih =>
      have hcons : bitsOfBytes (byte :: bytes) = Crc.bitsOf byte.toBitVec ++ bitsOfBytes bytes := rfl
      have hlen : (Crc.bitsOf byte.toBitVec).length = 8 := rfl
      rw [hcons]
      by_cases hi : i < 8
      · rw [List.getElem?_append_left (by omega), Nat.div_eq_of_lt hi, Nat.mod_eq_of_lt hi, Crc.bitsOf,
          List.getElem?_map, List.getElem?_range hi]
        rfl
      · have hdiv : i / 8 = (i - 8) / 8 + 1 := by
          omega
        have hmod : i % 8 = (i - 8) % 8 := by
          omega
        rw [List.getElem?_append_right (by omega), hlen, ih, hdiv, List.getElem?_cons_succ, hmod]

theorem bitsOfBytes_injective {a b : Bytes} (h : bitsOfBytes a = bitsOfBytes b) : a = b := by
  have hlen : a.length = b.length := by
    have := congrArg List.length h
    rw [length_bitsOfBytes, length_bitsOfBytes] at this
    omega
  apply List.ext_getElem hlen
  intro n ha hb
  rw [← UInt8.toBitVec_inj]
  apply BitVec.eq_of_getMsbD_eq
  intro i hi
  have hbit := congrArg (fun bits => bits[8 * n + i]?) h
  have hdiv : (8 * n + i) / 8 = n := by
    omega
  have hmod : (8 * n + i) % 8 = i := by
    omega
  simp only [getElem?_bitsOfBytes, hdiv, hmod, List.getElem?_eq_getElem ha, List.getElem?_eq_getElem hb,
    Option.map_some] at hbit
  exact Option.some.inj hbit

/-- Two byte strings of one length that differ, and only within 16 bits in a row, have different checksums. -/
theorem crc16Calculate_ne_of_burst {a b : Bytes} (hlen : a.length = b.length) (hne : a ≠ b) {start : Nat}
    (hwindow : ∀ i, (bitsOfBytes a).getD i false ≠ (bitsOfBytes b).getD i false → start ≤ i ∧ i < start + 16) :
    crc16Calculate a ≠ crc16Calculate b := by
  have hbits : bitsOfBytes a ≠ bitsOfBytes b := fun h => hne (bitsOfBytes_injective h)
  have hbitsLen : (bitsOfBytes a).length = (bitsOfBytes b).length := by
    rw [length_bitsOfBytes, length_bitsOfBytes, hlen]
  have hserial : Crc.serial crc16Poly (bitsOfBytes a) ≠ Crc.serial crc16Poly (bitsOfBytes b) :=
    Crc.serial_ne_of_burst (by decide) (by decide) hbitsLen hbits hwindow
  intro heq
  apply hserial
  rw [bitsOfBytes, bitsOfBytes, ← Crc.remainder_eq_serial (by decide), ← Crc.remainder_eq_serial (by decide),
    ← toBitVec_crc16Calculate, ← toBitVec_crc16Calculate, heq]

/-- A burst over three bytes: the first and the last of its sixteen bits, and one between. -/
theorem crc16Calculate_ne_of_burst_example :
    crc16Calculate [0x31, 0x01, 0x40, 0x02] ≠ crc16Calculate [0x31, 0x00, 0xC0, 0x00] := by
  have hwindow : ∀ i, (bitsOfBytes [0x31, 0x01, 0x40, 0x02]).getD i false ≠
      (bitsOfBytes [0x31, 0x00, 0xC0, 0x00]).getD i false → 15 ≤ i ∧ i < 15 + 16 := by
    intro i hne
    by_contra hout
    apply hne
    by_cases hi : i < 32
    · have hsame : ∀ i < 32, ¬ (15 ≤ i ∧ i < 15 + 16) → (bitsOfBytes [0x31, 0x01, 0x40, 0x02]).getD i false =
          (bitsOfBytes [0x31, 0x00, 0xC0, 0x00]).getD i false := by decide
      exact hsame i hi hout
    · rw [List.getD_eq_default _ _ (by rw [length_bitsOfBytes]; exact not_lt.mp hi),
        List.getD_eq_default _ _ (by rw [length_bitsOfBytes]; exact not_lt.mp hi)]
  exact crc16Calculate_ne_of_burst rfl (by decide) hwindow

end MissionServer
