import Mathlib.Tactic.NormNum.Prime
import MissionServer.Lib.CrcDistance
import MissionServer.Proof.Checksum

/-!
# How many wrong bits the checksum of a frame tolerates

`X ^ 16 + X ^ 12 + X ^ 5 + 1` has the factor `X + 1`, and `X` has the order `32767` modulo it. Up to 4093 bytes
a message and its checksum are four bits away from any other message and its checksum, and beyond that two.
-/

namespace MissionServer

open Polynomial

/-! ### The order of `X` -/

theorem root_pow_crc16 : AdjoinRoot.root (Crc.generator crc16Poly) ^ 32767 = 1 := by
  have hpower : Crc.power crc16Poly (List.range 15) = 1#16 := by
    decide +kernel
  exact (Crc.root_pow_iff_power (by decide) (List.range 15)).mpr hpower

theorem root_pow_crc16_ne :
    AdjoinRoot.root (Crc.generator crc16Poly) ^ (32767 / 7) ≠ 1 ∧
    AdjoinRoot.root (Crc.generator crc16Poly) ^ (32767 / 31) ≠ 1 ∧
    AdjoinRoot.root (Crc.generator crc16Poly) ^ (32767 / 151) ≠ 1 := by
  have hseven : Crc.power crc16Poly [12, 9, 6, 3, 0] ≠ 1#16 := by
    decide +kernel
  have hthirtyOne : Crc.power crc16Poly [10, 5, 0] ≠ 1#16 := by
    decide +kernel
  have hlast : Crc.power crc16Poly [7, 6, 4, 3, 0] ≠ 1#16 := by
    decide +kernel
  refine ⟨fun h => hseven ?_, fun h => hthirtyOne ?_, fun h => hlast ?_⟩
  · exact (Crc.root_pow_iff_power (by decide) [12, 9, 6, 3, 0]).mp h
  · exact (Crc.root_pow_iff_power (by decide) [10, 5, 0]).mp h
  · exact (Crc.root_pow_iff_power (by decide) [7, 6, 4, 3, 0]).mp h

theorem order_crc16Poly : Crc.order crc16Poly = 32767 := by
  obtain ⟨hseven, hthirtyOne, hlast⟩ := root_pow_crc16_ne
  apply orderOf_eq_of_pow_and_pow_div_prime (by decide) root_pow_crc16
  intro p hp hdvd
  have hfactors : (32767 : Nat) = 7 * 31 * 151 := by
    decide
  rw [hfactors, hp.dvd_mul, hp.dvd_mul, Nat.prime_dvd_prime_iff_eq hp (by norm_num),
    Nat.prime_dvd_prime_iff_eq hp (by norm_num), Nat.prime_dvd_prime_iff_eq hp (by norm_num)] at hdvd
  obtain (rfl | rfl) | rfl := hdvd
  · exact hseven
  · exact hthirtyOne
  · exact hlast

theorem eval_one_generator : (Crc.generator crc16Poly).eval 1 = 0 := by
  rw [generator_crc16Poly]
  simp only [eval_add, eval_pow, eval_X, eval_one, one_pow]
  decide

/-! ### Bytes -/

/-- The number of bits in which two byte strings differ. -/
def bitErrors (a b : Bytes) : Nat := Crc.errors (bitsOfBytes a) (bitsOfBytes b)

/-- A message followed by its checksum, as the packers put it. -/
def withCrc (body : Bytes) : Bytes := body ++ bytesLE16 (crc16Calculate body)

theorem bitsOfBytes_append (a b : Bytes) : bitsOfBytes (a ++ b) = bitsOfBytes a ++ bitsOfBytes b := by
  rw [bitsOfBytes, List.map_append, Crc.messageBits, List.flatMap_append, bitsOfBytes, bitsOfBytes, Crc.messageBits,
    Crc.messageBits]

theorem bitErrors_append {a b : Bytes} (hlen : a.length = b.length) (a' b' : Bytes) :
    bitErrors (a ++ a') (b ++ b') = bitErrors a b + bitErrors a' b' := by
  have hbits : (bitsOfBytes a).length = (bitsOfBytes b).length := by
    rw [length_bitsOfBytes, length_bitsOfBytes, hlen]
  rw [bitErrors, bitsOfBytes_append, bitsOfBytes_append, Crc.errors_append hbits, bitErrors, bitErrors]

theorem wordBits_eq (x : UInt16) :
    Crc.wordBits x.toBitVec = bitsOfBytes [(x >>> 8).toUInt8] ++ bitsOfBytes [x.toUInt8] := by
  have hhigh : ∀ i < 8, x.toBitVec.getMsbD i = (x >>> 8).toUInt8.toBitVec.getMsbD i := by
    intro i hi
    have hword : (x >>> 8).toUInt8.toBitVec = (x.toBitVec >>> 8).setWidth 8 := rfl
    rw [hword, BitVec.getMsbD_eq_getLsbD, BitVec.getMsbD_eq_getLsbD, BitVec.getLsbD_setWidth,
      BitVec.getLsbD_ushiftRight, decide_eq_true (by omega : i < 16), decide_eq_true hi,
      decide_eq_true (by omega : 8 - 1 - i < 8), show 16 - 1 - i = 8 + (8 - 1 - i) by omega, Bool.true_and,
      Bool.true_and]
  have hlow : ∀ i < 8, x.toBitVec.getMsbD (8 + i) = x.toUInt8.toBitVec.getMsbD i := by
    intro i hi
    have hword : x.toUInt8.toBitVec = x.toBitVec.setWidth 8 := rfl
    rw [hword, BitVec.getMsbD_eq_getLsbD, BitVec.getMsbD_eq_getLsbD, BitVec.getLsbD_setWidth,
      decide_eq_true (by omega : 8 + i < 16), decide_eq_true hi, decide_eq_true (by omega : 8 - 1 - i < 8),
      show 16 - 1 - (8 + i) = 8 - 1 - i by omega, Bool.true_and, Bool.true_and]
  have hword : Crc.wordBits x.toBitVec = (List.range 8).map x.toBitVec.getMsbD ++
      (List.range 8).map (fun i => x.toBitVec.getMsbD (8 + i)) := by
    rfl
  have hbytes : ∀ byte : UInt8, bitsOfBytes [byte] = (List.range 8).map byte.toBitVec.getMsbD := by
    intro byte
    rfl
  rw [hword, hbytes, hbytes]
  congr 1
  · exact List.map_congr_left fun i hi => hhigh i (List.mem_range.mp hi)
  · exact List.map_congr_left fun i hi => hlow i (List.mem_range.mp hi)

/-- The checksum is sent with its lower byte first, which moves wrong bits but makes none. -/
theorem bitErrors_bytesLE16 (x y : UInt16) :
    bitErrors (bytesLE16 x) (bytesLE16 y) = Crc.errors (Crc.wordBits x.toBitVec) (Crc.wordBits y.toBitVec) := by
  have hlow : (bitsOfBytes [x.toUInt8]).length = (bitsOfBytes [y.toUInt8]).length := rfl
  have hhigh : (bitsOfBytes [(x >>> 8).toUInt8]).length = (bitsOfBytes [(y >>> 8).toUInt8]).length := rfl
  have hsplit : ∀ z : UInt16, bitsOfBytes (bytesLE16 z) = bitsOfBytes [z.toUInt8] ++ bitsOfBytes [(z >>> 8).toUInt8] :=
    fun z => bitsOfBytes_append [z.toUInt8] [(z >>> 8).toUInt8]
  rw [bitErrors, hsplit, hsplit, wordBits_eq, wordBits_eq, Crc.errors_append hlow, Crc.errors_append hhigh,
    Nat.add_comm]

theorem bitErrors_withCrc {a b : Bytes} (hlen : a.length = b.length) :
    bitErrors (withCrc a) (withCrc b) =
      Crc.errors (bitsOfBytes a ++ Crc.wordBits (Crc.serial crc16Poly (bitsOfBytes a)))
        (bitsOfBytes b ++ Crc.wordBits (Crc.serial crc16Poly (bitsOfBytes b))) := by
  have hbits : (bitsOfBytes a).length = (bitsOfBytes b).length := by
    rw [length_bitsOfBytes, length_bitsOfBytes, hlen]
  have hserial : ∀ body, Crc.serial crc16Poly (bitsOfBytes body) = (crc16Calculate body).toBitVec := by
    intro body
    rw [toBitVec_crc16Calculate, bitsOfBytes, Crc.remainder_eq_serial (by decide)]
  rw [withCrc, withCrc, bitErrors_append hlen, bitErrors_bytesLE16, hserial, hserial, Crc.errors_append hbits,
    bitErrors]

/-- Messages of one length that differ: the bound, and the stronger one for messages of up to 4093 bytes. -/
theorem bitErrors_bounds {a b : Bytes} (hlen : a.length = b.length) (hne : a ≠ b) :
    2 ≤ bitErrors (withCrc a) (withCrc b) ∧ (a.length ≤ 4093 → 4 ≤ bitErrors (withCrc a) (withCrc b)) := by
  have hbits : (bitsOfBytes a).length = (bitsOfBytes b).length := by
    rw [length_bitsOfBytes, length_bitsOfBytes, hlen]
  have hwords : (bitsOfBytes a ++ Crc.wordBits (Crc.serial crc16Poly (bitsOfBytes a))).length =
      (bitsOfBytes b ++ Crc.wordBits (Crc.serial crc16Poly (bitsOfBytes b))).length := by
    rw [List.length_append, List.length_append, Crc.length_wordBits, Crc.length_wordBits, hbits]
  have hneWords : bitsOfBytes a ++ Crc.wordBits (Crc.serial crc16Poly (bitsOfBytes a)) ≠
      bitsOfBytes b ++ Crc.wordBits (Crc.serial crc16Poly (bitsOfBytes b)) := by
    intro heq
    exact hne (bitsOfBytes_injective (List.append_inj heq hbits).1)
  obtain ⟨htwo, hfour⟩ := Crc.errors_bounds hwords hneWords (Crc.dvd_ofBits_codeword _) (Crc.dvd_ofBits_codeword _)
    (by decide) (by decide) eval_one_generator
  rw [bitErrors_withCrc hlen]
  refine ⟨htwo, fun hshort => hfour ?_⟩
  rw [order_crc16Poly, List.length_append, Crc.length_wordBits, length_bitsOfBytes]
  omega

/-! ### Messages that are no further apart -/

theorem bitErrors_self (a : Bytes) : bitErrors a a = 0 := by
  rw [bitErrors, Crc.errors, List.zipWith_self, List.count_eq_zero]
  simp

theorem foldl_crc16Step_zeros (m : Nat) (r : UInt16) :
    Crc.residue crc16Poly ((List.replicate m 0).foldl crc16Step r).toBitVec =
      Crc.residue crc16Poly r.toBitVec * AdjoinRoot.root (Crc.generator crc16Poly) ^ (8 * m) := by
  induction m generalizing r with
  | zero => rw [List.replicate_zero, List.foldl_nil, Nat.mul_zero, pow_zero, mul_one]
  | succ m ih =>
      have hzero : Crc.byteStep crc16Poly r.toBitVec (0#8) = Crc.shifts crc16Poly 8 r.toBitVec := by
        rw [Crc.byteStep, show Crc.atTop 16 (0#8) = 0#16 by decide, BitVec.xor_zero]
      have hbyte : (0 : UInt8).toBitVec = 0#8 := rfl
      rw [List.replicate_succ, List.foldl_cons, ih, crc16Step_eq, hbyte, hzero, Crc.residue_shifts, mul_assoc,
        ← pow_add,
        show 8 + 8 * m = 8 * (m + 1) by omega]

theorem crc16Calculate_zeros (m : Nat) (bytes : Bytes) :
    crc16Calculate (List.replicate m 0 ++ bytes) = crc16Calculate bytes := by
  have hstep : crc16Step 0 0 = 0 := by
    decide +kernel
  induction m with
  | zero => rfl
  | succ m ih =>
      rw [crc16Calculate] at ih
      rw [crc16Calculate, List.replicate_succ, List.cons_append, List.foldl_cons, hstep, ih]

/-- The last bit of a message weighs as much as the polynomial. -/
theorem bitErrors_last_bit (m : Nat) :
    bitErrors (withCrc (List.replicate m 0 ++ [0])) (withCrc (List.replicate m 0 ++ [1])) = 4 := by
  rw [withCrc, withCrc, crc16Calculate_zeros, crc16Calculate_zeros, List.append_assoc, List.append_assoc,
    bitErrors_append rfl, bitErrors_self]
  decide +kernel

/-- A bit as far from the end as the order of `X` is cancelled by the last bit of the checksum. -/
theorem crc16Calculate_far_bit {k : Nat} (hk : 23 + 8 * k = 32767) :
    crc16Calculate (0x80 :: List.replicate k 0) = 1 := by
  have hfirst : (crc16Step 0 0x80).toBitVec = Crc.shifts crc16Poly 23 1#16 := by
    decide +kernel
  have hresidue : Crc.residue crc16Poly (crc16Calculate (0x80 :: List.replicate k 0)).toBitVec =
      Crc.residue crc16Poly 1#16 := by
    rw [crc16Calculate, List.foldl_cons, foldl_crc16Step_zeros, hfirst, Crc.residue_shifts, mul_assoc, ← pow_add, hk,
      root_pow_crc16, mul_one]
  rw [← UInt16.toBitVec_inj]
  exact Crc.residue_injective hresidue

theorem bitErrors_far_bit (m : Nat) {k : Nat} (hk : 23 + 8 * k = 32767) :
    bitErrors (withCrc (List.replicate m 0 ++ 0 :: List.replicate k 0))
      (withCrc (List.replicate m 0 ++ 0x80 :: List.replicate k 0)) = 2 := by
  have hzeros : crc16Calculate (0 :: List.replicate k 0) = 0 := by
    have hnone := crc16Calculate_zeros (k + 1) []
    rwa [List.append_nil] at hnone
  have hends : ∀ byte : UInt8, ∀ crc : UInt16, List.replicate m 0 ++ byte :: List.replicate k 0 ++ bytesLE16 crc =
      List.replicate m 0 ++ ([byte] ++ (List.replicate k 0 ++ bytesLE16 crc)) := by
    intro byte crc
    rw [List.append_assoc, List.cons_append, List.singleton_append]
  have hbit : bitErrors [0] [0x80] = 1 := by
    decide
  have hcrc : bitErrors (bytesLE16 0) (bytesLE16 1) = 1 := by
    decide
  rw [withCrc, withCrc, crc16Calculate_zeros, crc16Calculate_zeros, hzeros, crc16Calculate_far_bit hk, hends, hends,
    bitErrors_append rfl, bitErrors_append (by rw [List.length_singleton, List.length_singleton]),
    bitErrors_append rfl, bitErrors_self, bitErrors_self, hbit, hcrc]

/-- The distance of the checksum, exactly: messages of one length differ in four bits or more, their checksums
counted in, as long as they have at most 4093 bytes, and from 4094 bytes on in two. -/
theorem crc16Calculate_distance (n : Nat) (hn : 0 < n) :
    IsLeast {d | ∃ a b : Bytes, a.length = n ∧ b.length = n ∧ a ≠ b ∧
      d = bitErrors (a ++ bytesLE16 (crc16Calculate a)) (b ++ bytesLE16 (crc16Calculate b))}
      (if n ≤ 4093 then 4 else 2) := by
  constructor
  · by_cases hshort : n ≤ 4093
    · obtain ⟨m, rfl⟩ := Nat.exists_eq_succ_of_ne_zero hn.ne'
      refine ⟨List.replicate m 0 ++ [0], List.replicate m 0 ++ [1], by simp, by simp, by simp, ?_⟩
      rw [if_pos hshort]
      exact (bitErrors_last_bit m).symm
    · obtain ⟨k, hk⟩ : ∃ k, 23 + 8 * k = 32767 := ⟨4093, by decide⟩
      obtain ⟨m, rfl⟩ : ∃ m, n = m + (k + 1) := Nat.exists_eq_add_of_le' (by omega)
      have hlen : ∀ byte : UInt8, (List.replicate m 0 ++ byte :: List.replicate k 0).length = m + (k + 1) := by
        intro byte
        rw [List.length_append, List.length_cons, List.length_replicate, List.length_replicate]
      have hne : List.replicate m (0 : UInt8) ++ 0 :: List.replicate k 0 ≠
          List.replicate m 0 ++ 0x80 :: List.replicate k 0 := by
        rw [Ne, List.append_cancel_left_eq, List.cons.injEq]
        exact fun h => absurd h.1 (by decide)
      refine ⟨_, _, hlen 0, hlen 0x80, hne, ?_⟩
      rw [if_neg hshort]
      exact (bitErrors_far_bit m hk).symm
  · intro d hd
    obtain ⟨a, b, hlenA, hlenB, hne, rfl⟩ := hd
    obtain ⟨htwo, hfour⟩ := bitErrors_bounds (hlenA.trans hlenB.symm) hne
    split_ifs with hshort
    · exact hfour (hlenA.trans_le hshort)
    · exact htwo

theorem crc16Calculate_distance_example :
    IsLeast {d | ∃ a b : Bytes, a.length = 12 ∧ b.length = 12 ∧ a ≠ b ∧
      d = bitErrors (a ++ bytesLE16 (crc16Calculate a)) (b ++ bytesLE16 (crc16Calculate b))} 4 := by
  exact crc16Calculate_distance 12 (by decide)

/-! ### Frames -/

theorem siyiPacket_eq (cmdId : UInt8) (payload : Bytes) :
    siyiPacket cmdId payload = withCrc (siyiHeader cmdId payload.length ++ payload) := by
  rw [siyiPacket, withCrc, crc16Calculate_eq]

/-- What the reader accepts is sealed by its checksum. -/
theorem withCrc_of_decode {frame : Bytes} {message : SiyiMessage} (hread : siyiReader.decode frame = some message) :
    ∃ body, frame = withCrc body := by
  have hencode := siyiReader.encode_decode frame message hread
  refine ⟨(siyiMessages.encode message).body, ?_⟩
  rw [withCrc, crc16Calculate_eq, ← hencode]
  rfl

theorem length_withCrc (body : Bytes) : (withCrc body).length = body.length + 2 := by
  rw [withCrc, List.length_append, length_bytesLE16]

theorem withCrc_apart {a b : Bytes} (hlen : (withCrc a).length = (withCrc b).length) (hne : withCrc a ≠ withCrc b)
    (hshort : (withCrc a).length ≤ 4095) : 4 ≤ bitErrors (withCrc a) (withCrc b) := by
  rw [length_withCrc, length_withCrc] at hlen
  rw [length_withCrc] at hshort
  have hbodies : a ≠ b := fun heq => hne (congrArg withCrc heq)
  exact (bitErrors_bounds (by omega) hbodies).2 (by omega)

/-- The last bit of a message that ends in a byte changes the checksum by the polynomial. -/
theorem bitErrors_flip_last (body : Bytes) (byte : UInt8) :
    bitErrors (withCrc (body ++ [byte])) (withCrc (body ++ [byte ^^^ 1])) = 4 := by
  have hcrc : (crc16Calculate (body ++ [byte ^^^ 1])).toBitVec =
      (crc16Calculate (body ++ [byte])).toBitVec ^^^ 0x1021#16 := by
    have hstep : ∀ last : UInt8, crc16Calculate (body ++ [last]) = crc16Step (crc16Calculate body) last := by
      intro last
      rw [crc16Calculate, List.foldl_append, List.foldl_cons, List.foldl_nil, crc16Calculate]
    have hbyte : (byte ^^^ 1).toBitVec = byte.toBitVec ^^^ 1#8 := rfl
    have hone : Crc.shifts crc16Poly 8 (Crc.atTop 16 1#8) = 0x1021#16 := by
      decide
    rw [hstep, hstep, crc16Step_eq, crc16Step_eq, Crc.byteStep, Crc.byteStep, hbyte, Crc.atTop_xor, ← BitVec.xor_assoc,
      Crc.shifts_xor, hone]
  have hlast : bitErrors [byte] [byte ^^^ 1] = 1 := by
    have hword : ∀ b : UInt8, bitsOfBytes [b] = Crc.wordBits b.toBitVec := by
      intro b
      rfl
    have hbyte : (byte ^^^ 1).toBitVec = byte.toBitVec ^^^ 1#8 := rfl
    rw [bitErrors, hword, hword, hbyte, Crc.errors_wordBits_xor]
    decide
  have hpoly : (Crc.wordBits 0x1021#16).count true = 3 := by
    decide
  have hlen : (body ++ [byte]).length = (body ++ [byte ^^^ 1]).length := by
    rw [List.length_append, List.length_append, List.length_singleton, List.length_singleton]
  rw [withCrc, withCrc, bitErrors_append hlen, bitErrors_append rfl, bitErrors_self, hlast, bitErrors_bytesLE16, hcrc,
    Crc.errors_wordBits_xor, hpoly]

/-- Up to three wrong bits, anywhere in a packet, and the reader takes it for no command at all. Four may turn it
into another command: any zoom level is four bits from the one next to it. -/
theorem packet_damage_noticed :
    (∀ (command : SiyiCommand) (frame : Bytes), command.Sendable → frame.length = command.packet.length →
      frame ≠ command.packet → bitErrors command.packet frame ≤ 3 → siyiReader.decode frame = none) ∧
    (∀ zoomInteger zoomDecimal : UInt8,
      bitErrors (siyiCamManualZoom zoomInteger zoomDecimal) (siyiCamManualZoom zoomInteger (zoomDecimal ^^^ 1)) = 4 ∧
      siyiReader.decode (siyiCamManualZoom zoomInteger (zoomDecimal ^^^ 1)) =
        some { ctrl := 1, seq := 0, command := .manualZoom zoomInteger (zoomDecimal ^^^ 1) }) := by
  constructor
  · intro command frame hsend hlen hne hfew
    rw [Option.eq_none_iff_forall_ne_some]
    intro message hread
    obtain ⟨body, rfl⟩ := withCrc_of_decode hread
    have hpacket : command.packet = withCrc (siyiHeader command.cmdId command.payload.length ++ command.payload) := by
      rw [packet_eq command hsend, siyiPacket_eq]
    have hshort : command.packet.length ≤ 4095 := by
      rw [packet_eq command hsend, length_siyiPacket]
      cases command <;> simp [SiyiCommand.payload, siyiMsgOverhead, siyiHeaderLen, siyiCrcLen]
    rw [hpacket] at hlen hne hfew hshort
    have hapart := withCrc_apart hlen.symm (Ne.symm hne) hshort
    omega
  · intro zoomInteger zoomDecimal
    have hpacket : ∀ level : UInt8, siyiCamManualZoom zoomInteger level =
        siyiReader.encode { ctrl := 1, seq := 0, command := .manualZoom zoomInteger level } := by
      intro level
      rw [siyiReader_encode]
      exact packet_eq (.manualZoom zoomInteger level) trivial
    have hsealed : ∀ level : UInt8, siyiCamManualZoom zoomInteger level =
        withCrc ((siyiHeader 0x0f 2 ++ [zoomInteger]) ++ [level]) := by
      intro level
      rw [hpacket, siyiReader_encode, siyiPacket_eq, List.append_assoc]
      rfl
    refine ⟨?_, ?_⟩
    · rw [hsealed, hsealed, bitErrors_flip_last]
    · rw [hpacket, siyiReader.decode_encode]

end MissionServer
