import MissionServer.Lib.Codec
import MissionServer.Lib.Crc
import MissionServer.SiyiCamera

/-!
# The frames of the SIYI protocol

A reference reader of SIYI frames, put together as a codec from its layers: the checksum, the header with
the length of the data, and the commands. Every packer writes what this codec writes for its command, so
its packet is read back as that command, and no other frame is.
-/

namespace MissionServer

/-! ### The checksum -/

/-- The polynomial of the checksum, without its leading term. -/
def crc16Poly : BitVec 16 := 0x1021#16

theorem crc16Tab_eq : ∀ i : BitVec 8,
    (crc16Tab.getD i.toNat 0).toBitVec = Crc.shifts crc16Poly 8 (Crc.atTop 16 i) := by
  decide +kernel

private theorem getLsbD_highMask (i : Nat) (hi : i < 16) : (0xff00#16).getLsbD i = decide (8 ≤ i) := by
  revert i
  decide

theorem crc16Step_eq (crc : UInt16) (byte : UInt8) :
    (crc16Step crc byte).toBitVec = Crc.byteStep crc16Poly crc.toBitVec byte.toBitVec := by
  have hindex : (((crc >>> 8) &&& (0xff : UInt16)) ^^^ byte.toUInt16).toNat =
      (Crc.top crc.toBitVec ^^^ byte.toBitVec).toNat := by
    simp only [UInt16.toNat_xor, UInt16.toNat_and, UInt16.toNat_shiftRight, UInt8.toNat_toUInt16, BitVec.toNat_xor,
      Crc.top, BitVec.toNat_setWidth, BitVec.toNat_ushiftRight, UInt16.toNat_toBitVec, UInt8.toNat_toBitVec]
    congr 1
    exact Nat.and_two_pow_sub_one_eq_mod _ 8
  have hmask : ((crc <<< 8) &&& (0xff00 : UInt16)).toBitVec = crc.toBitVec <<< 8 := by
    apply BitVec.eq_of_getLsbD_eq
    intro i hi
    have hbit : (0xff00#16).getLsbD i = decide (8 ≤ i) := getLsbD_highMask i hi
    show ((crc.toBitVec <<< 8) &&& 0xff00#16).getLsbD i = (crc.toBitVec <<< 8).getLsbD i
    rw [BitVec.getLsbD_and, hbit, BitVec.getLsbD_shiftLeft]
    by_cases h8 : i < 8
    · simp [h8]
    · simp [h8, hi, not_lt.mp h8]
  rw [Crc.byteStep_eq_table (by decide), crc16Step, UInt16.toBitVec_xor, hmask, hindex, crc16Tab_eq]

/-- The checksum of the reference reader: a remainder, computed bit by bit. -/
def siyiCrc (body : Bytes) : UInt16 := UInt16.ofBitVec (Crc.remainder crc16Poly (body.map (·.toBitVec)))

theorem crc16Calculate_eq (body : Bytes) : crc16Calculate body = siyiCrc body := by
  have hfold : ∀ (crc : UInt16),
      (body.foldl crc16Step crc).toBitVec =
        (body.map (·.toBitVec)).foldl (Crc.byteStep crc16Poly) crc.toBitVec := by
    induction body with
    | nil => intro crc; rfl
    | cons byte body ih =>
        intro crc
        rw [List.foldl_cons, List.map_cons, List.foldl_cons, ih, crc16Step_eq]
  rw [← UInt16.toBitVec_inj]
  exact hfold 0

/-! ### Bytes of 16-bit values -/

/-- The value whose bytes, lowest first, these are. -/
def ofBytesLE16 (low high : UInt8) : UInt16 := low.toUInt16 ||| (high.toUInt16 <<< 8)

@[simp] theorem length_bytesLE16 (x : UInt16) : (bytesLE16 x).length = 2 := rfl

theorem toNat_ofBytesLE16 (low high : UInt8) : (ofBytesLE16 low high).toNat = low.toNat + 256 * high.toNat := by
  have hlow := low.toNat_lt
  have hhigh := high.toNat_lt
  simp only [ofBytesLE16, UInt16.toNat_or, UInt16.toNat_shiftLeft, UInt8.toNat_toUInt16]
  rw [show (8 : UInt16).toNat % 16 = 8 by decide, Nat.shiftLeft_eq, Nat.mod_eq_of_lt (by omega), Nat.or_comm,
    Nat.mul_comm, ← Nat.two_pow_add_eq_or_of_lt hlow, Nat.add_comm]

@[simp] theorem ofBytesLE16_bytes (x : UInt16) : ofBytesLE16 x.toUInt8 (x >>> 8).toUInt8 = x := by
  have hx := x.toNat_lt
  rw [← UInt16.toNat_inj, toNat_ofBytesLE16]
  simp only [UInt16.toNat_toUInt8, UInt16.toNat_shiftRight]
  rw [show (8 : UInt16).toNat % 16 = 8 by decide, Nat.shiftRight_eq_div_pow]
  omega

@[simp] theorem bytesLE16_ofBytesLE16 (low high : UInt8) : bytesLE16 (ofBytesLE16 low high) = [low, high] := by
  have hlow := low.toNat_lt
  have hhigh := high.toNat_lt
  have hl : (ofBytesLE16 low high).toUInt8 = low := by
    rw [← UInt8.toNat_inj, UInt16.toNat_toUInt8, toNat_ofBytesLE16]
    omega
  have hh : (ofBytesLE16 low high >>> 8).toUInt8 = high := by
    rw [← UInt8.toNat_inj, UInt16.toNat_toUInt8, UInt16.toNat_shiftRight, toNat_ofBytesLE16,
      show (8 : UInt16).toNat % 16 = 8 by decide, Nat.shiftRight_eq_div_pow]
    omega
  rw [bytesLE16, hl, hh]

/-! ### The layers of a frame -/

/-- The frames of the protocol; the length of the data is not a field of its own. -/
structure SiyiFrame where
  ctrl : UInt8
  seq : UInt16
  cmdId : UInt8
  payload : Bytes
  fits : payload.length < 2 ^ 16
  deriving DecidableEq

def SiyiFrame.body (frame : SiyiFrame) : Bytes :=
  [0x55, 0x66, frame.ctrl] ++ bytesLE16 (UInt16.ofNat frame.payload.length) ++ bytesLE16 frame.seq ++ [frame.cmdId] ++
    frame.payload

/-- Reads a body: the start bytes, and as much data as its length says. -/
def SiyiFrame.ofBody? : Bytes → Option SiyiFrame
  | stx0 :: stx1 :: ctrl :: len0 :: len1 :: seq0 :: seq1 :: cmdId :: payload =>
      if h : stx0 = 0x55 ∧ stx1 = 0x66 ∧ payload.length = (ofBytesLE16 len0 len1).toNat then
        some { ctrl, seq := ofBytesLE16 seq0 seq1, cmdId, payload, fits := h.2.2 ▸ UInt16.toNat_lt _ }
      else none
  | _ => none

def siyiBodies : Codec SiyiFrame Bytes where
  encode := SiyiFrame.body
  decode := SiyiFrame.ofBody?
  decode_encode frame := by
    have hlen : (UInt16.ofNat frame.payload.length).toNat = frame.payload.length := UInt16.toNat_ofNat_of_lt' frame.fits
    simp only [SiyiFrame.body, bytesLE16, List.cons_append, List.nil_append, SiyiFrame.ofBody?, ofBytesLE16_bytes,
      hlen, and_self, dite_true]
  encode_decode body frame h := by
    unfold SiyiFrame.ofBody? at h
    split at h
    case h_1 stx0 stx1 ctrl len0 len1 seq0 seq1 cmdId payload =>
      split at h
      case isTrue hread =>
        obtain ⟨hstx0, hstx1, hlen⟩ := hread
        rw [← Option.some.inj h]
        simp only [SiyiFrame.body, hlen, UInt16.ofNat_toNat, bytesLE16_ofBytesLE16, hstx0, hstx1, List.cons_append,
          List.nil_append]
      case isFalse => exact absurd h (by simp)
    case h_2 => exact absurd h (by simp)

def siyiFrames : Codec SiyiFrame Bytes :=
  siyiBodies.trans (Codec.sealed (fun body => bytesLE16 (siyiCrc body)) 2 (fun _ => rfl))

/-! ### The commands -/

/-- The commands this program can send, with their arguments. -/
inductive SiyiCommand
  | manualZoom (zoomInteger zoomDecimal : UInt8)
  | gimbalRotateSpeed (yaw pitch : Int8)
  | gimbalRotate (yaw pitch : Int16)
  | gimbalCentering (value : UInt8)
  deriving DecidableEq, Repr

def SiyiCommand.cmdId : SiyiCommand → UInt8
  | .manualZoom _ _ => 0x0f
  | .gimbalRotateSpeed _ _ => 0x07
  | .gimbalRotate _ _ => 0x0e
  | .gimbalCentering _ => 0x08

def SiyiCommand.payload : SiyiCommand → Bytes
  | .manualZoom zoomInteger zoomDecimal => [zoomInteger, zoomDecimal]
  | .gimbalRotateSpeed yaw pitch => [yaw.toUInt8, pitch.toUInt8]
  | .gimbalRotate yaw pitch => bytesLE16 yaw.toUInt16 ++ bytesLE16 pitch.toUInt16
  | .gimbalCentering value => [value]

def SiyiCommand.ofPayload? (cmdId : UInt8) : Bytes → Option SiyiCommand
  | [value] => if cmdId = 0x08 then some (.gimbalCentering value) else none
  | [first, second] =>
      if cmdId = 0x0f then some (.manualZoom first second)
      else if cmdId = 0x07 then some (.gimbalRotateSpeed first.toInt8 second.toInt8)
      else none
  | [yaw0, yaw1, pitch0, pitch1] =>
      if cmdId = 0x0e then some (.gimbalRotate (ofBytesLE16 yaw0 yaw1).toInt16 (ofBytesLE16 pitch0 pitch1).toInt16)
      else none
  | _ => none

theorem SiyiCommand.ofPayload?_payload (command : SiyiCommand) :
    SiyiCommand.ofPayload? command.cmdId command.payload = some command := by
  cases command with
  | manualZoom => rfl
  | gimbalRotateSpeed yaw pitch => simp [ofPayload?, cmdId, payload]
  | gimbalRotate yaw pitch => simp [ofPayload?, cmdId, payload, bytesLE16]
  | gimbalCentering => rfl

theorem SiyiCommand.of_ofPayload? {cmdId : UInt8} {payload : Bytes} {command : SiyiCommand}
    (h : SiyiCommand.ofPayload? cmdId payload = some command) : command.cmdId = cmdId ∧ command.payload = payload := by
  unfold SiyiCommand.ofPayload? at h
  split at h
  case h_1 value =>
    split at h <;> cases h
    case isTrue hid => exact ⟨hid.symm, rfl⟩
  case h_2 first second =>
    split at h
    case isTrue hid =>
      cases h
      exact ⟨hid.symm, rfl⟩
    case isFalse =>
      split at h <;> cases h
      case isTrue hid => exact ⟨hid.symm, by simp [SiyiCommand.payload]⟩
  case h_3 yaw0 yaw1 pitch0 pitch1 =>
    split at h <;> cases h
    case isTrue hid => exact ⟨hid.symm, by simp [SiyiCommand.payload]⟩
  case h_4 => cases h

/-- A command in its frame. -/
structure SiyiMessage where
  ctrl : UInt8
  seq : UInt16
  command : SiyiCommand
  deriving DecidableEq, Repr

theorem SiyiCommand.length_payload_lt (command : SiyiCommand) : command.payload.length < 2 ^ 16 := by
  cases command <;> simp [payload]

def siyiMessages : Codec SiyiMessage SiyiFrame where
  encode message :=
    { ctrl := message.ctrl, seq := message.seq, cmdId := message.command.cmdId, payload := message.command.payload,
      fits := message.command.length_payload_lt }
  decode frame := (SiyiCommand.ofPayload? frame.cmdId frame.payload).map (SiyiMessage.mk frame.ctrl frame.seq)
  decode_encode message := by rw [SiyiCommand.ofPayload?_payload, Option.map_some]
  encode_decode frame message h := by
    obtain ⟨command, hread, hmessage⟩ := Option.map_eq_some_iff.mp h
    obtain ⟨hid, hpayload⟩ := SiyiCommand.of_ofPayload? hread
    subst hmessage
    simp only [hid, hpayload]

/-- The reference reader: a frame with good start bytes, length and checksum that holds a known command. -/
def siyiReader : Codec SiyiMessage Bytes := siyiMessages.trans siyiFrames

/-! ### The packers -/

/-- The packet of a command. The centering packer takes no value and always writes 1. -/
def SiyiCommand.packet : SiyiCommand → Bytes
  | .manualZoom zoomInteger zoomDecimal => siyiCamManualZoom zoomInteger zoomDecimal
  | .gimbalRotateSpeed yaw pitch => siyiCamGimbalRotateSpeed yaw pitch
  | .gimbalRotate yaw pitch => siyiCamGimbalRotate yaw pitch
  | .gimbalCentering _ => siyiCamGimbalCentering

/-- The header of a packet: start bytes, control byte 1, the length of the data, sequence 0 and the command. -/
def siyiHeader (cmdId : UInt8) (dataLen : Nat) : Bytes :=
  [0x55, 0x66, 1] ++ bytesLE16 (UInt16.ofNat dataLen) ++ [0, 0] ++ [cmdId]

/-- A packet of the format: the checksum is that of all the bytes before it. -/
def siyiPacket (cmdId : UInt8) (payload : Bytes) : Bytes :=
  let covered := siyiHeader cmdId payload.length ++ payload
  covered ++ bytesLE16 (siyiCrc covered)

theorem length_siyiPacket (cmdId : UInt8) (payload : Bytes) :
    (siyiPacket cmdId payload).length = siyiMsgOverhead + payload.length := by
  simp only [siyiPacket, siyiHeader, List.length_append, List.length_cons, List.length_nil, length_bytesLE16,
    siyiMsgOverhead, siyiHeaderLen, siyiCrcLen]
  omega

theorem siyiReader_encode (command : SiyiCommand) :
    siyiReader.encode { ctrl := 1, seq := 0, command } = siyiPacket command.cmdId command.payload := by
  have hseq : bytesLE16 0 = [0, 0] := rfl
  simp only [siyiPacket, siyiHeader, ← hseq]
  rfl

/-! The four packers differ in their payload; the sizes and offsets they repeat agree with its length. -/

theorem memcpy_middle {off : Nat} {front old : Bytes} (rest src : Bytes) (hoff : front.length = off)
    (hlen : old.length = src.length) : memcpy (front ++ old ++ rest) off src = front ++ src ++ rest := by
  rw [memcpy, ← hoff, ← hlen, ← List.length_append, List.drop_left, List.append_assoc front old, List.take_left]

@[simp] theorem length_siyiHeader (cmdId : UInt8) (dataLen : Nat) :
    (siyiHeader cmdId dataLen).length = siyiHeaderLen := rfl

theorem siyiCamMessage_eq (cmdId : UInt8) (payload : Bytes) :
    siyiCamMessage (siyiMsgOverhead + payload.length) (UInt16.ofNat payload.length) cmdId payload payload.length =
      siyiPacket cmdId payload := by
  have hzeros : List.replicate (siyiMsgOverhead + payload.length) (0 : UInt8) =
      [] ++ List.replicate siyiHeaderLen 0 ++ (List.replicate payload.length 0 ++ List.replicate siyiCrcLen 0) := by
    rw [List.nil_append, List.replicate_append_replicate, List.replicate_append_replicate, siyiMsgOverhead]
    congr 1
    omega
  have hheader : siyiCamPackCommon (List.replicate (siyiMsgOverhead + payload.length) 0) false
      (UInt16.ofNat payload.length) 0 cmdId =
        siyiHeader cmdId payload.length ++ List.replicate payload.length 0 ++ List.replicate siyiCrcLen 0 := by
    rw [hzeros, List.append_assoc (siyiHeader cmdId payload.length)]
    exact memcpy_middle _ _ rfl rfl
  have hpayload := memcpy_middle (List.replicate siyiCrcLen 0) payload (length_siyiHeader cmdId payload.length)
    (List.length_replicate (a := (0 : UInt8)) : _ = payload.length)
  have hcovered : (siyiHeader cmdId payload.length ++ payload).length = siyiMsgOverhead + payload.length - 2 := by
    rw [List.length_append, length_siyiHeader, siyiMsgOverhead, siyiCrcLen]
    omega
  have hend : (siyiHeader cmdId payload.length ++ payload).length = siyiHeaderLen + payload.length := by
    rw [List.length_append, length_siyiHeader]
  simp only [siyiCamMessage]
  rw [hheader, hpayload, ← hcovered, List.take_left, crc16Calculate_eq]
  have hcrc := memcpy_middle [] (bytesLE16 (siyiCrc (siyiHeader cmdId payload.length ++ payload))) hend
    (rfl : (List.replicate siyiCrcLen (0 : UInt8)).length = 2)
  rw [List.append_nil, List.append_nil] at hcrc
  rw [hcrc, siyiPacket]

/-- What the centering packer can be asked for. -/
def SiyiCommand.Sendable : SiyiCommand → Prop
  | .gimbalCentering value => value = 1
  | _ => True

theorem packet_eq (command : SiyiCommand) (hsend : command.Sendable) :
    command.packet = siyiPacket command.cmdId command.payload := by
  rw [← siyiCamMessage_eq]
  cases command with
  | manualZoom zoomInteger zoomDecimal => rfl
  | gimbalRotateSpeed yaw pitch => rfl
  | gimbalRotate yaw pitch => rfl
  | gimbalCentering value =>
      cases hsend
      rfl

/-- The packets are exactly laid out, and the packers and the reference reader undo each other. -/
theorem siyiCommands_invertible :
    (∀ zoomInteger zoomDecimal,
      siyiCamManualZoom zoomInteger zoomDecimal = siyiPacket 0x0f [zoomInteger, zoomDecimal]) ∧
    (∀ yaw pitch, siyiCamGimbalRotateSpeed yaw pitch = siyiPacket 0x07 [yaw.toUInt8, pitch.toUInt8]) ∧
    (∀ yaw pitch, siyiCamGimbalRotate yaw pitch =
      siyiPacket 0x0e (bytesLE16 yaw.toUInt16 ++ bytesLE16 pitch.toUInt16)) ∧
    siyiCamGimbalCentering = siyiPacket 0x08 [1] ∧
    (∀ cmdId payload, (siyiPacket cmdId payload).length = 10 + payload.length) ∧
    (∀ command : SiyiCommand, command.Sendable →
      siyiReader.decode command.packet = some { ctrl := 1, seq := 0, command }) ∧
    (∀ frame command, siyiReader.decode frame = some { ctrl := 1, seq := 0, command } → command.Sendable →
      command.packet = frame) := by
  refine ⟨fun _ _ => packet_eq (.manualZoom _ _) trivial,
    fun _ _ => packet_eq (.gimbalRotateSpeed _ _) trivial,
    fun _ _ => packet_eq (.gimbalRotate _ _) trivial,
    packet_eq (.gimbalCentering 1) rfl, length_siyiPacket, ?_, ?_⟩
  · intro command hsend
    rw [packet_eq command hsend, ← siyiReader_encode, siyiReader.decode_encode]
  · intro frame command hread hsend
    rw [packet_eq command hsend, ← siyiReader_encode]
    exact siyiReader.encode_decode frame _ hread

end MissionServer
