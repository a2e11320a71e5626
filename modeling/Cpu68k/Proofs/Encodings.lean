import Cpu68k.Proofs.Decoding
import Cpu68k.Proofs.Regions
import Mathlib.Data.Nat.Bitwise

/-!
# Writing opcodes

The other direction of reading them: an opcode is put together from its fields, and
read back as the instruction for which it was written. Only the instructions are here
that share their effect with another one.
-/

namespace Cpu68k

/-! ### Fields -/

/-- The mode field and the register field of a mode. -/
def Mode.fields : Mode → Fin 8 × Fin 8
  | target (.dataReg n) => (threeBits 0, n)
  | target (.addrReg n) => (threeBits 1, n)
  | target (.pointer (.indirect n)) => (threeBits 2, n)
  | target (.postIncrement n) => (threeBits 3, n)
  | target (.preDecrement n) => (threeBits 4, n)
  | target (.pointer (.displaced n)) => (threeBits 5, n)
  | target (.pointer (.indexed n)) => (threeBits 6, n)
  | target (.pointer .absoluteWord) => (threeBits 7, threeBits 0)
  | target (.pointer .absoluteLong) => (threeBits 7, threeBits 1)
  | relative .displaced => (threeBits 7, threeBits 2)
  | relative .indexed => (threeBits 7, threeBits 3)
  | immediate => (threeBits 7, threeBits 4)

/-- The fields of a mode are read back. -/
theorem Mode.ofFields?_fields (mode : Mode) :
    ofFields? mode.fields.1 mode.fields.2 = some mode := by
  rcases mode with (_ | _ | _ | _ | (_ | _ | _ | _ | _)) | (_ | _) | _ <;> rfl

/-- A three-bit field of an opcode as a number. -/
theorem Mode.field_val_eq (opcode shift : UInt16) (n : Nat) (hshift : shift.toNat % 16 = n) :
    (field opcode shift).val = opcode.toNat / 2 ^ n % 8 := by
  rw [field_val, UInt16.toNat_shiftRight, hshift, Nat.shiftRight_eq_div_pow]

/-- The direction is bit 8 of the opcode. -/
theorem Instruction.directionBit_eq (opcode : UInt16) :
    directionBit opcode = decide (opcode.toNat / 256 % 2 = 1) := by
  have hbit : (opcode &&& 0x0100).toNat = (opcode.toNat.testBit 8).toNat * 2 ^ 8 := by
    rw [UInt16.toNat_and]
    exact Nat.and_two_pow _ 8
  rw [Nat.testBit_eq_decide_div_mod_eq] at hbit
  rw [directionBit]
  cases hset : decide (opcode.toNat / 256 % 2 = 1) with
  | false =>
    rw [hset] at hbit
    have hzero : opcode &&& 0x0100 = 0 := UInt16.toNat_inj.1 hbit
    rw [hzero]
    rfl
  | true =>
    rw [hset] at hbit
    have hone : opcode &&& 0x0100 = 0x0100 := UInt16.toNat_inj.1 hbit
    rw [hone]
    rfl

/-- A target that is no address register can be written. -/
theorem Mode.dataTarget?_target {t : Target} (h : t.isData = true) :
    (target t).dataTarget? = some t :=
  Option.filter_some_pos h

/-- The two-bit field of a size, of which one value is no size. -/
def Size.code : Option Size → Nat
  | some byte => 0
  | some word => 1
  | some long => 2
  | none => 3

/-- A size takes two bits. -/
theorem Size.code_lt (size : Option Size) : code size < 4 := by
  rcases size with _ | (_ | _ | _) <;> decide

/-- Two bits that hold the code of a size are read as the size. -/
theorem Size.ofBits?_of_and {bits : UInt16} {size : Option Size}
    (h : bits &&& 3 = .ofNat (code size)) : ofBits? bits = size := by
  rw [ofBits?, h]
  rcases size with _ | (_ | _ | _) <;> rfl

/-- The fields that most opcodes have. -/
structure OpcodeFields where
  /-- Bits 15 to 12. -/
  line : Fin 16
  /-- Bits 11 to 9. -/
  high : Fin 8
  /-- Bit 8. -/
  direction : Bool
  /-- Bits 7 and 6. -/
  size : Option Size
  /-- The mode in bits 5 to 0. -/
  mode : Mode

namespace OpcodeFields

/-- The opcode with some fields. -/
def opcode (f : OpcodeFields) : UInt16 :=
  .ofNat (f.line.val * 4096 + f.high.val * 512 + f.direction.toNat * 256 + Size.code f.size * 64 +
    f.mode.fields.1.val * 8 + f.mode.fields.2.val)

variable (f : OpcodeFields)

/-- The narrow fields fit in their bits. -/
theorem bounds : f.direction.toNat < 2 ∧ Size.code f.size < 4 :=
  ⟨f.direction.toNat_lt, Size.code_lt f.size⟩

/-- An opcode as an exact sum of its fields. -/
theorem toNat_opcode : f.opcode.toNat = f.line.val * 4096 + f.high.val * 512 +
    f.direction.toNat * 256 + Size.code f.size * 64 + f.mode.fields.1.val * 8 +
    f.mode.fields.2.val := by
  obtain ⟨hdirection, hcode⟩ := f.bounds
  have hsize : UInt16.size = 65536 := rfl
  exact UInt16.toNat_ofNat_of_lt' (by omega)

/-- The line is read back. -/
@[simp]
theorem line_opcode : (f.opcode >>> 12).toNat = f.line.val := by
  obtain ⟨hdirection, hcode⟩ := f.bounds
  rw [UInt16.toNat_shiftRight, Nat.shiftRight_eq_div_pow, toNat_opcode]
  change _ / 4096 = _
  omega

/-- The register in the high byte is read back. -/
@[simp]
theorem highRegister_opcode : Instruction.highRegister f.opcode = f.high := by
  obtain ⟨hdirection, hcode⟩ := f.bounds
  refine Fin.ext ?_
  rw [Instruction.highRegister, Mode.field_val_eq _ _ 9 rfl, toNat_opcode]
  omega

/-- The direction is read back. -/
@[simp]
theorem directionBit_opcode : Instruction.directionBit f.opcode = f.direction := by
  have hcode := Size.code_lt f.size
  rw [Instruction.directionBit_eq, toNat_opcode]
  cases f.direction with
  | false =>
    refine decide_eq_false ?_
    rw [Bool.toNat_false]
    omega
  | true =>
    refine decide_eq_true ?_
    rw [Bool.toNat_true]
    omega

/-- Where `MOVE` has the mode of its destination. -/
theorem destination_opcode :
    (Mode.field f.opcode 6).val = f.direction.toNat * 4 + Size.code f.size := by
  obtain ⟨hdirection, hcode⟩ := f.bounds
  rw [Mode.field_val_eq _ _ 6 rfl, toNat_opcode]
  omega

/-- The size is read back. -/
@[simp]
theorem sizeField?_opcode : Instruction.sizeField? f.opcode = f.size := by
  obtain ⟨hdirection, hcode⟩ := f.bounds
  have hsize : UInt16.size = 65536 := rfl
  refine Size.ofBits?_of_and (UInt16.toNat_inj.1 ?_)
  rw [Instruction.toNat_sizeBits, toNat_opcode, UInt16.toNat_ofNat_of_lt' (by omega)]
  omega

/-- The mode is read back. -/
@[simp]
theorem mode_opcode : Mode.ofOpcode? f.opcode = some f.mode := by
  obtain ⟨hdirection, hcode⟩ := f.bounds
  have hmode : Mode.field f.opcode 3 = f.mode.fields.1 := by
    refine Fin.ext ?_
    rw [Mode.field_val_eq _ _ 3 rfl, toNat_opcode]
    omega
  have hreg : Mode.field f.opcode 0 = f.mode.fields.2 := by
    refine Fin.ext ?_
    rw [Mode.field_val_eq _ _ 0 rfl, toNat_opcode]
    omega
  rw [Mode.ofOpcode?, hmode, hreg, Mode.ofFields?_fields]

end OpcodeFields

/-- The opcode with a byte below two digits. -/
def byteOpcode (line digit : Fin 16) (byte : UInt8) : UInt16 :=
  .ofNat (line.val * 4096 + digit.val * 256 + byte.toNat)

section ByteOpcode

variable (line digit : Fin 16) (byte : UInt8)

/-- An opcode with a byte as an exact sum. -/
theorem toNat_byteOpcode :
    (byteOpcode line digit byte).toNat = line.val * 4096 + digit.val * 256 + byte.toNat := by
  have hbyte := byte.toNat_lt
  have hsize : UInt16.size = 65536 := rfl
  exact UInt16.toNat_ofNat_of_lt' (by omega)

/-- The line above a byte is read back. -/
@[simp]
theorem line_byteOpcode : (byteOpcode line digit byte >>> 12).toNat = line.val := by
  have hbyte := byte.toNat_lt
  rw [UInt16.toNat_shiftRight, Nat.shiftRight_eq_div_pow, toNat_byteOpcode]
  change _ / 4096 = _
  omega

/-- The byte is read back. -/
@[simp]
theorem toUInt8_byteOpcode : (byteOpcode line digit byte).toUInt8 = byte := by
  have hbyte := byte.toNat_lt
  refine UInt8.toNat_inj.1 ?_
  rw [UInt16.toNat_toUInt8, toNat_byteOpcode]
  omega

/-- The digit above a byte is read back. -/
theorem digit_byteOpcode :
    ((byteOpcode line digit byte >>> 8) &&& 0xF).toNat = digit.val := by
  have hbyte := byte.toNat_lt
  rw [Instruction.toNat_digit, toNat_byteOpcode]
  omega

end ByteOpcode

/-! ### Instructions -/

/-- The line on which an operation has its sum or difference in a register. -/
def Arith.line : Arith → Fin 16
  | sub => fourBits 0x9
  | add => fourBits 0xD

/-- The line on which an operation has its result in a data register, if it has one. -/
def Binary.registerLine? : Binary → Option (Fin 16)
  | arith op => some op.line
  | logic .or => some (fourBits 0x8)
  | logic .and => some (fourBits 0xC)
  | logic .eor => none

namespace Instruction

/-- The field of an operation with an immediate value. -/
def ImmediateCode.field : ImmediateCode → Fin 8
  | binary (.logic .or) => threeBits 0
  | binary (.logic .and) => threeBits 1
  | binary (.arith .sub) => threeBits 2
  | binary (.arith .add) => threeBits 3
  | binary (.logic .eor) => threeBits 5
  | compare => threeBits 6

/-- The opcode of `ADDQ` and `SUBQ` with a number from 1 to 8. -/
def quickOpcode (op : Arith) (size : Size) (value : UInt32) (dst : Target) : UInt16 :=
  OpcodeFields.opcode ⟨fourBits 0x5, threeBits value.toNat, op == .sub, some size, .target dst⟩

/-- The opcode of `ADDI`, `SUBI`, `ANDI`, `ORI`, `EORI` and `CMPI`. -/
def immediateOpcode (code : ImmediateCode) (size : Size) (dst : Target) : UInt16 :=
  OpcodeFields.opcode ⟨fourBits 0x0, code.field, false, some size, .target dst⟩

/-- The opcode of an operation on a line with an immediate source and a data register. -/
def registerOpcode (line : Fin 16) (size : Size) (n : Fin 8) : UInt16 :=
  OpcodeFields.opcode ⟨line, n, false, some size, .immediate⟩

/-- The opcode of `ADDA` and `SUBA` with an immediate source. -/
def addressOpcode (op : Arith) (size : Size) (n : Fin 8) : UInt16 :=
  OpcodeFields.opcode ⟨op.line, n, size == .long, none, .immediate⟩

/-- The opcode of `MOVE.L` with an immediate source into a data register. Zeros stand in
bits 8 to 6, where other instructions have a direction and a size. -/
def moveLongOpcode (n : Fin 8) : UInt16 :=
  OpcodeFields.opcode ⟨fourBits 0x2, n, false, some .byte, .immediate⟩

/-- The opcode of `MOVEQ`. -/
def moveQuickOpcode (n : Fin 8) (byte : UInt8) : UInt16 :=
  byteOpcode (fourBits 0x7) (fourBits (2 * n.val)) byte

/-- The opcode of `Bcc` with the byte that holds its distance or stands for its form. -/
def branchOpcode (test : Test) (byte : UInt8) : UInt16 :=
  byteOpcode (fourBits 0x6) (fourBits test.code.toNat) byte

variable (chip : Chip) (op : Arith) (size : Size) (n : Fin 8) {value : UInt32} {dst : Target}

/-- A number from 1 to 8 is read back from three bits, in which 8 is 0. -/
theorem quickValue_of_field {opcode : UInt16} (hpos : 1 ≤ value) (hle : value ≤ 8)
    (hfield : highRegister opcode = threeBits value.toNat) : quickValue opcode = value := by
  have hpos : 1 ≤ value.toNat := UInt32.le_iff_toNat_le.1 hpos
  have hle : value.toNat ≤ 8 := UInt32.le_iff_toNat_le.1 hle
  have hval : (highRegister opcode).val = value.toNat % 8 := congrArg Fin.val hfield
  unfold quickValue
  split
  next hzero => exact UInt32.toNat_inj.1 (by change 8 = _; omega)
  next hzero =>
    refine UInt32.toNat_inj.1 ?_
    rw [hval, Nat.toUInt32_eq, UInt32.toNat_ofNat']
    omega

/-- `ADDQ` and `SUBQ` are read back. -/
theorem ofOpcode?_quick (hpos : 1 ≤ value) (hle : value ≤ 8)
    (hdst : (Mode.target dst).isReadable size = true) :
    ofOpcode? chip (quickOpcode op size value dst) = some (.quick op size value dst) := by
  have hvalue : quickValue (quickOpcode op size value dst) = value :=
    quickValue_of_field hpos hle (OpcodeFields.highRegister_opcode _)
  have hop : (if op = .sub then Arith.sub else Arith.add) = op := by
    cases op <;> rfl
  rw [quickOpcode] at hvalue ⊢
  rw [ofOpcode?, OpcodeFields.line_opcode]
  change ofLine5? _ = _
  simp [ofLine5?, Mode.target?, hvalue, hop, hdst]

/-- The field of an operation with an immediate value is read back. -/
theorem immediateCode?_opcode {f : OpcodeFields} {code : ImmediateCode} (h : f.high = code.field) :
    immediateCode? f.opcode = some code := by
  unfold immediateCode?
  rw [OpcodeFields.highRegister_opcode, h]
  rcases code with ((_ | _) | (_ | _ | _)) | _ <;> rfl

/-- The operations with an immediate value are read back. -/
theorem ofOpcode?_immediate (op : Binary) (hdst : dst.isData = true) :
    ofOpcode? chip (immediateOpcode (.binary op) size dst) = some (.immediate op size dst) := by
  have hcode : immediateCode? (immediateOpcode (.binary op) size dst) = some (.binary op) :=
    immediateCode?_opcode rfl
  rw [immediateOpcode] at hcode ⊢
  rw [ofOpcode?, OpcodeFields.line_opcode]
  change ofLine0? chip _ = _
  simp [ofLine0?, hcode, Mode.dataTarget?_target hdst]

/-- `CMPI` is read back. -/
theorem ofOpcode?_compareImmediate (hdst : dst.isData = true) :
    ofOpcode? chip (immediateOpcode .compare size dst) =
      some (.compareImmediate size (.target dst)) := by
  have hcode : immediateCode? (immediateOpcode .compare size dst) = some .compare :=
    immediateCode?_opcode rfl
  rw [immediateOpcode] at hcode ⊢
  rw [ofOpcode?, OpcodeFields.line_opcode]
  change ofLine0? chip _ = _
  simp [ofLine0?, hcode, Mode.dataTarget?_target hdst, Mode.isData, hdst]

/-- The forms between registers of the line have the direction bit set. -/
theorem ofLineC?_of_direction {opcode : UInt16} (h : directionBit opcode = false) :
    ofLineC? opcode = ofLogicLine? .and opcode := by
  have hne (bits : UInt16) (hbits : bits &&& 0x0100 = 0x0100) : opcode &&& 0x01F8 ≠ bits := by
    intro heq
    have hmask : (0x01F8 : UInt16) &&& 0x0100 = 0x0100 := rfl
    rw [← heq, UInt16.and_assoc, hmask] at hbits
    rw [directionBit, hbits] at h
    cases h
  simp only [ofLineC?, hne 0x0140 rfl, hne 0x0148 rfl, hne 0x0188 rfl,
    if_false]

/-- The three lines on which an operation has its result in a data register. -/
theorem ofOpcode?_register {op : Binary} {line : Fin 16} (h : op.registerLine? = some line) :
    ofOpcode? chip (registerOpcode line size n) = some (.toRegister op size .immediate n) := by
  rw [ofOpcode?, registerOpcode, OpcodeFields.line_opcode]
  cases op with
  | arith op =>
    cases h
    cases op with
    | add =>
      change ofArithLine? .add _ = _
      simp [ofArithLine?, Mode.isReadable, Mode.isData]
    | sub =>
      change ofArithLine? .sub _ = _
      simp [ofArithLine?, Mode.isReadable, Mode.isData]
  | logic op =>
    cases op with
    | and =>
      cases h
      change ofLineC? _ = _
      rw [ofLineC?_of_direction (OpcodeFields.directionBit_opcode _)]
      simp [ofLogicLine?, Mode.isData]
    | or =>
      cases h
      change ofLogicLine? .or _ = _
      simp [ofLogicLine?, Mode.isData]
    | eor => cases h

/-- `CMP` with an immediate source is read back. -/
theorem ofOpcode?_compare :
    ofOpcode? chip (registerOpcode 0xB size n) = some (.compare size .immediate n) := by
  rw [ofOpcode?, registerOpcode, OpcodeFields.line_opcode]
  change ofLineB? _ = _
  simp [ofLineB?, Mode.isReadable, Mode.isData]

/-- `ADDA` and `SUBA` with an immediate source are read back. -/
theorem ofOpcode?_address (hsize : size ≠ .byte) :
    ofOpcode? chip (addressOpcode op size n) = some (.toAddress op size .immediate n) := by
  have hline : ofOpcode? chip (addressOpcode op size n) =
      ofArithLine? op (addressOpcode op size n) := by
    rw [ofOpcode?, addressOpcode, OpcodeFields.line_opcode]
    cases op <;> rfl
  have hlong : (if size = .long then Size.long else Size.word) = size := by
    cases size with
    | byte => exact absurd rfl hsize
    | word | long => rfl
  rw [hline, addressOpcode]
  simp [ofArithLine?, hlong]

/-- `MOVE.L` of an immediate value into a data register is read back. -/
theorem ofOpcode?_moveLong :
    ofOpcode? chip (moveLongOpcode n) = some (.move .long .immediate (.dataReg n)) := by
  have hdst : Mode.ofMoveDestination? (moveLongOpcode n) = some (.target (.dataReg n)) := by
    have hmode : Mode.field (moveLongOpcode n) 6 = 0 :=
      Fin.ext (OpcodeFields.destination_opcode _)
    have hreg : Mode.field (moveLongOpcode n) 9 = n := OpcodeFields.highRegister_opcode _
    rw [Mode.ofMoveDestination?, hmode, hreg]
    rfl
  rw [moveLongOpcode] at hdst ⊢
  rw [ofOpcode?, OpcodeFields.line_opcode]
  change ofMoveLine? .long _ = _
  simp [ofMoveLine?, hdst, Mode.target?, Mode.isReadable, Mode.isData]

/-- Extending depends on the bits that count. -/
theorem signExtend_congr {size : Size} {a b : UInt32} (h : a &&& size.mask = b &&& size.mask) :
    size.signExtend a = size.signExtend b := by
  rw [Size.signExtend, Size.signExtend, h]

/-- The opcode of `MOVEQ` as an exact sum. -/
theorem toNat_moveQuickOpcode (byte : UInt8) :
    (moveQuickOpcode n byte).toNat = 7 * 4096 + 2 * n.val * 256 + byte.toNat := by
  have hdigit : (fourBits (2 * n.val)).val = 2 * n.val := by
    change 2 * n.val % 16 = _
    omega
  rw [moveQuickOpcode, toNat_byteOpcode, hdigit]
  rfl

/-- `MOVEQ` is read back, its byte with sign. -/
theorem ofOpcode?_moveQuick (byte : UInt8) : ofOpcode? chip (moveQuickOpcode n byte) =
    some (.moveQuick (Size.byte.signExtend byte.toUInt32) n) := by
  have hbyte := byte.toNat_lt
  have hbit : directionBit (moveQuickOpcode n byte) = false := by
    rw [directionBit_eq, toNat_moveQuickOpcode]
    refine decide_eq_false ?_
    omega
  have hreg : highRegister (moveQuickOpcode n byte) = n := by
    refine Fin.ext ?_
    rw [highRegister, Mode.field_val_eq _ _ 9 rfl, toNat_moveQuickOpcode]
    omega
  have hvalue : Size.byte.signExtend (moveQuickOpcode n byte).toUInt32 =
      Size.byte.signExtend byte.toUInt32 := by
    refine signExtend_congr ?_
    change _ &&& 0xFF = _ &&& 0xFF
    rw [← toUInt32_toUInt8_eq_and, ← toUInt32_toUInt8_eq_and, UInt16.toUInt8_toUInt32,
      moveQuickOpcode, toUInt8_byteOpcode, UInt8.toUInt8_toUInt32]
  rw [ofOpcode?, moveQuickOpcode, line_byteOpcode, ← moveQuickOpcode]
  change ofLine7? _ = _
  rw [ofLine7?, hbit, hreg, hvalue]
  rfl

/-- `Bcc` is read back, except under the test that stands for `BSR`. -/
theorem ofOpcode?_branch {test : Test} (h : test ≠ .never) (byte : UInt8) :
    ofOpcode? chip (branchOpcode test byte) = some (.branch test byte) := by
  have htest : testField (branchOpcode test byte) = test := by
    rw [testField, Test.ofCode, branchOpcode, digit_byteOpcode]
    cases test <;> rfl
  have hbyte : (branchOpcode test byte).toUInt8 = byte := toUInt8_byteOpcode ..
  rw [ofOpcode?, branchOpcode, line_byteOpcode, ← branchOpcode]
  change some (ofLine6 _) = _
  rw [ofLine6, htest, hbyte]
  cases test with
  | never => exact absurd rfl h
  | _ => rfl

end Instruction

end Cpu68k
