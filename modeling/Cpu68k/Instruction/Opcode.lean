import Cpu68k.Instruction

/-!
# Reading opcodes

`Instruction.ofOpcode?` gives an opcode's meaning on a chip, line by line: the
highest digit of the opcode selects the line. An opcode without a meaning is
either illegal or, on the lines A and F, left to an emulator.

The fields have the same places on most lines: an addressing mode in bits 5 to
0, a size in bits 7 and 6, a register in bits 11 to 9.
-/

namespace Cpu68k

namespace Instruction

/-- The register field in bits 11 to 9. -/
def highRegister (opcode : UInt16) : Fin 8 :=
  Mode.field opcode 9

/-- The register field in bits 2 to 0. -/
def lowRegister (opcode : UInt16) : Fin 8 :=
  Mode.field opcode 0

/-- The mode field in bits 5 to 3. -/
def modeField (opcode : UInt16) : Fin 8 :=
  Mode.field opcode 3

/-- The size field in bits 7 and 6. -/
def sizeField? (opcode : UInt16) : Option Size :=
  Size.ofBits? (opcode >>> 6)

/-- Bit 8, which gives the direction of many instructions. -/
def directionBit (opcode : UInt16) : Bool :=
  opcode &&& 0x0100 != 0

/-- The condition test in bits 11 to 8. -/
def testField (opcode : UInt16) : Test :=
  Test.ofCode (opcode >>> 8)

/-- The operation of an immediate instruction. Codes 4 and 7 are bit operations
and moves between address spaces, which are not provided. -/
inductive ImmediateCode
  | binary (op : Binary)
  | compare

/-- The operation in bits 11 to 9 of an immediate instruction. -/
def immediateCode? (opcode : UInt16) : Option ImmediateCode :=
  match (highRegister opcode).val with
  | 0 => some (.binary (.logic .or))
  | 1 => some (.binary (.logic .and))
  | 2 => some (.binary (.arith .sub))
  | 3 => some (.binary (.arith .add))
  | 5 => some (.binary (.logic .eor))
  | 6 => some .compare
  | _ => none

/-- Bitwise operations whose destination field says "immediate" change the
condition codes, as bytes, or the status word, as words. -/
def statusImmediate? (op : Binary) (size : Size) : Option Instruction :=
  match op, size with
  | .logic op, .byte => some (.logicToCcr op)
  | .logic op, .word => some (.logicToSr op)
  | _, _ => none

/-- Line 0: immediate instructions and `MOVEP`. The extended chips compare an
immediate value with program memory as well. -/
def ofLine0? (chip : Chip) (opcode : UInt16) : Option Instruction := do
  if directionBit opcode then
    if (modeField opcode).val = 1 then
      let size := if opcode &&& 0x0040 = 0 then Size.word else Size.long
      if opcode &&& 0x0080 = 0 then
        return .movepFromMemory size (highRegister opcode) (lowRegister opcode)
      else
        return .movepToMemory size (highRegister opcode) (lowRegister opcode)
    else none
  else
    let size ← sizeField? opcode
    let code ← immediateCode? opcode
    let mode ← Mode.ofOpcode? opcode
    match code with
    | .binary op =>
      if mode = .immediate then statusImmediate? op size
      else return .immediate op size (← mode.dataTarget?)
    | .compare =>
      if chip.features.extended then
        if mode.isData ∧ mode ≠ .immediate then return .compareImmediate size mode else none
      else return .compareImmediate size (.target (← mode.dataTarget?))

/-- Lines 1 to 3: `MOVE` of a size, and `MOVEA` if the destination is an address
register. -/
def ofMoveLine? (size : Size) (opcode : UInt16) : Option Instruction := do
  let src ← Mode.ofOpcode? opcode
  let dst ← (← Mode.ofMoveDestination? opcode).target?
  if src.isReadable size then
    match dst with
    | .addrReg n => if size = .byte then none else return .moveAddress size src n
    | _ => return .move size src dst
  else none

/-- The opcodes 4E40 to 4E7F, which have no addressing mode. -/
def ofControlGroup? (chip : Chip) (opcode : UInt16) : Option Instruction :=
  let n := lowRegister opcode
  match (modeField opcode).val with
  | 0 | 1 => some (.trap (fourBits opcode.toNat))
  | 2 => some (.link n)
  | 3 => some (.unlink n)
  | 4 => some (.moveToUsp n)
  | 5 => some (.moveFromUsp n)
  | 6 =>
    match n.val with
    | 0 => some .reset
    | 1 => some .nop
    | 2 => some .stop
    | 3 => some .rte
    | 4 => if chip.features.rtd then some .rtd else none
    | 5 => some .rts
    | 6 => some .trapV
    | _ => some .rtr
  | _ =>
    match n.val with
    | 2 => if chip.features.movec then some .moveFromControl else none
    | 3 => if chip.features.movec then some .moveToControl else none
    | _ => none

/-- The opcodes 4800 to 48FF. -/
def ofExtensionGroup? (chip : Chip) (opcode : UInt16) : Option Instruction := do
  let n := lowRegister opcode
  match ((opcode >>> 6) &&& 3).toNat, (modeField opcode).val with
  | 0, 1 => if chip.features.extended then return .linkLong n else none
  | 1, 0 => return .swap n
  | 1, 1 => return .breakpoint n
  | 1, _ => return .pushAddress (← (← Mode.ofOpcode? opcode).control?)
  | 2, 0 => return .extend .byteToWord n
  | 3, 0 => return .extend .wordToLong n
  | _, _ => none

/-- Line 4 with bit 8 set: `LEA`, and `EXTB` on the extended chips. -/
def ofAddressGroup? (chip : Chip) (opcode : UInt16) : Option Instruction := do
  if opcode &&& 0x00C0 = 0x00C0 then
    if opcode &&& 0xFFF8 = 0x49C0 then
      if chip.features.extended then
        return .extend .byteToLong (lowRegister opcode)
      else none
    else
      return .loadAddress (← (← Mode.ofOpcode? opcode).control?) (highRegister opcode)
  else none

/-- Line 4 with bit 8 clear, by the digit in bits 11 to 8. Where the size field is
11 the instruction moves the status word or the condition codes. -/
def ofUnaryGroup? (chip : Chip) (opcode : UInt16) : Option Instruction := do
  match ((opcode >>> 8) &&& 0xF).toNat with
  | 0x0 =>
    match sizeField? opcode with
    | none => return .moveFromSr (← (← Mode.ofOpcode? opcode).dataTarget?)
    | some _ => none
  | 0x2 =>
    match sizeField? opcode with
    | none =>
      if chip.features.moveFromCcr then
        return .moveFromCcr (← (← Mode.ofOpcode? opcode).dataTarget?)
      else none
    | some size => return .clear size (← (← Mode.ofOpcode? opcode).dataTarget?)
  | 0x4 =>
    match sizeField? opcode with
    | none =>
      let src ← Mode.ofOpcode? opcode
      if src.isData then return .moveToCcr src else none
    | some size => return .negate size (← (← Mode.ofOpcode? opcode).dataTarget?)
  | 0x6 =>
    match sizeField? opcode with
    | none =>
      let src ← Mode.ofOpcode? opcode
      if src.isData then return .moveToSr src else none
    | some size => return .complement size (← (← Mode.ofOpcode? opcode).dataTarget?)
  | 0x8 => ofExtensionGroup? chip opcode
  | 0xA =>
    match sizeField? opcode with
    | none => if opcode = 0x4AFC then return .illegal else none
    | some size =>
      let src ← Mode.ofOpcode? opcode
      if chip.features.extended then
        if src.isReadable size then return .test size src else none
      else return .test size (.target (← src.dataTarget?))
  | 0xE =>
    match ((opcode >>> 6) &&& 3).toNat with
    | 1 => ofControlGroup? chip opcode
    | 2 => return .jumpSubroutine (← (← Mode.ofOpcode? opcode).control?)
    | 3 => return .jump (← (← Mode.ofOpcode? opcode).control?)
    | _ => none
  | _ => none

/-- Line 4. -/
def ofLine4? (chip : Chip) (opcode : UInt16) : Option Instruction :=
  if directionBit opcode then ofAddressGroup? chip opcode else ofUnaryGroup? chip opcode

/-- The number of `ADDQ` and `SUBQ`: a zero in the field stands for eight. -/
def quickValue (opcode : UInt16) : UInt32 :=
  if (highRegister opcode).val = 0 then 8 else (highRegister opcode).val.toUInt32

/-- Line 5: `ADDQ`, `SUBQ`, `Scc` and `DBcc`. -/
def ofLine5? (opcode : UInt16) : Option Instruction := do
  let mode ← Mode.ofOpcode? opcode
  let dst ← mode.target?
  match sizeField? opcode with
  | none =>
    match dst with
    | .addrReg n => return .decrementBranch (testField opcode) n
    | _ => return .setOnTest (testField opcode) dst
  | some size =>
    let op := if directionBit opcode then Arith.sub else Arith.add
    if mode.isReadable size then return .quick op size (quickValue opcode) dst else none

/-- Line 6: branches. The test that never holds stands for `BSR`. -/
def ofLine6 (opcode : UInt16) : Instruction :=
  match testField opcode with
  | .never => .branchSubroutine opcode.toUInt8
  | condition => .branch condition opcode.toUInt8

/-- Line 7: `MOVEQ`, whose byte is extended to a long. -/
def ofLine7? (opcode : UInt16) : Option Instruction :=
  if directionBit opcode then none
  else some (.moveQuick (Size.byte.signExtend opcode.toUInt32) (highRegister opcode))

/-- Lines 8 and C: `OR` and `AND`. The address registers are no operands, and the
forms between registers belong to other instructions. -/
def ofLogicLine? (op : Logic) (opcode : UInt16) : Option Instruction := do
  let size ← sizeField? opcode
  let mode ← Mode.ofOpcode? opcode
  if directionBit opcode then
    return .fromRegister (.logic op) size (highRegister opcode) (← mode.memoryTarget?)
  else if mode.isData then return .toRegister (.logic op) size mode (highRegister opcode)
  else none

/-- Lines 9 and D: `SUB` and `ADD`, and the forms for address registers where the
size field is 11. -/
def ofArithLine? (op : Arith) (opcode : UInt16) : Option Instruction := do
  let mode ← Mode.ofOpcode? opcode
  match sizeField? opcode with
  | none =>
    let size := if directionBit opcode then Size.long else Size.word
    return .toAddress op size mode (highRegister opcode)
  | some size =>
    if directionBit opcode then
      return .fromRegister (.arith op) size (highRegister opcode) (← mode.memoryTarget?)
    else if mode.isReadable size then
      return .toRegister (.arith op) size mode (highRegister opcode)
    else none

/-- Line B: comparisons and `EOR`. -/
def ofLineB? (opcode : UInt16) : Option Instruction := do
  let mode ← Mode.ofOpcode? opcode
  match sizeField? opcode with
  | none =>
    let size := if directionBit opcode then Size.long else Size.word
    return .compareAddress size mode (highRegister opcode)
  | some size =>
    if directionBit opcode then
      return .fromRegister (.logic .eor) size (highRegister opcode) (← mode.dataTarget?)
    else if mode.isReadable size then return .compare size mode (highRegister opcode)
    else none

/-- Line C: the three forms of `EXG`, and `AND`. -/
def ofLineC? (opcode : UInt16) : Option Instruction :=
  let x := highRegister opcode
  let y := lowRegister opcode
  if opcode &&& 0x01F8 = 0x0140 then some (.exchange (.data x) (.data y))
  else if opcode &&& 0x01F8 = 0x0148 then some (.exchange (.addr x) (.addr y))
  else if opcode &&& 0x01F8 = 0x0188 then some (.exchange (.data x) (.addr y))
  else ofLogicLine? .and opcode

/-- The instruction that an opcode stands for on a chip. -/
def ofOpcode? (chip : Chip) (opcode : UInt16) : Option Instruction :=
  match (opcode >>> 12).toNat with
  | 0x0 => ofLine0? chip opcode
  | 0x1 => ofMoveLine? .byte opcode
  | 0x2 => ofMoveLine? .long opcode
  | 0x3 => ofMoveLine? .word opcode
  | 0x4 => ofLine4? chip opcode
  | 0x5 => ofLine5? opcode
  | 0x6 => some (ofLine6 opcode)
  | 0x7 => ofLine7? opcode
  | 0x8 => ofLogicLine? .or opcode
  | 0x9 => ofArithLine? .sub opcode
  | 0xB => ofLineB? opcode
  | 0xC => ofLineC? opcode
  | 0xD => ofArithLine? .add opcode
  | _ => none

end Instruction

end Cpu68k
