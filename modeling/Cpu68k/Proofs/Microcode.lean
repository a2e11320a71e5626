import Cpu68k.Operation.Effect
import Cpu68k.Operation.Slots

/-!
# Microcode

A listing forgets the types of the operands. `Microcode.run?` performs an instruction
from its listing alone: it reads and writes slots, and every access first checks that
the slot holds what the access takes.
-/

namespace Cpu68k

/-! ### Slots -/

namespace Slot

/-- The size in a slot. -/
def size? : Slot → Option Size
  | size s => some s
  | _ => none

/-- The number or address in a slot. -/
def number? : Slot → Option UInt32
  | memory addr | program addr => some addr
  | constant value => some value
  | _ => none

/-- The register number that a byte stands for, which is at most seven. -/
def registerNumber? (n : UInt8) : Option (Fin 8) :=
  if h : n.toNat < 8 then some ⟨n.toNat, h⟩ else none

/-- The register in a slot. -/
def register? : Slot → Option Register
  | dataReg n => (registerNumber? n).map .data
  | addrReg n => (registerNumber? n).map .addr
  | _ => none

/-- The place in a slot, for an access of a size: a register, which is no address
register if the access is of a byte, or an address in the data space. -/
def place? (size : Size) : Slot → Option Place
  | dataReg n => (registerNumber? n).map .dataReg
  | addrReg n => if size = .byte then none else (registerNumber? n).map .addrReg
  | memory addr => some (.memory addr)
  | _ => none

/-- The operand in a slot, for an access of a size: a place, an address in the
program space or a number. -/
def operand? (size : Size) : Slot → Option Operand
  | program addr => some (.program addr)
  | constant value => some (.constant value)
  | s => (s.place? size).map .place

/-- Whether a slot holds an address register. -/
def isAddrReg : Slot → Bool
  | addrReg _ => true
  | _ => false

/-- Reads what a slot holds. -/
def reader? (s : Slot) (size : Size) : Option (Exec UInt32) :=
  (s.operand? size).map fun o => o.read size

/-- Writes to what a slot holds. -/
def writer? (s : Slot) (size : Size) : Option (UInt32 → Exec Unit) :=
  (s.place? size).map fun p => p.write size

end Slot

/-- The last slot in use. -/
def Slots.last? (s : Slots) : Option Slot :=
  s.used.getLast?

/-! ### Microcode -/

/-- The size from which a data register is widened. -/
def Extension.source : Extension → Size
  | byteToWord | byteToLong => .byte
  | wordToLong => .word

/-- The size to which a data register is widened. -/
def Extension.result : Extension → Size
  | byteToWord => .word
  | wordToLong | byteToLong => .long

/-- What is done with the operands of an instruction, whatever they are. -/
inductive Microcode
  | nop
  | illegal
  | reset
  | trapV
  | rte
  | rts
  | rtr
  | rtd
  | stop
  | trap
  | breakpoint
  | moveQuick
  | exchange
  | swap
  | extend (kind : Extension)
  | link
  | unlink
  | moveToUsp
  | moveFromUsp
  | movepToMemory
  | movepFromMemory
  | branch
  | branchSubroutine
  | decrementBranch
  | setOnTest
  | jump
  | jumpSubroutine
  | loadAddress
  | pushAddress
  | move
  | moveAddress
  | clear
  | negate
  | complement
  | test
  | moveFromSr
  | moveFromCcr
  | moveToCcr
  | moveToSr
  | logicToCcr (op : Logic)
  | logicToSr (op : Logic)
  | moveFromControl
  | moveToControl
  | arith (op : Arith)
  | logic (op : Logic)
  | compare
  | arithAddress (op : Arith)
  | compareAddress

/-- The microcode of an operation on two operands. -/
def Binary.microcode : Binary → Microcode
  | arith op => .arith op
  | logic op => .logic op

namespace Instruction

/-- The microcode of an instruction. -/
def microcode : Instruction → Microcode
  | nop => .nop
  | illegal => .illegal
  | reset => .reset
  | trapV => .trapV
  | rte => .rte
  | rts => .rts
  | rtr => .rtr
  | rtd => .rtd
  | stop => .stop
  | trap _ => .trap
  | breakpoint _ => .breakpoint
  | moveQuick _ _ => .moveQuick
  | exchange _ _ => .exchange
  | swap _ => .swap
  | extend kind _ => .extend kind
  | link _ | linkLong _ => .link
  | unlink _ => .unlink
  | moveToUsp _ => .moveToUsp
  | moveFromUsp _ => .moveFromUsp
  | movepToMemory _ _ _ => .movepToMemory
  | movepFromMemory _ _ _ => .movepFromMemory
  | branch _ _ => .branch
  | branchSubroutine _ => .branchSubroutine
  | decrementBranch _ _ => .decrementBranch
  | setOnTest _ _ => .setOnTest
  | jump _ => .jump
  | jumpSubroutine _ => .jumpSubroutine
  | loadAddress _ _ => .loadAddress
  | pushAddress _ => .pushAddress
  | move _ _ _ => .move
  | moveAddress _ _ _ => .moveAddress
  | clear _ _ => .clear
  | negate _ _ => .negate
  | complement _ _ => .complement
  | test _ _ => .test
  | moveFromSr _ => .moveFromSr
  | moveFromCcr _ => .moveFromCcr
  | moveToCcr _ => .moveToCcr
  | moveToSr _ => .moveToSr
  | logicToCcr op => .logicToCcr op
  | logicToSr op => .logicToSr op
  | moveFromControl => .moveFromControl
  | moveToControl => .moveToControl
  | quick op _ _ _ => .arith op
  | toRegister op _ _ _ | fromRegister op _ _ _ | immediate op _ _ => op.microcode
  | toAddress op _ _ _ => .arithAddress op
  | compare _ _ _ | compareImmediate _ _ => .compare
  | compareAddress _ _ _ => .compareAddress

/-- The listing that the microcode of an instruction gets. A branch to a subroutine
lists the test that never holds before its target, and the distance of `RTD` is
listed as the word that follows the opcode. -/
def listing (i : Instruction) (op : Operation) : Slots :=
  match i, op with
  | branchSubroutine _, .call target => ⟨[.ofTest .never, .constant target], by simp⟩
  | rtd, .rtd distance => ⟨[.constant (distance &&& 0xFFFF)], by simp⟩
  | _, op => op.slots

end Instruction

namespace Microcode

/-- An operation on two operands, into the second one. -/
def runBinary? (op : Binary) (p : Slots) : Option (Exec Unit) := do
  let size ← (p.slot 0).size?
  let readSource ← (p.slot 1).reader? size
  let read ← (p.slot 2).reader? size
  let write ← (p.slot 2).writer? size
  some do
    let x ← readSource
    let y ← read
    let (result, sr) := op.apply x y size (← get).registers.sr
    write result
    setStatusWord sr

/-- A sum or difference with all bits of an address register, which leaves the
status alone. -/
def runOnAddress? (op : Arith) (p : Slots) : Option (Exec Unit) := do
  let size ← (p.slot 0).size?
  let readSource ← (p.slot 1).reader? size
  let read ← (p.slot 2).reader? .long
  let write ← (p.slot 2).writer? .long
  some do
    let value := size.signExtend (← readSource)
    write (op.onAddress value (← read))

/-- Performs a microcode on a listing. There is nothing to perform if a slot that is
read as a size, a number or a register holds none, if what is read is no operand or
what is written is no place, or if a byte of an address register is accessed. -/
def run? (code : Microcode) (p : Slots) : Option (Exec Unit) :=
  match code with
  | nop | reset => some (return ())
  | illegal => some (raise .illegalInstruction)
  | trapV => some do
    if (← get).registers.sr.has Status.overflow then raise .trapV
  | rte => some returnFromException
  | rts => some do setPc (← pop .long)
  | rtr => some do
    let ccr ← pop .word
    let pc ← pop .long
    modifyRegisters fun r => { r.setCcr ccr.toUInt8 with pc := pc }
  | rtd => do
    let distance ← (p.slot 0).number?
    some do
      let pc ← pop .long
      modifyRegisters fun r =>
        { r.setActiveSp (r.activeSp + Size.word.signExtend distance) with pc := pc }
  | stop => do
    let sr ← (p.slot 0).number?
    some do
      let mask := (← get).chip.statusMask
      modifyRegisters fun r => r.setStatus sr.toUInt16 mask
      setState .stopped
  | trap => do
    let n ← (p.slot 0).number?
    some (raise (.trap n.toUInt8))
  | breakpoint => do
    let n ← (p.slot 0).number?
    some (setState (.breakpoint n.toUInt8))
  | moveQuick => do
    let value ← (p.slot 0).number?
    let write ← (p.slot 1).writer? .long
    some do
      write value
      setLogical value .long
  | exchange => do
    let x ← (p.slot 0).register?
    let y ← (p.slot 1).register?
    some (modifyRegisters fun r => (r.set x (r.get y)).set y (r.get x))
  | swap => do
    let read ← (p.slot 0).reader? .long
    let write ← (p.slot 0).writer? .long
    some do
      let value ← read
      let swapped := (value <<< 16) ||| (value >>> 16)
      write swapped
      setLogical swapped .long
  | extend kind => do
    let read ← (p.slot 0).reader? kind.source
    let write ← (p.slot 0).writer? kind.result
    some do
      let value := kind.source.signExtend (← read) &&& kind.result.mask
      write value
      setLogical value kind.result
  | link => do
    let read ← (p.slot 0).reader? .long
    let write ← (p.slot 0).writer? .long
    let distance ← (p.slot 1).number?
    some do
      let sp := (← get).registers.activeSp - 4
      let value ← if p.slot 0 = .addrReg 7 then pure sp else read
      writeData sp .long value
      modifyRegisters fun r => r.setActiveSp sp
      write sp
      modifyRegisters fun r => r.setActiveSp (sp + distance)
  | unlink => do
    let read ← (p.slot 0).reader? .long
    let write ← (p.slot 0).writer? .long
    some do
      let frame ← read
      let saved ← readData frame .long
      modifyRegisters fun r => r.setActiveSp (frame + 4)
      write saved
  | moveToUsp => do
    let read ← (p.slot 0).reader? .long
    some do
      let value ← read
      modifyRegisters fun r => { r with usp := value }
  | moveFromUsp => do
    let write ← (p.slot 0).writer? .long
    some do write (← get).registers.usp
  | movepToMemory => do
    let read ← (p.slot 0).reader? .long
    let addr ← (p.slot 1).number?
    let size ← (p.slot 2).size?
    some do storeAlternate addr (size.bytesOf (← read))
  | movepFromMemory => do
    let addr ← (p.slot 1).number?
    let size ← (p.slot 2).size?
    let write ← (p.slot 0).writer? size
    some do write (← loadAlternate addr size.bytes.toNat 0)
  | branch => do
    let condition ← (p.slot 0).number?
    let target ← (p.slot 1).number?
    some do
      if (Test.ofCode condition.toUInt16).holds (← get).registers.sr then setPc target
  | jumpSubroutine | branchSubroutine => do
    let target ← (← p.last?).number?
    some do
      push .long (← get).registers.pc
      setPc target
  | decrementBranch => do
    let condition ← (p.slot 0).number?
    let read ← (p.slot 1).reader? .word
    let write ← (p.slot 1).writer? .word
    let target ← (p.slot 2).number?
    some do
      if !(Test.ofCode condition.toUInt16).holds (← get).registers.sr then
        let count := ((← read) - 1) &&& 0xFFFF
        write count
        if count ≠ 0xFFFF then setPc target
  | setOnTest => do
    let condition ← (p.slot 0).number?
    let write ← (p.slot 1).writer? .byte
    some do
      write (if (Test.ofCode condition.toUInt16).holds (← get).registers.sr then 0xFF else 0)
  | jump => do
    let target ← (p.slot 0).number?
    some (setPc target)
  | loadAddress => do
    let addr ← (p.slot 0).number?
    let write ← (p.slot 1).writer? .long
    some (write addr)
  | pushAddress => do
    let addr ← (p.slot 0).number?
    some (push .long addr)
  | move => do
    let size ← (p.slot 0).size?
    let read ← (p.slot 1).reader? size
    let write ← (p.slot 2).writer? size
    some do
      let value ← read
      write value
      setLogical value size
  | moveAddress => do
    let size ← (p.slot 0).size?
    let read ← (p.slot 1).reader? size
    let write ← (p.slot 2).writer? .long
    some do write (size.signExtend (← read))
  | clear => do
    let size ← (p.slot 0).size?
    let write ← (p.slot 1).writer? size
    some do
      write 0
      modifyRegisters fun r => { r with sr := r.sr.logical 0 size }
  | negate => do
    let size ← (p.slot 0).size?
    let read ← (p.slot 1).reader? size
    let write ← (p.slot 1).writer? size
    some do
      let value ← read
      let (result, sr) := Cpu68k.negate value size (← get).registers.sr
      write result
      setStatusWord sr
  | complement => do
    let size ← (p.slot 0).size?
    let read ← (p.slot 1).reader? size
    let write ← (p.slot 1).writer? size
    some do
      let value ← read
      let result := ~~~value &&& size.mask
      write result
      setLogical result size
  | test => do
    let size ← (p.slot 0).size?
    let read ← (p.slot 1).reader? size
    some do
      let value ← read
      setLogical value size
  | moveFromSr => do
    let write ← (p.slot 1).writer? .word
    some do write (← get).registers.sr.bits.toUInt32
  | moveFromCcr => do
    let write ← (p.slot 1).writer? .word
    some do write (← get).registers.ccr.toUInt32
  | moveToCcr => do
    let read ← (p.slot 1).reader? .word
    some do
      let value ← read
      modifyRegisters fun r => r.setCcr value.toUInt8
  | moveToSr => do
    let read ← (p.slot 1).reader? .word
    some do
      let value ← read
      let mask := (← get).chip.statusMask
      modifyRegisters fun r => r.setStatus value.toUInt16 mask
  | logicToCcr op => do
    let value ← (p.slot 0).number?
    some (modifyRegisters fun r => r.setCcr (op.onStatus r.ccr.toUInt16 value.toUInt16).toUInt8)
  | logicToSr op => do
    let value ← (p.slot 0).number?
    some do
      let mask := (← get).chip.statusMask
      modifyRegisters fun r => r.setStatus (op.onStatus r.sr.bits value.toUInt16) mask
  | moveFromControl => do
    let code ← (p.slot 0).number?
    let write ← (p.slot 1).writer? .long
    some do
      let c ← controlRegister code.toUInt16
      write (c.read (← get).registers)
  | moveToControl => do
    let code ← (p.slot 0).number?
    let read ← (p.slot 1).reader? .long
    some do
      let value ← read
      let c ← controlRegister code.toUInt16
      modifyRegisters fun r => c.write r value
  | arith op =>
    if (p.slot 2).isAddrReg then runOnAddress? op p else runBinary? (.arith op) p
  | logic op => runBinary? (.logic op) p
  | arithAddress op => runOnAddress? op p
  | compare => do
    let size ← (p.slot 0).size?
    let readSource ← (p.slot 1).reader? size
    let read ← (p.slot 2).reader? size
    some do
      let x ← readSource
      let y ← read
      modifyRegisters fun r => { r with sr := compareStatus x y size r.sr }
  | compareAddress => do
    let size ← (p.slot 0).size?
    let readSource ← (p.slot 1).reader? size
    let read ← (p.slot 2).reader? .long
    some do
      let x := size.signExtend (← readSource)
      let y ← read
      modifyRegisters fun r => { r with sr := compareStatus x y .long r.sr }

end Microcode

end Cpu68k
