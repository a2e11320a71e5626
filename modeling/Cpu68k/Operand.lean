import Cpu68k.Machine
import Cpu68k.Mode

/-!
# Operands

Resolving an addressing mode consumes its extension words, moves the address
register of `(An)+` and `-(An)`, and says where the operand is. Nothing is read
from or written to that place until the instruction does so.
-/

namespace Cpu68k

/-- Where a value can be written. -/
inductive Place
  /-- A data register. -/
  | dataReg (n : Fin 8)
  /-- An address register. -/
  | addrReg (n : Fin 8)
  /-- An address in the data space. -/
  | memory (addr : UInt32)
  deriving DecidableEq

/-- Where a value comes from. -/
inductive Operand
  /-- A place that can also be written. -/
  | place (p : Place)
  /-- An address in the program space. -/
  | program (addr : UInt32)
  /-- The value itself. -/
  | constant (value : UInt32)
  deriving DecidableEq

/-- How far `(An)+` and `-(An)` move the register: by the size, but a byte moves
the stack pointer by two so that it stays even. -/
def stride (n : Fin 8) (size : Size) : UInt32 :=
  if n.val = 7 ∧ size = .byte then 2 else size.bytes

/-- The sum of a base, the distance and the index register of an extension word.
The extended chips scale the index and know a longer form of the word, with bit
8 set, which is an illegal instruction here. -/
def indexedAddress (base : UInt32) : Exec UInt32 := do
  let word ← fetchWord
  let m ← get
  let register := m.registers.get (Register.ofCode (word >>> 12).toUInt8)
  let index := if word &&& 0x0800 != 0 then register else Size.word.signExtend register
  let distance := Size.byte.signExtend word.toUInt32
  if m.chip.features.extended then
    if word &&& 0x0100 != 0 then raise .illegalInstruction
    else return base + distance + index <<< ((word >>> 9) &&& 3).toUInt32
  else return base + distance + index

/-- The address that a pointer names. -/
def Pointer.address : Pointer → Exec UInt32
  | indirect n => return (← get).registers.addrReg n
  | displaced n => do
    let distance ← fetchDistance
    return (← get).registers.addrReg n + distance
  | indexed n => do
    let base := (← get).registers.addrReg n
    indexedAddress base
  | absoluteWord => fetchDistance
  | absoluteLong => fetchLong

/-- The address that a relative mode names. Its base is the address of its own
extension word. -/
def Relative.address : Relative → Exec UInt32
  | displaced => do
    let base := (← get).registers.pc
    let distance ← fetchDistance
    return base + distance
  | indexed => do
    let base := (← get).registers.pc
    indexedAddress base

/-- The address that a control mode names. -/
def Control.address : Control → Exec UInt32
  | pointer p => p.address
  | relative r => r.address

/-- The place that a target names, for an access of the given size. -/
def Target.resolve (t : Target) (size : Size) : Exec Place :=
  match t with
  | dataReg n => return .dataReg n
  | addrReg n => return .addrReg n
  | postIncrement n => do
    let addr := (← get).registers.addrReg n
    modifyRegisters fun r => r.setAddrReg n (addr + stride n size)
    return .memory addr
  | preDecrement n => do
    let addr := (← get).registers.addrReg n - stride n size
    modifyRegisters fun r => r.setAddrReg n addr
    return .memory addr
  | pointer p => return .memory (← p.address)

/-- Fetches an immediate value. A byte takes the low half of a word. -/
def fetchImmediate : Size → Exec UInt32
  | .byte => return (← fetchWord).toUInt32 &&& 0xFF
  | .word => return (← fetchWord).toUInt32
  | .long => fetchLong

/-- The operand that a mode names, for an access of the given size. -/
def Mode.resolve (m : Mode) (size : Size) : Exec Operand :=
  match m with
  | target t => return .place (← t.resolve size)
  | relative r => return .program (← r.address)
  | immediate => return .constant (← fetchImmediate size)

/-- Reads a place. Of a register the low bits count. -/
def Place.read (p : Place) (size : Size) : Exec UInt32 :=
  match p with
  | dataReg n => return (← get).registers.dataReg n &&& size.mask
  | addrReg n => return (← get).registers.addrReg n &&& size.mask
  | memory addr => readData addr size

/-- Reads an operand. -/
def Operand.read (o : Operand) (size : Size) : Exec UInt32 :=
  match o with
  | place p => p.read size
  | program addr => readProgram addr size
  | constant value => return value &&& size.mask

/-- Writes a place. A data register keeps its bits above the size, an address
register takes the whole value. -/
def Place.write (p : Place) (size : Size) (value : UInt32) : Exec Unit :=
  match p with
  | dataReg n => modifyRegisters fun r => r.setDataReg n (size.merge (r.dataReg n) value)
  | addrReg n => modifyRegisters fun r => r.setAddrReg n value
  | memory addr => writeData addr size value

end Cpu68k
