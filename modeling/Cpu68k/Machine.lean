import Cpu68k.Chip
import Cpu68k.Fault
import Cpu68k.RegisterFile
import Cpu68k.RunState
import Cpu68k.Space

/-!
# The machine and its accesses

A `Machine` is a register file and an address space, together with what the host
sees. `Exec` is the monad of one instruction: it can fail at any access, and
what was done before the failure stays done. Data is read and written in the
data space of the current mode, instructions are fetched in its program space.
-/

namespace Cpu68k

/-- A processor bound to its memory. -/
structure Machine where
  /-- The programmer's registers. -/
  registers : RegisterFile
  /-- The memory. -/
  space : Space
  /-- The member of the family. -/
  chip : Chip
  /-- What the host sees. -/
  state : RunState
  /-- The opcode of the current or last instruction. -/
  opcode : UInt16
  /-- The address of that opcode. -/
  instructionAddress : UInt32
  /-- What to do with bus and address errors. -/
  policy : FaultPolicy

/-- A machine that has not taken its reset exception. -/
def Machine.initial (chip : Chip) (policy : FaultPolicy) (space : Space) : Machine where
  registers := RegisterFile.initial
  space := space
  chip := chip
  state := .startup
  opcode := 0
  instructionAddress := 0
  policy := policy

/-- A fault on its way to the exception that it causes, with the access error
behind it if a refused access raised it. -/
structure Abort where
  /-- The fault. -/
  fault : Fault
  /-- The refused access. -/
  cause : Option AccessError
  deriving DecidableEq

/-- Computations of one instruction. A failure keeps the machine as it is. -/
abbrev Exec := EStateM Abort Machine

/-- Fails with a fault that no refused access raised. -/
def raise {α : Type} (fault : Fault) : Exec α :=
  throw ⟨fault, none⟩

/-- Changes the registers. -/
def modifyRegisters (f : RegisterFile → RegisterFile) : Exec Unit :=
  modify fun m => { m with registers := f m.registers }

/-- Replaces the status word. -/
def setStatusWord (sr : Status) : Exec Unit :=
  modifyRegisters fun r => { r with sr := sr }

/-- Replaces the program counter. -/
def setPc (pc : UInt32) : Exec Unit :=
  modifyRegisters fun r => { r with pc := pc }

namespace Machine

/-- The function code of data in the current mode. -/
def dataSpace (m : Machine) : FunctionCode :=
  .ofFlags m.registers.isSupervisor false

/-- The function code of instructions in the current mode. -/
def programSpace (m : Machine) : FunctionCode :=
  .ofFlags m.registers.isSupervisor true

/-- Whether a word or long at this address is an address error. -/
def isMisaligned (m : Machine) (addr : UInt32) : Bool :=
  !m.chip.features.unalignedData && addr &&& 1 != 0

/-- Whether data of a size at this address is an address error. -/
def forbids (m : Machine) (addr : UInt32) (size : Size) : Bool :=
  size != .byte && m.isMisaligned addr

/-- The value of a size at an address, read with a function code. -/
def load (m : Machine) (addr : UInt32) (size : Size) (fc : FunctionCode) : Except Abort UInt32 :=
  if m.forbids addr size then .error ⟨.addressError ⟨addr, .read, fc⟩, none⟩
  else
    match m.space.read addr size.bytes fc .read with
    | .error e => .error ⟨.busError ⟨addr, .read, fc⟩, some e⟩
    | .ok value => .ok value

end Machine

/-- Reads with a function code. -/
def loadFrom (addr : UInt32) (size : Size) (fc : FunctionCode) : Exec UInt32 := fun m =>
  match m.load addr size fc with
  | .error a => .error a m
  | .ok value => .ok value m

/-- Reads data. -/
def readData (addr : UInt32) (size : Size) : Exec UInt32 := fun m =>
  loadFrom addr size m.dataSpace m

/-- Reads at a program address, as the relative modes do. -/
def readProgram (addr : UInt32) (size : Size) : Exec UInt32 := fun m =>
  loadFrom addr size m.programSpace m

/-- Writes data. -/
def writeData (addr : UInt32) (size : Size) (value : UInt32) : Exec Unit := fun m =>
  let fc := m.dataSpace
  if m.forbids addr size then .error ⟨.addressError ⟨addr, .write, fc⟩, none⟩ m
  else
    match m.space.locate addr size.bytes fc .write with
    | .error e => .error ⟨.busError ⟨addr, .write, fc⟩, some e⟩ m
    | .ok spot =>
      .ok () { m with space := m.space.setNumberAt spot size.bytes.toNat value }

/-- Fetches the next word of the instruction stream and moves the program counter
past it. Instructions lie at even addresses on every chip. -/
def fetchWord : Exec UInt16 := fun m =>
  let pc := m.registers.pc
  let fc := m.programSpace
  if pc &&& 1 != 0 then .error ⟨.addressError ⟨pc, .fetch, fc⟩, none⟩ m
  else
    match m.space.read pc 2 fc .fetch with
    | .error e => .error ⟨.busError ⟨pc, .fetch, fc⟩, some e⟩ m
    | .ok value =>
      .ok value.toUInt16 { m with registers := { m.registers with pc := pc + 2 } }

/-- Fetches two words of the instruction stream, the high one first. -/
def fetchLong : Exec UInt32 := do
  let high ← fetchWord
  let low ← fetchWord
  return (high.toUInt32 <<< 16) ||| low.toUInt32

/-- Fetches a word as a signed distance. -/
def fetchDistance : Exec UInt32 := do
  let word ← fetchWord
  return Size.word.signExtend word.toUInt32

/-- Pushes a value on the active stack. The stack pointer moves only if the write
succeeds. -/
def push (size : Size) (value : UInt32) : Exec Unit := do
  let sp := (← get).registers.activeSp - size.bytes
  writeData sp size value
  modifyRegisters fun r => r.setActiveSp sp

/-- Pops a value off the active stack. The stack pointer moves only if the read
succeeds. -/
def pop (size : Size) : Exec UInt32 := do
  let sp := (← get).registers.activeSp
  let value ← readData sp size
  modifyRegisters fun r => r.setActiveSp (sp + size.bytes)
  return value

end Cpu68k
