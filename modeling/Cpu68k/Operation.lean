import Cpu68k.Instruction
import Cpu68k.Operand

/-!
# Operations

An `Operation` is an instruction whose operands are resolved: extension words
are values, modes are places and operands, distances are addresses. Resolving
reads only the instruction stream and writes only the program counter and the
registers of `(An)+` and `-(An)`.
-/

namespace Cpu68k

/-- An instruction with its operands resolved. -/
inductive Operation
  | nop
  | illegal
  | reset
  | trapV
  | rte
  | rts
  | rtr
  | rtd (distance : UInt32)
  | stop (sr : UInt16)
  | trap (n : Fin 16)
  | breakpoint (n : Fin 8)
  | moveQuick (value : UInt32) (dst : Fin 8)
  | exchange (x y : Register)
  | swap (n : Fin 8)
  | extend (kind : Extension) (n : Fin 8)
  | link (n : Fin 8) (distance : UInt32)
  | unlink (n : Fin 8)
  | moveToUsp (n : Fin 8)
  | moveFromUsp (n : Fin 8)
  | movepToMemory (size : Size) (data : Fin 8) (addr : UInt32)
  | movepFromMemory (size : Size) (data : Fin 8) (addr : UInt32)
  | branch (test : Test) (target : UInt32)
  | decrementBranch (test : Test) (n : Fin 8) (target : UInt32)
  | setOnTest (test : Test) (dst : Place)
  | jump (target : UInt32)
  /-- `JSR` and `BSR` -/
  | call (target : UInt32)
  | loadAddress (addr : UInt32) (n : Fin 8)
  | pushAddress (addr : UInt32)
  | move (size : Size) (src : Operand) (dst : Place)
  | moveAddress (size : Size) (src : Operand) (n : Fin 8)
  | clear (size : Size) (dst : Place)
  | negate (size : Size) (dst : Place)
  | complement (size : Size) (dst : Place)
  | test (size : Size) (src : Operand)
  | moveFromSr (dst : Place)
  | moveFromCcr (dst : Place)
  | moveToCcr (src : Operand)
  | moveToSr (src : Operand)
  | logicToCcr (op : Logic) (value : UInt16)
  | logicToSr (op : Logic) (value : UInt16)
  | moveFromControl (code : UInt16) (dst : Register)
  | moveToControl (code : UInt16) (src : Register)
  | binary (op : Binary) (size : Size) (src : Operand) (dst : Place)
  | arithAddress (op : Arith) (size : Size) (src : Operand) (n : Fin 8)
  | compare (size : Size) (src dst : Operand)
  | compareAddress (size : Size) (src : Operand) (n : Fin 8)
  deriving DecidableEq

/-- The target of a branch. Its base is the address after the opcode. A distance
of zero in the opcode stands for a word that follows, and on the extended chips
a distance of FF for a long that follows. -/
def branchTarget (distance : UInt8) : Exec UInt32 := do
  let m ← get
  let base := m.registers.pc
  if distance = 0 then return base + (← fetchDistance)
  else if distance = 0xFF ∧ m.chip.features.extended then return base + (← fetchLong)
  else return base + Size.byte.signExtend distance.toUInt32

/-- The address of `MOVEP`. -/
def movepAddress (n : Fin 8) : Exec UInt32 :=
  (Pointer.displaced n).address

/-- The extension word of `MOVEC`: the code of a control register and a register. -/
def controlWord : Exec (UInt16 × Register) := do
  let word ← fetchWord
  return (word &&& 0x0FFF, Register.ofCode (word >>> 12).toUInt8)

/-- Resolves the operands of an instruction, from left to right. -/
def Instruction.resolve : Instruction → Exec Operation
  | nop => return .nop
  | illegal => return .illegal
  | reset => return .reset
  | trapV => return .trapV
  | rte => return .rte
  | rts => return .rts
  | rtr => return .rtr
  | rtd => return .rtd (← fetchDistance)
  | stop => return .stop (← fetchWord)
  | trap n => return .trap n
  | breakpoint n => return .breakpoint n
  | moveQuick value dst => return .moveQuick value dst
  | exchange x y => return .exchange x y
  | swap n => return .swap n
  | extend kind n => return .extend kind n
  | link n => return .link n (← fetchDistance)
  | linkLong n => return .link n (← fetchLong)
  | unlink n => return .unlink n
  | moveToUsp n => return .moveToUsp n
  | moveFromUsp n => return .moveFromUsp n
  | movepToMemory size data addr => return .movepToMemory size data (← movepAddress addr)
  | movepFromMemory size data addr => return .movepFromMemory size data (← movepAddress addr)
  | branch condition distance => return .branch condition (← branchTarget distance)
  | branchSubroutine distance => return .call (← branchTarget distance)
  | decrementBranch condition n => do
    let base := (← get).registers.pc
    let distance ← fetchDistance
    return .decrementBranch condition n (base + distance)
  | setOnTest condition dst => return .setOnTest condition (← dst.resolve .byte)
  | jump dst => return .jump (← dst.address)
  | jumpSubroutine dst => return .call (← dst.address)
  | loadAddress src n => return .loadAddress (← src.address) n
  | pushAddress src => return .pushAddress (← src.address)
  | move size src dst => do
    let src ← src.resolve size
    let dst ← dst.resolve size
    return .move size src dst
  | moveAddress size src n => return .moveAddress size (← src.resolve size) n
  | clear size dst => return .clear size (← dst.resolve size)
  | negate size dst => return .negate size (← dst.resolve size)
  | complement size dst => return .complement size (← dst.resolve size)
  | test size src => return .test size (← src.resolve size)
  | moveFromSr dst => return .moveFromSr (← dst.resolve .word)
  | moveFromCcr dst => return .moveFromCcr (← dst.resolve .word)
  | moveToCcr src => return .moveToCcr (← src.resolve .word)
  | moveToSr src => return .moveToSr (← src.resolve .word)
  | logicToCcr op => return .logicToCcr op (← fetchWord)
  | logicToSr op => return .logicToSr op (← fetchWord)
  | moveFromControl => do
    let (code, register) ← controlWord
    return .moveFromControl code register
  | moveToControl => do
    let (code, register) ← controlWord
    return .moveToControl code register
  | quick op size value dst => do
    match ← dst.resolve size with
    | .addrReg n => return .arithAddress op size (.constant value) n
    | place => return .binary (.arith op) size (.constant value) place
  | toRegister op size src n => return .binary op size (← src.resolve size) (.dataReg n)
  | fromRegister op size n dst =>
    return .binary op size (.place (.dataReg n)) (← dst.resolve size)
  | immediate op size dst => do
    let value ← fetchImmediate size
    return .binary op size (.constant value) (← dst.resolve size)
  | toAddress op size src n => return .arithAddress op size (← src.resolve size) n
  | compare size src n => return .compare size (← src.resolve size) (.place (.dataReg n))
  | compareImmediate size dst => do
    let value ← fetchImmediate size
    return .compare size (.constant value) (← dst.resolve size)
  | compareAddress size src n => return .compareAddress size (← src.resolve size) n

end Cpu68k
