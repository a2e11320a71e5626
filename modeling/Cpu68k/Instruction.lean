import Cpu68k.Chip
import Cpu68k.Mode
import Cpu68k.RegisterFile

/-!
# Instructions

An `Instruction` is an opcode's meaning before its extension words are fetched.
Its constructors carry only what the opcode itself holds, typed so that no
instruction can name a register, size or mode that it does not accept.
-/

namespace Cpu68k

/-- Addition and subtraction. -/
inductive Arith
  | add
  | sub
  deriving DecidableEq

/-- The bitwise operations. -/
inductive Logic
  | and
  | or
  | eor
  deriving DecidableEq

/-- The operations on two operands that write their result. -/
inductive Binary
  | arith (op : Arith)
  | logic (op : Logic)
  deriving DecidableEq

/-- The widenings of a data register. -/
inductive Extension
  | byteToWord
  | wordToLong
  | byteToLong
  deriving DecidableEq

/-- The instructions. -/
inductive Instruction
  | nop
  | illegal
  | reset
  | trapV
  | rte
  | rts
  | rtr
  /-- `RTD #d16` -/
  | rtd
  /-- `STOP #imm` -/
  | stop
  | trap (n : Fin 16)
  | breakpoint (n : Fin 8)
  | moveQuick (value : UInt32) (dst : Fin 8)
  | exchange (x y : Register)
  | swap (n : Fin 8)
  | extend (kind : Extension) (n : Fin 8)
  /-- `LINK An,#d16` -/
  | link (n : Fin 8)
  /-- `LINK An,#d32` -/
  | linkLong (n : Fin 8)
  | unlink (n : Fin 8)
  | moveToUsp (n : Fin 8)
  | moveFromUsp (n : Fin 8)
  /-- `MOVEP Dn,d16(An)` -/
  | movepToMemory (size : Size) (data addr : Fin 8)
  /-- `MOVEP d16(An),Dn` -/
  | movepFromMemory (size : Size) (data addr : Fin 8)
  /-- `Bcc`, with the distance that the opcode holds. -/
  | branch (test : Test) (distance : UInt8)
  /-- `BSR`, with the distance that the opcode holds. -/
  | branchSubroutine (distance : UInt8)
  /-- `DBcc Dn` -/
  | decrementBranch (test : Test) (n : Fin 8)
  /-- `Scc` -/
  | setOnTest (test : Test) (dst : Target)
  | jump (dst : Control)
  | jumpSubroutine (dst : Control)
  | loadAddress (src : Control) (n : Fin 8)
  | pushAddress (src : Control)
  | move (size : Size) (src : Mode) (dst : Target)
  | moveAddress (size : Size) (src : Mode) (n : Fin 8)
  | clear (size : Size) (dst : Target)
  | negate (size : Size) (dst : Target)
  | complement (size : Size) (dst : Target)
  | test (size : Size) (src : Mode)
  | moveFromSr (dst : Target)
  | moveFromCcr (dst : Target)
  | moveToCcr (src : Mode)
  | moveToSr (src : Mode)
  /-- `ORI`, `ANDI` and `EORI` to the condition codes. -/
  | logicToCcr (op : Logic)
  /-- `ORI`, `ANDI` and `EORI` to the status word. -/
  | logicToSr (op : Logic)
  /-- `MOVEC Rc,Rn` -/
  | moveFromControl
  /-- `MOVEC Rn,Rc` -/
  | moveToControl
  /-- `ADDQ` and `SUBQ`, with a number from 1 to 8. -/
  | quick (op : Arith) (size : Size) (value : UInt32) (dst : Target)
  /-- An operation on a source and a data register, into the register. -/
  | toRegister (op : Binary) (size : Size) (src : Mode) (n : Fin 8)
  /-- An operation on a data register and a target, into the target. -/
  | fromRegister (op : Binary) (size : Size) (n : Fin 8) (dst : Target)
  /-- An operation on an immediate value and a target, into the target. -/
  | immediate (op : Binary) (size : Size) (dst : Target)
  /-- `ADDA` and `SUBA` -/
  | toAddress (op : Arith) (size : Size) (src : Mode) (n : Fin 8)
  | compare (size : Size) (src : Mode) (n : Fin 8)
  /-- `CMPI`, which reads its second operand only. -/
  | compareImmediate (size : Size) (dst : Mode)
  | compareAddress (size : Size) (src : Mode) (n : Fin 8)
  deriving DecidableEq

/-- Who may perform an instruction. -/
inductive Privilege
  /-- Every program. -/
  | unprivileged
  /-- The supervisor. -/
  | privileged
  /-- The supervisor, and on the first chip every program. -/
  | privilegedExceptOn68000
  deriving DecidableEq

/-- Whether a program may perform an instruction of this privilege. -/
def Privilege.permits (privilege : Privilege) (chip : Chip) (supervisor : Bool) : Bool :=
  match privilege with
  | unprivileged => true
  | privileged => supervisor
  | privilegedExceptOn68000 => supervisor || chip == .mc68000

/-- The privilege that an instruction needs. -/
def Instruction.privilege : Instruction → Privilege
  | reset | rte | stop | moveToUsp _ | moveFromUsp _ | moveToSr _ | logicToSr _
  | moveFromControl | moveToControl => .privileged
  | moveFromSr _ => .privilegedExceptOn68000
  | _ => .unprivileged

end Cpu68k
