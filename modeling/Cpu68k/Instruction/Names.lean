import Cpu68k.Instruction

/-!
# Names of instructions

The words with which listings and logs describe an instruction: its operation,
the way its operands are given, and its privilege.
-/

namespace Cpu68k

/-- The name of an arithmetic operation. -/
def Arith.name : Arith → String
  | add => "Add"
  | sub => "Sub"

/-- The name of a bitwise operation. -/
def Logic.name : Logic → String
  | and => "And"
  | or => "Or"
  | eor => "Eor"

/-- The name of an operation on two operands. -/
def Binary.name : Binary → String
  | arith op => op.name
  | logic op => op.name

/-- The name of the operation with an immediate operand. -/
def Logic.immediateName (op : Logic) : String :=
  op.name ++ "i"

/-- The name of a privilege. -/
def Privilege.name : Privilege → String
  | unprivileged => "Unprivileged"
  | privileged => "Privileged"
  | privilegedExceptOn68000 => "PrivilegedExceptOn68000"

namespace Instruction

/-- The name of the operation. -/
def operationName : Instruction → String
  | nop => "Nop"
  | illegal => "Illegal"
  | reset => "Reset"
  | trapV => "Trapv"
  | rte => "Rte"
  | rts => "Rts"
  | rtr => "Rtr"
  | rtd => "Rtd"
  | stop => "Stop"
  | trap _ => "Trap"
  | breakpoint _ => "Bkpt"
  | moveQuick _ _ => "Moveq"
  | exchange _ _ => "Exg"
  | swap _ => "Swap"
  | extend .byteToWord _ => "ExtW"
  | extend .wordToLong _ => "ExtL"
  | extend .byteToLong _ => "Extb"
  | link _ | linkLong _ => "Link"
  | unlink _ => "Unlk"
  | moveToUsp _ => "MoveToUsp"
  | moveFromUsp _ => "MoveFromUsp"
  | movepToMemory _ _ _ => "MovepToMemory"
  | movepFromMemory _ _ _ => "MovepFromMemory"
  | branch _ _ => "Bcc"
  | branchSubroutine _ => "Bsr"
  | decrementBranch _ _ => "Dbcc"
  | setOnTest _ _ => "Scc"
  | jump _ => "Jmp"
  | jumpSubroutine _ => "Jsr"
  | loadAddress _ _ => "Lea"
  | pushAddress _ => "Pea"
  | move _ _ _ => "Move"
  | moveAddress _ _ _ => "Movea"
  | clear _ _ => "Clr"
  | negate _ _ => "Neg"
  | complement _ _ => "Not"
  | test _ _ => "Tst"
  | moveFromSr _ => "MoveFromSr"
  | moveFromCcr _ => "MoveFromCcr"
  | moveToCcr _ => "MoveToCcr"
  | moveToSr _ => "MoveToSr"
  | logicToCcr op => op.immediateName ++ "ToCcr"
  | logicToSr op => op.immediateName ++ "ToSr"
  | moveFromControl => "MovecFrom"
  | moveToControl => "MovecTo"
  | quick op _ _ _ => op.name
  | toRegister op _ _ _ => op.name
  | fromRegister op _ _ _ => op.name
  | immediate op _ _ => op.name
  | toAddress op _ _ _ => op.name ++ "a"
  | compare _ _ _ | compareImmediate _ _ => "Cmp"
  | compareAddress _ _ _ => "Cmpa"

/-- The name of the way in which the operands are given. -/
def operandForm : Instruction → String
  | nop | illegal | reset | trapV | rte | rts | rtr => "None"
  | rtd | stop | logicToCcr _ | logicToSr _ => "ImmediateWord"
  | trap _ => "TrapVector"
  | breakpoint _ => "BreakpointNumber"
  | moveQuick _ _ => "Moveq"
  | exchange _ _ => "Exg"
  | swap _ | extend _ _ => "DataRegister"
  | link _ => "Link"
  | linkLong _ => "LinkLong"
  | unlink _ | moveToUsp _ | moveFromUsp _ => "AddrRegister"
  | movepToMemory _ _ _ | movepFromMemory _ _ _ => "Movep"
  | branch _ _ | branchSubroutine _ => "Branch"
  | decrementBranch _ _ => "DecrementBranch"
  | setOnTest _ _ => "SetCondition"
  | jump _ | jumpSubroutine _ | pushAddress _ => "Control"
  | loadAddress _ _ => "LoadAddress"
  | move _ _ _ => "Move"
  | moveAddress _ _ _ => "MoveAddress"
  | clear _ _ | negate _ _ | complement _ _ | test _ _ => "Unary"
  | moveFromSr _ | moveFromCcr _ | moveToCcr _ | moveToSr _ => "StatusWord"
  | moveFromControl | moveToControl => "ControlRegister"
  | quick _ _ _ _ => "Quick"
  | toRegister _ _ _ _ | fromRegister _ _ _ _ | compare _ _ _ => "RegisterEa"
  | immediate _ _ _ | compareImmediate _ _ => "ImmediateEa"
  | toAddress _ _ _ _ | compareAddress _ _ _ => "AddressEa"

/-- The operand form, the operation and the privilege, as listings show them. -/
def summary (i : Instruction) : String :=
  i.operandForm ++ " " ++ i.operationName ++ " " ++ i.privilege.name

end Instruction

end Cpu68k
