import Cpu68k.Operation

/-!
# Operand listings

Tools that show an operation list what it works on in up to four slots: a size,
the source and the destination, or the numbers that take their place.
-/

namespace Cpu68k

/-- One entry of a listing. -/
inductive Slot
  | empty
  /-- A data register. -/
  | dataReg (n : UInt8)
  /-- An address register. -/
  | addrReg (n : UInt8)
  /-- An address in the data space. -/
  | memory (addr : UInt32)
  /-- An address in the program space. -/
  | program (addr : UInt32)
  /-- A number. -/
  | constant (value : UInt32)
  /-- The size of the operands. -/
  | size (size : Size)
  deriving DecidableEq, Inhabited

namespace Slot

/-- The number or address in a slot; zero if it holds neither. -/
def value : Slot → UInt32
  | memory addr | program addr => addr
  | constant value => value
  | _ => 0

/-- The size in a slot; long if it holds none. -/
def operandSize : Slot → Size
  | size s => s
  | _ => .long

/-- The four-bit code of the register in a slot. -/
def registerCode? : Slot → Option UInt8
  | dataReg n => some n
  | addrReg n => some (n ||| 8)
  | _ => none

/-- The slot of a register. -/
def ofRegister : Register → Slot
  | .data n => dataReg n.val.toUInt8
  | .addr n => addrReg n.val.toUInt8

/-- The slot of a place. -/
def ofPlace : Place → Slot
  | .dataReg n => dataReg n.val.toUInt8
  | .addrReg n => addrReg n.val.toUInt8
  | .memory addr => memory addr

/-- The slot of an operand. -/
def ofOperand : Operand → Slot
  | .place p => ofPlace p
  | .program addr => program addr
  | .constant value => constant value

/-- The slot of a numbered data register. -/
def data (n : Fin 8) : Slot :=
  ofRegister (.data n)

/-- The slot of a numbered address register. -/
def addr (n : Fin 8) : Slot :=
  ofRegister (.addr n)

/-- The slot of a condition test. -/
def ofTest (test : Test) : Slot :=
  constant test.code.toUInt32

end Slot

/-- A listing of at most four slots. -/
structure Slots where
  /-- The slots in use. -/
  used : List Slot
  /-- There are no more than four. -/
  length_le : used.length ≤ 4

namespace Slots

/-- The listing without slots. -/
def none : Slots :=
  ⟨[], by decide⟩

/-- The number of slots in use. -/
def count (s : Slots) : Nat :=
  s.used.length

/-- Slot `i`; those that are not in use are empty. -/
def slot (s : Slots) (i : Fin 4) : Slot :=
  s.used.getD i.val .empty

end Slots

/-- What an operation works on, in the order in which it is written. -/
def Operation.operands : Operation → List Slot
  | nop | illegal | reset | trapV | rte | rts | rtr => []
  | rtd distance => [.constant distance]
  | stop sr => [.constant sr.toUInt32]
  | trap n => [.constant n.val.toUInt32]
  | breakpoint n => [.constant n.val.toUInt32]
  | moveQuick value dst => [.constant value, .data dst]
  | exchange x y => [.ofRegister x, .ofRegister y]
  | swap n | extend _ n => [.data n]
  | link n distance => [.addr n, .constant distance]
  | unlink n | moveToUsp n | moveFromUsp n => [.addr n]
  | movepToMemory size data addr | movepFromMemory size data addr =>
    [.data data, .memory addr, .size size]
  | branch condition target => [.ofTest condition, .constant target]
  | decrementBranch condition n target => [.ofTest condition, .data n, .constant target]
  | setOnTest condition dst => [.ofTest condition, .ofPlace dst]
  | jump target | call target => [.memory target]
  | loadAddress addr n => [.memory addr, .addr n]
  | pushAddress addr => [.memory addr]
  | move size src dst => [.size size, .ofOperand src, .ofPlace dst]
  | moveAddress size src n => [.size size, .ofOperand src, .addr n]
  | clear size dst | negate size dst | complement size dst => [.size size, .ofPlace dst]
  | test size src => [.size size, .ofOperand src]
  | moveFromSr dst | moveFromCcr dst => [.size .word, .ofPlace dst]
  | moveToCcr src | moveToSr src => [.size .word, .ofOperand src]
  | logicToCcr _ value | logicToSr _ value => [.constant value.toUInt32]
  | moveFromControl code dst => [.constant code.toUInt32, .ofRegister dst]
  | moveToControl code src => [.constant code.toUInt32, .ofRegister src]
  | binary _ size src dst => [.size size, .ofOperand src, .ofPlace dst]
  | arithAddress _ size src n => [.size size, .ofOperand src, .addr n]
  | compare size src dst => [.size size, .ofOperand src, .ofOperand dst]
  | compareAddress size src n => [.size size, .ofOperand src, .addr n]

/-- No operation works on more than three things. -/
theorem Operation.length_operands_le (op : Operation) : op.operands.length ≤ 3 := by
  cases op <;> simp [operands]

/-- The listing of an operation. -/
def Operation.slots (op : Operation) : Slots :=
  ⟨op.operands, by have := op.length_operands_le; omega⟩

end Cpu68k
