import Cpu68k.Bus

/-!
# Faults

A fault is what stops an instruction. Each has a vector, and bus and address
errors know the cycle that failed.
-/

namespace Cpu68k

/-- What stops an instruction. -/
inductive Fault
  /-- The bus refused the cycle. -/
  | busError (cycle : BusCycle)
  /-- The cycle's address is odd and must not be. -/
  | addressError (cycle : BusCycle)
  /-- A user program used an instruction of the supervisor. -/
  | privilegeViolation
  /-- The opcode, or one of its extension words, has no meaning. -/
  | illegalInstruction
  /-- An opcode whose first digit is A. -/
  | lineA
  /-- An opcode whose first digit is F. -/
  | lineF
  /-- The instruction `TRAP`. -/
  | trap (n : UInt8)
  /-- The instruction `TRAPV` with overflow set. -/
  | trapV
  /-- A return from an exception met an unknown frame. -/
  | formatError
  deriving DecidableEq

namespace Fault

/-- The message of a fault. -/
def message : Fault → String
  | busError cycle => "bus error: " ++ cycle.text
  | addressError cycle => "address error: " ++ cycle.text
  | privilegeViolation => "privilege violation"
  | illegalInstruction => "illegal instruction"
  | lineA => "line 1010 emulator"
  | lineF => "line 1111 emulator"
  | trap n => "trap #" ++ toString n.toNat
  | trapV => "trapv"
  | formatError => "stack frame format error"

/-- The number of the exception vector. The sixteen traps follow vector 31. -/
def vector : Fault → UInt8
  | busError _ => 2
  | addressError _ => 3
  | illegalInstruction => 4
  | trapV => 7
  | privilegeViolation => 8
  | lineA => 10
  | lineF => 11
  | formatError => 14
  | trap n => 32 + (n &&& 0xF)

/-- The distance of the vector from the start of the vector table. -/
def vectorOffset (fault : Fault) : UInt16 :=
  fault.vector.toUInt16 * 4

/-- The fault of an opcode that is no instruction. -/
def ofUnknownOpcode (opcode : UInt16) : Fault :=
  if opcode >>> 12 = 0xA then lineA
  else if opcode >>> 12 = 0xF then lineF
  else illegalInstruction

end Fault

/-- What to do with bus and address errors. -/
inductive FaultPolicy
  /-- Halt. -/
  | halt
  /-- Take the exception through a long frame. -/
  | vector
  deriving DecidableEq, Inhabited

/-- The name of a policy. -/
def FaultPolicy.name : FaultPolicy → String
  | halt => "Halt"
  | vector => "Vector"

end Cpu68k
