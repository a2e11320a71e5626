import Cpu68k.Size

/-!
# The status word and the condition tests

The low five bits of the status word are the condition codes, the high byte
belongs to the supervisor. Bits that no chip uses are kept as they are written.
The sixteen tests of branches, `Scc` and `DBcc` read the condition codes.
-/

namespace Cpu68k

/-- A status word. -/
structure Status where
  /-- All sixteen bits. -/
  bits : UInt16
  deriving DecidableEq, Inhabited

namespace Status

/-- The carry bit. -/
def carry : UInt16 := 0x0001
/-- The overflow bit. -/
def overflow : UInt16 := 0x0002
/-- The zero bit. -/
def zero : UInt16 := 0x0004
/-- The sign bit. -/
def negative : UInt16 := 0x0008
/-- The extend bit. -/
def extend : UInt16 := 0x0010
/-- The five condition codes. -/
def conditionCodes : UInt16 := 0x001F
/-- The interrupt mask, three bits. -/
def interruptBits : UInt16 := 0x0700
/-- The supervisor bit. -/
def supervisor : UInt16 := 0x2000
/-- Both trace bits. -/
def traceBits : UInt16 := 0xC000
/-- The bit that asks for a trace after each instruction. -/
def traceAll : UInt16 := 0x8000

/-- Whether any bit of `mask` is set. -/
def has (sr : Status) (mask : UInt16) : Bool :=
  sr.bits &&& mask != 0

/-- Sets the bits of `mask` if `on` holds and clears them otherwise. -/
def assign (sr : Status) (mask : UInt16) (on : Bool) : Status :=
  ⟨if on then sr.bits ||| mask else sr.bits &&& ~~~mask⟩

/-- Clears overflow and carry. -/
def clearOverflowCarry (sr : Status) : Status :=
  ⟨sr.bits &&& ~~~(overflow ||| carry)⟩

/-- Sets zero and sign from a value of the given size. -/
def signAndZero (sr : Status) (value : UInt32) (size : Size) : Status :=
  (sr.assign zero (value &&& size.mask == 0)).assign negative
    (value &&& size.mask &&& size.signBit != 0)

/-- The status after a value was moved: zero and sign from the value, overflow
and carry clear, extend as it was. -/
def logical (sr : Status) (value : UInt32) (size : Size) : Status :=
  (sr.signAndZero value size).clearOverflowCarry

end Status

/-- The sixteen condition tests, in the order of their codes. -/
inductive Test
  /-- Always. -/
  | always
  /-- Never. -/
  | never
  /-- Unsigned greater. -/
  | higher
  /-- Unsigned less or equal. -/
  | lowerOrSame
  /-- Carry clear, unsigned greater or equal. -/
  | carryClear
  /-- Carry set, unsigned less. -/
  | carrySet
  /-- Not equal. -/
  | notEqual
  /-- Equal. -/
  | equal
  /-- Overflow clear. -/
  | overflowClear
  /-- Overflow set. -/
  | overflowSet
  /-- Sign clear. -/
  | plus
  /-- Sign set. -/
  | minus
  /-- Signed greater or equal. -/
  | greaterOrEqual
  /-- Signed less. -/
  | less
  /-- Signed greater. -/
  | greater
  /-- Signed less or equal. -/
  | lessOrEqual
  deriving DecidableEq, Inhabited

namespace Test

/-- The test with the given four-bit code; higher bits of the code are ignored. -/
def ofCode (code : UInt16) : Test :=
  match (code &&& 0xF).toNat with
  | 0 => always
  | 1 => never
  | 2 => higher
  | 3 => lowerOrSame
  | 4 => carryClear
  | 5 => carrySet
  | 6 => notEqual
  | 7 => equal
  | 8 => overflowClear
  | 9 => overflowSet
  | 10 => plus
  | 11 => minus
  | 12 => greaterOrEqual
  | 13 => less
  | 14 => greater
  | _ => lessOrEqual

/-- The four-bit code of a test. -/
def code : Test → UInt16
  | always => 0
  | never => 1
  | higher => 2
  | lowerOrSame => 3
  | carryClear => 4
  | carrySet => 5
  | notEqual => 6
  | equal => 7
  | overflowClear => 8
  | overflowSet => 9
  | plus => 10
  | minus => 11
  | greaterOrEqual => 12
  | less => 13
  | greater => 14
  | lessOrEqual => 15

/-- The sixteen tests, in the order of their codes. -/
def all : List Test :=
  (List.range 16).map fun code => ofCode code.toUInt16

/-- Whether the test holds in a status word. -/
def holds (test : Test) (sr : Status) : Bool :=
  let c := sr.has Status.carry
  let v := sr.has Status.overflow
  let z := sr.has Status.zero
  let n := sr.has Status.negative
  match test with
  | always => true
  | never => false
  | higher => !c && !z
  | lowerOrSame => c || z
  | carryClear => !c
  | carrySet => c
  | notEqual => !z
  | equal => z
  | overflowClear => !v
  | overflowSet => v
  | plus => !n
  | minus => n
  | greaterOrEqual => n == v
  | less => n != v
  | greater => !z && n == v
  | lessOrEqual => z || n != v

end Test

end Cpu68k
