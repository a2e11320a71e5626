import Cpu68k.Machine

/-!
# Inspecting a machine

Hosts and debuggers read a machine by paths such as `pc`, `d3` or `flags.z`. A
path is a value with a written form; `Path.ofText?` reads the forms that
`Path.text` writes and no others. Listings go through `Path.listed` and show
what the machine answers.
-/

namespace Cpu68k

/-- A value of a machine, with its width. -/
inductive Reading
  | flag (on : Bool)
  | byte (value : UInt8)
  | word (value : UInt16)
  | long (value : UInt32)
  | signed (value : Int)
  deriving DecidableEq

/-- The text of a reading: words of a width in base sixteen with all digits,
signed numbers in base ten. -/
def Reading.text : Reading → String
  | flag on => if on then "true" else "false"
  | byte value => hexUpper 2 value.toNat
  | word value => hexUpper 4 value.toNat
  | long value => hexUpper 8 value.toNat
  | signed value => toString value

/-- What can be read. -/
inductive Path
  | dataReg (n : Fin 8)
  | addrReg (n : Fin 8)
  | usp
  | ssp
  | pc
  | sr
  | ccr
  | vbr
  | sfc
  | dfc
  | cacr
  | extend
  | negative
  | zero
  | overflow
  | carry
  | supervisor
  | traced
  | interruptMask
  | opcode
  | state
  deriving DecidableEq

namespace Path

/-- All paths, in the order of listings. -/
def all : List Path :=
  (List.finRange 8).map dataReg ++ (List.finRange 8).map addrReg ++
    [usp, ssp, pc, sr, ccr, vbr, sfc, dfc, cacr, extend, negative, zero, overflow, carry,
      supervisor, traced, interruptMask, opcode, state]

/-- The written form of a path. -/
def text : Path → String
  | dataReg n => "d" ++ toString n.val
  | addrReg n => "a" ++ toString n.val
  | usp => "usp"
  | ssp => "ssp"
  | pc => "pc"
  | sr => "sr"
  | ccr => "ccr"
  | vbr => "vbr"
  | sfc => "sfc"
  | dfc => "dfc"
  | cacr => "cacr"
  | extend => "flags.x"
  | negative => "flags.n"
  | zero => "flags.z"
  | overflow => "flags.v"
  | carry => "flags.c"
  | supervisor => "flags.s"
  | traced => "flags.t"
  | interruptMask => "int_mask"
  | opcode => "opcode"
  | state => "condition"

/-- The number of a register by its digit. -/
def registerNumber? (digit : Char) : Option (Fin 8) :=
  if h : 48 ≤ digit.toNat ∧ digit.toNat < 56 then some ⟨digit.toNat - 48, by omega⟩ else none

/-- The paths that are not numbered registers. -/
def ofName? (name : String) : Option Path :=
  match name with
  | "usp" => some usp
  | "ssp" => some ssp
  | "pc" => some pc
  | "sr" => some sr
  | "ccr" => some ccr
  | "vbr" => some vbr
  | "sfc" => some sfc
  | "dfc" => some dfc
  | "cacr" => some cacr
  | "flags.x" => some extend
  | "flags.n" => some negative
  | "flags.z" => some zero
  | "flags.v" => some overflow
  | "flags.c" => some carry
  | "flags.s" => some supervisor
  | "flags.t" => some traced
  | "int_mask" => some interruptMask
  | "opcode" => some opcode
  | "condition" => some state
  | _ => none

/-- The written paths that listings go through, in their order. -/
def listed : List String :=
  ["d0", "d1", "d2", "d3", "d4", "d5", "d6", "d7",
    "a0", "a1", "a2", "a3", "a4", "a5", "a6", "a7",
    "usp", "ssp", "pc", "sr", "ccr",
    "vbr", "sfc", "dfc", "cacr",
    "flags.x", "flags.n", "flags.z", "flags.v", "flags.c",
    "flags.s", "flags.t", "int_mask",
    "opcode", "condition"]

/-- The path with a written form: a register letter with one digit, or a name. -/
def ofText? (text : String) : Option Path :=
  match text.toList with
  | ['d', digit] => (registerNumber? digit).map dataReg
  | ['a', digit] => (registerNumber? digit).map addrReg
  | _ => ofName? text

end Path

namespace Machine

/-- Reads one value. -/
def read (m : Machine) (path : Path) : Reading :=
  let r := m.registers
  match path with
  | .dataReg n => .long (r.dataReg n)
  | .addrReg n => .long (r.addrReg n)
  | .usp => .long r.usp
  | .ssp => .long r.ssp
  | .pc => .long r.pc
  | .sr => .word r.sr.bits
  | .ccr => .byte r.ccr
  | .vbr => .long r.vbr
  | .sfc => .byte r.sfc
  | .dfc => .byte r.dfc
  | .cacr => .long r.cacr
  | .extend => .flag (r.sr.has Status.extend)
  | .negative => .flag (r.sr.has Status.negative)
  | .zero => .flag (r.sr.has Status.zero)
  | .overflow => .flag (r.sr.has Status.overflow)
  | .carry => .flag (r.sr.has Status.carry)
  | .supervisor => .flag r.isSupervisor
  | .traced => .flag r.isTraced
  | .interruptMask => .byte r.interruptMask
  | .opcode => .word m.opcode
  | .state => .signed m.state.raw

/-- Reads the value with a written path. -/
def query (m : Machine) (text : String) : Option Reading :=
  (Path.ofText? text).map m.read

/-- The listed paths with their values; one that is not understood is passed over. -/
def readings (m : Machine) : List (String × Reading) :=
  Path.listed.filterMap fun text => (m.query text).map fun reading => (text, reading)

end Machine

end Cpu68k
