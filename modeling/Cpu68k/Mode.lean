import Cpu68k.Bits
import Cpu68k.Size

/-!
# Addressing modes

The twelve modes, sorted by what they can be used for. A `Pointer` names an
address and changes no register; `Relative` modes name program addresses. They
make up the `Control` modes. A `Target` can be written, and a `Mode` is any
source. The classes that instructions ask for follow from these types.
-/

namespace Cpu68k

/-- Modes that name a data address and change no register. -/
inductive Pointer
  /-- `(An)` -/
  | indirect (n : Fin 8)
  /-- `d16(An)` -/
  | displaced (n : Fin 8)
  /-- `d8(An,Xn)` -/
  | indexed (n : Fin 8)
  /-- `(xxx).W` -/
  | absoluteWord
  /-- `(xxx).L` -/
  | absoluteLong
  deriving DecidableEq

/-- Modes that name a program address by its distance. -/
inductive Relative
  /-- `d16(PC)` -/
  | displaced
  /-- `d8(PC,Xn)` -/
  | indexed
  deriving DecidableEq

/-- Modes that name an address for its own sake. -/
inductive Control
  | pointer (p : Pointer)
  | relative (r : Relative)
  deriving DecidableEq

/-- Modes that can be written. -/
inductive Target
  /-- `Dn` -/
  | dataReg (n : Fin 8)
  /-- `An` -/
  | addrReg (n : Fin 8)
  /-- `(An)+` -/
  | postIncrement (n : Fin 8)
  /-- `-(An)` -/
  | preDecrement (n : Fin 8)
  /-- An address. -/
  | pointer (p : Pointer)
  deriving DecidableEq

/-- All modes. -/
inductive Mode
  | target (t : Target)
  | relative (r : Relative)
  /-- `#imm` -/
  | immediate
  deriving DecidableEq

/-- Whether the target is anything but an address register. -/
def Target.isData : Target → Bool
  | addrReg _ => false
  | _ => true

/-- Whether the target is in memory. -/
def Target.isMemory : Target → Bool
  | dataReg _ | addrReg _ => false
  | _ => true

namespace Mode

/-- The mode with the given mode and register fields. -/
def ofFields? (mode reg : Fin 8) : Option Mode :=
  match mode.val with
  | 0 => some (target (.dataReg reg))
  | 1 => some (target (.addrReg reg))
  | 2 => some (target (.pointer (.indirect reg)))
  | 3 => some (target (.postIncrement reg))
  | 4 => some (target (.preDecrement reg))
  | 5 => some (target (.pointer (.displaced reg)))
  | 6 => some (target (.pointer (.indexed reg)))
  | _ =>
    match reg.val with
    | 0 => some (target (.pointer .absoluteWord))
    | 1 => some (target (.pointer .absoluteLong))
    | 2 => some (relative .displaced)
    | 3 => some (relative .indexed)
    | 4 => some immediate
    | _ => none

/-- A three-bit field of an opcode, `shift` bits up. -/
def field (opcode shift : UInt16) : Fin 8 :=
  threeBits (opcode >>> shift).toNat

/-- The mode in the low six bits of an opcode. -/
def ofOpcode? (opcode : UInt16) : Option Mode :=
  ofFields? (field opcode 3) (field opcode 0)

/-- The mode in the next six bits, where `MOVE` has its destination with the two
fields exchanged. -/
def ofMoveDestination? (opcode : UInt16) : Option Mode :=
  ofFields? (field opcode 6) (field opcode 9)

/-- The mode as something that can be written. -/
def target? : Mode → Option Target
  | target t => some t
  | _ => none

/-- The mode as something that names an address for its own sake. -/
def control? : Mode → Option Control
  | target (.pointer p) => some (.pointer p)
  | relative r => some (.relative r)
  | _ => none

/-- The mode as a target other than an address register. -/
def dataTarget? (m : Mode) : Option Target :=
  m.target?.filter Target.isData

/-- The mode as a target in memory. -/
def memoryTarget? (m : Mode) : Option Target :=
  m.target?.filter Target.isMemory

/-- Whether the mode is anything but an address register. -/
def isData : Mode → Bool
  | target t => t.isData
  | _ => true

/-- Whether the mode is anything but a register. -/
def isMemory : Mode → Bool
  | target t => t.isMemory
  | _ => true

/-- Whether the mode names an address for its own sake. -/
def isControl (m : Mode) : Bool :=
  m.control?.isSome

/-- Whether the mode can be written. -/
def isAlterable (m : Mode) : Bool :=
  m.target?.isSome

/-- Whether the mode can be read at a size: an address register is no byte. -/
def isReadable (m : Mode) (size : Size) : Bool :=
  m.isData || size != .byte

end Mode

end Cpu68k
