import Cpu68k.Proofs.Decoding
import Cpu68k.Proofs.Microcode
import Cpu68k.Proofs.ResolvedOperation

/-!
# Access to slots

The slot of an operand gives the operand back, and reading and writing the slot is
reading and writing the operand, if the operand suits the size of the access: only an
address register does not, and only as a byte.
-/

namespace Cpu68k

/-- Whether a place can be accessed at a size: an address register is no byte. -/
def Place.Suits (size : Size) : Place → Prop
  | addrReg _ => size ≠ .byte
  | _ => True

/-- Whether an operand can be accessed at a size. -/
def Operand.Suits (size : Size) : Operand → Prop
  | place p => p.Suits size
  | _ => True

/-- Every place can be accessed as a word or a long. -/
theorem Place.suits_of_ne_byte {p : Place} {size : Size} (h : size ≠ .byte) : p.Suits size := by
  cases p with
  | addrReg n => exact h
  | dataReg n => trivial
  | memory addr => trivial

/-- Every operand can be accessed as a word or a long. -/
theorem Operand.suits_of_ne_byte {o : Operand} {size : Size} (h : size ≠ .byte) :
    o.Suits size := by
  cases o with
  | place p => exact Place.suits_of_ne_byte h
  | program addr => trivial
  | constant value => trivial

/-- The place of a readable target can be accessed. -/
theorem Target.Gives.suits {t : Target} {p : Place} {size : Size} (h : t.Gives p)
    (hread : (Mode.target t).isReadable size = true) : p.Suits size := by
  cases h with
  | addrReg n =>
    rw [Mode.isReadable, Bool.or_eq_true, bne_iff_ne] at hread
    exact hread.resolve_left Bool.false_ne_true
  | _ => trivial

/-- The operand of a readable mode can be accessed. -/
theorem Mode.Gives.suits {mode : Mode} {o : Operand} {size : Size} (h : mode.Gives o)
    (hread : mode.isReadable size = true) : o.Suits size := by
  cases h with
  | target h => exact h.suits hread
  | relative r addr => trivial
  | immediate value => trivial

/-- The place of a target for data can be accessed at every size. -/
theorem Target.Gives.suits_of_isData {t : Target} {p : Place} {size : Size} (h : t.Gives p)
    (hdata : t.isData = true) : p.Suits size :=
  h.suits (Mode.isReadable_of_isData hdata)

/-- The slot of a target for data holds no address register. -/
theorem Target.Gives.not_isAddrReg {t : Target} {p : Place} (h : t.Gives p)
    (hdata : t.isData = true) : (Slot.ofPlace p).isAddrReg = false := by
  cases h with
  | addrReg n => cases hdata
  | _ => rfl

namespace Slot

variable {β : Type} {size : Size}

/-- The number of a register is one. -/
theorem registerNumber?_val (n : Fin 8) : registerNumber? n.val.toUInt8 = some n := by
  revert n
  decide

/-- The slot of a register gives it back. -/
theorem register?_ofRegister (x : Register) : (ofRegister x).register? = some x := by
  cases x with
  | data n => rw [ofRegister, register?, registerNumber?_val, Option.map_some]
  | addr n => rw [ofRegister, register?, registerNumber?_val, Option.map_some]

/-- The slot of a place gives it back. -/
theorem place?_ofPlace {p : Place} (h : p.Suits size) : (ofPlace p).place? size = some p := by
  cases p with
  | dataReg n => rw [ofPlace, place?, registerNumber?_val, Option.map_some]
  | addrReg n => rw [ofPlace, place?, if_neg h, registerNumber?_val, Option.map_some]
  | memory addr => rfl

/-- The slot of an operand gives it back. -/
theorem operand?_ofOperand {o : Operand} (h : o.Suits size) :
    (ofOperand o).operand? size = some o := by
  cases o with
  | place p =>
    have hplace : (ofOperand (.place p)).operand? size = ((ofPlace p).place? size).map .place := by
      cases p <;> rfl
    rw [hplace, place?_ofPlace h]
    rfl
  | program addr => rfl
  | constant value => rfl

/-- What follows a check that succeeds. -/
theorem bind_reader {o : Operand} (h : o.Suits size) (f : Exec UInt32 → Option β) :
    ((ofOperand o).reader? size >>= f) = f (o.read size) := by
  rw [reader?, operand?_ofOperand h]
  rfl

/-- Writing the slot of a place is writing the place. -/
theorem bind_writer {p : Place} (h : p.Suits size) (f : (UInt32 → Exec Unit) → Option β) :
    ((ofPlace p).writer? size >>= f) = f (p.write size) := by
  rw [writer?, place?_ofPlace h]
  rfl

/-- A place that is read and then written. -/
theorem bind_access {p : Place} (h : p.Suits size)
    (f : Exec UInt32 → (UInt32 → Exec Unit) → Option β) :
    (do f (← (ofPlace p).reader? size) (← (ofPlace p).writer? size)) =
      f (p.read size) (p.write size) :=
  (@bind_reader β size (.place p) h _).trans (bind_writer h _)

end Slot

/-! ### All bits of a register -/

/-- All bits of a value are those of a long. -/
theorem and_longMask (value : UInt32) : value &&& Size.long.mask = value :=
  UInt32.and_neg_one

/-- A long that is merged replaces all bits. -/
theorem merge_long (old value : UInt32) : Size.long.merge old value = value := by
  have hold : old &&& ~~~Size.long.mask = 0 := UInt32.and_zero
  rw [Size.merge, hold, and_longMask, UInt32.zero_or]

namespace Slot

variable {β : Type}

/-- All bits of a register. -/
def readRegister (x : Register) : Exec UInt32 :=
  return (← get).registers.get x

/-- Writes all bits of a register. -/
def writeRegister (x : Register) (value : UInt32) : Exec Unit :=
  modifyRegisters fun r => r.set x value

/-- Reading the slot of a register is reading all of it. -/
theorem bind_readRegister (x : Register) (f : Exec UInt32 → Option β) :
    ((ofRegister x).reader? .long >>= f) = f (readRegister x) := by
  have hread (place : Place) (hplace : place.read .long =
      do return (← get).registers.get x &&& Size.long.mask) : place.read .long = readRegister x := by
    rw [hplace]
    simp only [and_longMask]
    rfl
  cases x with
  | data n =>
    rw [← hread (.dataReg n) rfl]
    exact @bind_reader _ .long (.place (.dataReg n)) trivial f
  | addr n =>
    rw [← hread (.addrReg n) rfl]
    exact @bind_reader _ .long (.place (.addrReg n)) (Operand.suits_of_ne_byte (by decide)) f

/-- Writing all bits of a data register is writing it as a long. -/
theorem writeRegister_data (n : Fin 8) :
    writeRegister (.data n) = (Place.dataReg n).write .long := by
  funext value
  unfold Place.write
  simp only [merge_long]
  rfl

/-- Writing the slot of a register is writing all of it. -/
theorem bind_writeRegister (x : Register) (f : (UInt32 → Exec Unit) → Option β) :
    ((ofRegister x).writer? .long >>= f) = f (writeRegister x) := by
  cases x with
  | data n =>
    rw [writeRegister_data]
    exact @bind_writer _ .long (.dataReg n) trivial f
  | addr n =>
    exact @bind_writer _ .long (.addrReg n) (Place.suits_of_ne_byte (by decide)) f

/-- A register that is read and then written. -/
theorem bind_register (x : Register) (f : Exec UInt32 → (UInt32 → Exec Unit) → Option β) :
    (do f (← (ofRegister x).reader? .long) (← (ofRegister x).writer? .long)) =
      f (readRegister x) (writeRegister x) :=
  (bind_readRegister x _).trans (bind_writeRegister x _)

end Slot

end Cpu68k
