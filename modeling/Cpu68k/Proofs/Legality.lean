import Cpu68k.Proofs.ListedOperation
import Cpu68k.Proofs.Stepping

/-!
# Illegal instructions

Opcode, operands and microcode agree: whatever an opcode stands for and its extension
words say, the listing of its operands holds what the microcode takes from it. So a
step finds an illegal instruction for one of four reasons only, which
`Machine.IsIllegal` lists.
-/

namespace Cpu68k

/-! ### Register numbers -/

/-- Whether a slot that holds a register has the number of one. -/
def Slot.IsNumbered : Slot → Prop
  | dataReg n | addrReg n => n.toNat ≤ 7
  | _ => True

namespace Slot

/-- The slot of a register has its number. -/
theorem isNumbered_ofRegister (x : Register) : (ofRegister x).IsNumbered := by
  cases x with
  | data n | addr n =>
    change n.val.toUInt8.toNat ≤ 7
    revert n
    decide

/-- The slot of a place has the number of a register, if it has one. -/
theorem isNumbered_ofPlace (p : Place) : (ofPlace p).IsNumbered := by
  cases p with
  | dataReg n => exact isNumbered_ofRegister (.data n)
  | addrReg n => exact isNumbered_ofRegister (.addr n)
  | memory addr => trivial

/-- The slot of an operand has the number of a register, if it has one. -/
theorem isNumbered_ofOperand (o : Operand) : (ofOperand o).IsNumbered := by
  cases o with
  | place p => exact isNumbered_ofPlace p
  | program addr => trivial
  | constant value => trivial

end Slot

/-- All slots of an operation have numbers of registers. -/
theorem Operation.isNumbered_operands (op : Operation) : ∀ s ∈ op.operands, s.IsNumbered := by
  have hconstant (value : UInt32) : (Slot.constant value).IsNumbered := trivial
  have hmemory (addr : UInt32) : (Slot.memory addr).IsNumbered := trivial
  have hsize (size : Size) : (Slot.size size).IsNumbered := trivial
  cases op <;> simp [operands, Slot.data, Slot.addr, Slot.ofTest, Slot.isNumbered_ofRegister,
    Slot.isNumbered_ofPlace, Slot.isNumbered_ofOperand, hconstant, hmemory, hsize]

/-- Listings name registers that there are. -/
theorem Instruction.isNumbered_listing (i : Instruction) (op : Operation) :
    ∀ s ∈ (i.listing op).used, s.IsNumbered := by
  unfold listing
  split
  · simp [Slot.ofTest, Slot.IsNumbered]
  · simp [Slot.IsNumbered]
  · exact op.isNumbered_operands

/-! ### Reasons -/

namespace Machine

variable {m m' : Machine} {opcode : UInt16}

/-- The reasons for which a step finds an illegal instruction: the opcode has no
meaning and is on neither of the emulator's lines, it is the illegal instruction, an
extended chip meets an index word in the long form, or `MOVEC` names a control
register that the chip does not have. -/
inductive IsIllegal (m : Machine) (opcode : UInt16) : Prop
  | unknown (h : Instruction.ofOpcode? m.chip opcode = none) (hlineA : opcode >>> 12 ≠ 0xA)
    (hlineF : opcode >>> 12 ≠ 0xF)
  | illegal (h : opcode = 0x4AFC)
  | index {i : Instruction} {before after : List Mode} {mode : Mode}
    (h : Instruction.ofOpcode? m.chip opcode = some i)
    (hextended : m.chip.features.extended = true)
    (hmodes : i.modes = before ++ mode :: after) (hindexed : mode.isIndexed = true)
    (hlong : m.HasLongIndex (m.registers.pc + 2 +
      2 * (i.leadingWords m.chip + extensionWords i.modeSize before)))
  | control {word : UInt16} (h : opcode = 0x4E7A ∨ opcode = 0x4E7B)
    (hword : m.wordAt? (m.registers.pc + 2) = some word)
    (hcode : ControlRegister.ofCode? m.chip (word &&& 0x0FFF) = none)

/-- Fetching an opcode leaves the instruction stream as it is. -/
theorem wordAt?_fetched (addr : UInt32) : (m.fetched opcode).wordAt? addr = m.wordAt? addr :=
  @wordAt?_congr m (m.fetched opcode) rfl rfl addr

/-- An opcode without a meaning is illegal off the emulator's lines. -/
theorem isIllegal_of_unknown (h : Instruction.ofOpcode? m.chip opcode = none)
    (hfault : Fault.ofUnknownOpcode opcode = .illegalInstruction) : m.IsIllegal opcode := by
  unfold Fault.ofUnknownOpcode at hfault
  split at hfault
  next => cases hfault
  next hlineA =>
    split at hfault
    next => cases hfault
    next hlineF => exact .unknown h hlineA hlineF

/-- A refused instruction is illegal. -/
theorem isIllegal_of_refused {i : Instruction} {r : RegisterFile}
    (h : Instruction.ofOpcode? m.chip opcode = some i)
    (hrefused : i.IsRefused (m.fetched opcode) r) : m.IsIllegal opcode := by
  have hencoded := Instruction.isEncoded_of_ofOpcode? h
  cases hrefused with
  | illegal hi =>
    subst hi
    exact .illegal hencoded
  | control hi hword hcode =>
    rw [wordAt?_fetched] at hword
    refine .control ?_ hword hcode
    rcases hi with rfl | rfl
    · exact .inl hencoded
    · exact .inr hencoded
  | index hmodes hindexed hextended hlong =>
    obtain ⟨word, hword, hbit⟩ := hlong
    rw [wordAt?_fetched] at hword
    exact .index h hextended hmodes hindexed ⟨word, hword, hbit⟩

/-- What a step finds illegal is illegal for one of the reasons. -/
theorem isIllegal_of_fault? (h : m.fault? = some .illegalInstruction) :
    ∃ opcode, m.wordAt? m.registers.pc = some opcode ∧ m.IsIllegal opcode := by
  have hstate : m.state = .normal := by
    refine Decidable.byContradiction fun hstate => ?_
    rw [fault?, if_neg hstate] at h
    cases h
  rw [fault?_eq hstate] at h
  cases hrun : cycle m with
  | ok u m' =>
    rw [hrun] at h
    cases h
  | error a m' =>
    rw [hrun] at h
    have hfault : a.fault = .illegalInstruction := Option.some.inj h
    obtain ⟨opcode, r, pc, hopcode, hcause, -⟩ := cycle_unimplemented hrun (by rw [hfault]; rfl)
    refine ⟨opcode, hopcode, ?_⟩
    generalize hcaused : a.fault = fault at hcause
    cases hcause with
    | unknown hnone => exact isIllegal_of_unknown hnone (hcaused.symm.trans hfault)
    | refused hsome hrefused => exact isIllegal_of_refused hsome hrefused

/-- Where an opcode stands for an instruction and its operands can be resolved, the
listing has the numbers of registers only, every check of the microcode on the
listing succeeds, and what runs is the operation. So a step finds an illegal
instruction for the four reasons only. -/
theorem operands_fit (m : Machine) :
    (∀ opcode i op m', Instruction.ofOpcode? m.chip opcode = some i → i.resolve m = .ok op m' →
      (∀ s ∈ (i.listing op).used, s.IsNumbered) ∧
        i.microcode.run? (i.listing op) = some op.effect) ∧
    (m.fault? = some .illegalInstruction →
      ∃ opcode, m.wordAt? m.registers.pc = some opcode ∧ m.IsIllegal opcode) := by
  constructor
  · intro opcode i op m' h hresolve
    have hgives := (yields_instruction i m).of_ok hresolve
    have hencoded := Instruction.isEncoded_of_ofOpcode? h
    exact ⟨i.isNumbered_listing op, hgives.run?_listing hencoded⟩
  · exact isIllegal_of_fault?

/-- A machine at a `MOVEC` from the cache control register, which its chip lacks. -/
def uncached : Machine :=
  { Machine.initial .mc68010 .vector (.flat ⟨.general, ⟨#[0x4E, 0x7A, 0x00, 0x02]⟩⟩) with
    state := .normal }

/-- A control register that the chip lacks makes `MOVEC` illegal, and the slots of a move of a
byte pass the checks of its microcode. -/
theorem operands_fit_uncached :
    uncached.fault? = some .illegalInstruction ∧ uncached.IsIllegal 0x4E7A ∧
      Instruction.ofOpcode? uncached.chip 0x1218 =
        some (.move .byte (.target (.postIncrement 0)) (.dataReg 1)) ∧
      Microcode.move.run?
        (Operation.move .byte (.place (.memory 0)) (.dataReg 1)).slots =
          some (Operation.move .byte (.place (.memory 0)) (.dataReg 1)).effect := by
  have hfault : uncached.fault? = some .illegalInstruction := by decide +kernel
  have hmove : Instruction.ofOpcode? uncached.chip 0x1218 =
      some (.move .byte (.target (.postIncrement 0)) (.dataReg 1)) := by decide +kernel
  have hword : uncached.wordAt? uncached.registers.pc = some 0x4E7A := by decide +kernel
  obtain ⟨hfit, hillegal⟩ := operands_fit uncached
  obtain ⟨opcode, hopcode, hreason⟩ := hillegal hfault
  cases hword.symm.trans hopcode
  exact ⟨hfault, hreason, hmove, (hfit _ _ _ _ hmove rfl).2⟩

end Machine

end Cpu68k
