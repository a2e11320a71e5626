import Cpu68k.Proofs.Precision

/-!
# Precision of refused instructions

An instruction of the supervisor that a user program meets is refused only after its
operands have been resolved. Resolving writes no memory, and the registers that it
has moved are taken back, so the exception is taken as if nothing but the opcode and
its address had been recorded.
-/

namespace Cpu68k

variable {m m' : Machine} {opcode : UInt16} {i : Instruction} {op : Operation}

/-- A user program may not perform the instructions of the supervisor, nor, but for the
first chip, those that the first chip leaves to every program. -/
theorem Privilege.permits_eq_false {privilege : Privilege} {chip : Chip}
    (h : privilege = .privileged ∨ privilege = .privilegedExceptOn68000 ∧ chip ≠ .mc68000) :
    privilege.permits chip false = false := by
  rcases h with rfl | ⟨rfl, hchip⟩
  · rfl
  · simpa [permits] using hchip

/-- Resolving changes registers only, so a refused instruction changes nothing. -/
theorem perform_of_not_permits
    (hpermits : i.privilege.permits m.chip m.registers.isSupervisor = false)
    (hresolve : i.resolve m = .ok op m') :
    i.perform m = .error ⟨.privilegeViolation, none⟩ m := by
  have hmachine := (resolves_instruction i).of_ok hresolve
  rw [perform_eq, hpermits, if_neg Bool.false_ne_true, bind_of_ok hresolve, hmachine]
  rfl

namespace Machine

/-- A privilege violation has no effect of its own. The step ends as if the exception
had been taken before the instruction, with only the opcode and its address recorded:
the address of the opcode is stacked, no register that resolving has moved stays moved,
and the memory outside the frame is untouched. -/
theorem privilegeViolation_precise (m : Machine) {m₁ : Machine} (hstate : m.state = .normal)
    (hmode : m.registers.isSupervisor = false) (hopcode : m.wordAt? m.registers.pc = some opcode)
    (hi : Instruction.ofOpcode? m.chip opcode = some i)
    (hprivilege : i.privilege = .privileged ∨
      i.privilege = .privilegedExceptOn68000 ∧ m.chip ≠ .mc68000)
    (hresolve : i.resolve (m.fetched opcode) = .ok op m₁) :
    m.fault? = some .privilegeViolation ∧
      m.step.val = ((m.noted opcode).takeShort 0x20).val.2 ∧
      m.Interrupted (shortFrame m.chip m.registers.sr m.registers.pc 0x20) m.step.val := by
  have hpermits : i.privilege.permits m.chip m.registers.isSupervisor = false := by
    rw [hmode]
    exact Privilege.permits_eq_false hprivilege
  have hcycle : cycle m = .error ⟨.privilegeViolation, none⟩ (m.fetched opcode) := by
    rw [cycle_eq hopcode hi]
    exact perform_of_not_permits hpermits hresolve
  have hstep : m.step.val = ((m.noted opcode).takeShort 0x20).val.2 := by
    rw [step_val hstate, hcycle]
    rfl
  have hinterrupted : (m.noted opcode).Interrupted _ ((m.noted opcode).takeShort 0x20).val.2 :=
    takeException_interrupted (shortFrame_fits ..)
  refine ⟨?_, hstep, ?_⟩
  · rw [fault?_eq hstate, hcycle]
  · rw [hstep]
    exact ⟨hinterrupted.data, hinterrupted.addr, hinterrupted.usp, hinterrupted.footprint,
      hinterrupted.frame⟩

/-- A user program at a `MOVE (A7)+,SR`. -/
def overreaching : Machine :=
  { Machine.initial .mc68010 .halt (.flat ⟨.general,
      ⟨Array.replicate 32 0 ++ #[0, 0, 0, 48] ++ Array.replicate 12 0 ++ #[0x46, 0xDF] ++
        Array.replicate 14 0⟩⟩) with
    registers := { RegisterFile.initial with pc := 48, usp := 16, ssp := 64, sr := ⟨0x001F⟩ }
    state := .normal }

/-- A user program pops into the status word: the refused instruction has moved its stack
pointer, and the exception is taken with the old one. -/
theorem privilegeViolation_precise_overreaching :
    overreaching.state = .normal ∧ overreaching.registers.isSupervisor = false ∧
      overreaching.wordAt? overreaching.registers.pc = some 0x46DF ∧
      Instruction.ofOpcode? overreaching.chip 0x46DF =
        some (.moveToSr (.target (.postIncrement 7))) ∧
      (Instruction.moveToSr (.target (.postIncrement 7))).privilege = .privileged ∧
      (∃ m₁, (Instruction.moveToSr (.target (.postIncrement 7))).resolve
        (overreaching.fetched 0x46DF) = .ok (.moveToSr (.place (.memory 16))) m₁ ∧
        m₁.registers.usp = 18) ∧
      overreaching.fault? = some .privilegeViolation ∧
      overreaching.step.val = ((overreaching.noted 0x46DF).takeShort 0x20).val.2 ∧
      overreaching.Interrupted [.word 0x001F, .long 48, .word 0x20] overreaching.step.val := by
  have hopcode : overreaching.wordAt? overreaching.registers.pc = some 0x46DF := by
    decide +kernel
  have hi : Instruction.ofOpcode? overreaching.chip 0x46DF =
      some (.moveToSr (.target (.postIncrement 7))) := by decide +kernel
  have hmode : overreaching.registers.isSupervisor = false := by decide +kernel
  obtain ⟨hfault, hstep, hinterrupted⟩ :=
    privilegeViolation_precise overreaching rfl hmode hopcode hi (.inl rfl) rfl
  exact ⟨rfl, hmode, hopcode, hi, rfl, ⟨_, rfl, rfl⟩, hfault, hstep, hinterrupted⟩

end Machine

end Cpu68k
