import Cpu68k.Proofs.Stepping

/-!
# Precision of missing instructions

A step that finds no instruction takes its exception from the state before the step:
nothing has changed but the record of the opcode and its address. There is one way in
which it does not. A `MOVE` whose source is `(An)+` or `-(An)` resolves its source
first, and where its destination then has an index word in the long form, the
register stays moved.
-/

namespace Cpu68k

variable {m m' : Machine} {fault : Fault} {opcode : UInt16} {offset : UInt16}

/-- A step moves the register. -/
theorem stride_ne_zero (n : Fin 8) (size : Size) : stride n size ≠ 0 := by
  unfold stride
  split
  · decide
  · cases size <;> decide

namespace Machine

/-- The machine with the record of an opcode at its program counter. -/
def noted (m : Machine) (opcode : UInt16) : Machine :=
  { m with opcode := opcode, instructionAddress := m.registers.pc }

/-- A step that leaves an address register moved, with the registers that it leaves: the
opcode is a `MOVE` from `(An)+` or `-(An)` to an indexed destination, whose
extension word is in the long form of the extended chips. -/
inductive Strays (m : Machine) (opcode : UInt16) : RegisterFile → Prop
  | mk {size : Size} {src : Mode} {k n : Fin 8}
    (hmove : Instruction.ofOpcode? m.chip opcode = some (.move size src (.pointer (.indexed n))))
    (hsrc : src = .target (.postIncrement k) ∨ src = .target (.preDecrement k))
    (hextended : m.chip.features.extended = true)
    (hlong : m.HasLongIndex (m.registers.pc + 2)) : Strays m opcode (src.moved size m.registers)

/-- The register has really moved. -/
theorem Strays.ne {r : RegisterFile} (h : m.Strays opcode r) : r ≠ m.registers := by
  intro heq
  cases h with
  | @mk size src k n hmove hsrc hextended hlong =>
    have hzero := stride_ne_zero k size
    have hmoved := congrArg (fun r => r.addrReg k) heq
    rcases hsrc with rfl | rfl
    · rw [Mode.moved, RegisterFile.addrReg_setAddrReg] at hmoved
      grind
    · rw [Mode.moved, RegisterFile.addrReg_setAddrReg] at hmoved
      grind

end Machine

/-- Only `MOVE` has two modes. -/
theorem Instruction.modes_split {i : Instruction} {before after : List Mode} {mode : Mode}
    (h : i.modes = before ++ mode :: after) : before = [] ∨
      ∃ size src dst, i = .move size src dst ∧ before = [src] ∧ mode = .target dst := by
  cases before with
  | nil => exact .inl rfl
  | cons first rest =>
    right
    cases i with
    | move size src dst =>
      cases rest with
      | nil =>
        cases h
        exact ⟨_, _, _, rfl, rfl, rfl⟩
      | cons second rest => simp [Instruction.modes] at h
    | _ => simp [Instruction.modes] at h

/-- Without `(An)+` and `-(An)` a mode moves no register. -/
theorem Mode.moved_or (mode : Mode) (size : Size) (r : RegisterFile) :
    mode.moved size r = r ∨
      ∃ k, mode = .target (.postIncrement k) ∨ mode = .target (.preDecrement k) := by
  unfold moved
  split
  · exact .inr ⟨_, .inl rfl⟩
  · exact .inr ⟨_, .inr rfl⟩
  · exact .inl rfl

/-- An indexed target is a pointer with an index. -/
theorem Target.eq_indexed {t : Target} (h : (Mode.target t).isIndexed = true) :
    ∃ n, t = .pointer (.indexed n) := by
  unfold Mode.isIndexed at h
  split at h
  · rename_i n heq
    cases heq
    exact ⟨n, rfl⟩
  · rename_i heq
    cases heq
  · cases h

namespace Machine

/-- The registers that a mode moves, with the program counter of the instruction. -/
theorem moved_fetched (mode : Mode) (size : Size) :
    { mode.moved size (m.fetched opcode).registers with pc := m.registers.pc } =
      mode.moved size m.registers := by
  rw [← moved_withPc]
  rfl

/-- A step without an instruction leaves the registers, apart from the program
counter, unless it strays. -/
theorem Unimplemented.registers {r : RegisterFile} (h : m.Unimplemented opcode fault r) :
    { r with pc := m.registers.pc } = m.registers ∨
      m.Strays opcode { r with pc := m.registers.pc } := by
  cases h with
  | unknown h => exact .inl rfl
  | @refused i r hi hrefused =>
    cases hrefused with
    | illegal h => exact .inl rfl
    | control h hword hcode => exact .inl rfl
    | @index before after mode hsplit hindexed hextended hlong =>
      rcases Instruction.modes_split hsplit with rfl | ⟨size, src, dst, rfl, rfl, rfl⟩
      · exact .inl rfl
      · obtain ⟨n, rfl⟩ := Target.eq_indexed hindexed
        change { src.moved size (m.fetched opcode).registers with pc := m.registers.pc } = _ ∨
          m.Strays opcode { src.moved size (m.fetched opcode).registers with pc := m.registers.pc }
        rw [moved_fetched]
        rcases src.moved_or size m.registers with hsame | ⟨k, hsrc⟩
        · exact .inl hsame
        · right
          have hwords : extensionWords size [src] = 0 := by
            rcases hsrc with rfl | rfl <;> rfl
          have haddr : m.registers.pc + 2 + 2 * (0 + extensionWords size [src]) =
              m.registers.pc + 2 := by
            rw [hwords]
            grind
          obtain ⟨word, hword, hbit⟩ := hlong
          refine .mk hi hsrc hextended ⟨word, ?_, hbit⟩
          rw [← hword, ← haddr]
          exact (@wordAt?_congr m (m.fetched opcode) rfl rfl _).symm

/-- Where a `MOVE` strays, a step without an instruction leaves the register moved. -/
theorem Strays.registers {r r' : RegisterFile} (hstrays : m.Strays opcode r')
    (h : m.Unimplemented opcode fault r) : { r with pc := m.registers.pc } = r' := by
  cases hstrays with
  | @mk size src k n hmove hsrc hextended hlong =>
    have hplain : src.isIndexed = false := by
      rcases hsrc with rfl | rfl <;> rfl
    cases h with
    | unknown h =>
      rw [hmove] at h
      cases h
    | @refused i r hi hrefused =>
      rw [hmove] at hi
      cases hi
      cases hrefused with
      | illegal h => cases h
      | control h hword hcode => rcases h with h | h <;> cases h
      | @index before after mode hsplit hindexed hextended hlong =>
        rcases Instruction.modes_split hsplit with rfl | ⟨size', src', dst', hi, rfl, rfl⟩
        · cases hsplit
          rw [hplain] at hindexed
          cases hindexed
        · cases hi
          exact moved_fetched src size

/-! ### Taking the exception -/

/-- The machine with other registers. -/
def withRegisters (m : Machine) (r : RegisterFile) : Machine :=
  { m with registers := r }

/-- A step without an instruction takes its exception from the state before the step,
but for the record of the opcode and the registers that stray. -/
theorem step_unimplemented (hstate : m.state = .normal) (hfault : m.fault? = some fault)
    (hunimplemented : fault.isUnimplemented = true) :
    ∃ opcode r, m.wordAt? m.registers.pc = some opcode ∧ m.Unimplemented opcode fault r ∧
      m.step.val = (((m.noted opcode).withRegisters { r with pc := m.registers.pc }).takeShort
        fault.vectorOffset).val.2 := by
  rw [fault?_eq hstate] at hfault
  rw [step_val hstate]
  cases hrun : cycle m with
  | ok u m' =>
    rw [hrun] at hfault
    cases hfault
  | error a m' =>
    rw [hrun] at hfault
    cases hfault
    obtain ⟨opcode, r, pc, hopcode, hcause, rfl⟩ := cycle_unimplemented hrun hunimplemented
    exact ⟨opcode, r, hopcode, hcause, takeFault_of_isUnimplemented hunimplemented⟩

/-- What an exception leaves of the program that it interrupts: its registers and the
memory outside the frame, and the frame below the stack pointer unless the machine
has halted. -/
structure Interrupted (m : Machine) (frame : List FrameItem) (m' : Machine) : Prop where
  /-- The data registers. -/
  data : m'.registers.data = m.registers.data
  /-- The address registers below the stack pointer. -/
  addr : m'.registers.addr = m.registers.addr
  /-- The user stack pointer. -/
  usp : m'.registers.usp = m.registers.usp
  /-- Only bytes of the frame have changed. -/
  footprint : m.space.AgreeOutside (m.registers.ssp - frameSize frame) (frameSize frame) m'.space
  /-- The frame lies at the stack pointer, directly below the old one. -/
  frame : m'.state = .halted ∨ m'.registers.ssp = m.registers.ssp - frameSize frame ∧
    m'.Stacks m'.registers.ssp frame

/-- Taking an exception interrupts the program with its frame, also where the machine halts. -/
theorem takeException_interrupted {frame : List FrameItem}
    (hfits : frameBytes frame < UInt32.size) :
    m.Interrupted frame (m.takeException frame offset).val.2 := by
  have hkept {m₁ : Machine} {ssp pc : UInt32} (h : m₁ = m.withHandler ssp pc m₁.space) :
      m₁.registers.data = m.registers.data ∧ m₁.registers.addr = m.registers.addr ∧
        m₁.registers.usp = m.registers.usp := by
    rw [h]
    exact ⟨rfl, rfl, rfl⟩
  rcases @takeException_cases m frame offset hfits with
    ⟨m₁, hval, hentered⟩ | ⟨a, m₁, hval, hrefused⟩
  · obtain ⟨hdata, haddr, husp⟩ := hkept hentered.machine
    have hssp : m₁.registers.ssp = m.registers.ssp - frameSize frame := by
      rw [hentered.machine]
      rfl
    rw [hval]
    exact ⟨hdata, haddr, husp, hentered.footprint, .inr ⟨hssp, hssp ▸ hentered.stored⟩⟩
  · obtain ⟨ssp, hmachine⟩ := hrefused.machine
    obtain ⟨hdata, haddr, husp⟩ := hkept hmachine
    rw [hval]
    exact ⟨hdata, haddr, husp, hrefused.footprint, .inl rfl⟩

/-- Exceptions that are taken from machines with different address registers or stack
pointers do not end alike. -/
theorem registers_eq_of_takeShort {addr : Vector UInt32 7} {usp ssp : UInt32} {m₁ : Machine}
    (hm₁ : m₁ = m.withRegisters { m.registers with addr := addr, usp := usp, ssp := ssp })
    (hstate : (m₁.takeShort offset).val.2.state ≠ .halted)
    (h : (m₁.takeShort offset).val.2 = (m.takeShort offset).val.2) :
    m₁.registers = m.registers := by
  have hmoved : m₁.Interrupted _ (m₁.takeShort offset).val.2 :=
    takeException_interrupted (shortFrame_fits ..)
  have hplain : m.Interrupted _ (m.takeShort offset).val.2 :=
    takeException_interrupted (shortFrame_fits ..)
  rw [← h] at hplain
  have hssp := hmoved.frame.resolve_left hstate |>.1
  have hssp' := hplain.frame.resolve_left hstate |>.1
  have haddr := hmoved.addr.symm.trans hplain.addr
  have husp := hmoved.usp.symm.trans hplain.usp
  subst hm₁
  have hsame : ssp = m.registers.ssp := (UInt32.sub_left_inj _).1 (hssp.symm.trans hssp')
  change addr = m.registers.addr at haddr
  change usp = m.registers.usp at husp
  rw [haddr, husp, hsame]
  rfl

/-- The registers that stray are address registers or a stack pointer. -/
theorem Strays.registers_eq {r : RegisterFile} (h : m.Strays opcode r) : ∃ addr usp ssp,
    r = { m.registers with addr := addr, usp := usp, ssp := ssp } := by
  cases h with
  | @mk size src k n hmove hsrc hextended hlong =>
    rcases hsrc with rfl | rfl
    · obtain ⟨addr, usp, ssp, heq, -⟩ := m.registers.setAddrReg_eq k
        (m.registers.addrReg k + stride k size)
      exact ⟨addr, usp, ssp, heq⟩
    · obtain ⟨addr, usp, ssp, heq, -⟩ := m.registers.setAddrReg_eq k
        (m.registers.addrReg k - stride k size)
      exact ⟨addr, usp, ssp, heq⟩

/-- A step that finds no instruction is precise unless it strays. It then ends as if
the exception had been taken before the instruction, with only the opcode and its
address recorded: the address is stacked, and the program's registers and the memory
outside the frame are untouched. A step that strays takes the same exception with one
address register moved, and so ends differently if the exception is taken. -/
theorem unimplemented_precise (m : Machine) (fault : Fault) (hstate : m.state = .normal)
    (hfault : m.fault? = some fault) (hunimplemented : fault.isUnimplemented = true) :
    ∃ opcode, m.wordAt? m.registers.pc = some opcode ∧
      ((∀ r, ¬ m.Strays opcode r) →
        m.step.val = ((m.noted opcode).takeShort fault.vectorOffset).val.2 ∧
        m.Interrupted (shortFrame m.chip m.registers.sr m.registers.pc fault.vectorOffset)
          m.step.val) ∧
      ∀ r, m.Strays opcode r → r ≠ m.registers ∧
        m.step.val = (((m.noted opcode).withRegisters r).takeShort fault.vectorOffset).val.2 ∧
        (m.step.val.state ≠ .halted →
          m.step.val ≠ ((m.noted opcode).takeShort fault.vectorOffset).val.2) := by
  obtain ⟨opcode, r, hopcode, hcause, hstep⟩ := step_unimplemented hstate hfault hunimplemented
  refine ⟨opcode, hopcode, ?_, ?_⟩
  · intro hplain
    have hsame := hcause.registers.resolve_right (hplain _)
    have hinterrupted : (m.noted opcode).Interrupted _
        ((m.noted opcode).takeShort fault.vectorOffset).val.2 :=
      takeException_interrupted (shortFrame_fits ..)
    rw [hsame] at hstep
    rw [hstep]
    exact ⟨rfl, hinterrupted.data, hinterrupted.addr, hinterrupted.usp, hinterrupted.footprint,
      hinterrupted.frame⟩
  · intro r' hstrays
    have hmoved := hstrays.registers hcause
    rw [hmoved] at hstep
    refine ⟨hstrays.ne, hstep, ?_⟩
    intro hrunning heq
    apply hstrays.ne
    obtain ⟨addr, usp, ssp, hr⟩ := hstrays.registers_eq
    rw [hstep] at hrunning heq
    exact registers_eq_of_takeShort (m := m.noted opcode) (congrArg _ hr) hrunning heq

/-- A machine at a `MOVE.W (A0)+,0(A1,D0.W)` with an index word in the long form. -/
def straying : Machine :=
  { Machine.initial .mc68020 .vector (.flat ⟨.general,
      ⟨Array.replicate 32 0 ++ #[0x33, 0x98, 0x01, 0x00] ++ Array.replicate 28 0⟩⟩) with
    registers := { RegisterFile.initial with
      addr := #v[48, 48, 0, 0, 0, 0, 0], pc := 32, ssp := 64, sr := ⟨0x2000⟩ }
    state := .normal }

/-- The move from `(A0)+` strays, with its step taken. -/
theorem straying_strays :
    straying.Strays 0x3398 ((Mode.target (.postIncrement 0)).moved .word straying.registers) :=
  .mk (n := 1) (by decide +kernel) (.inl rfl) rfl ⟨0x0100, by decide +kernel, by decide⟩

/-- The exception is taken with the step of the source, and not from the state before the
instruction. -/
theorem unimplemented_precise_straying :
    straying.state = .normal ∧ straying.fault? = some .illegalInstruction ∧
      Fault.illegalInstruction.isUnimplemented = true ∧
      straying.step.val = (((straying.noted 0x3398).withRegisters
        (straying.registers.setAddrReg 0 50)).takeShort 16).val.2 ∧
      straying.step.val ≠ ((straying.noted 0x3398).takeShort 16).val.2 := by
  have hfault : straying.fault? = some .illegalInstruction := by decide +kernel
  obtain ⟨opcode, hopcode, -, hstrays⟩ :=
    unimplemented_precise straying .illegalInstruction rfl hfault rfl
  have hword : straying.wordAt? straying.registers.pc = some 0x3398 := by decide +kernel
  cases hword.symm.trans hopcode
  obtain ⟨-, hstep, hne⟩ := hstrays _ straying_strays
  exact ⟨rfl, hfault, rfl, hstep, hne (by decide +kernel)⟩

/-- The register of the source stays moved, so no record of the opcode makes the step
precise. -/
theorem straying_imprecise : straying.state = .normal ∧
    straying.fault? = some .illegalInstruction ∧
    ∀ opcode, straying.step.val ≠
      ((straying.noted opcode).takeShort Fault.illegalInstruction.vectorOffset).val.2 := by
  refine ⟨rfl, by decide +kernel, fun opcode heq => ?_⟩
  have hinterrupted : (straying.noted opcode).Interrupted _
      ((straying.noted opcode).takeShort Fault.illegalInstruction.vectorOffset).val.2 :=
    takeException_interrupted (shortFrame_fits ..)
  have hmoved : straying.step.val.registers.addr ≠ straying.registers.addr := by decide +kernel
  rw [heq] at hmoved
  exact hmoved hinterrupted.addr

end Machine

end Cpu68k
