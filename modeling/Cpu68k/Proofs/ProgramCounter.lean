import Cpu68k.Proofs.Decoding
import Cpu68k.Proofs.Precision

/-!
# Where the next instruction is

The program counter moves while extension words are fetched. Taken together they move it
past the instruction, whatever modes and forms the instruction has; then an instruction
that transfers control replaces it. `Instruction.length` counts the words, and
`program_counter` says where a step goes on, what a call pushes and what a trap stacks.
-/

namespace Cpu68k

variable {m m' : Machine} {i : Instruction} {op : Operation} {opcode : UInt16} {chip : Chip}

namespace Instruction

/-- The number of bytes of an instruction, which are its opcode and its extension words. -/
def length (chip : Chip) (i : Instruction) : UInt32 :=
  2 + 2 * (i.leadingWords chip + extensionWords i.modeSize i.modes)

/-- Whether an instruction that starts with these registers goes on elsewhere than behind
itself. -/
def transfers (r : RegisterFile) : Instruction → Bool
  | rte | rts | rtr | rtd | jump _ | jumpSubroutine _ | branchSubroutine _ => true
  | branch condition _ => condition.holds r.sr
  | decrementBranch condition n => !condition.holds r.sr && r.dataReg n &&& 0xFFFF != 0
  | _ => false

/-- Whether the instruction calls a subroutine. -/
def isCall : Instruction → Bool
  | jumpSubroutine _ | branchSubroutine _ => true
  | _ => false

/-- Whether the instruction holds its target as a displacement. -/
def isBranch : Instruction → Bool
  | branch _ _ | branchSubroutine _ | decrementBranch _ _ => true
  | _ => false

/-- The trap of an instruction that starts with these registers. -/
def trap? (r : RegisterFile) : Instruction → Option Fault
  | trap n => some (.trap n.val.toUInt8)
  | trapV => if r.sr.has Status.overflow then some .trapV else none
  | _ => none

end Instruction

namespace Machine

/-- The word at an address as a signed displacement. -/
def wordDisplacement? (m : Machine) (addr : UInt32) : Option UInt32 :=
  (m.wordAt? addr).map fun word => Size.word.signExtend word.toUInt32

/-- The long at an address as a displacement. -/
def longDisplacement? (m : Machine) (addr : UInt32) : Option UInt32 := do
  let high ← m.wordAt? addr
  let low ← m.wordAt? (addr + 2)
  return (high.toUInt32 <<< 16) ||| low.toUInt32

/-- The displacement of a branch with `byte` in its opcode and its extension words at an
address. -/
def branchDisplacement? (m : Machine) (addr : UInt32) (byte : UInt8) : Option UInt32 :=
  if byte = 0 then m.wordDisplacement? addr
  else if byte = 0xFF ∧ m.chip.features.extended then m.longDisplacement? addr
  else some (Size.byte.signExtend byte.toUInt32)

/-- The displacement of the branch that has an opcode and its extension words at an
address. -/
def displacement? (m : Machine) (opcode : UInt16) (addr : UInt32) : Instruction → Option UInt32
  | .branch _ _ | .branchSubroutine _ => m.branchDisplacement? addr opcode.toUInt8
  | .decrementBranch _ _ => m.wordDisplacement? addr
  | _ => none

end Machine

/-! ### Displacements -/

/-- A distance that is fetched is the displacement in a word. -/
theorem ends_wordDisplacement : Ends fetchDistance m
    (fun distance _ => m.wordDisplacement? m.registers.pc = some distance) fun _ _ => True := by
  unfold fetchDistance Machine.wordDisplacement?
  rw [ends_bind]
  refine ends_fetchWord.mono_ok fun word m' h => ?_
  rw [h.1]
  rfl

/-- A long that is fetched is the displacement in two words. -/
theorem ends_longDisplacement : Ends fetchLong m
    (fun distance _ => m.longDisplacement? m.registers.pc = some distance) fun _ _ => True := by
  unfold fetchLong Machine.longDisplacement?
  rw [ends_bind]
  refine ends_fetchWord.mono_ok fun high m' h => ?_
  obtain ⟨hhigh, rfl⟩ := h
  rw [ends_bind]
  refine ends_fetchWord.mono_ok fun low m' h => ?_
  have hlow : m.wordAt? (m.registers.pc + 2) = some low := by
    rw [← h.1]
    exact (Machine.wordAt?_congr rfl rfl _).symm
  rw [hhigh, hlow]
  rfl

/-- The target of a branch lies behind its opcode by the displacement. -/
theorem ends_branchTarget (byte : UInt8) : Ends (branchTarget byte) m
    (fun target _ => ∃ distance, m.branchDisplacement? m.registers.pc byte = some distance ∧
      target = m.registers.pc + distance) fun _ _ => True := by
  unfold branchTarget Machine.branchDisplacement?
  rw [ends_bind, ends_get]
  dsimp only
  split
  · rw [ends_bind]
    exact ends_wordDisplacement.mono_ok fun distance _ h => ⟨distance, h, rfl⟩
  split
  · rw [ends_bind]
    exact ends_longDisplacement.mono_ok fun distance _ h => ⟨distance, h, rfl⟩
  · exact ⟨_, rfl, rfl⟩

/-! ### Operations -/

/-- Operations of an instruction that does not branch, jump or return leave the program
counter alone. -/
theorem ends_pc (hparts : .pc ∉ op.parts m.chip) :
    Ends op.effect m (fun _ m' => m'.registers.pc = m.registers.pc) fun _ _ => True := by
  refine effect_keeps (P := fun m' => m'.registers.pc = m.registers.pc) op
    (fun hpart halters hsame => ?_) rfl
  cases halters with
  | addr n value => rwa [RegisterFile.pc_setAddrReg]
  | control c value => cases c <;> exact hsame
  | pc => exact absurd hpart hparts
  | data | codes | status | store | stop | breakpoint => exact hsame

/-- No numbered register is the program counter. -/
theorem Register.part_ne_pc (x : Register) : .pc ≠ x.part := by
  cases x <;> nofun

/-- No place is the program counter. -/
theorem Place.part_ne_pc (p : Place) : .pc ≠ p.part := by
  cases p <;> nofun

/-- A count has run out if it was zero. -/
theorem count_eq_iff (value : UInt32) :
    (value - 1) &&& 0xFFFF = 0xFFFF ↔ value &&& 0xFFFF = 0 := by
  have hlow (x : UInt32) : (x &&& 0xFFFF).toNat = x.toNat % 2 ^ 16 :=
    Nat.and_two_pow_sub_one_eq_mod x.toNat 16
  have hprevious : (value - 1).toNat = (2 ^ 32 - 1 + value.toNat) % 2 ^ 32 :=
    UInt32.toNat_sub value 1
  rw [← UInt32.toNat_inj, ← UInt32.toNat_inj, hlow, hlow, hprevious]
  change _ = 65535 ↔ _ = 0
  omega

/-- What a counted branch does to the program counter. -/
theorem ends_decrementBranch (condition : Test) (n : Fin 8) (target : UInt32) (m : Machine) :
    Ends (Operation.decrementBranch condition n target).effect m
      (fun _ m' => m'.registers.pc =
        if !condition.holds m.registers.sr && m.registers.dataReg n &&& 0xFFFF != 0 then target
        else m.registers.pc) fun _ _ => True := by
  unfold Operation.effect
  rw [ends_bind, ends_get]
  dsimp only
  cases condition.holds m.registers.sr with
  | true => exact rfl
  | false =>
    rw [Bool.not_false, if_pos rfl, ends_bind, Bool.true_and]
    -- The code tests the count after it was decreased, the statement before.
    by_cases hzero : m.registers.dataReg n &&& 0xFFFF = 0
    · have hcount := (count_eq_iff _).2 hzero
      simp [hzero, hcount, Place.write, RegisterFile.setDataReg]
    · have hcount := mt (count_eq_iff _).1 hzero
      simp [hzero, hcount, Place.write]

/-- The target of a branch or a call. -/
def Operation.target? : Operation → Option UInt32
  | branch _ target | decrementBranch _ _ target | call target => some target
  | _ => none

/-- A value lies on top of the active stack, which was at `sp`. -/
structure Machine.OnStack (m : Machine) (sp value : UInt32) : Prop where
  /-- The stack pointer has moved down by one long. -/
  pointer : m.registers.activeSp = sp - 4
  /-- The value can be read there. -/
  value : m.load m.registers.activeSp .long m.dataSpace = .ok value

/-- A call pushes the program counter and goes on at its target. -/
theorem ends_call (target : UInt32) (m : Machine) : Ends (Operation.call target).effect m
    (fun _ m' => m'.registers.pc = target ∧ m'.OnStack m.registers.activeSp m.registers.pc)
    fun _ _ => True := by
  unfold Operation.effect
  rw [ends_bind, ends_get, ends_bind]
  refine ends_push_active.mono_ok fun _ m₁ h => ?_
  obtain ⟨hmachine, -, hstored⟩ := h
  have hsp : m₁.registers.activeSp = m.registers.activeSp - 4 := by
    rw [hmachine]
    exact RegisterFile.activeSp_setActiveSp ..
  have hspace : m₁.dataSpace = m.dataSpace := by
    rw [Machine.dataSpace, hmachine, Machine.withActiveStack,
      RegisterFile.isSupervisor_setActiveSp]
    rfl
  have hread : m₁.load m₁.registers.activeSp .long m₁.dataSpace = .ok m.registers.pc := by
    rw [hsp, hspace]
    exact hstored.trans (congrArg Except.ok UInt32.and_neg_one)
  rw [ends_setPc]
  exact ⟨rfl, hsp, (Machine.load_of_space rfl rfl).trans hread⟩

/-! ### Instructions -/

/-- An instruction that does not transfer control leaves the program counter where its
extension words have moved it. -/
theorem Instruction.Gives.pc_of_not_transfers (h : i.Gives op)
    (hplain : i.transfers m.registers = false) :
    Ends op.effect m (fun _ m' => m'.registers.pc = m.registers.pc) fun _ _ => True := by
  have hdata (p : Place) : Part.pc ∉ [p.part, .codes] := by
    simp [p.part_ne_pc]
  cases h with
  | rte | rts | rtr | rtd | jump | jumpSubroutine | branchSubroutine => cases hplain
  | branch condition distance target =>
    have hplain : condition.holds m.registers.sr = false := hplain
    unfold Operation.effect
    rw [ends_bind, ends_get, hplain]
    exact rfl
  | decrementBranch condition n target =>
    refine (ends_decrementBranch condition n target m).mono_ok fun _ m' h => ?_
    rw [h]
    exact if_neg (Bool.eq_false_iff.1 hplain)
  | exchange x y => exact ends_pc (by simp [Operation.parts, x.part_ne_pc, y.part_ne_pc])
  | moveToControl code src => exact ends_pc (by simp [Operation.parts])
  | moveFromControl code dst => exact ends_pc (by simp [Operation.parts, dst.part_ne_pc])
  | setOnTest | moveFromSr | moveFromCcr =>
    exact ends_pc (by simp [Operation.parts, Place.part_ne_pc])
  | move | clear | negate | complement | quick | toRegister | fromRegister | immediate =>
    exact ends_pc (hdata _)
  | _ => exact ends_pc (by simp [Operation.parts])

/-- Whether control is transferred depends on the codes and the counter. -/
theorem Instruction.transfers_congr {r r' : RegisterFile} (hsr : r'.sr = r.sr)
    (hdata : r'.data = r.data) (i : Instruction) : i.transfers r' = i.transfers r := by
  cases i <;> simp only [transfers, hsr, RegisterFile.dataReg, hdata]

/-- Resolving moves the program counter past the extension words, and leaves alone what
decides about a transfer of control. -/
theorem ends_resolve_pc (i : Instruction) (m : Machine) : Ends i.resolve (m.fetched opcode)
    (fun _ m₁ => m₁.registers.pc = m.registers.pc + i.length m.chip ∧
      i.transfers m₁.registers = i.transfers m.registers) fun _ _ => True := by
  refine (resolves_instruction i).mono_ok fun op m₁ h => ?_
  have hretains := retains_movedBy i.modeSize (m.fetched opcode).registers i.modes
  rw [h]
  refine ⟨?_, i.transfers_congr hretains.sr hretains.data⟩
  change m.registers.pc + 2 + 2 * (i.leadingWords m.chip + extensionWords i.modeSize i.modes) = _
  rw [Instruction.length, UInt32.add_assoc]

/-- Resolving the target of a call moves no stack pointer. -/
theorem ends_resolve_call (hcall : i.isCall = true) (m : Machine) :
    Ends i.resolve (m.fetched opcode)
      (fun op m₁ => m₁.registers.activeSp = m.registers.activeSp ∧ ∃ target, op = .call target)
      fun _ _ => True := by
  refine ((resolves_instruction i).and (yields_instruction i _)).mono_ok fun op m₁ h => ?_
  obtain ⟨hmachine, hgives⟩ := h
  rw [hmachine]
  cases hgives with
  | branchSubroutine distance target => exact ⟨rfl, target, rfl⟩
  | jumpSubroutine c target => cases c <;> exact ⟨rfl, target, rfl⟩
  | _ => cases hcall

/-- The operation of a branch has its target behind the opcode by the displacement. -/
theorem ends_resolve_branch (hbranch : i.isBranch = true) (hencoded : i.IsEncoded opcode)
    (m : Machine) : Ends i.resolve (m.fetched opcode)
      (fun op _ => ∃ distance, m.displacement? opcode (m.registers.pc + 2) i = some distance ∧
        op.target? = some (m.registers.pc + 2 + distance)) fun _ _ => True := by
  have hbyte {α : Type} {byte : UInt8} {f : UInt32 → α} {Q : α → Prop}
      (hencoded : byte = opcode.toUInt8) (hQ : ∀ distance,
        m.branchDisplacement? (m.registers.pc + 2) opcode.toUInt8 = some distance →
          Q (f (m.registers.pc + 2 + distance))) :
      Ends (branchTarget byte >>= fun target => pure (f target)) (m.fetched opcode)
        (fun op _ => Q op) fun _ _ => True := by
    rw [ends_bind]
    refine (ends_branchTarget byte).mono_ok fun target _ h => ?_
    obtain ⟨distance, hdistance, rfl⟩ := h
    rw [hencoded] at hdistance
    exact hQ distance hdistance
  cases i with
  | branch condition byte => exact hbyte hencoded fun distance h => ⟨distance, h, rfl⟩
  | branchSubroutine byte => exact hbyte hencoded fun distance h => ⟨distance, h, rfl⟩
  | decrementBranch condition n =>
    unfold Instruction.resolve
    rw [ends_bind, ends_get, ends_bind]
    exact ends_wordDisplacement.mono_ok fun distance _ h => ⟨distance, h, rfl⟩
  | _ => cases hbranch

/-- A branch, also one to a subroutine, that is taken goes on at its target. -/
theorem Instruction.Gives.pc_of_transfers (h : i.Gives op) (hbranch : i.isBranch = true)
    (htaken : i.transfers m.registers = true) : Ends op.effect m
      (fun _ m' => ∀ target, op.target? = some target → m'.registers.pc = target)
      fun _ _ => True := by
  cases h with
  | branch condition distance target =>
    have htaken : condition.holds m.registers.sr = true := htaken
    unfold Operation.effect
    rw [ends_bind, ends_get, htaken, if_pos rfl, ends_setPc]
    rintro _ ⟨⟩
    rfl
  | branchSubroutine distance target =>
    refine (ends_call target m).mono_ok fun _ m' h => ?_
    rintro _ ⟨⟩
    exact h.1
  | decrementBranch condition n target =>
    refine (ends_decrementBranch condition n target m).mono_ok fun _ m' h => ?_
    rintro _ ⟨⟩
    rw [h]
    exact if_pos htaken
  | _ => cases hbranch

namespace Machine

/-- Where a machine goes on after an instruction. -/
structure Advances (m : Machine) (opcode : UInt16) (i : Instruction) (m' : Machine) : Prop where
  /-- The instruction keeps what its opcode promises: a branch holds its low byte. -/
  encoded : i.IsEncoded opcode
  /-- Unless it transfers control, the next instruction is the one behind it. -/
  next : i.transfers m.registers = false →
    m'.registers.pc = m.registers.pc + i.length m.chip
  /-- A call pushes the address behind it. -/
  call : i.isCall = true →
    m'.OnStack m.registers.activeSp (m.registers.pc + i.length m.chip)
  /-- A branch that is taken goes by its displacement from the address behind its opcode. -/
  branch : i.isBranch = true → i.transfers m.registers = true →
    ∃ distance, m.displacement? opcode (m.registers.pc + 2) i = some distance ∧
      m'.registers.pc = m.registers.pc + 2 + distance

/-- What a trap leaves: it has been taken behind the instruction, with the address there
in its frame. -/
structure Trapped (m : Machine) (opcode : UInt16) (i : Instruction) (fault : Fault)
    (m' : Machine) : Prop where
  /-- The exception is taken from the machine as the instruction leaves it. -/
  taken : m' = ((m.fetched opcode).takeShort fault.vectorOffset).val.2
  /-- The frame holds the address behind the instruction. -/
  frame : m.Interrupted (shortFrame m.chip m.registers.sr (m.registers.pc + i.length m.chip)
    fault.vectorOffset) m'

/-- A machine that completes an instruction goes on where the instruction leads. -/
theorem Completes.advances {m₁ : Machine} (h : m.Completes opcode i op m₁ m') :
    m.Advances opcode i m' := by
  obtain ⟨hpc, htransfers⟩ := (ends_resolve_pc i m).of_ok h.resolves
  have hgives := (yields_instruction i _).of_ok h.resolves
  have hencoded := Instruction.isEncoded_of_ofOpcode? h.decodes
  refine ⟨hencoded, fun hplain => ?_, fun hcall => ?_, fun hbranch htaken => ?_⟩
  · rw [← hpc]
    exact (hgives.pc_of_not_transfers (htransfers.trans hplain)).of_ok h.performs
  · obtain ⟨hsp, target, rfl⟩ := (ends_resolve_call hcall m).of_ok h.resolves
    rw [← hpc, ← hsp]
    exact ((ends_call target m₁).of_ok h.performs).2
  · obtain ⟨distance, hdistance, htarget⟩ :=
      (ends_resolve_branch hbranch hencoded m).of_ok h.resolves
    exact ⟨distance, hdistance,
      (hgives.pc_of_transfers hbranch (htransfers.trans htaken)).of_ok h.performs _ htarget⟩

/-- A trap fails and changes nothing. -/
theorem perform_trap {fault : Fault} (h : i.trap? m.registers = some fault) :
    i.perform m = .error ⟨fault, none⟩ m ∧ i.length m.chip = 2 ∧
      ∀ m' : Machine, (m'.takeFault fault).val = (m'.takeShort fault.vectorOffset).val.2 := by
  cases i with
  | trap n =>
    cases h
    exact ⟨rfl, rfl, fun _ => rfl⟩
  | trapV =>
    change (if m.registers.sr.has Status.overflow then some .trapV else none) = some fault at h
    split at h
    next hset =>
      cases h
      refine ⟨?_, rfl, fun _ => rfl⟩
      change (if m.registers.sr.has Status.overflow then raise .trapV else pure () : Exec Unit) m =
        _
      rw [if_pos hset]
      rfl
    next => cases h
  | _ => cases h

/-- The law of the program counter. A step without a fault goes on behind its
instruction, unless that transfers control; calls push the address there, and branches
that are taken go by their displacement. A step that traps stacks the address behind its
instruction. -/
theorem program_counter (m : Machine) (hstate : m.state = .normal) :
    (m.fault? = none → ∃ opcode i op m₁, m.Completes opcode i op m₁ m.step.val ∧
      m.Advances opcode i m.step.val) ∧
    ∀ opcode i fault, m.wordAt? m.registers.pc = some opcode →
      Instruction.ofOpcode? m.chip opcode = some i → i.trap? m.registers = some fault →
      m.fault? = some fault ∧ m.Trapped opcode i fault m.step.val := by
  constructor
  · intro hfault
    obtain ⟨opcode, i, op, m₁, hcompletes⟩ := step_completes hstate hfault
    exact ⟨opcode, i, op, m₁, hcompletes, hcompletes.advances⟩
  · intro opcode i fault hopcode hi htrap
    obtain ⟨hperform, hlength, htake⟩ := @perform_trap (m.fetched opcode) i fault htrap
    rw [← cycle_eq hopcode hi] at hperform
    have hstep : m.step.val = ((m.fetched opcode).takeShort fault.vectorOffset).val.2 := by
      rw [step_val hstate, hperform]
      exact htake _
    have hinterrupted : (m.fetched opcode).Interrupted _
        ((m.fetched opcode).takeShort fault.vectorOffset).val.2 :=
      takeException_interrupted (shortFrame_fits ..)
    refine ⟨?_, hstep, ?_⟩
    · rw [fault?_eq hstate, hperform]
    · rw [show i.length m.chip = 2 from hlength, hstep]
      exact ⟨hinterrupted.data, hinterrupted.addr, hinterrupted.usp, hinterrupted.footprint,
        hinterrupted.frame⟩

/-- A machine at a `BSR.L` over six bytes, to a `TRAP #1`. -/
def calling : Machine :=
  { Machine.initial .mc68020 .halt (.flat ⟨.general,
      ⟨Array.replicate 32 0 ++ #[0x61, 0xFF, 0, 0, 0, 6, 0, 0, 0x4E, 0x41] ++
        Array.replicate 86 0⟩⟩) with
    registers := { RegisterFile.initial with pc := 32, ssp := 128 }
    state := .normal }

/-- A call over six bytes pushes the address behind them and goes on at the trap, which is then
taken. -/
theorem program_counter_calling :
    calling.state = .normal ∧ calling.fault? = none ∧ calling.step.val.OnStack 128 38 ∧
      calling.step.val.registers.pc = 40 ∧ calling.step.val.state = .normal ∧
      calling.step.val.Trapped 0x4E41 (.trap 1) (.trap 1) calling.step.val.step.val := by
  have hfault : calling.fault? = none := by decide +kernel
  have hword : calling.wordAt? calling.registers.pc = some 0x61FF := by decide +kernel
  have hi : Instruction.ofOpcode? calling.chip 0x61FF = some (.branchSubroutine 0xFF) := by
    decide +kernel
  obtain ⟨opcode, i, op, m₁, hcompletes, hadvances⟩ := (program_counter calling rfl).1 hfault
  cases hword.symm.trans hcompletes.fetches
  cases hi.symm.trans hcompletes.decodes
  obtain ⟨distance, hdistance, hpc⟩ := hadvances.branch rfl rfl
  have hsix : calling.displacement? 0x61FF (calling.registers.pc + 2) (.branchSubroutine 0xFF) =
      some 6 := by decide +kernel
  cases hsix.symm.trans hdistance
  have htarget : calling.registers.pc + 2 + 6 = 40 := by decide +kernel
  have hsp : calling.registers.activeSp = 128 := by decide +kernel
  have hreturn : calling.registers.pc + (Instruction.branchSubroutine 0xFF).length calling.chip =
      38 := by decide +kernel
  have hcall := hadvances.call rfl
  rw [hsp, hreturn] at hcall
  rw [htarget] at hpc
  have hstate : calling.step.val.state = .normal := by decide +kernel
  have htrap := (program_counter calling.step.val hstate).2 0x4E41 (.trap 1) (.trap 1)
    (by decide +kernel) (by decide +kernel) rfl
  exact ⟨rfl, hfault, hcall, hpc, hstate, htrap.2⟩

end Machine

end Cpu68k
