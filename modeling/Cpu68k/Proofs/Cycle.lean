import Cpu68k.Proofs.ResolvedOperation
import Cpu68k.Proofs.Resolution
import Cpu68k.Step

/-!
# One instruction

A step fetches an opcode, performs its instruction and takes the fault that stops
it, if any. `perform_alters` bounds what an instruction alters by its operations and by
the mode in which it starts, and `Machine.Unimplemented` lists the ways in which a step
comes to find that there is no such instruction.
-/

namespace Cpu68k

variable {m m' : Machine} {a : Abort} {parts : Part → Prop}

/-! ### Bounds on alterations -/

/-- Resolving a mode alters address registers only. -/
theorem alters_moved (haddress : parts .address) (mode : Mode) (size : Size) (m : Machine) :
    Machine.AltersBy parts m { m with registers := mode.moved size m.registers } := by
  unfold Mode.moved
  split
  · exact .of haddress (.addr _ _)
  · exact .of haddress (.addr _ _)
  · exact .refl

/-- Resolving modes alters address registers only. -/
theorem alters_movedBy (haddress : parts .address) (size : Size) (modes : List Mode)
    (m : Machine) :
    Machine.AltersBy parts m { m with registers := movedBy size m.registers modes } := by
  induction modes generalizing m with
  | nil => exact .refl
  | cons mode modes ih => exact (alters_moved haddress mode size m).trans (ih _)

/-- Resolving alters address registers and the program counter. -/
theorem resolve_alters (haddress : parts .address) (hpc : parts .pc) (i : Instruction)
    (m : Machine) : Ends i.resolve m (fun _ m' => Machine.AltersBy parts m m')
      fun _ m' => Machine.AltersBy parts m m' := by
  refine (resolves_instruction i).mono (fun _ m' h => ?_) fun a m' h => ?_
  · rw [h]
    exact (alters_movedBy haddress _ _ m).link hpc (.pc _)
  · obtain ⟨before, after, -, ⟨pc, rfl⟩, -⟩ := h
    exact (alters_movedBy haddress _ _ m).link hpc (.pc pc)

/-- The parts that performing an instruction may alter: those that resolving alters and,
if the instruction is permitted, those of its operations. -/
def Instruction.MayAlter (i : Instruction) (m : Machine) (part : Part) : Prop :=
  part = .address ∨ part = .pc ∨ i.privilege.permits m.chip m.registers.isSupervisor = true ∧
    ∃ op, i.Gives op ∧ part ∈ op.parts m.chip

/-- An instruction alters parts of the supervisor in supervisor mode only. -/
theorem Instruction.MayAlter.isSupervisor {i : Instruction} {part : Part} (h : i.MayAlter m part)
    (hsystem : part.isSystem = true) : m.registers.isSupervisor = true := by
  rcases h with rfl | rfl | ⟨hpermits, op, hgives, hpart⟩
  · cases hsystem
  · cases hsystem
  · rwa [hgives.privilege (Operation.isSystem_of_mem_parts hpart hsystem)] at hpermits

/-- Performing depends on the privilege, but the operands are resolved in any case. -/
theorem perform_eq (i : Instruction) (m : Machine) : i.perform m =
    (if i.privilege.permits m.chip m.registers.isSupervisor then i.resolve >>= Operation.effect
      else i.resolve >>= fun _ => modifyRegisters (fun _ => m.registers) >>= fun _ =>
        raise .privilegeViolation : Exec Unit) m :=
  rfl

/-- An instruction alters the parts that it may alter, wherever it ends. -/
theorem perform_alters (i : Instruction) (m : Machine) :
    Ends i.perform m (fun _ m' => Machine.AltersBy (i.MayAlter m) m m')
      fun _ m' => Machine.AltersBy (i.MayAlter m) m m' := by
  have hresolve : Ends i.resolve m (fun _ m' => Machine.AltersBy (i.MayAlter m) m m')
      fun _ m' => Machine.AltersBy (i.MayAlter m) m m' :=
    resolve_alters (.inl rfl) (.inr (.inl rfl)) i m
  unfold Instruction.perform
  rw [ends_bind, ends_get, ends_ite]
  split
  next hpermits =>
    rw [ends_bind]
    refine ((hresolve.and (yields_instruction i m)).and (resolves_instruction i)).mono
      (fun op m₁ h => ?_) fun _ _ h => h.1.1
    obtain ⟨⟨hresolve, hgives⟩, hmachine⟩ := h
    have hchip : m₁.chip = m.chip := by
      rw [hmachine]
      rfl
    have hbound {m₂ : Machine} (h : Machine.AltersBy (· ∈ op.parts m₁.chip) m₁ m₂) :
        Machine.AltersBy (i.MayAlter m) m m₂ :=
      hresolve.trans (h.mono fun part hpart =>
        .inr (.inr ⟨hpermits, op, hgives, hchip ▸ hpart⟩))
    refine (acts op m₁).mono (fun _ _ h => hbound h) fun a m₂ h => ?_
    rcases h with ⟨h, -⟩ | ⟨rfl, -⟩
    · exact hbound h
    · exact hbound .refl
  next =>
    rw [ends_bind]
    refine (hresolve.and (resolves_instruction i)).mono (fun op m₁ h => ?_) fun _ _ h => h.1
    obtain ⟨-, rfl⟩ := h
    exact .refl

/-! ### Instructions that are not there -/

/-- How performing an instruction comes to raise an illegal instruction, with the
registers that it leaves apart from the program counter: it is the illegal
instruction, or it names a control register that the chip does not have, or one of
its modes has an index word in the long form, with the modes before it resolved. -/
inductive Instruction.IsRefused (m : Machine) (i : Instruction) : RegisterFile → Prop
  | illegal (h : i = .illegal) : IsRefused m i m.registers
  | control {word : UInt16} (h : i = .moveFromControl ∨ i = .moveToControl)
    (hword : m.wordAt? m.registers.pc = some word)
    (hcode : ControlRegister.ofCode? m.chip (word &&& 0x0FFF) = none) : IsRefused m i m.registers
  | index {before after : List Mode} {mode : Mode} (h : i.modes = before ++ mode :: after)
    (hindexed : mode.isIndexed = true) (hextended : m.chip.features.extended = true)
    (hlong : m.HasLongIndex (m.registers.pc +
      2 * (i.leadingWords m.chip + extensionWords i.modeSize before))) :
    IsRefused m i (movedBy i.modeSize m.registers before)

/-- The machine with other registers, apart from the program counter. -/
def Machine.movedTo (m : Machine) (r : RegisterFile) (pc : UInt32) : Machine :=
  { m with registers := { r with pc := pc } }

/-- The word of a move from or to a control register names it by code, and another register. -/
theorem ends_controlWord : Ends controlWord m
    (fun code m' => ∃ word, m.wordAt? m.registers.pc = some word ∧
      code = (word &&& 0x0FFF, Register.ofCode (word >>> 12).toUInt8) ∧
      m' = m.resolved m.registers 1)
    fun _ _ => True := by
  unfold controlWord
  rw [ends_bind]
  refine ends_fetchWord.mono_ok fun word m' h => ?_
  exact ⟨word, h.1, rfl, h.2⟩

/-- A control register is looked up by the extension word. -/
theorem ends_moveControl {i : Instruction} (hi : i = .moveFromControl ∨ i = .moveToControl) :
    Ends i.resolve m
      (fun op _ => ∃ word, m.wordAt? m.registers.pc = some word ∧ ∃ register,
        op = .moveFromControl (word &&& 0x0FFF) register ∨
          op = .moveToControl (word &&& 0x0FFF) register)
      fun _ _ => True := by
  rcases hi with rfl | rfl
  all_goals
    unfold Instruction.resolve
    rw [ends_bind]
    refine ends_controlWord.mono_ok fun code m' h => ?_
    obtain ⟨word, hword, rfl, -⟩ := h
  · exact ⟨word, hword, _, .inl rfl⟩
  · exact ⟨word, hword, _, .inr rfl⟩

/-- An operation that raises an illegal instruction is the illegal one or names a
missing control register. -/
theorem Instruction.Gives.refused {i : Instruction} {op : Operation} {m₁ : Machine}
    (hgives : i.Gives op) (hresolve : i.resolve m = .ok op m₁)
    (hraises : op.Raises m₁ .illegalInstruction) (hchip : m₁.chip = m.chip) :
    i.modes = [] ∧ i.IsRefused m m.registers := by
  have hcontrol {code : UInt16} {register : Register}
      (hi : i = .moveFromControl ∨ i = .moveToControl)
      (hop : op = .moveFromControl code register ∨ op = .moveToControl code register)
      (hcode : ControlRegister.ofCode? m.chip code = none) : i.IsRefused m m.registers := by
    obtain ⟨word, hword, register', hop'⟩ := (ends_moveControl hi).of_ok hresolve
    have hsame : code = word &&& 0x0FFF := by
      rcases hop with rfl | rfl <;> rcases hop' with hop' | hop' <;> cases hop' <;> rfl
    exact .control hi hword (hsame ▸ hcode)
  cases hgives with
  | illegal => exact ⟨rfl, .illegal rfl⟩
  | moveFromControl code register =>
    exact ⟨rfl, hcontrol (.inl rfl) (.inl rfl) (hchip ▸ hraises.2)⟩
  | moveToControl code register =>
    exact ⟨rfl, hcontrol (.inr rfl) (.inr rfl) (hchip ▸ hraises.2)⟩
  | trapV => cases hraises.1
  | trap n => cases hraises
  | rte => cases hraises
  | _ => exact hraises.elim

/-- Whether a fault says that there is no such instruction. -/
def Fault.isUnimplemented : Fault → Bool
  | illegalInstruction | lineA | lineF => true
  | _ => false

/-- A bus or address error is not about the instruction. -/
theorem Fault.not_isUnimplemented {fault : Fault} (h : fault.cycle?.isSome) :
    ¬ fault.isUnimplemented = true := by
  cases fault with
  | busError cycle | addressError cycle => exact Bool.false_ne_true
  | _ => cases h

/-- Operations leave the two emulator lines to the opcode. -/
theorem Operation.Raises.eq_illegalInstruction {op : Operation} {fault : Fault}
    (h : op.Raises m fault) (hfault : fault.isUnimplemented = true) :
    fault = .illegalInstruction := by
  cases op with
  | illegal => exact h
  | trap n =>
    cases h
    cases hfault
  | rte =>
    cases h
    cases hfault
  | trapV =>
    obtain ⟨rfl, -⟩ := h
    cases hfault
  | moveFromControl | moveToControl => exact h.1
  | _ => exact h.elim

/-- What an instruction leaves that turns out not to be there. -/
theorem perform_refused {i : Instruction} (h : i.perform m = .error a m')
    (hfault : a.fault.isUnimplemented = true) :
    a.fault = .illegalInstruction ∧ ∃ r pc, i.IsRefused m r ∧ m' = m.movedTo r pc := by
  have hstops {a : Abort} {m₁ : Machine} (hfault : a.fault.isUnimplemented = true)
      (hstops : Stops i.modeSize (i.leadingWords m.chip) i.modes m a m₁) :
      a.fault = .illegalInstruction ∧ ∃ r pc, i.IsRefused m r ∧ m₁ = m.movedTo r pc := by
    obtain ⟨before, after, hsplit, ⟨pc, rfl⟩, hcause⟩ := hstops
    rcases hcause with haccess | ⟨hillegal, ⟨mode, rest, rfl, hindexed⟩, hextended, hlong⟩
    · exact absurd hfault (Fault.not_isUnimplemented haccess)
    · exact ⟨hillegal, _, pc, .index hsplit hindexed hextended hlong, rfl⟩
  refine (show Ends i.perform m (fun _ _ => True) fun a m' => a.fault.isUnimplemented = true →
    a.fault = .illegalInstruction ∧ ∃ r pc, i.IsRefused m r ∧ m' = m.movedTo r pc from
    ?_).of_error h hfault
  unfold Instruction.perform
  rw [ends_bind, ends_get, ends_ite]
  split
  · rw [ends_bind]
    refine ends_of (fun op m₁ hresolve => ?_) fun a m₁ hresolve hfault =>
      hstops hfault ((resolves_instruction i).of_error hresolve)
    refine (acts op m₁).mono (fun _ _ _ => trivial) fun a m₂ h hfault => ?_
    rcases h with ⟨-, haccess⟩ | ⟨rfl, hraises⟩
    · exact absurd hfault (Fault.not_isUnimplemented haccess)
    · have hillegal := hraises.eq_illegalInstruction hfault
      have hmachine := (resolves_instruction i).of_ok hresolve
      have hchip : m₂.chip = m.chip := by
        rw [hmachine]
        rfl
      rw [hillegal] at hraises
      obtain ⟨hmodes, hrefused⟩ :=
        ((yields_instruction i m).of_ok hresolve).refused hresolve hraises hchip
      rw [hmodes] at hmachine
      exact ⟨hillegal, _, _, hrefused, hmachine⟩
  · rw [ends_bind]
    refine (resolves_instruction i).mono (fun op m₁ h => ?_) fun a m₁ h hfault => hstops hfault h
    intro hfault
    cases hfault

/-! ### A cycle -/

/-- The machine after its next opcode has been fetched. -/
def Machine.fetched (m : Machine) (opcode : UInt16) : Machine :=
  { m with
    registers := { m.registers with pc := m.registers.pc + 2 }
    opcode := opcode
    instructionAddress := m.registers.pc }

/-- An opcode is fetched from the program counter and passed. If it cannot be fetched, only its
address has been recorded. -/
theorem ends_fetchOpcode : Ends fetchOpcode m
    (fun opcode m' => m.wordAt? m.registers.pc = some opcode ∧ m' = m.fetched opcode)
    fun a m' => m' = { m with instructionAddress := m.registers.pc } ∧ a.fault.cycle?.isSome := by
  unfold fetchOpcode
  rw [ends_bind, ends_modify, ends_bind]
  refine ends_fetchWord.mono (fun opcode m₁ h => ?_) fun _ _ h => h
  obtain ⟨hopcode, rfl⟩ := h
  rw [ends_bind, ends_modify, ends_pure]
  refine ⟨hopcode, ?_⟩
  have hpc : m.registers.pc + 2 * 1 = m.registers.pc + 2 := by grind
  rw [Machine.fetched, ← hpc]
  rfl

/-- One instruction, from its opcode on. -/
def cycle : Exec Unit := do
  let opcode ← fetchOpcode
  match Instruction.ofOpcode? (← get).chip opcode with
  | none => raise (.ofUnknownOpcode opcode)
  | some i => i.perform

/-- An opcode that can be fetched is fetched and recorded. -/
theorem fetchOpcode_eq {opcode : UInt16} (h : m.wordAt? m.registers.pc = some opcode) :
    fetchOpcode m = .ok opcode (m.fetched opcode) := by
  have hfetch := fetchWord_eq (m := { m with instructionAddress := m.registers.pc }) h
  have hpc : m.registers.pc + 2 * 1 = m.registers.pc + 2 := by grind
  change (fetchWord >>= _) { m with instructionAddress := m.registers.pc } = _
  rw [bind_of_ok hfetch, Machine.fetched, ← hpc]
  rfl

/-- A cycle goes on with the opcode that it has fetched. -/
theorem cycle_of_fetch {opcode : UInt16} (hopcode : m.wordAt? m.registers.pc = some opcode) :
    cycle m = (match Instruction.ofOpcode? m.chip opcode with
      | none => raise (.ofUnknownOpcode opcode)
      | some i => i.perform : Exec Unit) (m.fetched opcode) := by
  unfold cycle
  rw [bind_of_ok (fetchOpcode_eq hopcode)]
  rfl

/-- A cycle performs the instruction for which its opcode stands. -/
theorem cycle_eq {opcode : UInt16} {i : Instruction}
    (hopcode : m.wordAt? m.registers.pc = some opcode)
    (hi : Instruction.ofOpcode? m.chip opcode = some i) :
    cycle m = i.perform (m.fetched opcode) := by
  rw [cycle_of_fetch hopcode, hi]

/-- What recording the address and the opcode of an instruction keeps, and every alteration
of what the instruction may alter, a cycle keeps wherever it ends. -/
theorem cycle_keeps {P : Machine → Prop} (hrecorded : P { m with
      instructionAddress := m.registers.pc })
    (hfetched : ∀ opcode, P (m.fetched opcode))
    (halters : ∀ {opcode i part m₁ m₂}, Instruction.ofOpcode? m.chip opcode = some i →
      i.MayAlter (m.fetched opcode) part → m₁.Alters part m₂ → P m₁ → P m₂) :
    Ends cycle m (fun _ m' => P m') fun _ m' => P m' := by
  unfold cycle
  rw [ends_bind]
  refine ends_fetchOpcode.mono (fun opcode m₁ h => ?_) fun a m₁ h => ?_
  · obtain ⟨-, rfl⟩ := h
    rw [ends_bind, ends_get]
    cases hi : Instruction.ofOpcode? (m.fetched opcode).chip opcode with
    | none => exact hfetched opcode
    | some i =>
      have hkept {m₂ : Machine}
          (h : Machine.AltersBy (i.MayAlter (m.fetched opcode)) (m.fetched opcode) m₂) : P m₂ :=
        h.keeps (fun hpart hone => halters hi hpart hone) (hfetched opcode)
      exact (perform_alters i _).mono (fun _ _ h => hkept h) fun _ _ h => hkept h
  · rw [h.1]
    exact hrecorded

/-- An opcode without an instruction is a fault of its own. -/
theorem cycle_unknown {opcode : UInt16} (hopcode : m.wordAt? m.registers.pc = some opcode)
    (hi : Instruction.ofOpcode? m.chip opcode = none) :
    cycle m = .error ⟨.ofUnknownOpcode opcode, none⟩ (m.fetched opcode) := by
  rw [cycle_of_fetch hopcode, hi]
  rfl

/-- Executing is a cycle with a log. -/
theorem execute_val (m : Machine) : m.execute.val = match cycle m with
    | .ok () m' => (.ok (), m')
    | .error a m' => (.error a.fault, m') := by
  have hbind : cycle m = match fetchOpcode m with
      | .ok opcode m₁ =>
        (match Instruction.ofOpcode? m₁.chip opcode with
        | none => raise (.ofUnknownOpcode opcode)
        | some i => i.perform : Exec Unit) m₁
      | .error a m₁ => .error a m₁ := by
    change EStateM.bind fetchOpcode _ m = _
    unfold EStateM.bind
    cases fetchOpcode m <;> rfl
  rw [hbind, Machine.execute]
  cases fetchOpcode m with
  | error a m₁ => rfl
  | ok opcode m₁ =>
    dsimp only
    cases Instruction.ofOpcode? m₁.chip opcode with
    | none => rfl
    | some i =>
      simp only [Logged.val_bind]
      cases i.perform m₁ <;> rfl

/-- How a cycle comes to find that there is no such instruction, with the registers
that it leaves apart from the program counter. -/
inductive Machine.Unimplemented (m : Machine) (opcode : UInt16) : Fault → RegisterFile → Prop
  | unknown (h : Instruction.ofOpcode? m.chip opcode = none) :
    Unimplemented m opcode (.ofUnknownOpcode opcode) m.registers
  | refused {i : Instruction} {r : RegisterFile} (h : Instruction.ofOpcode? m.chip opcode = some i)
    (hrefused : i.IsRefused (m.fetched opcode) r) :
    Unimplemented m opcode .illegalInstruction r

/-- What a cycle leaves that finds that there is no such instruction. -/
theorem cycle_unimplemented (h : cycle m = .error a m') (hfault : a.fault.isUnimplemented = true) :
    ∃ opcode r pc, m.wordAt? m.registers.pc = some opcode ∧ m.Unimplemented opcode a.fault r ∧
      m' = (m.fetched opcode).movedTo r pc := by
  refine (show Ends cycle m (fun _ _ => True) fun a m' => a.fault.isUnimplemented = true →
    ∃ opcode r pc, m.wordAt? m.registers.pc = some opcode ∧ m.Unimplemented opcode a.fault r ∧
      m' = (m.fetched opcode).movedTo r pc from ?_).of_error h hfault
  unfold cycle
  rw [ends_bind]
  refine ends_fetchOpcode.mono (fun opcode m₁ h => ?_) fun a m₁ h hfault => ?_
  · obtain ⟨hopcode, rfl⟩ := h
    rw [ends_bind, ends_get]
    cases hi : Instruction.ofOpcode? (m.fetched opcode).chip opcode with
    | none => exact fun _ => ⟨opcode, m.registers, _, hopcode, .unknown hi, rfl⟩
    | some i =>
      refine ends_of (fun _ _ _ => trivial) fun a m₁ hperform hfault => ?_
      obtain ⟨hillegal, r, pc, hrefused, hmachine⟩ := perform_refused hperform hfault
      rw [hillegal]
      exact ⟨opcode, r, pc, hopcode, .refused hi hrefused, hmachine⟩
  · exact absurd hfault (Fault.not_isUnimplemented h.2)

end Cpu68k
