import Cpu68k.Proofs.Architecture
import Cpu68k.Proofs.Careful

/-!
# What the supervisor alters by name only

The user stack pointer, the vector base, the function codes and the cache control are
altered in supervisor mode by the instructions that name them and by no others, however
a step ends. The eighth address register is an alias that follows the supervisor bit, so
the law covers the instructions that lead into user mode too: they move the stack pointer
of the supervisor first, and the alias then shows the user's, which is as it was.
-/

namespace Cpu68k

/-! ### The control registers of a register file -/

namespace ControlRegister

variable {r r' : RegisterFile}

/-- What a control register holds depends on the control registers only. -/
theorem read_congr (husp : r'.usp = r.usp) (hcontrol : r'.control = r.control)
    (c : ControlRegister) : c.read r' = c.read r := by
  simp only [RegisterFile.control, Prod.mk.injEq] at hcontrol
  obtain ⟨hvbr, hsfc, hdfc, hcacr⟩ := hcontrol
  cases c <;> simp only [read, husp, hvbr, hsfc, hdfc, hcacr]

/-- Writing a control register leaves the others alone. -/
theorem read_write_of_ne {c c' : ControlRegister} (h : c' ≠ c) (value : UInt32) :
    c'.read (c.write r value) = c'.read r := by
  cases c <;> cases c' <;> first | rfl | exact absurd rfl h

end ControlRegister

namespace Machine

variable {m m' m'' m₁ : Machine} {op : Operation} {i : Instruction} {opcode : UInt16}

/-- The supervisor is in charge as before: the control registers are the same, and the
machine is in supervisor mode. -/
structure Governed (m m' : Machine) : Prop where
  /-- The control registers are the same. -/
  control : ∀ c : ControlRegister, c.read m'.registers = c.read m.registers
  /-- The machine is in supervisor mode. -/
  mode : m'.registers.isSupervisor = true

/-- A supervisor that has not changed is in charge as before. -/
theorem Governed.refl (hmode : m.registers.isSupervisor = true) : m.Governed m :=
  ⟨fun _ => rfl, hmode⟩

/-- The supervisor stays in charge from one change to the next. -/
theorem Governed.trans (h : m.Governed m') (h' : m'.Governed m'') : m.Governed m'' :=
  ⟨fun c => (h'.control c).trans (h.control c), h'.mode⟩

/-- The next instruction loads the control register: it is the move to the user stack
pointer, or the move to the control register that its extension word names. -/
inductive Loads (m : Machine) : ControlRegister → Prop
  | moveToUsp {n : Fin 8} (h : m.instruction? = some (.moveToUsp n)) : Loads m .usp
  | moveToControl {word : UInt16} {c : ControlRegister}
    (h : m.instruction? = some .moveToControl)
    (hword : m.wordAt? (m.registers.pc + 2) = some word)
    (hcode : ControlRegister.ofCode? m.chip (word &&& 0x0FFF) = some c) : Loads m c

/-- The next instruction can lead into user mode, and leaves this stack pointer to the
supervisor: behind the frame for a return, behind the step of its operand for a move to
the status word, and else as it was. -/
inductive Dismisses (m : Machine) : UInt32 → Prop
  | rte {length : UInt32} (h : m.instruction? = some .rte)
    (hlength : m.Announces (m.registers.ssp + 6) length) : Dismisses m (m.registers.ssp + length)
  | moveToSr {src : Mode} (h : m.instruction? = some (.moveToSr src)) :
    Dismisses m (src.moved .word m.registers).ssp
  | logicToSr {op : Logic} (h : m.instruction? = some (.logicToSr op)) (hop : op ≠ .or) :
    Dismisses m m.registers.ssp
  | stop (h : m.instruction? = some .stop) : Dismisses m m.registers.ssp

/-- An instruction that leads into user mode loads no control register. -/
theorem Dismisses.not_loads {ssp : UInt32} (h : m.Dismisses ssp) (c : ControlRegister) :
    ¬ m.Loads c := by
  intro hloads
  cases h with
  | rte h | moveToSr h | logicToSr h | stop h =>
    cases hloads with
    | moveToUsp h' | moveToControl h' =>
      rw [h] at h'
      cases h'

/-! ### Alterations in supervisor mode -/

/-- Alterations of parts that are not the supervisor's leave it in charge. -/
theorem Alters.governed {part : Part} (hmode : m.registers.isSupervisor = true)
    (hpart : part.isSystem = false) (h : m.Alters part m') : m.Governed m' := by
  cases h with
  | addr n value =>
    obtain ⟨addr, usp, ssp, heq, -, husp⟩ := m.registers.setAddrReg_eq n value
    refine ⟨ControlRegister.read_congr ?_ ?_,
      (m.registers.isSupervisor_setAddrReg n value).trans hmode⟩
    · rw [heq, husp hmode]
    · rw [heq]
      rfl
  | codes h => exact ⟨ControlRegister.read_congr rfl rfl,
      (RegisterFile.isSupervisor_of_systemByte h.system).trans hmode⟩
  | data | pc | store | stop | breakpoint => exact ⟨ControlRegister.read_congr rfl rfl, hmode⟩
  | status | control => cases hpart

/-- Chains of alterations of parts that are not the supervisor's leave it in charge. -/
theorem AltersBy.governed {parts : Part → Prop} (hmode : m.registers.isSupervisor = true)
    (hparts : ∀ part, parts part → part.isSystem = false) (h : AltersBy parts m m') :
    m.Governed m' :=
  h.keeps (P := m.Governed) (fun hpart halters hgoverned =>
    hgoverned.trans (halters.governed hgoverned.mode (hparts _ hpart))) (Governed.refl hmode)

/-- Resolving leaves the control registers alone, also where it fails. -/
theorem resolve_governed (hmode : m.registers.isSupervisor = true) (i : Instruction) :
    Ends i.resolve m (fun _ m' => m.Governed m') fun _ m' => m.Governed m' := by
  have hparts (part : Part) (h : part = .address ∨ part = .pc) : part.isSystem = false := by
    rcases h with rfl | rfl <;> rfl
  have halters : Ends i.resolve m
      (fun _ m' => Machine.AltersBy (fun part => part = .address ∨ part = .pc) m m')
      fun _ m' => Machine.AltersBy (fun part => part = .address ∨ part = .pc) m m' :=
    resolve_alters (.inl rfl) (.inr rfl) i m
  exact halters.mono (fun _ _ h => h.governed hmode hparts) fun _ _ h => h.governed hmode hparts

/-- An operation that fails leaves the control registers alone, and so does one that
succeeds unless it is one of the supervisor. -/
theorem effect_governed (hmode : m.registers.isSupervisor = true) (op : Operation) :
    Ends op.effect m (fun _ m' => op.isSystem = false → m.Governed m')
      fun _ m' => m.Governed m' := by
  cases hsystem : op.isSystem with
  | false =>
    have hparts (part : Part) (h : part ∈ op.parts m.chip) : part.isSystem = false := by
      refine Bool.eq_false_iff.2 fun hpart => ?_
      rw [Operation.isSystem_of_mem_parts h hpart] at hsystem
      cases hsystem
    refine (acts op m).mono (fun _ _ h _ => h.governed hmode hparts) fun _ _ h => ?_
    rcases h with ⟨h, -⟩ | ⟨rfl, -⟩
    · exact h.governed hmode hparts
    · exact Governed.refl hmode
  | true =>
    -- The operations of the supervisor fail before they alter anything.
    have hstaged : op.isStaged = false := by
      cases op <;> first | rfl | cases hsystem
    refine ((acts op m).and (careful_effect hstaged m)).mono (fun _ _ _ h => by cases h)
      fun _ _ h => ?_
    obtain ⟨⟨-, hcycle⟩ | ⟨rfl, -⟩, hcareful⟩ := h
    · rw [hcareful hcycle]
      exact Governed.refl hmode
    · exact Governed.refl hmode

/-- An instruction that fails leaves the supervisor in charge. -/
theorem perform_governed (hmode : m.registers.isSupervisor = true) (i : Instruction) :
    Ends i.perform m (fun _ _ => True) fun _ m' => m.Governed m' := by
  have hpermits : i.privilege.permits m.chip m.registers.isSupervisor = true := by
    rw [hmode]
    cases i.privilege <;> rfl
  unfold Instruction.perform
  rw [ends_bind, ends_get, if_pos hpermits, ends_bind]
  refine (resolve_governed hmode i).mono (fun op m₁ h => ?_) fun _ _ h => h
  exact (effect_governed h.mode op).mono (fun _ _ _ => trivial) fun _ _ h' => h.trans h'

/-- A cycle that fails leaves the control registers alone. -/
theorem cycle_governed (hmode : m.registers.isSupervisor = true) :
    Ends cycle m (fun _ _ => True) fun _ m' => m.Governed m' := by
  unfold cycle
  rw [ends_bind]
  refine ends_fetchOpcode.mono (fun opcode m₁ h => ?_) fun a m₁ h => ?_
  · obtain ⟨-, rfl⟩ := h
    have hfetched : m.Governed (m.fetched opcode) := ⟨ControlRegister.read_congr rfl rfl, hmode⟩
    rw [ends_bind, ends_get]
    cases Instruction.ofOpcode? (m.fetched opcode).chip opcode with
    | none => exact hfetched
    | some i =>
      exact (perform_governed hfetched.mode i).mono (fun _ _ _ => trivial)
        fun _ _ h => hfetched.trans h
  · rw [h.1]
    exact ⟨fun _ => rfl, hmode⟩

/-- Answering a fault keeps or restores supervisor mode. -/
theorem takeFault_governed (hmode : m.registers.isSupervisor = true) (fault : Fault) :
    m.Governed (m.takeFault fault).val := by
  cases htaken : fault.isTaken m.policy with
  | false =>
    rw [takeFault_of_not_isTaken htaken]
    exact ⟨ControlRegister.read_congr rfl rfl, hmode⟩
  | true =>
    obtain ⟨frame, pc, hfits, hval⟩ := takeFault_of_isTaken htaken
    obtain ⟨ssp, pc', space, state, hlast, -⟩ :=
      @takeException_handler (m.withPc pc) frame fault.vectorOffset hfits
    refine ⟨?_, by rw [hval]; exact takeException_mode hfits⟩
    rw [hval, hlast]
    exact ControlRegister.read_congr rfl rfl

/-! ### The operations of the supervisor -/

/-- Writing the status word or the run state leaves the control registers and the stack
pointer of the supervisor alone. -/
theorem ends_effect_status (hparts : ∀ part ∈ op.parts m.chip, part = .status ∨ part = .state) :
    Ends op.effect m (fun _ m' =>
      (∀ c : ControlRegister, c.read m'.registers = c.read m.registers) ∧
        m'.registers.ssp = m.registers.ssp) fun _ _ => True := by
  refine effect_keeps (P := fun m' => (∀ c : ControlRegister,
    c.read m'.registers = c.read m.registers) ∧ m'.registers.ssp = m.registers.ssp) op
    (fun {part m₁ m₂} hpart halters h => ?_) ⟨fun _ => rfl, rfl⟩
  have hsame : m₂.registers.ssp = m₁.registers.ssp ∧ m₂.registers.usp = m₁.registers.usp ∧
      m₂.registers.control = m₁.registers.control := by
    rcases hparts part hpart with rfl | rfl <;> cases halters <;> exact ⟨rfl, rfl, rfl⟩
  obtain ⟨hssp, husp, hcontrol⟩ := hsame
  exact ⟨fun c => (ControlRegister.read_congr husp hcontrol c).trans (h.1 c), hssp.trans h.2⟩

/-- Bits that are set stay set in a status word. -/
theorem isSupervisor_setStatus_or (hmode : m.registers.isSupervisor = true) (value : UInt16) :
    (m.registers.setStatus (m.registers.sr.bits ||| value) m.chip.statusMask).isSupervisor =
      true := by
  have hmask : m.chip.statusMask &&& Status.supervisor = Status.supervisor := by
    cases m.chip <;> decide
  have habsorb : m.registers.sr.bits &&& ((m.registers.sr.bits ||| value) &&& Status.supervisor) =
      m.registers.sr.bits &&& Status.supervisor := by
    refine word_ext fun i hi => ?_
    simp only [UInt16.toBitVec_and, UInt16.toBitVec_or, BitVec.getLsbD_and, BitVec.getLsbD_or]
    grind
  have hset : m.registers.sr.bits &&& Status.supervisor ≠ 0 := by
    simpa [RegisterFile.isSupervisor, Status.has] using hmode
  change ((m.registers.sr.bits ||| value) &&& m.chip.statusMask &&& Status.supervisor != 0) = true
  rw [UInt16.and_assoc, hmask, bne_iff_ne]
  intro hzero
  rw [hzero, UInt16.and_zero] at habsorb
  exact hset habsorb.symm

/-- A return from an exception moves the stack pointer of the supervisor past the frame. -/
theorem ends_returnFromException (hmode : m.registers.isSupervisor = true) :
    Ends returnFromException m (fun _ m' => ∃ length sr pc,
      m.Announces (m.registers.ssp + 6) length ∧ m'.registers =
        { m.registers with ssp := m.registers.ssp + length, sr := sr, pc := pc })
      fun _ _ => True := by
  have hspace : m.dataSpace = .supervisorData := by
    rw [dataSpace, hmode]
    rfl
  have hactive : m.registers.activeSp = m.registers.ssp := if_pos hmode
  have hset (sp : UInt32) : m.registers.setActiveSp sp = { m.registers with ssp := sp } :=
    if_pos hmode
  unfold returnFromException
  rw [ends_bind, ends_get]
  dsimp only
  rw [hactive, ends_bind]
  refine ends_readData_unchanged.mono_ok fun sr m' h => ?_
  subst h
  rw [ends_bind]
  refine ends_readData_unchanged.mono_ok fun pc m' h => ?_
  subst h
  unfold Announces
  split
  next hformat =>
    rw [ends_bind]
    refine ends_readData.mono_ok fun word m' h => ?_
    obtain ⟨rfl, hword⟩ := h
    rw [hspace] at hword
    cases hlength : frameLength? word with
    | some length =>
      rw [ends_bind, ends_pure, ends_modifyRegisters, hset]
      exact ⟨length, _, pc, ⟨word, hword, hlength⟩, rfl⟩
    | none => trivial
  next hformat =>
    rw [ends_bind, ends_pure, ends_modifyRegisters, hset]
    exact ⟨6, _, pc, rfl, rfl⟩

/-- A move to a control register alters the one that its code names. -/
theorem ends_moveToControl (code : UInt16) (src : Register) :
    Ends (Operation.moveToControl code src).effect m (fun _ m' => ∃ c,
      ControlRegister.ofCode? m.chip code = some c ∧
        m'.registers = c.write m.registers (m.registers.get src)) fun _ _ => True := by
  unfold Operation.effect
  rw [ends_bind, ends_controlRegister]
  cases hcode : ControlRegister.ofCode? m.chip code with
  | none => trivial
  | some c => exact ⟨c, rfl, rfl⟩

/-! ### Steps -/

/-- Where control registers differ the instruction loads them and the chip has them, and
user mode comes from an instruction that leads there. -/
structure Warranted (m m' : Machine) : Prop where
  /-- Control registers are loaded by name. -/
  loads : ∀ c : ControlRegister, c.read m'.registers ≠ c.read m.registers →
    m.Loads c ∧ c.isOn m.chip = true
  /-- User mode is entered on purpose. -/
  dismisses : m'.registers.isSupervisor = false → m.Dismisses m'.registers.ssp

/-- Where the supervisor is in charge as before nothing has to be warranted. -/
theorem Governed.warranted (h : m.Governed m') : m.Warranted m' := by
  refine ⟨fun c hne => absurd (h.control c) hne, fun huser => ?_⟩
  rw [h.mode] at huser
  cases huser

/-- Only the status word and the run state are written. -/
theorem Warranted.of_status (h : m.Governed m₁)
    (hparts : ∀ part ∈ op.parts m₁.chip, part = .status ∨ part = .state)
    (hperforms : op.effect m₁ = .ok () m')
    (hleads : m'.registers.isSupervisor = false → m.Dismisses m₁.registers.ssp) :
    m.Warranted m' := by
  obtain ⟨hcontrol, hssp⟩ := (ends_effect_status hparts).of_ok hperforms
  refine ⟨fun c hne => absurd ((hcontrol c).trans (h.control c)) hne, fun huser => ?_⟩
  rw [hssp]
  exact hleads huser

/-- One control register is written that the instruction loads. -/
theorem Warranted.of_write {c : ControlRegister} {value : UInt32} (h : m.Governed m₁)
    (hregisters : m'.registers = c.write m₁.registers value)
    (hloads : m.Loads c ∧ c.isOn m.chip = true) : m.Warranted m' := by
  have hmode : m'.registers.isSupervisor = true := by
    rw [hregisters, ← h.mode]
    cases c <;> rfl
  refine ⟨fun c' hne => ?_, fun huser => ?_⟩
  · by_cases hc : c' = c
    · rwa [hc]
    · rw [hregisters, ControlRegister.read_write_of_ne hc, h.control c'] at hne
      exact absurd rfl hne
  · rw [hmode] at huser
    cases huser

/-- A move to a control register is one that the next instruction asks for. -/
theorem Completes.loads {code : UInt16} {src : Register} {c : ControlRegister}
    (h : m.Completes opcode .moveToControl (.moveToControl code src) m₁ m')
    (hcode : ControlRegister.ofCode? m.chip code = some c) :
    m.Loads c ∧ c.isOn m.chip = true := by
  obtain ⟨word, hword, src', hop⟩ := (ends_moveControl (.inr rfl)).of_ok h.resolves
  rcases hop with hop | hop <;> cases hop
  have hsame : (m.fetched opcode).wordAt? (m.registers.pc + 2) = m.wordAt? (m.registers.pc + 2) :=
    wordAt?_congr rfl rfl _
  exact ⟨.moveToControl h.instruction? (hsame ▸ hword) hcode,
    ControlRegister.isOn_of_ofCode? (Instruction.movec_of_ofOpcode? h.decodes) hcode⟩

/-- What completing an instruction of the supervisor does. -/
theorem Completes.warranted (h : m.Completes opcode i op m₁ m')
    (hmode : m.registers.isSupervisor = true) : m.Warranted m' := by
  have hfetched : m.Governed (m.fetched opcode) := ⟨ControlRegister.read_congr rfl rfl, hmode⟩
  have hresolved : m.Governed m₁ :=
    hfetched.trans ((resolve_governed hfetched.mode i).of_ok h.resolves)
  have hmachine := (resolves_instruction i).of_ok h.resolves
  have hssp : m₁.registers.ssp = (movedBy i.modeSize m.registers i.modes).ssp := by
    rw [hmachine]
    change (movedBy i.modeSize { m.registers with pc := m.registers.pc + 2 } i.modes).ssp = _
    rw [movedBy_withPc]
  have hchip : m₁.chip = m.chip := by
    rw [hmachine]
    rfl
  -- Only operations of the supervisor alter control registers or lead into user mode.
  cases hsystem : op.isSystem with
  | false =>
    exact (hresolved.trans ((effect_governed hresolved.mode op).of_ok h.performs hsystem)).warranted
  | true =>
    cases (yields_instruction i _).of_ok h.resolves with
    | rte =>
      obtain ⟨length, sr, pc, hannounces, hregisters⟩ :=
        (ends_returnFromException hresolved.mode).of_ok h.performs
      refine ⟨fun c hne => absurd ?_ hne, fun _ => ?_⟩
      · rw [← hresolved.control c, hregisters]
        exact ControlRegister.read_congr rfl rfl c
      · rw [hregisters]
        rw [hmachine] at hannounces
        exact hssp ▸ .rte h.instruction? hannounces
    | stop sr =>
      refine .of_status hresolved (by simp [Operation.parts]) h.performs fun _ => ?_
      exact hssp ▸ .stop h.instruction?
    | moveToSr hsrc =>
      refine .of_status hresolved (by simp [Operation.parts]) h.performs fun _ => ?_
      exact hssp ▸ .moveToSr h.instruction?
    | logicToSr op value =>
      refine .of_status hresolved (by simp [Operation.parts]) h.performs fun huser => ?_
      refine hssp ▸ .logicToSr h.instruction? fun hor => ?_
      subst hor
      have hkept : Ends (Operation.logicToSr .or value).effect m₁
          (fun _ m' => m'.registers.isSupervisor = true) fun _ _ => True := by
        unfold Operation.effect
        rw [ends_bind, ends_get]
        exact isSupervisor_setStatus_or hresolved.mode value
      rw [hkept.of_ok h.performs] at huser
      cases huser
    | moveToUsp n =>
      have hwritten : Ends (Operation.moveToUsp n).effect m₁ (fun _ m' => m'.registers =
          ControlRegister.usp.write m₁.registers (m₁.registers.addrReg n)) fun _ _ => True := rfl
      exact .of_write hresolved (hwritten.of_ok h.performs) ⟨.moveToUsp h.instruction?, rfl⟩
    | moveToControl code src =>
      obtain ⟨c, hcode, hregisters⟩ := (ends_moveToControl code src).of_ok h.performs
      exact .of_write hresolved hregisters (h.loads (hchip ▸ hcode))
    | _ => cases hsystem

/-- What a step of the supervisor does, whether it completes an instruction or answers a
fault. -/
theorem step_warranted (hstate : m.state = .normal) (hmode : m.registers.isSupervisor = true) :
    m.Warranted m.step.val := by
  rw [step_val hstate]
  cases hrun : cycle m with
  | ok u m' =>
    obtain ⟨opcode, i, op, m₁, hcompletes⟩ := exists_completes hrun
    exact hcompletes.warranted hmode
  | error a m' =>
    have hgoverned := (cycle_governed hmode).of_error hrun
    exact (hgoverned.trans (takeFault_governed hgoverned.mode a.fault)).warranted

/-- The control registers of the supervisor are altered by name only. However a step in
supervisor mode ends, a control register that it changes is one that its instruction loads
and that the chip has. If it ends in user mode, its instruction leads there and has moved
the stack pointer of the supervisor only: the user's is the same, and it is the eighth
address register now. -/
theorem special_registers_framed (m : Machine) (hstate : m.state = .normal)
    (hmode : m.registers.isSupervisor = true) :
    (∀ c : ControlRegister, c.read m.step.val.registers ≠ c.read m.registers →
      m.Loads c ∧ c.isOn m.chip = true) ∧
    (m.step.val.registers.isSupervisor = false →
      m.Dismisses m.step.val.registers.ssp ∧ m.step.val.registers.usp = m.registers.usp ∧
        m.step.val.registers.addrReg 7 = m.registers.usp) := by
  obtain ⟨hloads, hdismisses⟩ := step_warranted hstate hmode
  refine ⟨hloads, fun huser => ?_⟩
  have hleads := hdismisses huser
  have husp : m.step.val.registers.usp = m.registers.usp :=
    Decidable.byContradiction fun hne => hleads.not_loads .usp (hloads .usp hne).1
  have hactive : m.step.val.registers.addrReg 7 = m.step.val.registers.usp :=
    if_neg (Bool.eq_false_iff.1 huser)
  exact ⟨hleads, husp, hactive.trans husp⟩

/-- A supervisor that pops a status word for the user. -/
def dismissing : Machine :=
  { Machine.initial .mc68010 .vector
      (.flat ⟨.general, ⟨#[0x46, 0xDF, 0x00, 0x04]⟩⟩) with
    registers := { RegisterFile.initial with ssp := 2, usp := 6 }
    state := .normal }

/-- A supervisor pops a status word for the user: its own stack pointer has moved, and the alias
then shows the user's. -/
theorem special_registers_framed_dismissing :
    dismissing.state = .normal ∧ dismissing.registers.isSupervisor = true ∧
      dismissing.step.val.registers.isSupervisor = false ∧
      dismissing.Dismisses dismissing.step.val.registers.ssp ∧
      dismissing.step.val.registers.ssp = 4 ∧ dismissing.step.val.registers.addrReg 7 = 6 := by
  obtain ⟨-, hdismissed⟩ := special_registers_framed dismissing rfl (by decide)
  have huser : dismissing.step.val.registers.isSupervisor = false := by decide +kernel
  obtain ⟨hleads, -, hactive⟩ := hdismissed huser
  exact ⟨rfl, by decide, huser, hleads, by decide +kernel, hactive⟩

end Machine

end Cpu68k
