import Cpu68k.Proofs.Cycle
import Cpu68k.Proofs.ExceptionReturn

/-!
# What a step ends with

A step in the normal state is a cycle, and where the cycle fails an exception or the
halt. Whether an exception was entered can be read off the log: stacking a frame
ends with one of two events, and nothing else logs them.
-/

namespace Cpu68k

variable {m m' : Machine} {frame : List FrameItem} {offset : UInt16} {fault : Fault}

/-- The events that end the stacking of a frame. -/
def Event.isEntry : Event → Bool
  | handlerEntered _ | doubleFault _ => true
  | _ => false

/-- Whether a fault is answered by an exception, and not by the halt. -/
def Fault.isTaken (policy : FaultPolicy) : Fault → Bool
  | busError _ | addressError _ => policy == .vector
  | formatError => false
  | _ => true

namespace Machine

/-- Whether the next step enters an exception, also where it then halts. -/
def entersException (m : Machine) : Bool :=
  m.step.events.any Event.isEntry

/-- The fault that stops the next step. -/
def fault? (m : Machine) : Option Fault :=
  if m.state = .normal then
    match m.execute.val.1 with
    | .ok () => none
    | .error fault => some fault
  else none

/-- The machine after a number of steps. -/
def after (m : Machine) : Nat → Machine
  | 0 => m
  | n + 1 => (m.after n).step.val

/-- An exception is taken if its handler can be entered, and halts the machine
otherwise. -/
theorem takeException_cases (hfits : frameBytes frame < UInt32.size) :
    (∃ m', (m.takeException frame offset).val = (true, m') ∧ m.Entered frame offset m') ∨
      ∃ a m', (m.takeException frame offset).val = (false, { m' with state := .halted }) ∧
        m.EntryRefused frame a m' := by
  have hends := ends_enterHandler (m := m) offset hfits
  unfold takeException
  cases henter : enterHandler frame offset m with
  | ok u m₁ => exact .inl ⟨m₁, rfl, hends.of_ok henter⟩
  | error a m₁ => exact .inr ⟨a, m₁, rfl, hends.of_error henter⟩

/-- Stacking leads into supervisor mode, whether or not the handler is reached. -/
theorem takeException_mode (hfits : frameBytes frame < UInt32.size) :
    (m.takeException frame offset).val.2.registers.isSupervisor = true := by
  have hmode {m₁ : Machine} {ssp pc : UInt32} (h : m₁ = m.withHandler ssp pc m₁.space) :
      m₁.registers.isSupervisor = true := by
    rw [h]
    exact Status.has_supervisor_handler _
  rcases @takeException_cases m frame offset hfits with
    ⟨m₁, hval, hentered⟩ | ⟨a, m₁, hval, hrefused⟩
  · rw [hval]
    exact hmode hentered.machine
  · obtain ⟨ssp, hmachine⟩ := hrefused.machine
    have hhalted := hmode hmachine
    rw [hval]
    exact hhalted

/-! ### The log -/

/-- Noting the reason of a failure enters nothing. -/
theorem noteCause_events (a : Abort) : (noteCause a).events.any Event.isEntry = false := by
  unfold noteCause
  cases a.cause <;> rfl

/-- The halt enters nothing. -/
theorem halt_events (m : Machine) : m.halt.events.any Event.isEntry = false := by
  unfold halt Logged.noteIf
  simp only [Logged.events_bind, Logged.events_pure, List.append_nil]
  split <;> rfl

/-- Stacking a frame logs how it has ended. -/
theorem takeException_events : (m.takeException frame offset).events.any Event.isEntry = true := by
  unfold takeException
  cases enterHandler frame offset m with
  | ok u m₁ => rfl
  | error a m₁ =>
    simp only [Logged.events_bind, List.any_append]
    exact Bool.or_eq_true_iff.2 (.inr rfl)

/-- Performing an instruction enters no exception. -/
theorem execute_events (m : Machine) : m.execute.events.any Event.isEntry = false := by
  unfold execute
  cases fetchOpcode m with
  | error a m₁ =>
    simp only [Logged.events_bind, List.any_append, noteCause_events]
    rfl
  | ok opcode m₁ =>
    dsimp only
    cases Instruction.ofOpcode? m₁.chip opcode with
    | none => rfl
    | some i =>
      simp only [Logged.events_bind, List.any_append]
      cases i.perform m₁ with
      | error a m₂ =>
        simp only [Logged.events_bind, List.any_append, noteCause_events]
        rfl
      | ok u m₂ => cases i <;> rfl

/-- Answering a fault by an exception logs its entry. -/
theorem takeFault_events (m : Machine) (fault : Fault) :
    (m.takeFault fault).events.any Event.isEntry = fault.isTaken m.policy := by
  unfold takeFault
  cases fault with
  | busError cycle | addressError cycle =>
    simp only [Logged.events_bind, List.any_append, Fault.isTaken, takeCycleFault]
    cases m.policy with
    | halt =>
      rw [halt_events]
      rfl
    | vector =>
      simp only [Logged.events_bind, List.any_append, takeLong, takeException_events]
      rfl
  | formatError =>
    simp only [haltOnFrame, Logged.events_bind, List.any_append, halt_events]
    rfl
  | trap | trapV | privilegeViolation | illegalInstruction | lineA | lineF =>
    simp only [Logged.events_bind, List.any_append, takeShort, takeException_events,
      Bool.true_or, Bool.or_true]
    rfl

/-- Under one policy a bus or address error halts the machine. -/
theorem takeCycleFault_of_halt {cycle : BusCycle} (h : m.policy = .halt) :
    m.takeCycleFault fault cycle = m.halt := by
  unfold takeCycleFault
  rw [h]

/-- Under the other policy it is taken with a long frame. -/
theorem takeCycleFault_of_vector {cycle : BusCycle} (h : m.policy = .vector) :
    (m.takeCycleFault fault cycle).val = (m.takeException (longFrame m.chip m.registers.sr
      m.registers.pc fault.vectorOffset m.instructionAddress cycle m.opcode)
      fault.vectorOffset).val.2 := by
  unfold takeCycleFault
  rw [h]
  rfl

/-- The exception that answers a fault. -/
theorem takeFault_of_isTaken (h : fault.isTaken m.policy = true) :
    ∃ frame pc, frameBytes frame < UInt32.size ∧ (m.takeFault fault).val =
      ((m.withPc pc).takeException frame fault.vectorOffset).val.2 := by
  cases fault with
  | busError cycle | addressError cycle =>
    have hpolicy : m.policy = .vector := by simpa [Fault.isTaken] using h
    exact ⟨_, m.registers.pc, longFrame_fits .., takeCycleFault_of_vector hpolicy⟩
  | formatError => cases h
  | trap | trapV => exact ⟨_, m.registers.pc, shortFrame_fits .., rfl⟩
  | privilegeViolation | illegalInstruction | lineA | lineF =>
    exact ⟨_, m.instructionAddress, shortFrame_fits .., rfl⟩

/-- The halt that answers a fault. -/
theorem takeFault_of_not_isTaken (h : fault.isTaken m.policy = false) :
    (m.takeFault fault).val = { m with state := .halted } := by
  cases fault with
  | busError cycle | addressError cycle =>
    have hpolicy : m.policy = .halt := by
      cases hpolicy : m.policy <;> simp [Fault.isTaken, hpolicy] at h ⊢
    exact congrArg Logged.val (takeCycleFault_of_halt hpolicy)
  | formatError => rfl
  | _ => cases h

/-- A missing instruction is stacked with its own address. -/
theorem takeFault_of_isUnimplemented (h : fault.isUnimplemented = true) :
    (m.takeFault fault).val =
      ((m.withPc m.instructionAddress).takeShort fault.vectorOffset).val.2 := by
  cases fault with
  | illegalInstruction | lineA | lineF => rfl
  | _ => cases h

/-! ### Steps -/

/-- A step is a cycle, or takes the fault at which the cycle has failed. -/
theorem step_val (hstate : m.state = .normal) : m.step.val = match cycle m with
    | .ok () m' => m'
    | .error a m' => (m'.takeFault a.fault).val := by
  unfold step
  rw [hstate]
  simp only [Logged.val_bind, execute_val]
  cases cycle m <;> rfl

/-- The fault of a step is that of its cycle. -/
theorem fault?_eq (hstate : m.state = .normal) : m.fault? = match cycle m with
    | .ok () _ => none
    | .error a _ => some a.fault := by
  rw [fault?, if_pos hstate, execute_val]
  cases cycle m <;> rfl

/-- A step enters an exception if the fault of its cycle is taken. -/
theorem entersException_eq (hstate : m.state = .normal) : m.entersException = match cycle m with
    | .ok () _ => false
    | .error a m' => a.fault.isTaken m'.policy := by
  unfold entersException step
  rw [hstate]
  simp only [Logged.events_bind, List.any_append, execute_events, execute_val]
  cases cycle m with
  | ok u m' => rfl
  | error a m' => simp only [takeFault_events, Bool.false_or]

/-- The machine completes an instruction: its opcode is fetched, its operands are
resolved, which leaves `m₁`, and the operation that they give is performed. -/
structure Completes (m : Machine) (opcode : UInt16) (i : Instruction) (op : Operation)
    (m₁ m' : Machine) : Prop where
  /-- The opcode is fetched. -/
  fetches : m.wordAt? m.registers.pc = some opcode
  /-- The opcode stands for the instruction. -/
  decodes : Instruction.ofOpcode? m.chip opcode = some i
  /-- The operands of the instruction are resolved. -/
  resolves : i.resolve (m.fetched opcode) = .ok op m₁
  /-- The operation is performed. -/
  performs : op.effect m₁ = .ok () m'

/-- The instruction at the program counter, if there is one. -/
def instruction? (m : Machine) : Option Instruction := do
  let opcode ← m.wordAt? m.registers.pc
  Instruction.ofOpcode? m.chip opcode

/-- The instruction that is completed is the one at the program counter. -/
theorem Completes.instruction? {opcode : UInt16} {i : Instruction} {op : Operation}
    {m₁ : Machine} (h : m.Completes opcode i op m₁ m') : m.instruction? = some i := by
  rw [Machine.instruction?, h.fetches]
  exact h.decodes

/-- A cycle that succeeds completes an instruction. -/
theorem exists_completes {m' : Machine} (h : cycle m = .ok () m') :
    ∃ opcode i op m₁, m.Completes opcode i op m₁ m' := by
  obtain ⟨opcode, m₀, hfetch, -⟩ := exists_of_bind_ok (x := fetchOpcode) h
  obtain ⟨hopcode, -⟩ := ends_fetchOpcode.of_ok hfetch
  cases hi : Instruction.ofOpcode? m.chip opcode with
  | none =>
    rw [cycle_unknown hopcode hi] at h
    cases h
  | some i =>
    rw [cycle_eq hopcode hi, perform_eq] at h
    split at h
    · obtain ⟨op, m₁, hresolve, heffect⟩ := exists_of_bind_ok h
      exact ⟨opcode, i, op, m₁, hopcode, hi, hresolve, heffect⟩
    · obtain ⟨op, m₁, -, hrest⟩ := exists_of_bind_ok h
      obtain ⟨u, m₂, -, hraise⟩ := exists_of_bind_ok hrest
      cases hraise

/-- A step without a fault completes an instruction. -/
theorem step_completes (hstate : m.state = .normal) (hfault : m.fault? = none) :
    ∃ opcode i op m₁, m.Completes opcode i op m₁ m.step.val := by
  rw [fault?_eq hstate] at hfault
  rw [step_val hstate]
  cases hrun : cycle m with
  | ok u m' => exact exists_completes hrun
  | error a m' =>
    rw [hrun] at hfault
    cases hfault

/-- The first step takes the reset exception. -/
theorem step_of_startup (hstate : m.state = .startup) : m.step = m.reset := by
  unfold step
  rw [hstate]

/-- A machine that waits or has halted stays as it is. -/
theorem step_of_not_running (hstart : m.state ≠ .startup) (hstate : m.state ≠ .normal) :
    m.step = pure m := by
  unfold step
  split
  next h => exact absurd h hstart
  next h => exact absurd h hstate
  next => rfl

/-- Only a running machine enters exceptions. -/
theorem normal_of_entersException (hstart : m.state ≠ .startup) (h : m.entersException = true) :
    m.state = .normal := by
  refine Decidable.byContradiction fun hstate => ?_
  rw [entersException, step_of_not_running hstart hstate] at h
  cases h

/-- A step that enters an exception has been stopped by a fault. -/
theorem step_of_entersException (hstart : m.state ≠ .startup) (h : m.entersException = true) :
    ∃ a m' frame pc, cycle m = .error a m' ∧ m.fault? = some a.fault ∧
      frameBytes frame < UInt32.size ∧
      m.step.val = ((m'.withPc pc).takeException frame a.fault.vectorOffset).val.2 := by
  have hnormal := normal_of_entersException hstart h
  have hfault := fault?_eq hnormal
  rw [entersException_eq hnormal] at h
  rw [step_val hnormal]
  cases hrun : cycle m with
  | ok u m' =>
    rw [hrun] at h
    cases h
  | error a m' =>
    rw [hrun] at h hfault
    obtain ⟨frame, pc, hfits, htake⟩ := takeFault_of_isTaken h
    exact ⟨a, m', frame, pc, rfl, hfault, hfits, htake⟩

end Machine

end Cpu68k
