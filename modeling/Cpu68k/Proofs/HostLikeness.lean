import Cpu68k.Proofs.HostCalls
import Cpu68k.Proofs.Likeness

/-!
# Machines that hosts cannot tell apart

A host sees more than a program: the answers of its calls, the last opcode and where it
lay. A `HostLikeness` is a likeness in both modes that keeps these too. The frames of
exceptions and the vectors are then alike as well, so machines that are alike stay alike
under every sequence of calls and answer each of them with the same.
-/

namespace Cpu68k

/-- What a call tells the host. -/
inductive HostCall.Answer
  /-- The call tells nothing. -/
  | silent
  /-- The run state that a step leaves. -/
  | state (state : RunState)
  /-- The number of steps of a run. -/
  | count (n : Nat)
  /-- Whether the call was carried out. -/
  | success (success : Bool)
  /-- What an access to a value has read, or its fault. -/
  | value (result : Except Fault UInt32)
  /-- What a fetch of a word has read, or its fault. -/
  | word (result : Except Fault UInt16)
  /-- That an access has written, or its fault. -/
  | written (result : Except Fault Unit)

/-- The answer of a machine to a call of the host. -/
def HostCall.answer (m : Machine) : HostCall → Answer
  | step => .state m.step.val.state
  | run keep limit => .count (m.run keep limit).val.1
  | reset | start | halt | haltOnFrame | setPolicy _ => .silent
  | finish => .success m.finish.val.1
  | wake => .success m.wake.val.1
  | resume => .success m.resume.val.1
  | takeShort offset => .success (m.takeShort offset).val.1
  | takeLong offset instructionAddress cycle =>
    .success (m.takeLong offset instructionAddress cycle).val.1
  | readData addr size => .value (m.attempt (Cpu68k.readData addr size)).val.1
  | writeData addr size value => .written (m.attempt (Cpu68k.writeData addr size value)).val.1
  | fetchWord => .word (m.attempt Cpu68k.fetchWord).val.1
  | fetchLong => .value (m.attempt Cpu68k.fetchLong).val.1
  | push size value => .written (m.attempt (Cpu68k.push size value)).val.1
  | pop size => .value (m.attempt (Cpu68k.pop size)).val.1

/-- The answers of a machine to some calls of the host, the first one first. -/
def Machine.answers (m : Machine) : List HostCall → List HostCall.Answer
  | [] => []
  | call :: calls => call.answer m :: (call.perform m).answers calls

/-- A relation between machines that a host cannot tell apart, whatever the mode. -/
structure HostLikeness (R : Machine → Machine → Prop) : Prop extends
    Likeness (fun _ => True) R where
  mode _ := trivial
  closed _ := trivial
  /-- The last opcodes are the same. -/
  opcode {m m'} : R m m' → m'.opcode = m.opcode
  /-- They lay at the same address. -/
  instructionAddress {m m'} : R m m' → m'.instructionAddress = m.instructionAddress
  /-- The policy may change. -/
  withPolicy {m m'} (policy) :
    R m m' → R { m with policy := policy } { m' with policy := policy }

/-- The frame of an exception is the same on chips with the same features. -/
theorem shortFrame_congr {chip chip' : Chip} (h : chip'.features = chip.features) :
    shortFrame chip' = shortFrame chip := by
  funext sr pc offset
  simp only [shortFrame, h]

/-- The form of a long frame depends on the features of the chip only. -/
theorem longFrame_congr {chip chip' : Chip} (h : chip'.features = chip.features) :
    longFrame chip' = longFrame chip := by
  funext sr pc offset addr cycle opcode
  simp only [longFrame, h]

namespace HostLikeness

variable {R : Machine → Machine → Prop} (hR : HostLikeness R) {m m' : Machine}
include hR

/-! ### Exceptions -/

/-- Pushing a frame ends alike. -/
theorem pushFrame (frame : List FrameItem) : Respects R (pushFrame frame) := by
  induction frame with
  | nil => exact respects_pure _
  | cons item items ih =>
    refine ih.bind fun _ => ?_
    cases item with
    | word value => exact hR.push .word _
    | long value => exact hR.push .long _

/-- A vector is read alike, and the reason of a refusal is not passed on. -/
theorem jumpThroughVector (offset : UInt16) : Respects R (jumpThroughVector offset) := by
  refine hR.get_bind (fun m m' h => ?_) fun m _ => ?_
  · have haddr : m'.vectorAddress offset = m.vectorAddress offset := by
      simp only [Machine.vectorAddress, hR.features h, hR.registers h]
    have hread : OutcomesAlike (fun a b => b = a)
        (m.space.read (m.vectorAddress offset) 4 .supervisorData .read)
        (m'.space.read (m.vectorAddress offset) 4 .supervisorData .read) :=
      hR.read false (m.vectorAddress offset) 4 .read (s := true) h trivial (by decide)
    dsimp only
    rw [haddr]
    generalize m.space.read (m.vectorAddress offset) 4 .supervisorData .read = outcome,
      m'.space.read (m.vectorAddress offset) 4 .supervisorData .read = outcome' at hread
    cases hread with
    | ok hpc => rw [hpc]
    | error e e' => rfl
  · dsimp only
    cases m.space.read (m.vectorAddress offset) 4 .supervisorData .read with
    | ok pc => exact hR.setPc pc
    | error e => exact respects_raise _

/-- Entering a handler ends alike. -/
theorem enterHandler (frame : List FrameItem) (offset : UInt16) :
    Respects R (enterHandler frame offset) :=
  (hR.modifyRegisters fun _ _ => trivial).bind fun _ =>
    (hR.pushFrame frame).bind fun _ => hR.jumpThroughVector offset

/-- Exceptions are taken alike, with any frame. -/
theorem takeException (h : R m m') (frame : List FrameItem) (offset : UInt16) :
    (m'.takeException frame offset).val.1 = (m.takeException frame offset).val.1 ∧
      R (m.takeException frame offset).val.2 (m'.takeException frame offset).val.2 := by
  have halike := hR.enterHandler frame offset m m' h
  unfold Machine.takeException
  generalize Cpu68k.enterHandler frame offset m = result,
    Cpu68k.enterHandler frame offset m' = result' at halike
  cases halike with
  | ok hm₁ => exact ⟨rfl, hm₁⟩
  | error hfault hm₁ => exact ⟨rfl, hR.withState .halted hm₁⟩

/-- Exceptions with a short frame are taken alike, as the status words and program counters in it
are the same. -/
theorem takeShort (h : R m m') (offset : UInt16) :
    (m'.takeShort offset).val.1 = (m.takeShort offset).val.1 ∧
      R (m.takeShort offset).val.2 (m'.takeShort offset).val.2 := by
  unfold Machine.takeShort
  rw [shortFrame_congr (hR.features h), hR.registers h]
  exact hR.takeException h _ offset

/-- Exceptions with a long frame are taken alike, as the last opcodes are the same too. -/
theorem takeLong (h : R m m') (offset : UInt16) (addr : UInt32) (cycle : BusCycle) :
    (m'.takeLong offset addr cycle).val.1 = (m.takeLong offset addr cycle).val.1 ∧
      R (m.takeLong offset addr cycle).val.2 (m'.takeLong offset addr cycle).val.2 := by
  unfold Machine.takeLong
  rw [longFrame_congr (hR.features h), hR.registers h, hR.opcode h]
  exact hR.takeException h _ offset

/-- Faults are taken alike, as the policies are the same. -/
theorem takeFault (h : R m m') (fault : Fault) :
    R (m.takeFault fault).val (m'.takeFault fault).val := by
  have hcycle (cycle : BusCycle) :
      R (m.takeCycleFault fault cycle).val (m'.takeCycleFault fault cycle).val := by
    unfold Machine.takeCycleFault
    rw [hR.policy h, hR.instructionAddress h]
    cases m.policy with
    | halt => exact hR.withState .halted h
    | vector => exact (hR.takeLong h _ _ cycle).2
  cases fault with
  | busError cycle | addressError cycle => exact hcycle cycle
  | formatError => exact hR.withState .halted h
  | trap | trapV => exact (hR.takeShort h _).2
  | privilegeViolation | illegalInstruction | lineA | lineF =>
    have hback : R (m.withPc m.instructionAddress) (m'.withPc m'.instructionAddress) := by
      have hregisters : ({ m'.registers with pc := m'.instructionAddress } : RegisterFile) =
          { m.registers with pc := m.instructionAddress } := by
        rw [hR.instructionAddress h, hR.registers h]
      unfold Machine.withPc
      rw [hregisters]
      exact hR.withRegisters h trivial
    exact (hR.takeShort hback _).2

/-! ### Calls -/

/-- Resets find the same vectors. -/
theorem reset (h : R m m') : R m.reset.val m'.reset.val := by
  have hread (addr : UInt32) : OutcomesAlike (fun a b => b = a)
      (m.space.read addr 4 .supervisorData .read) (m'.space.read addr 4 .supervisorData .read) :=
    hR.read false addr 4 .read (s := true) h trivial (by decide)
  have hssp := hread 0
  have hpc := hread 4
  unfold Machine.reset
  dsimp only
  rw [hR.registers h]
  generalize m.space.read 0 4 .supervisorData .read = ssp,
    m'.space.read 0 4 .supervisorData .read = ssp' at hssp
  generalize m.space.read 4 4 .supervisorData .read = pc,
    m'.space.read 4 4 .supervisorData .read = pc' at hpc
  cases hssp with
  | error e e' => exact hR.withState .halted (hR.withRegisters h trivial)
  | ok hssp =>
    subst hssp
    cases hpc with
    | error e e' => exact hR.withState .halted (hR.withRegisters h trivial)
    | ok hpc =>
      subst hpc
      exact hR.withState .normal (hR.withRegisters h trivial)

/-- A step of machines that are alike, also one that enters an exception. -/
theorem step (h : R m m') : R m.step.val m'.step.val := by
  have hstate := hR.state h
  by_cases hstartup : m.state = .startup
  · rw [Machine.step_of_startup hstartup, Machine.step_of_startup (hstate.trans hstartup)]
    exact hR.reset h
  by_cases hnormal : m.state = .normal
  · have halike := hR.cycle m m' h
    rw [Machine.step_val hnormal, Machine.step_val (hstate.trans hnormal)]
    generalize Cpu68k.cycle m = result, Cpu68k.cycle m' = result' at halike
    cases halike with
    | ok hm₁ => exact hm₁
    | error hfault hm₁ =>
      dsimp only
      rw [hfault]
      exact hR.takeFault hm₁ _
  · rw [Machine.step_of_not_running hstartup hnormal,
      Machine.step_of_not_running (hstate ▸ hstartup) (hstate ▸ hnormal)]
    exact h

/-- Runs take the same number of steps, whatever was logged before. -/
theorem runSteps (h : R m m') (keep : Event → Bool) (limit count : Nat)
    (log log' : Array Event) :
    (Machine.runSteps keep limit count log' m').1 = (Machine.runSteps keep limit count log m).1 ∧
      R (Machine.runSteps keep limit count log m).2.2
        (Machine.runSteps keep limit count log' m').2.2 := by
  induction limit generalizing m m' count log log' with
  | zero => exact ⟨rfl, h⟩
  | succ limit ih =>
    rw [Machine.runSteps, Machine.runSteps, hR.state h]
    split
    · exact ih (hR.step h) _ _ _
    · exact ⟨rfl, h⟩

/-- Runs of any length are alike. -/
theorem run (h : R m m') (keep : Event → Bool) (limit : Nat) :
    (m'.run keep limit).val.1 = (m.run keep limit).val.1 ∧
      R (m.run keep limit).val.2 (m'.run keep limit).val.2 := by
  unfold Machine.run
  rw [hR.state h]
  split
  · exact hR.runSteps (hR.reset h) keep limit 0 _ _
  · exact hR.runSteps h keep limit 0 _ _

/-- Starts are alike. -/
theorem start (h : R m m') : R m.start m'.start := by
  unfold Machine.start
  rw [hR.state h]
  split
  · exact hR.withState .normal h
  · exact h

/-- A transition is taken by both machines or by neither. -/
theorem transition (h : R m m') (source target : RunState) :
    (m'.transition source target).val.1 = (m.transition source target).val.1 ∧
      R (m.transition source target).val.2 (m'.transition source target).val.2 := by
  unfold Machine.transition
  rw [hR.state h]
  split
  · exact ⟨rfl, hR.withState target h⟩
  · exact ⟨rfl, h⟩

/-- A breakpoint is left by both machines or by neither. -/
theorem resume (h : R m m') :
    m'.resume.val.1 = m.resume.val.1 ∧ R m.resume.val.2 m'.resume.val.2 := by
  unfold Machine.resume
  rw [hR.state h]
  split
  · exact ⟨rfl, hR.withState .normal h⟩
  · exact ⟨rfl, h⟩

omit hR in
/-- An access that respects the relation does so on behalf of the host. -/
theorem attempt {α : Type} {access : Exec α} (haccess : Respects R access) (h : R m m') :
    (m'.attempt access).val.1 = (m.attempt access).val.1 ∧
      R (m.attempt access).val.2 (m'.attempt access).val.2 := by
  have halike := haccess m m' h
  unfold Machine.attempt
  generalize access m = result, access m' = result' at halike
  cases halike with
  | ok hm₁ => exact ⟨rfl, hm₁⟩
  | error hfault hm₁ => exact ⟨congrArg Except.error hfault, hm₁⟩

/-- Machines that are alike answer a call alike and are alike behind it. -/
theorem perform (h : R m m') (call : HostCall) :
    call.answer m' = call.answer m ∧ R (call.perform m) (call.perform m') := by
  cases call with
  | step => exact ⟨congrArg HostCall.Answer.state (hR.state (hR.step h)), hR.step h⟩
  | run keep limit => exact (hR.run h keep limit).imp_left (congrArg HostCall.Answer.count)
  | reset => exact ⟨rfl, hR.reset h⟩
  | start => exact ⟨rfl, hR.start h⟩
  | halt | haltOnFrame => exact ⟨rfl, hR.withState .halted h⟩
  | finish | wake => exact (hR.transition h _ _).imp_left (congrArg HostCall.Answer.success)
  | resume => exact (hR.resume h).imp_left (congrArg HostCall.Answer.success)
  | setPolicy policy => exact ⟨rfl, hR.withPolicy policy h⟩
  | takeShort offset => exact (hR.takeShort h offset).imp_left (congrArg HostCall.Answer.success)
  | takeLong offset addr cycle =>
    exact (hR.takeLong h offset addr cycle).imp_left (congrArg HostCall.Answer.success)
  | readData addr size =>
    exact (attempt (hR.readData addr size) h).imp_left (congrArg HostCall.Answer.value)
  | writeData addr size value =>
    exact (attempt (hR.writeData addr size value) h).imp_left
      (congrArg HostCall.Answer.written)
  | fetchWord => exact (attempt hR.fetchWord h).imp_left (congrArg HostCall.Answer.word)
  | fetchLong => exact (attempt hR.fetchLong h).imp_left (congrArg HostCall.Answer.value)
  | push size value =>
    exact (attempt (hR.push size value) h).imp_left (congrArg HostCall.Answer.written)
  | pop size => exact (attempt (hR.pop size) h).imp_left (congrArg HostCall.Answer.value)

/-- Machines that are alike answer all calls alike and are alike behind them. -/
theorem performAll (h : R m m') (calls : List HostCall) :
    m'.answers calls = m.answers calls ∧ R (m.performAll calls) (m'.performAll calls) := by
  induction calls generalizing m m' with
  | nil => exact ⟨rfl, h⟩
  | cons call calls ih =>
    obtain ⟨hanswer, hnext⟩ := hR.perform h call
    obtain ⟨hanswers, hlast⟩ := ih hnext
    exact ⟨congrArg₂ List.cons hanswer hanswers, hlast⟩

end HostLikeness

end Cpu68k
