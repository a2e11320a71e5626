import Cpu68k.Proofs.Stepping

/-!
# What a host can do

A host drives a machine by its public operations: it steps and runs it, moves it
between its run states, reports faults and exceptions, and uses its memory and its
stack. `HostCall` lists these operations and `Machine.performAll` carries out any
sequence of them, so that a law of the machine can be stated for everything that can
happen to it. What a reset, an exception, a run and an access for the host leave of a
machine is said here once, in the form in which such a law uses it.
-/

namespace Cpu68k

/-- What a host can ask of a machine. -/
inductive HostCall
  | step
  /-- A run of up to `limit` steps, which logs the events that `keep` asks for. -/
  | run (keep : Event → Bool) (limit : Nat)
  | reset
  | start
  /-- The host halts the machine, or reports a bus or address error to it. -/
  | halt
  | haltOnFrame
  | finish
  | wake
  | resume
  | setPolicy (policy : FaultPolicy)
  | takeShort (offset : UInt16)
  | takeLong (offset : UInt16) (instructionAddress : UInt32) (cycle : BusCycle)
  | readData (addr : UInt32) (size : Size)
  | writeData (addr : UInt32) (size : Size) (value : UInt32)
  | fetchWord
  | fetchLong
  | push (size : Size) (value : UInt32)
  | pop (size : Size)

namespace HostCall

/-- The machine after a call of the host. -/
def perform (m : Machine) : HostCall → Machine
  | step => m.step.val
  | run keep limit => (m.run keep limit).val.2
  | reset => m.reset.val
  | start => m.start
  | halt => m.halt.val
  | haltOnFrame => m.haltOnFrame.val
  | finish => m.finish.val.2
  | wake => m.wake.val.2
  | resume => m.resume.val.2
  | setPolicy policy => { m with policy := policy }
  | takeShort offset => (m.takeShort offset).val.2
  | takeLong offset instructionAddress cycle =>
    (m.takeLong offset instructionAddress cycle).val.2
  | readData addr size => (m.attempt (Cpu68k.readData addr size)).val.2
  | writeData addr size value => (m.attempt (Cpu68k.writeData addr size value)).val.2
  | fetchWord => (m.attempt Cpu68k.fetchWord).val.2
  | fetchLong => (m.attempt Cpu68k.fetchLong).val.2
  | push size value => (m.attempt (Cpu68k.push size value)).val.2
  | pop size => (m.attempt (Cpu68k.pop size)).val.2

/-- The call takes the reset exception: it asks for it, or steps or runs a machine that
has not started. -/
def Resets (m : Machine) : HostCall → Prop
  | reset => True
  | step | run _ _ => m.state = .startup
  | _ => False

instance (m : Machine) (call : HostCall) : Decidable (call.Resets m) := by
  cases call <;> unfold Resets <;> infer_instance

end HostCall

namespace Machine

variable {m : Machine}

/-- The machine after some calls of the host, the first one first. -/
def performAll (m : Machine) (calls : List HostCall) : Machine :=
  calls.foldl HostCall.perform m

/-- What an exception leaves: the machine in supervisor mode with another stack and
program counter, which has halted if the exception could not be taken. -/
theorem takeException_handler {frame : List FrameItem} {offset : UInt16}
    (hfits : frameBytes frame < UInt32.size) : ∃ ssp pc space state,
      (m.takeException frame offset).val.2 =
        { m.withHandler ssp pc space with state := state } ∧
      (state = m.state ∨ state = .halted) := by
  rcases @takeException_cases m frame offset hfits with
    ⟨m₁, hval, hentered⟩ | ⟨a, m₁, hval, hrefused⟩
  · exact ⟨_, _, _, m.state, by rw [hval]; exact hentered.machine, .inl rfl⟩
  · obtain ⟨ssp, hmachine⟩ := hrefused.machine
    exact ⟨ssp, _, _, .halted, by rw [hval]; exact congrArg ({ · with state := .halted }) hmachine,
      .inr rfl⟩

/-- Resetting loads the status word, the vector base and, if the vectors can be read, the
stack pointer and the program counter. -/
theorem reset_val (m : Machine) : ∃ ssp pc state,
    m.reset.val = { m with
      registers := { m.registers with sr := ⟨0x2700⟩, vbr := 0, ssp := ssp, pc := pc }
      state := state } ∧ (state = .normal ∨ state = .halted) := by
  unfold reset
  dsimp only
  cases m.space.read 0 4 .supervisorData .read with
  | error e => exact ⟨m.registers.ssp, m.registers.pc, .halted, rfl, .inr rfl⟩
  | ok ssp =>
    dsimp only
    cases m.space.read 4 4 .supervisorData .read with
    | error e => exact ⟨m.registers.ssp, m.registers.pc, .halted, rfl, .inr rfl⟩
    | ok pc => exact ⟨ssp, pc, .normal, rfl, .inl rfl⟩

/-- What a run keeps that its steps keep while the machine runs. -/
theorem runSteps_keeps {P : Machine → Prop} {keep : Event → Bool}
    (hstep : ∀ m, m.state = .normal → P m → P m.step.val) {limit count : Nat}
    {log : Array Event} (hm : P m) : P (runSteps keep limit count log m).2.2 := by
  induction limit generalizing m count log with
  | zero => exact hm
  | succ limit ih =>
    rw [runSteps]
    split
    next hrunning => exact ih (hstep m (eq_of_beq hrunning) hm)
    next => exact hm

/-- An access on behalf of the host leaves the machine as the access does. -/
theorem attempt_keeps {α : Type} {P : Machine → Prop} {access : Exec α}
    (h : Ends access m (fun _ m' => P m') fun _ m' => P m') : P (m.attempt access).val.2 := by
  unfold attempt
  cases haccess : access m with
  | ok a m' => exact h.of_ok haccess
  | error a m' => exact h.of_error haccess

/-- What an access alters, it alters also on behalf of the host. -/
theorem attempt_alters {α : Type} {parts : Part → Prop} {access : Exec α}
    (h : Keeps (AltersBy parts) access) : AltersBy parts m (m.attempt access).val.2 :=
  attempt_keeps ((h m).mono (fun _ _ h => h) fun _ _ h => h.1)

end Machine

/-! ### Accesses -/

/-- Whether accesses on behalf of the host alter the part. -/
def Part.isAccessed : Part → Bool
  | address | memory | pc => true
  | _ => false

/-- Fetching alters the program counter. -/
theorem alters_fetches {α : Type} {parts : Part → Prop} {x : Exec α} {k : UInt32}
    (hpc : parts .pc) (h : ∀ m, Fetches x m k) : Keeps (Machine.AltersBy parts) x := by
  refine fun m => (h m).mono (fun _ m' h => ?_) fun _ m' h => ?_
  · rw [h]
    exact .of hpc (.pc _)
  · obtain ⟨⟨pc, rfl⟩, hfault⟩ := h
    exact ⟨.of hpc (.pc pc), hfault⟩

/-- Whether the call is an access on behalf of the host. -/
def HostCall.isAccess : HostCall → Bool
  | readData _ _ | writeData _ _ _ | fetchWord | fetchLong | push _ _ | pop _ => true
  | _ => false

/-- Accesses on behalf of the host move the stack pointer and the program counter, and
write memory. -/
theorem HostCall.alters_of_isAccess {call : HostCall} (h : call.isAccess = true) (m : Machine) :
    Machine.AltersBy (fun part => part.isAccessed = true) m (call.perform m) := by
  have haddress : (fun part => Part.isAccessed part = true) .address := rfl
  have hmemory : (fun part => Part.isAccessed part = true) .memory := rfl
  have hpc : (fun part => Part.isAccessed part = true) .pc := rfl
  cases call with
  | readData addr size => exact Machine.attempt_alters (keeps_readData addr size)
  | writeData addr size value =>
    exact Machine.attempt_alters (alters_writeData hmemory addr size value)
  | fetchWord => exact Machine.attempt_alters (alters_fetches hpc fun _ => fetches_fetchWord)
  | fetchLong => exact Machine.attempt_alters (alters_fetches hpc fun _ => fetches_fetchLong)
  | push size value => exact Machine.attempt_alters (alters_push hmemory haddress size value)
  | pop size => exact Machine.attempt_alters (alters_pop haddress size)
  | _ => cases h

end Cpu68k
