import Cpu68k.Event
import Cpu68k.Instruction.Opcode
import Cpu68k.Operation.Effect

/-!
# Steps and runs

What the host does with a machine. A step performs one instruction and takes
the exception that it raises; a run is a number of steps. The other operations
change the run state or take an exception from outside.
-/

namespace Cpu68k

namespace Machine

/-- Stops for good. Halting twice is logged once. -/
def halt (m : Machine) : Logged Machine := do
  Logged.noteIf (m.state != .halted) (.halted m.instructionAddress m.opcode)
  return { m with state := .halted }

/-- Halts after a return from an exception met an unknown frame. -/
def haltOnFrame (m : Machine) : Logged Machine := do
  Logged.note .unknownFrame
  m.halt

/-- The events of a failure: a refused access, if one is behind it. -/
def noteCause (a : Abort) : Logged Unit :=
  ⟨(), a.cause.toList.map Event.accessRefused⟩

/-- Performs one access on behalf of the host. -/
def attempt {α : Type} (m : Machine) (access : Exec α) : Logged (Except Fault α × Machine) := do
  match access m with
  | .ok a m => return (.ok a, m)
  | .error a m =>
    noteCause a
    return (.error a.fault, m)

/-- Takes an exception with a frame. Where the frame cannot be stacked or the
vector cannot be read, the machine halts and the answer is `false`. -/
def takeException (m : Machine) (frame : List FrameItem) (offset : UInt16) :
    Logged (Bool × Machine) := do
  match enterHandler frame offset m with
  | .ok () m =>
    Logged.note (.handlerEntered m.registers.pc)
    return (true, m)
  | .error a m =>
    noteCause a
    Logged.note (.doubleFault a.fault)
    return (false, ← m.halt)

/-- Takes an exception through a short frame. -/
def takeShort (m : Machine) (offset : UInt16) : Logged (Bool × Machine) :=
  m.takeException (shortFrame m.chip m.registers.sr m.registers.pc offset) offset

/-- Takes an exception through a long frame that describes a bus cycle. -/
def takeLong (m : Machine) (offset : UInt16) (instructionAddress : UInt32) (cycle : BusCycle) :
    Logged (Bool × Machine) :=
  m.takeException
    (longFrame m.chip m.registers.sr m.registers.pc offset instructionAddress cycle m.opcode)
    offset

/-- Answers a bus or address error as the policy says. -/
def takeCycleFault (m : Machine) (fault : Fault) (cycle : BusCycle) : Logged Machine := do
  match m.policy with
  | .halt => m.halt
  | .vector => return (← m.takeLong fault.vectorOffset m.instructionAddress cycle).2

/-- Answers a fault of the current instruction. Traps continue after the
instruction; refused and unknown instructions are stacked with their own
address, so that a handler can repeat them. -/
def takeFault (m : Machine) (fault : Fault) : Logged Machine := do
  match fault with
  | .busError cycle | .addressError cycle =>
    Logged.note (.faulted fault m.opcode m.instructionAddress)
    m.takeCycleFault fault cycle
  | .formatError => m.haltOnFrame
  | .trap _ | .trapV =>
    Logged.note (.faulted fault m.opcode m.instructionAddress)
    return (← m.takeShort fault.vectorOffset).2
  | .privilegeViolation | .illegalInstruction | .lineA | .lineF =>
    Logged.note (.faulted fault m.opcode m.instructionAddress)
    let m := { m with registers := { m.registers with pc := m.instructionAddress } }
    return (← m.takeShort fault.vectorOffset).2

end Machine

/-- Fetches the next opcode and remembers it and its address. -/
def fetchOpcode : Exec UInt16 := do
  modify fun m => { m with instructionAddress := m.registers.pc }
  let opcode ← fetchWord
  modify fun m => { m with opcode := opcode }
  return opcode

/-- The events of an instruction's own completion. -/
def Instruction.events (i : Instruction) (addr : UInt32) : List Event :=
  match i with
  | .reset => [.resetAsserted addr]
  | _ => []

namespace Machine

/-- Performs one instruction, up to the fault that stops it. -/
def execute (m : Machine) : Logged (Except Fault Unit × Machine) := do
  match fetchOpcode m with
  | .error a m =>
    noteCause a
    return (.error a.fault, m)
  | .ok opcode m =>
    match Instruction.ofOpcode? m.chip opcode with
    | none => return (.error (.ofUnknownOpcode opcode), m)
    | some i =>
      Logged.note (.dispatched m.instructionAddress opcode i)
      match i.perform m with
      | .error a m =>
        noteCause a
        return (.error a.fault, m)
      | .ok () m => ⟨(.ok (), m), i.events m.instructionAddress⟩

/-- Takes the reset exception: supervisor mode with all interrupts masked, vectors
at zero, and the stack pointer and program counter from the first two longs.
Without them the machine halts. -/
def reset (m : Machine) : Logged Machine := do
  let m := { m with registers := { m.registers with sr := ⟨0x2700⟩, vbr := 0 } }
  match m.space.read 0 4 .supervisorData .read with
  | .error e =>
    Logged.note (.vectorsUnreadable e)
    m.halt
  | .ok ssp =>
    match m.space.read 4 4 .supervisorData .read with
    | .error e =>
      Logged.note (.vectorsUnreadable e)
      m.halt
    | .ok pc =>
      Logged.note (.resetTaken m.chip ssp pc)
      return { m with registers := { m.registers with ssp := ssp, pc := pc }, state := .normal }

/-- Leaves the start without a reset, with registers that the host has set. -/
def start (m : Machine) : Machine :=
  if m.state = .startup then { m with state := .normal } else m

/-- Performs one instruction, and takes the exception if it raises a fault. At the
start the reset exception is taken instead; in every other state nothing
happens. -/
def step (m : Machine) : Logged Machine := do
  match m.state with
  | .startup => m.reset
  | .normal =>
    match ← m.execute with
    | (.ok (), m) => return m
    | (.error fault, m) => m.takeFault fault
  | _ => return m

/-- Up to `limit` steps, as long as the machine runs. The count and the events so
far are carried along; `keep` says which events are wanted. -/
def runSteps (keep : Event → Bool) :
    Nat → Nat → Array Event → Machine → Nat × Array Event × Machine
  | 0, count, log, m => (count, log, m)
  | limit + 1, count, log, m =>
    if m.state.isRunning then
      let next := m.step
      runSteps keep limit (count + 1) (log ++ next.events.filter keep) next.val
    else (count, log, m)

/-- Runs up to `limit` steps and counts them. At the start the reset exception is
taken first, which is no step. -/
def run (keep : Event → Bool) (limit : Nat) (m : Machine) : Logged (Nat × Machine) :=
  let first : Logged Machine := if m.state = .startup then m.reset else pure m
  let (count, log, m) := runSteps keep limit 0 (first.events.filter keep).toArray first.val
  ⟨(count, m), log.toList⟩

/-- Moves from one run state to another, if the machine is in the first. -/
def transition (m : Machine) (source target : RunState) : Logged (Bool × Machine) := do
  if m.state = source then
    Logged.note (.moved source target)
    return (true, { m with state := target })
  else return (false, m)

/-- The host declares the run complete. -/
def finish (m : Machine) : Logged (Bool × Machine) :=
  m.transition .normal .finished

/-- Wakes a machine that waits after `STOP`. -/
def wake (m : Machine) : Logged (Bool × Machine) :=
  m.transition .stopped .normal

/-- Continues after a breakpoint. -/
def resume (m : Machine) : Logged (Bool × Machine) := do
  match m.state with
  | .breakpoint n =>
    Logged.note (.resumed n)
    return (true, { m with state := .normal })
  | _ => return (false, m)

end Machine

end Cpu68k
