import Cpu68k.Proofs.HostCalls

/-!
# Transitions of the run state

The run state moves along a few edges, each of which belongs to a call of the host.
Most of them are taken by steps: instructions stop the machine or bring it to a
breakpoint, and faults that no exception answers halt it. What a step does to the run
state is an invariant of the elementary alterations and of the exceptions behind them.
-/

namespace Cpu68k

namespace RunState

/-- The edges along which the calls of a host move the run state. A step takes the reset
exception at the start, and performs an instruction in the normal state. -/
inductive Moves : HostCall → RunState → RunState → Prop
  | resets : Moves .step startup normal
  | resetFails : Moves .step startup halted
  | starts : Moves .start startup normal
  | goesOn : Moves .step normal normal
  | halts : Moves .step normal halted
  | stops : Moves .step normal stopped
  | breaks (n : Fin 8) : Moves .step normal (breakpoint n.val.toUInt8)
  | finishes : Moves .finish normal finished
  | wakes : Moves .wake stopped normal
  | resumes (n : UInt8) : Moves .resume (breakpoint n) normal

/-- Some call moves the run state along an edge. -/
def Leads (s s' : RunState) : Prop :=
  ∃ call, Moves call s s'

/-- Whether a step does anything in the state. -/
def isActive : RunState → Bool
  | startup | normal => true
  | _ => false

variable {s s' : RunState}

/-- No step leads back to the start. -/
theorem Moves.ne_startup (h : Moves .step s s') : s' ≠ startup := by
  cases h <;> exact nofun

/-- No step declares a run complete. -/
theorem Moves.ne_finished (h : Moves .step s s') : s' ≠ finished := by
  cases h <;> exact nofun

/-- No edge leads out of a terminal state. -/
theorem Moves.not_isTerminal {call : HostCall} (h : Moves call s s') :
    ¬ s.isTerminal = true := by
  cases h <;> exact nofun

/-- The states that are not active are those in which a machine waits or has ended. -/
theorem isActive_eq_false : s.isActive = false ↔ s ≠ startup ∧ s ≠ normal := by
  cases s <;> simp [isActive]

/-- A machine at its end is not active. -/
theorem isActive_of_isTerminal (h : s.isTerminal = true) : s.isActive = false := by
  cases s with
  | startup | normal => cases h
  | _ => rfl

end RunState

namespace Machine

open RunState (Moves)

variable {m m' : Machine} {frame : List FrameItem} {offset : UInt16} {part : Part}

/-! ### Steps -/

/-- An instruction stops the machine, brings it to a breakpoint, or lets it go on. -/
theorem Alters.moves (h : m.Alters part m') (hmoves : Moves .step .normal m.state) :
    Moves .step .normal m'.state := by
  cases h with
  | stop => exact .stops
  | breakpoint n => exact .breaks n
  | _ => exact hmoves

/-- A cycle moves the run state along an edge however it ends. -/
theorem cycle_moves (hstate : m.state = .normal) :
    Ends cycle m (fun _ m' => Moves .step .normal m'.state)
      fun _ m' => Moves .step .normal m'.state := by
  have hstart : Moves .step .normal m.state := by
    rw [hstate]
    exact .goesOn
  exact cycle_keeps (P := fun m' => Moves .step .normal m'.state) hstart (fun _ => hstart)
    fun _ _ halters hmoves => halters.moves hmoves

/-- An exception leaves the run state alone or halts the machine. -/
theorem takeException_state (hfits : frameBytes frame < UInt32.size) :
    (m.takeException frame offset).val.2.state = m.state ∨
      (m.takeException frame offset).val.2.state = .halted := by
  obtain ⟨ssp, pc, space, state, hval, hstate⟩ := @takeException_handler m frame offset hfits
  rw [hval]
  exact hstate

/-- The answer to a fault leaves the run state alone or halts the machine. -/
theorem takeFault_state (m : Machine) (fault : Fault) :
    (m.takeFault fault).val.state = m.state ∨ (m.takeFault fault).val.state = .halted := by
  cases htaken : fault.isTaken m.policy with
  | true =>
    obtain ⟨frame, pc, hfits, htake⟩ := takeFault_of_isTaken htaken
    rw [htake]
    exact takeException_state (m := m.withPc pc) hfits
  | false =>
    rw [takeFault_of_not_isTaken htaken]
    exact .inr rfl

/-- Performing an instruction, with the answer to its fault, moves along an edge. -/
theorem step_moves_of_normal (hstate : m.state = .normal) :
    Moves .step .normal m.step.val.state := by
  have hcycle := cycle_moves hstate
  rw [step_val hstate]
  cases hrun : cycle m with
  | ok u m' => exact hcycle.of_ok hrun
  | error a m' =>
    dsimp only
    rcases takeFault_state m' a.fault with hsame | hhalted
    · rw [hsame]
      exact hcycle.of_error hrun
    · rw [hhalted]
      exact .halts

/-- A reset moves the run state along an edge of the start. -/
theorem reset_moves (m : Machine) : Moves .step .startup m.reset.val.state := by
  obtain ⟨ssp, pc, state, hval, hstate⟩ := m.reset_val
  rw [hval]
  rcases hstate with rfl | rfl
  · exact .resets
  · exact .resetFails

/-- Where a step does anything, it moves along an edge. -/
theorem step_moves (hactive : m.state.isActive = true) :
    Moves .step m.state m.step.val.state := by
  cases hstate : m.state with
  | startup =>
    rw [step_of_startup hstate]
    exact m.reset_moves
  | normal => exact step_moves_of_normal hstate
  | finished | halted | stopped | breakpoint =>
    rw [hstate] at hactive
    cases hactive

/-- Where a step does nothing, the machine stays as it is. -/
theorem step_of_not_isActive (hactive : m.state.isActive = false) : m.step = pure m :=
  have hstate := RunState.isActive_eq_false.1 hactive
  step_of_not_running hstate.1 hstate.2

/-- No step leads back to the start. -/
theorem step_state_ne_startup (m : Machine) : m.step.val.state ≠ .startup := by
  cases hactive : m.state.isActive with
  | true => exact (step_moves hactive).ne_startup
  | false =>
    rw [step_of_not_isActive hactive]
    exact (RunState.isActive_eq_false.1 hactive).1

end Machine

end Cpu68k
