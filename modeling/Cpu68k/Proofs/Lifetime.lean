import Cpu68k.Proofs.Runs
import Mathlib.Logic.Relation

/-!
# The life of a machine

A machine starts, runs, waits and comes to an end. Its run state moves along the edges
of `RunState.Moves` only: a step takes one edge, a run takes the edges of its steps one
after the other, and the other calls that move the run state move nothing else. While a
machine waits or has ended, stepping and running it change nothing. A machine that has
ended comes back by a reset, and by nothing else that a host can do.
-/

namespace Cpu68k

open Relation (ReflTransGen)
open RunState (Moves)

variable {m m' m'' : Machine} {call : HostCall} {part : Part} {s s' : RunState}

/-! ### Calls that move the run state -/

namespace HostCall

/-- Whether the call lets the machine perform instructions. -/
def isDrive : HostCall → Bool
  | step | run _ _ => true
  | _ => false

/-- Whether the call is for moving the run state only. -/
def isSwitch : HostCall → Bool
  | start | finish | wake | resume => true
  | _ => false

/-- The state to which a call that is for this moves from another one. -/
def switch? : HostCall → RunState → Option RunState
  | start, .startup => some .normal
  | finish, .normal => some .finished
  | wake, .stopped => some .normal
  | resume, .breakpoint _ => some .normal
  | _, _ => none

/-- The edges of these calls lead to one state each. -/
theorem moves_iff (h : call.isSwitch = true) : Moves call s s' ↔ call.switch? s = some s' := by
  constructor
  · intro hmoves
    cases hmoves <;> first | rfl | cases h
  · intro hswitch
    cases call with
    | start | finish | wake | resume =>
      cases s <;> cases hswitch
      constructor
    | _ => cases h

/-- These calls replace the run state or do nothing. -/
theorem perform_of_isSwitch (h : call.isSwitch = true) (m : Machine) :
    call.perform m = match call.switch? m.state with
      | some state => { m with state := state }
      | none => m := by
  cases call with
  | start =>
    unfold perform Machine.start
    cases m.state <;> rfl
  | finish =>
    unfold perform Machine.finish Machine.transition
    cases m.state <;> rfl
  | wake =>
    unfold perform Machine.wake Machine.transition
    cases m.state <;> rfl
  | resume =>
    unfold perform Machine.resume
    cases m.state <;> rfl
  | _ => cases h

/-- The call moves the run state along its edge, if there is one from the present state,
and otherwise leaves the machine as it is. -/
structure Switches (call : HostCall) (m : Machine) : Prop where
  /-- It moves along an edge and changes no other field. -/
  along : ∀ target, Moves call m.state target → call.perform m = { m with state := target }
  /-- Without an edge nothing happens. -/
  stays : (∀ target, ¬ Moves call m.state target) → call.perform m = m

/-- The calls that move the run state take their edge, or do nothing. -/
theorem switches (h : call.isSwitch = true) (m : Machine) : call.Switches m := by
  refine ⟨fun target hmoves => ?_, fun hnone => ?_⟩
  · rw [perform_of_isSwitch h, (moves_iff h).1 hmoves]
  · cases hswitch : call.switch? m.state with
    | some target => exact absurd ((moves_iff h).2 hswitch) (hnone target)
    | none => rw [perform_of_isSwitch h, hswitch]

end HostCall

namespace Machine

/-- A call that answers whether it has moved the run state says the truth. -/
theorem answers_iff (m : Machine) :
    (m.finish.val.1 = true ↔ m.finish.val.2.state ≠ m.state) ∧
      (m.wake.val.1 = true ↔ m.wake.val.2.state ≠ m.state) ∧
      (m.resume.val.1 = true ↔ m.resume.val.2.state ≠ m.state) := by
  unfold finish wake transition resume
  cases hstate : m.state <;> simp [hstate]

/-! ### Runs along edges -/

/-- The machine takes one step, along an edge of its run state. -/
def StepsTo (m m' : Machine) : Prop :=
  m' = m.step.val ∧ Moves .step m.state m'.state

/-- Steps in the normal state take one edge after the other. -/
theorem after_stepsTo {k : Nat} (hrunning : ∀ j < k, (m.after j).state = .normal) :
    ReflTransGen StepsTo m (m.after k) := by
  induction k with
  | zero => exact .refl
  | succ k ih =>
    have hpath := ih fun j hj => hrunning j (Nat.lt_succ_of_lt hj)
    have hactive : (m.after k).state.isActive = true := by
      rw [hrunning k (Nat.lt_succ_self k)]
      rfl
    exact hpath.tail ⟨rfl, step_moves hactive⟩

/-- Getting ready for a run takes the edge of the reset exception, or none. -/
theorem ready_stepsTo (m : Machine) : ReflTransGen StepsTo m m.ready.val := by
  by_cases hstate : m.state = .startup
  · have hready : m.ready = m.step := by
      rw [ready, if_pos hstate, step_of_startup hstate]
    rw [hready]
    exact .single ⟨rfl, step_moves (by rw [hstate]; rfl)⟩
  · rw [ready_of_ne hstate]
    exact .refl

/-- A run is a path of steps. -/
theorem run_stepsTo (m : Machine) (keep : Event → Bool) (limit : Nat) :
    ReflTransGen StepsTo m (m.run keep limit).val.2 := by
  have hran := m.run_ran keep limit
  rw [hran.after]
  exact m.ready_stepsTo.trans (after_stepsTo hran.running)

/-- A machine that is not active does not run. -/
theorem run_of_not_isActive (hactive : m.state.isActive = false) (keep : Event → Bool)
    (limit : Nat) : (m.run keep limit).val = (0, m) := by
  obtain ⟨hstart, hnormal⟩ := RunState.isActive_eq_false.1 hactive
  rw [run_of_ne hstart, runSteps_of_not_running hnormal]

/-- Stepping and running a machine that is not active change nothing. -/
theorem perform_of_not_isActive (hactive : m.state.isActive = false)
    (hdrive : call.isDrive = true) : call.perform m = m := by
  cases call with
  | step => exact congrArg Logged.val (step_of_not_isActive hactive)
  | run keep limit => exact congrArg Prod.snd (run_of_not_isActive hactive keep limit)
  | _ => cases hdrive

/-- A machine that is not active is not changed by any number of steps and runs. -/
theorem performAll_of_not_isActive (hactive : m.state.isActive = false) (calls : List HostCall)
    (hdrive : ∀ call ∈ calls, call.isDrive = true) : m.performAll calls = m := by
  induction calls with
  | nil => rfl
  | cons call calls ih =>
    have hcall := perform_of_not_isActive hactive (hdrive call List.mem_cons_self)
    change (call.perform m).performAll calls = m
    rw [hcall]
    exact ih fun call hmem => hdrive call (List.mem_cons_of_mem _ hmem)

/-! ### Sequences of calls -/

/-- What the calls that move the run state do to a machine. -/
structure FollowsEdges (m : Machine) : Prop where
  /-- A step takes one edge where it does anything. -/
  step : m.state.isActive = true → Moves .step m.state m.step.val.state
  /-- A run takes the edges of its steps. -/
  run : ∀ keep limit, ReflTransGen StepsTo m (m.run keep limit).val.2
  /-- No step leads to the start, and none completes a run. -/
  never : m.step.val.state ≠ .startup ∧ (m.step.val.state = .finished → m.state = .finished)
  /-- The other calls take their own edges and move nothing but the run state. -/
  switches : ∀ call : HostCall, call.isSwitch = true → call.Switches m
  /-- Three of them answer whether they have moved it. -/
  answers : (m.finish.val.1 = true ↔ m.finish.val.2.state ≠ m.state) ∧
    (m.wake.val.1 = true ↔ m.wake.val.2.state ≠ m.state) ∧
    (m.resume.val.1 = true ↔ m.resume.val.2.state ≠ m.state)
  /-- A machine that waits or has ended stays as it is, however often it is stepped and
  run, and each of the runs counts no step. -/
  frozen : m.state.isActive = false → ∀ calls : List HostCall,
    (∀ call ∈ calls, call.isDrive = true) →
      m.performAll calls = m ∧ ∀ keep limit, ((m.performAll calls).run keep limit).val.1 = 0

/-- Every machine follows the edges. -/
theorem follows_edges (m : Machine) : m.FollowsEdges where
  step := step_moves
  run := m.run_stepsTo
  never := by
    refine ⟨m.step_state_ne_startup, fun hfinished => ?_⟩
    cases hactive : m.state.isActive with
    | true => exact absurd hfinished (step_moves hactive).ne_finished
    | false =>
      rw [step_of_not_isActive hactive] at hfinished
      exact hfinished
  switches _ hswitch := HostCall.switches hswitch m
  answers := m.answers_iff
  frozen hactive calls hdrive := by
    have hsame := performAll_of_not_isActive hactive calls hdrive
    refine ⟨hsame, fun keep limit => ?_⟩
    rw [hsame, run_of_not_isActive hactive]

/-- A call that lets the machine perform instructions, or is for moving its run state,
moves that along edges. -/
theorem perform_leads (m : Machine) (h : call.isDrive = true ∨ call.isSwitch = true) :
    ReflTransGen RunState.Leads m.state (call.perform m).state := by
  rcases h with hdrive | hswitch
  · cases hactive : m.state.isActive with
    | false =>
      rw [perform_of_not_isActive hactive hdrive]
    | true =>
      cases call with
      | step => exact .single ⟨.step, step_moves hactive⟩
      | run keep limit =>
        exact (m.run_stepsTo keep limit).lift Machine.state fun _ _ h => ⟨.step, h.2⟩
      | _ => cases hdrive
  · rw [HostCall.perform_of_isSwitch hswitch]
    cases htarget : call.switch? m.state with
    | none => exact .refl
    | some target => exact .single ⟨call, (HostCall.moves_iff hswitch).2 htarget⟩

/-- Sequences of steps, runs and switches lead along edges. -/
theorem performAll_leads (m : Machine) (calls : List HostCall)
    (h : ∀ call ∈ calls, call.isDrive = true ∨ call.isSwitch = true) :
    ReflTransGen RunState.Leads m.state (m.performAll calls).state := by
  induction calls generalizing m with
  | nil => exact .refl
  | cons call calls ih =>
    exact (m.perform_leads (h call List.mem_cons_self)).trans
      (ih (call.perform m) fun call hmem => h call (List.mem_cons_of_mem _ hmem))

/-- The run state moves along its edges: each call takes those that belong to it and
moves nothing besides, and so does any sequence of calls. -/
theorem state_follows_edges (m : Machine) : m.FollowsEdges ∧
    ∀ calls : List HostCall, (∀ call ∈ calls, call.isDrive = true ∨ call.isSwitch = true) →
      ReflTransGen RunState.Leads m.state (m.performAll calls).state :=
  ⟨m.follows_edges, m.performAll_leads⟩

/-! ### The end -/

/-- The reset exception finds its stack pointer and its program counter. -/
def HasVectors (m : Machine) : Prop :=
  ∃ ssp pc, m.space.read 0 4 .supervisorData .read = .ok ssp ∧
    m.space.read 4 4 .supervisorData .read = .ok pc

/-- A reset leads to the normal state from every other one if it finds its vectors, and
otherwise halts the machine. -/
theorem reset_state (m : Machine) :
    (m.HasVectors ∧ m.reset.val.state = .normal) ∨
      (¬ m.HasVectors ∧ m.reset.val.state = .halted) := by
  unfold reset HasVectors
  dsimp only
  cases m.space.read 0 4 .supervisorData .read with
  | error e => exact .inr ⟨nofun, rfl⟩
  | ok ssp =>
    dsimp only
    cases m.space.read 4 4 .supervisorData .read with
    | error e => exact .inr ⟨nofun, rfl⟩
    | ok pc => exact .inl ⟨⟨ssp, pc, rfl, rfl⟩, rfl⟩

/-- What is left of a machine that has ended: it is still at its end, no instruction has
been fetched since, and none is performed. -/
structure Ended (m m' : Machine) : Prop where
  /-- The machine is still at its end. -/
  terminal : m'.state.isTerminal = true
  /-- The last instruction is the same one. -/
  opcode : m'.opcode = m.opcode
  /-- It was found at the same address. -/
  instructionAddress : m'.instructionAddress = m.instructionAddress
  /-- Stepping and running change nothing. -/
  frozen : ∀ call : HostCall, call.isDrive = true → call.perform m' = m'

/-- A machine that is at its end with the same last instruction has ended. -/
theorem Ended.of_eq (hterminal : m'.state.isTerminal = true) (hopcode : m'.opcode = m.opcode)
    (haddress : m'.instructionAddress = m.instructionAddress) : Ended m m' where
  terminal := hterminal
  opcode := hopcode
  instructionAddress := haddress
  frozen _ := perform_of_not_isActive (RunState.isActive_of_isTerminal hterminal)

/-- What has ended stays so over further calls. -/
theorem Ended.trans (h : Ended m m') (h' : Ended m' m'') : Ended m m'' :=
  .of_eq h'.terminal (h'.opcode.trans h.opcode)
    (h'.instructionAddress.trans h.instructionAddress)

/-- Alterations of other parts leave the run state and the last instruction alone. -/
theorem Alters.ended (h : m'.Alters part m'') (hpart : part ≠ .state) (hended : Ended m m') :
    Ended m m'' := by
  have hsame : m''.state = m'.state ∧ m''.opcode = m'.opcode ∧
      m''.instructionAddress = m'.instructionAddress := by
    cases h with
    | stop | breakpoint => exact absurd rfl hpart
    | _ => exact ⟨rfl, rfl, rfl⟩
  obtain ⟨hstate, hopcode, haddress⟩ := hsame
  exact hended.trans (.of_eq (hstate ▸ hended.terminal) hopcode haddress)

/-- An exception from outside is taken at the end too, and changes nothing about it. -/
theorem takeException_ended {frame : List FrameItem} {offset : UInt16}
    (hfits : frameBytes frame < UInt32.size) (hterminal : m.state.isTerminal = true) :
    Ended m (m.takeException frame offset).val.2 := by
  obtain ⟨ssp, pc, space, state, hval, hstate⟩ := @takeException_handler m frame offset hfits
  rw [hval]
  refine .of_eq ?_ rfl rfl
  rcases hstate with rfl | rfl
  · exact hterminal
  · rfl

/-- A machine at its end stays there, whatever the host does, unless it resets the
machine with success. -/
theorem perform_ended (hterminal : m.state.isTerminal = true)
    (hreset : call = .reset → ¬ m.HasVectors) : Ended m (call.perform m) := by
  have hself : Ended m m := .of_eq hterminal rfl rfl
  have hactive := RunState.isActive_of_isTerminal hterminal
  cases call with
  | step | run =>
    rw [perform_of_not_isActive hactive rfl]
    exact hself
  | reset =>
    obtain ⟨ssp, pc, state, hval, -⟩ := m.reset_val
    have hhalted := (m.reset_state.resolve_left fun h => hreset rfl h.1).2
    have hopcode : m.reset.val.opcode = m.opcode := by rw [hval]
    have haddress : m.reset.val.instructionAddress = m.instructionAddress := by rw [hval]
    exact .of_eq (congrArg RunState.isTerminal hhalted) hopcode haddress
  | start | finish | wake | resume =>
    rw [(HostCall.switches rfl m).stays fun target hmoves => hmoves.not_isTerminal hterminal]
    exact hself
  | halt | haltOnFrame => exact .of_eq rfl rfl rfl
  | setPolicy policy => exact .of_eq hterminal rfl rfl
  | takeShort offset => exact takeException_ended (shortFrame_fits ..) hterminal
  | takeLong offset instructionAddress cycle =>
    exact takeException_ended (longFrame_fits ..) hterminal
  | readData | writeData | fetchWord | fetchLong | push | pop =>
    refine (HostCall.alters_of_isAccess rfl m).keeps (fun hpart halters => ?_) hself
    refine halters.ended fun hstate => ?_
    rw [hstate] at hpart
    cases hpart

/-- Whether one of the calls is a reset that finds its vectors. -/
def Revives (m : Machine) (calls : List HostCall) : Prop :=
  ∃ before after, calls = before ++ .reset :: after ∧ (m.performAll before).HasVectors

/-- Without a reset that finds its vectors, no sequence of calls brings a machine back. -/
theorem performAll_ended (hterminal : m.state.isTerminal = true) (calls : List HostCall)
    (hreset : ¬ m.Revives calls) : Ended m (m.performAll calls) := by
  induction calls generalizing m with
  | nil => exact .of_eq hterminal rfl rfl
  | cons call calls ih =>
    have hcall : Ended m (call.perform m) := by
      refine perform_ended hterminal fun hcall hvectors => hreset ⟨[], calls, ?_, hvectors⟩
      rw [hcall, List.nil_append]
    refine hcall.trans (ih hcall.terminal fun ⟨before, after, hcalls, hvectors⟩ => ?_)
    exact hreset ⟨call :: before, after, by rw [hcalls, List.cons_append], hvectors⟩

/-- A machine that has ended stays at its end through every sequence of calls without a
reset that finds its vectors. A sequence with one brings it back. -/
theorem ended_unless_reset (m : Machine) (hterminal : m.state.isTerminal = true)
    (calls : List HostCall) :
    (¬ m.Revives calls → Ended m (m.performAll calls)) ∧
      (m.Revives calls → ∃ before, before <+: calls ∧ (m.performAll before).state = .normal) := by
  refine ⟨performAll_ended hterminal calls, ?_⟩
  rintro ⟨before, after, rfl, hvectors⟩
  have hreset := ((m.performAll before).reset_state.resolve_right fun h => h.1 hvectors).2
  refine ⟨before ++ [.reset], ⟨after, by rw [List.append_assoc, List.singleton_append]⟩, ?_⟩
  rw [performAll, List.foldl_append]
  exact hreset

/-- A halted machine with readable vectors and a `NOP` for its program. -/
def revivable : Machine :=
  { Machine.initial .mc68000 .halt (.flat ⟨.general,
      ⟨#[0, 0, 0, 16, 0, 0, 0, 8, 0x4E, 0x71, 0, 0, 0, 0, 0, 0]⟩⟩) with
    state := .halted }

/-- A halted machine stays so through a wake, an exception and a step, but a reset between two
steps brings it back. -/
theorem ended_unless_reset_revivable : revivable.state.isTerminal = true ∧
    Ended revivable (revivable.performAll [.wake, .takeShort 8, .step]) ∧
    ∃ before, before <+: [.step, .reset, .step] ∧
      (revivable.performAll before).state = .normal := by
  have hlost : ¬ revivable.Revives [.wake, .takeShort 8, .step] := by
    rintro ⟨before, after, hcalls, -⟩
    have hmem : HostCall.reset ∈ [.wake, .takeShort 8, .step] := by
      rw [hcalls]
      exact List.mem_append_right _ List.mem_cons_self
    simp at hmem
  have hrevived : revivable.Revives [.step, .reset, .step] :=
    ⟨[.step], [.step], rfl, 16, 8, rfl, rfl⟩
  exact ⟨rfl, (ended_unless_reset revivable rfl _).1 hlost,
    (ended_unless_reset revivable rfl _).2 hrevived⟩

/-- A reset brings the halted machine back, and the next step performs an instruction. -/
theorem revivable_revived : revivable.state.isTerminal = true ∧
    ¬ (revivable.performAll [.reset]).state.isTerminal = true ∧
    (revivable.performAll [.reset, .step]).state = .normal ∧
    (revivable.performAll [.reset, .step]).opcode = 0x4E71 ∧
    (revivable.performAll [.reset, .step]).instructionAddress = 8 := by
  decide +kernel

end Machine

end Cpu68k
