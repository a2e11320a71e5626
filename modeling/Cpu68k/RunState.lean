/-!
# Run states

What the host sees after every step: whether the machine goes on, waits or has
come to an end. Hosts that store the state as a number use `RunState.raw`.
-/

namespace Cpu68k

/-- Whether the machine runs. -/
inductive RunState
  /-- The reset exception has not been taken. -/
  | startup
  /-- Ready for the next instruction. -/
  | normal
  /-- The host has declared the run complete. -/
  | finished
  /-- Halted by an error that nothing mends. -/
  | halted
  /-- Waiting, after `STOP`. -/
  | stopped
  /-- At a breakpoint instruction. The machine itself uses the numbers 0 to 7. -/
  | breakpoint (n : UInt8)
  deriving DecidableEq, Inhabited

namespace RunState

/-- Whether the next step performs an instruction. -/
def isRunning (s : RunState) : Bool :=
  s == normal

/-- Whether nothing leads out of the state. -/
def isTerminal (s : RunState) : Bool :=
  s == halted || s == finished

/-- The number of the breakpoint. -/
def breakpoint? : RunState → Option UInt8
  | breakpoint n => some n
  | _ => none

/-- The number that stands for the state. Of a breakpoint's number the low three
bits count. -/
def raw : RunState → Int
  | startup => 0
  | normal => 1
  | finished => 2
  | halted => -1
  | stopped => -2
  | breakpoint n => 0xF0 + ((n &&& 7).toNat : Int)

/-- The state that a number stands for. -/
def ofRaw? (raw : Int) : Option RunState :=
  if raw = 0 then some startup
  else if raw = 1 then some normal
  else if raw = 2 then some finished
  else if raw = -1 then some halted
  else if raw = -2 then some stopped
  else if 0xF0 ≤ raw ∧ raw ≤ 0xF7 then some (breakpoint (raw - 0xF0).toNat.toUInt8)
  else none

/-- The states that carry no number, by name. -/
def ofName? (name : String) : Option RunState :=
  match name with
  | "Startup" => some startup
  | "Normal" => some normal
  | "Finished" => some finished
  | "Halted" => some halted
  | "Stopped" => some stopped
  | _ => none

/-- The word for the state, without a breakpoint's number. -/
def word : RunState → String
  | startup => "Startup"
  | normal => "Normal"
  | finished => "Finished"
  | halted => "Halted"
  | stopped => "Stopped"
  | breakpoint _ => "Breakpoint"

/-- The name of the state, for instance `Breakpoint(3)`. -/
def name (s : RunState) : String :=
  match s with
  | breakpoint n => s.word ++ "(" ++ toString n.toNat ++ ")"
  | _ => s.word

end RunState

end Cpu68k
