import Cpu68k.Fault
import Cpu68k.Instruction.Names
import Cpu68k.RunState
import Cpu68k.Space.Region

/-!
# The log

Operations of the host return their result together with the events that led to
it. An event is a value; its level and its text are functions of it, so results
never depend on what is logged.
-/

namespace Cpu68k

/-- How much an event matters. -/
inductive Level
  | trace
  | debug
  | info
  | warn
  | error
  deriving DecidableEq, Inhabited

namespace Level

/-- Levels in ascending order. -/
def rank : Level → Nat
  | trace => 0
  | debug => 1
  | info => 2
  | warn => 3
  | error => 4

/-- The name of a level in log lines. -/
def name : Level → String
  | trace => "TRACE"
  | debug => "DEBUG"
  | info => "INFO"
  | warn => "WARN"
  | error => "ERROR"

end Level

/-- What happened. -/
inductive Event
  /-- An instruction was found at an address and is about to be performed. -/
  | dispatched (addr : UInt32) (opcode : UInt16) (instruction : Instruction)
  /-- Memory refused an access. -/
  | accessRefused (cause : AccessError)
  /-- An instruction was stopped by a fault. -/
  | faulted (fault : Fault) (opcode : UInt16) (addr : UInt32)
  /-- An exception handler was entered. -/
  | handlerEntered (pc : UInt32)
  /-- A fault came while an exception was being taken. -/
  | doubleFault (fault : Fault)
  /-- The machine halted. -/
  | halted (addr : UInt32) (opcode : UInt16)
  /-- A return from an exception met a frame of unknown format. -/
  | unknownFrame
  /-- The reset vectors could not be read. -/
  | vectorsUnreadable (cause : AccessError)
  /-- The reset exception was taken. -/
  | resetTaken (chip : Chip) (ssp pc : UInt32)
  /-- The instruction `RESET` drove the reset line. -/
  | resetAsserted (addr : UInt32)
  /-- The host continues from a breakpoint. -/
  | resumed (n : UInt8)
  /-- The host changed the run state. -/
  | moved (source target : RunState)

namespace Event

/-- The level of an event. -/
def level : Event → Level
  | dispatched _ _ _ | accessRefused _ => .trace
  | faulted _ _ _ | handlerEntered _ | resetAsserted _ => .debug
  | resetTaken _ _ _ | resumed _ | moved _ _ => .info
  | doubleFault _ | halted _ _ | unknownFrame | vectorsUnreadable _ => .warn

/-- The text of an event. -/
def text : Event → String
  | dispatched addr opcode instruction =>
    hex 8 addr.toNat ++ ": " ++ hexDigits 4 opcode.toNat ++ " " ++ instruction.operationName
  | accessRefused cause => "translation failed: " ++ cause.message
  | faulted fault opcode addr =>
    match fault with
    | .busError _ | .addressError _ =>
      fault.message ++ " in " ++ hex 4 opcode.toNat ++ " at " ++ hex 8 addr.toNat
    | .trap _ | .trapV => fault.message ++ " at " ++ hex 8 addr.toNat
    | _ => fault.message ++ ": opcode " ++ hex 4 opcode.toNat ++ " at " ++ hex 8 addr.toNat
  | handlerEntered pc => "exception handler at " ++ hex 8 pc.toNat
  | doubleFault fault => "double fault while stacking exception frame: " ++ fault.message
  | halted addr opcode =>
    "halted at " ++ hex 8 addr.toNat ++ " (opcode " ++ hex 4 opcode.toNat ++ ")"
  | unknownFrame => "unrecognised exception frame format"
  | vectorsUnreadable cause => "reset vectors unreadable: " ++ cause.message
  | resetTaken chip ssp pc =>
    chip.name ++ " reset: ssp=" ++ hex 8 ssp.toNat ++ " pc=" ++ hex 8 pc.toNat
  | resetAsserted addr => "RESET asserted at " ++ hex 8 addr.toNat
  | resumed n => "resuming from breakpoint " ++ toString n.toNat
  | moved source target => source.name ++ " -> " ++ target.name

end Event

/-- A line of the log: its level and its text. -/
def logLine (level : Level) (text : String) : String :=
  level.name ++ " " ++ text

/-- The line of an event. -/
def Event.line (e : Event) : String :=
  logLine e.level e.text

/-- A value with the events that led to it, oldest first. -/
structure Logged (α : Type) where
  /-- The value. -/
  val : α
  /-- The events. -/
  events : List Event

namespace Logged

@[always_inline]
instance : Monad Logged where
  pure a := ⟨a, []⟩
  bind := fun ⟨a, before⟩ f =>
    match f a with
    | ⟨b, after⟩ => ⟨b, before ++ after⟩

/-- Logs an event. -/
def note (e : Event) : Logged Unit :=
  ⟨(), [e]⟩

/-- Logs the event if a condition holds. -/
def noteIf (condition : Bool) (e : Event) : Logged Unit :=
  ⟨(), if condition then [e] else []⟩

/-- A value by itself is its result. -/
@[simp]
theorem val_pure {α : Type} (a : α) : (pure a : Logged α).val = a := rfl

/-- The result of a sequence is that of its last part. -/
@[simp]
theorem val_bind {α β : Type} (x : Logged α) (f : α → Logged β) :
    (x >>= f).val = (f x.val).val := rfl

/-- A value by itself logs nothing. -/
@[simp]
theorem events_pure {α : Type} (a : α) : (pure a : Logged α).events = [] := rfl

/-- The events of a sequence are those of its parts, one after the other. -/
@[simp]
theorem events_bind {α β : Type} (x : Logged α) (f : α → Logged β) :
    (x >>= f).events = x.events ++ (f x.val).events := rfl

end Logged

end Cpu68k
