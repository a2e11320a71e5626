import Cpu68k.Chip
import Cpu68k.Text.Number

/-!
# Arguments

The arguments of the program are taken from left to right. The first one that is
wrong makes the whole command line wrong, and `--version` answers before anything
behind it is looked at. Every option and flag is given at most once.
-/

namespace Cpu68k

namespace CommandLine

/-- What a run is asked to do. -/
structure Arguments where
  /-- The path of the image. -/
  image : String
  /-- The chip, over that of the settings. -/
  chip? : Option Chip
  /-- The path of the settings. -/
  config? : Option String
  /-- The address of the image. -/
  load : UInt32
  /-- The number of bytes of RAM. -/
  ramSize : UInt32
  /-- The most steps that are taken. -/
  maxSteps : Nat
  /-- Whether bus and address errors take their vectors. -/
  vectorFaults : Bool
  /-- Whether all values of the machine are printed at the end. -/
  dump : Bool

/-- What a command line asks for. -/
inductive Invocation
  | version
  | run (arguments : Arguments)

/-- The options, each of which has a value. -/
inductive Opt
  | model
  | config
  | loadAddr
  | ramSize
  | maxSteps

/-- The option with a name. -/
def Opt.ofName? (name : String) : Option Opt :=
  match name with
  | "model" => some model
  | "config" => some config
  | "load-addr" => some loadAddr
  | "ram-size" => some ramSize
  | "max-steps" => some maxSteps
  | _ => none

/-- The flags. -/
inductive Flag
  | vectorFaults
  | dump

/-- The flag with a name. -/
def Flag.ofName? (name : String) : Option Flag :=
  match name with
  | "vector-faults" => some vectorFaults
  | "dump" => some dump
  | _ => none

/-- Reads an address or a number of bytes: digits of base ten, or of base sixteen
behind the mark `0x`. Underscores may stand between the digits. -/
def word? (text : String) : Option UInt32 :=
  let read (base : Nat) (cs : List Char) : Option UInt32 :=
    (number? base UInt32.size (cs.filter (· != '_'))).map Nat.toUInt32
  match text.toList with
  | '0' :: 'x' :: cs | '0' :: 'X' :: cs => read 16 cs
  | cs => read 10 cs

/-- Reads a number of steps in base ten. -/
def steps? (text : String) : Option Nat :=
  number? 10 UInt64.size text.toList

/-- Reads a path, which is not empty. -/
def path? (text : String) : Option String :=
  if text.isEmpty then none else some text

/-- The arguments so far. -/
structure Draft where
  image? : Option String := none
  chip? : Option Chip := none
  config? : Option String := none
  load? : Option UInt32 := none
  ramSize? : Option UInt32 := none
  maxSteps? : Option Nat := none
  vectorFaults : Bool := false
  dump : Bool := false

/-- A value for something that has none yet. -/
def once? {α : Type} (old new : Option α) : Option (Option α) :=
  if old.isSome || new.isNone then none else some new

namespace Draft

/-- Takes the path of the image. -/
def takeImage? (d : Draft) (text : String) : Option Draft := do
  return { d with image? := ← once? d.image? (path? text) }

/-- Takes the value of an option. -/
def takeOption? (d : Draft) (option : Opt) (text : String) : Option Draft := do
  match option with
  | .model => return { d with chip? := ← once? d.chip? (Chip.ofText? text) }
  | .config => return { d with config? := ← once? d.config? (path? text) }
  | .loadAddr => return { d with load? := ← once? d.load? (word? text) }
  | .ramSize => return { d with ramSize? := ← once? d.ramSize? (word? text) }
  | .maxSteps => return { d with maxSteps? := ← once? d.maxSteps? (steps? text) }

/-- Takes a flag. -/
def takeFlag? (d : Draft) (flag : Flag) : Option Draft :=
  match flag with
  | .vectorFaults => if d.vectorFaults then none else some { d with vectorFaults := true }
  | .dump => if d.dump then none else some { d with dump := true }

/-- What is asked for at the end: only the image has no default. -/
def finish? (d : Draft) : Option Invocation := do
  return .run {
    image := ← d.image?
    chip? := d.chip?
    config? := d.config?
    load := d.load?.getD 0x400
    ramSize := d.ramSize?.getD 0x100000
    maxSteps := d.maxSteps?.getD 10000000
    vectorFaults := d.vectorFaults
    dump := d.dump }

end Draft

/-- One argument by its form. -/
inductive Form
  /-- `--`, behind which every argument is a path. -/
  | onlyPaths
  /-- `--name` or `--name=value`. -/
  | named (name : String) (value? : Option String)
  /-- A minus sign and letters. -/
  | short (letters : List Char)
  /-- Anything else, which can be the value of an option. -/
  | plain

/-- The name and the value of `name=value`. -/
def splitValue (cs : List Char) : String × Option String :=
  match cs.dropWhile (· != '=') with
  | [] => (String.ofList cs, none)
  | _ :: value => (String.ofList (cs.takeWhile (· != '=')), some (String.ofList value))

/-- The form of an argument. -/
def Form.ofText (text : String) : Form :=
  match text.toList with
  | ['-', '-'] => onlyPaths
  | '-' :: '-' :: cs => named (splitValue cs).1 (splitValue cs).2
  | '-' :: c :: cs => short (c :: cs)
  | _ => plain

/-- Takes paths to the end. -/
def takePaths? (d : Draft) (texts : List String) : Option Invocation :=
  match texts.foldlM Draft.takeImage? d with
  | none => none
  | some d => d.finish?

/-- Takes arguments to the end. The option before them may still await its value. -/
def take? (d : Draft) (awaiting? : Option Opt) : List String → Option Invocation
  | [] => if awaiting?.isSome then none else d.finish?
  | text :: rest =>
    match awaiting?, Form.ofText text with
    | some option, .plain => (d.takeOption? option text).bind fun d => take? d none rest
    | some _, _ => none
    | none, .onlyPaths => takePaths? d rest
    | none, .plain => (d.takeImage? text).bind fun d => take? d none rest
    | none, .short ('V' :: _) => some .version
    | none, .short _ => none
    | none, .named "version" none => some .version
    | none, .named name none =>
      match Flag.ofName? name with
      | some flag => (d.takeFlag? flag).bind fun d => take? d none rest
      | none => (Opt.ofName? name).bind fun option => take? d (some option) rest
    | none, .named name (some value) =>
      ((Opt.ofName? name).bind fun option => d.takeOption? option value).bind fun d =>
        take? d none rest

/-- What a command line asks for, if it is right. -/
def Invocation.ofArguments? (texts : List String) : Option Invocation :=
  take? {} none texts

end CommandLine

end Cpu68k
