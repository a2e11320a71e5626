import Cpu68k.Boot
import Cpu68k.CommandLine.Arguments
import Cpu68k.Inspection
import Cpu68k.Settings
import Cpu68k.Step

/-!
# Running an image

A run reads the settings and the image, boots the machine and lets it run up to
the step limit. What it prints is a `Report`, so a run is a function of the files
that it reads.
-/

namespace Cpu68k

namespace CommandLine

/-- The name and version of the program. -/
def versionText : String := "m68k-runner 0.1.0"

/-- Why nothing was run. -/
inductive RunError
  /-- The settings cannot be read, or are no text. -/
  | readConfig (path : String)
  /-- The settings are no document of settings. -/
  | parseConfig (path : String)
  /-- The image cannot be read. -/
  | readImage (path : String)
  /-- The image cannot be booted. -/
  | boot (error : BootError)
  deriving DecidableEq

/-- The message of an error. -/
def RunError.message : RunError → String
  | readConfig path => "read config " ++ path
  | parseConfig path => "parse config " ++ path
  | readImage path => "read image " ++ path
  | boot error => error.message

/-- The first line of a text that is printed on lines of its own. A line ends with a line
feed, or with a carriage return and a line feed. -/
def firstLine (text : String) : String :=
  let line := text.toList.takeWhile (· != '\n')
  String.ofList (if line.getLast? = some '\r' then line.dropLast else line)

/-- The first line of the message of an error. A path may hold line breaks. -/
def RunError.headline (e : RunError) : String := firstLine e.message

/-- What a run prints, and its exit code. -/
structure Report where
  /-- The exit code. -/
  exit : UInt8
  /-- The lines of the output. -/
  output : List String
  /-- The lines of the log. -/
  log : List String
  deriving DecidableEq

/-- The contents of the files that can be read. -/
abbrev Files := String → Option ByteArray

/-- The least level that the log shows; nothing is shown if there is none. -/
abbrev Threshold := Option Level

/-- The threshold with a name. -/
def thresholdOfName? (name : String) : Option Threshold :=
  match name with
  | "off" => some none
  | "error" => some (some .error)
  | "warn" => some (some .warn)
  | "info" => some (some .info)
  | "debug" => some (some .debug)
  | "trace" => some (some .trace)
  | _ => none

/-- Whether the log shows a level. -/
def shows (threshold : Threshold) (level : Level) : Bool :=
  threshold.any fun least => least.rank ≤ level.rank

/-- The settings that the arguments ask for. Options win over the document. -/
def Arguments.settings (a : Arguments) (files : Files) : Except RunError Settings := do
  let settings ← match a.config? with
    | none => pure {}
    | some path =>
      match (files path).bind String.fromUTF8? with
      | none => throw (.readConfig path)
      | some text =>
        match Settings.ofJson? text with
        | none => throw (.parseConfig path)
        | some settings => pure settings
  return {
    chip := a.chip?.getD settings.chip
    policy := if a.vectorFaults then .vector else settings.policy }

/-- The RAM that the arguments ask for. -/
def Arguments.ram (a : Arguments) (files : Files) : Except RunError Region :=
  match files a.image with
  | none => .error (.readImage a.image)
  | some image => (bootRam image a.load a.ramSize).mapError .boot

/-- The line that opens the log. -/
def Arguments.opening (a : Arguments) (chip : Chip) : Level × String :=
  (.info, chip.name ++ " with " ++ hex 1 a.ramSize.toNat ++ " bytes of RAM, image loaded at " ++
    hex 8 a.load.toNat)

/-- The exit code of a run by the state of the machine. -/
def exitCode : RunState → UInt8
  | .finished | .stopped => 0
  | .halted => 1
  | .breakpoint _ => 2
  | .normal | .startup => 3

/-- The line that closes the log. -/
def Arguments.closing (a : Arguments) (steps : Nat) (m : Machine) : Level × String :=
  let count := " after " ++ toString steps ++ " instructions"
  let place := " at " ++ hex 8 m.instructionAddress.toNat
  match m.state with
  | .finished | .stopped => (.info, m.state.name ++ count)
  | .halted =>
    (.warn, "halted" ++ count ++ place ++ " (opcode " ++ hex 4 m.opcode.toNat ++ ")")
  | .breakpoint n => (.info, "breakpoint " ++ toString n.toNat ++ place ++ count)
  | .normal | .startup =>
    (.warn, "step limit of " ++ toString a.maxSteps ++ " reached at " ++
      hex 8 m.registers.pc.toNat)

/-- The lines of the log that a threshold lets through. -/
def logLines (threshold : Threshold) (entries : List (Level × String)) : List String :=
  (entries.filter fun entry => shows threshold entry.1).map fun entry => logLine entry.1 entry.2

/-- A text with blanks in front up to a width. -/
def alignRight (width : Nat) (text : String) : String :=
  String.ofList (List.leftpad width ' ' text.toList)

/-- All values of a machine, a line each, with the paths aligned. -/
def dumpLines (m : Machine) : List String :=
  m.readings.map fun (path, reading) => alignRight 10 path ++ " = " ++ reading.text

/-- Runs an image as the arguments ask. -/
def Arguments.run (a : Arguments) (files : Files) (threshold : Threshold) :
    Except RunError Report := do
  let settings ← a.settings files
  let ram ← a.ram files
  let machine := Machine.initial settings.chip settings.policy (.flat ram)
  let result := machine.run (fun event => shows threshold event.level) a.maxSteps
  let (steps, machine) := result.val
  return {
    exit := exitCode machine.state
    output := if a.dump then dumpLines machine else []
    log := logLines threshold [a.opening settings.chip] ++ result.events.map Event.line ++
      logLines threshold [a.closing steps machine] }

end CommandLine

end Cpu68k
