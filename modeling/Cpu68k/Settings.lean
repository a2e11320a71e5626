import Cpu68k.Chip
import Cpu68k.Fault
import Cpu68k.Json.Document

/-!
# Settings

What is fixed when a machine is made: its chip and its fault policy. Both have a
default, so a document says only what differs. A document is an object with the
two keys, or an array with the two values in their order.
-/

namespace Cpu68k

/-- The name of a chip in settings. -/
def Chip.settingName : Chip → String
  | mc68000 => "m68000"
  | mc68010 => "m68010"
  | mc68020 => "m68020"
  | mc68030 => "m68030"
  | mc68040 => "m68040"

/-- The chip with a name in settings. -/
def Chip.ofSettingName? (name : String) : Option Chip :=
  match name with
  | "m68000" => some mc68000
  | "m68010" => some mc68010
  | "m68020" => some mc68020
  | "m68030" => some mc68030
  | "m68040" => some mc68040
  | _ => none

/-- The name of a policy in settings. -/
def FaultPolicy.settingName : FaultPolicy → String
  | halt => "halt"
  | vector => "vector"

/-- The policy with a name in settings. -/
def FaultPolicy.ofSettingName? (name : String) : Option FaultPolicy :=
  match name with
  | "halt" => some halt
  | "vector" => some vector
  | _ => none

/-- The settings of a machine. -/
structure Settings where
  /-- The member of the family. -/
  chip : Chip := .mc68000
  /-- What to do with bus and address errors. -/
  policy : FaultPolicy := .halt
  deriving DecidableEq, Inhabited

/-- The settings that a document has given so far. -/
structure Settings.Draft where
  /-- The chip, if it was given. -/
  chip? : Option Chip := none
  /-- The policy, if it was given. -/
  policy? : Option FaultPolicy := none

namespace Settings

/-- The settings of a draft, with defaults for what was not given. -/
def Draft.settings (d : Draft) : Settings where
  chip := d.chip?.getD .mc68000
  policy := d.policy?.getD .halt

/-- Adds one entry of an object. No key is given twice. -/
def Draft.add? (d : Draft) (entry : String × String) : Option Draft :=
  match entry.1 with
  | "model" =>
    if d.chip?.isSome then none
    else (Chip.ofSettingName? entry.2).map fun chip => { d with chip? := some chip }
  | "fault_policy" =>
    if d.policy?.isSome then none
    else (FaultPolicy.ofSettingName? entry.2).map fun policy => { d with policy? := some policy }
  | _ => none

/-- The settings in the values of an array. -/
def ofNames? : List String → Option Settings
  | [] => some {}
  | [chip] => do return { chip := ← Chip.ofSettingName? chip }
  | [chip, policy] => do
    return { chip := ← Chip.ofSettingName? chip, policy := ← FaultPolicy.ofSettingName? policy }
  | _ => none

/-- The settings in the tokens of a document. -/
def ofTokens? : List Json.Token → Option Settings
  | .openBrace :: rest => do
    let entries ← Json.items? Json.entry? .closeBrace 2 rest
    let draft ← entries.foldlM Draft.add? {}
    return draft.settings
  | .openBracket :: rest => do
    ofNames? (← Json.items? Json.name? .closeBracket 2 rest)
  | _ => none

/-- The settings in a JSON document. -/
def ofJson? (text : String) : Option Settings :=
  (Json.tokens? text).bind ofTokens?

/-- The settings as a JSON document. -/
def json (s : Settings) : String :=
  Json.object
    [("model", Json.quoted s.chip.settingName),
      ("fault_policy", Json.quoted s.policy.settingName)]

end Settings

end Cpu68k
