import Cpu68k.Text.Blank

/-!
# The members of the processor family

A `Chip` fixes which instructions and control registers exist, how exception
frames look and whether data may be misaligned. `Chip.features` is the one
table of these differences, and `Chip.ofText?` reads a chip's name.
-/

namespace Cpu68k

/-- The members of the family, oldest first. -/
inductive Chip
  | mc68000
  | mc68010
  | mc68020
  | mc68030
  | mc68040
  deriving DecidableEq, Inhabited

/-- What a chip has beyond the first member of the family. -/
structure Features where
  /-- `MOVEC` exists. -/
  movec : Bool
  /-- The exception vectors start at a vector base register. -/
  vectorBase : Bool
  /-- Exception frames carry a word with their format and vector. -/
  formatWord : Bool
  /-- `MOVE` from the condition codes exists. -/
  moveFromCcr : Bool
  /-- `RTD` exists. -/
  rtd : Bool
  /-- Words and longs of data may lie at odd addresses. -/
  unalignedData : Bool
  /-- A cache control register exists. -/
  cacheControl : Bool
  /-- Long branches, `EXTB`, `LINK` with a long displacement and scaled indexes
  exist. -/
  extended : Bool
  deriving DecidableEq

namespace Chip

/-- The features of each generation; the last three chips have the same ones. -/
def features : Chip → Features
  | mc68000 => ⟨false, false, false, false, false, false, false, false⟩
  | mc68010 => ⟨true, true, true, true, true, false, false, false⟩
  | mc68020 | mc68030 | mc68040 => ⟨true, true, true, true, true, true, true, true⟩

/-- The number printed on the part. -/
def partNumber : Chip → Nat
  | mc68000 => 68000
  | mc68010 => 68010
  | mc68020 => 68020
  | mc68030 => 68030
  | mc68040 => 68040

/-- Chips are ordered by generation, which their part numbers follow. -/
instance : Ord Chip :=
  ⟨fun a b => compare a.partNumber b.partNumber⟩

/-- The status bits that a program can write. The extended chips have a second
trace bit and the master bit besides. -/
def statusMask (chip : Chip) : UInt16 :=
  if chip.features.extended then 0xF71F else 0xA71F

/-- The name of the part, for instance `MC68010`. -/
def name (chip : Chip) : String :=
  "MC" ++ toString chip.partNumber

/-- The chip with the given digits; `68k` is another name of the first one. -/
def ofDigits? (digits : String) : Option Chip :=
  match digits with
  | "68000" | "68k" => some mc68000
  | "68010" => some mc68010
  | "68020" => some mc68020
  | "68030" => some mc68030
  | "68040" => some mc68040
  | _ => none

/-- The characters after one leading `mc`, or else after one leading `m`. -/
def withoutMaker : List Char → List Char
  | 'm' :: 'c' :: rest => rest
  | 'm' :: rest => rest
  | cs => cs

/-- Reads a chip's name: blanks around it, the case of ASCII letters and one
`mc` or `m` in front do not matter. -/
def ofText? (text : String) : Option Chip :=
  ofDigits? (String.ofList (withoutMaker ((trimBlanks text.toList).map Char.toLower)))

/-- The message for a text that names no chip. -/
def unknownMessage (text : String) : String :=
  "unknown processor model `" ++ text ++
    "` (expected 68000, 68010, 68020, 68030 or 68040)"

end Chip

end Cpu68k
