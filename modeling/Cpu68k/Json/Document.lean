import Cpu68k.Json.Token

/-!
# Shapes of JSON documents

The parts that the documents of this library have in common: names, entries
under a key, and rows of items between two brackets.
-/

namespace Cpu68k

namespace Json

/-- A name at the front of the tokens, and the tokens behind it. A name is a
string, or an object with the name as its only key and the value `null`. -/
def name? : List Token → Option (String × List Token)
  | .text name :: rest => some (name, rest)
  | .openBrace :: .text name :: .colon :: .null :: .closeBrace :: rest => some (name, rest)
  | _ => none

/-- A key with a name as its value, and the tokens behind it. -/
def entry? : List Token → Option ((String × String) × List Token)
  | .text key :: .colon :: rest => (name? rest).map fun (name, rest) => ((key, name), rest)
  | _ => none

/-- Items with commas between them and a closing token at the end of the document:
at least one item, and at most `limit`. -/
def row? {α : Type} (item? : List Token → Option (α × List Token)) (close : Token) :
    Nat → List Token → Option (List α)
  | 0, _ => none
  | limit + 1, tokens =>
    match item? tokens with
    | none => none
    | some (a, .comma :: rest) => (row? item? close limit rest).map (a :: ·)
    | some (a, rest) => if rest = [close] then some [a] else none

/-- Items as in a row, or none at all. -/
def items? {α : Type} (item? : List Token → Option (α × List Token)) (close : Token)
    (limit : Nat) (tokens : List Token) : Option (List α) :=
  if tokens = [close] then some [] else row? item? close limit tokens

/-- A string of characters that need no escape. -/
def quoted (text : String) : String :=
  "\"" ++ text ++ "\""

/-- An object of one line, from its keys and the texts of their values. -/
def object (entries : List (String × String)) : String :=
  "\x7b" ++ String.intercalate "," (entries.map fun (key, value) => quoted key ++ ":" ++ value) ++
    "\x7d"

end Json

end Cpu68k
