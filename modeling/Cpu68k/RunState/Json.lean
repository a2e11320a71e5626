import Cpu68k.Json.Document
import Cpu68k.RunState

/-!
# Run states as JSON

A state is written as its word, a breakpoint as an object with its number.
-/

namespace Cpu68k

namespace RunState

/-- The state as a JSON document. -/
def json (s : RunState) : String :=
  match s with
  | breakpoint n => Json.object [(s.word, toString n.toNat)]
  | _ => Json.quoted s.word

/-- The state in the tokens of a document. -/
def ofTokens? (tokens : List Json.Token) : Option RunState :=
  match tokens with
  | [.openBrace, .text "Breakpoint", .colon, .natural n, .closeBrace] =>
    if n < 256 then some (breakpoint n.toUInt8) else none
  | _ =>
    match Json.name? tokens with
    | some (name, []) => ofName? name
    | _ => none

/-- The state in a JSON document. -/
def ofJson? (text : String) : Option RunState :=
  (Json.tokens? text).bind ofTokens?

end RunState

end Cpu68k
