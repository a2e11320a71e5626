import Cpu68k.Text.Number

/-!
# JSON tokens

The tokens of the JSON documents that this library reads and writes: settings
and run states. They hold names and natural numbers; the truth values and all
other numbers occur in none of them and are refused with everything else that is
no token. The scanner takes one character at a time, and `Scan` says where it
stands between two of them.
-/

namespace Cpu68k

namespace Json

/-- The tokens. -/
inductive Token
  | openBrace
  | closeBrace
  | openBracket
  | closeBracket
  | colon
  | comma
  | null
  /-- A natural number without a sign, a fraction, an exponent or a leading zero. -/
  | natural (value : Nat)
  /-- A string, with its escapes replaced. -/
  | text (value : String)
  deriving DecidableEq

/-- What a string is made of. -/
inductive Piece
  /-- A character, as it is or behind a backslash. -/
  | character (c : Char)
  /-- Four digits in base sixteen. -/
  | unit (value : Nat)

/-- Whether a unit opens a pair of surrogates. -/
def isHighSurrogate (unit : Nat) : Bool :=
  0xD800 ≤ unit && unit < 0xDC00

/-- Whether a unit closes a pair of surrogates. -/
def isLowSurrogate (unit : Nat) : Bool :=
  0xDC00 ≤ unit && unit < 0xE000

/-- The character that a pair of surrogates stands for. -/
def ofSurrogates (high low : Nat) : Char :=
  Char.ofNat (0x10000 + (high - 0xD800) * 0x400 + (low - 0xDC00))

/-- The characters of a string. A surrogate is no character unless it belongs to
a pair. -/
def characters? : List Piece → Option (List Char)
  | [] => some []
  | .character c :: pieces => (characters? pieces).map (c :: ·)
  | .unit high :: .unit low :: pieces =>
    if isHighSurrogate high then
      if isLowSurrogate low then (characters? pieces).map (ofSurrogates high low :: ·) else none
    else if isLowSurrogate high then none
    else (characters? (.unit low :: pieces)).map (Char.ofNat high :: ·)
  | .unit unit :: pieces =>
    if isHighSurrogate unit || isLowSurrogate unit then none
    else (characters? pieces).map (Char.ofNat unit :: ·)

/-- The character that a letter behind a backslash stands for. -/
def escaped? (c : Char) : Option Char :=
  match c with
  | '"' => some '"'
  | '\\' => some '\\'
  | '/' => some '/'
  | 'b' => some '\x08'
  | 'f' => some '\x0c'
  | 'n' => some '\n'
  | 'r' => some '\r'
  | 't' => some '\t'
  | _ => none

/-- Where the scanner stands between two characters. -/
inductive Scan
  /-- Outside of every token. -/
  | between
  /-- In the word `null`, before these letters. -/
  | word (letters : List Char)
  /-- Behind digits. -/
  | natural (value : Nat)
  /-- In a string, behind these pieces, the latest first. -/
  | string (pieces : List Piece)
  /-- In a string, behind a backslash. -/
  | escape (pieces : List Piece)
  /-- In a string, in four digits of which so many have yet to come. -/
  | unit (pieces : List Piece) (missing value : Nat)

namespace Scan

/-- The first character of a token, or a blank between tokens. -/
def start (c : Char) : Option (Scan × List Token) :=
  match c with
  | ' ' | '\t' | '\n' | '\r' => some (between, [])
  | '\x7b' => some (between, [.openBrace])
  | '\x7d' => some (between, [.closeBrace])
  | '[' => some (between, [.openBracket])
  | ']' => some (between, [.closeBracket])
  | ':' => some (between, [.colon])
  | ',' => some (between, [.comma])
  | 'n' => some (word ['u', 'l', 'l'], [])
  | '"' => some (string [], [])
  | _ => (digit? 10 c).map fun value => (natural value, [])

/-- Takes one character, and gives the tokens that it completes. -/
def next (s : Scan) (c : Char) : Option (Scan × List Token) :=
  match s with
  | between => start c
  | word [] => none
  | word [last] => if c = last then some (between, [.null]) else none
  | word (letter :: letters) => if c = letter then some (word letters, []) else none
  | natural value =>
    match digit? 10 c with
    | some digit => if value = 0 then none else some (natural (value * 10 + digit), [])
    | none => (start c).map fun (s, tokens) => (s, .natural value :: tokens)
  | string pieces =>
    if c = '"' then
      (characters? pieces.reverse).map fun cs => (between, [.text (String.ofList cs)])
    else if c = '\\' then some (escape pieces, [])
    else if c < ' ' then none
    else some (string (.character c :: pieces), [])
  | escape pieces =>
    if c = 'u' then some (unit pieces 4 0, [])
    else (escaped? c).map fun c => (string (.character c :: pieces), [])
  | unit pieces missing value =>
    (hexDigit? c).map fun digit =>
      if missing ≤ 1 then (string (.unit (value * 16 + digit) :: pieces), [])
      else (unit pieces (missing - 1) (value * 16 + digit), [])

/-- The tokens that the end of the text completes. -/
def stop : Scan → Option (List Token)
  | between => some []
  | natural value => some [.natural value]
  | _ => none

/-- The tokens of a whole text, from those before `cs`, the latest first. -/
def run (s : Scan) (before : List Token) : List Char → Option (List Token)
  | [] => s.stop.map (before.reverse ++ ·)
  | c :: cs =>
    match s.next c with
    | none => none
    | some (s, tokens) => s.run (tokens.reverse ++ before) cs

end Scan

/-- All tokens of a text. -/
def tokens? (text : String) : Option (List Token) :=
  Scan.between.run [] text.toList

end Json

end Cpu68k
