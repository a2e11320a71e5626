/-!
# Reading numbers

Digits of the bases ten and sixteen, and numbers of a limited range. One plus sign
may stand in front; there are no blanks and no other marks.
-/

namespace Cpu68k

/-- The value of a digit in base sixteen, of either case. -/
def hexDigit? (c : Char) : Option Nat :=
  if '0' ≤ c ∧ c ≤ '9' then some (c.toNat - '0'.toNat)
  else if 'a' ≤ c ∧ c ≤ 'f' then some (c.toNat - 'a'.toNat + 10)
  else if 'A' ≤ c ∧ c ≤ 'F' then some (c.toNat - 'A'.toNat + 10)
  else none

/-- The value of a digit in a base up to sixteen. -/
def digit? (base : Nat) (c : Char) : Option Nat :=
  (hexDigit? c).filter (· < base)

/-- The number that follows when more digits are written behind `value`. -/
def withDigits? (base : Nat) : Nat → List Char → Option Nat
  | value, [] => some value
  | value, c :: cs =>
    match digit? base c with
    | none => none
    | some digit => withDigits? base (value * base + digit) cs

/-- The characters behind one plus sign. -/
def withoutPlus : List Char → List Char
  | '+' :: cs => cs
  | cs => cs

/-- The number below `limit` that at least one digit and nothing else writes. -/
def number? (base limit : Nat) (cs : List Char) : Option Nat :=
  match withoutPlus cs with
  | [] => none
  | digits => (withDigits? base 0 digits).filter (· < limit)

end Cpu68k
