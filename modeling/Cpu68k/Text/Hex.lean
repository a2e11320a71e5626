/-!
# Numbers in base sixteen

Addresses and opcodes are written in lower case behind the mark `0x`, register
contents in upper case. Both forms are filled with zeros up to a given width.
-/

namespace Cpu68k

/-- The digits of `n` in base sixteen, lower case, with zeros in front up to
`width` places. A longer number keeps all its digits. -/
def hexDigits (width n : Nat) : String :=
  String.ofList (List.leftpad width '0' (Nat.toDigits 16 n))

/-- The mark `0x` and at least `width` lower-case digits. -/
def hex (width n : Nat) : String :=
  "0x" ++ hexDigits width n

/-- The mark `0x` and at least `width` upper-case digits. -/
def hexUpper (width n : Nat) : String :=
  "0x" ++ (hexDigits width n).toUpper

end Cpu68k
