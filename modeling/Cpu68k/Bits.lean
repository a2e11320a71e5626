/-!
# Bit fields

Registers and breakpoints are numbered by three bits, traps and condition tests
by four. A field keeps the low bits of a number.
-/

namespace Cpu68k

/-- The low three bits of a number. -/
def threeBits (n : Nat) : Fin 8 :=
  Fin.ofNat 8 n

/-- The low four bits of a number. -/
def fourBits (n : Nat) : Fin 16 :=
  Fin.ofNat 16 n

end Cpu68k
