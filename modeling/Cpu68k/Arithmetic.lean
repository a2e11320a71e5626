import Cpu68k.Status

/-!
# Arithmetic with condition codes

Addition, subtraction, negation and comparison at a size. Bits of the operands
above the size do not count. Carry, borrow and overflow are read off the top
bits of the operands and of the result.
-/

namespace Cpu68k

/-- The status after an arithmetic result: sign and zero from the result, extend
a copy of the carry. -/
def Status.arithmetic (sr : Status) (size : Size) (result : UInt32) (carries overflows : Bool) :
    Status :=
  (((sr.signAndZero result size).assign Status.carry carries).assign
    Status.extend carries).assign Status.overflow overflows

/-- `dst + src`, and the status after it. A carry leaves the top bit if both
operands have it, or if one has it and the result has not. The sum overflows if
the operands agree in sign and the result does not. -/
def add (src dst : UInt32) (size : Size) (sr : Status) : UInt32 × Status :=
  let s := src &&& size.mask
  let d := dst &&& size.mask
  let result := (s + d) &&& size.mask
  let carries := (s &&& d) ||| ((s ||| d) &&& ~~~result)
  let overflows := (s ^^^ result) &&& (d ^^^ result)
  (result, sr.arithmetic size result (carries &&& size.signBit != 0)
    (overflows &&& size.signBit != 0))

/-- `dst - src`, and the status after it. The top bit borrows if the subtrahend
has it and the minuend has not, or if the result has it where the operands
agree. The difference overflows if the operands differ in sign and the result
does not have the sign of the minuend. -/
def sub (src dst : UInt32) (size : Size) (sr : Status) : UInt32 × Status :=
  let s := src &&& size.mask
  let d := dst &&& size.mask
  let result := (d - s) &&& size.mask
  let borrows := (~~~d &&& s) ||| ((~~~d ||| s) &&& result)
  let overflows := (s ^^^ d) &&& (result ^^^ d)
  (result, sr.arithmetic size result (borrows &&& size.signBit != 0)
    (overflows &&& size.signBit != 0))

/-- The status after comparing: that of `dst - src`, with extend as it was. -/
def compareStatus (src dst : UInt32) (size : Size) (sr : Status) : Status :=
  (sub src dst size sr).2.assign Status.extend (sr.has Status.extend)

/-- `0 - dst`, and the status after it. -/
def negate (dst : UInt32) (size : Size) (sr : Status) : UInt32 × Status :=
  sub dst 0 size sr

end Cpu68k
