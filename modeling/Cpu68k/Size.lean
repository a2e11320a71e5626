/-!
# Operand sizes

Operands are bytes, words or longs. Every value travels in 32 bits, and its
size says how many of the low bits count.
-/

namespace Cpu68k

/-- The size of an operand. -/
inductive Size
  | byte
  | word
  | long
  deriving DecidableEq, Inhabited

namespace Size

/-- The two-bit field of most instructions: 00 byte, 01 word, 10 long. -/
def ofBits? (bits : UInt16) : Option Size :=
  if bits &&& 3 = 0 then some byte
  else if bits &&& 3 = 1 then some word
  else if bits &&& 3 = 2 then some long
  else none

/-- The two-bit field of `MOVE`: 01 byte, 11 word, 10 long. -/
def ofMoveBits? (bits : UInt16) : Option Size :=
  if bits &&& 3 = 1 then some byte
  else if bits &&& 3 = 3 then some word
  else if bits &&& 3 = 2 then some long
  else none

/-- The name of a size. -/
def name : Size → String
  | byte => "Byte"
  | word => "Word"
  | long => "Long"

/-- The width in bytes. -/
def bytes : Size → UInt32
  | byte => 1
  | word => 2
  | long => 4

/-- The bits that count. -/
def mask : Size → UInt32
  | byte => 0xFF
  | word => 0xFFFF
  | long => 0xFFFFFFFF

/-- The highest bit that counts, which is the sign. -/
def signBit : Size → UInt32
  | byte => 0x80
  | word => 0x8000
  | long => 0x80000000

/-- The low bits of `value`, with the sign repeated in all higher bits. -/
def signExtend (size : Size) (value : UInt32) : UInt32 :=
  let low := value &&& size.mask
  if low &&& size.signBit = 0 then low else low ||| ~~~size.mask

/-- `old` with its low bits replaced by those of `value`. -/
def merge (size : Size) (old value : UInt32) : UInt32 :=
  (old &&& ~~~size.mask) ||| (value &&& size.mask)

end Size

end Cpu68k
