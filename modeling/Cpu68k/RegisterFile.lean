import Cpu68k.Bits
import Cpu68k.Status

/-!
# The programmer's registers

Eight data registers, seven address registers and two stack pointers. The
eighth address register is the stack pointer of the current mode, so it follows
the supervisor bit without being copied.
-/

namespace Cpu68k

/-- A data or address register by its number. -/
inductive Register
  | data (n : Fin 8)
  | addr (n : Fin 8)
  deriving DecidableEq

/-- The register with a four-bit code: 0 to 7 are data registers, 8 to 15
address registers. Higher bits of the code are ignored. -/
def Register.ofCode (code : UInt8) : Register :=
  if code &&& 8 = 0 then .data (threeBits code.toNat) else .addr (threeBits code.toNat)

/-- The contents of all registers. -/
structure RegisterFile where
  /-- The data registers. -/
  data : Vector UInt32 8
  /-- The address registers below the stack pointer. -/
  addr : Vector UInt32 7
  /-- The user stack pointer. -/
  usp : UInt32
  /-- The supervisor stack pointer. -/
  ssp : UInt32
  /-- The program counter. -/
  pc : UInt32
  /-- The status word. -/
  sr : Status
  /-- The vector base register. -/
  vbr : UInt32
  /-- The source function code. -/
  sfc : UInt8
  /-- The destination function code. -/
  dfc : UInt8
  /-- The cache control register, which is stored and never read by the chip. -/
  cacr : UInt32
  deriving DecidableEq

namespace RegisterFile

/-- All registers clear, in supervisor mode with all interrupts masked. -/
def initial : RegisterFile where
  data := Vector.replicate 8 0
  addr := Vector.replicate 7 0
  usp := 0
  ssp := 0
  pc := 0
  sr := ⟨0x2700⟩
  vbr := 0
  sfc := 0
  dfc := 0
  cacr := 0

instance : Inhabited RegisterFile := ⟨initial⟩

/-- Whether the supervisor bit is set. -/
def isSupervisor (r : RegisterFile) : Bool :=
  r.sr.has Status.supervisor

/-- Whether a trace is asked for after each instruction. -/
def isTraced (r : RegisterFile) : Bool :=
  r.sr.has Status.traceAll

/-- The stack pointer of the current mode. -/
def activeSp (r : RegisterFile) : UInt32 :=
  if r.isSupervisor then r.ssp else r.usp

/-- Writes the stack pointer of the current mode. -/
def setActiveSp (r : RegisterFile) (value : UInt32) : RegisterFile :=
  if r.isSupervisor then { r with ssp := value } else { r with usp := value }

/-- Data register `n`. -/
def dataReg (r : RegisterFile) (n : Fin 8) : UInt32 :=
  r.data[n]

/-- Writes data register `n`. -/
def setDataReg (r : RegisterFile) (n : Fin 8) (value : UInt32) : RegisterFile :=
  { r with data := r.data.set n value }

/-- Address register `n`; the last one is the active stack pointer. -/
def addrReg (r : RegisterFile) (n : Fin 8) : UInt32 :=
  if h : n.val < 7 then r.addr[n.val] else r.activeSp

/-- Writes address register `n`; the last one is the active stack pointer. -/
def setAddrReg (r : RegisterFile) (n : Fin 8) (value : UInt32) : RegisterFile :=
  if h : n.val < 7 then { r with addr := r.addr.set n.val value } else r.setActiveSp value

/-- The contents of a data or address register. -/
def get (r : RegisterFile) : Register → UInt32
  | .data n => r.dataReg n
  | .addr n => r.addrReg n

/-- Writes a data or address register. -/
def set (r : RegisterFile) (reg : Register) (value : UInt32) : RegisterFile :=
  match reg with
  | .data n => r.setDataReg n value
  | .addr n => r.setAddrReg n value

/-- The low byte of the status word. -/
def ccr (r : RegisterFile) : UInt8 :=
  r.sr.bits.toUInt8

/-- Replaces the condition codes. The high byte stays, and the three unused bits
of the low byte are cleared. -/
def setCcr (r : RegisterFile) (value : UInt8) : RegisterFile :=
  { r with sr := ⟨(r.sr.bits &&& 0xFF00) ||| (value &&& 0x1F).toUInt16⟩ }

/-- The interrupt mask, 0 to 7. -/
def interruptMask (r : RegisterFile) : UInt8 :=
  ((r.sr.bits &&& Status.interruptBits) >>> 8).toUInt8

/-- Replaces the interrupt mask by the low three bits of `level`. -/
def setInterruptMask (r : RegisterFile) (level : UInt8) : RegisterFile :=
  { r with
    sr := ⟨(r.sr.bits &&& ~~~Status.interruptBits) ||| ((level &&& 7).toUInt16 <<< 8)⟩ }

/-- Replaces the status word by the bits of `value` that `mask` allows. -/
def setStatus (r : RegisterFile) (value mask : UInt16) : RegisterFile :=
  { r with sr := ⟨value &&& mask⟩ }

end RegisterFile

end Cpu68k
