import Cpu68k.Arithmetic
import Cpu68k.Frame
import Cpu68k.Operation

/-!
# What operations do

`Operation.effect` performs a resolved operation. Each one reads before it
writes and sets the status word last, so an operation whose access fails leaves
the condition codes alone.
-/

namespace Cpu68k

/-- The registers that `MOVEC` reaches. -/
inductive ControlRegister
  | sfc
  | dfc
  | cacr
  | usp
  | vbr
  deriving DecidableEq

namespace ControlRegister

/-- The control register with a code. The cache control register exists on some
chips only. -/
def ofCode? (chip : Chip) (code : UInt16) : Option ControlRegister :=
  if code = 0x000 then some sfc
  else if code = 0x001 then some dfc
  else if code = 0x002 then if chip.features.cacheControl then some cacr else none
  else if code = 0x800 then some usp
  else if code = 0x801 then some vbr
  else none

/-- The contents of a control register. -/
def read (c : ControlRegister) (r : RegisterFile) : UInt32 :=
  match c with
  | sfc => r.sfc.toUInt32
  | dfc => r.dfc.toUInt32
  | cacr => r.cacr
  | usp => r.usp
  | vbr => r.vbr

/-- Writes a control register. Function codes have three bits. -/
def write (c : ControlRegister) (r : RegisterFile) (value : UInt32) : RegisterFile :=
  match c with
  | sfc => { r with sfc := value.toUInt8 &&& 7 }
  | dfc => { r with dfc := value.toUInt8 &&& 7 }
  | cacr => { r with cacr := value }
  | usp => { r with usp := value }
  | vbr => { r with vbr := value }

end ControlRegister

/-- The control register with a code; a missing one is an illegal instruction. -/
def controlRegister (code : UInt16) : Exec ControlRegister := do
  match ControlRegister.ofCode? (← get).chip code with
  | some c => return c
  | none => raise .illegalInstruction

/-- Sum or difference with the status after it. -/
def Arith.apply (op : Arith) (src dst : UInt32) (size : Size) (sr : Status) : UInt32 × Status :=
  match op with
  | add => Cpu68k.add src dst size sr
  | sub => Cpu68k.sub src dst size sr

/-- Sum or difference of all 32 bits. -/
def Arith.onAddress (op : Arith) (src dst : UInt32) : UInt32 :=
  match op with
  | add => dst + src
  | sub => dst - src

/-- The bitwise operation on longs. -/
def Logic.apply (op : Logic) (x y : UInt32) : UInt32 :=
  match op with
  | and => x &&& y
  | or => x ||| y
  | eor => x ^^^ y

/-- The bitwise operation on words. -/
def Logic.onStatus (op : Logic) (x y : UInt16) : UInt16 :=
  match op with
  | and => x &&& y
  | or => x ||| y
  | eor => x ^^^ y

/-- An operation on two operands with the status after it. -/
def Binary.apply (op : Binary) (src dst : UInt32) (size : Size) (sr : Status) :
    UInt32 × Status :=
  match op with
  | arith op => op.apply src dst size sr
  | logic op =>
    let result := op.apply src dst &&& size.mask
    (result, sr.logical result size)

/-- The bytes of a number of the given size, highest first. -/
def Size.bytesOf (size : Size) (value : UInt32) : List UInt32 :=
  match size with
  | byte => [value]
  | word => [value >>> 8, value]
  | long => [value >>> 24, value >>> 16, value >>> 8, value]

/-- Writes bytes to every other address. -/
def storeAlternate (addr : UInt32) : List UInt32 → Exec Unit
  | [] => return ()
  | b :: bs => do
    writeData addr .byte b
    storeAlternate (addr + 2) bs

/-- Reads `n` bytes from every other address and appends them to `value`. -/
def loadAlternate (addr : UInt32) : Nat → UInt32 → Exec UInt32
  | 0, value => return value
  | n + 1, value => do
    let b ← readData addr .byte
    loadAlternate (addr + 2) n ((value <<< 8) ||| b)

/-- Sets the status after a value was moved. -/
def setLogical (value : UInt32) (size : Size) : Exec Unit :=
  modifyRegisters fun r => { r with sr := r.sr.logical value size }

/-- Widens a data register from one size to another. -/
def widen (n : Fin 8) (source result : Size) : Exec Unit := do
  let value := source.signExtend ((← get).registers.dataReg n) &&& result.mask
  (Place.dataReg n).write result value
  setLogical value result

/-- `LINK`: the register is pushed, takes the stack pointer, and the stack pointer
moves by the distance. The stack pointer itself is pushed as it is after the
push. -/
def linkFrame (n : Fin 8) (distance : UInt32) : Exec Unit := do
  let r := (← get).registers
  let sp := r.activeSp - 4
  writeData sp .long (if n.val = 7 then sp else r.addrReg n)
  modifyRegisters fun r => (r.setAddrReg n sp).setActiveSp (sp + distance)

/-- `UNLK`: the stack pointer takes the register, which is then popped. -/
def unlinkFrame (n : Fin 8) : Exec Unit := do
  let frame := (← get).registers.addrReg n
  let saved ← readData frame .long
  modifyRegisters fun r => (r.setActiveSp (frame + 4)).setAddrReg n saved

/-- Changes what the host sees. -/
def setState (state : RunState) : Exec Unit :=
  modify fun m => { m with state := state }

/-- Performs an operation. -/
def Operation.effect : Operation → Exec Unit
  | nop => return ()
  | illegal => raise .illegalInstruction
  | reset => return ()
  | trapV => do
    if (← get).registers.sr.has Status.overflow then raise .trapV
  | rte => returnFromException
  | rts => do setPc (← pop .long)
  | rtr => do
    let ccr ← pop .word
    let pc ← pop .long
    modifyRegisters fun r => { r.setCcr ccr.toUInt8 with pc := pc }
  | rtd distance => do
    let pc ← pop .long
    modifyRegisters fun r => { r.setActiveSp (r.activeSp + distance) with pc := pc }
  | stop sr => do
    let mask := (← get).chip.statusMask
    modifyRegisters fun r => r.setStatus sr mask
    setState .stopped
  | trap n => raise (.trap n.val.toUInt8)
  | breakpoint n => setState (.breakpoint n.val.toUInt8)
  | moveQuick value dst => do
    (Place.dataReg dst).write .long value
    setLogical value .long
  | exchange x y => modifyRegisters fun r => (r.set x (r.get y)).set y (r.get x)
  | swap n => do
    let value := (← get).registers.dataReg n
    let swapped := (value <<< 16) ||| (value >>> 16)
    (Place.dataReg n).write .long swapped
    setLogical swapped .long
  | extend .byteToWord n => widen n .byte .word
  | extend .wordToLong n => widen n .word .long
  | extend .byteToLong n => widen n .byte .long
  | link n distance => linkFrame n distance
  | unlink n => unlinkFrame n
  | moveToUsp n => modifyRegisters fun r => { r with usp := r.addrReg n }
  | moveFromUsp n => modifyRegisters fun r => r.setAddrReg n r.usp
  | movepToMemory size data addr => do
    storeAlternate addr (size.bytesOf ((← get).registers.dataReg data))
  | movepFromMemory size data addr => do
    let value ← loadAlternate addr size.bytes.toNat 0
    (Place.dataReg data).write size value
  | branch condition target => do
    if condition.holds (← get).registers.sr then setPc target
  | decrementBranch condition n target => do
    let r := (← get).registers
    if !condition.holds r.sr then
      let count := (r.dataReg n - 1) &&& 0xFFFF
      (Place.dataReg n).write .word count
      if count ≠ 0xFFFF then setPc target
  | setOnTest condition dst => do
    dst.write .byte (if condition.holds (← get).registers.sr then 0xFF else 0)
  | jump target => setPc target
  | call target => do
    push .long (← get).registers.pc
    setPc target
  | loadAddress addr n => (Place.addrReg n).write .long addr
  | pushAddress addr => push .long addr
  | move size src dst => do
    let value ← src.read size
    dst.write size value
    setLogical value size
  | moveAddress size src n => do
    let value ← src.read size
    (Place.addrReg n).write .long (size.signExtend value)
  | clear size dst => do
    dst.write size 0
    modifyRegisters fun r => { r with sr := r.sr.logical 0 size }
  | negate size dst => do
    let value ← dst.read size
    let (result, sr) := Cpu68k.negate value size (← get).registers.sr
    dst.write size result
    setStatusWord sr
  | complement size dst => do
    let value ← dst.read size
    let result := ~~~value &&& size.mask
    dst.write size result
    setLogical result size
  | test size src => do
    let value ← src.read size
    setLogical value size
  | moveFromSr dst => do dst.write .word (← get).registers.sr.bits.toUInt32
  | moveFromCcr dst => do dst.write .word (← get).registers.ccr.toUInt32
  | moveToCcr src => do
    let value ← src.read .word
    modifyRegisters fun r => r.setCcr value.toUInt8
  | moveToSr src => do
    let value ← src.read .word
    let mask := (← get).chip.statusMask
    modifyRegisters fun r => r.setStatus value.toUInt16 mask
  | logicToCcr op value =>
    modifyRegisters fun r => r.setCcr (op.onStatus r.ccr.toUInt16 value).toUInt8
  | logicToSr op value => do
    let mask := (← get).chip.statusMask
    modifyRegisters fun r => r.setStatus (op.onStatus r.sr.bits value) mask
  | moveFromControl code dst => do
    let c ← controlRegister code
    modifyRegisters fun r => r.set dst (c.read r)
  | moveToControl code src => do
    let c ← controlRegister code
    modifyRegisters fun r => c.write r (r.get src)
  | binary op size src dst => do
    let x ← src.read size
    let y ← dst.read size
    let (result, sr) := op.apply x y size (← get).registers.sr
    dst.write size result
    setStatusWord sr
  | arithAddress op size src n => do
    let value ← src.read size
    modifyRegisters fun r =>
      r.setAddrReg n (op.onAddress (size.signExtend value) (r.addrReg n))
  | compare size src dst => do
    let x ← src.read size
    let y ← dst.read size
    modifyRegisters fun r => { r with sr := compareStatus x y size r.sr }
  | compareAddress size src n => do
    let value ← src.read size
    modifyRegisters fun r =>
      { r with sr := compareStatus (size.signExtend value) (r.addrReg n) .long r.sr }

/-- Performs an instruction: its operands are resolved first, then its privilege
decides. A refused instruction takes back what resolving did to the registers. -/
def Instruction.perform (i : Instruction) : Exec Unit := do
  let m ← get
  if i.privilege.permits m.chip m.registers.isSupervisor then
    let operation ← i.resolve
    operation.effect
  else
    let before := m.registers
    let _ ← i.resolve
    modifyRegisters fun _ => before
    raise .privilegeViolation

end Cpu68k
