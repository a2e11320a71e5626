import Cpu68k.Machine

/-!
# Exception frames

An exception stacks a frame on the supervisor stack and continues at the address
in its vector. Frames are written down here as their contents from the lowest
address up; they are pushed from the highest one down. `returnFromException`
reads the frame back by offsets.
-/

namespace Cpu68k

/-- One field of a frame. -/
inductive FrameItem
  | word (value : UInt16)
  | long (value : UInt32)
  deriving DecidableEq

/-- Pushes one field. -/
def FrameItem.push : FrameItem → Exec Unit
  | word value => Cpu68k.push .word value.toUInt32
  | long value => Cpu68k.push .long value

/-- Pushes a frame, so that its first field ends at the lowest address. -/
def pushFrame : List FrameItem → Exec Unit
  | [] => return ()
  | item :: items => do
    pushFrame items
    item.push

/-- The short frame: the status word and the program counter, and on the chips
with a format word that word, whose format is 0. -/
def shortFrame (chip : Chip) (sr : Status) (pc : UInt32) (offset : UInt16) : List FrameItem :=
  if chip.features.formatWord then [.word sr.bits, .long pc, .word (offset &&& 0x0FFF)]
  else [.word sr.bits, .long pc]

/-- The long frame of a failed bus cycle. With a format word, whose format is 6, it
extends the short frame; without one the description of the cycle comes first. -/
def longFrame (chip : Chip) (sr : Status) (pc : UInt32) (offset : UInt16)
    (instructionAddress : UInt32) (cycle : BusCycle) (opcode : UInt16) : List FrameItem :=
  if chip.features.formatWord then
    [.word sr.bits, .long pc, .word (0x6000 ||| (offset &&& 0x0FFF)), .long instructionAddress,
      .long cycle.addr, .word cycle.accessWord, .word opcode]
  else
    [.word cycle.accessWord, .long cycle.addr, .word opcode, .word sr.bits, .long pc]

/-- The status word with which a handler starts: supervisor mode, no trace. -/
def Status.handler (sr : Status) : Status :=
  (sr.assign Status.supervisor true).assign Status.traceBits false

/-- The address of a vector. Chips without a vector base register have their
table at address zero. -/
def Machine.vectorAddress (m : Machine) (offset : UInt16) : UInt32 :=
  (if m.chip.features.vectorBase then m.registers.vbr else 0) + offset.toUInt32

/-- Continues at the address in a vector. A vector that cannot be read is a bus
error, and nothing else is recorded about it. -/
def jumpThroughVector (offset : UInt16) : Exec Unit := do
  let m ← get
  let addr := m.vectorAddress offset
  match m.space.read addr 4 .supervisorData .read with
  | .error _ => raise (.busError ⟨addr, .read, .supervisorData⟩)
  | .ok pc => setPc pc

/-- Switches to the supervisor, stacks a frame and continues at the handler. -/
def enterHandler (frame : List FrameItem) (offset : UInt16) : Exec Unit := do
  modifyRegisters fun r => { r with sr := r.sr.handler }
  pushFrame frame
  jumpThroughVector offset

/-- The length of a frame by the format in its format word. -/
def frameLength? (formatWord : UInt32) : Option UInt32 :=
  if formatWord >>> 12 = 0 then some 8
  else if formatWord >>> 12 = 6 then some 20
  else none

/-- Returns from an exception: the status word and the program counter come back
from the frame at the stack pointer, which moves past the frame. Nothing changes
until the whole frame has been read. -/
def returnFromException : Exec Unit := do
  let m ← get
  let sp := m.registers.activeSp
  let sr ← readData sp .word
  let pc ← readData (sp + 2) .long
  let length ←
    if m.chip.features.formatWord then
      match frameLength? (← readData (sp + 6) .word) with
      | some length => pure length
      | none => raise .formatError
    else pure 6
  modifyRegisters fun r =>
    { (r.setActiveSp (sp + length)).setStatus sr.toUInt16 m.chip.statusMask with pc := pc }

end Cpu68k
