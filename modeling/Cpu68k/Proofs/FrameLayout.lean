import Cpu68k.Proofs.Bytes
import Cpu68k.Proofs.Stepping

/-!
# The layout of exception frames

A frame that has been stacked is a row of bytes from the new stack pointer up, field
by field with the highest byte first. Taking an exception writes these bytes and no
others, sets the supervisor bit, clears the trace bits, and goes on at the address in
the vector. Where an exception cannot be taken the machine halts, and no more than the
status word, the stack pointer and bytes of the frame has changed.
-/

namespace Cpu68k

/-- The bytes of a frame, from the lowest address up. -/
def frameRow (frame : List FrameItem) : List UInt8 :=
  frame.flatMap fun item => item.size.rowOf item.value

variable {m m' : Machine} {frame : List FrameItem} {offset : UInt16} {length : UInt32}

/-- Fields that lie one behind the other do so byte by byte. -/
theorem Machine.Stacks.holds {addr : UInt32} (h : m.Stacks addr frame) :
    m.space.Holds addr (frameRow frame) := by
  induction frame generalizing addr with
  | nil => trivial
  | cons item frame ih =>
    obtain ⟨hfirst, hrest⟩ := h
    rw [frameRow, List.flatMap_cons, Space.holds_append, Size.length_rowOf]
    exact ⟨Machine.holds_of_load hfirst, ih hrest⟩

namespace Machine

/-- The machine in the status of a handler: the supervisor bit is set and the two trace
bits are clear. -/
def inHandler (m : Machine) (ssp pc : UInt32) (space : Space) (state : RunState) : Machine :=
  { m with
    registers := { m.registers with
      sr := ⟨(m.registers.sr.bits ||| 0x2000) &&& ~~~0xC000⟩, ssp := ssp, pc := pc }
    space := space
    state := state }

/-- What taking an exception does, with its frame from the stack pointer up. -/
structure Took (m : Machine) (offset : UInt16) (length : UInt32) (frame : List FrameItem)
    (m' : Machine) : Prop where
  /-- Only the status word, the stack pointer, the program counter and the memory
  differ. The stack pointer is lower by the length of the frame. -/
  machine : m' = m.inHandler (m.registers.ssp - length) m'.registers.pc m'.space m.state
  /-- The bytes of the frame lie at the stack pointer. -/
  frame : m'.space.Holds m'.registers.ssp (frameRow frame)
  /-- Only these bytes have changed. -/
  footprint : m.space.AgreeOutside m'.registers.ssp length m'.space
  /-- The program counter is the contents of the vector, as memory stands with the
  frame. -/
  vector : m'.space.read ((if m.chip = .mc68000 then 0 else m.registers.vbr) + offset.toUInt32)
    4 .supervisorData .read = .ok m'.registers.pc

/-- What is left where an exception cannot be taken. -/
structure Failed (m : Machine) (length : UInt32) (m' : Machine) : Prop where
  /-- The machine has halted, and only the status word, the stack pointer and the memory
  differ. -/
  machine : ∃ ssp, m' = m.inHandler ssp m.registers.pc m'.space .halted
  /-- Only bytes of the frame have changed. -/
  footprint : m.space.AgreeOutside (m.registers.ssp - length) length m'.space

/-- The answer to an exception with a frame: it is taken, or it fails. -/
structure Answers (m : Machine) (offset : UInt16) (length : UInt32) (frame : List FrameItem)
    (result : Bool × Machine) : Prop where
  /-- The frame has its length in bytes. -/
  size : (frameRow frame).length = length.toNat
  /-- The exception was taken. -/
  taken : result.1 = true → m.Took offset length frame result.2
  /-- The exception could not be taken. -/
  failed : result.1 = false → m.Failed length result.2

/-- Taking an exception with a frame of some length answers with this frame. -/
theorem answers_takeException (hlength : frameBytes frame = length.toNat)
    (hsize : (frameRow frame).length = length.toNat) :
    m.Answers offset length frame (m.takeException frame offset).val := by
  have hfits : frameBytes frame < UInt32.size := by
    rw [hlength]
    exact length.toNat_lt
  have hframe : frameSize frame = length := by
    rw [frameSize, hlength, UInt32.ofNat_toNat]
  rcases @takeException_cases m frame offset hfits with
    ⟨m₁, hval, hentered⟩ | ⟨a, m₁, hval, hrefused⟩
  · refine ⟨hsize, fun _ => ?_, fun h => by simp [hval] at h⟩
    obtain ⟨hmachine, hfootprint, hstored, hvector⟩ := hentered
    have hssp : m₁.registers.ssp = m.registers.ssp - frameSize frame := by rw [hmachine]; rfl
    rw [hval]
    rw [← hssp] at hfootprint hstored
    rw [hframe] at hmachine hfootprint
    rw [vectorAddress_eq] at hvector
    exact ⟨hmachine, hstored.holds, hfootprint, hvector⟩
  · refine ⟨hsize, fun h => by simp [hval] at h, fun _ => ?_⟩
    obtain ⟨⟨ssp, hmachine⟩, hfootprint, -⟩ := hrefused
    rw [hval]
    rw [hframe] at hfootprint
    exact ⟨⟨ssp, by rw [hmachine]; rfl⟩, hfootprint⟩

/-- Exception frames have the documented layout. The first chip stacks the status word
and the program counter, and for a failed bus cycle the access word, the address and
the opcode below them. The later chips stack a format word above the status word and
the program counter, and for a failed bus cycle the addresses of the instruction and of
the access, the access word and the opcode above it. -/
theorem exception_layout (m : Machine) (offset : UInt16) (instructionAddress : UInt32)
    (cycle : BusCycle) :
    (m.chip = .mc68000 →
      m.Answers offset 6 [.word m.registers.sr.bits, .long m.registers.pc]
        (m.takeShort offset).val ∧
      m.Answers offset 14
        [.word cycle.accessWord, .long cycle.addr, .word m.opcode, .word m.registers.sr.bits,
          .long m.registers.pc]
        (m.takeLong offset instructionAddress cycle).val) ∧
    (m.chip ≠ .mc68000 →
      m.Answers offset 8
        [.word m.registers.sr.bits, .long m.registers.pc, .word (offset &&& 0x0FFF)]
        (m.takeShort offset).val ∧
      m.Answers offset 20
        [.word m.registers.sr.bits, .long m.registers.pc,
          .word (0x6000 ||| (offset &&& 0x0FFF)), .long instructionAddress, .long cycle.addr,
          .word cycle.accessWord, .word m.opcode]
        (m.takeLong offset instructionAddress cycle).val) := by
  constructor
  · intro hfirst
    have hformat : ¬ m.chip.features.formatWord = true := by simp [hfirst, Chip.features]
    rw [takeShort, takeLong, shortFrame, longFrame, if_neg hformat, if_neg hformat]
    exact ⟨answers_takeException rfl rfl, answers_takeException rfl rfl⟩
  · intro hlater
    have hformat : m.chip.features.formatWord = true := by
      rw [formatWord_eq]
      simpa using hlater
    rw [takeShort, takeLong, shortFrame, longFrame, if_pos hformat, if_pos hformat]
    exact ⟨answers_takeException rfl rfl, answers_takeException rfl rfl⟩

/-- Two chips that take a bus error, with 64 bytes of memory. -/
theorem exception_layout_small :
    let cycle : BusCycle := ⟨0x9999, .write, .userData⟩
    let first := Machine.small .mc68000
    let later := Machine.small .mc68020
    first.chip = .mc68000 ∧ later.chip ≠ .mc68000 ∧
      (first.takeLong 8 0x1230 cycle).val.1 = true ∧
      first.Took 8 14 [.word 0x0009, .long 0x9999, .word 0, .word 0x0015, .long 0x1234]
        (first.takeLong 8 0x1230 cycle).val.2 ∧
      (later.takeLong 8 0x1230 cycle).val.1 = true ∧
      later.Took 8 20 [.word 0x0015, .long 0x1234, .word 0x6008, .long 0x1230, .long 0x9999,
        .word 0x0009, .word 0] (later.takeLong 8 0x1230 cycle).val.2 := by
  intro cycle first later
  have hlater : later.chip ≠ .mc68000 := by decide
  have hfirst : (first.takeLong 8 0x1230 cycle).val.1 = true := by decide +kernel
  have htaken : (later.takeLong 8 0x1230 cycle).val.1 = true := by decide +kernel
  have haccess : cycle.accessWord = 0x0009 := by decide
  have hformat : (0x6000 ||| (8 &&& 0x0FFF) : UInt16) = 0x6008 := by decide
  have hshort := ((exception_layout first 8 0x1230 cycle).1 rfl).2.taken hfirst
  have hlong := ((exception_layout later 8 0x1230 cycle).2 hlater).2.taken htaken
  rw [haccess] at hshort hlong
  rw [hformat] at hlong
  exact ⟨rfl, hlater, hfirst, hshort, htaken, hlong⟩

end Machine

end Cpu68k
