import Cpu68k.Proofs.Stacking
import Cpu68k.Step

/-!
# Returning from exceptions

Taking an exception and returning from it are inverse: the status word, the
program counter and the stack pointer come back, whatever the handler has done to
the other registers and to the memory outside the frame. On the chip without a
format word a handler has to drop the description of the bus cycle first.
-/

namespace Cpu68k

variable {m m' h : Machine} {frame : List FrameItem} {offset : UInt16}

/-- An exception is taken if its handler can be entered. -/
theorem Machine.takeException_eq_true (hfits : frameBytes frame < UInt32.size) :
    (m.takeException frame offset).val = (true, m') → m.Entered frame offset m' := by
  intro htaken
  have hends := ends_enterHandler (m := m) offset hfits
  rw [takeException] at htaken
  cases henter : enterHandler frame offset m with
  | ok u m₁ =>
    rw [henter] at htaken
    cases htaken
    exact hends.of_ok henter
  | error a m₁ =>
    rw [henter] at htaken
    cases htaken

/-- A state from which the handler of the exception that led from `m` to `m'` can
return: the bytes of the frame are those that were stacked, and the stack pointer
is `dropped` bytes above them. -/
structure Machine.CanReturn (m m' : Machine) (dropped : UInt32) (h : Machine) : Prop where
  /-- It is the same chip. -/
  chip : h.chip = m'.chip
  /-- It is in supervisor mode. -/
  mode : h.registers.isSupervisor = true
  /-- The stack pointer is the one that the exception left, or above it. -/
  ssp : h.registers.ssp = m'.registers.ssp + dropped
  /-- The regions of the memory are the same. -/
  outline : h.space.outline = m'.space.outline
  /-- The bytes between the new and the old stack pointer are the same. -/
  bytes : ∀ k < m.registers.ssp - m'.registers.ssp,
    h.space.byte? (m'.registers.ssp + k) = m'.space.byte? (m'.registers.ssp + k)

/-- The machine with the status word, the program counter and the supervisor's stack
pointer of another. -/
def Machine.restored (h m : Machine) : Machine :=
  { h with registers := { h.registers with
      sr := m.registers.sr, pc := m.registers.pc, ssp := m.registers.ssp } }

/-- The frame still lies in memory when the handler returns. -/
theorem Machine.CanReturn.stacks {dropped : UInt32} (hreturn : m.CanReturn m' dropped h)
    (hfits : frameBytes frame < UInt32.size) (hentered : m.Entered frame offset m') :
    h.Stacks m'.registers.ssp frame := by
  have hssp : m'.registers.ssp = m.registers.ssp - frameSize frame := by
    rw [hentered.machine]
    rfl
  have hstored := hentered.stored
  rw [← hssp] at hstored
  refine hstored.congr hfits hreturn.chip hreturn.outline fun k hk => hreturn.bytes k ?_
  have hsize : m.registers.ssp - m'.registers.ssp = frameSize frame := by
    rw [hssp]
    grind
  rwa [hsize]

/-- What follows a part of a frame lies behind it. -/
theorem Machine.Stacks.drop {addr : UInt32} {front : List FrameItem}
    (hstacks : m.Stacks addr (front ++ frame)) : m.Stacks (addr + frameSize front) frame := by
  induction front generalizing addr with
  | nil =>
    have hsize : addr + frameSize [] = addr := UInt32.add_zero addr
    rwa [hsize]
  | cons item front ih =>
    have hnext := ih hstacks.2
    rwa [UInt32.add_assoc, ← frameSize_cons] at hnext

/-- The length of the frame that a format word announces, or six bytes on a chip
without format words. -/
def Machine.Announces (h : Machine) (addr length : UInt32) : Prop :=
  if h.chip.features.formatWord then
    ∃ word, h.load addr .word .supervisorData = .ok word ∧ frameLength? word = some length
  else length = 6

/-- Returning takes the status word and the program counter from the stack pointer. -/
theorem returnFromException_eq {sr : Status} {pc length : UInt32} {sp : UInt32}
    (hmode : h.registers.isSupervisor = true) (hsp : h.registers.ssp = sp)
    (hstacks : h.Stacks sp [.word sr.bits, .long pc]) (hlength : h.Announces (sp + 6) length)
    (hbits : sr.bits &&& ~~~h.chip.statusMask = 0) :
    returnFromException h = .ok () { h with registers := { h.registers with
      sr := sr, pc := pc, ssp := sp + length } } := by
  obtain ⟨hsr, hpc, -⟩ := hstacks
  have hactive : h.registers.activeSp = sp := by
    rw [← hsp]
    exact if_pos hmode
  have hspace : h.dataSpace = .supervisorData := by
    rw [Machine.dataSpace, hmode]
    rfl
  have hset : { (h.registers.setActiveSp (sp + length)).setStatus
      (FrameItem.word sr.bits).value.toUInt16 h.chip.statusMask with pc := pc } =
      { h.registers with sr := sr, pc := pc, ssp := sp + length } := by
    rw [RegisterFile.setActiveSp, if_pos hmode, RegisterFile.setStatus, FrameItem.value,
      UInt16.toUInt16_toUInt32, and_eq_self_of_covered hbits]
  refine Ends.eq_ok ?_
  unfold returnFromException
  rw [ends_bind, ends_get]
  dsimp only
  rw [hactive, ends_bind, ends_readData_of_load (by rwa [hspace]), ends_bind,
    ends_readData_of_load (by rwa [hspace])]
  rw [Machine.Announces] at hlength
  by_cases hformat : h.chip.features.formatWord = true
  · rw [if_pos hformat] at hlength
    obtain ⟨word, hword, hframe⟩ := hlength
    rw [if_pos hformat, ends_bind, ends_readData_of_load (by rwa [hspace])]
    simp only [hframe]
    rw [ends_bind, ends_pure, ends_modifyRegisters]
    exact ⟨trivial, congrArg (fun r => { h with registers := r }) hset⟩
  · rw [if_neg hformat] at hlength
    subst hlength
    rw [if_neg hformat, ends_bind, ends_pure, ends_modifyRegisters]
    exact ⟨rfl, congrArg (fun r => { h with registers := r }) hset⟩

/-! ### The frames that are stacked -/

/-- A number of twelve bits adds nothing to the four bits above them. -/
theorem or_shiftRight_twelve (format offset : UInt16) :
    (format ||| (offset &&& 0x0FFF)).toUInt32 >>> 12 = format.toUInt32 >>> 12 := by
  refine UInt32.toNat_inj.1 ?_
  have hlow : (offset.toNat &&& (2 ^ 12 - 1)) >>> 12 = 0 := by
    rw [Nat.and_two_pow_sub_one_eq_mod, Nat.shiftRight_eq_div_pow]
    omega
  rw [UInt32.toNat_shiftRight, UInt32.toNat_shiftRight]
  change (format.toNat ||| (offset.toNat &&& (2 ^ 12 - 1))) >>> 12 = format.toNat >>> 12
  rw [Nat.shiftRight_or_distrib, hlow, Nat.or_zero]

/-- The format word of a short frame announces its length. -/
theorem frameLength?_short (offset : UInt16) :
    frameLength? (offset &&& 0x0FFF).toUInt32 = some 8 := by
  have hformat := or_shiftRight_twelve 0 offset
  rw [UInt16.zero_or] at hformat
  rw [frameLength?, hformat]
  rfl

/-- The format word of a long frame announces its length. -/
theorem frameLength?_long (offset : UInt16) :
    frameLength? (0x6000 ||| (offset &&& 0x0FFF)).toUInt32 = some 20 := by
  rw [frameLength?, or_shiftRight_twelve]
  rfl

/-- A short frame is smaller than the address space. -/
theorem shortFrame_fits (chip : Chip) (sr : Status) (pc : UInt32) (offset : UInt16) :
    frameBytes (shortFrame chip sr pc offset) < UInt32.size := by
  unfold shortFrame
  split <;> simp [frameBytes, FrameItem.size, Size.bytes, UInt32.size]

/-- A long frame is smaller than the address space. -/
theorem longFrame_fits (chip : Chip) (sr : Status) (pc : UInt32) (offset : UInt16)
    (instructionAddress : UInt32) (cycle : BusCycle) (opcode : UInt16) :
    frameBytes (longFrame chip sr pc offset instructionAddress cycle opcode) < UInt32.size := by
  unfold longFrame
  split <;> simp [frameBytes, FrameItem.size, Size.bytes, UInt32.size]

/-- On a chip with format words the third field of a frame announces its length. -/
theorem announces_of_stacks {sp length : UInt32} {sr format : UInt16} {pc : UInt32}
    (hformat : h.chip.features.formatWord = true)
    (hstacks : h.Stacks sp (.word sr :: .long pc :: .word format :: frame))
    (hlength : frameLength? format.toUInt32 = some length) : h.Announces (sp + 6) length := by
  obtain ⟨-, -, hword, -⟩ := hstacks
  rw [UInt32.add_assoc] at hword
  rw [Machine.Announces, if_pos hformat]
  exact ⟨_, hword, hlength⟩

/-- A return that finds the status word, the program counter and the right length in
the frame gives back the machine before the exception. -/
theorem Machine.CanReturn.returns {dropped length : UInt32} {rest : List FrameItem}
    (hreturn : m.CanReturn m' dropped h) (hentered : m.Entered frame offset m')
    (hbits : m.registers.sr.bits &&& ~~~m.chip.statusMask = 0)
    (hstacks : h.Stacks h.registers.ssp
      (.word m.registers.sr.bits :: .long m.registers.pc :: rest))
    (hlength : h.Announces (h.registers.ssp + 6) length)
    (hsize : frameSize frame = dropped + length) :
    returnFromException h = .ok () (h.restored m) := by
  have hchip : h.chip = m.chip := by
    rw [hreturn.chip, hentered.machine]
    rfl
  have hssp : h.registers.ssp + length = m.registers.ssp := by
    rw [hreturn.ssp, hentered.machine]
    change m.registers.ssp - frameSize frame + dropped + length = m.registers.ssp
    rw [hsize]
    grind
  rw [returnFromException_eq hreturn.mode rfl ⟨hstacks.1, hstacks.2.1, trivial⟩ hlength
    (by rwa [hchip]), hssp]
  rfl

/-- A return undoes an exception with a short frame. -/
theorem returns_of_takeShort (hbits : m.registers.sr.bits &&& ~~~m.chip.statusMask = 0)
    (htaken : (m.takeShort offset).val = (true, m')) (hreturn : m.CanReturn m' 0 h) :
    returnFromException h = .ok () (h.restored m) := by
  have hentered := Machine.takeException_eq_true (shortFrame_fits ..) htaken
  have hstacks := hreturn.stacks (shortFrame_fits ..) hentered
  have hchip : h.chip = m.chip := by
    rw [hreturn.chip, hentered.machine]
    rfl
  have hssp : m'.registers.ssp = h.registers.ssp := by
    rw [hreturn.ssp, UInt32.add_zero]
  rw [hssp] at hstacks
  rw [shortFrame] at hstacks hentered
  by_cases hformat : m.chip.features.formatWord = true
  · rw [if_pos hformat] at hstacks hentered
    have hlength := announces_of_stacks (by rwa [hchip]) hstacks (frameLength?_short offset)
    exact hreturn.returns hentered hbits hstacks hlength rfl
  · rw [if_neg hformat] at hstacks hentered
    have hlength : h.Announces (h.registers.ssp + 6) 6 := by
      rw [Machine.Announces, hchip, if_neg hformat]
    exact hreturn.returns hentered hbits hstacks hlength rfl

/-- All chips but the first one stack format words. -/
theorem formatWord_eq (chip : Chip) : chip.features.formatWord = !(chip == .mc68000) := by
  cases chip <;> rfl

/-- A return undoes an exception with a long frame. On the first chip the description of the bus
cycle, which is eight bytes, has been dropped before. -/
theorem returns_of_takeLong {instructionAddress : UInt32} {cycle : BusCycle}
    (hbits : m.registers.sr.bits &&& ~~~m.chip.statusMask = 0)
    (htaken : (m.takeLong offset instructionAddress cycle).val = (true, m'))
    (hreturn : m.CanReturn m' (if m.chip = .mc68000 then 8 else 0) h) :
    returnFromException h = .ok () (h.restored m) := by
  have hentered := Machine.takeException_eq_true (longFrame_fits ..) htaken
  have hstacks := hreturn.stacks (longFrame_fits ..) hentered
  have hchip : h.chip = m.chip := by
    rw [hreturn.chip, hentered.machine]
    rfl
  have hssp := hreturn.ssp
  rw [longFrame] at hstacks hentered
  by_cases hfirst : m.chip = .mc68000
  · have hformat : ¬ m.chip.features.formatWord = true := by simp [hfirst, Chip.features]
    rw [if_pos hfirst] at hreturn hssp
    rw [if_neg hformat] at hstacks hentered
    -- The description of the cycle lies in front of a short frame.
    have hshort : h.Stacks (m'.registers.ssp +
        frameSize [.word cycle.accessWord, .long cycle.addr, .word m.opcode])
        [.word m.registers.sr.bits, .long m.registers.pc] := hstacks.drop
    have hlength : h.Announces (h.registers.ssp + 6) 6 := by
      rw [Machine.Announces, hchip, if_neg hformat]
    exact hreturn.returns hentered hbits (hssp ▸ hshort) hlength rfl
  · have hformat : m.chip.features.formatWord = true := by
      rw [formatWord_eq]
      simpa using hfirst
    rw [if_neg hfirst] at hreturn hssp
    rw [UInt32.add_zero] at hssp
    rw [← hssp, if_pos hformat] at hstacks
    rw [if_pos hformat] at hentered
    have hlength := announces_of_stacks (by rwa [hchip]) hstacks (frameLength?_long offset)
    exact hreturn.returns hentered hbits hstacks hlength rfl

/-- Taking an exception and returning from it are inverse on every chip. From every
state in which the handler still has the bytes of the frame and the stack pointer
that the exception left, or on the first chip the stack pointer behind the
description of a bus cycle, a return succeeds and changes the status word, the
program counter and the supervisor's stack pointer only: they are what they were
before the exception. -/
theorem returnFromException_restores (m : Machine) (offset : UInt16)
    (hbits : m.registers.sr.bits &&& ~~~m.chip.statusMask = 0) :
    (∀ m' h, (m.takeShort offset).val = (true, m') → m.CanReturn m' 0 h →
      returnFromException h = .ok () (h.restored m)) ∧
    ∀ instructionAddress cycle m' h,
      (m.takeLong offset instructionAddress cycle).val = (true, m') →
      m.CanReturn m' (if m.chip = .mc68000 then 8 else 0) h →
      returnFromException h = .ok () (h.restored m) := by
  constructor
  · intro m' h htaken hreturn
    exact returns_of_takeShort hbits htaken hreturn
  · intro instructionAddress cycle m' h htaken hreturn
    exact returns_of_takeLong hbits htaken hreturn

/-- A machine with 64 bytes of memory. -/
def Machine.small (chip : Chip) : Machine :=
  { Machine.initial chip .vector (.flat ⟨.general, ⟨Array.replicate 64 0⟩⟩) with
    registers := { RegisterFile.initial with ssp := 64, pc := 0x1234, usp := 32, sr := ⟨0x0015⟩ }
    state := .normal }

/-- A handler of the first chip that has changed a register and dropped the
description of a bus cycle returns to the program that it has interrupted. -/
theorem returnFromException_restores_small :
    let m := Machine.small .mc68000
    let cycle : BusCycle := ⟨0x9999, .write, .userData⟩
    let m' := (m.takeLong 8 0x1230 cycle).val.2
    let h := { m' with registers :=
      { m'.registers.setDataReg 0 7 with ssp := m'.registers.ssp + 8 } }
    m.registers.sr.bits &&& ~~~m.chip.statusMask = 0 ∧
      (m.takeLong 8 0x1230 cycle).val = (true, m') ∧ m.CanReturn m' 8 h ∧
      returnFromException h = .ok () (h.restored m) := by
  intro m cycle m' h
  have hbits : m.registers.sr.bits &&& ~~~m.chip.statusMask = 0 := by decide
  have htaken : (m.takeLong 8 0x1230 cycle).val = (true, m') :=
    Prod.ext (by decide +kernel) rfl
  have hreturn : m.CanReturn m' 8 h :=
    ⟨rfl, by decide +kernel, rfl, rfl, fun _ _ => rfl⟩
  exact ⟨hbits, htaken, hreturn,
    (returnFromException_restores m 8 hbits).2 0x1230 cycle m' h htaken hreturn⟩

end Cpu68k
