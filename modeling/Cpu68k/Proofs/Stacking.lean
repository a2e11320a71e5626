import Cpu68k.Frame
import Cpu68k.Proofs.Footprint
import Cpu68k.Proofs.Registers
import Mathlib.Algebra.GroupWithZero.Nat

/-!
# Stacking and entering

A frame that has been pushed lies on the supervisor's stack field by field, its
first field at the stack pointer. Pushing changes that range of memory and the
supervisor's stack pointer only, and entering a handler adds the status word and
the program counter. Where stacking fails, the same range and registers have
changed.
-/

namespace Cpu68k

namespace FrameItem

/-- The size of a field. -/
def size : FrameItem → Size
  | word _ => .word
  | long _ => .long

/-- The contents of a field as a number. -/
def value : FrameItem → UInt32
  | word value => value.toUInt32
  | long value => value

/-- A field is pushed as a number of its size. -/
theorem push_eq (item : FrameItem) : item.push = Cpu68k.push item.size item.value := by
  cases item <;> rfl

/-- A field has no bits above its size. -/
theorem value_and_mask (item : FrameItem) : item.value &&& item.size.mask = item.value := by
  cases item with
  | word value =>
    refine UInt32.toNat_inj.1 ?_
    change value.toNat &&& (2 ^ 16 - 1) = value.toNat
    rw [Nat.and_two_pow_sub_one_eq_mod]
    exact Nat.mod_eq_of_lt value.toNat_lt
  | long value => exact UInt32.and_neg_one

end FrameItem

/-- The number of bytes of a frame. -/
def frameBytes (items : List FrameItem) : Nat :=
  (items.map fun item => item.size.bytes.toNat).sum

/-- The number of bytes of a frame, modulo 2^32. -/
def frameSize (items : List FrameItem) : UInt32 :=
  .ofNat (frameBytes items)

/-- The bytes of a field and of those behind it, modulo 2^32. -/
theorem frameSize_cons (item : FrameItem) (items : List FrameItem) :
    frameSize (item :: items) = item.size.bytes + frameSize items := by
  rw [frameSize, frameBytes, List.map_cons, List.sum_cons, UInt32.ofNat_add, UInt32.ofNat_toNat]
  rfl

/-- The bytes of a field and of those behind it. -/
theorem frameBytes_cons (item : FrameItem) (items : List FrameItem) :
    frameBytes (item :: items) = item.size.bytes.toNat + frameBytes items := by
  simp [frameBytes]

/-- Frames smaller than the address space take their exact number of bytes. -/
theorem toNat_frameSize {items : List FrameItem} (hfits : frameBytes items < UInt32.size) :
    (frameSize items).toNat = frameBytes items :=
  UInt32.toNat_ofNat_of_lt' hfits

/-- The fields of a frame lie one behind the other from an address on. -/
def Machine.Stacks (m : Machine) : UInt32 → List FrameItem → Prop
  | _, [] => True
  | addr, item :: items => m.load addr item.size .supervisorData = .ok item.value ∧
    m.Stacks (addr + item.size.bytes) items

variable {m m' : Machine} {items : List FrameItem} {addr : UInt32}

/-- Whether a frame lies at an address depends on the bytes there only. -/
theorem Machine.Stacks.congr (hfits : frameBytes items < UInt32.size)
    (hchip : m'.chip = m.chip) (houtline : m'.space.outline = m.space.outline)
    (hbytes : ∀ k < frameSize items, m'.space.byte? (addr + k) = m.space.byte? (addr + k))
    (h : m.Stacks addr items) : m'.Stacks addr items := by
  induction items generalizing addr with
  | nil => trivial
  | cons item items ih =>
    rw [frameBytes_cons] at hfits
    have hsize : (frameSize items).toNat = frameBytes items := toNat_frameSize (by omega)
    have hall : (frameSize (item :: items)).toNat = item.size.bytes.toNat + frameBytes items := by
      rw [toNat_frameSize (by rwa [frameBytes_cons]), frameBytes_cons]
    refine ⟨Machine.load_congr hchip houtline (fun k hk => hbytes k ?_) h.1,
      ih (by omega) (fun k hk => ?_) h.2⟩
    · rw [UInt32.lt_iff_toNat_lt] at hk ⊢
      omega
    · have hlt : item.size.bytes + k < frameSize (item :: items) := by
        rw [UInt32.lt_iff_toNat_lt] at hk ⊢
        rw [toNat_add_of_lt (by omega)]
        omega
      have hbyte := hbytes _ hlt
      rwa [← UInt32.add_assoc] at hbyte

/-- What pushing a frame does. -/
structure Machine.FramePushed (m : Machine) (items : List FrameItem) (m' : Machine) : Prop where
  /-- Only the stack pointer and the memory differ. -/
  machine : m' = m.withStack (m.registers.ssp - frameSize items) m'.space
  /-- Only the bytes of the frame have changed. -/
  footprint : m.space.AgreeOutside (m.registers.ssp - frameSize items) (frameSize items) m'.space
  /-- The frame lies at the stack pointer. -/
  stored : m'.Stacks (m.registers.ssp - frameSize items) items

/-- What pushing a frame has done where it fails: some bytes of the frame may have
been written, and an access was refused. -/
structure Machine.FrameRefused (m : Machine) (items : List FrameItem) (a : Abort) (m' : Machine) :
    Prop where
  /-- Only the stack pointer and the memory differ. -/
  machine : ∃ ssp, m' = m.withStack ssp m'.space
  /-- Only bytes of the frame have changed. -/
  footprint : m.space.AgreeOutside (m.registers.ssp - frameSize items) (frameSize items) m'.space
  /-- An access was refused. -/
  fault : a.fault.cycle?.isSome

/-- Pushing a frame stores it below the stack pointer, or is refused at one of its bytes. -/
theorem ends_pushFrame (hfits : frameBytes items < UInt32.size)
    (hmode : m.registers.isSupervisor = true) :
    Ends (pushFrame items) m (fun _ m' => m.FramePushed items m') (m.FrameRefused items) := by
  induction items with
  | nil =>
    have hsp : m.registers.ssp - frameSize [] = m.registers.ssp := UInt32.sub_zero _
    exact ⟨by rw [hsp]; rfl, Space.AgreeOutside.refl _ _ _, trivial⟩
  | cons item items ih =>
    rw [frameBytes_cons] at hfits
    have hsize : (frameSize items).toNat = frameBytes items := toNat_frameSize (by omega)
    -- The frame consists of the later fields and, below them, of the first one.
    have hall : frameSize (item :: items) = frameSize items + item.size.bytes := by
      rw [frameSize_cons, UInt32.add_comm]
    have hlater {s s' : Space} (h : s.AgreeOutside (m.registers.ssp - frameSize items)
        (frameSize items) s') : s.AgreeOutside (m.registers.ssp - frameSize (item :: items))
          (frameSize (item :: items)) s' := by
      rw [hall]
      exact h.widen_above (by omega)
    rw [pushFrame, ends_bind]
    refine (ih (by omega)).mono (fun _ m₁ h₁ => ?_) fun a m₁ h₁ =>
      ⟨h₁.machine, hlater h₁.footprint, h₁.fault⟩
    have hregisters :
        m₁.registers = { m.registers with ssp := m.registers.ssp - frameSize items } :=
      congrArg Machine.registers h₁.machine
    have hsp : m₁.registers.ssp = m.registers.ssp - frameSize items := by
      rw [hregisters]
    rw [item.push_eq]
    refine (ends_push ?_).mono (fun _ m₂ h₂ => ?_) fun a m₂ h₂ => ?_
    · rw [hregisters]
      exact hmode
    · obtain ⟨hmachine, hfootprint, hstored⟩ := h₂
      rw [hsp] at hmachine hfootprint hstored
      have hbottom : m.registers.ssp - frameSize (item :: items) =
          m.registers.ssp - frameSize items - item.size.bytes := by
        rw [hall]
        grind
      have hfirst := hfootprint.widen_below (by omega)
      rw [← hall] at hfirst
      refine ⟨?_, (hlater h₁.footprint).trans hfirst, ?_, ?_⟩
      · rw [hmachine, hbottom, h₁.machine]
        rfl
      · rwa [hbottom, ← item.value_and_mask]
      · have hnext : m.registers.ssp - frameSize (item :: items) + item.size.bytes =
            m.registers.ssp - frameSize items := by
          rw [hbottom]
          exact UInt32.sub_add_cancel _ _
        have hchip : m₂.chip = m₁.chip := by
          rw [hmachine]
          rfl
        rw [hnext]
        -- The first field does not reach into the later ones.
        refine h₁.stored.congr (by omega) hchip hfootprint.outline fun k hk => ?_
        rw [UInt32.lt_iff_toNat_lt] at hk
        exact hfootprint.byte?_above (by omega)
    · obtain ⟨rfl, hfault⟩ := h₂
      exact ⟨⟨_, h₁.machine⟩, hlater h₁.footprint, hfault⟩

/-! ### Handlers -/

/-- A handler starts in supervisor mode. -/
theorem Status.has_supervisor_handler (sr : Status) : sr.handler.has supervisor = true := by
  have hbits : sr.handler.bits &&& supervisor = supervisor := by
    change (sr.bits ||| supervisor) &&& ~~~traceBits &&& supervisor = supervisor
    rw [and_not_and_of_disjoint (by decide), UInt16.and_comm, UInt16.or_comm]
    refine word_ext fun i hi => ?_
    simp only [UInt16.toBitVec_and, UInt16.toBitVec_or, BitVec.getLsbD_and, BitVec.getLsbD_or]
    grind
  rw [has, hbits]
  rfl

/-- The first chip has its vectors at zero. -/
theorem Machine.vectorAddress_eq (m : Machine) (offset : UInt16) : m.vectorAddress offset =
    (if m.chip = .mc68000 then 0 else m.registers.vbr) + offset.toUInt32 := by
  unfold vectorAddress
  cases m.chip <;> rfl

/-- The program counter takes the contents of the vector, or nothing changes. -/
theorem ends_jumpThroughVector (offset : UInt16) : Ends (jumpThroughVector offset) m
    (fun _ m' => m.space.read (m.vectorAddress offset) 4 .supervisorData .read =
      .ok m'.registers.pc ∧ m' = m.withPc m'.registers.pc)
    fun a m' => m' = m ∧ a.fault.cycle?.isSome := by
  unfold jumpThroughVector
  rw [ends_bind, ends_get]
  dsimp only
  cases hread : m.space.read (m.vectorAddress offset) 4 .supervisorData .read with
  | error e => simp [Fault.cycle?]
  | ok pc => simp [Machine.withPc]

/-- The machine in supervisor mode, with another stack and program counter: what
entering a handler leaves. -/
def Machine.withHandler (m : Machine) (ssp pc : UInt32) (space : Space) : Machine :=
  { m with
    registers := { m.registers with sr := m.registers.sr.handler, ssp := ssp, pc := pc }
    space := space }

/-- What entering a handler through a frame and a vector does. -/
structure Machine.Entered (m : Machine) (frame : List FrameItem) (offset : UInt16) (m' : Machine) :
    Prop where
  /-- Only the status word, the stack pointer, the program counter and the memory
  differ. -/
  machine : m' = m.withHandler (m.registers.ssp - frameSize frame) m'.registers.pc m'.space
  /-- Only the bytes of the frame have changed. -/
  footprint : m.space.AgreeOutside (m.registers.ssp - frameSize frame) (frameSize frame) m'.space
  /-- The frame lies at the stack pointer. -/
  stored : m'.Stacks (m.registers.ssp - frameSize frame) frame
  /-- The program counter is the contents of the vector, as memory stands with the
  frame. -/
  vector : m'.space.read (m.vectorAddress offset) 4 .supervisorData .read = .ok m'.registers.pc

/-- What is left where a handler cannot be entered. -/
structure Machine.EntryRefused (m : Machine) (frame : List FrameItem) (a : Abort) (m' : Machine) :
    Prop where
  /-- Only the status word, the stack pointer and the memory differ. -/
  machine : ∃ ssp, m' = m.withHandler ssp m.registers.pc m'.space
  /-- Only bytes of the frame have changed. -/
  footprint : m.space.AgreeOutside (m.registers.ssp - frameSize frame) (frameSize frame) m'.space
  /-- An access was refused. -/
  fault : a.fault.cycle?.isSome

/-- Entering a handler stores a frame and goes through the vector, or is refused at an access. -/
theorem ends_enterHandler {frame : List FrameItem} (offset : UInt16)
    (hfits : frameBytes frame < UInt32.size) :
    Ends (enterHandler frame offset) m (fun _ m' => m.Entered frame offset m')
      (m.EntryRefused frame) := by
  unfold enterHandler
  rw [ends_bind, ends_modifyRegisters, ends_bind]
  refine (ends_pushFrame hfits ?_).mono (fun _ m₁ h₁ => ?_) fun a m₁ h₁ => ?_
  · exact Status.has_supervisor_handler _
  · refine (ends_jumpThroughVector offset).mono (fun _ m₂ h₂ => ?_) fun a m₂ h₂ => ?_
    · obtain ⟨hvector, hmachine⟩ := h₂
      have hspace : m₂.space = m₁.space := by
        rw [hmachine]
        rfl
      have hchip : m₂.chip = m₁.chip := by
        rw [hmachine]
        rfl
      have haddr : m₁.vectorAddress offset = m.vectorAddress offset := by
        rw [h₁.machine]
        rfl
      refine ⟨?_, hspace ▸ h₁.footprint, ?_, ?_⟩
      · rw [hmachine, h₁.machine]
        rfl
      · exact h₁.stored.congr hfits hchip (congrArg _ hspace) fun k hk => by rw [hspace]
      · rwa [hspace, ← haddr]
    · obtain ⟨rfl, hfault⟩ := h₂
      refine ⟨⟨m.registers.ssp - frameSize frame, ?_⟩, h₁.footprint, hfault⟩
      rw [h₁.machine]
      rfl
  · obtain ⟨ssp, hmachine⟩ := h₁.machine
    refine ⟨⟨ssp, ?_⟩, h₁.footprint, h₁.fault⟩
    rw [hmachine]
    rfl

end Cpu68k
