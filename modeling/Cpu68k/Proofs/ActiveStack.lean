import Cpu68k.Proofs.Careful
import Cpu68k.Proofs.Registers
import Cpu68k.Proofs.Stacking

/-!
# The stack of the current mode

Values are pushed below the active stack pointer and popped from it. As long as they take less
than the whole address space, none of them reaches into another, so that popping takes them
back in reverse order. `last_in_first_out` says this of every chip, mode and memory: no pop
fails, the values are those that were pushed, and the stack pointer is back where it was.
-/

namespace Cpu68k

variable {m m' : Machine} {size : Size} {value : UInt32} {items : List FrameItem}

/-! ### Values one after the other -/

/-- Pushes values, the first one first. -/
def pushAll : List FrameItem → Exec Unit
  | [] => return ()
  | item :: items => do
    item.push
    pushAll items

/-- Pops values of the given sizes, that of the last size first. They come back in the order
of the sizes. -/
def popAll : List Size → Exec (List UInt32)
  | [] => return []
  | size :: sizes => do
    let values ← popAll sizes
    let value ← pop size
    return value :: values

namespace Machine

variable (m) (sp sp' : UInt32) (space space' : Space)

/-- The new stack pointer is the active one. -/
@[simp]
theorem activeSp_withActiveStack : (m.withActiveStack sp space).registers.activeSp = sp :=
  m.registers.activeSp_setActiveSp sp

/-- A new stack pointer does not change the mode, nor where its data is. -/
@[simp]
theorem dataSpace_withActiveStack : (m.withActiveStack sp space).dataSpace = m.dataSpace := by
  rw [dataSpace, dataSpace, withActiveStack, RegisterFile.isSupervisor_setActiveSp]

/-- Of two new stack pointers and memories the later ones stay. -/
@[simp]
theorem withActiveStack_withActiveStack :
    (m.withActiveStack sp space).withActiveStack sp' space' = m.withActiveStack sp' space' := by
  rw [withActiveStack, withActiveStack, RegisterFile.setActiveSp_setActiveSp, withActiveStack]

/-- With its old stack pointer a machine differs in its memory only. -/
theorem withActiveStack_activeSp :
    m.withActiveStack m.registers.activeSp space = { m with space := space } := by
  rw [withActiveStack, RegisterFile.setActiveSp_activeSp]

end Machine

/-! ### Popping -/

/-- What lies at the stack pointer is popped. -/
theorem pop_of_load (h : m.load m.registers.activeSp size m.dataSpace = .ok value) :
    pop size m =
      .ok value (m.withActiveStack (m.registers.activeSp + size.bytes) m.space) := by
  refine Ends.eq_ok ?_
  unfold pop
  rw [ends_bind, ends_get, ends_bind, ends_readData_of_load h]
  exact ⟨rfl, rfl⟩

/-- A value right below the stack pointer that a machine had is popped by moving the stack
pointer there and back. -/
theorem pop_withActiveStack {space : Space}
    (h : (m.withActiveStack (m.registers.activeSp - size.bytes) space).load
      (m.registers.activeSp - size.bytes) size m.dataSpace = .ok value) :
    pop size (m.withActiveStack (m.registers.activeSp - size.bytes) space) =
      .ok value { m with space := space } := by
  have hback : m.registers.activeSp - size.bytes + size.bytes = m.registers.activeSp :=
    UInt32.sub_add_cancel _ _
  rw [pop_of_load (by simpa using h), Machine.activeSp_withActiveStack, hback,
    Machine.withActiveStack_withActiveStack]
  exact congrArg _ (m.withActiveStack_activeSp space)

/-- Values that are popped are those of the sizes behind the first, and then that of the
first. -/
theorem popAll_cons {sizes : List Size} {values : List UInt32} {m₁ : Machine}
    (hrest : popAll sizes m = .ok values m₁) (hfirst : pop size m₁ = .ok value m') :
    popAll (size :: sizes) m = .ok (value :: values) m' := by
  rw [popAll, bind_of_ok hrest, bind_of_ok hfirst]
  rfl

/-! ### Pushing -/

namespace Machine

/-- What pushing values has done, and how it is undone. -/
structure Stacked (m : Machine) (items : List FrameItem) (m' : Machine) : Prop where
  /-- Only the stack pointer and the memory differ. -/
  machine : m' = m.withActiveStack (m.registers.activeSp - frameSize items) m'.space
  /-- Only bytes from the new stack pointer up to the old one have changed. -/
  footprint : m.space.AgreeOutside (m.registers.activeSp - frameSize items) (frameSize items)
    m'.space
  /-- The values are popped again, which brings back the stack pointer. -/
  popped : popAll (items.map FrameItem.size) m' =
    .ok (items.map FrameItem.value) { m with space := m'.space }

/-- No value has been pushed. -/
theorem Stacked.nil (m : Machine) : m.Stacked [] m := by
  have hsp : m.registers.activeSp - frameSize [] = m.registers.activeSp := UInt32.sub_zero _
  constructor
  · rw [hsp, withActiveStack_activeSp]
  · exact Space.AgreeOutside.refl _ _ _
  · rfl

/-- A value lies above those that are pushed after it, so it is popped after them. -/
theorem Stacked.cons {item : FrameItem} {m₁ : Machine}
    (hfirst : m.ActivePushed item.size item.value m₁) (hrest : m₁.Stacked items m')
    (hfits : frameBytes (item :: items) < UInt32.size) : m.Stacked (item :: items) m' := by
  rw [frameBytes_cons] at hfits
  have hsize : (frameSize items).toNat = frameBytes items := toNat_frameSize (by omega)
  have hsp : m₁.registers.activeSp = m.registers.activeSp - item.size.bytes := by
    rw [hfirst.machine, activeSp_withActiveStack]
  have hlater := hrest.footprint
  rw [hsp] at hlater
  constructor
  · rw [frameSize_cons]
    calc m' = m₁.withActiveStack (m₁.registers.activeSp - frameSize items) m'.space :=
          hrest.machine
      _ = m.withActiveStack (m.registers.activeSp - item.size.bytes - frameSize items)
          m'.space := by rw [hsp, hfirst.machine, withActiveStack_withActiveStack]
      _ = _ := by
        congr 1
        grind
  · rw [frameSize_cons]
    exact (hfirst.footprint.widen_above (by omega)).trans (hlater.widen_below (by omega))
  · -- When the others have been popped, the first value is on top again.
    have htop : ({ m₁ with space := m'.space } : Machine) =
        m.withActiveStack (m.registers.activeSp - item.size.bytes) m'.space := by
      rw [hfirst.machine]
      rfl
    have hchip : m₁.chip = m.chip := by
      rw [hfirst.machine]
      rfl
    have hstored := hfirst.stored
    rw [item.value_and_mask] at hstored
    refine popAll_cons hrest.popped ?_
    rw [htop]
    apply pop_withActiveStack
    exact load_above hchip.symm hlater (by omega) hstored

end Machine

/-- Pushing values stacks them. A push that fails leaves the machine as the pushes before it
have left it. -/
theorem ends_pushAll (hfits : frameBytes items < UInt32.size) : Ends (pushAll items) m
    (fun _ m' => m.Stacked items m')
    fun a m' => ∃ done item rest, items = done ++ item :: rest ∧
      pushAll done m = .ok () m' ∧ item.push m' = .error a m' := by
  induction items generalizing m with
  | nil => exact .nil m
  | cons item items ih =>
    rw [pushAll, ends_bind]
    apply ends_of
    · intro _ m₁ hpush
      have hfirst := hpush
      rw [item.push_eq] at hfirst
      have hpushed := ends_push_active.of_ok hfirst
      have hless := hfits
      rw [frameBytes_cons] at hless
      refine (ih (by omega)).mono (fun _ m' h => .cons hpushed h hfits) ?_
      rintro a m' ⟨done, failing, rest, rfl, hdone, hfailing⟩
      refine ⟨item :: done, failing, rest, rfl, ?_, hfailing⟩
      rw [pushAll, bind_of_ok hpush]
      exact hdone
    · intro a m' hpush
      have hfailing := hpush
      rw [item.push_eq] at hfailing
      obtain ⟨rfl, -⟩ := ends_push_active.of_error hfailing
      exact ⟨[], item, items, rfl, rfl, hpush⟩

/-- A pop that fails changes nothing, so it leaves the machine as the pops before it have left
it. -/
theorem ends_popAll (sizes : List Size) : Ends (popAll sizes) m (fun _ _ => True)
    fun a m' => ∃ rest size done values, sizes = rest ++ size :: done ∧
      popAll done m = .ok values m' ∧ pop size m' = .error a m' := by
  induction sizes with
  | nil => trivial
  | cons size sizes ih =>
    rw [popAll, ends_bind]
    apply ends_of
    · intro values m₁ hrest
      rw [ends_bind]
      refine ends_of (fun _ _ _ => trivial) fun a m' hfailing => ?_
      obtain rfl := ends_pop.of_error hfailing
      exact ⟨[], size, sizes, values, rfl, hrest, hfailing⟩
    · intro a m' hfailing
      obtain ⟨rest, failing, done, values, rfl, hdone, hfailing⟩ := ih.of_error hfailing
      exact ⟨size :: rest, failing, done, values, rfl, hdone, hfailing⟩

namespace Machine

/-- The stack of the current mode is last in, first out: values that have been pushed are
popped in reverse order, which brings the stack pointer back, and no byte outside of the
pushed ones has changed. A push or a pop that fails leaves the machine as it was before it. -/
theorem last_in_first_out (m : Machine) (items : List FrameItem)
    (hfits : frameBytes items < UInt32.size) :
    Ends (pushAll items) m (fun _ m' => m.Stacked items m')
      (fun a m' => ∃ done item rest, items = done ++ item :: rest ∧
        pushAll done m = .ok () m' ∧ item.push m' = .error a m') ∧
    ∀ sizes, Ends (popAll sizes) m (fun _ _ => True)
      fun a m' => ∃ rest size done values, sizes = rest ++ size :: done ∧
        popAll done m = .ok values m' ∧ pop size m' = .error a m' :=
  ⟨ends_pushAll hfits, ends_popAll⟩

/-- A user's program whose stack is in the middle of the memory. -/
def halfway (chip : Chip) : Machine :=
  { Machine.initial chip .vector (.flat ⟨.general, ⟨Array.replicate 64 0⟩⟩) with
    registers := { RegisterFile.initial with usp := 40, sr := ⟨0⟩ }
    state := .normal }

/-- Three values on the stack of a user's program. -/
theorem last_in_first_out_halfway :
    let m := halfway .mc68000
    let items : List FrameItem := [.word 0x1234, .long 0x89ABCDEF, .word 0xFFFF]
    frameBytes items < UInt32.size ∧ ∃ m', pushAll items m = .ok () m' ∧ m.Stacked items m' := by
  intro m items
  have hfits : frameBytes items < UInt32.size := by decide
  have hpushed := (last_in_first_out m items hfits).1
  have hok : (pushAll items m matches .ok ..) = true := by decide +kernel
  refine ⟨hfits, ?_⟩
  cases hall : pushAll items m with
  | ok _ m' => exact ⟨m', rfl, hpushed.of_ok hall⟩
  | error a m' => simp [hall] at hok

end Machine

end Cpu68k
