import Cpu68k.Proofs.Computation
import Cpu68k.Proofs.Memory

/-!
# Footprints

The footprint of an access is the range of addresses that it names. Reading
depends on the bytes of the footprint only, and writing changes no others. Both
laws are stated for whole spaces first and then for the accesses of an
instruction.
-/

namespace Cpu68k

namespace Space

variable {s s' s'' : Space} {lo len addr : UInt32}

/-- The byte at an address. -/
def byte? (s : Space) (addr : UInt32) : Option UInt8 :=
  (s.spot? addr).map s.byteAt

/-- Spaces of one outline with the same byte at an address. -/
theorem byte?_congr (houtline : s'.outline = s.outline)
    (h : ∀ p, s.spot? addr = some p → s'.byteAt p = s.byteAt p) : s'.byte? addr = s.byte? addr := by
  rw [byte?, byte?, spot?_congr houtline]
  cases hspot : s.spot? addr with
  | none => rfl
  | some p => exact congrArg some (h p hspot)

/-- The spaces have one outline, and their bytes agree outside of the `len` addresses
from `lo` on. -/
structure AgreeOutside (lo len : UInt32) (s s' : Space) : Prop where
  /-- Every access is decided alike. -/
  outline : s'.outline = s.outline
  /-- Bytes at other addresses, or at none, are the same. -/
  bytes : ∀ p, (∀ k < len, s.spot? (lo + k) ≠ some p) → s'.byteAt p = s.byteAt p

/-- A space that has not changed agrees with itself. -/
theorem AgreeOutside.refl (lo len : UInt32) (s : Space) : AgreeOutside lo len s s :=
  ⟨rfl, fun _ _ => rfl⟩

/-- Two changes of the same bytes are one. -/
theorem AgreeOutside.trans (h : AgreeOutside lo len s s') (h' : AgreeOutside lo len s' s'') :
    AgreeOutside lo len s s'' := by
  refine ⟨h'.outline.trans h.outline, fun p hp => ?_⟩
  rw [h'.bytes p fun k hk => by rw [spot?_congr h.outline]; exact hp k hk, h.bytes p hp]

/-- A wider range leaves less to agree on. -/
theorem AgreeOutside.widen {lo' len' : UInt32} (h : AgreeOutside lo len s s')
    (hsub : ∀ k < len, ∃ k' < len', lo + k = lo' + k') : AgreeOutside lo' len' s s' := by
  refine ⟨h.outline, fun p hp => h.bytes p fun k hk => ?_⟩
  obtain ⟨k', hk', heq⟩ := hsub k hk
  rw [heq]
  exact hp k' hk'

/-- The byte at another address is the same. -/
theorem AgreeOutside.byte? (h : AgreeOutside lo len s s') (haddr : ∀ k < len, addr ≠ lo + k) :
    s'.byte? addr = s.byte? addr :=
  byte?_congr h.outline fun p hspot =>
    h.bytes p fun k hk hp => haddr k hk (spot?_injective hspot hp)

/-- What is written below an address leaves the bytes from there on alone. -/
theorem AgreeOutside.byte?_above {top k : UInt32} (h : AgreeOutside (top - len) len s s')
    (hfits : k.toNat + len.toNat < UInt32.size) : s'.byte? (top + k) = s.byte? (top + k) := by
  apply h.byte?
  intro j hj heq
  have hsum : k + len = j := by grind
  rw [UInt32.lt_iff_toNat_lt, ← hsum, toNat_add_of_lt hfits] at hj
  omega

/-- What is written below an address lies in the longer range below a higher one. -/
theorem AgreeOutside.widen_below {top size : UInt32} (h : AgreeOutside (top - size - len) len s s')
    (hfits : size.toNat + len.toNat < UInt32.size) :
    AgreeOutside (top - (size + len)) (size + len) s s' := by
  apply h.widen
  intro k hk
  refine ⟨k, ?_, by grind⟩
  rw [UInt32.lt_iff_toNat_lt] at hk ⊢
  rw [toNat_add_of_lt hfits]
  omega

/-- What is written right below an address lies in every longer range below it. -/
theorem AgreeOutside.widen_above {top size : UInt32} (h : AgreeOutside (top - size) size s s')
    (hfits : size.toNat + len.toNat < UInt32.size) :
    AgreeOutside (top - (size + len)) (size + len) s s' := by
  apply h.widen
  intro k hk
  rw [UInt32.lt_iff_toNat_lt] at hk
  refine ⟨len + k, ?_, by grind⟩
  rw [UInt32.lt_iff_toNat_lt, toNat_add_of_lt (by omega), toNat_add_of_lt hfits]
  omega

/-- A located write changes its footprint only. -/
theorem agreeOutside_setNumberAt {fc : FunctionCode} {access : Access} {spot : Spot}
    (h : s.locate addr len fc access = .ok spot) (value : UInt32) :
    AgreeOutside addr len s (s.setNumberAt spot len.toNat value) := by
  refine ⟨outline_setNumberAt _ _ _, fun p hp => ?_⟩
  refine byteAt_setNumberAt_of_outside value fun hindex => ?_
  refine Decidable.byContradiction fun hinside => ?_
  have hlt : p.offset - spot.offset < len.toNat := by omega
  refine hp (.ofNat (p.offset - spot.offset)) (position_lt hlt) ?_
  rw [spot?_of_locate h (position_lt hlt), toNat_position hlt, ← hindex]
  congr 2
  omega

/-- What is read depends on the bytes of the footprint only. -/
theorem read_congr {fc : FunctionCode} {access : Access} {value : UInt32}
    (houtline : s'.outline = s.outline)
    (hbytes : ∀ k < len, s'.byte? (addr + k) = s.byte? (addr + k))
    (h : s.read addr len fc access = .ok value) : s'.read addr len fc access = .ok value := by
  rw [read] at h ⊢
  cases hlocate : s.locate addr len fc access with
  | error e => simp [hlocate] at h
  | ok spot =>
    have hlocate' := (locate_eq_ok_congr houtline).2 hlocate
    simp only [hlocate, hlocate'] at h ⊢
    obtain ⟨region, hregion, -⟩ := region?_of_locate hlocate
    obtain ⟨region', hregion', -⟩ := region?_of_locate hlocate'
    rw [← h, numberAt_congr hregion hregion' fun k hk => ?_]
    have hlt : UInt32.ofNat k < len := position_lt hk
    have hbyte := hbytes _ hlt
    rw [Space.byte?, Space.byte?, spot?_of_locate hlocate hlt, spot?_of_locate hlocate' hlt,
      toNat_position hk] at hbyte
    exact Option.some.inj hbyte

/-- Who may write may read. -/
theorem locate_read_of_write {fc : FunctionCode} {spot : Spot}
    (h : s.locate addr len fc .write = .ok spot) : s.locate addr len fc .read = .ok spot := by
  obtain ⟨p, hposition, hp, hcheck, hoffset⟩ := locate_eq_ok.1 h
  obtain ⟨hallowed, htop, hend⟩ := Region.check_eq_ok.1 hcheck
  refine locate_eq_ok.2 ⟨p, hposition, hp, Region.check_eq_ok.2 ⟨?_, htop, hend⟩, hoffset⟩
  cases hprotection : p.region.protection with
  | general => rfl
  | lowMemory => rwa [hprotection] at hallowed

/-- A number reads back from where it was written. -/
theorem read_setNumberAt {fc : FunctionCode} {spot : Spot} {size : Size} (value : UInt32)
    (h : s.locate addr size.bytes fc .write = .ok spot) :
    (s.setNumberAt spot size.bytes.toNat value).read addr size.bytes fc .read =
      .ok (value &&& size.mask) := by
  obtain ⟨region, hregion, hend⟩ := region?_of_locate h
  have hlocate := (locate_eq_ok_congr (outline_setNumberAt spot size.bytes.toNat value)).2
    (locate_read_of_write h)
  have hwritten : (s.setNumberAt spot size.bytes.toNat value).region? spot.index =
      some (region.setNumber spot.offset size.bytes.toNat value) := by
    rw [region?_setNumberAt, if_pos rfl, hregion]
    rfl
  rw [read, hlocate]
  refine congrArg Except.ok ?_
  rw [numberAt_eq hwritten, Region.number_setNumber hend, lowBytes_bytes]

end Space

/-! ### Accesses of an instruction -/

variable {m m' : Machine} {addr value : UInt32} {size : Size} {fc : FunctionCode}

/-- A value is loaded where the access is aligned and the memory allows it. -/
theorem Machine.load_eq_ok : m.load addr size fc = .ok value ↔
    m.forbids addr size = false ∧ m.space.read addr size.bytes fc .read = .ok value := by
  unfold load
  split
  · simp [*]
  · cases m.space.read addr size.bytes fc .read <;> simp [*]

/-- Loading depends on the chip and the memory. -/
theorem Machine.load_of_space (hchip : m'.chip = m.chip) (hspace : m'.space = m.space) :
    m'.load addr size fc = m.load addr size fc := by
  have hforbids : m'.forbids addr size = m.forbids addr size := by
    rw [forbids, forbids, isMisaligned, isMisaligned, hchip]
  rw [load, load, hforbids, hspace]

/-- Data that a chip reads from one memory it reads from every memory with the same
outline and the same bytes. -/
theorem Machine.load_congr (hchip : m'.chip = m.chip)
    (houtline : m'.space.outline = m.space.outline)
    (hbytes : ∀ k < size.bytes, m'.space.byte? (addr + k) = m.space.byte? (addr + k))
    (h : m.load addr size fc = .ok value) : m'.load addr size fc = .ok value := by
  obtain ⟨hforbids, hread⟩ := load_eq_ok.1 h
  refine load_eq_ok.2 ⟨?_, Space.read_congr houtline hbytes hread⟩
  rwa [forbids, isMisaligned, hchip]

/-- What is written below data leaves the data alone. -/
theorem Machine.load_above {len : UInt32} (hchip : m'.chip = m.chip)
    (hbelow : Space.AgreeOutside (addr - len) len m.space m'.space)
    (hfits : size.bytes.toNat + len.toNat ≤ UInt32.size) (h : m.load addr size fc = .ok value) :
    m'.load addr size fc = .ok value := by
  refine load_congr hchip hbelow.outline (fun k hk => ?_) h
  rw [UInt32.lt_iff_toNat_lt] at hk
  exact hbelow.byte?_above (by omega)

/-- Reading changes nothing. -/
theorem ends_readData_unchanged : Ends (readData addr size) m (fun _ m' => m' = m)
    fun a m' => m' = m ∧ a.fault.cycle?.isSome :=
  (keeps_readData (R := Eq) addr size m).mono (fun _ _ h => h.symm) fun _ _ h => ⟨h.1.symm, h.2⟩

/-- What is read is what can be loaded. -/
theorem ends_readData : Ends (readData addr size) m
    (fun value m' => m' = m ∧ m.load addr size m.dataSpace = .ok value)
    fun a m' => m' = m ∧ m.load addr size m.dataSpace = .error a := by
  unfold Ends readData loadFrom
  cases m.load addr size m.dataSpace with
  | ok value => exact ⟨rfl, rfl⟩
  | error a => exact ⟨rfl, rfl⟩

/-- Data that can be loaded is read. -/
theorem Machine.readData_of_load (h : m.load addr size m.dataSpace = .ok value) :
    readData addr size m = .ok value m := by
  unfold readData loadFrom
  rw [h]

/-- Reading what can be loaded gives it and changes nothing. -/
theorem ends_readData_of_load {Q : UInt32 → Machine → Prop} {E : Abort → Machine → Prop}
    (h : m.load addr size m.dataSpace = .ok value) :
    Ends (readData addr size) m Q E ↔ Q value m := by
  rw [Ends, Machine.readData_of_load h]

/-- Writing changes the bytes at a located spot, or fails and changes nothing. -/
theorem ends_writeData : Ends (writeData addr size value) m
    (fun _ m' => ∃ spot, m.forbids addr size = false ∧
      m.space.locate addr size.bytes m.dataSpace .write = .ok spot ∧
      m' = { m with space := m.space.setNumberAt spot size.bytes.toNat value })
    fun a m' => m' = m ∧ a.fault.cycle?.isSome := by
  unfold Ends writeData
  by_cases hforbids : m.forbids addr size
  · simp [hforbids, Fault.cycle?]
  · simp only [hforbids]
    cases hlocate : m.space.locate addr size.bytes m.dataSpace .write with
    | error e => simp [Fault.cycle?]
    | ok spot => simp

/-- What writing a value does: it lies at the address, and nothing else has changed. -/
structure Machine.Written (m : Machine) (addr : UInt32) (size : Size) (value : UInt32)
    (m' : Machine) : Prop where
  /-- Only the memory differs. -/
  machine : m' = { m with space := m'.space }
  /-- Only the bytes of the value have changed. -/
  footprint : m.space.AgreeOutside addr size.bytes m'.space
  /-- The value can be read. -/
  stored : m'.load addr size m.dataSpace = .ok (value &&& size.mask)

/-- Writing data stores the value, or fails at its access and changes nothing. -/
theorem ends_writeData_written : Ends (writeData addr size value) m
    (fun _ m' => m.Written addr size value m') fun a m' => m' = m ∧ a.fault.cycle?.isSome := by
  refine ends_writeData.mono (fun _ m' h => ?_) fun _ _ h => h
  obtain ⟨spot, hforbids, hlocate, rfl⟩ := h
  exact ⟨rfl, Space.agreeOutside_setNumberAt hlocate value,
    Machine.load_eq_ok.2 ⟨hforbids, Space.read_setNumberAt value hlocate⟩⟩

/-- The machine with another active stack pointer and another memory. -/
def Machine.withActiveStack (m : Machine) (sp : UInt32) (space : Space) : Machine :=
  { m with registers := m.registers.setActiveSp sp, space := space }

/-- What pushing a value on the active stack does: the value lies below the old stack
pointer, which has moved there. -/
structure Machine.ActivePushed (m : Machine) (size : Size) (value : UInt32) (m' : Machine) :
    Prop where
  /-- Only the stack pointer and the memory differ. -/
  machine : m' = m.withActiveStack (m.registers.activeSp - size.bytes) m'.space
  /-- Only the bytes of the value have changed. -/
  footprint : m.space.AgreeOutside (m.registers.activeSp - size.bytes) size.bytes m'.space
  /-- The value can be read. -/
  stored : m'.load (m.registers.activeSp - size.bytes) size m.dataSpace = .ok (value &&& size.mask)

/-- Pushing stores the value below the stack pointer, or fails and changes nothing. -/
theorem ends_push_active : Ends (push size value) m (fun _ m' => m.ActivePushed size value m')
    fun a m' => m' = m ∧ a.fault.cycle?.isSome := by
  unfold push
  rw [ends_bind, ends_get, ends_bind]
  refine ends_writeData_written.mono (fun _ m' h => ?_) fun _ _ h => h
  obtain ⟨hmachine, hfootprint, hstored⟩ := h
  rw [ends_modifyRegisters]
  refine ⟨?_, hfootprint, (Machine.load_of_space rfl rfl).trans hstored⟩
  rw [hmachine]
  rfl

/-- The machine with another supervisor's stack pointer and another memory. -/
def Machine.withStack (m : Machine) (ssp : UInt32) (space : Space) : Machine :=
  { m with registers := { m.registers with ssp := ssp }, space := space }

/-- What pushing a value on the supervisor's stack does: the value lies below the old
stack pointer, which has moved there. -/
structure Machine.Pushed (m : Machine) (size : Size) (value : UInt32) (m' : Machine) : Prop where
  /-- Only the stack pointer and the memory differ. -/
  machine : m' = m.withStack (m.registers.ssp - size.bytes) m'.space
  /-- Only the bytes of the value have changed. -/
  footprint : m.space.AgreeOutside (m.registers.ssp - size.bytes) size.bytes m'.space
  /-- The value can be read. -/
  stored : m'.load (m.registers.ssp - size.bytes) size .supervisorData = .ok (value &&& size.mask)

/-- The active stack of the supervisor is the supervisor's. -/
theorem ends_push (hmode : m.registers.isSupervisor = true) : Ends (push size value) m
    (fun _ m' => m.Pushed size value m') fun a m' => m' = m ∧ a.fault.cycle?.isSome := by
  have hsp : m.registers.activeSp = m.registers.ssp := if_pos hmode
  have hset (sp : UInt32) : m.registers.setActiveSp sp = { m.registers with ssp := sp } :=
    if_pos hmode
  have hfc : m.dataSpace = .supervisorData := by
    rw [Machine.dataSpace, hmode]
    rfl
  refine ends_push_active.mono (fun _ m' h => ?_) fun _ _ h => h
  obtain ⟨hmachine, hfootprint, hstored⟩ := h
  rw [Machine.withActiveStack, hset, hsp] at hmachine
  rw [hsp] at hfootprint hstored
  rw [hfc] at hstored
  exact ⟨hmachine, hfootprint, hstored⟩

end Cpu68k
