import Cpu68k.Proofs.Bytes
import Cpu68k.Proofs.Comparisons
import Cpu68k.Proofs.Translation

/-!
# Reading and writing data

Data is stored with the highest byte first. Reading appends one byte after the other, and
writing stores the lowest byte and goes on with the rest of the number below it; the two are
inverse to each other, and to reading the bytes one by one. `data_access_exact` says this of
every memory and chip: which of the two faults a write ends with, and that it then has changed
nothing, what a write leaves in memory, and that a number that can be read is made up of bytes
that can be read.
-/

namespace Cpu68k

/-- The number of a row of bytes, the highest first. -/
def bigEndian (row : List UInt8) : Nat :=
  row.foldl (fun high b => high * 256 + b.toNat) 0

/-- A byte behind a row is the lowest digit. -/
theorem bigEndian_append_singleton (row : List UInt8) (b : UInt8) :
    bigEndian (row ++ [b]) = bigEndian row * 256 + b.toNat := by
  simp [bigEndian]

/-! ### The two loops -/

namespace Region

variable {r : Region} {i k n : Nat}

/-- A number that is read is that of its bytes. -/
theorem toNat_number_eq (hn : n ≤ 4) :
    (r.number i n).toNat = bigEndian ((List.range n).map fun k => r.byte (i + k)) := by
  induction n with
  | zero => rfl
  | succ n ih =>
    rw [toNat_number (by omega), ih (by omega), List.range_succ, List.map_append,
      List.map_singleton, bigEndian_append_singleton]

/-- Where the bytes of a number that is written are. Each turn of the loop stores the lowest
byte and hands on the number above it. -/
theorem toNat_byte_setNumber (hk : k < n) (h : i + n ≤ r.size) (value : UInt32) :
    ((r.setNumber i n value).byte (i + k)).toNat =
      value.toNat / 2 ^ (8 * (n - 1 - k)) % 256 := by
  induction n generalizing r value with
  | zero => omega
  | succ n ih =>
    rw [setNumber]
    by_cases hlast : k = n
    · subst hlast
      have hexponent : 8 * (k + 1 - 1 - k) = 0 := by omega
      rw [byte_setNumber_of_outside (by omega), byte_setByte (by omega), UInt32.toNat_toUInt8,
        hexponent, Nat.pow_zero, Nat.div_one]
    · have hexponent : 8 * (n + 1 - 1 - k) = 8 + 8 * (n - 1 - k) := by omega
      rw [ih (by omega) (by rw [size_setByte]; omega), UInt32.toNat_shiftRight, hexponent,
        Nat.pow_add, ← Nat.div_div_eq_div_mul, Nat.shiftRight_eq_div_pow]
      rfl

end Region

/-! ### Bytes of a located span -/

namespace Space

variable {s : Space} {addr len : UInt32} {fc : FunctionCode} {access : Access} {spot : Spot}
  {k : Nat}

/-- Where an access is allowed, so is each of its bytes: protection depends on the first byte
only, and it guards the low end of a region. -/
theorem locate_byte (h : s.locate addr len fc access = .ok spot) (hk : k < len.toNat) :
    s.locate (addr + .ofNat k) 1 fc access = .ok ⟨spot.index, spot.offset + k⟩ := by
  obtain ⟨p, hposition, hp, hcheck, hoffset⟩ := locate_eq_ok.1 h
  obtain ⟨hallowed, htop, hend⟩ := Region.check_eq_ok.1 hcheck
  have hnat : (UInt32.ofNat k).toNat = k := toNat_position hk
  have hswap : addr + .ofNat k - p.start = addr - p.start + .ofNat k := by grind
  have hsub : (addr + .ofNat k - p.start).toNat = (addr - p.start).toNat + k := by
    rw [hswap, toNat_add_of_lt (by omega), hnat]
  refine locate_eq_ok.2 ⟨p, position?_add hposition hp (by omega), hp,
    Region.check_eq_ok.2 ⟨?_, ?_, ?_⟩, ?_⟩
  · -- A byte below the limit of the low memory lies behind a first byte below it.
    rw [Bool.eq_false_iff] at hallowed ⊢
    intro hdenied
    obtain ⟨hprotection, hlow, hwho⟩ := Protection.denies_eq_true.1 hdenied
    exact hallowed (Protection.denies_eq_true.2 ⟨hprotection, by omega, hwho⟩)
  · rw [hsub]
    change _ + 1 < _
    omega
  · rw [hsub]
    change _ + 1 ≤ _
    omega
  · rw [hsub, hoffset]

/-- The bytes of an access that is allowed can be read one by one. -/
theorem read_byte (h : s.locate addr len fc access = .ok spot) (hk : k < len.toNat) :
    s.read (addr + .ofNat k) 1 fc access =
      .ok (s.byteAt ⟨spot.index, spot.offset + k⟩).toUInt32 := by
  have hlocate := locate_byte h hk
  obtain ⟨region, hregion, -⟩ := region?_of_locate hlocate
  simp only [read, hlocate]
  rw [numberAt_eq hregion, byteAt, hregion]
  exact congrArg Except.ok UInt32.zero_or

/-- What is read is the number of the bytes at the spot. -/
theorem read_eq_bigEndian {value : UInt32} (hlen : len.toNat ≤ 4)
    (h : s.locate addr len fc access = .ok spot) (hread : s.read addr len fc access = .ok value) :
    value.toNat = bigEndian ((List.range len.toNat).map fun k =>
      s.byteAt ⟨spot.index, spot.offset + k⟩) := by
  obtain ⟨region, hregion, -⟩ := region?_of_locate h
  have hbyte (k : Nat) :
      s.byteAt ⟨spot.index, spot.offset + k⟩ = region.byte (spot.offset + k) := by
    rw [byteAt, hregion]
  simp only [read, h, Except.ok.injEq] at hread
  rw [← hread, numberAt_eq hregion, Region.toNat_number_eq hlen]
  simp only [hbyte]

/-- A number that is written is read back byte by byte. -/
theorem read_byte_setNumberAt {size : Size} (h : s.locate addr size.bytes fc .write = .ok spot)
    (hk : k < size.bytes.toNat) (value : UInt32) :
    (s.setNumberAt spot size.bytes.toNat value).read (addr + .ofNat k) 1 fc .read =
      .ok (.ofNat (value.toNat / 2 ^ (8 * (size.bytes.toNat - 1 - k)) % 256)) := by
  have hlocate := (locate_eq_ok_congr (outline_setNumberAt spot size.bytes.toNat value)).2
    (locate_read_of_write h)
  obtain ⟨region, hregion, hend⟩ := region?_of_locate h
  rw [read_byte hlocate hk, byteAt, region?_setNumberAt, if_pos rfl, hregion, Option.map_some]
  refine congrArg Except.ok (UInt32.toNat_inj.1 ?_)
  rw [UInt8.toNat_toUInt32, Region.toNat_byte_setNumber hk hend, UInt32.toNat_ofNat']
  omega

end Space

/-! ### Data of an instruction -/

namespace Machine

variable {m : Machine} {addr value : UInt32} {size : Size}

/-- An address is odd if its lowest bit is set. -/
theorem and_one_bne_zero_iff : (addr &&& 1 != 0) = true ↔ addr.toNat % 2 = 1 := by
  rw [bne_iff_ne, ne_eq, ← UInt32.toNat_inj, UInt32.toNat_and]
  change ¬addr.toNat &&& 1 = 0 ↔ _
  rw [Nat.and_one_is_mod]
  omega

/-- Words and longs at odd addresses are address errors below the 68020. -/
def Misaligned (m : Machine) (addr : UInt32) (size : Size) : Prop :=
  size ≠ .byte ∧ addr.toNat % 2 = 1 ∧ m.chip.partNumber < 68020

/-- What the machine forbids are the misaligned accesses. -/
theorem forbids_iff : m.forbids addr size = true ↔ m.Misaligned addr size := by
  have hchip : m.chip.features.unalignedData = false ↔ m.chip.partNumber < 68020 := by
    cases m.chip <;> decide
  rw [Misaligned, forbids, isMisaligned, Bool.and_eq_true, Bool.and_eq_true, bne_iff_ne,
    and_one_bne_zero_iff, Bool.not_eq_true', hchip, and_comm (a := addr.toNat % 2 = 1)]

/-- What a write of the low bytes of a value has done. -/
structure Stores (m : Machine) (addr : UInt32) (size : Size) (value : UInt32) (m' : Machine) :
    Prop where
  /-- Only the memory differs. -/
  machine : m' = { m with space := m'.space }
  /-- Only the bytes of the access have changed. -/
  outside : m.space.AgreeOutside addr size.bytes m'.space
  /-- The value is read back. -/
  reads : readData addr size m' = .ok (.ofNat (value.toNat % 2 ^ (8 * size.bytes.toNat))) m'
  /-- So is each of its bytes, the highest first. -/
  bytes : ∀ k < size.bytes.toNat, readData (addr + .ofNat k) .byte m' =
    .ok (.ofNat (value.toNat / 2 ^ (8 * (size.bytes.toNat - 1 - k)) % 256)) m'

/-- Why a write does not take place: at an odd address before the memory is asked, and else
where the memory refuses it. -/
inductive Refuses (m : Machine) (addr : UInt32) (size : Size) : Abort → Prop
  /-- The address is odd. -/
  | misaligned (h : m.Misaligned addr size) :
    m.Refuses addr size ⟨.addressError ⟨addr, .write, m.dataSpace⟩, none⟩
  /-- The memory refuses the access. -/
  | refused {e : AccessError} (h : ¬m.Misaligned addr size)
    (hview : m.space.view addr size.bytes m.dataSpace .write = .error e) :
    m.Refuses addr size ⟨.busError ⟨addr, .write, m.dataSpace⟩, some e⟩

/-- A write to a spot that the memory allows stores the value. -/
theorem stores_setNumberAt {spot : Spot} (hforbids : m.forbids addr size = false)
    (h : m.space.locate addr size.bytes m.dataSpace .write = .ok spot) (value : UInt32) :
    m.Stores addr size value
      { m with space := m.space.setNumberAt spot size.bytes.toNat value } := by
  have hlow : value &&& size.mask = .ofNat (value.toNat % 2 ^ (8 * size.bytes.toNat)) := by
    rw [← size.width_eq, ← size.toNat_and_mask, UInt32.ofNat_toNat]
  constructor
  · rfl
  · exact Space.agreeOutside_setNumberAt h value
  · rw [← hlow]
    exact readData_of_load (load_eq_ok.2 ⟨hforbids, Space.read_setNumberAt value h⟩)
  · intro k hk
    exact readData_of_load (load_eq_ok.2 ⟨rfl, Space.read_byte_setNumberAt h hk value⟩)

/-- A write stores the value, or is refused and changes nothing. -/
theorem ends_writeData_exact (m : Machine) (addr : UInt32) (size : Size) (value : UInt32) :
    Ends (writeData addr size value) m
      (fun _ m' => ¬m.Misaligned addr size ∧
        (∃ row, m.space.view addr size.bytes m.dataSpace .write = .ok row) ∧
        m.Stores addr size value m')
      fun a m' => m' = m ∧ m.Refuses addr size a := by
  unfold Ends writeData
  cases hforbids : m.forbids addr size with
  | true => exact ⟨rfl, .misaligned (forbids_iff.1 hforbids)⟩
  | false =>
    have haligned : ¬m.Misaligned addr size := by simp [← forbids_iff, hforbids]
    simp only [Bool.false_eq_true, if_false]
    cases hlocate : m.space.locate addr size.bytes m.dataSpace .write with
    | error e => exact ⟨rfl, .refused haligned (Space.view_eq_error.2 hlocate)⟩
    | ok spot =>
      refine ⟨haligned, ?_, stores_setNumberAt hforbids hlocate value⟩
      cases hview : m.space.view addr size.bytes m.dataSpace .write with
      | ok row => exact ⟨row, rfl⟩
      | error e =>
        rw [Space.view_eq_error, hlocate] at hview
        cases hview

/-- The bytes of a row are read one behind the other. -/
def ReadsRow (m : Machine) (addr : UInt32) (row : List UInt8) : Prop :=
  ∀ k (h : k < row.length), readData (addr + .ofNat k) .byte m = .ok row[k].toUInt32 m

/-- A value that can be read is that of a row of bytes that can be read. -/
theorem ends_readData_row (m : Machine) (addr : UInt32) (size : Size) :
    Ends (readData addr size) m (fun value m' => m' = m ∧ ∃ row : List UInt8,
      row.length = size.bytes.toNat ∧ m.ReadsRow addr row ∧ value.toNat = bigEndian row)
      fun _ _ => True := by
  refine ends_readData.mono_ok fun value m' h => ⟨h.1, ?_⟩
  obtain ⟨-, hread⟩ := load_eq_ok.1 h.2
  have hlen : size.bytes.toNat ≤ 4 := by cases size <;> decide
  cases hlocate : m.space.locate addr size.bytes m.dataSpace .read with
  | error e => simp [Space.read, hlocate] at hread
  | ok spot =>
    refine ⟨(List.range size.bytes.toNat).map fun k =>
      m.space.byteAt ⟨spot.index, spot.offset + k⟩, by simp, ?_,
      Space.read_eq_bigEndian hlen hlocate hread⟩
    intro k hk
    rw [List.length_map, List.length_range] at hk
    rw [List.getElem_map, List.getElem_range]
    exact readData_of_load (load_eq_ok.2 ⟨rfl, Space.read_byte hlocate hk⟩)

/-- Data is written as a whole or not at all, and reading and writing agree on every byte: a
write ends with an address error exactly at the odd addresses that the chip forbids, else with
a bus error exactly where the memory refuses the access, and then nothing has changed. Else the
value is read back, as a whole and byte by byte, and nothing around it has changed. A value
that can be read, at odd addresses too, is that of its bytes, all of which can be read. -/
theorem data_access_exact (m : Machine) (addr : UInt32) (size : Size) (value : UInt32) :
    Ends (writeData addr size value) m
      (fun _ m' => ¬m.Misaligned addr size ∧
        (∃ row, m.space.view addr size.bytes m.dataSpace .write = .ok row) ∧
        m.Stores addr size value m')
      (fun a m' => m' = m ∧ m.Refuses addr size a) ∧
    Ends (readData addr size) m (fun x m' => m' = m ∧ ∃ row : List UInt8,
      row.length = size.bytes.toNat ∧ m.ReadsRow addr row ∧ x.toNat = bigEndian row)
      fun _ _ => True :=
  ⟨m.ends_writeData_exact addr size value, m.ends_readData_row addr size⟩

end Machine

end Cpu68k
