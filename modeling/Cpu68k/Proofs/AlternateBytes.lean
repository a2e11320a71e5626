import Cpu68k.Proofs.Careful
import Cpu68k.Proofs.DataAccess
import Cpu68k.Proofs.TwoOperands
import Mathlib.Data.List.Induction

/-!
# Bytes at every other address

`MOVEP` moves the low bytes of a data register to every other address, the highest first, and
back. Storing takes a number apart from above and loading shifts bytes in from below, so the
two are inverse to each other: `alternate_bytes_round_trip`. The loops stop at the first byte
that the memory refuses. Storing has then written the bytes before it, and loading has changed
nothing.
-/

namespace Cpu68k

/-! ### The number of a row -/

/-- The number of a row of bytes has no more digits than these. -/
theorem bigEndian_lt (row : List UInt8) : bigEndian row < 256 ^ row.length := by
  induction row using List.reverseRecOn with
  | nil => exact Nat.one_pos
  | append_singleton row b ih =>
    have hlow := b.toNat_lt
    rw [bigEndian_append_singleton, List.length_append, List.length_singleton, Nat.pow_succ]
    omega

/-- A number with the bytes of a row shifted in from below. -/
def shiftIn (value : UInt32) (row : List UInt8) : UInt32 :=
  row.foldl (fun high b => high <<< 8 ||| b.toUInt32) value

/-- Shifting in up to four bytes loses none of them. -/
theorem toNat_shiftIn {row : List UInt8} (hlength : row.length ≤ 4) :
    (shiftIn 0 row).toNat = bigEndian row := by
  induction row using List.reverseRecOn with
  | nil => rfl
  | append_singleton row b ih =>
    rw [List.length_append, List.length_singleton] at hlength
    have hhigh : (shiftIn 0 row).toNat = bigEndian row := ih (by omega)
    have hroom : 256 ^ row.length ≤ 256 ^ 3 := Nat.pow_le_pow_right (by decide) (by omega)
    have hlt := bigEndian_lt row
    have hstep : shiftIn 0 (row ++ [b]) = shiftIn 0 row <<< 8 ||| b.toUInt32 := by
      simp [shiftIn]
    rw [hstep, toNat_shiftLeft_or (by omega), hhigh, bigEndian_append_singleton]

/-- A number is that of its digits, modulo a power of the base. -/
theorem bigEndian_digits (n value : Nat) :
    bigEndian ((List.range n).map fun k => .ofNat (value / 2 ^ (8 * (n - 1 - k)) % 256)) =
      value % 2 ^ (8 * n) := by
  induction n generalizing value with
  | zero => exact (Nat.mod_one value).symm
  | succ n ih =>
    -- The digits but the last are those of the number above it.
    have hhigh : ((List.range n).map fun k =>
        UInt8.ofNat (value / 2 ^ (8 * (n + 1 - 1 - k)) % 256)) =
          (List.range n).map fun k => .ofNat (value / 256 / 2 ^ (8 * (n - 1 - k)) % 256) := by
      refine List.map_congr_left fun k hk => ?_
      have hlt := List.mem_range.1 hk
      have hexponent : 8 * (n + 1 - 1 - k) = 8 + 8 * (n - 1 - k) := by omega
      rw [hexponent, Nat.pow_add, Nat.div_div_eq_div_mul]
    have hlast : 8 * (n + 1 - 1 - n) = 0 := by omega
    have hpower : 2 ^ (8 * (n + 1)) = 256 * 2 ^ (8 * n) := by
      rw [Nat.mul_succ, Nat.pow_add, Nat.mul_comm]
    rw [List.range_succ, List.map_append, List.map_singleton, bigEndian_append_singleton, hhigh,
      ih, hlast, hpower, Nat.mod_mul, Nat.pow_zero, Nat.div_one, UInt8.toNat_ofNat']
    omega

/-- The row of a number's bytes is that of its low bits. -/
theorem Size.bigEndian_rowOf (size : Size) (value : UInt32) :
    bigEndian (size.rowOf value) = value.toNat % 2 ^ (8 * size.bytes.toNat) := by
  rw [rowOf_eq_map, bigEndian_digits]

variable {m m' : Machine} {addr : UInt32} {size : Size}

/-! ### Loading -/

/-- Every other byte from an address on is that of a row. -/
def Space.HoldsAlternate (s : Space) (addr : UInt32) (row : List UInt8) : Prop :=
  ∀ k (h : k < row.length), s.byte? (addr + 2 * .ofNat k) = some row[k]

/-- A byte that can be loaded has no higher bits. -/
theorem Machine.toUInt8_of_load {b : UInt32} {fc : FunctionCode}
    (h : m.load addr .byte fc = .ok b) : b.toUInt8.toUInt32 = b := by
  obtain ⟨-, hread⟩ := load_eq_ok.1 h
  rw [Space.read] at hread
  cases hlocate : m.space.locate addr Size.byte.bytes fc .read with
  | error e => simp [hlocate] at hread
  | ok spot =>
    simp only [hlocate, Except.ok.injEq] at hread
    obtain ⟨region, hregion, -⟩ := Space.region?_of_locate hlocate
    have hlt : b.toNat < 2 ^ (8 * 1) := by
      rw [← hread, Space.numberAt_eq hregion]
      exact Region.number_lt (by decide)
    refine UInt32.toNat_inj.1 ?_
    rw [UInt8.toNat_toUInt32, UInt32.toNat_toUInt8]
    omega

/-- Loading shifts in the bytes that are there, or stops at the first that cannot be read, and
changes nothing. -/
theorem ends_loadAlternate (n : Nat) (value : UInt32) : Ends (loadAlternate addr n value) m
    (fun x m' => m' = m ∧ ∃ row : List UInt8, row.length = n ∧ m.space.HoldsAlternate addr row ∧
      x = shiftIn value row)
    fun a m' => m' = m ∧ ∃ k < n, m.load (addr + 2 * .ofNat k) .byte m.dataSpace = .error a := by
  induction n generalizing addr value with
  | zero => exact ⟨rfl, [], rfl, fun k h => absurd h (Nat.not_lt_zero k), rfl⟩
  | succ n ih =>
    rw [loadAlternate, ends_bind]
    apply ends_of
    · intro b m₁ hread
      obtain ⟨rfl, hload⟩ := ends_readData.of_ok hread
      refine (ih _).mono ?_ ?_
      · rintro x m' ⟨rfl, row, rfl, hrow, rfl⟩
        refine ⟨rfl, b.toUInt8 :: row, rfl, ?_, ?_⟩
        · rintro k hk
          cases k with
          | zero =>
            rw [two_mul_ofNat_zero]
            exact (Machine.holds_of_load hload).1
          | succ k =>
            rw [two_mul_ofNat_succ]
            exact hrow k (Nat.lt_of_succ_lt_succ hk)
        · rw [shiftIn, shiftIn, List.foldl_cons, Machine.toUInt8_of_load hload]
      · rintro a m' ⟨rfl, k, hk, herror⟩
        refine ⟨rfl, k + 1, Nat.succ_lt_succ hk, ?_⟩
        rwa [two_mul_ofNat_succ]
    · intro a m' hread
      obtain ⟨rfl, herror⟩ := ends_readData.of_error hread
      refine ⟨rfl, 0, Nat.succ_pos n, ?_⟩
      rwa [two_mul_ofNat_zero]

namespace Machine

/-- What loading a number into the low bits of a data register has done. -/
structure Gathers (m : Machine) (size : Size) (n : Fin 8) (number : Nat) (m' : Machine) : Prop where
  /-- Only data registers differ. -/
  machine : m' = { m with registers := { m.registers with data := m'.registers.data } }
  /-- The low bits are the number. -/
  low : (m'.registers.dataReg n).toNat % 2 ^ (8 * size.bytes.toNat) = number
  /-- The bits above are the same. -/
  upper : m'.registers.dataReg n &&& ~~~size.mask = m.registers.dataReg n &&& ~~~size.mask
  /-- The other data registers are the same. -/
  others : ∀ k, k ≠ n → m'.registers.dataReg k = m.registers.dataReg k

/-- Merging a number into the low bits of a data register gathers it. -/
theorem gathers_merge (m : Machine) (n : Fin 8) (value : UInt32) :
    m.Gathers size n (value.toNat % 2 ^ (8 * size.bytes.toNat))
      { m with registers :=
        m.registers.setDataReg n (size.merge (m.registers.dataReg n) value) } := by
  have hset := m.registers.dataReg_setDataReg n (size.merge (m.registers.dataReg n) value)
  constructor
  · rfl
  · rw [hset, ← size.width_eq, ← size.toNat_and_mask, size.merge_and_mask, size.toNat_and_mask]
  · rw [hset, size.merge_and_not_mask]
  · intro k hk
    exact m.registers.dataReg_setDataReg_of_ne n _ hk

/-- Loading a byte is never misaligned, so a refusal is a bus error. -/
theorem load_byte_eq_error {fc : FunctionCode} {a : Abort} (h : m.load addr .byte fc = .error a) :
    a.fault = .busError ⟨addr, .read, fc⟩ := by
  have hforbids : m.forbids addr .byte = false := rfl
  rw [load, hforbids] at h
  simp only [Bool.false_eq_true, if_false] at h
  cases hread : m.space.read addr Size.byte.bytes fc .read with
  | ok value => simp [hread] at h
  | error e =>
    simp only [hread, Except.error.injEq] at h
    rw [← h]

end Machine

/-- Loading gathers the number of a row that the memory holds, or fails at a byte and has changed
nothing. -/
theorem ends_movepFromMemory (n : Fin 8) :
    Ends (Operation.movepFromMemory size n addr).effect m
      (fun _ m' => ∃ row : List UInt8, row.length = size.bytes.toNat ∧
        m.space.HoldsAlternate addr row ∧ m.Gathers size n (bigEndian row) m')
      fun a m' => m' = m ∧ ∃ k < size.bytes.toNat,
        m.load (addr + 2 * .ofNat k) .byte m.dataSpace = .error a := by
  change Ends (loadAlternate addr size.bytes.toNat 0 >>= fun value =>
    (Place.dataReg n).write size value) m _ _
  rw [ends_bind]
  refine (ends_loadAlternate _ _).mono ?_ fun _ _ h => h
  rintro value m₁ ⟨rfl, row, hlength, hrow, rfl⟩
  refine ⟨row, hlength, hrow, ?_⟩
  have hshort : row.length ≤ 4 := by rw [hlength]; cases size <;> decide
  have hnumber : bigEndian row = (shiftIn 0 row).toNat % 2 ^ (8 * size.bytes.toNat) := by
    have hlt := bigEndian_lt row
    rw [hlength] at hlt
    rw [toNat_shiftIn hshort, Nat.pow_mul, Nat.mod_eq_of_lt hlt]
  rw [hnumber]
  exact m₁.gathers_merge n _

/-! ### Storing -/

namespace Machine

/-- What storing the first `n` bytes of a number has done. -/
structure Scatters (m : Machine) (addr : UInt32) (size : Size) (value : UInt32) (n : Nat)
    (m' : Machine) : Prop where
  /-- Only the memory differs. -/
  machine : m' = { m with space := m'.space }
  /-- Every access is decided alike. -/
  outline : m'.space.outline = m.space.outline
  /-- The bytes are at every other address, the highest first. -/
  bytes : ∀ k < n, m'.space.byte? (addr + 2 * .ofNat k) =
    some (.ofNat (value.toNat / 2 ^ (8 * (size.bytes.toNat - 1 - k)) % 256))
  /-- Bytes at other addresses, or at none, are the same. -/
  others : ∀ p, (∀ k < n, m.space.spot? (addr + 2 * .ofNat k) ≠ some p) →
    m'.space.byteAt p = m.space.byteAt p

/-- The first bytes of a number have been stored. -/
theorem Scatters.of_storesAlternate {value : UInt32} {done rest : List UInt32}
    (hmachine : m' = { m with space := m'.space })
    (h : m.space.StoresAlternate addr done m'.space) (hsplit : size.bytesOf value = done ++ rest) :
    m.Scatters addr size value done.length m' := by
  constructor
  · exact hmachine
  · exact h.outline
  · intro k hk
    have hrow : (size.rowOf value)[k]? = some done[k].toUInt8 := by
      rw [Size.rowOf, hsplit, List.map_append,
        List.getElem?_append_left (by rwa [List.length_map]), List.getElem?_map,
        List.getElem?_eq_getElem hk]
      rfl
    have hsmall : k < size.bytes.toNat := by
      rw [← size.rowOf_length value]
      exact (List.getElem?_eq_some_iff.1 hrow).1
    rw [h.stored k hk, ← hrow, size.rowOf_eq_map]
    simp [hsmall]
  · exact h.others

/-- Whether data can be loaded depends on the chip and the outline of the memory. -/
theorem exists_load_congr {value : UInt32} {fc : FunctionCode} (hchip : m'.chip = m.chip)
    (houtline : m'.space.outline = m.space.outline) (h : m.load addr size fc = .ok value) :
    ∃ value', m'.load addr size fc = .ok value' := by
  obtain ⟨hforbids, hread⟩ := load_eq_ok.1 h
  rw [Space.read] at hread
  cases hlocate : m.space.locate addr size.bytes fc .read with
  | error e => simp [hlocate] at hread
  | ok spot =>
    have hlocate' := (Space.locate_eq_ok_congr houtline).2 hlocate
    refine ⟨m'.space.numberAt spot size.bytes.toNat, load_eq_ok.2 ⟨?_, ?_⟩⟩
    · rwa [forbids, isMisaligned, hchip]
    · rw [Space.read, hlocate']

end Machine

/-- What has been stored can be loaded. -/
theorem ends_storeAlternate_loads (bytes : List UInt32) : Ends (storeAlternate addr bytes) m
    (fun _ m' => m' = { m with space := m'.space } ∧ m'.space.outline = m.space.outline ∧
      ∀ k < bytes.length, ∃ b, m'.load (addr + 2 * .ofNat k) .byte m.dataSpace = .ok b)
    fun _ _ => True := by
  induction bytes generalizing addr m with
  | nil => exact ⟨rfl, rfl, fun k h => absurd h (Nat.not_lt_zero k)⟩
  | cons b bytes ih =>
    rw [storeAlternate, ends_bind]
    refine ends_writeData_written.mono_ok fun _ m₁ hfirst => ?_
    refine ih.mono_ok fun _ m' h => ?_
    obtain ⟨hmachine, houtline, hloads⟩ := h
    refine ⟨?_, houtline.trans hfirst.footprint.outline, ?_⟩
    · rw [hmachine, hfirst.machine]
    · intro k hk
      cases k with
      | zero =>
        have hchip : m'.chip = m₁.chip := by rw [hmachine]
        rw [two_mul_ofNat_zero]
        exact Machine.exists_load_congr hchip houtline hfirst.stored
      | succ k =>
        have hspace : m₁.dataSpace = m.dataSpace := by
          rw [hfirst.machine]
          rfl
        rw [two_mul_ofNat_succ, ← hspace]
        exact hloads k (Nat.lt_of_succ_lt_succ hk)

/-- Storing scatters all bytes, which can then be loaded, or fails at a byte and has scattered
those before it. -/
theorem ends_movepToMemory (n : Fin 8) : Ends (Operation.movepToMemory size n addr).effect m
    (fun _ m' =>
      m.Scatters addr size (m.registers.dataReg n) size.bytes.toNat m' ∧
      ∀ k < size.bytes.toNat, ∃ b, m'.load (addr + 2 * .ofNat k) .byte m'.dataSpace = .ok b)
    fun a m' => ∃ i < size.bytes.toNat,
      a.fault = .busError ⟨addr + 2 * .ofNat i, .write, m.dataSpace⟩ ∧
      m.Scatters addr size (m.registers.dataReg n) i m' := by
  have hlength : (size.bytesOf (m.registers.dataReg n)).length = size.bytes.toNat := by
    rw [← size.rowOf_length (m.registers.dataReg n), Size.rowOf, List.length_map]
  have hshort : (size.bytesOf (m.registers.dataReg n)).length < 2 ^ 31 := by
    rw [hlength]
    cases size <;> decide
  change Ends (storeAlternate addr (size.bytesOf (m.registers.dataReg n))) m _ _
  refine ((ends_storeAlternate hshort).and (ends_storeAlternate_loads _)).mono ?_ ?_
  · rintro _ m' ⟨⟨hmachine, hstores⟩, -, -, hloads⟩
    have hspace : m'.dataSpace = m.dataSpace := by
      rw [hmachine]
      rfl
    rw [hlength] at hloads
    rw [hspace, ← hlength]
    exact ⟨Machine.Scatters.of_storesAlternate hmachine hstores (List.append_nil _).symm,
      hlength ▸ hloads⟩
  · rintro a m' ⟨⟨done, b, rest, hsplit, hfault, hmachine, hstores⟩, -⟩
    refine ⟨done.length, ?_, hfault, .of_storesAlternate hmachine hstores hsplit⟩
    rw [← hlength, hsplit, List.length_append, List.length_cons]
    omega

namespace Machine

/-- What has been stored at every other address is what is loaded from there. -/
theorem Scatters.number_eq {value : UInt32} {row : List UInt8}
    (h : m.Scatters addr size value size.bytes.toNat m') (hlength : row.length = size.bytes.toNat)
    (hrow : m'.space.HoldsAlternate addr row) :
    bigEndian row = value.toNat % 2 ^ (8 * size.bytes.toNat) := by
  have heq : row = size.rowOf value := by
    apply List.ext_getElem
    · rw [hlength, size.rowOf_length]
    · intro k hk hk'
      have hbyte := h.bytes k (hlength ▸ hk)
      rw [hrow k hk] at hbyte
      simp only [size.rowOf_eq_map, List.getElem_map, List.getElem_range]
      exact Option.some.inj hbyte
  rw [heq, size.bigEndian_rowOf]

/-- `MOVEP` moves the low bytes of a data register to every other address and back, at odd
addresses and across the end of the address space too. Stored bytes are the number, the highest
first, with nothing around them changed, and they can always be loaded, which brings back the
number. Where the memory refuses byte `i`, storing ends with a bus error and has written the `i`
bytes before it, and loading ends with a bus error and has changed nothing. Only memory differs
after storing, and only the low bits of one data register after loading. -/
theorem alternate_bytes_round_trip (m : Machine) (addr : UInt32) (size : Size) (n : Fin 8) :
    Ends (Operation.movepToMemory size n addr).effect m
      (fun _ m' => m.Scatters addr size (m.registers.dataReg n) size.bytes.toNat m' ∧
        ∀ k, Ends (Operation.movepFromMemory size k addr).effect m'
          (fun _ m'' => m'.Gathers size k
            ((m.registers.dataReg n).toNat % 2 ^ (8 * size.bytes.toNat)) m'')
          fun _ _ => False)
      (fun a m' => ∃ i < size.bytes.toNat,
        a.fault = .busError ⟨addr + 2 * .ofNat i, .write, m.dataSpace⟩ ∧
        m.Scatters addr size (m.registers.dataReg n) i m') ∧
    Ends (Operation.movepFromMemory size n addr).effect m
      (fun _ m' => ∃ number, m.Gathers size n number m')
      fun a m' => m' = m ∧ ∃ i < size.bytes.toNat,
        a.fault = .busError ⟨addr + 2 * .ofNat i, .read, m.dataSpace⟩ := by
  constructor
  · refine (ends_movepToMemory n).mono ?_ fun _ _ h => h
    rintro _ m' ⟨hscatters, hloads⟩
    refine ⟨hscatters, fun k => (ends_movepFromMemory k).mono ?_ ?_⟩
    · rintro _ m'' ⟨row, hlength, hrow, hgathers⟩
      rwa [hscatters.number_eq hlength hrow] at hgathers
    · rintro a m'' ⟨-, i, hi, herror⟩
      obtain ⟨b, hload⟩ := hloads i hi
      cases hload.symm.trans herror
  · refine (ends_movepFromMemory n).mono ?_ ?_
    · rintro _ m' ⟨row, -, -, hgathers⟩
      exact ⟨bigEndian row, hgathers⟩
    · rintro a m' ⟨rfl, i, hi, herror⟩
      exact ⟨rfl, i, hi, load_byte_eq_error herror⟩

end Machine

end Cpu68k
