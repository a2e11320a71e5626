import Cpu68k.Size
import Cpu68k.Space.Region

/-!
# Laws of a region

A number is written byte by byte, and reads back from the same bytes as it was
written. The other bytes of the region stay, and whether an access is allowed depends
on its protection and its size only.
-/

namespace Cpu68k

/-- The number with the low `n` bytes set. -/
def lowBytes : Nat → UInt32
  | 0 => 0
  | n + 1 => lowBytes n <<< 8 ||| 0xFF

/-- The low bytes of a size are those under its mask. -/
theorem lowBytes_bytes (size : Size) : lowBytes size.bytes.toNat = size.mask := by
  cases size <;> decide

/-- The low byte of a number as a number. -/
theorem toUInt32_toUInt8_eq_and (value : UInt32) : value.toUInt8.toUInt32 = value &&& 0xFF := by
  rw [UInt32.toUInt32_toUInt8]
  refine UInt32.toNat_inj.1 ?_
  rw [UInt32.toNat_mod, UInt32.toNat_and]
  exact (Nat.and_two_pow_sub_one_eq_mod value.toNat 8).symm

/-- The low byte and the bytes above it make up a number. -/
theorem shiftLeft_or_low (value mask : UInt32) :
    ((value >>> 8 &&& mask) <<< 8) ||| value.toUInt8.toUInt32 =
      value &&& (mask <<< 8 ||| 0xFF) := by
  rw [toUInt32_toUInt8_eq_and]
  refine UInt32.toBitVec_inj.1 (BitVec.eq_of_getLsbD_eq fun i hi => ?_)
  have hff : (0xFF#32).getLsbD i = decide (i < 8) := by
    have hmask : (0xFF#32) = BitVec.ofNat 32 (2 ^ 8 - 1) := rfl
    rw [hmask, BitVec.getLsbD_ofNat, Nat.testBit_two_pow_sub_one]
    simp [hi]
  simp only [UInt32.toBitVec_or, UInt32.toBitVec_and, UInt32.toBitVec_shiftLeft,
    UInt32.toBitVec_shiftRight, UInt32.toBitVec_ofNat, BitVec.getLsbD_or, BitVec.getLsbD_and, hff]
  by_cases hlow : i < 8
  · simp [hlow]
  · have hback : 8 + (i - 8) = i := by omega
    simp [hlow, hback, hi]

namespace Region

variable {r r' : Region} {i j n : Nat}

/-- A byte as an entry of the contents. -/
theorem byte_eq_getD (r : Region) (i : Nat) : r.byte i = r.bytes.data[i]?.getD 0 := by
  rw [byte]
  split
  next h => rw [Array.getElem?_eq_getElem h, Option.getD_some, ByteArray.getElem_eq_getElem_data]
  next h => rw [Array.getElem?_eq_none (Nat.not_lt.1 h), Option.getD_none]

/-- The contents with a byte replaced. -/
theorem data_setByte (r : Region) (i : Nat) (b : UInt8) :
    (r.setByte i b).bytes.data = r.bytes.data.setIfInBounds i b := by
  rw [setByte]
  split
  next h => exact ByteArray.data_set.trans (dif_pos h).symm
  next h => exact (Array.setIfInBounds_eq_of_size_le (Nat.not_lt.1 h)).symm

/-- Replacing a byte past the end does nothing. -/
theorem setByte_of_le (h : r.size ≤ i) (b : UInt8) : r.setByte i b = r :=
  dif_neg (Nat.not_lt.2 h)

/-- Replacing a byte keeps the protection. -/
@[simp]
theorem protection_setByte (r : Region) (i : Nat) (b : UInt8) :
    (r.setByte i b).protection = r.protection := by
  rw [setByte]
  split <;> rfl

/-- The byte that was replaced is the new one. -/
theorem byte_setByte (h : i < r.size) (b : UInt8) : (r.setByte i b).byte i = b := by
  rw [byte_eq_getD, data_setByte, Array.getElem?_setIfInBounds_self_of_lt h, Option.getD_some]

/-- The other bytes are the same. -/
theorem byte_setByte_of_ne (h : j ≠ i) (b : UInt8) : (r.setByte i b).byte j = r.byte j := by
  rw [byte_eq_getD, data_setByte, Array.getElem?_setIfInBounds_ne (Ne.symm h), ← byte_eq_getD]

/-- There are zeros past the end. -/
theorem byte_of_le (h : r.size ≤ i) : r.byte i = 0 :=
  dif_neg (Nat.not_lt.2 h)

/-- Writing a number keeps the protection. -/
@[simp]
theorem protection_setNumber (value : UInt32) :
    (r.setNumber i n value).protection = r.protection := by
  induction n generalizing r value with
  | zero => rfl
  | succ n ih => rw [setNumber, ih, protection_setByte]

/-- Writing a number leaves the other bytes alone. -/
theorem byte_setNumber_of_outside (h : j < i ∨ i + n ≤ j) (value : UInt32) :
    (r.setNumber i n value).byte j = r.byte j := by
  induction n generalizing r value with
  | zero => rfl
  | succ n ih =>
    rw [setNumber, ih (by omega), byte_setByte_of_ne (by omega)]

/-- Writing a byte makes no difference to any byte. -/
theorem byte_setByte_congr (hsize : r'.size = r.size) (h : r'.byte j = r.byte j) (i : Nat)
    (b : UInt8) : (r'.setByte i b).byte j = (r.setByte i b).byte j := by
  by_cases hj : j = i
  · subst hj
    by_cases hlt : j < r.size
    · rw [byte_setByte hlt, byte_setByte (hsize.symm ▸ hlt)]
    · rw [setByte_of_le (by omega), setByte_of_le (by omega), h]
  · rw [byte_setByte_of_ne hj, byte_setByte_of_ne hj, h]

/-- Writing a number makes no difference to any byte. -/
theorem byte_setNumber_congr (hsize : r'.size = r.size) (h : r'.byte j = r.byte j) (i n : Nat)
    (value : UInt32) : (r'.setNumber i n value).byte j = (r.setNumber i n value).byte j := by
  induction n generalizing r r' value with
  | zero => exact h
  | succ n ih =>
    exact ih (by rw [size_setByte, size_setByte, hsize]) (byte_setByte_congr hsize h _ _) _

/-- A number depends on its own bytes only. -/
theorem number_congr (h : ∀ k < n, r'.byte (i + k) = r.byte (i + k)) :
    r'.number i n = r.number i n := by
  induction n with
  | zero => rfl
  | succ n ih =>
    rw [number, number, ih fun k hk => h k (by omega), h n (by omega)]

/-- A number reads back as it was written, up to its width. -/
theorem number_setNumber (h : i + n ≤ r.size) (value : UInt32) :
    (r.setNumber i n value).number i n = value &&& lowBytes n := by
  induction n generalizing r value with
  | zero => exact UInt32.and_zero.symm
  | succ n ih =>
    have hsize : i + n ≤ (r.setByte (i + n) value.toUInt8).size := by
      rw [size_setByte]
      omega
    have hlast : (r.setNumber i (n + 1) value).byte (i + n) = value.toUInt8 := by
      rw [setNumber, byte_setNumber_of_outside (by omega), byte_setByte (by omega)]
    rw [number, hlast, setNumber, ih hsize, shiftLeft_or_low]
    rfl

/-- An access is allowed if its protection does not refuse it, its end is an offset, and it ends
within the region. -/
theorem check_eq_ok {offset len : UInt32} {fc : FunctionCode} {access : Access} :
    r.check offset len fc access = .ok () ↔
      r.protection.denies offset fc access = false ∧
      offset.toNat + len.toNat < UInt32.size ∧ offset.toNat + len.toNat ≤ r.size := by
  unfold check
  split
  · simp [*]
  split
  · simp; omega
  split
  · simp; omega
  · simp [*]; omega

/-- Regions with the same protection and size allow the same accesses. -/
theorem check_congr (hprotection : r'.protection = r.protection) (hsize : r'.size = r.size)
    (offset len : UInt32) (fc : FunctionCode) (access : Access) :
    r'.check offset len fc access = r.check offset len fc access := by
  simp only [check, hprotection, hsize]

end Region

end Cpu68k
