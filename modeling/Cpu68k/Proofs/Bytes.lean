import Cpu68k.Proofs.Footprint
import Mathlib.Algebra.GroupWithZero.Nat

/-!
# Numbers as rows of bytes

A number in memory is the row of its bytes, the highest first. `Space.Holds` says that
a row of bytes lies from an address on, so what can be read as one number is known byte
by byte.
-/

namespace Cpu68k

/-! ### Rows of bytes -/

namespace Space

variable {s : Space} {addr : UInt32} {bytes : List UInt8}

/-- The bytes lie one behind the other from an address on. -/
def Holds (s : Space) : UInt32 → List UInt8 → Prop
  | _, [] => True
  | addr, b :: bs => s.byte? addr = some b ∧ s.Holds (addr + 1) bs

/-- The bytes of a row by their numbers. -/
theorem holds_iff : s.Holds addr bytes ↔
    ∀ k (h : k < bytes.length), s.byte? (addr + .ofNat k) = some bytes[k] := by
  induction bytes generalizing addr with
  | nil => exact ⟨fun _ k h => absurd h (Nat.not_lt_zero k), fun _ => trivial⟩
  | cons b bytes ih =>
    have hzero : addr + .ofNat 0 = addr := UInt32.add_zero addr
    have hnext (k : Nat) : addr + 1 + .ofNat k = addr + .ofNat (k + 1) := by
      rw [UInt32.ofNat_add]
      change addr + 1 + _ = addr + (.ofNat k + 1)
      grind
    simp only [Holds, ih, hnext]
    constructor
    · rintro ⟨hfirst, hrest⟩ k hk
      cases k with
      | zero => rwa [hzero]
      | succ k => exact hrest k (Nat.lt_of_succ_lt_succ hk)
    · intro h
      exact ⟨hzero ▸ h 0 (Nat.succ_pos _), fun k hk => h (k + 1) (Nat.succ_lt_succ hk)⟩

/-- Two rows one behind the other. -/
theorem holds_append {front back : List UInt8} : s.Holds addr (front ++ back) ↔
    s.Holds addr front ∧ s.Holds (addr + .ofNat front.length) back := by
  induction front generalizing addr with
  | nil =>
    have haddr : addr + .ofNat ([] : List UInt8).length = addr := UInt32.add_zero addr
    rw [haddr]
    simp [Holds]
  | cons b front ih =>
    have haddr : addr + .ofNat (b :: front).length = addr + 1 + .ofNat front.length := by
      rw [List.length_cons, UInt32.ofNat_add]
      change addr + (.ofNat front.length + 1) = _
      grind
    rw [haddr, List.cons_append, Holds, ih, Holds, and_assoc]

end Space

/-! ### The bytes of a number -/

/-- The bytes of a number of the given size, highest first. -/
def Size.rowOf (size : Size) (value : UInt32) : List UInt8 :=
  (size.bytesOf value).map UInt32.toUInt8

/-- A row has as many bytes as the size says. -/
theorem Size.length_rowOf (size : Size) (value : UInt32) :
    UInt32.ofNat (size.rowOf value).length = size.bytes := by
  cases size <;> rfl

/-- A row has as many bytes as the size says, as an exact number. -/
theorem Size.rowOf_length (size : Size) (value : UInt32) :
    (size.rowOf value).length = size.bytes.toNat := by
  cases size <;> rfl

/-- A byte of a number is one of its digits to the base 256. -/
theorem toUInt8_shiftRight (value shift : UInt32) (hshift : shift.toNat < 32) :
    (value >>> shift).toUInt8 = .ofNat (value.toNat / 2 ^ shift.toNat % 256) := by
  refine UInt8.toNat_inj.1 ?_
  rw [UInt32.toNat_toUInt8, UInt32.toNat_shiftRight, Nat.mod_eq_of_lt hshift,
    Nat.shiftRight_eq_div_pow, UInt8.toNat_ofNat']
  omega

/-- The bytes of a number are its digits. -/
theorem Size.rowOf_eq_map (size : Size) (value : UInt32) :
    size.rowOf value = (List.range size.bytes.toNat).map fun k =>
      .ofNat (value.toNat / 2 ^ (8 * (size.bytes.toNat - 1 - k)) % 256) := by
  have hlowest : value.toUInt8 = .ofNat (value.toNat / 2 ^ 0 % 256) :=
    (congrArg UInt32.toUInt8 UInt32.shiftRight_zero.symm).trans
      (toUInt8_shiftRight value 0 (by decide))
  cases size with
  | byte =>
    change [value.toUInt8] = [_]
    rw [hlowest]
    rfl
  | word =>
    change [(value >>> 8).toUInt8, value.toUInt8] = [_, _]
    rw [toUInt8_shiftRight _ 8 (by decide), hlowest]
    rfl
  | long =>
    change [(value >>> 24).toUInt8, (value >>> 16).toUInt8, (value >>> 8).toUInt8,
      value.toUInt8] = [_, _, _, _]
    rw [toUInt8_shiftRight _ 24 (by decide), toUInt8_shiftRight _ 16 (by decide),
      toUInt8_shiftRight _ 8 (by decide), hlowest]
    rfl

/-- A byte below a number that leaves room for it. -/
theorem toNat_shiftLeft_or {high : UInt32} (hhigh : high.toNat < 2 ^ 24) (low : UInt8) :
    (high <<< 8 ||| low.toUInt32).toNat = high.toNat * 256 + low.toNat := by
  have hroom : high.toNat <<< 8 < 2 ^ 32 := by
    rw [Nat.shiftLeft_eq]
    omega
  rw [UInt32.toNat_or, UInt32.toNat_shiftLeft, UInt8.toNat_toUInt32]
  change (high.toNat <<< 8) % 2 ^ 32 ||| low.toNat = _
  rw [Nat.mod_eq_of_lt hroom, ← Nat.shiftLeft_add_eq_or_of_lt low.toNat_lt, Nat.shiftLeft_eq]

/-- Shifting by one byte more. -/
theorem shiftRight_byte (value shift : UInt32) (hshift : shift.toNat < 24) :
    value >>> (shift + 8) = value >>> shift >>> 8 := by
  refine UInt32.toNat_inj.1 ?_
  have hroom : shift.toNat + 8 < 2 ^ 32 := by omega
  have hadd : (shift + 8).toNat = shift.toNat + 8 := toNat_add_of_lt hroom
  rw [UInt32.toNat_shiftRight, UInt32.toNat_shiftRight, UInt32.toNat_shiftRight, hadd,
    Nat.mod_eq_of_lt (by omega), Nat.mod_eq_of_lt (by omega), Nat.shiftRight_add]
  rfl

namespace Region

variable {r : Region} {i n : Nat}

/-- A number of up to four bytes fits in these. -/
theorem number_lt (hn : n ≤ 4) : (r.number i n).toNat < 2 ^ (8 * n) := by
  induction n with
  | zero => exact Nat.one_pos
  | succ n ih =>
    have hhigh := ih (by omega)
    have hroom : 2 ^ (8 * n) ≤ 2 ^ 24 := Nat.pow_le_pow_right (by decide) (by omega)
    have hlow := (r.byte (i + n)).toNat_lt
    have hnext : 2 ^ (8 * (n + 1)) = 2 ^ (8 * n) * 256 := by rw [Nat.mul_succ, Nat.pow_add]
    rw [number, toNat_shiftLeft_or (by omega)]
    omega

/-- A number of up to four bytes is made up of the number above and the lowest byte. -/
theorem toNat_number (hn : n < 4) :
    (r.number i (n + 1)).toNat = (r.number i n).toNat * 256 + (r.byte (i + n)).toNat := by
  have hhigh : (r.number i n).toNat < 2 ^ (8 * n) := number_lt (by omega)
  have hroom : 2 ^ (8 * n) ≤ 2 ^ 24 := Nat.pow_le_pow_right (by decide) (by omega)
  exact toNat_shiftLeft_or (by omega) _

/-- The low byte of a number is the last of its bytes. -/
theorem toUInt8_number (hn : n < 4) : (r.number i (n + 1)).toUInt8 = r.byte (i + n) := by
  refine UInt8.toNat_inj.1 ?_
  have hbyte := (r.byte (i + n)).toNat_lt
  rw [UInt32.toNat_toUInt8, toNat_number hn]
  omega

/-- A number without its low byte is that of the bytes before. -/
theorem number_shiftRight (hn : n < 4) : r.number i (n + 1) >>> 8 = r.number i n := by
  refine UInt32.toNat_inj.1 ?_
  have hbyte := (r.byte (i + n)).toNat_lt
  rw [UInt32.toNat_shiftRight, toNat_number hn]
  change (_ >>> 8) = _
  rw [Nat.shiftRight_eq_div_pow]
  omega

/-- The bytes of a number that is read are those in memory. -/
theorem rowOf_number (r : Region) (i : Nat) (size : Size) :
    size.rowOf (r.number i size.bytes.toNat) =
      (List.range size.bytes.toNat).map fun k => r.byte (i + k) := by
  have hword : r.number i 4 >>> 16 = r.number i 2 := by
    have hshift : r.number i 4 >>> 16 = r.number i 4 >>> 8 >>> 8 := shiftRight_byte _ 8 (by decide)
    rw [hshift, number_shiftRight (by decide), number_shiftRight (by decide)]
  have hhigh : r.number i 4 >>> 24 = r.number i 1 := by
    have hshift : r.number i 4 >>> 24 = r.number i 4 >>> 16 >>> 8 :=
      shiftRight_byte _ 16 (by decide)
    rw [hshift, hword, number_shiftRight (by decide)]
  cases size with
  | byte =>
    change [(r.number i 1).toUInt8] = [r.byte (i + 0)]
    rw [toUInt8_number (by decide)]
  | word =>
    change [(r.number i 2 >>> 8).toUInt8, (r.number i 2).toUInt8] = [r.byte (i + 0), r.byte (i + 1)]
    rw [number_shiftRight (by decide), toUInt8_number (by decide), toUInt8_number (by decide)]
  | long =>
    change [(r.number i 4 >>> 24).toUInt8, (r.number i 4 >>> 16).toUInt8,
      (r.number i 4 >>> 8).toUInt8, (r.number i 4).toUInt8] =
        [r.byte (i + 0), r.byte (i + 1), r.byte (i + 2), r.byte (i + 3)]
    rw [hhigh, hword, number_shiftRight (by decide), toUInt8_number (by decide),
      toUInt8_number (by decide), toUInt8_number (by decide), toUInt8_number (by decide)]

end Region

/-- A number that can be read lies in memory byte by byte. -/
theorem Space.holds_of_read {s : Space} {addr value : UInt32} {size : Size} {fc : FunctionCode}
    {access : Access} (h : s.read addr size.bytes fc access = .ok value) :
    s.Holds addr (size.rowOf value) := by
  rw [read] at h
  cases hlocate : s.locate addr size.bytes fc access with
  | error e => simp [hlocate] at h
  | ok spot =>
    simp only [hlocate, Except.ok.injEq] at h
    obtain ⟨region, hregion, -⟩ := region?_of_locate hlocate
    rw [numberAt_eq hregion] at h
    rw [← h, Region.rowOf_number, holds_iff]
    intro k hk
    have hk : k < size.bytes.toNat := by rwa [List.length_map, List.length_range] at hk
    rw [byte?, spot?_of_locate hlocate (position_lt hk), toNat_position hk, Option.map_some, byteAt,
      hregion, List.getElem_map, List.getElem_range]

/-- Data that can be loaded lies in memory byte by byte. -/
theorem Machine.holds_of_load {m : Machine} {addr value : UInt32} {size : Size}
    {fc : FunctionCode} (h : m.load addr size fc = .ok value) :
    m.space.Holds addr (size.rowOf value) :=
  Space.holds_of_read (load_eq_ok.1 h).2

end Cpu68k
