import Cpu68k.Proofs.Comparisons

/-!
# Arithmetic in exact integers

Sums and differences are computed in 32 bits and their codes are read off the highest bits
that count. `arithmetic_exact` says what they are in exact integers: the result is the exact
one modulo the size, carry and extend tell whether the exact result without sign fits, and
overflow whether the one with sign does. The bits of the operands above the size do not count.
-/

namespace Cpu68k

/-! ### The low bits of a result -/

namespace Size

variable {size : Size} {a : UInt32}

/-- The low bits of a sum depend on those of its operands only. -/
@[simp]
theorem low_add (size : Size) (a b : UInt32) : size.low (a + b) = size.low a + size.low b :=
  BitVec.setWidth_add _ _ size.width_le

/-- The low bits of zero. -/
@[simp]
theorem low_zero (size : Size) : size.low 0 = 0#(size.width) := by
  cases size <;> rfl

/-- A value without bits above the size is the number of its low bits. -/
theorem toNat_low_of_masked (h : a &&& size.mask = a) : (size.low a).toNat = a.toNat := by
  rw [toNat_low, h]

/-- A value without bits above the size is zero if its low bits are. -/
theorem low_eq_zero_iff (h : a &&& size.mask = a) : size.low a = 0 ↔ a = 0 := by
  rw [← BitVec.toNat_inj, ← UInt32.toNat_inj, toNat_low_of_masked h]
  rfl

end Size

/-! ### Integers modulo the size of a long -/

/-- An integer as a long is its residue. -/
theorem toNat_ofInt (x : Int) : ((UInt32.ofInt x).toNat : Int) = x % 2 ^ 32 := by
  rw [UInt32.ofInt, UInt32.toNat_ofNat']
  omega

/-- A long is that of its number. -/
@[simp]
theorem ofInt_toNat (a : UInt32) : UInt32.ofInt a.toNat = a := by
  have h := a.toNat_lt
  rw [← UInt32.toNat_inj, ← Int.natCast_inj, toNat_ofInt]
  omega

/-- Natural numbers and integers are cut to a long alike. -/
theorem ofInt_natCast (n : Nat) : UInt32.ofInt n = UInt32.ofNat n := by
  rw [← UInt32.toNat_inj, ← Int.natCast_inj, toNat_ofInt, UInt32.toNat_ofNat']
  omega

/-- The long of a difference is the difference of the longs. -/
theorem ofInt_sub (x y : Int) : UInt32.ofInt (x - y) = UInt32.ofInt x - UInt32.ofInt y := by
  rw [Int.sub_eq_add_neg, UInt32.ofInt_add, UInt32.ofInt_neg, ← UInt32.sub_eq_add_neg]

/-- An integer as a long has the bits of its two's complement. -/
theorem toBitVec_ofInt (x : Int) : (UInt32.ofInt x).toBitVec = BitVec.ofInt 32 x := by
  rw [← BitVec.toNat_inj, UInt32.toNat_toBitVec, ← Int.natCast_inj, toNat_ofInt,
    BitVec.toNat_ofInt]
  omega

namespace Size

/-- The mask has the bits below the width. -/
theorem getLsbD_mask (size : Size) {i : Nat} (hi : i < 32) :
    size.mask.toBitVec.getLsbD i = decide (i < size.width) := by
  have hmask : size.mask.toBitVec = (BitVec.allOnes size.width).setWidth 32 := by
    cases size <;> rfl
  rw [hmask, BitVec.getLsbD_setWidth, BitVec.getLsbD_allOnes, decide_eq_true hi, Bool.true_and]

/-- Repeating the sign keeps the number with sign. -/
theorem signExtend_eq_ofInt (size : Size) (a : UInt32) :
    size.signExtend a = UInt32.ofInt (size.low a).toInt := by
  have hsign : (a &&& size.mask &&& size.signBit = 0) = ((size.low a).msb = false) := by
    rw [← size.low_and_mask, ← size.and_signBit_bne_zero]
    simp
  rw [← UInt32.toBitVec_inj, toBitVec_ofInt]
  change _ = (size.low a).signExtend 32
  refine BitVec.eq_of_getLsbD_eq fun i hi => ?_
  have hbit := size.getLsbD_mask hi
  rw [BitVec.getLsbD_signExtend, decide_eq_true hi, Bool.true_and, signExtend]
  simp only [hsign]
  cases (size.low a).msb with
  | false => simp [hbit, low]; grind
  | true => simp [low, hi]; grind

end Size

/-! ### The low bits of an answer -/

/-- A sum has no bits above the size. -/
theorem masked_add (src dst : UInt32) (size : Size) (sr : Status) :
    (add src dst size sr).1 &&& size.mask = (add src dst size sr).1 := by
  simp [add, UInt32.and_assoc]

/-- A difference has no bits above the size. -/
theorem masked_sub (src dst : UInt32) (size : Size) (sr : Status) :
    (sub src dst size sr).1 &&& size.mask = (sub src dst size sr).1 := by
  simp [sub, UInt32.and_assoc]

/-- The value of an addition is the sum of the low bits. -/
@[simp]
theorem low_add_fst (src dst : UInt32) (size : Size) (sr : Status) :
    size.low (add src dst size sr).1 = size.low dst + size.low src := by
  simp [add, BitVec.add_comm]

/-- The value of a subtraction is the difference of the low bits. -/
@[simp]
theorem low_sub_fst (src dst : UInt32) (size : Size) (sr : Status) :
    size.low (sub src dst size sr).1 = size.low dst - size.low src := by
  simp [sub]

/-! ### The highest bits of a sum -/

section

variable {n : Nat}

/-- A sum overflows if the exact one does not fit with its sign. -/
theorem saddOverflow_eq_decide (s d : BitVec n) :
    d.saddOverflow s = decide (¬FitsSigned n (d.toInt + s.toInt)) := by
  rw [Bool.eq_iff_iff, BitVec.saddOverflow, Bool.or_eq_true, decide_eq_true_eq,
    decide_eq_true_eq, decide_eq_true_eq, FitsSigned]
  omega

/-- A sum carries if both operands have the highest bit, or if one has it and the sum has
not. -/
theorem msb_carries (hn : 0 < n) (s d : BitVec n) :
    (s &&& d ||| (s ||| d) &&& ~~~(d + s)).msb = decide (2 ^ n ≤ d.toNat + s.toNat) := by
  have hhalf : 2 ^ n = 2 * 2 ^ (n - 1) := by
    rw [← Nat.pow_succ', Nat.succ_eq_add_one, Nat.sub_add_cancel hn]
  have hs := s.isLt
  have hd := d.isLt
  have hsum : (d + s).toNat = if 2 ^ n ≤ d.toNat + s.toNat then d.toNat + s.toNat - 2 ^ n
      else d.toNat + s.toNat := by
    rw [BitVec.toNat_add]
    split
    next hge => rw [Nat.mod_eq_sub_mod hge, Nat.mod_eq_of_lt (by omega)]
    next hlt => exact Nat.mod_eq_of_lt (Nat.not_le.1 hlt)
  rw [BitVec.msb_or, BitVec.msb_and, BitVec.msb_and, BitVec.msb_or, BitVec.msb_not,
    decide_eq_true hn, Bool.true_and, Bool.eq_iff_iff]
  simp only [BitVec.msb_eq_decide, hsum, Bool.or_eq_true, Bool.and_eq_true,
    Bool.not_eq_true', decide_eq_true_eq, decide_eq_false_iff_not]
  split <;> omega

/-- A sum overflows if the operands agree in sign and it does not. -/
theorem msb_sum_overflows (s d : BitVec n) :
    ((s ^^^ (d + s)) &&& (d ^^^ (d + s))).msb = d.saddOverflow s := by
  rw [BitVec.saddOverflow_eq, BitVec.msb_and, BitVec.msb_xor, BitVec.msb_xor]
  cases d.msb <;> cases s.msb <;> cases (d + s).msb <;> rfl

/-- A difference is the exact one modulo the size. -/
theorem toNat_sub_eq_emod (s d : BitVec n) :
    ((d - s).toNat : Int) = ((d.toNat : Int) - s.toNat) % 2 ^ n := by
  have hs := s.isLt
  rw [BitVec.toNat_sub', Int.natCast_emod, Int.natCast_add, Int.natCast_sub (Nat.le_of_lt hs)]
  have hshift : (d.toNat : Int) + ((2 ^ n : Nat) - s.toNat) =
      d.toNat - s.toNat + (2 ^ n : Nat) := by omega
  rw [hshift, Int.add_emod_right, Int.natCast_pow]
  rfl

/-- The negation of a number does not fit if the number is the least one. -/
theorem not_fitsSigned_neg_iff (d : BitVec n) :
    ¬FitsSigned n (0 - d.toInt) ↔ d.toInt = -2 ^ (n - 1) := by
  have hlt := BitVec.toInt_lt (x := d)
  have hle := BitVec.le_toInt d
  rw [FitsSigned]
  omega

end

/-! ### The answers -/

/-- Extend is the carry of an arithmetic result. -/
theorem Status.has_extend_arithmetic {sr : Status} {size : Size} {result : UInt32}
    {carries overflows : Bool} :
    (sr.arithmetic size result carries overflows).has Status.extend = carries := by
  rw [arithmetic, has_assign_of_disjoint _ _ (by decide)]
  exact has_assign _ _ (by decide) (by decide)

/-- The answer of an operation whose exact result is `exact`: the value is the exact one
modulo the size, and the codes tell whether it carries, whether it overflows, whether the
value is zero, and what its highest bit is. -/
structure Computes (size : Size) (sr : Status) (exact : Int) (carries overflows : Prop)
    (answer : UInt32 × Status) : Prop where
  /-- The value, which has no bits above the size. -/
  value : (answer.1.toNat : Int) = exact % 2 ^ size.width
  /-- The carry bit. -/
  carry : answer.2.has Status.carry = true ↔ carries
  /-- Extend is a copy of the carry bit. -/
  extend : answer.2.has Status.extend = true ↔ carries
  /-- The overflow bit. -/
  overflow : answer.2.has Status.overflow = true ↔ overflows
  /-- The zero bit. -/
  zero : answer.2.has Status.zero = true ↔ answer.1 = 0
  /-- The sign bit is the highest bit of the value. -/
  negative : answer.2.has Status.negative = answer.1.toNat.testBit (size.width - 1)
  /-- All other bits are as they were. -/
  others : Status.SameOutside Status.conditionCodes sr answer.2

/-- The answer described in other words. -/
theorem Computes.congr {size : Size} {sr : Status} {exact exact' : Int}
    {carries carries' overflows overflows' : Prop} {answer : UInt32 × Status}
    (h : Computes size sr exact carries overflows answer) (hexact : exact = exact')
    (hcarries : carries ↔ carries') (hoverflows : overflows ↔ overflows') :
    Computes size sr exact' carries' overflows' answer := by
  rwa [← hexact, ← propext hcarries, ← propext hoverflows]

section

variable {size : Size} {sr : Status} {exact : Int} {carries overflows : Prop}
  [Decidable carries] [Decidable overflows] {result : UInt32} {carried overflowed : Bool}

/-- The codes of arithmetic describe a result without bits above the size. -/
theorem computes_arithmetic (hmasked : result &&& size.mask = result)
    (hvalue : ((size.low result).toNat : Int) = exact % 2 ^ size.width)
    (hcarries : carried = decide carries) (hoverflows : overflowed = decide overflows) :
    Computes size sr exact carries overflows
      (result, sr.arithmetic size result carried overflowed) where
  value := by rw [← hvalue, Size.toNat_low_of_masked hmasked]
  carry := by rw [Status.has_carry_arithmetic, hcarries, decide_eq_true_iff]
  extend := by rw [Status.has_extend_arithmetic, hcarries, decide_eq_true_iff]
  overflow := by rw [Status.has_overflow_arithmetic, hoverflows, decide_eq_true_iff]
  zero := by rw [Status.has_zero_arithmetic, beq_iff_eq, Size.low_eq_zero_iff hmasked]
  negative := by
    rw [Status.has_negative_arithmetic, BitVec.msb_eq_getLsbD_last,
      ← Size.toNat_low_of_masked hmasked]
    rfl
  others := Status.sameOutside_arithmetic _ _ _ _ _

end

/-- A sum in exact integers. -/
theorem computes_add (src dst : UInt32) (size : Size) (sr : Status) :
    Computes size sr ((size.low dst).toNat + (size.low src).toNat)
      (2 ^ size.width ≤ (size.low dst).toNat + (size.low src).toNat)
      (¬FitsSigned size.width ((size.low dst).toInt + (size.low src).toInt))
      (add src dst size sr) := by
  apply computes_arithmetic (masked_add src dst size sr)
  · rw [low_add_fst, BitVec.toNat_add]
    simp
  · rw [Size.and_signBit_bne_zero, ← msb_carries size.width_pos]
    simp [BitVec.add_comm]
  · rw [Size.and_signBit_bne_zero, ← saddOverflow_eq_decide, ← msb_sum_overflows]
    simp [BitVec.add_comm]

/-- A difference in exact integers. Carry and overflow are those of a comparison. -/
theorem computes_sub (src dst : UInt32) (size : Size) (sr : Status) :
    Computes size sr ((size.low dst).toNat - (size.low src).toNat)
      ((size.low dst).toNat < (size.low src).toNat)
      (¬FitsSigned size.width ((size.low dst).toInt - (size.low src).toInt))
      (sub src dst size sr) := by
  have hcodes := Status.compares_sub src dst size sr
  apply computes_arithmetic (masked_sub src dst size sr)
  · rw [low_sub_fst, toNat_sub_eq_emod]
  · exact Status.has_carry_arithmetic.symm.trans hcodes.carry
  · exact Status.has_overflow_arithmetic.symm.trans hcodes.overflow

/-- A negation is the difference from zero: it borrows from all but zero, and only that of
the least number overflows. -/
theorem computes_negate (dst : UInt32) (size : Size) (sr : Status) :
    Computes size sr (0 - (size.low dst).toNat) (size.low dst ≠ 0)
      ((size.low dst).toInt = -2 ^ (size.width - 1)) (negate dst size sr) := by
  apply (computes_sub dst 0 size sr).congr
  · simp
  · simp [Nat.pos_iff_ne_zero, ← BitVec.toNat_inj]
  · rw [Size.low_zero, BitVec.toInt_zero, not_fitsSigned_neg_iff]

/-- For all operands, sizes and status words, sums, differences and negations are those of
exact integers: `u` is the number of the bits that count, without sign `toNat` and with sign
`toInt`. The bits of the operands above the size make no difference. -/
theorem arithmetic_exact (src dst : UInt32) (size : Size) (sr : Status) :
    Computes size sr ((size.low dst).toNat + (size.low src).toNat)
      (2 ^ size.width ≤ (size.low dst).toNat + (size.low src).toNat)
      (¬FitsSigned size.width ((size.low dst).toInt + (size.low src).toInt))
      (add src dst size sr) ∧
    Computes size sr ((size.low dst).toNat - (size.low src).toNat)
      ((size.low dst).toNat < (size.low src).toNat)
      (¬FitsSigned size.width ((size.low dst).toInt - (size.low src).toInt))
      (sub src dst size sr) ∧
    Computes size sr (0 - (size.low dst).toNat) (size.low dst ≠ 0)
      ((size.low dst).toInt = -2 ^ (size.width - 1)) (negate dst size sr) ∧
    ∀ above above' : UInt32,
      add (size.merge above src) (size.merge above' dst) size sr = add src dst size sr ∧
      sub (size.merge above src) (size.merge above' dst) size sr = sub src dst size sr ∧
      negate (size.merge above' dst) size sr = negate dst size sr := by
  refine ⟨computes_add src dst size sr, computes_sub src dst size sr, computes_negate dst size sr,
    fun above above' => ⟨?_, ?_, ?_⟩⟩
  · rw [add, add, Size.merge_and_mask, Size.merge_and_mask]
  · rw [sub, sub, Size.merge_and_mask, Size.merge_and_mask]
  · rw [negate, negate, sub, sub, Size.merge_and_mask]

/-- The bytes 127 and 1 make -128: that overflows without a carry. -/
example : (add 1 0x17F .byte ⟨0⟩).1 = 0x80 ∧ (add 1 0x17F .byte ⟨0⟩).2.has Status.overflow ∧
    ¬(add 1 0x17F .byte ⟨0⟩).2.has Status.carry := by decide

end Cpu68k
