import Cpu68k.Proofs.StatusEffects
import Mathlib.Algebra.Ring.Int.Defs

/-!
# Comparing integers

A comparison subtracts and keeps the condition codes of the difference only. The tests that
read these codes decide how the operands compare as integers, with and without sign, also
where the difference does not fit the size. `compare_decides` is this fact for all operands;
it rests on what the codes are in terms of the low bits of the operands: the carry is the
order without sign, and sign and overflow differ where the order with sign has it.
-/

namespace Cpu68k

/-! ### The bits that count -/

namespace Size

/-- The width in bits. -/
def width : Size → Nat
  | byte => 8
  | word => 16
  | long => 32

/-- The bits of a value that count. Without sign they are its `toNat`, and as two's
complement its `toInt`. -/
def low (size : Size) (value : UInt32) : BitVec size.width :=
  value.toBitVec.setWidth size.width

variable {size : Size} {a b : UInt32}

/-- Every size has a highest bit. -/
@[simp]
theorem width_pos (size : Size) : 0 < size.width := by
  cases size <;> decide

/-- No size is larger than a long. -/
theorem width_le (size : Size) : size.width ≤ 32 := by
  cases size <;> decide

/-- The width is that of the bytes of the size. -/
theorem width_eq (size : Size) : size.width = 8 * size.bytes.toNat := by
  cases size <;> rfl

/-- The bits that count are the number modulo a power of two. -/
theorem toNat_and_mask (size : Size) (a : UInt32) :
    (a &&& size.mask).toNat = a.toNat % 2 ^ size.width := by
  have hmask : size.mask.toNat = 2 ^ size.width - 1 := by cases size <;> rfl
  rw [UInt32.toNat_and, hmask, Nat.and_two_pow_sub_one_eq_mod]

/-- The low bits are those under the mask. -/
theorem toNat_low (size : Size) (a : UInt32) : (size.low a).toNat = (a &&& size.mask).toNat := by
  rw [low, BitVec.toNat_setWidth, toNat_and_mask]
  rfl

/-- All low bits of the mask are set. -/
@[simp]
theorem low_mask (size : Size) : size.low size.mask = BitVec.allOnes size.width := by
  cases size <;> rfl

/-- The low bits of a conjunction. -/
@[simp]
theorem low_and (size : Size) (a b : UInt32) : size.low (a &&& b) = size.low a &&& size.low b :=
  BitVec.setWidth_and

/-- The low bits of a disjunction. -/
@[simp]
theorem low_or (size : Size) (a b : UInt32) : size.low (a ||| b) = size.low a ||| size.low b :=
  BitVec.setWidth_or

/-- The low bits of an exclusive disjunction. -/
@[simp]
theorem low_xor (size : Size) (a b : UInt32) : size.low (a ^^^ b) = size.low a ^^^ size.low b :=
  BitVec.setWidth_xor

/-- The low bits of a complement. -/
@[simp]
theorem low_not (size : Size) (a : UInt32) : size.low (~~~a) = ~~~size.low a :=
  BitVec.setWidth_not size.width_le

/-- The low bits of a difference depend on those of its operands only. -/
@[simp]
theorem low_sub (size : Size) (a b : UInt32) : size.low (a - b) = size.low a - size.low b := by
  rw [low, UInt32.toBitVec_sub, BitVec.sub_eq_add_neg, BitVec.setWidth_add _ _ size.width_le,
    BitVec.setWidth_neg_of_le size.width_le, ← BitVec.sub_eq_add_neg]
  rfl

/-- Only the bits that count make a difference. -/
theorem low_and_mask (size : Size) (a : UInt32) : size.low (a &&& size.mask) = size.low a := by
  rw [low_and, low_mask, BitVec.and_allOnes]

/-- The bits that count are zero if they are the same as those of zero. -/
theorem and_mask_beq_zero (size : Size) (a : UInt32) :
    (a &&& size.mask == 0) = (size.low a == 0) := by
  rw [Bool.eq_iff_iff, beq_iff_eq, beq_iff_eq, ← UInt32.toNat_inj, ← BitVec.toNat_inj, toNat_low]
  rfl

/-- The sign is the highest bit that counts. -/
theorem and_signBit_bne_zero (size : Size) (a : UInt32) :
    (a &&& size.signBit != 0) = (size.low a).msb := by
  have hpower : size.signBit.toBitVec = BitVec.twoPow 32 (size.width - 1) := by
    cases size <;> rfl
  have hbit : a &&& size.signBit =
      if a.toBitVec.getLsbD (size.width - 1) then size.signBit else 0 := by
    rw [← UInt32.toBitVec_inj, apply_ite UInt32.toBitVec, UInt32.toBitVec_and, hpower]
    exact BitVec.and_twoPow _ _
  rw [low, BitVec.msb_setWidth, decide_eq_true size.width_pos, Bool.true_and, hbit]
  cases a.toBitVec.getLsbD (size.width - 1) with
  | false => rfl
  | true => cases size <;> rfl

end Size

/-! ### The highest bits of a difference -/

section

variable {n : Nat}

/-- Whether a number is an integer of `n` bits with sign. -/
def FitsSigned (n : Nat) (x : Int) : Prop :=
  -2 ^ (n - 1) ≤ x ∧ x < 2 ^ (n - 1)

instance (n : Nat) (x : Int) : Decidable (FitsSigned n x) :=
  inferInstanceAs (Decidable (_ ∧ _))

/-- A difference overflows if the exact one does not fit with its sign. -/
theorem ssubOverflow_eq_decide (s d : BitVec n) :
    d.ssubOverflow s = decide (¬FitsSigned n (d.toInt - s.toInt)) := by
  rw [Bool.eq_iff_iff, BitVec.ssubOverflow, Bool.or_eq_true, decide_eq_true_eq,
    decide_eq_true_eq, decide_eq_true_eq, FitsSigned]
  omega

/-- A difference borrows if the subtrahend has the highest bit and the minuend has not, or if
the difference has it where they agree. -/
theorem msb_borrows (hn : 0 < n) (s d : BitVec n) :
    (~~~d &&& s ||| (~~~d ||| s) &&& (d - s)).msb = d.ult s := by
  have hhalf : 2 ^ n = 2 * 2 ^ (n - 1) := by
    rw [← Nat.pow_succ', Nat.succ_eq_add_one, Nat.sub_add_cancel hn]
  have hs := s.isLt
  have hd := d.isLt
  have hdifference : (d - s).toNat = if d.toNat < s.toNat then 2 ^ n - (s.toNat - d.toNat)
      else d.toNat - s.toNat := by
    split
    next hlt => exact BitVec.toNat_sub_of_lt hlt
    next hge => exact BitVec.toNat_sub_of_le (Nat.not_lt.1 hge)
  rw [BitVec.msb_or, BitVec.msb_and, BitVec.msb_and, BitVec.msb_or, BitVec.msb_not,
    decide_eq_true hn, Bool.true_and, Bool.eq_iff_iff]
  simp only [BitVec.ult, BitVec.msb_eq_decide, hdifference, Bool.or_eq_true, Bool.and_eq_true,
    Bool.not_eq_true', decide_eq_true_eq, decide_eq_false_iff_not]
  split <;> omega

/-- A difference overflows if the operands differ in sign and it does not have the sign of
the minuend. -/
theorem msb_overflows (s d : BitVec n) :
    ((s ^^^ d) &&& ((d - s) ^^^ d)).msb = d.ssubOverflow s := by
  rw [BitVec.ssubOverflow_eq, BitVec.msb_and, BitVec.msb_xor, BitVec.msb_xor]
  cases d.msb <;> cases s.msb <;> cases (d - s).msb <;> rfl

/-- The order with sign shows in the sign of the difference, unless that overflows. -/
theorem msb_sub_bne_ssubOverflow (hn : 0 < n) (s d : BitVec n) :
    ((d - s).msb != d.ssubOverflow s) = d.slt s := by
  rw [BitVec.slt_eq_ult, ← msb_borrows hn, BitVec.ssubOverflow_eq, BitVec.msb_or, BitVec.msb_and,
    BitVec.msb_and, BitVec.msb_or, BitVec.msb_not, decide_eq_true hn]
  cases d.msb <;> cases s.msb <;> cases (d - s).msb <;> rfl

end

/-! ### The codes of a comparison -/

namespace Status

variable {sr : Status} {size : Size} {result : UInt32} {carries overflows : Bool}

/-- The carry bit of an arithmetic result. -/
theorem has_carry_arithmetic :
    (sr.arithmetic size result carries overflows).has carry = carries := by
  rw [arithmetic, has_assign_of_disjoint _ _ (by decide), has_assign_of_disjoint _ _ (by decide)]
  exact has_assign _ _ (by decide) (by decide)

/-- The overflow bit of an arithmetic result. -/
theorem has_overflow_arithmetic :
    (sr.arithmetic size result carries overflows).has overflow = overflows :=
  has_assign _ _ (by decide) (by decide)

/-- The zero bit tells whether all low bits of the result are clear. -/
theorem has_zero_arithmetic : (sr.arithmetic size result carries overflows).has zero =
    (size.low result == 0) := by
  rw [arithmetic, has_assign_of_disjoint _ _ (by decide), has_assign_of_disjoint _ _ (by decide),
    has_assign_of_disjoint _ _ (by decide), signAndZero, has_assign_of_disjoint _ _ (by decide),
    has_assign _ _ (by decide) (by decide), Size.and_mask_beq_zero]

/-- The sign bit is the highest of the low bits of the result. -/
theorem has_negative_arithmetic : (sr.arithmetic size result carries overflows).has negative =
    (size.low result).msb := by
  rw [arithmetic, has_assign_of_disjoint _ _ (by decide), has_assign_of_disjoint _ _ (by decide),
    has_assign_of_disjoint _ _ (by decide), signAndZero, has_assign _ _ (by decide) (by decide),
    Size.and_signBit_bne_zero, Size.low_and_mask]

/-- The codes of the status word are those of the difference `d - s`. -/
structure Compares {n : Nat} (s d : BitVec n) (sr : Status) : Prop where
  /-- The carry bit tells whether `d` is less than `s` without sign. -/
  carry : sr.has carry = decide (d.toNat < s.toNat)
  /-- The zero bit tells whether the two are equal. -/
  zero : sr.has zero = decide (d = s)
  /-- The sign bit is the sign of the difference, cut to the size. -/
  negative : sr.has negative = decide ((d - s).toInt < 0)
  /-- The overflow bit tells whether the exact difference does not fit. -/
  overflow : sr.has overflow = decide (¬FitsSigned n (d.toInt - s.toInt))

/-- A difference sets the codes of its low bits. -/
theorem compares_sub (src dst : UInt32) (size : Size) (sr : Status) :
    (sub src dst size sr).2.Compares (size.low src) (size.low dst) := by
  unfold sub
  constructor
  · rw [has_carry_arithmetic, Size.and_signBit_bne_zero]
    refine Eq.trans ?_ (msb_borrows size.width_pos _ _)
    simp
  · rw [has_zero_arithmetic, Bool.eq_iff_iff, beq_iff_eq, decide_eq_true_eq]
    simp [BitVec.sub_eq_iff_eq_add]
  · rw [has_negative_arithmetic, ← BitVec.msb_eq_toInt]
    simp
  · rw [has_overflow_arithmetic, Size.and_signBit_bne_zero, ← ssubOverflow_eq_decide,
      ← msb_overflows]
    simp

/-- Extend is no code of a comparison. -/
theorem Compares.assign_extend {n : Nat} {s d : BitVec n} (h : sr.Compares s d) (on : Bool) :
    (sr.assign extend on).Compares s d where
  carry := (has_assign_of_disjoint _ _ (by decide)).trans h.carry
  zero := (has_assign_of_disjoint _ _ (by decide)).trans h.zero
  negative := (has_assign_of_disjoint _ _ (by decide)).trans h.negative
  overflow := (has_assign_of_disjoint _ _ (by decide)).trans h.overflow

/-- Comparing sets the codes of the difference. -/
theorem compares_compareStatus (src dst : UInt32) (size : Size) (sr : Status) :
    (compareStatus src dst size sr).Compares (size.low src) (size.low dst) :=
  (compares_sub src dst size sr).assign_extend _

end Status

/-! ### What the tests say -/

/-- What a test decides about `d` once it is compared with `s`. -/
def Test.Decides {n : Nat} (s d : BitVec n) : Test → Prop
  | always => True
  | never => False
  | higher => s.toNat < d.toNat
  | lowerOrSame => d.toNat ≤ s.toNat
  | carryClear => s.toNat ≤ d.toNat
  | carrySet => d.toNat < s.toNat
  | notEqual => d ≠ s
  | equal => d = s
  | overflowClear => FitsSigned n (d.toInt - s.toInt)
  | overflowSet => ¬FitsSigned n (d.toInt - s.toInt)
  | plus => 0 ≤ (d - s).toInt
  | minus => (d - s).toInt < 0
  | greaterOrEqual => s.toInt ≤ d.toInt
  | less => d.toInt < s.toInt
  | greater => s.toInt < d.toInt
  | lessOrEqual => d.toInt ≤ s.toInt

/-- Sign and overflow differ where the order with sign has it. -/
theorem Status.Compares.order {n : Nat} (hn : 0 < n) {s d : BitVec n} {sr : Status}
    (h : sr.Compares s d) :
    (sr.has Status.negative != sr.has Status.overflow) = decide (d.toInt < s.toInt) := by
  rw [h.negative, h.overflow, ← BitVec.msb_eq_toInt, ← ssubOverflow_eq_decide,
    msb_sub_bne_ssubOverflow hn]
  rfl

/-- The tests read off the codes how the operands compare. -/
theorem Status.Compares.holds_iff {n : Nat} (hn : 0 < n) {s d : BitVec n} {sr : Status}
    (h : sr.Compares s d) (test : Test) : test.holds sr = true ↔ test.Decides s d := by
  have horder : sr.has Status.negative ≠ sr.has Status.overflow ↔ d.toInt < s.toInt := by
    rw [← bne_iff_ne, h.order hn, decide_eq_true_eq]
  have hnotLess : sr.has Status.negative = sr.has Status.overflow ↔ s.toInt ≤ d.toInt := by
    rw [← Int.not_lt, ← horder]
    exact Decidable.not_not.symm
  have hcarry : sr.has Status.carry = true ↔ d.toNat < s.toNat := by
    rw [h.carry, decide_eq_true_eq]
  have hzero : sr.has Status.zero = true ↔ d = s := by rw [h.zero, decide_eq_true_eq]
  have hnegative : sr.has Status.negative = true ↔ (d - s).toInt < 0 := by
    rw [h.negative, decide_eq_true_eq]
  have hoverflow : sr.has Status.overflow = true ↔ ¬FitsSigned n (d.toInt - s.toInt) := by
    rw [h.overflow, decide_eq_true_eq]
  have hequal : d = s ↔ d.toNat = s.toNat := BitVec.toNat_inj.symm
  have hequalSigned : d = s ↔ d.toInt = s.toInt := BitVec.toInt_inj.symm
  have hnot (b : Bool) : (!b) = true ↔ ¬b = true := by rw [Bool.not_eq_true', Bool.not_eq_true]
  -- First the tests that read one code or the order with sign, then their negations, and last
  -- those that read whether the operands are equal besides.
  cases test with
  | always => exact iff_of_true rfl trivial
  | never => exact iff_of_false Bool.false_ne_true id
  | carrySet => exact hcarry
  | equal => exact hzero
  | overflowSet => exact hoverflow
  | minus => exact hnegative
  | less => exact bne_iff_ne.trans horder
  | notEqual => exact (hnot _).trans (not_congr hzero)
  | overflowClear => exact (hnot _).trans ((not_congr hoverflow).trans Classical.not_not)
  | carryClear => exact (hnot _).trans ((not_congr hcarry).trans Nat.not_lt)
  | plus => exact (hnot _).trans ((not_congr hnegative).trans Int.not_lt)
  | greaterOrEqual =>
    change (sr.has Status.negative == sr.has Status.overflow) = true ↔ s.toInt ≤ d.toInt
    rw [beq_iff_eq, hnotLess]
  | higher =>
    change (!sr.has Status.carry && !sr.has Status.zero) = true ↔ s.toNat < d.toNat
    rw [Bool.and_eq_true, hnot, hnot, hcarry, hzero, hequal]
    omega
  | lowerOrSame =>
    change (sr.has Status.carry || sr.has Status.zero) = true ↔ d.toNat ≤ s.toNat
    rw [Bool.or_eq_true, hcarry, hzero, hequal]
    omega
  | greater =>
    change (!sr.has Status.zero && sr.has Status.negative == sr.has Status.overflow) = true ↔
      s.toInt < d.toInt
    rw [Bool.and_eq_true, hnot, hzero, hequalSigned, beq_iff_eq, hnotLess]
    omega
  | lessOrEqual =>
    change (sr.has Status.zero || sr.has Status.negative != sr.has Status.overflow) = true ↔
      d.toInt ≤ s.toInt
    rw [Bool.or_eq_true, hzero, hequalSigned, bne_iff_ne, horder]
    omega

/-- After a comparison each test decides how the low bits of the operands compare as
integers. The other bits of the status word stay, extend among them. -/
theorem compare_decides (src dst : UInt32) (size : Size) (sr : Status) :
    (∀ test : Test, test.holds (compareStatus src dst size sr) = true ↔
      test.Decides (size.low src) (size.low dst)) ∧
    Status.SameOutside Status.comparisonCodes sr (compareStatus src dst size sr) :=
  ⟨fun test => (Status.compares_compareStatus src dst size sr).holds_iff size.width_pos test,
    Status.sameOutside_compareStatus src dst size sr⟩

/-- The byte -128 is less than 1, although their difference, cut to a byte, is 127. -/
example : Test.less.holds (compareStatus 1 0x80 .byte ⟨0⟩) = true ∧
    Test.plus.holds (compareStatus 1 0x80 .byte ⟨0⟩) = true := by decide

end Cpu68k
