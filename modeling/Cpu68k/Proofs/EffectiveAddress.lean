import Cpu68k.Proofs.ExactArithmetic
import Cpu68k.Proofs.ExtensionWords
import Mathlib.Data.Nat.Bitwise

/-!
# Effective addresses

The operand of a mode by the architecture's definition: the sum of a register, a distance and
an index in exact integers, which is an address modulo the size of the address space. The
fields of an index word are read off its number. `Mode.resolve_exact` says that resolving a
mode gives this operand for the words in the instruction stream, moves the register of the
mode by a step, passes the words and changes nothing else, and that it fails only where the
words cannot be fetched or denote no operand.
-/

namespace Cpu68k

/-! ### The definition -/

/-- The register that an index word names. The highest bit sorts them, the three bits below
count them, and the last address register is the active stack pointer. -/
def indexRegister (r : RegisterFile) (word : UInt16) : UInt32 :=
  if word.toNat.testBit 15 then r.addrReg (threeBits (word.toNat / 4096))
  else r.dataReg (threeBits (word.toNat / 4096))

/-- The index before it is scaled: all of the register, or its low word with sign. -/
def indexNumber (r : RegisterFile) (word : UInt16) : Int :=
  if word.toNat.testBit 11 then (indexRegister r word).toNat
  else (Size.word.low (indexRegister r word)).toInt

/-- How many times the index is doubled. Before the 68020 it is taken as it is. -/
def indexScale (chip : Chip) (word : UInt16) : Nat :=
  if 68020 ≤ chip.partNumber then word.toNat / 512 % 4 else 0

/-- The sum of a base, the distance in an index word, and the scaled index. From the 68020 on
a word with bit 8 has the long form, which has no meaning here. -/
def indexedSum? (chip : Chip) (r : RegisterFile) (base : UInt32) (word : UInt16) : Option Int :=
  if 68020 ≤ chip.partNumber ∧ word.toNat.testBit 8 then none
  else some (base.toNat + (word.toBitVec.setWidth 8).toInt +
    indexNumber r word * 2 ^ indexScale chip word)

/-- The low word of `D1` as -2, taken four times, behind a distance of 4. -/
example : indexedSum? .mc68020 (RegisterFile.initial.setDataReg 1 0xFFFE) 0x100 0x1404 =
    some 0xFC := by decide

/-- The sum that a pointer names. -/
def Pointer.sum? (chip : Chip) (r : RegisterFile) : Pointer → List UInt16 → Option Int
  | indirect n, [] => some (r.addrReg n).toNat
  | displaced n, [word] => some ((r.addrReg n).toNat + word.toBitVec.toInt)
  | indexed n, [word] => indexedSum? chip r (r.addrReg n) word
  | absoluteWord, [word] => some word.toBitVec.toInt
  | absoluteLong, [high, low] => some (high.toNat * 65536 + low.toNat)
  | _, _ => none

/-- The sum that a relative mode names. Its base is the address of its extension word, where
the program counter is. -/
def Relative.sum? (chip : Chip) (r : RegisterFile) : Relative → List UInt16 → Option Int
  | displaced, [word] => some (r.pc.toNat + word.toBitVec.toInt)
  | indexed, [word] => indexedSum? chip r r.pc word
  | _, _ => none

/-- The number that immediate words spell, without sign. -/
def Size.literal? : Size → List UInt16 → Option Nat
  | byte, [low] => some (low.toNat % 256)
  | word, [low] => some low.toNat
  | long, [high, low] => some (high.toNat * 65536 + low.toNat)
  | _, _ => none

/-- How far `(An)+` and `-(An)` move the register: by the bytes of the size, but by two for a
byte through the stack pointer. -/
def stepBytes (n : Fin 8) (size : Size) : Nat :=
  if n.val = 7 ∧ size = .byte then 2 else size.width / 8

namespace Mode

/-- The operand that a mode denotes with its extension words. -/
def effective? (chip : Chip) (r : RegisterFile) (size : Size) : Mode → List UInt16 → Option Operand
  | target (.dataReg n), [] => some (.place (.dataReg n))
  | target (.addrReg n), [] => some (.place (.addrReg n))
  | target (.postIncrement n), [] => some (.place (.memory (r.addrReg n)))
  | target (.preDecrement n), [] =>
    some (.place (.memory (.ofInt ((r.addrReg n).toNat - stepBytes n size))))
  | target (.pointer p), words => (p.sum? chip r words).map fun sum => .place (.memory (.ofInt sum))
  | relative p, words => (p.sum? chip r words).map fun sum => .program (.ofInt sum)
  | immediate, words => (size.literal? words).map fun number => .constant (.ofNat number)
  | _, _ => none

/-- How far a mode moves address register `n`. -/
def motion (size : Size) (n : Fin 8) : Mode → Int
  | target (.postIncrement k) => if n = k then stepBytes k size else 0
  | target (.preDecrement k) => if n = k then -stepBytes k size else 0
  | _ => 0

/-- The registers `r'` are those of `r` past a mode and its extension words. -/
structure Advances (mode : Mode) (size : Size) (words : List UInt16) (r r' : RegisterFile) :
    Prop where
  /-- The program counter has passed the words. -/
  pc : r'.pc = .ofInt (r.pc.toNat + 2 * words.length)
  /-- Only the register of `(An)+` and `-(An)` has moved, by one step. -/
  addr (n : Fin 8) : r'.addrReg n = .ofInt ((r.addrReg n).toNat + mode.motion size n)
  /-- All other registers are the same, with the stack pointer that is not active. -/
  retains : r.Retains r'

end Mode

/-! ### Words as numbers -/

section

variable {word mask : UInt16} {i : Nat}

/-- A word with its sign is a number of 16 bits. -/
theorem signExtend_word_eq (word : UInt16) :
    Size.word.signExtend word.toUInt32 = .ofInt word.toBitVec.toInt := by
  have hlow : Size.word.low word.toUInt32 = word.toBitVec := by
    simp [Size.low, Size.width]
  rw [Size.signExtend_eq_ofInt, hlow]
  rfl

/-- The low byte of a word with its sign is a number of 8 bits. -/
theorem signExtend_byte_eq (word : UInt16) :
    Size.byte.signExtend word.toUInt32 = .ofInt (word.toBitVec.setWidth 8).toInt := by
  have hlow : Size.byte.low word.toUInt32 = word.toBitVec.setWidth 8 := by
    simp [Size.low, Size.width]
  rw [Size.signExtend_eq_ofInt, hlow]
  rfl

/-- The number of two words. -/
theorem long_eq (high low : UInt16) :
    (high.toUInt32 <<< 16) ||| low.toUInt32 = .ofNat (high.toNat * 65536 + low.toNat) := by
  have hhigh := high.toNat_lt
  have hlow : low.toNat < 2 ^ 16 := low.toNat_lt
  have hroom : high.toNat <<< 16 < 2 ^ 32 := by
    rw [Nat.shiftLeft_eq]
    omega
  rw [← UInt32.toNat_inj, UInt32.toNat_or, UInt32.toNat_shiftLeft, UInt16.toNat_toUInt32,
    UInt16.toNat_toUInt32, UInt32.toNat_ofNat']
  change (high.toNat <<< 16) % 2 ^ 32 ||| low.toNat = _
  rw [Nat.mod_eq_of_lt hroom, ← Nat.shiftLeft_add_eq_or_of_lt hlow, Nat.shiftLeft_eq]
  omega

/-- A mask of one bit tests this bit. -/
theorem and_bne_zero_eq_testBit (hmask : mask.toNat = 2 ^ i) :
    (word &&& mask != 0) = word.toNat.testBit i := by
  have hzero : word &&& mask = 0 ↔ word.toNat &&& 2 ^ i = 0 := by
    rw [← UInt16.toNat_inj, UInt16.toNat_and, hmask]
    rfl
  rw [Bool.eq_iff_iff, bne_iff_ne, ne_eq, hzero, Nat.and_two_pow]
  cases word.toNat.testBit i <;> simp

/-- A shift to the left multiplies by a power of two. -/
theorem shiftLeft_eq_mul {a k : UInt32} (hk : k.toNat < 32) :
    a <<< k = a * .ofNat (2 ^ k.toNat) := by
  rw [← UInt32.toNat_inj, UInt32.toNat_shiftLeft, UInt32.toNat_mul, UInt32.toNat_ofNat',
    Nat.mod_eq_of_lt hk, Nat.shiftLeft_eq, Nat.mul_mod_mod]

/-- The extended chips are those from the 68020 on. -/
theorem extended_iff (chip : Chip) : chip.features.extended = true ↔ 68020 ≤ chip.partNumber := by
  cases chip <;> decide

end

/-! ### Index words -/

section

variable {chip : Chip} {r : RegisterFile} {base : UInt32} {word : UInt16}

/-- The four highest bits of an index word are the code of its register. -/
theorem get_ofCode (r : RegisterFile) (word : UInt16) :
    r.get (Register.ofCode (word >>> 12).toUInt8) = indexRegister r word := by
  have hword := word.toNat_lt
  have hcode : (word >>> 12).toUInt8.toNat = word.toNat / 4096 := by
    rw [UInt16.toNat_toUInt8, UInt16.toNat_shiftRight]
    change (word.toNat >>> 12) % 256 = _
    rw [Nat.shiftRight_eq_div_pow]
    omega
  have hsort : (word >>> 12).toUInt8 &&& 8 = 0 ↔ word.toNat.testBit 15 = false := by
    rw [← UInt8.toNat_inj, UInt8.toNat_and, hcode]
    change word.toNat / 2 ^ 12 &&& 2 ^ 3 = 0 ↔ _
    rw [Nat.and_two_pow, Nat.testBit_div_two_pow]
    cases word.toNat.testBit 15 <;> simp
  rw [Register.ofCode, indexRegister, hcode]
  cases hbit : word.toNat.testBit 15 with
  | false =>
    rw [if_pos (hsort.2 hbit)]
    rfl
  | true =>
    rw [if_neg (by simp [hsort, hbit])]
    rfl

/-- The index of the code is the index in exact integers. -/
theorem index_eq (r : RegisterFile) (word : UInt16) :
    (if word &&& 0x0800 != 0 then indexRegister r word
      else Size.word.signExtend (indexRegister r word)) = .ofInt (indexNumber r word) := by
  rw [indexNumber, and_bne_zero_eq_testBit (i := 11) rfl, Size.signExtend_eq_ofInt]
  split
  · exact (ofInt_toNat _).symm
  · rfl

/-- Shifting by the scale of an index word doubles as often. -/
theorem shiftLeft_scale (x : Int) (word : UInt16) :
    (UInt32.ofInt x) <<< ((word >>> 9) &&& 3).toUInt32 =
      .ofInt (x * 2 ^ (word.toNat / 512 % 4)) := by
  have hscale : ((word >>> 9) &&& 3).toUInt32.toNat = word.toNat / 512 % 4 := by
    rw [UInt16.toNat_toUInt32, UInt16.toNat_and, UInt16.toNat_shiftRight]
    change (word.toNat >>> 9) &&& (2 ^ 2 - 1) = _
    rw [Nat.and_two_pow_sub_one_eq_mod, Nat.shiftRight_eq_div_pow]
  rw [shiftLeft_eq_mul (by omega), hscale, UInt32.ofInt_mul, ← ofInt_natCast, Int.natCast_pow]
  rfl

/-- The address of an index word is the exact sum modulo the address space. -/
theorem indexedAddressOf?_eq (chip : Chip) (r : RegisterFile) (base : UInt32) (word : UInt16) :
    indexedAddressOf? chip r base word = (indexedSum? chip r base word).map .ofInt := by
  have hlong : (word &&& 0x0100 != 0) = word.toNat.testBit 8 := and_bne_zero_eq_testBit rfl
  unfold indexedAddressOf? indexedSum? indexScale
  simp only [get_ofCode, index_eq, signExtend_byte_eq, hlong, shiftLeft_scale, extended_iff]
  by_cases hextended : 68020 ≤ chip.partNumber
  · cases hform : word.toNat.testBit 8 with
    | false => simp [hextended, UInt32.ofInt_add]
    | true => simp [hextended]
  · simp [hextended, UInt32.ofInt_add]

end

/-! ### The words of a mode spell the operand it denotes -/

section

variable {chip : Chip} {r : RegisterFile} {size : Size} {words : List UInt16} {m : Machine}

/-- Immediate words spell the number that they denote. -/
theorem Size.immediateOf?_eq (size : Size) (words : List UInt16) :
    size.immediateOf? words = (size.literal? words).map .ofNat := by
  cases size with
  | byte =>
    match words with
    | [] | _ :: _ :: _ => rfl
    | [low] =>
      have hbyte : low.toUInt32 &&& 0xFF = .ofNat (low.toNat % 256) := by
        rw [← UInt32.toNat_inj, UInt32.toNat_and, UInt16.toNat_toUInt32, UInt32.toNat_ofNat']
        change low.toNat &&& (2 ^ 8 - 1) = _
        rw [Nat.and_two_pow_sub_one_eq_mod]
        omega
      exact congrArg some hbyte
  | word =>
    match words with
    | [] | _ :: _ :: _ => rfl
    | [low] => exact congrArg some UInt32.ofNat_toNat.symm
  | long =>
    match words with
    | [] | [_] | _ :: _ :: _ :: _ => rfl
    | [high, low] => exact congrArg some (long_eq high low)

/-- A distance from the program counter is the sum that it denotes. -/
theorem Relative.map_distanceOf? (chip : Chip) (r : RegisterFile) (words : List UInt16) :
    (distanceOf? words).map (r.pc + ·) = (displaced.sum? chip r words).map .ofInt := by
  match words with
  | [] | _ :: _ :: _ => rfl
  | [word] => simp [sum?, distanceOf?, signExtend_word_eq, UInt32.ofInt_add]

/-- The words of a pointer spell the sum that they denote, as an address. -/
theorem Pointer.addressOf?_eq (p : Pointer) (chip : Chip) (r : RegisterFile)
    (words : List UInt16) : p.addressOf? chip r words = (p.sum? chip r words).map .ofInt := by
  cases p with
  | indirect n =>
    cases words with
    | nil => exact congrArg some (ofInt_toNat _).symm
    | cons word words => rfl
  | displaced n =>
    match words with
    | [] | _ :: _ :: _ => rfl
    | [word] =>
      simp [addressOf?, sum?, distanceOf?, signExtend_word_eq, UInt32.ofInt_add]
  | indexed n =>
    match words with
    | [] | _ :: _ :: _ => rfl
    | [word] => exact indexedAddressOf?_eq _ _ _ _
  | absoluteWord =>
    match words with
    | [] | _ :: _ :: _ => rfl
    | [word] => exact congrArg some (signExtend_word_eq word)
  | absoluteLong =>
    match words with
    | [] | [_] | _ :: _ :: _ :: _ => rfl
    | [high, low] => exact congrArg some ((long_eq high low).trans (ofInt_natCast _).symm)

/-- The step of a register as an exact number. -/
theorem stride_eq (n : Fin 8) (size : Size) : stride n size = .ofNat (stepBytes n size) := by
  unfold stride stepBytes
  split
  · rfl
  · cases size <;> rfl

/-- A step up is the exact sum, as an address. -/
theorem addrReg_add_stride (r : RegisterFile) (n : Fin 8) (size : Size) :
    r.addrReg n + stride n size = .ofInt ((r.addrReg n).toNat + stepBytes n size) := by
  rw [UInt32.ofInt_add, ofInt_toNat, ofInt_natCast, stride_eq]

/-- A step down is the exact difference, as an address. -/
theorem addrReg_sub_stride (r : RegisterFile) (n : Fin 8) (size : Size) :
    r.addrReg n - stride n size = .ofInt ((r.addrReg n).toNat - stepBytes n size) := by
  rw [ofInt_sub, ofInt_toNat, ofInt_natCast, stride_eq]

/-- The place of a target is the operand that the mode denotes. -/
theorem Target.placeOf?_eq (t : Target) (chip : Chip) (r : RegisterFile) (size : Size)
    (words : List UInt16) :
    (t.placeOf? chip r size words).map .place = (Mode.target t).effective? chip r size words := by
  cases t with
  | dataReg n | addrReg n | postIncrement n => cases words <;> rfl
  | preDecrement n =>
    cases words with
    | cons word words => rfl
    | nil =>
      exact congrArg (fun addr => some (Operand.place (.memory addr))) (addrReg_sub_stride r n size)
  | pointer p =>
    rw [placeOf?, p.addressOf?_eq, Option.map_map, Option.map_map]
    rfl

/-- A mode has as many words as it denotes an operand with. -/
theorem Mode.length_of_effective? {mode : Mode} {o : Operand}
    (h : mode.effective? chip r size words = some o) :
    words.length = (mode.extensionWords size).toNat := by
  cases mode with
  | target t =>
    rw [← t.placeOf?_eq] at h
    obtain ⟨p, hplace, -⟩ := Option.map_eq_some_iff.1 h
    exact Target.length_of_placeOf? hplace
  | relative p =>
    obtain ⟨sum, hsum, -⟩ := Option.map_eq_some_iff.1 h
    unfold Relative.sum? at hsum
    split at hsum
    · rfl
    · rfl
    · cases hsum
  | immediate =>
    obtain ⟨number, hnumber, -⟩ := Option.map_eq_some_iff.1 h
    have himmediate : size.immediateOf? words = some (.ofNat number) := by
      rw [size.immediateOf?_eq, hnumber]
      rfl
    exact Size.length_of_immediateOf? himmediate

/-- The words of a relative mode spell the address of its sum. -/
theorem spells_relative (p : Relative) :
    Spells p.address m fun words => (p.sum? m.chip m.registers words).map .ofInt := by
  cases p with
  | displaced =>
    refine ends_bind.2 (ends_get.2 ((spells_fetchDistance.map _).mono_ok fun addr _ h => ?_))
    obtain ⟨words, hwords, haddr⟩ := h
    exact ⟨words, hwords, (Relative.map_distanceOf? _ _ _).symm.trans haddr⟩
  | indexed =>
    refine ends_bind.2 (ends_get.2 ((spells_indexedAddress _).mono_ok fun addr _ h => ?_))
    obtain ⟨word, hword, haddr⟩ := h
    refine ⟨[word], ⟨hword, trivial⟩, ?_⟩
    rw [indexedAddressOf?_eq] at haddr
    exact haddr

/-- The words of a mode spell the operand that it denotes. -/
theorem spells_mode (mode : Mode) :
    Spells (mode.resolve size) m (mode.effective? m.chip m.registers size) := by
  cases mode with
  | target t =>
    have h : Spells (t.resolve size) m (t.placeOf? m.chip m.registers size) := spells_target t
    have h := h.map Operand.place
    simp only [t.placeOf?_eq] at h
    exact h
  | relative p =>
    have h := (spells_relative (m := m) p).map Operand.program
    simp only [Option.map_map] at h
    exact h
  | immediate =>
    have h := (spells_fetchImmediate (m := m) size).map Operand.constant
    simp only [size.immediateOf?_eq, Option.map_map] at h
    exact h

end

/-! ### Words that denote no operand -/

section

variable {α β : Type} {x : Exec α} {f : α → Exec β} {m : Machine} {size : Size}
  {spelt : List UInt16 → Option α} {words : List UInt16}

/-- Where the computation fails, no words at the program counter spell a value. -/
def Misses (x : Exec α) (m : Machine) (spelt : List UInt16 → Option α) : Prop :=
  Ends x m (fun _ _ => True) fun _ _ =>
    ∀ words, m.HasWords m.registers.pc words → spelt words = none

/-- A value by itself does not fail. -/
theorem misses_pure (a : α) : Misses (pure a) m spelt := trivial

/-- What follows on success and does not fail makes no difference. -/
theorem Misses.map {f : α → Exec β} (g : α → β) (h : Misses x m spelt)
    (hf : ∀ a m', ∃ b m'', f a m' = .ok b m'') :
    Misses (x >>= f) m fun words => (spelt words).map g := by
  refine ends_bind.2 (h.mono (fun a m' _ => ?_) fun _ _ h words hwords => ?_)
  · obtain ⟨b, m'', hok⟩ := hf a m'
    rw [Ends, hok]
    trivial
  · exact congrArg (Option.map g) (h words hwords)

/-- Without a first word only the empty row of words is there; behind the first word the rest
of the computation fails where no words continue it. -/
theorem misses_fetchWord_bind {f : UInt16 → Exec α} (hnil : spelt [] = none)
    (hf : ∀ word, Misses (f word) (m.resolved m.registers 1) fun words => spelt (word :: words)) :
    Misses (fetchWord >>= f) m spelt := by
  refine ends_of (fun _ _ _ => trivial) fun e m' herror words hwords => ?_
  cases words with
  | nil => exact hnil
  | cons word words =>
    obtain ⟨hword, hrest⟩ := hwords
    rw [bind_of_ok (fetchWord_eq hword)] at herror
    apply (hf word).of_error herror
    exact hrest.congr fun addr => (Machine.wordAt?_congr rfl rfl addr).symm

/-- Fetching a distance fails only where no word spells it. -/
theorem misses_fetchDistance : Misses fetchDistance m distanceOf? :=
  misses_fetchWord_bind rfl fun _ => misses_pure _

/-- Fetching a long fails only where no words spell it. -/
theorem misses_fetchLong : Misses fetchLong m longOf? :=
  misses_fetchWord_bind rfl fun _ => misses_fetchWord_bind rfl fun _ => misses_pure _

/-- Fetching an immediate value fails only where no words spell it. -/
theorem misses_fetchImmediate (size : Size) :
    Misses (fetchImmediate size) m size.immediateOf? := by
  cases size with
  | byte | word => exact misses_fetchWord_bind rfl fun _ => misses_pure _
  | long => exact misses_fetchLong

/-- An index word in the long form denotes no address, whatever follows it. -/
theorem misses_indexedAddress (base : UInt32) {spelt : List UInt16 → Option UInt32}
    (hnil : spelt [] = none) (hlong : ∀ word words, m.chip.features.extended = true →
      word &&& 0x0100 != 0 → spelt (word :: words) = none) :
    Misses (indexedAddress base) m spelt := by
  refine misses_fetchWord_bind hnil fun word => ends_bind.2 (ends_get.2 (ends_ite.2 ?_))
  split
  next hextended =>
    refine ends_ite.2 ?_
    split
    next hform => exact fun words _ => hlong word words hextended hform
    next => trivial
  next => trivial

/-- An index word in the long form spells no address on the extended chips. -/
theorem indexedAddressOf?_eq_none {chip : Chip} {word : UInt16} (r : RegisterFile) (base : UInt32)
    (hextended : chip.features.extended = true) (hform : word &&& 0x0100 != 0) :
    indexedAddressOf? chip r base word = none := by
  rw [indexedAddressOf?, if_pos hextended, if_pos hform]

/-- A pointer fails only where no words at the program counter spell an address. -/
theorem misses_pointer (p : Pointer) : Misses p.address m (p.addressOf? m.chip m.registers) := by
  cases p with
  | indirect n => exact ends_bind.2 (ends_get.2 trivial)
  | displaced n => exact misses_fetchDistance.map _ fun _ _ => ⟨_, _, rfl⟩
  | indexed n =>
    refine ends_bind.2 (ends_get.2 ?_)
    refine misses_indexedAddress _ rfl fun word words hextended hform => ?_
    cases words with
    | nil => exact indexedAddressOf?_eq_none _ _ hextended hform
    | cons word' words => rfl
  | absoluteWord => exact misses_fetchDistance
  | absoluteLong => exact misses_fetchLong

/-- A relative mode fails only where no words at the program counter denote a sum. -/
theorem misses_relative (p : Relative) :
    Misses p.address m fun words => (p.sum? m.chip m.registers words).map .ofInt := by
  cases p with
  | displaced =>
    simp only [← Relative.map_distanceOf?]
    exact ends_bind.2 (ends_get.2 (misses_fetchDistance.map _ fun _ _ => ⟨_, _, rfl⟩))
  | indexed =>
    refine ends_bind.2 (ends_get.2 ?_)
    refine misses_indexedAddress _ rfl fun word words hextended hform => ?_
    cases words with
    | nil =>
      exact (indexedAddressOf?_eq _ _ _ _).symm.trans
        (indexedAddressOf?_eq_none _ _ hextended hform)
    | cons word' words => rfl

/-- A target fails only where no words at the program counter spell a place. -/
theorem misses_target (t : Target) :
    Misses (t.resolve size) m (t.placeOf? m.chip m.registers size) := by
  cases t with
  | pointer p => exact (misses_pointer p).map _ fun _ _ => ⟨_, _, rfl⟩
  | dataReg n | addrReg n | postIncrement n | preDecrement n => exact trivial

/-- A mode fails only where no words at the program counter denote an operand. -/
theorem misses_mode (mode : Mode) :
    Misses (mode.resolve size) m (mode.effective? m.chip m.registers size) := by
  cases mode with
  | target t =>
    have h : Misses ((Mode.target t).resolve size) m fun words =>
        (t.placeOf? m.chip m.registers size words).map .place :=
      (misses_target t).map _ fun _ _ => ⟨_, _, rfl⟩
    simpa only [t.placeOf?_eq] using h
  | relative p =>
    have h : Misses ((Mode.relative p).resolve size) m fun words =>
        ((p.sum? m.chip m.registers words).map .ofInt).map .program :=
      (misses_relative p).map _ fun _ _ => ⟨_, _, rfl⟩
    simp only [Option.map_map] at h
    exact h
  | immediate =>
    have h : Misses (Mode.immediate.resolve size) m fun words =>
        (size.immediateOf? words).map .constant :=
      (misses_fetchImmediate size).map _ fun _ _ => ⟨_, _, rfl⟩
    simp only [size.immediateOf?_eq, Option.map_map] at h
    exact h

end

/-! ### Resolving a mode -/

section

variable {r : RegisterFile} {m : Machine} {size : Size}

/-- Moving one address register by an exact step. -/
theorem addrReg_setAddrReg_step (r : RegisterFile) (k n : Fin 8) (step : Int) :
    (r.setAddrReg k (.ofInt ((r.addrReg k).toNat + step))).addrReg n =
      .ofInt ((r.addrReg n).toNat + if n = k then step else 0) := by
  split
  next hn => rw [hn, RegisterFile.addrReg_setAddrReg]
  next hn => rw [RegisterFile.addrReg_setAddrReg_of_ne _ _ _ hn, Int.add_zero, ofInt_toNat]

/-- How a mode moves the address registers in exact integers. -/
theorem addrReg_moved_eq (mode : Mode) (size : Size) (r : RegisterFile) (n : Fin 8) :
    (mode.moved size r).addrReg n = .ofInt ((r.addrReg n).toNat + mode.motion size n) := by
  have hstays : r.addrReg n = .ofInt ((r.addrReg n).toNat + 0) := by
    rw [Int.add_zero, ofInt_toNat]
  cases mode with
  | relative p | immediate => exact hstays
  | target t =>
    cases t with
    | dataReg k | addrReg k | pointer p => exact hstays
    | postIncrement k =>
      rw [Mode.moved, addrReg_add_stride, addrReg_setAddrReg_step]
      rfl
    | preDecrement k =>
      rw [Mode.moved, addrReg_sub_stride, Int.sub_eq_add_neg, addrReg_setAddrReg_step]
      rfl

/-- A mode moves its register and passes its words. -/
theorem advances_moved {mode : Mode} {words : List UInt16}
    (hlength : words.length = (mode.extensionWords size).toNat) :
    mode.Advances size words m.registers
      (m.resolved (mode.moved size m.registers) (mode.extensionWords size)).registers where
  pc := by
    change m.registers.pc + 2 * mode.extensionWords size = _
    rw [hlength, UInt32.ofInt_add, ofInt_toNat, UInt32.ofInt_mul, ofInt_toNat]
    rfl
  addr n := addrReg_moved_eq mode size m.registers n
  retains := (retains_moved mode size m.registers).withPc _

end

/-- Resolving a mode succeeds exactly where words that denote an operand can be fetched, and
gives this operand. It moves the register of the mode, passes the words and changes nothing
else; where it fails, only the program counter has moved. The last address register is the
stack pointer that the supervisor bit names. -/
theorem Mode.resolve_exact (mode : Mode) (size : Size) (m : Machine) :
    Ends (mode.resolve size) m
      (fun o m' => ∃ words, m.HasWords m.registers.pc words ∧
        mode.effective? m.chip m.registers size words = some o ∧
        mode.Advances size words m.registers m'.registers ∧
        m' = { m with registers := m'.registers })
      (fun _ m' => (∀ words, m.HasWords m.registers.pc words →
        mode.effective? m.chip m.registers size words = none) ∧ ∃ pc, m' = m.withPc pc) ∧
    m.registers.addrReg 7 =
      if m.registers.sr.has Status.supervisor then m.registers.ssp else m.registers.usp := by
  refine ⟨?_, rfl⟩
  refine Ends.mono (((spells_mode mode).and (misses_mode mode)).and (names_mode mode))
    (fun o m' h => ?_) fun a m' h => ⟨h.1.2, h.2.machine⟩
  obtain ⟨⟨⟨words, hwords, ho⟩, -⟩, rfl⟩ := h
  exact ⟨words, hwords, ho, advances_moved (Mode.length_of_effective? ho), rfl⟩

end Cpu68k
