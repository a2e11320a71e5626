import Cpu68k.Proofs.Bytes
import Cpu68k.Proofs.Resolution
import Cpu68k.Proofs.ResolvedOperation

/-!
# What extension words say

The operand that a mode names is a function of the registers and of the extension words
of the mode. The functions here say which one, so that operands can be compared whose
words lie at different addresses. `Spells` ties them to the computations that fetch the
words one by one.
-/

namespace Cpu68k

/-! ### Rows of words -/

namespace Space

variable {s : Space} {addr : UInt32} {word : UInt16} {words : List UInt16}

/-- The words lie one behind the other in memory, byte by byte, from an address on. -/
def HoldsWords (s : Space) (addr : UInt32) (words : List UInt16) : Prop :=
  s.Holds addr (words.flatMap fun word => Size.word.rowOf word.toUInt32)

/-- A row of words by its first one. -/
theorem holdsWords_cons : s.HoldsWords addr (word :: words) ↔
    s.Holds addr (Size.word.rowOf word.toUInt32) ∧ s.HoldsWords (addr + 2) words :=
  holds_append

end Space

namespace Machine

variable {m m' : Machine} {addr : UInt32} {word word' : UInt16} {words words' : List UInt16}

/-- The words lie one behind the other in the instruction stream from an address on. -/
def HasWords (m : Machine) : UInt32 → List UInt16 → Prop
  | _, [] => True
  | addr, word :: words => m.wordAt? addr = some word ∧ m.HasWords (addr + 2) words

/-- Two rows of words one behind the other. -/
theorem hasWords_append : m.HasWords addr (words ++ words') ↔
    m.HasWords addr words ∧ m.HasWords (addr + 2 * .ofNat words.length) words' := by
  induction words generalizing addr with
  | nil =>
    have haddr : addr + 2 * .ofNat ([] : List UInt16).length = addr := by simp
    rw [haddr]
    simp [HasWords]
  | cons word words ih =>
    have haddr : addr + 2 * .ofNat (word :: words).length =
        addr + 2 + 2 * .ofNat words.length := by
      rw [List.length_cons, UInt32.ofNat_add]
      change addr + 2 * (.ofNat words.length + 1) = _
      grind
    rw [haddr, List.cons_append, HasWords, ih, HasWords, and_assoc]

/-- A row of words depends on the words of the instruction stream only. -/
theorem HasWords.congr (h : m'.HasWords addr words)
    (hword : ∀ addr, m'.wordAt? addr = m.wordAt? addr) : m.HasWords addr words := by
  induction words generalizing addr with
  | nil => trivial
  | cons word words ih => exact ⟨hword addr ▸ h.1, ih h.2⟩

/-- A word that is fetched has its bytes in memory. -/
theorem wordAt?_eq_of_holds (h : m.wordAt? addr = some word)
    (hholds : m.space.Holds addr (Size.word.rowOf word'.toUInt32)) : word = word' := by
  unfold wordAt? at h
  split at h
  · cases h
  cases hread : m.space.read addr 2 m.programSpace .fetch with
  | error e => simp [hread] at h
  | ok value =>
    simp only [hread, Option.some.injEq] at h
    have hholds' : m.space.Holds addr (Size.word.rowOf value) := Space.holds_of_read hread
    obtain ⟨hhigh, hlow, -⟩ := hholds'
    obtain ⟨hhigh', hlow', -⟩ := hholds
    have hhigh := congrArg UInt8.toNat (Option.some.inj (hhigh.symm.trans hhigh'))
    have hlow := congrArg UInt8.toNat (Option.some.inj (hlow.symm.trans hlow'))
    have hword := word'.toNat_lt
    simp only [UInt32.toNat_toUInt8, UInt32.toNat_shiftRight, Nat.shiftRight_eq_div_pow,
      UInt16.toNat_toUInt32] at hhigh hlow
    change value.toNat / 2 ^ 8 % 2 ^ 8 = word'.toNat / 2 ^ 8 % 2 ^ 8 at hhigh
    refine UInt16.toNat_inj.1 ?_
    rw [← h, UInt32.toNat_toUInt16]
    omega

/-- As many words as lie in memory can be fetched from there. -/
theorem HasWords.eq_of_holds (h : m.HasWords addr words)
    (hholds : m.space.HoldsWords addr words') (hlength : words.length = words'.length) :
    words = words' := by
  induction words generalizing addr words' with
  | nil => exact (List.length_eq_zero_iff.1 hlength.symm).symm
  | cons word words ih =>
    cases words' with
    | nil => cases hlength
    | cons word' words' =>
      obtain ⟨hfirst, hrest⟩ := Space.holdsWords_cons.1 hholds
      rw [wordAt?_eq_of_holds h.1 hfirst, ih h.2 hrest (Nat.succ.inj hlength)]

end Machine

/-! ### Operands from words -/

/-- The long of two words, the high one first. -/
def longOf? : List UInt16 → Option UInt32
  | [high, low] => some ((high.toUInt32 <<< 16) ||| low.toUInt32)
  | _ => none

/-- The signed distance in a word. -/
def distanceOf? : List UInt16 → Option UInt32
  | [word] => some (Size.word.signExtend word.toUInt32)
  | _ => none

/-- The immediate value of a size. -/
def Size.immediateOf? : Size → List UInt16 → Option UInt32
  | byte, [low] => some (low.toUInt32 &&& 0xFF)
  | word, [low] => some low.toUInt32
  | long, words => longOf? words
  | _, _ => none

/-- The address that an index word gives with a base. The extended chips scale the index
and do not know the long form of the word. -/
def indexedAddressOf? (chip : Chip) (r : RegisterFile) (base : UInt32) (word : UInt16) :
    Option UInt32 :=
  let register := r.get (Register.ofCode (word >>> 12).toUInt8)
  let index := if word &&& 0x0800 != 0 then register else Size.word.signExtend register
  let distance := Size.byte.signExtend word.toUInt32
  if chip.features.extended then
    if word &&& 0x0100 != 0 then none
    else some (base + distance + index <<< ((word >>> 9) &&& 3).toUInt32)
  else some (base + distance + index)

/-- The address that a pointer names. -/
def Pointer.addressOf? (chip : Chip) (r : RegisterFile) : Pointer → List UInt16 → Option UInt32
  | indirect n, [] => some (r.addrReg n)
  | displaced n, words => (distanceOf? words).map (r.addrReg n + ·)
  | indexed n, [word] => indexedAddressOf? chip r (r.addrReg n) word
  | absoluteWord, words => distanceOf? words
  | absoluteLong, words => longOf? words
  | _, _ => none

/-- The place that a target names. -/
def Target.placeOf? (chip : Chip) (r : RegisterFile) (size : Size) :
    Target → List UInt16 → Option Place
  | dataReg n, [] => some (.dataReg n)
  | addrReg n, [] => some (.addrReg n)
  | postIncrement n, [] => some (.memory (r.addrReg n))
  | preDecrement n, [] => some (.memory (r.addrReg n - stride n size))
  | pointer p, words => (p.addressOf? chip r words).map .memory
  | _, _ => none

/-- The displacement of a branch with a byte in its opcode. -/
def displacementOf? (chip : Chip) (byte : UInt8) (words : List UInt16) : Option UInt32 :=
  if byte = 0 then distanceOf? words
  else if byte = 0xFF ∧ chip.features.extended then longOf? words
  else if words = [] then some (Size.byte.signExtend byte.toUInt32)
  else none

section Spelt

variable {chip : Chip} {r : RegisterFile} {size : Size} {words : List UInt16}

/-- A long is spelt in two words. -/
theorem length_of_longOf? {value : UInt32} (h : longOf? words = some value) :
    words.length = 2 := by
  unfold longOf? at h
  split at h
  · rfl
  · cases h

/-- A distance is spelt in one word. -/
theorem length_of_distanceOf? {value : UInt32} (h : distanceOf? words = some value) :
    words.length = 1 := by
  unfold distanceOf? at h
  split at h
  · rfl
  · cases h

/-- An immediate value is spelt in the words of its size. -/
theorem Size.length_of_immediateOf? {value : UInt32} (h : size.immediateOf? words = some value) :
    words.length = size.immediateWords.toNat := by
  unfold immediateOf? at h
  split at h
  · rfl
  · rfl
  · exact length_of_longOf? h
  · cases h

/-- A pointer is spelt in the extension words of its mode. -/
theorem Pointer.length_of_addressOf? {p : Pointer} {addr : UInt32}
    (h : p.addressOf? chip r words = some addr) :
    words.length = ((Mode.target (.pointer p)).extensionWords size).toNat := by
  unfold addressOf? at h
  split at h
  · rfl
  · obtain ⟨distance, hdistance, -⟩ := Option.map_eq_some_iff.1 h
    exact length_of_distanceOf? hdistance
  · rfl
  · exact length_of_distanceOf? h
  · exact length_of_longOf? h
  · cases h

/-- A target is spelt in the extension words of its mode. -/
theorem Target.length_of_placeOf? {t : Target} {p : Place}
    (h : t.placeOf? chip r size words = some p) :
    words.length = ((Mode.target t).extensionWords size).toNat := by
  unfold placeOf? at h
  split at h
  · rfl
  · rfl
  · rfl
  · rfl
  · obtain ⟨addr, haddr, -⟩ := Option.map_eq_some_iff.1 h
    exact Pointer.length_of_addressOf? haddr
  · cases h

/-- The place that a target names does not depend on the program counter. -/
theorem Target.placeOf?_withPc (t : Target) (chip : Chip) (r : RegisterFile) (pc : UInt32)
    (size : Size) : t.placeOf? chip { r with pc := pc } size = t.placeOf? chip r size := by
  rcases t with _ | _ | _ | _ | (_ | _ | _ | _ | _) <;> rfl

/-- The place that words spell is one that the target gives. -/
theorem Target.gives_of_placeOf? {t : Target} {p : Place}
    (h : t.placeOf? chip r size words = some p) : t.Gives p := by
  unfold placeOf? at h
  split at h
  · cases h
    exact .dataReg _
  · cases h
    exact .addrReg _
  · cases h
    exact .postIncrement _ _
  · cases h
    exact .preDecrement _ _
  · obtain ⟨addr, -, rfl⟩ := Option.map_eq_some_iff.1 h
    exact .pointer _ addr
  · cases h

/-- A displacement is spelt in the extension words of its branch. -/
theorem length_of_displacementOf? {byte : UInt8} {value : UInt32}
    (h : displacementOf? chip byte words = some value) :
    words.length = (Instruction.branchWords chip byte).toNat := by
  unfold displacementOf? at h
  unfold Instruction.branchWords
  split at h
  next hzero =>
    rw [if_pos hzero]
    exact length_of_distanceOf? h
  next hzero =>
    rw [if_neg hzero]
    split at h
    next hlong =>
      rw [if_pos hlong]
      exact length_of_longOf? h
    next hlong =>
      rw [if_neg hlong]
      split at h
      next hwords =>
        rw [hwords]
        rfl
      next => cases h

end Spelt

/-! ### Computations that spell their values -/

variable {α β : Type} {x : Exec α} {f : α → Exec β} {m : Machine} {size : Size}
variable {spelt : List UInt16 → Option α} {words : List UInt16}

/-- Where the computation succeeds, words at the program counter spell its value. -/
def Spells (x : Exec α) (m : Machine) (spelt : List UInt16 → Option α) : Prop :=
  Ends x m (fun a _ => ∃ words, m.HasWords m.registers.pc words ∧ spelt words = some a)
    fun _ _ => True

/-- A function of the value that words spell. -/
theorem Spells.map (g : α → β) (h : Spells x m spelt) :
    Spells (x >>= fun a => pure (g a)) m fun words => (spelt words).map g := by
  refine ends_bind.2 (h.mono_ok fun a _ h => ?_)
  obtain ⟨words, hwords, hspelt⟩ := h
  exact ⟨words, hwords, congrArg (Option.map g) hspelt⟩

/-- The words of the second part of a computation lie behind those of the first. -/
theorem Spells.bind {k : UInt32} {spelt' : α → List UInt16 → Option β} (hx : Spells x m spelt)
    (hfetches : Fetches x m k) (hlength : ∀ words a, spelt words = some a → words.length = k.toNat)
    (hf : ∀ a, Spells (f a) (m.resolved m.registers k) (spelt' a)) :
    Spells (x >>= f) m fun words =>
      (spelt (words.take k.toNat)).bind fun a => spelt' a (words.drop k.toNat) := by
  refine ends_bind.2 ((hx.and hfetches).mono (fun a m₁ h => ?_) fun _ _ _ => trivial)
  obtain ⟨⟨front, hfront, hspelt⟩, rfl⟩ := h
  refine (hf a).mono_ok fun b _ h => ?_
  obtain ⟨back, hback, hspelt'⟩ := h
  have hlength := hlength front a hspelt
  have hpc : (m.resolved m.registers k).registers.pc =
      m.registers.pc + 2 * .ofNat front.length := by
    rw [hlength, UInt32.ofNat_toNat]
    rfl
  rw [hpc] at hback
  have hback := hback.congr (Machine.wordAt?_congr (m := m) rfl rfl)
  refine ⟨front ++ back, Machine.hasWords_append.2 ⟨hfront, hback⟩, ?_⟩
  dsimp only
  rw [List.take_left' hlength, List.drop_left' hlength, hspelt]
  exact hspelt'

/-- Words that lie in memory at the program counter are those that spell the value. -/
theorem Spells.of_holds (h : Spells x m spelt)
    (hholds : m.space.HoldsWords m.registers.pc words)
    (hlength : ∀ words' a, spelt words' = some a → words'.length = words.length) :
    Ends x m (fun a _ => spelt words = some a) fun _ _ => True := by
  refine h.mono_ok fun a _ h => ?_
  obtain ⟨words', hwords', hspelt⟩ := h
  rwa [← hwords'.eq_of_holds hholds (hlength words' a hspelt)]

/-- A word spells a distance. -/
theorem spells_fetchDistance : Spells fetchDistance m distanceOf? := by
  refine ends_bind.2 (ends_fetchWord.mono_ok fun word m' h => ?_)
  exact ⟨[word], ⟨h.1, trivial⟩, rfl⟩

/-- Two words spell a long. -/
theorem spells_fetchLong : Spells fetchLong m longOf? := by
  refine ends_bind.2 (ends_fetchWord.mono_ok fun high m' h => ?_)
  obtain ⟨hhigh, rfl⟩ := h
  refine ends_bind.2 (ends_fetchWord.mono_ok fun low m' h => ?_)
  have hlow : m.wordAt? (m.registers.pc + 2) = some low := by
    rw [← h.1]
    exact (Machine.wordAt?_congr rfl rfl _).symm
  exact ⟨[high, low], ⟨hhigh, hlow, trivial⟩, rfl⟩

/-- The words of a size spell an immediate value. -/
theorem spells_fetchImmediate (size : Size) :
    Spells (fetchImmediate size) m size.immediateOf? := by
  cases size with
  | byte | word =>
    refine ends_bind.2 (ends_fetchWord.mono_ok fun word m' h => ?_)
    exact ⟨[word], ⟨h.1, trivial⟩, rfl⟩
  | long => exact spells_fetchLong

/-- An index word spells an address. -/
theorem spells_indexedAddress (base : UInt32) : Ends (indexedAddress base) m
    (fun addr _ => ∃ word, m.wordAt? m.registers.pc = some word ∧
      indexedAddressOf? m.chip m.registers base word = some addr) fun _ _ => True := by
  refine ends_bind.2 (ends_fetchWord.mono_ok fun word m' h => ?_)
  obtain ⟨hword, rfl⟩ := h
  refine ends_bind.2 (ends_get.2 ?_)
  have hchip : (m.resolved m.registers 1).chip = m.chip := rfl
  refine ends_ite.2 ?_
  rw [hchip]
  split
  next hextended =>
    refine ends_ite.2 ?_
    split
    next hlong => trivial
    next hshort =>
      refine ⟨word, hword, ?_⟩
      rw [indexedAddressOf?, if_pos hextended, if_neg hshort]
      rfl
  next hplain =>
    refine ⟨word, hword, ?_⟩
    rw [indexedAddressOf?, if_neg hplain]
    rfl

/-- The words of a pointer spell an address. -/
theorem spells_pointer (p : Pointer) : Spells p.address m (p.addressOf? m.chip m.registers) := by
  cases p with
  | indirect n => exact ⟨[], trivial, rfl⟩
  | displaced n =>
    refine ends_bind.2 (ends_bind.2 (ends_fetchWord.mono_ok fun word m' h => ?_))
    obtain ⟨hword, rfl⟩ := h
    exact ⟨[word], ⟨hword, trivial⟩, rfl⟩
  | indexed n =>
    refine ends_bind.2 (ends_get.2 ((spells_indexedAddress _).mono_ok fun addr _ h => ?_))
    obtain ⟨word, hword, haddr⟩ := h
    exact ⟨[word], ⟨hword, trivial⟩, haddr⟩
  | absoluteWord => exact spells_fetchDistance
  | absoluteLong => exact spells_fetchLong

/-- The words of a target spell a place. -/
theorem spells_target (t : Target) :
    Spells (t.resolve size) m (t.placeOf? m.chip m.registers size) := by
  cases t with
  | dataReg n | addrReg n | postIncrement n | preDecrement n => exact ⟨[], trivial, rfl⟩
  | pointer p => exact (spells_pointer p).map _

/-- The words of a branch spell its displacement from the program counter. -/
theorem spells_branchTarget (byte : UInt8) : Spells (branchTarget byte) m fun words =>
    (displacementOf? m.chip byte words).map (m.registers.pc + ·) := by
  unfold branchTarget
  refine ends_bind.2 (ends_get.2 ?_)
  dsimp only
  unfold displacementOf?
  split
  · exact spells_fetchDistance.map _
  split
  · exact spells_fetchLong.map _
  · exact ⟨[], trivial, rfl⟩

end Cpu68k
