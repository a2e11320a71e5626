import Cpu68k.Instruction.Opcode

/-!
# What opcodes promise

The types of an instruction's modes do not say everything: an opcode never names an
address register as a byte, and never writes one where it writes a result. A branch
holds the low byte of its opcode.
`Instruction.IsEncoded` collects what every opcode promises about its instruction,
and it is shown line by line.
-/

namespace Cpu68k

/-- What an opcode that stands for an instruction promises. -/
def Instruction.IsEncoded (opcode : UInt16) : Instruction → Prop
  | illegal => opcode = 0x4AFC
  | moveFromControl => opcode = 0x4E7A
  | moveToControl => opcode = 0x4E7B
  | branch _ distance | branchSubroutine distance => distance = opcode.toUInt8
  | setOnTest _ dst | clear _ dst | negate _ dst | complement _ dst | immediate _ _ dst
  | fromRegister _ _ _ dst => dst.isData = true
  | move size src dst => src.isReadable size = true ∧ dst.isData = true
  | moveAddress size src _ | test size src | toRegister _ size src _ | toAddress _ size src _
  | compare size src _ | compareImmediate size src | compareAddress size src _ =>
    src.isReadable size = true
  | quick _ size _ dst => (Mode.target dst).isReadable size = true
  | _ => True

/-! ### Modes -/

namespace Mode

variable {m : Mode} {t : Target} {size : Size}

/-- A target for data is not an address register. -/
theorem isData_of_dataTarget? (h : m.dataTarget? = some t) : t.isData = true :=
  (Option.filter_eq_some_iff.1 h).2

/-- A target in memory is not an address register. -/
theorem isData_of_memoryTarget? (h : m.memoryTarget? = some t) : t.isData = true := by
  have hmemory := (Option.filter_eq_some_iff.1 h).2
  cases t with
  | addrReg n => cases hmemory
  | _ => rfl

/-- What is not an address register can be read at every size. -/
theorem isReadable_of_isData (h : m.isData = true) : m.isReadable size = true := by
  rw [isReadable, h, Bool.true_or]

/-- Every mode can be read as a word or a long. -/
theorem isReadable_of_ne_byte (h : size ≠ .byte) : m.isReadable size = true := by
  rw [isReadable, bne_iff_ne.2 h, Bool.or_true]

/-- A mode is read as its target is. -/
theorem isReadable_of_target? (h : m.target? = some t) (hread : m.isReadable size = true) :
    (target t).isReadable size = true := by
  cases m with
  | target t' =>
    cases h
    exact hread
  | relative r => cases h
  | immediate => cases h

/-- A field of three bits as an exact number. -/
theorem field_val (opcode shift : UInt16) :
    (field opcode shift).val = (opcode >>> shift).toNat % 8 := rfl

end Mode

/-! ### Readings -/

section Reads

variable {α β : Type} {x y : Option α} {f : α → Option β} {P : α → Prop} {Q : β → Prop}

/-- Whatever is read satisfies `P`. -/
def Reads (x : Option α) (P : α → Prop) : Prop :=
  ∀ a, x = some a → P a

/-- Where nothing is read there is nothing to show. -/
theorem reads_none : Reads none P := by
  intro a h
  cases h

/-- The value that is read satisfies the property. -/
theorem reads_some {a : α} (h : P a) : Reads (some a) P := by
  intro b hb
  cases hb
  exact h

/-- What is read next depends on what was read before. -/
theorem reads_bind (h : ∀ a, x = some a → Reads (f a) Q) : Reads (x >>= f) Q := by
  intro b hb
  cases x with
  | none => cases hb
  | some a => exact h a rfl b hb

/-- Each of two readings may use its condition. -/
theorem reads_ite {c : Prop} [Decidable c] (hx : c → Reads x P) (hy : ¬ c → Reads y P) :
    Reads (if c then x else y) P := by
  split
  next h => exact hx h
  next h => exact hy h

/-- A value that is read under a condition may use it. -/
theorem reads_guard {c : Prop} [Decidable c] {a : α} (h : c → P a) :
    Reads (if c then some a else none) P :=
  reads_ite (fun hc => reads_some (h hc)) fun _ => reads_none

end Reads

/-! ### Lines -/

namespace Instruction

variable {chip : Chip} {opcode : UInt16}

/-- Logic on the status word promises nothing. -/
theorem reads_statusImmediate? (op : Binary) (size : Size) :
    Reads (statusImmediate? op size) (IsEncoded opcode) := by
  unfold statusImmediate?
  split
  · exact reads_some trivial
  · exact reads_some trivial
  · exact reads_none

/-- Line 0: operations with an immediate value, and `MOVEP`. -/
theorem reads_line0 : Reads (ofLine0? chip opcode) (IsEncoded opcode) := by
  unfold ofLine0?
  refine reads_ite (fun _ => reads_ite (fun _ => ?_) fun _ => reads_none) fun _ => ?_
  · exact reads_ite (fun _ => reads_some trivial) fun _ => reads_some trivial
  refine reads_bind fun size _ => reads_bind fun code _ => reads_bind fun mode _ => ?_
  cases code with
  | binary op =>
    refine reads_ite (fun _ => reads_statusImmediate? op size) fun _ => ?_
    exact reads_bind fun dst hdst => reads_some (Mode.isData_of_dataTarget? hdst)
  | compare =>
    refine reads_ite (fun _ => reads_guard fun h => ?_) fun _ => ?_
    · exact Mode.isReadable_of_isData h.1
    · refine reads_bind fun dst hdst => reads_some ?_
      exact Mode.isReadable_of_isData (Mode.isData_of_dataTarget? hdst)

/-- Lines 1 to 3: `MOVE` and `MOVEA`. -/
theorem reads_moveLine (size : Size) : Reads (ofMoveLine? size opcode) (IsEncoded opcode) := by
  unfold ofMoveLine?
  refine reads_bind fun src _ => reads_bind fun mode _ => reads_bind fun dst _ => ?_
  refine reads_ite (fun hread => ?_) fun _ => reads_none
  cases dst with
  | addrReg n => exact reads_ite (fun _ => reads_none) fun _ => reads_some hread
  | dataReg n => exact reads_some ⟨hread, rfl⟩
  | postIncrement n => exact reads_some ⟨hread, rfl⟩
  | preDecrement n => exact reads_some ⟨hread, rfl⟩
  | pointer p => exact reads_some ⟨hread, rfl⟩

/-- Line 4: returns, `STOP`, `TRAP`, frames and control registers. -/
theorem reads_controlGroup (hgroup : opcode.toNat / 64 = 0x139) :
    Reads (ofControlGroup? chip opcode) (IsEncoded opcode) := by
  have heq {n : Nat} (hhigh : (modeField opcode).val = 7) (hlow : (lowRegister opcode).val = n)
      (hn : n < 8) : opcode.toNat = 0x4E78 + n := by
    rw [modeField, Mode.field_val, UInt16.toNat_shiftRight, Nat.shiftRight_eq_div_pow] at hhigh
    rw [lowRegister, Mode.field_val, UInt16.toNat_shiftRight, Nat.shiftRight_eq_div_pow] at hlow
    change opcode.toNat / 2 ^ 3 % 8 = 7 at hhigh
    change opcode.toNat / 2 ^ 0 % 8 = n at hlow
    omega
  unfold ofControlGroup?
  dsimp only
  split
  · exact reads_some trivial
  · exact reads_some trivial
  · exact reads_some trivial
  · exact reads_some trivial
  · exact reads_some trivial
  · exact reads_some trivial
  · split
    · exact reads_some trivial
    · exact reads_some trivial
    · exact reads_some trivial
    · exact reads_some trivial
    · exact reads_guard fun _ => trivial
    · exact reads_some trivial
    · exact reads_some trivial
    · exact reads_some trivial
  next h0 h1 h2 h3 h4 h5 h6 =>
    have hhigh : (modeField opcode).val = 7 := by
      have := (modeField opcode).isLt
      grind
    split
    next hlow => exact reads_guard fun _ => UInt16.toNat_inj.1 (heq hhigh hlow (by decide))
    next hlow => exact reads_guard fun _ => UInt16.toNat_inj.1 (heq hhigh hlow (by decide))
    next => exact reads_none

/-- Line 4: `SWAP`, `EXT`, `PEA`, breakpoints and long links. -/
theorem reads_extensionGroup : Reads (ofExtensionGroup? chip opcode) (IsEncoded opcode) := by
  unfold ofExtensionGroup?
  dsimp only
  split
  · exact reads_guard fun _ => trivial
  · exact reads_some trivial
  · exact reads_some trivial
  · exact reads_bind fun _ _ => reads_bind fun _ _ => reads_some trivial
  · exact reads_some trivial
  · exact reads_some trivial
  · exact reads_none

/-- Line 4: `LEA` and `EXTB`. -/
theorem reads_addressGroup : Reads (ofAddressGroup? chip opcode) (IsEncoded opcode) := by
  unfold ofAddressGroup?
  refine reads_ite (fun _ => reads_ite (fun _ => ?_) fun _ => ?_) fun _ => reads_none
  · exact reads_guard fun _ => trivial
  · exact reads_bind fun _ _ => reads_bind fun _ _ => reads_some trivial

/-- The instructions that write one target, which is no address register. -/
theorem reads_dataTarget {f : Target → Instruction}
    (hf : ∀ dst, dst.isData = true → (f dst).IsEncoded opcode) :
    Reads (do return f (← (← Mode.ofOpcode? opcode).dataTarget?)) (IsEncoded opcode) :=
  reads_bind fun _ _ => reads_bind fun dst hdst =>
    reads_some (hf dst (Mode.isData_of_dataTarget? hdst))

/-- The second digit of an opcode as an exact number. -/
theorem toNat_digit (opcode : UInt16) :
    ((opcode >>> 8) &&& 0xF).toNat = opcode.toNat / 256 % 16 := by
  rw [UInt16.toNat_and, UInt16.toNat_shiftRight, Nat.shiftRight_eq_div_pow]
  exact Nat.and_two_pow_sub_one_eq_mod _ 4

/-- The size bits of an opcode as an exact number. -/
theorem toNat_sizeBits (opcode : UInt16) :
    ((opcode >>> 6) &&& 3).toNat = opcode.toNat / 64 % 4 := by
  rw [UInt16.toNat_and, UInt16.toNat_shiftRight, Nat.shiftRight_eq_div_pow]
  exact Nat.and_two_pow_sub_one_eq_mod _ 2

/-- Line 4: operations on one operand. -/
theorem reads_unaryGroup (hline : opcode.toNat / 4096 = 4) :
    Reads (ofUnaryGroup? chip opcode) (IsEncoded opcode) := by
  unfold ofUnaryGroup?
  split
  · split
    · exact reads_dataTarget fun _ _ => trivial
    · exact reads_none
  · split
    · exact reads_ite (fun _ => reads_dataTarget fun _ _ => trivial) fun _ => reads_none
    · exact reads_dataTarget fun _ hdst => hdst
  · split
    · exact reads_bind fun _ _ => reads_guard fun _ => trivial
    · exact reads_dataTarget fun _ hdst => hdst
  · split
    · exact reads_bind fun _ _ => reads_guard fun _ => trivial
    · exact reads_dataTarget fun _ hdst => hdst
  · exact reads_extensionGroup
  · split
    · exact reads_guard fun h => h
    · refine reads_bind fun src _ => reads_ite (fun _ => reads_guard fun h => h) fun _ => ?_
      refine reads_bind fun dst hdst => reads_some ?_
      exact Mode.isReadable_of_isData (Mode.isData_of_dataTarget? hdst)
  next hdigit =>
    split
    next hgroup =>
      rw [toNat_digit] at hdigit
      rw [toNat_sizeBits] at hgroup
      exact reads_controlGroup (by omega)
    · exact reads_bind fun _ _ => reads_bind fun _ _ => reads_some trivial
    · exact reads_bind fun _ _ => reads_bind fun _ _ => reads_some trivial
    · exact reads_none
  · exact reads_none

/-- Line 4, group by group. -/
theorem reads_line4 (hline : opcode.toNat / 4096 = 4) :
    Reads (ofLine4? chip opcode) (IsEncoded opcode) :=
  reads_ite (fun _ => reads_addressGroup) fun _ => reads_unaryGroup hline

/-- Line 5: quick operations, `Scc` and `DBcc`. -/
theorem reads_line5 : Reads (ofLine5? opcode) (IsEncoded opcode) := by
  unfold ofLine5?
  refine reads_bind fun mode _ => reads_bind fun dst hdst => ?_
  split
  · cases dst with
    | addrReg n => exact reads_some trivial
    | dataReg n => exact reads_some rfl
    | postIncrement n => exact reads_some rfl
    | preDecrement n => exact reads_some rfl
    | pointer p => exact reads_some rfl
  · exact reads_guard fun hread => Mode.isReadable_of_target? hdst hread

/-- Line 6: branches, which hold the low byte of their opcode. -/
theorem isEncoded_line6 : (ofLine6 opcode).IsEncoded opcode := by
  unfold ofLine6
  split
  · rfl
  · rfl

/-- Line 7: `MOVEQ`. -/
theorem reads_line7 : Reads (ofLine7? opcode) (IsEncoded opcode) :=
  reads_ite (fun _ => reads_none) fun _ => reads_some trivial

/-- Lines 8 and C: logic between a data register and an operand. -/
theorem reads_logicLine (op : Logic) : Reads (ofLogicLine? op opcode) (IsEncoded opcode) := by
  unfold ofLogicLine?
  refine reads_bind fun size _ => reads_bind fun mode _ => reads_ite (fun _ => ?_) fun _ => ?_
  · exact reads_bind fun dst hdst => reads_some (Mode.isData_of_memoryTarget? hdst)
  · exact reads_guard fun h => Mode.isReadable_of_isData h

/-- The sizes of the forms for address registers are read of every mode. -/
theorem isReadable_addressSize (mode : Mode) (c : Bool) :
    mode.isReadable (if c then Size.long else Size.word) = true :=
  Mode.isReadable_of_ne_byte (by cases c <;> decide)

/-- Lines 9 and D: sums and differences. -/
theorem reads_arithLine (op : Arith) : Reads (ofArithLine? op opcode) (IsEncoded opcode) := by
  unfold ofArithLine?
  refine reads_bind fun mode _ => ?_
  split
  · exact reads_some (isReadable_addressSize mode _)
  · refine reads_ite (fun _ => ?_) fun _ => reads_guard fun h => h
    exact reads_bind fun dst hdst => reads_some (Mode.isData_of_memoryTarget? hdst)

/-- Line B: comparisons and `EOR`. -/
theorem reads_lineB : Reads (ofLineB? opcode) (IsEncoded opcode) := by
  unfold ofLineB?
  refine reads_bind fun mode _ => ?_
  split
  · exact reads_some (isReadable_addressSize mode _)
  · refine reads_ite (fun _ => ?_) fun _ => reads_guard fun h => h
    exact reads_bind fun dst hdst => reads_some (Mode.isData_of_dataTarget? hdst)

/-- Line C: exchanges and `AND`. -/
theorem reads_lineC : Reads (ofLineC? opcode) (IsEncoded opcode) := by
  unfold ofLineC?
  refine reads_ite (fun _ => reads_some trivial) fun _ => ?_
  refine reads_ite (fun _ => reads_some trivial) fun _ => ?_
  exact reads_ite (fun _ => reads_some trivial) fun _ => reads_logicLine .and

/-- Every opcode that stands for an instruction keeps its promise. -/
theorem isEncoded_of_ofOpcode? {i : Instruction} (h : ofOpcode? chip opcode = some i) :
    i.IsEncoded opcode := by
  refine (show Reads (ofOpcode? chip opcode) (IsEncoded opcode) from ?_) i h
  unfold ofOpcode?
  split
  · exact reads_line0
  · exact reads_moveLine .byte
  · exact reads_moveLine .long
  · exact reads_moveLine .word
  next hline => exact reads_line4 (by
      rwa [UInt16.toNat_shiftRight, Nat.shiftRight_eq_div_pow] at hline)
  · exact reads_line5
  · exact reads_some isEncoded_line6
  · exact reads_line7
  · exact reads_logicLine .or
  · exact reads_arithLine .sub
  · exact reads_lineB
  · exact reads_lineC
  · exact reads_arithLine .add
  · exact reads_none

end Instruction

end Cpu68k
