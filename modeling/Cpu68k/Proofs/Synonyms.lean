import Cpu68k.Proofs.Encodings
import Cpu68k.Proofs.ExtensionWords
import Cpu68k.Proofs.ProgramCounter
import Cpu68k.Proofs.Twins

/-!
# Encodings of one operation

Some operations can be written in several ways: with the number in the opcode or behind
it, as an instruction with an immediate operand or as one with a source that is
immediate, as a branch with a short or a long displacement. `Synonyms` lists these pairs
word by word. The two go through different lines of the decoder and fetch different
words, but become operations with one effect, so a step over either leaves twins.
-/

namespace Cpu68k

/-- The forms in which a branch can hold a displacement. -/
inductive BranchForm (chip : Chip) (test : Test) : UInt32 → List UInt16 → Prop
  /-- The opcode holds it. The extended chips read FF as the sign of the long form. -/
  | byte (d : UInt8) (hzero : d ≠ 0) (hlong : ¬ (d = 0xFF ∧ chip.features.extended)) :
    BranchForm chip test (Size.byte.signExtend d.toUInt32) [Instruction.branchOpcode test d]
  /-- A word follows. -/
  | word (d : UInt16) :
    BranchForm chip test (Size.word.signExtend d.toUInt32) [Instruction.branchOpcode test 0, d]
  /-- A long follows. -/
  | long (high low : UInt16) (hextended : chip.features.extended) :
    BranchForm chip test ((high.toUInt32 <<< 16) ||| low.toUInt32)
      [Instruction.branchOpcode test 0xFF, high, low]

/-- Two rows of words that encode one operation. -/
inductive Synonyms (chip : Chip) : List UInt16 → List UInt16 → Prop
  /-- `ADDQ` and `ADDI`, `SUBQ` and `SUBI` -/
  | quick (op : Arith) (size : Size) (dst : Target) {value : UInt32} {imm ext : List UInt16}
    (hpos : 1 ≤ value) (hle : value ≤ 8) (hdst : dst.isData = true)
    (himm : size.immediateOf? imm = some value)
    (hext : ext.length = ((Mode.target dst).extensionWords size).toNat) :
    Synonyms chip (Instruction.quickOpcode op size value dst :: ext)
      (Instruction.immediateOpcode (.binary (.arith op)) size dst :: (imm ++ ext))
  /-- `ADDI` and `ADD`, `SUBI` and `SUB`, `ANDI` and `AND`, `ORI` and `OR` -/
  | register (op : Binary) (size : Size) (n : Fin 8) {line : Fin 16} {value : UInt32}
    {imm imm' : List UInt16} (hline : op.registerLine? = some line)
    (himm : size.immediateOf? imm = some value) (himm' : size.immediateOf? imm' = some value) :
    Synonyms chip (Instruction.immediateOpcode (.binary op) size (.dataReg n) :: imm)
      (Instruction.registerOpcode line size n :: imm')
  /-- `CMPI` and `CMP` -/
  | compare (size : Size) (n : Fin 8) {value : UInt32} {imm imm' : List UInt16}
    (himm : size.immediateOf? imm = some value) (himm' : size.immediateOf? imm' = some value) :
    Synonyms chip (Instruction.immediateOpcode .compare size (.dataReg n) :: imm)
      (Instruction.registerOpcode 0xB size n :: imm')
  /-- `ADDQ` and `ADDA`, `SUBQ` and `SUBA` -/
  | quickAddress (op : Arith) {size size' : Size} (n : Fin 8) {value : UInt32}
    {imm : List UInt16} (hsize : size ≠ .byte) (hsize' : size' ≠ .byte) (hpos : 1 ≤ value)
    (hle : value ≤ 8) (himm : size'.immediateOf? imm = some value) :
    Synonyms chip [Instruction.quickOpcode op size value (.addrReg n)]
      (Instruction.addressOpcode op size' n :: imm)
  /-- `MOVEQ` and `MOVE.L` -/
  | moveQuick (byte : UInt8) (n : Fin 8) {imm : List UInt16}
    (himm : Size.long.immediateOf? imm = some (Size.byte.signExtend byte.toUInt32)) :
    Synonyms chip [Instruction.moveQuickOpcode n byte] (Instruction.moveLongOpcode n :: imm)
  /-- `Bcc` in two of its forms -/
  | branch {test : Test} {distance : UInt32} {words words' : List UInt16} (htest : test ≠ .never)
    (h : BranchForm chip test distance words) (h' : BranchForm chip test distance words') :
    Synonyms chip words words'

/-! ### What the words of an instruction spell -/

variable {chip : Chip} {i i' : Instruction} {op op' : Operation} {size : Size}
variable {words words' ext ext' imm : List UInt16} {m m' m₁ m₂ : Machine}

/-- The operation of `ADDQ` and `SUBQ` on a place. -/
def Operation.ofQuick (op : Arith) (size : Size) (value : UInt32) : Place → Operation
  | .addrReg n => .arithAddress op size (.constant value) n
  | place => .binary (.arith op) size (.constant value) place

/-- Only an address register is worked on as a whole. -/
theorem Operation.ofQuick_of_isData {t : Target} {p : Place} (h : t.Gives p)
    (ht : t.isData = true) (op : Arith) (size : Size) (value : UInt32) :
    ofQuick op size value p = .binary (.arith op) size (.constant value) p := by
  cases h with
  | addrReg n => cases ht
  | _ => rfl

/-- The words of a quick operation spell its target only. -/
theorem spells_quick (op : Arith) (size : Size) (value : UInt32) (dst : Target) (m : Machine) :
    Spells (Instruction.quick op size value dst).resolve m fun words =>
      (dst.placeOf? m.chip m.registers size words).map (.ofQuick op size value) := by
  have hresolve : (Instruction.quick op size value dst).resolve =
      dst.resolve size >>= fun p => pure (Operation.ofQuick op size value p) := by
    refine congrArg (dst.resolve size >>= ·) (funext fun p => ?_)
    cases p <;> rfl
  rw [hresolve]
  exact (spells_target dst).map _

/-- The words of an operation with an immediate value spell it first and its target then. -/
theorem spells_immediate (op : Binary) (size : Size) (dst : Target) (m : Machine) :
    Spells (Instruction.immediate op size dst).resolve m fun words =>
      (size.immediateOf? (words.take size.immediateWords.toNat)).bind fun value =>
        (dst.placeOf? m.chip m.registers size (words.drop size.immediateWords.toNat)).map
          (.binary op size (.constant value)) := by
  have hplace : dst.placeOf? m.chip (m.resolved m.registers size.immediateWords).registers size =
      dst.placeOf? m.chip m.registers size := dst.placeOf?_withPc ..
  have htarget (value : UInt32) : Spells
      (dst.resolve size >>= fun p => pure (Operation.binary op size (.constant value) p))
      (m.resolved m.registers size.immediateWords) fun words =>
        (dst.placeOf? m.chip m.registers size words).map (.binary op size (.constant value)) :=
    hplace ▸ (spells_target dst).map _
  exact (spells_fetchImmediate size).bind (fetches_fetchImmediate size)
    (fun _ _ h => Size.length_of_immediateOf? h) htarget

/-- Some machine with these registers, that has these words at its program counter, resolves
the instruction to the operation. -/
def Instruction.Becomes (chip : Chip) (r : RegisterFile) (words : List UInt16) (i : Instruction)
    (op : Operation) : Prop :=
  ∃ m m₁, m.chip = chip ∧ m.registers = r ∧ m.space.HoldsWords r.pc words ∧
    i.resolve m = .ok op m₁

/-- Where an instruction takes as many words as there are, these spell its operation. -/
theorem Instruction.Becomes.spelt {r : RegisterFile} (h : i.Becomes chip r words op)
    (spelt : Chip → RegisterFile → List UInt16 → Option Operation)
    (hspells : ∀ m, Spells i.resolve m (spelt m.chip m.registers))
    (hlength : ∀ words' op', spelt chip r words' = some op' → words'.length = words.length) :
    spelt chip r words = some op := by
  obtain ⟨m, m₁, rfl, rfl, hholds, hresolve⟩ := h
  exact ((hspells m).of_holds hholds hlength).of_ok hresolve

/-- An instruction without words of its own becomes one operation. -/
theorem Instruction.Becomes.of_pure {r : RegisterFile} (h : i.Becomes chip r words op)
    (hresolve : i.resolve = pure op') : op = op' := by
  obtain ⟨m, m₁, -, -, -, hrun⟩ := h
  rw [hresolve] at hrun
  cases hrun
  rfl

/-- An instruction that fetches an immediate value and nothing else. -/
theorem Instruction.Becomes.of_immediate {r : RegisterFile} {value : UInt32}
    (h : i.Becomes chip r imm op) (f : UInt32 → Operation)
    (hresolve : i.resolve = fetchImmediate size >>= fun value => pure (f value))
    (himm : size.immediateOf? imm = some value) : op = f value := by
  have hspelt := h.spelt (fun _ _ words => (size.immediateOf? words).map f)
    (fun m => hresolve ▸ (spells_fetchImmediate size).map f) fun words op h => ?_
  · rw [himm, Option.map_some] at hspelt
    exact (Option.some.inj hspelt).symm
  · obtain ⟨value', hvalue', -⟩ := Option.map_eq_some_iff.1 h
    rw [Size.length_of_immediateOf? hvalue', Size.length_of_immediateOf? himm]

/-- An instruction that has an immediate source. -/
theorem Instruction.Becomes.of_immediate_source {r : RegisterFile} {value : UInt32}
    (h : i.Becomes chip r imm op) (f : Operand → Operation)
    (hresolve : i.resolve = Mode.immediate.resolve size >>= fun src => pure (f src))
    (himm : size.immediateOf? imm = some value) : op = f (.constant value) := by
  refine h.of_immediate (fun value => f (.constant value)) ?_ himm
  rw [hresolve, Mode.resolve, bind_assoc]
  rfl

/-- A quick operation becomes the one that the words of its target spell. -/
theorem Instruction.Becomes.of_quick {r : RegisterFile} {op : Arith} {value : UInt32}
    {dst : Target} {o : Operation} (h : (Instruction.quick op size value dst).Becomes chip r ext o)
    (hext : ext.length = ((Mode.target dst).extensionWords size).toNat) :
    (dst.placeOf? chip r size ext).map (.ofQuick op size value) = some o := by
  refine h.spelt (fun chip r words =>
    (dst.placeOf? chip r size words).map (.ofQuick op size value))
    (spells_quick op size value dst) fun words o h => ?_
  obtain ⟨p, hp, -⟩ := Option.map_eq_some_iff.1 h
  rw [Target.length_of_placeOf? hp, hext]

/-- The words of the immediate value lie in front of those of the target. -/
theorem Instruction.Becomes.of_immediate_target {r : RegisterFile} {op : Binary} {value : UInt32}
    {dst : Target} {o : Operation}
    (h : (Instruction.immediate op size dst).Becomes chip r (imm ++ ext) o)
    (himm : size.immediateOf? imm = some value)
    (hext : ext.length = ((Mode.target dst).extensionWords size).toNat) :
    (dst.placeOf? chip r size ext).map (.binary op size (.constant value)) = some o := by
  have hlength := Size.length_of_immediateOf? himm
  have hspelt := h.spelt (fun chip r words =>
    (size.immediateOf? (words.take size.immediateWords.toNat)).bind fun value =>
      (dst.placeOf? chip r size (words.drop size.immediateWords.toNat)).map
        (.binary op size (.constant value)))
    (spells_immediate op size dst) fun words o h => ?_
  · rwa [List.take_left' hlength, List.drop_left' hlength, himm, Option.bind_some] at hspelt
  · obtain ⟨value', hvalue', hplace⟩ := Option.bind_eq_some_iff.1 h
    obtain ⟨p, hp, -⟩ := Option.map_eq_some_iff.1 hplace
    have hfront := Size.length_of_immediateOf? hvalue'
    have hback := Target.length_of_placeOf? hp
    rw [List.length_take] at hfront
    rw [List.length_drop] at hback
    rw [List.length_append]
    omega

/-! ### One side of a pair -/

/-- The words are an opcode of the instruction and as many words behind it as the
instruction fetches. -/
structure Instruction.Written (chip : Chip) (i : Instruction) (ext words : List UInt16) :
    Prop where
  /-- The opcode stands for the instruction. -/
  decodes : ∃ opcode, words = opcode :: ext ∧ ofOpcode? chip opcode = some i
  /-- The instruction fetches the words behind it. -/
  fetches : UInt32.ofNat ext.length = i.leadingWords chip + extensionWords i.modeSize i.modes

/-- The words of an instruction are as many bytes as its length. -/
theorem Instruction.Written.length_eq (h : i.Written chip ext words) :
    i.length chip = 2 * .ofNat words.length := by
  obtain ⟨opcode, rfl, -⟩ := h.decodes
  rw [length, ← h.fetches, List.length_cons, UInt32.ofNat_add]
  change _ = 2 * (UInt32.ofNat ext.length + 1)
  grind

/-- An instruction without extension words. -/
theorem Instruction.written_nil {opcode : UInt16} (hdecodes : ofOpcode? chip opcode = some i)
    (hwords : i.leadingWords chip + extensionWords i.modeSize i.modes = 0) :
    i.Written chip [] [opcode] :=
  ⟨⟨opcode, rfl, hdecodes⟩, hwords.symm⟩

/-- An instruction whose extension words are an immediate value. -/
theorem Instruction.written_immediate {opcode : UInt16} {value : UInt32}
    (hdecodes : ofOpcode? chip opcode = some i) (himm : size.immediateOf? imm = some value)
    (hwords : i.leadingWords chip + extensionWords i.modeSize i.modes = size.immediateWords) :
    i.Written chip imm (opcode :: imm) := by
  refine ⟨⟨opcode, rfl, hdecodes⟩, ?_⟩
  rw [hwords, Size.length_of_immediateOf? himm, UInt32.ofNat_toNat]

/-- An instruction whose extension words are those of an immediate source. -/
theorem Instruction.written_immediate_source {opcode : UInt16} {value : UInt32}
    (hdecodes : ofOpcode? chip opcode = some i) (himm : size.immediateOf? imm = some value)
    (hleading : i.leadingWords chip = 0)
    (hmodes : extensionWords i.modeSize i.modes = extensionWords size [.immediate]) :
    i.Written chip imm (opcode :: imm) := by
  refine written_immediate hdecodes himm ?_
  rw [hleading, hmodes, UInt32.zero_add]
  exact UInt32.add_zero _

/-- Two instructions that do the same, with some words behind their opcodes. -/
structure Instruction.Alike (chip : Chip) (i : Instruction) (ext : List UInt16)
    (i' : Instruction) (ext' : List UInt16) : Prop where
  /-- They transfer control alike. -/
  transfers r : i'.transfers r = i.transfers r
  /-- Their modes move the same registers. -/
  moved r : movedBy i'.modeSize r i'.modes = movedBy i.modeSize r i.modes
  /-- They become operations with one effect. -/
  effect r op op' : i.Becomes chip r ext op → i'.Becomes chip r ext' op' →
    op.IsImmediate ∧ op'.effect = op.effect

/-- A quick operation does the same as one with an immediate value. -/
theorem alike_quick (op : Arith) (size : Size) (dst : Target) {value : UInt32}
    (hdst : dst.isData = true) (himm : size.immediateOf? imm = some value)
    (hext : ext.length = ((Mode.target dst).extensionWords size).toNat) :
    Instruction.Alike chip (.quick op size value dst) ext (.immediate (.arith op) size dst)
      (imm ++ ext) where
  transfers _ := rfl
  moved _ := rfl
  effect r o o' h h' := by
    have hplace := h.of_quick hext
    have hplace' := h'.of_immediate_target himm hext
    obtain ⟨p, hp, rfl⟩ := Option.map_eq_some_iff.1 hplace
    rw [hp, Option.map_some, Option.some.injEq] at hplace'
    subst hplace'
    rw [Operation.ofQuick_of_isData (Target.gives_of_placeOf? hp) hdst]
    exact ⟨.binary (.arith op) size value p, rfl⟩

/-- Two instructions that become one operation each, with one effect. -/
theorem alike_of_eq
    (htransfers : ∀ r, i'.transfers r = i.transfers r)
    (hmoved : ∀ r, movedBy i'.modeSize r i'.modes = movedBy i.modeSize r i.modes)
    (hop : ∀ r o, i.Becomes chip r ext o → o = op)
    (hop' : ∀ r o, i'.Becomes chip r ext' o → o = op') (himmediate : op.IsImmediate)
    (heffect : op'.effect = op.effect) : i.Alike chip ext i' ext' where
  transfers := htransfers
  moved := hmoved
  effect r o o' h h' := by
    rw [hop r o h, hop' r o' h']
    exact ⟨himmediate, heffect⟩

/-- A number that is positive as a word is the same extended. -/
theorem signExtend_of_le {value : UInt32} (hle : value ≤ 8) (hsize : size ≠ .byte) :
    size.signExtend (value &&& size.mask) = value := by
  have hlt : value.toNat < 9 := Nat.lt_succ_of_le (UInt32.le_iff_toNat_le.1 hle)
  have hsmall (k : Fin 9) :
      size.signExtend (.ofNat k.val &&& size.mask) = .ofNat k.val := by
    cases size with
    | byte => exact absurd rfl hsize
    | word | long =>
      revert k
      decide
  have hvalue := hsmall ⟨value.toNat, hlt⟩
  rwa [UInt32.ofNat_toNat] at hvalue

/-- A small number counts the same as a word and as a long. -/
theorem arithAddress_effect {size size' : Size} {value : UInt32} (op : Arith) (n : Fin 8)
    (hle : value ≤ 8) (hsize : size ≠ .byte) (hsize' : size' ≠ .byte) :
    (Operation.arithAddress op size' (.constant value) n).effect =
      (Operation.arithAddress op size (.constant value) n).effect := by
  change modifyRegisters (fun r => r.setAddrReg n (op.onAddress (size'.signExtend
    (value &&& size'.mask)) (r.addrReg n))) = modifyRegisters (fun r => r.setAddrReg n
      (op.onAddress (size.signExtend (value &&& size.mask)) (r.addrReg n)))
  rw [signExtend_of_le hle hsize, signExtend_of_le hle hsize']

/-- A move of a long into a data register has the effect of a quick one. -/
theorem moveLong_effect (value : UInt32) (n : Fin 8) :
    (Operation.move .long (.constant value) (.dataReg n)).effect =
      (Operation.moveQuick value n).effect := by
  have hmask : value &&& Size.long.mask = value := UInt32.and_neg_one
  change (Place.dataReg n).write .long (value &&& Size.long.mask) >>=
    (fun _ => setLogical (value &&& Size.long.mask) .long) = _
  rw [hmask]
  rfl

/-- The words of a branch hold its displacement. -/
theorem BranchForm.written {test : Test} {distance : UInt32}
    (h : BranchForm chip test distance words) (htest : test ≠ .never) :
    ∃ d ext, (Instruction.branch test d).Written chip ext words ∧
      displacementOf? chip d ext = some distance := by
  cases h with
  | byte d hzero hlong =>
    refine ⟨d, [], ⟨⟨_, rfl, Instruction.ofOpcode?_branch chip htest d⟩, ?_⟩, ?_⟩
    · change 0 = Instruction.branchWords chip d + 0
      rw [Instruction.branchWords, if_neg hzero, if_neg hlong]
      rfl
    · rw [displacementOf?, if_neg hzero, if_neg hlong]
      rfl
  | word d =>
    exact ⟨0, [d], ⟨⟨_, rfl, Instruction.ofOpcode?_branch chip htest 0⟩, rfl⟩, rfl⟩
  | long high low hextended =>
    have hlong : (0xFF : UInt8) = 0xFF ∧ chip.features.extended = true := ⟨rfl, hextended⟩
    refine ⟨0xFF, [high, low], ⟨⟨_, rfl, Instruction.ofOpcode?_branch chip htest 0xFF⟩, ?_⟩, ?_⟩
    · change 2 = Instruction.branchWords chip 0xFF + 0
      rw [Instruction.branchWords, if_neg (by decide), if_pos hlong]
      rfl
    · rw [displacementOf?, if_neg (by decide), if_pos hlong]
      rfl

/-- A branch becomes one by the displacement that its words spell. -/
theorem Instruction.Becomes.of_branch {r : RegisterFile} {test : Test} {d : UInt8}
    {distance : UInt32} (h : (Instruction.branch test d).Becomes chip r ext op)
    (hdistance : displacementOf? chip d ext = some distance) :
    op = .branch test (r.pc + distance) := by
  have hspelt := h.spelt (fun chip r words =>
    ((displacementOf? chip d words).map (r.pc + ·)).map (.branch test))
    (fun m => (spells_branchTarget d).map _) fun words o h => ?_
  · rw [hdistance] at hspelt
    exact (Option.some.inj hspelt).symm
  · obtain ⟨target, htarget, -⟩ := Option.map_eq_some_iff.1 h
    obtain ⟨distance', hdistance', -⟩ := Option.map_eq_some_iff.1 htarget
    rw [length_of_displacementOf? hdistance', length_of_displacementOf? hdistance]

/-- Branches by one distance have one target. -/
theorem alike_branch {test : Test} {d d' : UInt8} {distance : UInt32}
    (h : displacementOf? chip d ext = some distance)
    (h' : displacementOf? chip d' ext' = some distance) :
    Instruction.Alike chip (.branch test d) ext (.branch test d') ext' where
  transfers _ := rfl
  moved _ := rfl
  effect r o o' ho ho' := by
    rw [ho.of_branch h, ho'.of_branch h']
    exact ⟨.branch _ _, rfl⟩

/-- What two encodings of one operation stand for. -/
theorem Synonyms.alike (h : Synonyms chip words words') :
    ∃ (i i' : Instruction) (ext ext' : List UInt16),
      i.Written chip ext words ∧ i'.Written chip ext' words' ∧ i.Alike chip ext i' ext' := by
  cases h with
  | @quick op size dst value imm ext hpos hle hdst himm hext =>
    have hread : (Mode.target dst).isReadable size = true := Mode.isReadable_of_isData hdst
    have hwords : UInt32.ofNat ext.length = extensionWords size [.target dst] := by
      rw [hext, UInt32.ofNat_toNat]
      exact (UInt32.add_zero _).symm
    refine ⟨_, _, ext, imm ++ ext,
      ⟨⟨_, rfl, Instruction.ofOpcode?_quick chip op size hpos hle hread⟩, ?_⟩,
      ⟨⟨_, rfl, Instruction.ofOpcode?_immediate chip size (.arith op) hdst⟩, ?_⟩,
      alike_quick op size dst hdst himm hext⟩
    · rw [hwords]
      exact (UInt32.zero_add _).symm
    · rw [List.length_append, UInt32.ofNat_add, hwords, Size.length_of_immediateOf? himm,
        UInt32.ofNat_toNat]
      rfl
  | @register op size n line value imm imm' hline himm himm' =>
    have hdata : (Target.dataReg n).isData = true := rfl
    have hi := Instruction.ofOpcode?_immediate chip size op hdata
    have hi' := Instruction.ofOpcode?_register chip size n hline
    exact ⟨_, _, imm, imm', Instruction.written_immediate hi himm (UInt32.add_zero _),
      Instruction.written_immediate_source hi' himm' rfl rfl,
      alike_of_eq (fun _ => rfl) (fun _ => rfl)
        (fun r o h => h.of_immediate (fun value => .binary op size (.constant value) (.dataReg n))
          rfl himm)
        (fun r o h => h.of_immediate_source (fun src => .binary op size src (.dataReg n)) rfl himm')
        (.binary op size value (.dataReg n)) rfl⟩
  | @compare size n value imm imm' himm himm' =>
    have hdata : (Target.dataReg n).isData = true := rfl
    have hi := Instruction.ofOpcode?_compareImmediate chip size hdata
    have hi' := Instruction.ofOpcode?_compare chip size n
    exact ⟨_, _, imm, imm', Instruction.written_immediate hi himm (UInt32.add_zero _),
      Instruction.written_immediate_source hi' himm' rfl rfl,
      alike_of_eq (fun _ => rfl) (fun _ => rfl)
        (fun r o h => h.of_immediate (fun value =>
          .compare size (.constant value) (.place (.dataReg n))) rfl himm)
        (fun r o h => h.of_immediate_source (fun src =>
          .compare size src (.place (.dataReg n))) rfl himm')
        (.compare size value n) rfl⟩
  | @quickAddress op size size' n value imm hsize hsize' hpos hle himm =>
    have hread : (Mode.target (.addrReg n)).isReadable size = true :=
      Mode.isReadable_of_ne_byte hsize
    have hi := Instruction.ofOpcode?_quick chip op size hpos hle hread
    have hi' := Instruction.ofOpcode?_address chip op size' n hsize'
    exact ⟨_, _, [], imm, Instruction.written_nil hi rfl,
      Instruction.written_immediate_source hi' himm rfl rfl,
      alike_of_eq (fun _ => rfl) (fun _ => rfl)
        (fun r o h => h.of_pure rfl)
        (fun r o h => h.of_immediate_source (fun src => .arithAddress op size' src n) rfl himm)
        (.arithAddress op size value n) (arithAddress_effect op n hle hsize hsize')⟩
  | @moveQuick byte n imm himm =>
    have hi := Instruction.ofOpcode?_moveQuick chip n byte
    have hi' := Instruction.ofOpcode?_moveLong chip n
    exact ⟨_, _, [], imm, Instruction.written_nil hi rfl,
      Instruction.written_immediate hi' himm rfl,
      alike_of_eq (fun _ => rfl) (fun _ => rfl)
        (fun r o h => h.of_pure rfl)
        (fun r o h => h.of_immediate_source (fun src => .move .long src (.dataReg n)) rfl himm)
        (.moveQuick _ n) (moveLong_effect _ n)⟩
  | branch htest h h' =>
    obtain ⟨d, ext, hwritten, hdistance⟩ := h.written htest
    obtain ⟨d', ext', hwritten', hdistance'⟩ := h'.written htest
    exact ⟨_, _, ext, ext', hwritten, hwritten', alike_branch hdistance hdistance'⟩

/-! ### Steps -/

/-- The addresses of some words. -/
def wordSpan (n : Nat) : UInt32 → List UInt32 :=
  strided 1 (2 * n)

namespace Machine

/-- The operation that the instruction at the program counter becomes, if its operands can
be resolved. -/
def operation? (m : Machine) : Option Operation := do
  let opcode ← m.wordAt? m.registers.pc
  let i ← Instruction.ofOpcode? m.chip opcode
  match i.resolve (m.fetched opcode) with
  | .ok op _ => some op
  | .error _ _ => none

/-- The operation that is completed is the one at the program counter. -/
theorem Completes.operation? {opcode : UInt16} (h : m.Completes opcode i op m₁ m₂) :
    m.operation? = some op := by
  simp only [Machine.operation?, h.fetches, h.decodes, h.resolves, Option.bind_eq_bind,
    Option.bind_some]

/-- The instruction that is completed is the one whose words lie at the program counter. -/
theorem Completes.written {opcode : UInt16} {i₁ : Instruction}
    (h : m.Completes opcode i₁ op m₁ m₂) (hi : i.Written m.chip ext words)
    (hholds : m.space.HoldsWords m.registers.pc words) :
    i₁ = i ∧ i.Becomes m.chip { m.registers with pc := m.registers.pc + 2 } ext op := by
  obtain ⟨opcode', rfl, hdecodes⟩ := hi.decodes
  obtain ⟨hopcode, hext⟩ := Space.holdsWords_cons.1 hholds
  cases wordAt?_eq_of_holds h.fetches hopcode
  cases h.decodes.symm.trans hdecodes
  exact ⟨rfl, m.fetched opcode, m₁, rfl, rfl, hext, h.resolves⟩

/-- Resolving two instructions that move the same registers leaves twins. -/
theorem Completes.twins {opcode opcode' : UInt16} {addrs : List UInt32} {m₁' m₂' : Machine}
    (h : m.Completes opcode i op m₁ m₂) (h' : m'.Completes opcode' i' op' m₁' m₂')
    (hsame : m' = { m with space := m'.space }) (hspace : m.space.AgreeExcept addrs m'.space)
    (hmoved : ∀ r, movedBy i'.modeSize r i'.modes = movedBy i.modeSize r i.modes) :
    Twins addrs m₁ m₁' := by
  have hregisters : m'.registers = m.registers := by rw [hsame]
  have hfetched : (m'.fetched opcode').registers = (m.fetched opcode).registers := by
    rw [fetched, fetched, hregisters]
  have hleft := (resolves_instruction i).of_ok h.resolves
  have hright := (resolves_instruction i').of_ok h'.resolves
  rw [hfetched, hmoved] at hright
  rw [hleft, hright]
  refine ⟨rfl, ?_, hspace⟩
  rw [hsame]
  rfl

/-- Of the operations with a source of their own only the branches transfer control. -/
theorem target_of_transfers (h : i.Gives op) (hop : op.IsImmediate)
    (htaken : i.transfers m.registers = true) : Ends op.effect m
      (fun _ m' => op.target? = some m'.registers.pc) fun _ _ => True := by
  cases hop with
  | branch test target =>
    cases h with
    | branch =>
      refine (Instruction.Gives.branch test _ target).pc_of_transfers rfl htaken |>.mono_ok ?_
      intro _ m' hpc
      rw [hpc target rfl]
      rfl
  | binary | compare | arithAddress | moveQuick => cases h <;> cases htaken

/-- What steps over two encodings of one operation leave, if the encodings are `n` and `n'`
words long. -/
structure StepsTogether (addrs : List UInt32) (n n' : Nat) (m m' : Machine) : Prop where
  /-- All but the program counters, the opcodes and the bytes at the addresses is the same. -/
  twins : Twins addrs m.step.val m'.step.val
  /-- Where control is not transferred, each goes on behind its own words. -/
  next i : m.instruction? = some i → i.transfers m.registers = false →
    m.step.val.registers.pc = m.registers.pc + 2 * .ofNat n ∧
      m'.step.val.registers.pc = m.registers.pc + 2 * .ofNat n'
  /-- Where control is transferred, both go on at one place. -/
  taken i : m.instruction? = some i → i.transfers m.registers = true →
    m'.step.val.registers.pc = m.step.val.registers.pc

/-- Encodings of one operation agree. Two machines are the same, but for the bytes at the
program counter, where each has one of two encodings of an operation. If neither step
meets a fault and the operation keeps away from these bytes, the steps lead to the same
registers and the same memory elsewhere, and each passes its own words, unless a branch is
taken: then both go on at its target. -/
theorem synonyms_agree (h : Synonyms m.chip words words') (hstate : m.state = .normal)
    (hsame : m' = { m with space := m'.space })
    (hholds : m.space.HoldsWords m.registers.pc words)
    (hholds' : m'.space.HoldsWords m.registers.pc words')
    (hspace : m.space.AgreeExcept (wordSpan (max words.length words'.length) m.registers.pc)
      m'.space)
    (hfault : m.fault? = none) (hfault' : m'.fault? = none)
    (hapart : ∀ op, m.operation? = some op →
      op.IsApart (wordSpan (max words.length words'.length) m.registers.pc)) :
    m.StepsTogether (wordSpan (max words.length words'.length) m.registers.pc) words.length
      words'.length m' := by
  have hregisters : m'.registers = m.registers := by rw [hsame]
  have hchip : m'.chip = m.chip := by rw [hsame]
  have hstate' : m'.state = .normal := by rw [hsame, hstate]
  obtain ⟨i, i', ext, ext', hwritten, hwritten', halike⟩ := h.alike
  obtain ⟨opcode, i₁, op, m₁, hcompletes⟩ := step_completes hstate hfault
  obtain ⟨opcode', i₁', op', m₁', hcompletes'⟩ := step_completes hstate' hfault'
  obtain ⟨rfl, hbecomes⟩ := hcompletes.written hwritten hholds
  rw [← hchip] at hwritten'
  rw [← hregisters] at hholds'
  obtain ⟨rfl, hbecomes'⟩ := hcompletes'.written hwritten' hholds'
  rw [hchip, hregisters] at hbecomes'
  obtain ⟨himmediate, heffect⟩ := halike.effect _ op op' hbecomes hbecomes'
  have htwins := hcompletes.twins hcompletes' hsame hspace halike.moved
  have hperforms' := hcompletes'.performs
  rw [heffect] at hperforms'
  refine ⟨?_, fun i hi hplain => ?_, fun i hi htaken => ?_⟩
  · have hends := himmediate.respects (hapart op hcompletes.operation?) m₁ m₁' htwins
    rw [hcompletes.performs, hperforms'] at hends
    cases hends with
    | ok h => exact h
  · cases hcompletes.instruction?.symm.trans hi
    have hplain' : i₁'.transfers m'.registers = false := by
      rw [hregisters, halike.transfers, hplain]
    have hnext := hcompletes.advances.next hplain
    have hnext' := hcompletes'.advances.next hplain'
    rw [hwritten.length_eq] at hnext
    rw [hwritten'.length_eq, hregisters] at hnext'
    exact ⟨hnext, hnext'⟩
  · cases hcompletes.instruction?.symm.trans hi
    have hgives := (yields_instruction _ _).of_ok hcompletes.resolves
    have htaken₁ := ((ends_resolve_pc _ m).of_ok hcompletes.resolves).2.trans htaken
    have htaken₁' : i₁.transfers m₁'.registers = true := by
      rw [htwins.registers, ← htaken₁]
      exact i₁.transfers_congr rfl rfl
    have hpc := (target_of_transfers hgives himmediate htaken₁).of_ok hcompletes.performs
    have hpc' := (target_of_transfers hgives himmediate htaken₁').of_ok hperforms'
    exact Option.some.inj (hpc'.symm.trans hpc)

/-- A machine with six bytes of code, which works on the word at 48. -/
def adding (code : Vector UInt8 6) : Machine :=
  { Machine.initial .mc68000 .halt (.flat ⟨.general,
      ⟨Array.replicate 32 0 ++ code.toArray ++ Array.replicate 10 0 ++ #[0x12, 0x34] ++
        Array.replicate 14 0⟩⟩) with
    registers := { RegisterFile.initial with addr := #v[40, 0, 0, 0, 0, 0, 0], pc := 32, ssp := 64 }
    state := .normal }

/-- A machine at an `ADDQ.W #3,8(A0)`. -/
def addingQuick : Machine :=
  adding #v[0x56, 0x68, 0, 8, 0, 0]

/-- A machine at an `ADDI.W #3,8(A0)`. -/
def addingImmediate : Machine :=
  adding #v[0x06, 0x68, 0, 3, 0, 8]

/-- A quick addition to memory, in two words, and the same one with an immediate value, in three,
leave machines that differ in their code only. -/
theorem synonyms_agree_adding :
    Synonyms addingQuick.chip [0x5668, 8] [0x0668, 3, 8] ∧ addingQuick.state = .normal ∧
      addingImmediate = { addingQuick with space := addingImmediate.space } ∧
      addingQuick.space.HoldsWords 32 [0x5668, 8] ∧
      addingImmediate.space.HoldsWords 32 [0x0668, 3, 8] ∧
      addingQuick.space.AgreeExcept (wordSpan 3 32) addingImmediate.space ∧
      addingQuick.fault? = none ∧ addingImmediate.fault? = none ∧
      (∀ op, addingQuick.operation? = some op → op.IsApart (wordSpan 3 32)) ∧
      addingQuick.StepsTogether (wordSpan 3 32) 2 3 addingImmediate := by
  have hquick : Instruction.quickOpcode .add .word 3 (.pointer (.displaced 0)) = 0x5668 := by
    decide +kernel
  have himmediate : Instruction.immediateOpcode (.binary (.arith .add)) .word
      (.pointer (.displaced 0)) = 0x0668 := by decide +kernel
  have hpos : (1 : UInt32) ≤ 3 := by decide
  have hvalue : Size.word.immediateOf? [3] = some 3 := by decide
  have hext : [(8 : UInt16)].length =
      ((Mode.target (.pointer (.displaced 0))).extensionWords .word).toNat := rfl
  have hsynonyms : Synonyms addingQuick.chip [0x5668, 8] [0x0668, 3, 8] := by
    rw [← hquick, ← himmediate]
    exact .quick .add .word (.pointer (.displaced 0)) hpos (by decide) rfl hvalue hext
  have hholds : addingQuick.space.HoldsWords 32 [0x5668, 8] :=
    Space.holds_iff.2 (by decide +kernel)
  have hholds' : addingImmediate.space.HoldsWords 32 [0x0668, 3, 8] :=
    Space.holds_iff.2 (by decide +kernel)
  have hspace : addingQuick.space.AgreeExcept (wordSpan 3 32) addingImmediate.space :=
    Space.agreeExcept_flat rfl (by decide +kernel) (by decide +kernel)
  have hfault : addingQuick.fault? = none := by decide +kernel
  have hfault' : addingImmediate.fault? = none := by decide +kernel
  have hoperation : addingQuick.operation? =
      some (.binary (.arith .add) .word (.constant 3) (.memory 48)) := by decide +kernel
  have hapart : ∀ op, addingQuick.operation? = some op → op.IsApart (wordSpan 3 32) := by
    intro op hop size p hp a ha
    cases hoperation.symm.trans hop
    cases hp
    have hall : ((Place.memory 48).footprint .word).all (· ∉ wordSpan 3 32) = true := by decide
    exact of_decide_eq_true (List.all_eq_true.1 hall a ha)
  exact ⟨hsynonyms, rfl, rfl, hholds, hholds', hspace, hfault, hfault', hapart,
    synonyms_agree hsynonyms rfl rfl hholds hholds' hspace hfault hfault' hapart⟩

end Machine

end Cpu68k
