import Cpu68k.Proofs.MoveSource

/-!
# What instructions do to the status word

Every instruction belongs to one of a few classes: it leaves the status word alone, or
shows the sign of its result there, or sets the codes of a comparison or of a sum, or
replaces the codes or the whole word. `Instruction.statusEffect` is the table of the
instruction set, and `status_effect` says that a step which completes an instruction
does to the status word what the class says.
-/

namespace Cpu68k

/-! ### Bits of the status word -/

/-- Bits that are set show under each of them. -/
theorem or_and_eq_self {a bits bit : UInt16} (h : bit &&& bits = bit) :
    (a ||| bits) &&& bit = bit := by
  refine word_ext fun i hi => ?_
  have hbit := congrArg (fun w : UInt16 => w.toBitVec.getLsbD i) h
  simp only [UInt16.toBitVec_and, UInt16.toBitVec_or, BitVec.getLsbD_and, BitVec.getLsbD_or]
    at hbit ⊢
  grind

/-- Bits that are cleared do not show. -/
theorem and_not_and_eq_zero {a bits bit : UInt16} (h : bit &&& bits = bit) :
    a &&& ~~~bits &&& bit = 0 := by
  refine word_ext fun i hi => ?_
  have hbit := congrArg (fun w : UInt16 => w.toBitVec.getLsbD i) h
  simp only [UInt16.toBitVec_and, UInt16.toBitVec_not, BitVec.getLsbD_and, BitVec.getLsbD_not,
    UInt16.toBitVec_zero, BitVec.getLsbD_zero] at hbit ⊢
  grind

/-- Bits of a word under two masks. -/
theorem and_or_distrib_left (a b c : UInt16) : a &&& (b ||| c) = a &&& b ||| a &&& c := by
  refine word_ext fun i hi => ?_
  simp only [UInt16.toBitVec_and, UInt16.toBitVec_or, BitVec.getLsbD_and, BitVec.getLsbD_or,
    Bool.and_or_distrib_left]

namespace Status

/-- The codes that a comparison sets: all but extend. -/
def comparisonCodes : UInt16 := 0x000F

/-- The two status words agree outside the bits of a mask. -/
def SameOutside (mask : UInt16) (sr sr' : Status) : Prop :=
  sr'.bits &&& ~~~mask = sr.bits &&& ~~~mask

/-- The status word shows a value of some size: its sign and whether it is zero, with
overflow and carry clear and every other bit as it was in `sr`. -/
structure Shows (sr : Status) (size : Size) (value : UInt32) (sr' : Status) : Prop where
  /-- The sign bit is the sign of the value. -/
  negative : sr'.has Status.negative = (value &&& size.mask &&& size.signBit != 0)
  /-- The zero bit tells whether the value is zero. -/
  zero : sr'.has Status.zero = (value &&& size.mask == 0)
  /-- The overflow bit is clear. -/
  overflow : sr'.has Status.overflow = false
  /-- The carry bit is clear. -/
  carry : sr'.has Status.carry = false
  /-- The other bits are as they were. -/
  others : SameOutside comparisonCodes sr sr'

variable {sr sr' sr'' : Status} {mask bit bits : UInt16} {on : Bool}

/-- Two changes of the same bits are one. -/
theorem SameOutside.trans (h : SameOutside mask sr sr') (h' : SameOutside mask sr' sr'') :
    SameOutside mask sr sr'' :=
  Eq.trans h' h

/-- Setting or clearing bits of the mask. -/
theorem sameOutside_assign (sr : Status) (on : Bool) (hbits : bits &&& ~~~mask = 0) :
    SameOutside mask sr (sr.assign bits on) := by
  cases on with
  | true => exact or_and_of_disjoint hbits
  | false => exact and_not_and_of_disjoint hbits

/-- A bit shows how it was assigned. -/
theorem has_assign (sr : Status) (on : Bool) (hbits : bit &&& bits = bit) (hbit : bit ≠ 0) :
    (sr.assign bits on).has bit = on := by
  cases on with
  | true => exact (congrArg (· != 0) (or_and_eq_self hbits)).trans (bne_iff_ne.2 hbit)
  | false => exact congrArg (· != 0) (and_not_and_eq_zero hbits)

/-- A bit does not show how others were assigned. -/
theorem has_assign_of_disjoint (sr : Status) (on : Bool) (h : bits &&& bit = 0) :
    (sr.assign bits on).has bit = sr.has bit := by
  cases on with
  | true => exact congrArg (· != 0) (or_and_of_disjoint h)
  | false => exact congrArg (· != 0) (and_not_and_of_disjoint h)

/-- The status after a value was moved shows it. -/
theorem shows_logical (sr : Status) (value : UInt32) (size : Size) :
    sr.Shows size value (sr.logical value size) := by
  have hlogical : sr.logical value size = ((sr.assign zero (value &&& size.mask == 0)).assign
      negative (value &&& size.mask &&& size.signBit != 0)).assign (overflow ||| carry) false := rfl
  rw [hlogical]
  have hothers : (overflow ||| carry) &&& negative = 0 ∧ (overflow ||| carry) &&& zero = 0 ∧
      negative &&& zero = 0 := by decide
  constructor
  · rw [has_assign_of_disjoint _ _ hothers.1]
    exact has_assign _ _ (by decide) (by decide)
  · rw [has_assign_of_disjoint _ _ hothers.2.1, has_assign_of_disjoint _ _ hothers.2.2]
    exact has_assign _ _ (by decide) (by decide)
  · exact has_assign _ _ (by decide) (by decide)
  · exact has_assign _ _ (by decide) (by decide)
  · exact ((sameOutside_assign _ _ (by decide)).trans (sameOutside_assign _ _ (by decide))).trans
      (sameOutside_assign _ _ (by decide))

/-- An arithmetic result sets condition codes. -/
theorem sameOutside_arithmetic (sr : Status) (size : Size) (result : UInt32)
    (carries overflows : Bool) :
    SameOutside conditionCodes sr (sr.arithmetic size result carries overflows) :=
  ((((sameOutside_assign _ _ (by decide)).trans (sameOutside_assign _ _ (by decide))).trans
    (sameOutside_assign _ _ (by decide))).trans (sameOutside_assign _ _ (by decide))).trans
    (sameOutside_assign _ _ (by decide))

/-- Bits that agree outside the condition codes, and extend, are the bits outside those
of a comparison. -/
theorem SameOutside.of_extend (h : SameOutside conditionCodes sr sr')
    (hextend : sr'.has extend = sr.has extend) : SameOutside comparisonCodes sr sr' := by
  -- Extend is the one bit in which the two masks differ.
  have hsplit (s : Status) :
      s.bits &&& ~~~comparisonCodes = s.bits &&& ~~~conditionCodes ||| s.bits &&& extend := by
    have hmask : ~~~comparisonCodes = ~~~conditionCodes ||| extend := by decide
    rw [hmask, and_or_distrib_left]
  have hbit (s : Status) : s.bits &&& extend = if s.has extend then extend else 0 := by
    have hpower : s.bits &&& extend = if s.bits.toBitVec.getLsbD 4 then extend else 0 := by
      rw [← UInt16.toBitVec_inj, apply_ite UInt16.toBitVec]
      exact BitVec.and_twoPow _ 4
    rw [has, hpower]
    split <;> rfl
  rw [SameOutside, hsplit, hsplit, hbit, hbit, hextend, h]

/-- Comparing leaves extend as it was. -/
theorem sameOutside_compareStatus (src dst : UInt32) (size : Size) (sr : Status) :
    SameOutside comparisonCodes sr (compareStatus src dst size sr) := by
  refine SameOutside.of_extend ?_ (has_assign _ _ (by decide) (by decide))
  exact (sameOutside_arithmetic sr size _ _ _).trans (sameOutside_assign _ _ (by decide))

/-- Only the bits of the size count. -/
theorem logical_mask (sr : Status) (value : UInt32) (size : Size) :
    sr.logical (value &&& size.mask) size = sr.logical value size := by
  rw [logical, signAndZero, UInt32.and_assoc, UInt32.and_self]
  rfl

end Status

/-! ### Classes of instructions -/

/-- What an instruction that completes does to the status word. -/
inductive StatusEffect
  /-- Nothing. -/
  | kept
  /-- It shows a value there. -/
  | shown
  /-- It sets the codes of a comparison, which are all but extend. -/
  | compared
  /-- It sets the condition codes of a sum or difference. -/
  | computed
  /-- It replaces the condition codes. -/
  | codes
  /-- It replaces the whole word. -/
  | replaced
  deriving DecidableEq

/-- The class of an instruction. -/
def Instruction.statusEffect : Instruction → StatusEffect
  | nop | illegal | reset | trapV | rts | rtd | trap _ | breakpoint _ | exchange _ _ | link _
  | linkLong _ | unlink _ | moveToUsp _ | moveFromUsp _ | movepToMemory _ _ _
  | movepFromMemory _ _ _ | branch _ _ | branchSubroutine _ | decrementBranch _ _
  | setOnTest _ _ | jump _ | jumpSubroutine _ | loadAddress _ _ | pushAddress _
  | moveAddress _ _ _ | moveFromSr _ | moveFromCcr _ | moveFromControl | moveToControl
  | quick _ _ _ (.addrReg _) | toAddress _ _ _ _ => .kept
  | moveQuick _ _ | swap _ | extend _ _ | move _ _ _ | clear _ _ | complement _ _ | test _ _
  | toRegister (.logic _) _ _ _ | fromRegister (.logic _) _ _ _ | immediate (.logic _) _ _ =>
    .shown
  | compare _ _ _ | compareImmediate _ _ | compareAddress _ _ _ => .compared
  | negate _ _ | quick _ _ _ _ | toRegister (.arith _) _ _ _ | fromRegister (.arith _) _ _ _
  | immediate (.arith _) _ _ => .computed
  | rtr | moveToCcr _ | logicToCcr _ => .codes
  | rte | stop | moveToSr _ | logicToSr _ => .replaced

/-- Where an operation has the value that it shows in the status word, and its size: a
test shows its operand, and the others show what they have written. -/
def Operation.shown? : Operation → Option (Size × Operand)
  | moveQuick _ n | swap n | extend .wordToLong n | extend .byteToLong n =>
    some (.long, .place (.dataReg n))
  | extend .byteToWord n => some (.word, .place (.dataReg n))
  | move size _ dst | clear size dst | complement size dst | binary (.logic _) size _ dst =>
    some (size, .place dst)
  | test size src => some (size, src)
  | _ => none

/-- The status word was `sr` and shows the value that the operand has in the machine. -/
def Machine.ShowsAt (m : Machine) (sr : Status) (size : Size) (o : Operand) : Prop :=
  ∃ value, o.valueIn m size = .ok value ∧ sr.Shows size value m.registers.sr

/-- What the class of an instruction says about the status word `sr` before an operation
of the instruction and the machine after it. -/
def StatusEffect.Relates (effect : StatusEffect) (op : Operation) (sr : Status) (m : Machine) :
    Prop :=
  match effect with
  | kept => m.registers.sr = sr
  | shown => ∃ size o, op.shown? = some (size, o) ∧ m.ShowsAt sr size o
  | compared => Status.SameOutside Status.comparisonCodes sr m.registers.sr
  | computed => Status.SameOutside Status.conditionCodes sr m.registers.sr
  | codes => m.registers.sr.systemByte = sr.systemByte
  | replaced => True

variable {m m' : Machine} {i : Instruction} {op : Operation} {chip : Chip} {part : Part}
variable {size : Size} {value : UInt32} {p : Place} {o : Operand}

/-! ### Operations that leave the status word or its high byte alone -/

/-- Whether altering the part alters the status word. -/
def Part.isStatus : Part → Bool
  | codes | status => true
  | _ => false

/-- No numbered register is part of the status word. -/
theorem Register.isStatus_part (x : Register) : x.part.isStatus = false := by
  cases x <;> rfl

/-- No place is part of the status word. -/
theorem Place.isStatus_part (p : Place) : p.part.isStatus = false := by
  cases p <;> rfl

/-- Alterations of other parts keep the status word. -/
theorem Machine.Alters.sr (h : m.Alters part m') (hpart : part.isStatus = false) :
    m'.registers.sr = m.registers.sr := by
  cases h with
  | addr n value => exact RegisterFile.sr_setAddrReg _ _ _
  | control c value => cases c <;> rfl
  | codes | status => cases hpart
  | data | pc | store | stop | breakpoint => rfl

/-- Only alterations of the whole status word reach its high byte. -/
theorem Machine.Alters.systemByte (h : m.Alters part m') (hpart : part ≠ .status) :
    m'.registers.sr.systemByte = m.registers.sr.systemByte := by
  cases h with
  | addr n value => rw [RegisterFile.sr_setAddrReg]
  | control c value => cases c <;> rfl
  | codes h => exact h.system
  | status => exact absurd rfl hpart
  | data | pc | store | stop | breakpoint => rfl

/-- A quick operation on data sets the codes of a sum or difference. -/
theorem Instruction.statusEffect_quick {op : Arith} {t : Target} (hdata : t.isData = true) :
    (Instruction.quick op size value t).statusEffect = .computed := by
  cases t with
  | addrReg n => cases hdata
  | _ => rfl

/-- Instructions that are said to keep the status word alter other parts. -/
theorem Instruction.Gives.isStatus (h : i.Gives op) (hkept : i.statusEffect = .kept)
    (hpart : part ∈ op.parts chip) : part.isStatus = false := by
  have hone {part' : Part} (hpart : part ∈ [part']) (h : part'.isStatus = false) :
      part.isStatus = false := List.mem_singleton.1 hpart ▸ h
  cases h with
  | exchange x y =>
    rcases List.mem_cons.1 hpart with rfl | hpart
    · exact x.isStatus_part
    · exact hone hpart y.isStatus_part
  | setOnTest _ h | moveFromSr h | moveFromCcr h => exact hone hpart (Place.isStatus_part _)
  | moveFromControl code dst => exact hone hpart dst.isStatus_part
  | moveToControl code src =>
    simp only [Operation.parts, List.mem_map] at hpart
    obtain ⟨c, -, rfl⟩ := hpart
    rfl
  | nop | illegal | reset | trapV | trap => cases hpart
  | rtr | rte | stop | moveQuick | swap | extend | move | clear | negate | complement | test
  | moveToCcr | moveToSr | logicToCcr | logicToSr | compare | compareImmediate
  | compareAddress => cases hkept
  | quick op size value h hdata =>
    rw [Instruction.statusEffect_quick hdata] at hkept
    cases hkept
  | toRegister op | fromRegister op | immediate op => cases op <;> cases hkept
  | _ =>
    simp only [Operation.parts, List.mem_cons, List.not_mem_nil, or_false] at hpart
    grind [Part.isStatus]

/-- Only instructions that are said to replace the status word do. -/
theorem Instruction.Gives.ne_status (h : i.Gives op) (heffect : i.statusEffect ≠ .replaced)
    (hpart : part ∈ op.parts chip) : part ≠ .status := by
  rintro rfl
  have hsystem := Operation.isSystem_of_mem_parts hpart rfl
  cases h with
  | rte | stop | moveToSr | logicToSr => exact heffect rfl
  | moveToUsp | moveToControl => simp [Operation.parts] at hpart
  | _ => cases hsystem

/-- Instructions that keep the status word have operations that do. -/
theorem Instruction.Gives.keeps_status (h : i.Gives op) (hkept : i.statusEffect = .kept) :
    Ends op.effect m (fun _ m' => m'.registers.sr = m.registers.sr) fun _ _ => True :=
  effect_keeps op (fun hpart halters hsame => (halters.sr (h.isStatus hkept hpart)).trans hsame) rfl

/-- The high byte of the status word belongs to the instructions that replace the word. -/
theorem Instruction.Gives.keeps_systemByte (h : i.Gives op) (heffect : i.statusEffect ≠ .replaced) :
    Ends op.effect m (fun _ m' => m'.registers.sr.systemByte = m.registers.sr.systemByte)
      fun _ _ => True :=
  effect_keeps op
    (fun hpart halters hsame => (halters.systemByte (h.ne_status heffect hpart)).trans hsame) rfl

/-! ### Operations that show a value -/

/-- What comes after reading an operand has its value, and starts where reading did. -/
theorem ends_operandRead_bind {α : Type} {rest : UInt32 → Exec α} {P : α → Machine → Prop}
    (o : Operand) (size : Size)
    (hrest : ∀ value, o.valueIn m size = .ok value → Ends (rest value) m P fun _ _ => True) :
    Ends (o.read size >>= rest) m P fun _ _ => True := by
  have hread : Ends (o.read size) m (fun value m' => o.valueIn m size = .ok value ∧ m' = m)
      fun _ _ => True :=
    ends_of (fun _ _ h => operandRead_eq_ok.1 h) fun _ _ _ => trivial
  rw [ends_bind]
  refine hread.mono_ok fun value m' h => ?_
  rw [h.2]
  exact hrest value h.1

/-- The bits that are merged into a value are the low ones. -/
theorem Size.merge_and_mask (size : Size) (old value : UInt32) :
    size.merge old value &&& size.mask = value &&& size.mask := by
  unfold merge
  refine UInt32.toBitVec_inj.1 (BitVec.eq_of_getLsbD_eq fun i hi => ?_)
  simp only [UInt32.toBitVec_and, UInt32.toBitVec_or, UInt32.toBitVec_not, BitVec.getLsbD_and,
    BitVec.getLsbD_or, BitVec.getLsbD_not]
  grind

/-- What is written to a place can be read there. -/
theorem ends_placeWrite_value (p : Place) (size : Size) (value : UInt32) (m : Machine) :
    Ends (p.write size value) m
      (fun _ m' => (Operand.place p).valueIn m' size = .ok (value &&& size.mask))
      fun _ _ => True := by
  cases p with
  | dataReg n =>
    have hset := m.registers.dataReg_setDataReg n (size.merge (m.registers.dataReg n) value)
    exact congrArg Except.ok ((congrArg (· &&& size.mask) hset).trans (size.merge_and_mask _ value))
  | addrReg n => exact congrArg Except.ok (congrArg (· &&& size.mask)
      (m.registers.addrReg_setAddrReg n value))
  | memory addr =>
    refine ends_writeData.mono_ok fun _ m' h => ?_
    obtain ⟨spot, hforbids, hlocate, rfl⟩ := h
    exact Machine.load_eq_ok.2 ⟨hforbids, Space.read_setNumberAt value hlocate⟩

/-- Values do not depend on the condition codes. -/
theorem valueIn_recode {sr : Status} (hsr : sr.systemByte = m.registers.sr.systemByte) :
    o.valueIn { m with registers := { m.registers with sr := sr } } size = o.valueIn m size := by
  have hmode : ({ m.registers with sr := sr } : RegisterFile).isSupervisor =
      m.registers.isSupervisor := Status.has_supervisor_of_systemByte hsr
  refine Operand.valueIn_congr rfl rfl hmode rfl fun n _ => ?_
  unfold RegisterFile.addrReg RegisterFile.activeSp
  rw [hmode]

/-- A status word that is made from the value of an operand shows that value. -/
theorem showsAt_logical (hsame : m'.registers.sr = m.registers.sr)
    (hvalue : o.valueIn m' size = .ok value) :
    { m' with registers := { m'.registers with
        sr := m.registers.sr.logical value size } }.ShowsAt m.registers.sr size o := by
  refine ⟨value, ?_, Status.shows_logical _ value size⟩
  rw [valueIn_recode]
  · exact hvalue
  · rw [hsame]
    exact (Status.recoded_logical _ value size).system

/-- Writing a value keeps the status word, and leaves the value where it can be shown. -/
theorem ends_placeWrite_showsAt (p : Place) (size : Size) (value : UInt32) (m : Machine) :
    Ends (p.write size value) m (fun _ m' => m'.registers.sr = m.registers.sr ∧
      { m' with registers := { m'.registers with
          sr := m.registers.sr.logical value size } }.ShowsAt m.registers.sr size (.place p))
      fun _ _ => True := by
  have hwritten := (ends_placeWrite p size value).and (ends_placeWrite_value p size value m)
  refine hwritten.mono_ok fun _ m' h => ⟨h.1, ?_⟩
  -- What was written is the value under the mask, which shows the same.
  rw [← Status.logical_mask]
  exact showsAt_logical h.1 h.2

/-- A value is written and then a status word that shows it. -/
theorem ends_writeStatus {sr : Status} (p : Place)
    (hsr : sr = m.registers.sr.logical value size) :
    Ends (p.write size value >>= fun _ => setStatusWord sr) m
      (fun _ m' => m'.ShowsAt m.registers.sr size (.place p)) fun _ _ => True := by
  rw [ends_bind]
  refine (ends_placeWrite_showsAt p size value m).mono_ok fun _ m' h => ?_
  rw [ends_setStatusWord, hsr]
  exact h.2

/-- A value is written and then shown. -/
theorem ends_writeLogical (p : Place) (size : Size) (value : UInt32) (m : Machine) :
    Ends (p.write size value >>= fun _ => setLogical value size) m
      (fun _ m' => m'.ShowsAt m.registers.sr size (.place p)) fun _ _ => True := by
  rw [ends_bind]
  refine (ends_placeWrite_showsAt p size value m).mono_ok fun _ m' h => ?_
  rw [setLogical, ends_modifyRegisters, h.1]
  exact h.2

/-- Operations that show a value have it where they say. -/
theorem ends_shown {size : Size} (h : op.shown? = some (size, o)) :
    Ends op.effect m (fun _ m' => m'.ShowsAt m.registers.sr size o) fun _ _ => True := by
  cases op with
  | moveQuick value n =>
    cases h
    exact ends_writeLogical (.dataReg n) .long value m
  | swap n =>
    cases h
    exact ends_bind.2 (ends_get.2 (ends_writeLogical (.dataReg n) .long _ m))
  | extend kind n =>
    cases kind <;> cases h <;>
      exact ends_bind.2 (ends_get.2 (ends_writeLogical (.dataReg n) _ _ m))
  | move size src dst =>
    cases h
    exact ends_operandRead_bind src size fun value _ => ends_writeLogical dst size value m
  | clear size dst =>
    cases h
    exact ends_writeLogical dst size 0 m
  | complement size dst =>
    cases h
    exact ends_operandRead_bind (.place dst) size fun value _ => ends_writeLogical dst size _ m
  | test size src =>
    cases h
    refine ends_operandRead_bind o size fun value hvalue => ?_
    rw [setLogical, ends_modifyRegisters]
    exact showsAt_logical rfl hvalue
  | binary binaryOp size src dst =>
    cases binaryOp with
    | arith => cases h
    | logic =>
      cases h
      refine ends_operandRead_bind src size fun x _ => ?_
      refine ends_operandRead_bind (.place dst) size fun y _ => ?_
      exact ends_bind.2 (ends_get.2 (ends_writeStatus dst rfl))
  | _ => cases h

/-! ### Operations that compute condition codes -/

/-- A status word that agrees with the old one outside some codes is written last. -/
theorem ends_writeCodes {mask : UInt16} {sr : Status} (p : Place) (size : Size) (value : UInt32)
    (hsr : Status.SameOutside mask m.registers.sr sr) :
    Ends (p.write size value >>= fun _ => setStatusWord sr) m
      (fun _ m' => Status.SameOutside mask m.registers.sr m'.registers.sr) fun _ _ => True :=
  ends_bind.2 ((ends_placeWrite p size value).mono_ok fun _ _ _ => hsr)

/-- A negation changes the condition codes only. -/
theorem ends_negate (size : Size) (dst : Place) (m : Machine) :
    Ends (Operation.negate size dst).effect m
      (fun _ m' => Status.SameOutside Status.conditionCodes m.registers.sr m'.registers.sr)
      fun _ _ => True := by
  refine ends_operandRead_bind (.place dst) size fun value _ => ?_
  exact ends_bind.2 (ends_get.2 (ends_writeCodes dst size _ (Status.sameOutside_arithmetic ..)))

/-- A sum or difference changes the condition codes only. -/
theorem ends_arith (op : Arith) (size : Size) (src : Operand) (dst : Place) (m : Machine) :
    Ends (Operation.binary (.arith op) size src dst).effect m
      (fun _ m' => Status.SameOutside Status.conditionCodes m.registers.sr m'.registers.sr)
      fun _ _ => True := by
  refine ends_operandRead_bind src size fun x _ => ?_
  refine ends_operandRead_bind (.place dst) size fun y _ => ?_
  refine ends_bind.2 (ends_get.2 (ends_writeCodes dst size _ ?_))
  cases op <;> exact Status.sameOutside_arithmetic ..

/-- A comparison keeps extend. -/
theorem ends_compare (size : Size) (src dst : Operand) (m : Machine) :
    Ends (Operation.compare size src dst).effect m
      (fun _ m' => Status.SameOutside Status.comparisonCodes m.registers.sr m'.registers.sr)
      fun _ _ => True :=
  ends_operandRead_bind src size fun _ _ => ends_operandRead_bind dst size fun _ _ =>
    Status.sameOutside_compareStatus ..

/-- A comparison with an address register keeps extend. -/
theorem ends_compareAddress (size : Size) (src : Operand) (n : Fin 8) (m : Machine) :
    Ends (Operation.compareAddress size src n).effect m
      (fun _ m' => Status.SameOutside Status.comparisonCodes m.registers.sr m'.registers.sr)
      fun _ _ => True :=
  ends_operandRead_bind src size fun _ _ => Status.sameOutside_compareStatus ..

/-! ### Instructions -/

/-- What an operation does to the status word follows from the class of its instruction. -/
theorem Instruction.Gives.relates (h : i.Gives op) (m : Machine) :
    Ends op.effect m (fun _ m' => i.statusEffect.Relates op m.registers.sr m') fun _ _ => True := by
  have hshown {size : Size} {o : Operand} (hshown : op.shown? = some (size, o)) :
      Ends op.effect m (fun _ m' => StatusEffect.shown.Relates op m.registers.sr m')
        fun _ _ => True :=
    (ends_shown hshown).mono_ok fun _ _ h => ⟨size, o, hshown, h⟩
  cases heffect : i.statusEffect with
  | kept => exact h.keeps_status heffect
  | codes => exact h.keeps_systemByte (by rw [heffect]; decide)
  | replaced => exact ends_true
  | shown =>
    cases h with
    | moveQuick | swap | move | clear | complement | test => exact hshown rfl
    | extend kind => cases kind <;> exact hshown rfl
    | toRegister op | fromRegister op | immediate op =>
      cases op with
      | arith => cases heffect
      | logic => exact hshown rfl
    | quick op size value h hdata =>
      rw [Instruction.statusEffect_quick hdata] at heffect
      cases heffect
    | _ => cases heffect
  | compared =>
    cases h with
    | compare | compareImmediate => exact ends_compare _ _ _ m
    | compareAddress => exact ends_compareAddress _ _ _ m
    | toRegister op | fromRegister op | immediate op => cases op <;> cases heffect
    | quick op size value h hdata =>
      rw [Instruction.statusEffect_quick hdata] at heffect
      cases heffect
    | _ => cases heffect
  | computed =>
    cases h with
    | negate => exact ends_negate _ _ m
    | quick => exact ends_arith _ _ _ _ m
    | toRegister op | fromRegister op | immediate op =>
      cases op with
      | arith => exact ends_arith _ _ _ _ m
      | logic => cases heffect
    | _ => cases heffect

/-- Resolving leaves the status word alone. -/
theorem ends_resolve_status (i : Instruction) (m : Machine) :
    Ends i.resolve m (fun _ m' => m'.registers.sr = m.registers.sr) fun _ _ => True := by
  refine (resolves_instruction i).mono_ok fun _ m' h => ?_
  rw [h]
  exact (retains_movedBy _ _ _).sr

namespace Machine

/-- A step without a fault completes an instruction and does to the status word what the
class of the instruction says. The high byte changes only where the class replaces the
whole word. -/
theorem status_effect (m : Machine) (hstate : m.state = .normal) (hfault : m.fault? = none) :
    ∃ opcode i op m₁, m.Completes opcode i op m₁ m.step.val ∧
      i.statusEffect.Relates op m.registers.sr m.step.val ∧
      (m.step.val.registers.sr.systemByte ≠ m.registers.sr.systemByte →
        i.statusEffect = .replaced) := by
  obtain ⟨opcode, i, op, m₁, hcompletes⟩ := step_completes hstate hfault
  have hgives := (yields_instruction i _).of_ok hcompletes.resolves
  have hsame : m₁.registers.sr = m.registers.sr :=
    (ends_resolve_status i (m.fetched opcode)).of_ok hcompletes.resolves
  refine ⟨opcode, i, op, m₁, hcompletes, ?_, fun hsystem => ?_⟩
  · rw [← hsame]
    exact (hgives.relates m₁).of_ok hcompletes.performs
  · refine Decidable.byContradiction fun heffect => hsystem ?_
    rw [← hsame]
    exact (hgives.keeps_systemByte heffect).of_ok hcompletes.performs

/-- A machine at a `MOVEQ #-1,D0`, with extend, overflow and carry set. -/
def showing : Machine :=
  { Machine.initial .mc68000 .halt (.flat ⟨.general, ⟨#[0x70, 0xFF]⟩⟩) with
    registers := { RegisterFile.initial with sr := ⟨0x2713⟩ }
    state := .normal }

/-- A `MOVEQ` of a negative number sets the sign bit, clears overflow and carry, and keeps
extend. -/
theorem status_effect_showing :
    showing.state = .normal ∧ showing.fault? = none ∧
      (∃ opcode i op m₁, showing.Completes opcode i op m₁ showing.step.val ∧
        i.statusEffect.Relates op showing.registers.sr showing.step.val) ∧
      showing.step.val.registers.sr = ⟨0x2718⟩ := by
  have hfault : showing.fault? = none := by decide +kernel
  obtain ⟨opcode, i, op, m₁, hcompletes, hrelates, -⟩ := status_effect showing rfl hfault
  exact ⟨rfl, hfault, ⟨opcode, i, op, m₁, hcompletes, hrelates⟩, by decide +kernel⟩

end Machine

end Cpu68k
