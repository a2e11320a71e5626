import Cpu68k.Arithmetic
import Cpu68k.Operation.Effect

/-!
# Laws of the register file

The eighth address register is one of the two stack pointers, so a write to an
address register leaves everything but the address registers and the active
stack pointer alone. The arithmetic of condition codes leaves the high byte of
the status word alone, which holds the supervisor bit.
-/

namespace Cpu68k

/-- Words are equal if all their bits are. -/
theorem word_ext {a b : UInt16} (h : ∀ i < 16, a.toBitVec.getLsbD i = b.toBitVec.getLsbD i) :
    a = b :=
  UInt16.toBitVec_inj.1 (BitVec.eq_of_getLsbD_eq h)

/-- Bits that are outside a mask do not show under it. -/
theorem or_and_of_disjoint {a mask low : UInt16} (h : low &&& mask = 0) :
    (a ||| low) &&& mask = a &&& mask := by
  refine word_ext fun i hi => ?_
  have hbit := congrArg (fun w : UInt16 => w.toBitVec.getLsbD i) h
  simp only [UInt16.toBitVec_and, UInt16.toBitVec_or, BitVec.getLsbD_and, BitVec.getLsbD_or,
    UInt16.toBitVec_zero, BitVec.getLsbD_zero] at hbit ⊢
  grind

/-- Clearing bits that are outside a mask does not show under it. -/
theorem and_not_and_of_disjoint {a mask low : UInt16} (h : low &&& mask = 0) :
    a &&& ~~~low &&& mask = a &&& mask := by
  refine word_ext fun i hi => ?_
  have hbit := congrArg (fun w : UInt16 => w.toBitVec.getLsbD i) h
  simp only [UInt16.toBitVec_and, UInt16.toBitVec_not, BitVec.getLsbD_and, BitVec.getLsbD_not,
    UInt16.toBitVec_zero, BitVec.getLsbD_zero] at hbit ⊢
  grind

/-- Some bits of a word add nothing to the word. -/
theorem and_or_self (a b : UInt16) : a &&& b ||| a = a := by
  refine word_ext fun i hi => ?_
  simp only [UInt16.toBitVec_and, UInt16.toBitVec_or, BitVec.getLsbD_and, BitVec.getLsbD_or]
  grind

/-- A mask that covers a word keeps all of it. -/
theorem and_eq_self_of_covered {a mask : UInt16} (h : a &&& ~~~mask = 0) : a &&& mask = a := by
  refine word_ext fun i hi => ?_
  have hbit := congrArg (fun w : UInt16 => w.toBitVec.getLsbD i) h
  simp only [UInt16.toBitVec_and, UInt16.toBitVec_not, BitVec.getLsbD_and, BitVec.getLsbD_not,
    UInt16.toBitVec_zero, BitVec.getLsbD_zero] at hbit ⊢
  grind

namespace Status

/-- The bits of the high byte, which belongs to the supervisor. -/
def systemByte (sr : Status) : UInt16 :=
  sr.bits &&& 0xFF00

/-- A status word with other condition codes: the high byte is the same, and no bit
above the condition codes is new. -/
structure Recoded (sr sr' : Status) : Prop where
  /-- The high byte is the same. -/
  system : sr'.systemByte = sr.systemByte
  /-- Every bit was there before or is a condition code. -/
  bits : sr'.bits ||| (sr.bits ||| conditionCodes) = sr.bits ||| conditionCodes

/-- The supervisor bit is in the high byte. -/
theorem has_supervisor_of_systemByte {sr sr' : Status} (h : sr'.systemByte = sr.systemByte) :
    sr'.has supervisor = sr.has supervisor := by
  have hsub (s : Status) : s.bits &&& supervisor = s.systemByte &&& supervisor := by
    rw [systemByte, UInt16.and_assoc]
    rfl
  rw [has, has, hsub sr', hsub sr, h]

/-- Condition codes may be replaced twice. -/
theorem Recoded.trans {a b c : Status} (hab : a.Recoded b) (hbc : b.Recoded c) :
    a.Recoded c := by
  refine ⟨hbc.system.trans hab.system, ?_⟩
  calc c.bits ||| (a.bits ||| conditionCodes)
      = (c.bits ||| (b.bits ||| conditionCodes)) ||| (a.bits ||| conditionCodes) := by
        rw [← hab.bits]
        ac_nf
    _ = b.bits ||| (a.bits ||| conditionCodes) := by
        rw [hbc.bits]
        ac_nf
    _ = a.bits ||| conditionCodes := hab.bits

/-- Setting or clearing condition codes recodes the status. -/
theorem recoded_assign (sr : Status) {mask : UInt16} (hsystem : mask &&& 0xFF00 = 0)
    (hmask : mask ||| conditionCodes = conditionCodes) (on : Bool) :
    sr.Recoded (sr.assign mask on) := by
  cases on with
  | true =>
    refine ⟨or_and_of_disjoint hsystem, ?_⟩
    change sr.bits ||| mask ||| (sr.bits ||| conditionCodes) = _
    conv => rhs; rw [← hmask]
    ac_nf
  | false =>
    refine ⟨and_not_and_of_disjoint hsystem, ?_⟩
    change sr.bits &&& ~~~mask ||| (sr.bits ||| conditionCodes) = _
    rw [← UInt16.or_assoc, and_or_self]

/-- Showing a sign replaces condition codes only. -/
theorem recoded_signAndZero (sr : Status) (value : UInt32) (size : Size) :
    sr.Recoded (sr.signAndZero value size) :=
  (recoded_assign sr (by decide) (by decide) _).trans
    (recoded_assign _ (by decide) (by decide) _)

/-- A logical result replaces condition codes only. -/
theorem recoded_logical (sr : Status) (value : UInt32) (size : Size) :
    sr.Recoded (sr.logical value size) :=
  (recoded_signAndZero sr value size).trans
    (@recoded_assign _ (overflow ||| carry) (by decide) (by decide) false)

/-- An arithmetic result replaces condition codes only. -/
theorem recoded_arithmetic (sr : Status) (size : Size) (result : UInt32)
    (carries overflows : Bool) : sr.Recoded (sr.arithmetic size result carries overflows) :=
  (((recoded_signAndZero sr result size).trans
    (recoded_assign _ (by decide) (by decide) _)).trans
    (recoded_assign _ (by decide) (by decide) _)).trans
    (recoded_assign _ (by decide) (by decide) _)

/-- A comparison replaces condition codes only. -/
theorem recoded_compareStatus (src dst : UInt32) (size : Size) (sr : Status) :
    sr.Recoded (compareStatus src dst size sr) :=
  (recoded_arithmetic sr size _ _ _).trans (recoded_assign _ (by decide) (by decide) _)

/-- An operation on two operands replaces condition codes only. -/
theorem recoded_apply (op : Binary) (src dst : UInt32) (size : Size) (sr : Status) :
    sr.Recoded (op.apply src dst size sr).2 := by
  cases op with
  | arith op => cases op <;> exact recoded_arithmetic sr size _ _ _
  | logic op => exact recoded_logical sr _ size

end Status

namespace RegisterFile

variable (r : RegisterFile) (n : Fin 8) (value : UInt32)

/-- Replacing the condition codes recodes the status. -/
theorem recoded_setCcr (codes : UInt8) : r.sr.Recoded (r.setCcr codes).sr := by
  have hsystem : (codes &&& 0x1F).toUInt16 &&& 0xFF00 = 0 := by
    rw [UInt8.toUInt16_and, UInt16.and_assoc]
    exact UInt16.and_zero
  have hcodes : (codes &&& 0x1F).toUInt16 ||| Status.conditionCodes = Status.conditionCodes := by
    rw [UInt8.toUInt16_and, UInt16.and_comm]
    exact and_or_self _ _
  constructor
  · change (r.sr.bits &&& 0xFF00 ||| _) &&& 0xFF00 = _
    rw [or_and_of_disjoint hsystem, UInt16.and_assoc]
    rfl
  · change r.sr.bits &&& 0xFF00 ||| (codes &&& 0x1F).toUInt16 ||| _ = _
    calc r.sr.bits &&& 0xFF00 ||| (codes &&& 0x1F).toUInt16 |||
          (r.sr.bits ||| Status.conditionCodes)
        = (r.sr.bits &&& 0xFF00 ||| r.sr.bits) |||
          ((codes &&& 0x1F).toUInt16 ||| Status.conditionCodes) := by ac_rfl
      _ = r.sr.bits ||| Status.conditionCodes := by rw [and_or_self, hcodes]

/-- The mode depends on the high byte of the status word. -/
theorem isSupervisor_of_systemByte {r r' : RegisterFile}
    (h : r'.sr.systemByte = r.sr.systemByte) : r'.isSupervisor = r.isSupervisor :=
  Status.has_supervisor_of_systemByte h

/-- The active stack pointer is the last address register. -/
theorem setActiveSp_eq : r.setActiveSp value = r.setAddrReg 7 value := by
  rw [setAddrReg, dif_neg (by decide)]

/-- The data register that was set has the new value. -/
theorem dataReg_setDataReg : (r.setDataReg n value).dataReg n = value :=
  Vector.getElem_set_self n.isLt

/-- The other data registers are the same. -/
theorem dataReg_setDataReg_of_ne {k : Fin 8} (h : k ≠ n) :
    (r.setDataReg n value).dataReg k = r.dataReg k :=
  Vector.getElem_set_ne n.isLt k.isLt fun heq => h (Fin.ext heq.symm)

/-- A write to an address register changes address registers and the active stack
pointer only. -/
theorem setAddrReg_eq : ∃ addr usp ssp, r.setAddrReg n value =
    { r with addr := addr, usp := usp, ssp := ssp } ∧
    (r.isSupervisor = false → ssp = r.ssp) ∧ (r.isSupervisor = true → usp = r.usp) := by
  unfold setAddrReg setActiveSp
  split
  · exact ⟨_, _, _, rfl, fun _ => rfl, fun _ => rfl⟩
  split
  next h => exact ⟨_, _, _, rfl, fun hu => by simp [hu] at h, fun _ => rfl⟩
  next h => exact ⟨_, _, _, rfl, fun _ => rfl, fun hs => absurd hs h⟩

/-- Setting an address register keeps the status word. -/
@[simp]
theorem sr_setAddrReg : (r.setAddrReg n value).sr = r.sr := by
  obtain ⟨_, _, _, h, -⟩ := r.setAddrReg_eq n value
  rw [h]

/-- Setting an address register keeps the program counter. -/
@[simp]
theorem pc_setAddrReg : (r.setAddrReg n value).pc = r.pc := by
  obtain ⟨_, _, _, h, -⟩ := r.setAddrReg_eq n value
  rw [h]

/-- Address registers do not depend on the program counter. -/
theorem setAddrReg_withPc (r : RegisterFile) (n : Fin 8) (value pc : UInt32) :
    ({ r with pc := pc } : RegisterFile).setAddrReg n value =
      { r.setAddrReg n value with pc := pc } := by
  unfold setAddrReg setActiveSp
  split
  · rfl
  · change (if r.isSupervisor then _ else _) = _
    split <;> rfl

/-- Setting an address register keeps the mode. -/
@[simp]
theorem isSupervisor_setAddrReg : (r.setAddrReg n value).isSupervisor = r.isSupervisor := by
  simp [isSupervisor]

/-- The address register that was set has the new value. -/
theorem addrReg_setAddrReg : (r.setAddrReg n value).addrReg n = value := by
  by_cases hn : n.val < 7
  · rw [setAddrReg, dif_pos hn, addrReg, dif_pos hn]
    exact Vector.getElem_set_self hn
  · rw [setAddrReg, dif_neg hn, addrReg, dif_neg hn, setActiveSp]
    by_cases hmode : r.isSupervisor = true
    · rw [if_pos hmode]
      exact if_pos hmode
    · rw [if_neg hmode]
      exact if_neg hmode

/-- Setting the stack pointer keeps the mode. -/
theorem isSupervisor_setActiveSp : (r.setActiveSp value).isSupervisor = r.isSupervisor := by
  rw [setActiveSp_eq, isSupervisor_setAddrReg]

/-- The stack pointer that was set is the active one. -/
theorem activeSp_setActiveSp : (r.setActiveSp value).activeSp = value := by
  have h := r.addrReg_setAddrReg 7 value
  rwa [← setActiveSp_eq, addrReg, dif_neg (by decide)] at h

/-- The other address registers are the same. -/
theorem addrReg_setAddrReg_of_ne {k : Fin 8} (h : k ≠ n) :
    (r.setAddrReg n value).addrReg k = r.addrReg k := by
  have hval : n.val ≠ k.val := fun heq => h (Fin.ext heq.symm)
  by_cases hk : k.val < 7
  · rw [addrReg, dif_pos hk, addrReg, dif_pos hk]
    by_cases hn : n.val < 7
    · rw [setAddrReg, dif_pos hn]
      exact Vector.getElem_set_ne hn hk hval
    · rw [setAddrReg, dif_neg hn, setActiveSp]
      split <;> rfl
  · have hn : n.val < 7 := by omega
    rw [setAddrReg, dif_pos hn, addrReg, dif_neg hk, addrReg, dif_neg hk]
    rfl

/-- Of two values written to an address register the second stays. -/
theorem setAddrReg_setAddrReg (value' : UInt32) :
    (r.setAddrReg n value).setAddrReg n value' = r.setAddrReg n value' := by
  by_cases hn : n.val < 7
  · simp only [setAddrReg, dif_pos hn, Vector.set_set]
  · simp only [setAddrReg, dif_neg hn, setActiveSp]
    by_cases hmode : r.isSupervisor = true
    · simp only [if_pos hmode]
      exact if_pos hmode
    · simp only [if_neg hmode]
      exact if_neg hmode

/-- Writing back what an address register holds changes nothing. -/
theorem setAddrReg_addrReg : r.setAddrReg n (r.addrReg n) = r := by
  by_cases hn : n.val < 7
  · simp only [setAddrReg, addrReg, dif_pos hn, Vector.set_getElem_self]
  · simp only [setAddrReg, addrReg, dif_neg hn, setActiveSp, activeSp]
    split <;> rfl

/-- Of two stack pointers the later one stays. -/
theorem setActiveSp_setActiveSp (sp sp' : UInt32) :
    (r.setActiveSp sp).setActiveSp sp' = r.setActiveSp sp' := by
  rw [setActiveSp_eq, setActiveSp_eq, setActiveSp_eq, setAddrReg_setAddrReg]

/-- Setting the stack pointer to itself changes nothing. -/
theorem setActiveSp_activeSp : r.setActiveSp r.activeSp = r := by
  have h := r.setAddrReg_addrReg 7
  rwa [← setActiveSp_eq, addrReg, dif_neg (by decide)] at h

/-- The eighth address register is written apart from the others. -/
theorem setActiveSp_setAddrReg (hn : n.val < 7) (sp : UInt32) :
    (r.setAddrReg n value).setActiveSp sp = (r.setActiveSp sp).setAddrReg n value := by
  simp only [setAddrReg, dif_pos hn, setActiveSp]
  by_cases hmode : r.isSupervisor = true
  · rw [if_pos hmode]
    exact if_pos hmode
  · rw [if_neg hmode]
    exact if_neg hmode

/-! ### Registers that stay -/

/-- The stack pointer of the other mode. -/
def inactiveSp (r : RegisterFile) : UInt32 :=
  if r.isSupervisor then r.usp else r.ssp

/-- Only the program counter and the address registers, with the active stack pointer,
differ. -/
structure Retains (r r' : RegisterFile) : Prop where
  /-- The status word is the same. -/
  sr : r'.sr = r.sr
  /-- The data registers are the same. -/
  data : r'.data = r.data
  /-- The stack pointer of the other mode is the same. -/
  inactiveSp : r'.inactiveSp = r.inactiveSp
  /-- The vector base register is the same. -/
  vbr : r'.vbr = r.vbr
  /-- The source function code is the same. -/
  sfc : r'.sfc = r.sfc
  /-- The destination function code is the same. -/
  dfc : r'.dfc = r.dfc
  /-- The cache control register is the same. -/
  cacr : r'.cacr = r.cacr

variable {r} {r' r'' : RegisterFile}

/-- The registers retain themselves. -/
theorem Retains.refl (r : RegisterFile) : r.Retains r :=
  ⟨rfl, rfl, rfl, rfl, rfl, rfl, rfl⟩

/-- What is retained twice is retained. -/
theorem Retains.trans (h : r.Retains r') (h' : r'.Retains r'') : r.Retains r'' :=
  ⟨h'.sr.trans h.sr, h'.data.trans h.data, h'.inactiveSp.trans h.inactiveSp, h'.vbr.trans h.vbr,
    h'.sfc.trans h.sfc, h'.dfc.trans h.dfc, h'.cacr.trans h.cacr⟩

/-- Moving the program counter retains the other registers. -/
theorem Retains.withPc (h : r.Retains r') (pc : UInt32) : r.Retains { r' with pc := pc } :=
  ⟨h.sr, h.data, h.inactiveSp, h.vbr, h.sfc, h.dfc, h.cacr⟩

/-- The mode of the status word decides which stack pointer is an address register. -/
theorem retains_setAddrReg (r : RegisterFile) (n : Fin 8) (value : UInt32) :
    r.Retains (r.setAddrReg n value) := by
  obtain ⟨addr, usp, ssp, heq, huser, hsupervisor⟩ := r.setAddrReg_eq n value
  refine ⟨r.sr_setAddrReg n value, ?_, ?_, ?_, ?_, ?_, ?_⟩
  · rw [heq]
  · rw [inactiveSp, inactiveSp, isSupervisor_setAddrReg, heq]
    cases hmode : r.isSupervisor with
    | true => exact hsupervisor hmode
    | false => exact huser hmode
  all_goals rw [heq]

end RegisterFile

end Cpu68k
