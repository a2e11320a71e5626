import Cpu68k.Proofs.SlotAccess

/-!
# Running operations from their listings

For an instruction that an opcode stands for every check of its microcode succeeds,
and what the microcode then does with the slots is the operation.
-/

namespace Cpu68k

/-! ### Values -/

/-- Bits above the size do not count. -/
theorem signExtend_and_mask (size : Size) (value : UInt32) :
    size.signExtend (value &&& size.mask) = size.signExtend value := by
  unfold Size.signExtend
  rw [UInt32.and_assoc, UInt32.and_self]

/-- Sign extension keeps the bits of the size. -/
theorem and_mask_signExtend (size : Size) (value : UInt32) :
    size.signExtend value &&& size.mask = value &&& size.mask := by
  unfold Size.signExtend
  dsimp only
  split
  · rw [UInt32.and_assoc, UInt32.and_self]
  · refine UInt32.toBitVec_inj.1 (BitVec.eq_of_getLsbD_eq fun i hi => ?_)
    simp only [UInt32.toBitVec_and, UInt32.toBitVec_or, UInt32.toBitVec_not, BitVec.getLsbD_and,
      BitVec.getLsbD_or, BitVec.getLsbD_not]
    grind

/-- A test is read back from the slot that holds its code. -/
theorem ofCode_code (test : Test) : Test.ofCode test.code.toUInt32.toUInt16 = test := by
  cases test <;> rfl

/-- Only the low word counts where a word is decreased. -/
theorem decrement_word (value : UInt32) :
    (value &&& Size.word.mask) - 1 &&& 0xFFFF = value - 1 &&& 0xFFFF := by
  have hlow (v : UInt32) : (v &&& 0xFFFF).toNat = v.toNat % 2 ^ 16 := by
    rw [UInt32.toNat_and]
    exact Nat.and_two_pow_sub_one_eq_mod _ 16
  have hone : (1 : UInt32).toNat = 1 := rfl
  refine UInt32.toNat_inj.1 ?_
  change (((value &&& 0xFFFF) - 1) &&& 0xFFFF).toNat = _
  rw [hlow, hlow, UInt32.toNat_sub, UInt32.toNat_sub, hlow, hone]
  omega

/-- The stack pointer may be set before the register of a stack frame. -/
theorem RegisterFile.setActiveSp_set_setActiveSp (r : RegisterFile) (n : Fin 8) (sp sp' : UInt32) :
    ((r.setActiveSp sp).setAddrReg n sp).setActiveSp sp' =
      (r.setAddrReg n sp).setActiveSp sp' := by
  unfold setAddrReg
  by_cases hmode : r.sr.has Status.supervisor = true
  · by_cases hn : n.val < 7 <;> simp [setActiveSp, isSupervisor, hn, hmode]
  · by_cases hn : n.val < 7 <;> simp [setActiveSp, isSupervisor, hn, hmode]

/-! ### Microcode -/

namespace Microcode

variable {size : Size} {src dst : Operand} {p : Place}

/-- The slots of an operation on two operands pass if its destination is not an address register.
-/
theorem run?_binary (op : Binary) (hsrc : src.Suits size) (hdst : p.Suits size)
    (hdata : (Slot.ofPlace p).isAddrReg = false) :
    run? op.microcode (Operation.binary op size src p).slots =
      some (Operation.binary op size src p).effect := by
  have hrun : runBinary? op (Operation.binary op size src p).slots =
      some (Operation.binary op size src p).effect :=
    (Slot.bind_reader hsrc _).trans (Slot.bind_access hdst _)
  cases op with
  | arith op =>
    refine Eq.trans ?_ hrun
    exact if_neg (by rw [Bool.not_eq_true]; exact hdata)
  | logic op => exact hrun

/-- The slots of an operation on an address register pass. -/
theorem runOnAddress?_arithAddress (op : Arith) (n : Fin 8) (hsrc : src.Suits size) :
    runOnAddress? op (Operation.arithAddress op size src n).slots =
      some (Operation.arithAddress op size src n).effect :=
  (Slot.bind_reader hsrc _).trans (Slot.bind_register (.addr n) _)

/-- The slots of an extension pass. -/
theorem run?_extend (kind : Extension) (n : Fin 8) :
    run? (.extend kind) (Operation.extend kind n).slots =
      some (Operation.extend kind n).effect := by
  refine (@Slot.bind_reader _ kind.source (.place (.dataReg n)) trivial _).trans
    ((@Slot.bind_writer _ kind.result (.dataReg n) trivial _).trans ?_)
  have hread : (Operand.place (.dataReg n)).read kind.source =
      do return (← get).registers.dataReg n &&& kind.source.mask := rfl
  rw [hread]
  simp only [bind_assoc, pure_bind, signExtend_and_mask]
  cases kind <;> rfl

/-- The slot of a swap passes. -/
theorem run?_swap (n : Fin 8) :
    run? .swap (Operation.swap n).slots = some (Operation.swap n).effect := by
  refine (Slot.bind_register (.data n) _).trans ?_
  rw [Slot.writeRegister_data]
  rfl

/-- The slots of a move from a control register pass, whether or not the chip has it. -/
theorem run?_moveFromControl (code : UInt16) (x : Register) :
    run? .moveFromControl (Operation.moveFromControl code x).slots =
      some (Operation.moveFromControl code x).effect := by
  refine (Slot.bind_writeRegister x _).trans ?_
  rw [UInt16.toUInt16_toUInt32]
  rfl

/-- The register may be read before the control register is looked up. -/
theorem run?_moveToControl (code : UInt16) (x : Register) :
    run? .moveToControl (Operation.moveToControl code x).slots =
      some (Operation.moveToControl code x).effect := by
  refine (Slot.bind_readRegister x _).trans (congrArg some (funext fun m => ?_))
  rw [UInt16.toUInt16_toUInt32]
  change EStateM.bind (controlRegister code)
      (fun c => modifyRegisters fun r => c.write r (m.registers.get x)) m =
    EStateM.bind (controlRegister code) (fun c => modifyRegisters fun r => c.write r (r.get x)) m
  unfold EStateM.bind
  rw [controlRegister_eq]
  cases ControlRegister.ofCode? m.chip code <;> rfl

/-- The slots of an exchange pass. -/
theorem run?_exchange (x y : Register) :
    run? .exchange (Operation.exchange x y).slots = some (Operation.exchange x y).effect := by
  change (do
    let x ← (Slot.ofRegister x).register?
    let y ← (Slot.ofRegister y).register?
    some (modifyRegisters fun r => (r.set x (r.get y)).set y (r.get x))) = _
  rw [Slot.register?_ofRegister, Slot.register?_ofRegister]
  rfl

/-- The slots of a branch pass. -/
theorem run?_branch (test : Test) (target : UInt32) :
    run? .branch (Operation.branch test target).slots =
      some (Operation.branch test target).effect := by
  have hrun : run? .branch (Operation.branch test target).slots =
      some (Operation.branch (Test.ofCode test.code.toUInt32.toUInt16) target).effect := rfl
  rw [hrun, ofCode_code]

/-- The slots of `Scc` pass if the destination is one for bytes. -/
theorem run?_setOnTest (test : Test) (hdst : p.Suits .byte) :
    run? .setOnTest (Operation.setOnTest test p).slots =
      some (Operation.setOnTest test p).effect := by
  have hrun : run? .setOnTest (Operation.setOnTest test p).slots =
      some (Operation.setOnTest (Test.ofCode test.code.toUInt32.toUInt16) p).effect :=
    Slot.bind_writer hdst _
  rw [hrun, ofCode_code]

/-- The rest of a decrementing branch, from the value of its register. -/
def countDown (n : Fin 8) (target value : UInt32) : Exec Unit := do
  (Place.dataReg n).write .word (value - 1 &&& 0xFFFF)
  if value - 1 &&& 0xFFFF ≠ 0xFFFF then setPc target

/-- A decrementing branch reads its register as a word. -/
theorem countDown_and_mask (n : Fin 8) (target value : UInt32) :
    countDown n target (value &&& Size.word.mask) = countDown n target value := by
  unfold countDown
  rw [decrement_word]

/-- The slots of a decrementing branch pass. -/
theorem run?_decrementBranch (test : Test) (n : Fin 8) (target : UInt32) :
    run? .decrementBranch (Operation.decrementBranch test n target).slots =
      some (Operation.decrementBranch test n target).effect := by
  refine (@Slot.bind_access _ .word (.dataReg n) trivial _).trans
    (congrArg some (funext fun m => ?_))
  simp only [ofCode_code]
  change (if (!test.holds m.registers.sr) = true then
      (do countDown n target (← (Place.dataReg n).read .word)) else pure ()) m =
    (if (!test.holds m.registers.sr) = true then
      countDown n target (m.registers.dataReg n) else pure ()) m
  split
  -- The register is read as a word, and what is counted down is the whole of it.
  · change countDown n target (m.registers.dataReg n &&& Size.word.mask) m = _
    rw [countDown_and_mask]
  · rfl

/-- The rest of a stack frame's making, from the value of its register. -/
def saveFrame (n : Fin 8) (distance sp value : UInt32) : Exec Unit := do
  writeData sp .long value
  modifyRegisters fun r => (r.setAddrReg n sp).setActiveSp (sp + distance)

/-- The slots of a link pass. -/
theorem run?_link (n : Fin 8) (distance : UInt32) :
    run? .link (Operation.link n distance).slots = some (Operation.link n distance).effect := by
  refine (Slot.bind_register (.addr n) _).trans (congrArg some (funext fun m => ?_))
  have hslot : (Operation.link n distance).slots.slot 0 = .addrReg 7 ↔ n.val = 7 := by
    change Slot.addrReg n.val.toUInt8 = .addrReg 7 ↔ n.val = 7
    revert n
    decide
  have hsave (sp : UInt32) : (do
      modifyRegisters fun r => r.setActiveSp sp
      Slot.writeRegister (.addr n) sp
      modifyRegisters fun r => r.setActiveSp (sp + distance)) =
      modifyRegisters fun r => (r.setAddrReg n sp).setActiveSp (sp + distance) := by
    funext m
    exact congrArg (fun r => EStateM.Result.ok () { m with registers := r })
      (m.registers.setActiveSp_set_setActiveSp n sp _)
  simp only [hsave, hslot]
  -- The stack pointer as a frame register is saved as it is after the push.
  change (if n.val = 7 then saveFrame n distance (m.registers.activeSp - 4)
      (m.registers.activeSp - 4)
    else do saveFrame n distance (m.registers.activeSp - 4) (← Slot.readRegister (.addr n))) m =
    saveFrame n distance (m.registers.activeSp - 4)
      (if n.val = 7 then m.registers.activeSp - 4 else m.registers.addrReg n) m
  split
  · rfl
  · rfl

/-- The slot of `RTD` passes, with its distance extended to a long. -/
theorem run?_rtd (value : UInt32) :
    run? .rtd (Instruction.rtd.listing (.rtd (Size.word.signExtend value))) =
      some (Operation.rtd (Size.word.signExtend value)).effect := by
  have hdistance : Size.word.signExtend (Size.word.signExtend value &&& 0xFFFF) =
      Size.word.signExtend value := by
    change Size.word.signExtend (Size.word.signExtend value &&& Size.word.mask) = _
    rw [and_mask_signExtend, signExtend_and_mask]
  change some _ = some _
  rw [hdistance]
  rfl

end Microcode

/-! ### Instructions -/

/-- The microcode of an instruction that an opcode stands for performs its operation. -/
theorem Instruction.Gives.run?_listing {i : Instruction} {op : Operation} {opcode : UInt16}
    (hgives : i.Gives op) (h : i.IsEncoded opcode) :
    i.microcode.run? (i.listing op) = some op.effect := by
  -- Checks of sizes and numbers reduce away. What the opcode promises is needed for the
  -- operands of modes, which may be address registers.
  cases hgives with
  | nop => rfl
  | illegal => rfl
  | reset => rfl
  | trapV => rfl
  | rte => rfl
  | rts => rfl
  | rtr => rfl
  | rtd value => exact Microcode.run?_rtd value
  | stop sr =>
    change some _ = some _
    rw [UInt16.toUInt16_toUInt32]
    rfl
  | trap n =>
    change some _ = some _
    rw [UInt32.toUInt8_ofNat']
    rfl
  | breakpoint n =>
    change some _ = some _
    rw [UInt32.toUInt8_ofNat']
    rfl
  | moveQuick value dst => exact @Slot.bind_writer _ .long (.dataReg dst) trivial _
  | exchange x y => exact Microcode.run?_exchange x y
  | swap n => exact Microcode.run?_swap n
  | extend kind n => exact Microcode.run?_extend kind n
  | link n distance => exact Microcode.run?_link n distance
  | linkLong n distance => exact Microcode.run?_link n distance
  | unlink n => exact Slot.bind_register (.addr n) _
  | moveToUsp n => exact Slot.bind_readRegister (.addr n) _
  | moveFromUsp n => exact Slot.bind_writeRegister (.addr n) _
  | movepToMemory size data n addr => exact Slot.bind_readRegister (.data data) _
  | movepFromMemory size data n addr => exact @Slot.bind_writer _ size (.dataReg data) trivial _
  | branch test distance target => exact Microcode.run?_branch test target
  | branchSubroutine distance target => rfl
  | decrementBranch test n target => exact Microcode.run?_decrementBranch test n target
  | setOnTest test hdst => exact Microcode.run?_setOnTest test (hdst.suits_of_isData h)
  | jump c target => rfl
  | jumpSubroutine c target => rfl
  | loadAddress c n addr => exact Slot.bind_writeRegister (.addr n) _
  | pushAddress c addr => rfl
  | move size hsrc hdst =>
    exact (Slot.bind_reader (hsrc.suits h.1) _).trans
      (Slot.bind_writer (hdst.suits_of_isData h.2) _)
  | moveAddress size n hsrc =>
    exact (Slot.bind_reader (hsrc.suits h) _).trans (Slot.bind_writeRegister (.addr n) _)
  | clear size hdst => exact Slot.bind_writer (hdst.suits_of_isData h) _
  | negate size hdst => exact Slot.bind_access (hdst.suits_of_isData h) _
  | complement size hdst => exact Slot.bind_access (hdst.suits_of_isData h) _
  | test size hsrc => exact Slot.bind_reader (hsrc.suits h) _
  | moveFromSr hdst => exact Slot.bind_writer (Place.suits_of_ne_byte (by decide)) _
  | moveFromCcr hdst => exact Slot.bind_writer (Place.suits_of_ne_byte (by decide)) _
  | moveToCcr hsrc => exact Slot.bind_reader (Operand.suits_of_ne_byte (by decide)) _
  | moveToSr hsrc => exact Slot.bind_reader (Operand.suits_of_ne_byte (by decide)) _
  | logicToCcr op value =>
    change some _ = some _
    rw [UInt16.toUInt16_toUInt32]
    rfl
  | logicToSr op value =>
    change some _ = some _
    rw [UInt16.toUInt16_toUInt32]
    rfl
  | moveFromControl code dst => exact Microcode.run?_moveFromControl code dst
  | moveToControl code src => exact Microcode.run?_moveToControl code src
  | quickAddress op size value n => exact Microcode.runOnAddress?_arithAddress op n trivial
  | quick op size value hdst hdata =>
    exact Microcode.run?_binary (.arith op) trivial (hdst.suits h) (hdst.not_isAddrReg hdata)
  | toRegister op size n hsrc => exact Microcode.run?_binary op (hsrc.suits h) trivial rfl
  | fromRegister op size n hdst =>
    exact Microcode.run?_binary op trivial (hdst.suits_of_isData h) (hdst.not_isAddrReg h)
  | immediate op size value hdst =>
    exact Microcode.run?_binary op trivial (hdst.suits_of_isData h) (hdst.not_isAddrReg h)
  | toAddress op size n hsrc => exact Microcode.runOnAddress?_arithAddress op n (hsrc.suits h)
  | compare size n hsrc =>
    exact (Slot.bind_reader (hsrc.suits h) _).trans
      (@Slot.bind_reader _ size (.place (.dataReg n)) trivial _)
  | compareImmediate size value hsrc => exact Slot.bind_reader (hsrc.suits h) _
  | compareAddress size n hsrc =>
    exact (Slot.bind_reader (hsrc.suits h) _).trans (Slot.bind_readRegister (.addr n) _)

-- A listing that no opcode gives: an address register is no byte.
example : Microcode.move.run? ⟨[.size .byte, .addrReg 0, .dataReg 1], by simp⟩ = none := rfl

end Cpu68k
