import Cpu68k.Proofs.Careful
import Cpu68k.Proofs.Stepping

/-!
# What a bus or address error leaves behind

Where an access fails the machine halts, if it has been told to. `Machine.Leaves` lists
what may have happened by then: some operands have been resolved, the first of the two
values that `RTR` pops has been popped, or `MOVEP` has stored its first bytes. Nothing
else has changed.
-/

namespace Cpu68k

variable {α β : Type} {x : Exec α} {m m' : Machine} {a : Abort} {size : Size} {mode : Mode}
variable {i : Instruction} {failed : BusCycle}

/-! ### Resolving that fails -/

/-- A computation that fails has moved nothing but the program counter. -/
def Stalls (x : Exec α) (m : Machine) : Prop :=
  Ends x m (fun _ _ => True) fun _ m' => ∃ pc, m' = m.withPc pc

/-- Fetching moves only the program counter. -/
theorem Fetches.stalls {k : UInt32} (h : Fetches x m k) : Stalls x m :=
  h.mono (fun _ _ _ => trivial) fun _ _ h => h.1

/-- A mode that cannot be resolved has not moved its register. -/
theorem Names.stalls (h : Names x mode size m) : Stalls x m :=
  h.mono (fun _ _ _ => trivial) fun _ _ h => h.machine

/-- A value by itself does not fail. -/
theorem stalls_pure (a : α) : Stalls (pure a) m := trivial

/-- Words are fetched first. -/
theorem Fetches.stalls_bind {f : α → Exec β} {k : UInt32} (hx : Fetches x m k)
    (hf : ∀ a, Stalls (f a) (m.resolved m.registers k)) : Stalls (x >>= f) m := by
  refine ends_bind.2 (hx.mono (fun a m' h => ?_) fun _ _ h => h.1)
  subst h
  exact (hf a).mono (fun _ _ h => h) fun _ _ ⟨pc, h⟩ => ⟨pc, h⟩

/-- Only a `MOVE` has an operand to resolve after it has moved a register. -/
theorem stalls_resolve (hi : ∀ size src dst, i ≠ .move size src dst) : Stalls i.resolve m := by
  cases i with
  | move size src dst => exact absurd rfl (hi size src dst)
  | rtd | link n => exact (fetches_fetchDistance.map _).stalls
  | stop | logicToCcr op | logicToSr op => exact (fetches_fetchWord.map _).stalls
  | linkLong n => exact (fetches_fetchLong.map _).stalls
  | movepToMemory size data addr | movepFromMemory size data addr =>
    exact ((fetches_fetchDistance.map_get _).map _).stalls
  | branch test distance | branchSubroutine distance =>
    exact ((fetches_branchTarget distance).map _).stalls
  | decrementBranch test n => exact (fetches_get_bind (fetches_fetchDistance.map _)).stalls
  | moveFromControl | moveToControl => exact (fetches_controlWord.map _).stalls
  | immediate op size dst =>
    exact (fetches_fetchImmediate size).stalls_bind fun _ => ((names_target dst).map _).stalls
  | compareImmediate size dst =>
    exact (fetches_fetchImmediate size).stalls_bind fun _ => ((names_mode dst).map _).stalls
  | quick op size value dst =>
    refine ends_bind.2 ((names_target dst).mono (fun place m' _ => ?_) fun _ _ h => h.machine)
    cases place <;> trivial
  | jump c | jumpSubroutine c | loadAddress c n | pushAddress c =>
    have hnames : Names c.address c.mode .long m := names_control c
    exact (hnames.map _).stalls
  | setOnTest _ dst | clear _ dst | negate _ dst | complement _ dst | moveFromSr dst
  | moveFromCcr dst | fromRegister _ _ _ dst => exact ((names_target dst).map _).stalls
  | moveAddress _ src _ | test _ src | moveToCcr src | moveToSr src | toRegister _ _ src _
  | toAddress _ _ src _ | compare _ src _ | compareAddress _ src _ =>
    exact ((names_mode src).map _).stalls
  | _ => exact stalls_pure _

/-! ### What an instruction leaves -/

/-- An unknown opcode is no fault of an access. -/
theorem Fault.cycle?_ofUnknownOpcode (opcode : UInt16) :
    (Fault.ofUnknownOpcode opcode).cycle? = none := by
  unfold ofUnknownOpcode
  split
  · rfl
  split <;> rfl

/-- A fault of an access halts a machine that has been told to. -/
theorem Fault.not_isTaken_of_cycle {fault : Fault} {policy : FaultPolicy}
    (h : fault.cycle? = some failed) (hpolicy : policy = .halt) : fault.isTaken policy = false := by
  subst hpolicy
  cases fault with
  | busError | addressError => rfl
  | _ => cases h

/-- What an instruction leaves where an access fails, in the registers apart from the
program counter and in memory. -/
inductive Machine.Leaves (m : Machine) (i : Instruction) (failed : BusCycle) :
    RegisterFile → Space → Prop
  /-- No operand has been resolved that moves a register. -/
  | resolving {a : Abort} {m₁ : Machine} (hresolve : i.resolve m = .error a m₁)
    (hsrc : ∀ size src dst, i = .move size src dst → ∃ a m₁, src.resolve size m = .error a m₁) :
    Leaves m i failed m.registers m.space
  /-- The source of a `MOVE` has been resolved, and its destination has not. -/
  | source {size : Size} {src : Mode} {dst : Target} {o : Operand} {m₁ m₂ : Machine} {a : Abort}
    (hi : i = .move size src dst) (hsrc : src.resolve size m = .ok o m₁)
    (hdst : dst.resolve size m₁ = .error a m₂) :
    Leaves m i failed (src.moved size m.registers) m.space
  /-- All operands have been resolved, and nothing else has been done. -/
  | performing {op : Operation} {m₁ : Machine} (hresolve : i.resolve m = .ok op m₁)
    (hpop : i = .rtr → ∃ a, pop .word m = .error a m)
    (hstore : ∀ size data n, i ≠ .movepToMemory size data n) :
    Leaves m i failed (movedBy i.modeSize m.registers i.modes) m.space
  /-- The condition codes have been popped, and the program counter has not. -/
  | popped {ccr : UInt32} {m₁ : Machine} {a : Abort} (hi : i = .rtr)
    (hccr : pop .word m = .ok ccr m₁) (hpc : pop .long m₁ = .error a m₁) :
    Leaves m i failed (m.registers.setActiveSp (m.registers.activeSp + 2)) m.space
  /-- The bytes in front of the one that failed have been stored. -/
  | stored {size : Size} {data n : Fin 8} {addr b : UInt32} {m₁ : Machine}
    {done rest : List UInt32} {s : Space} (hi : i = .movepToMemory size data n)
    (hresolve : i.resolve m = .ok (.movepToMemory size data addr) m₁)
    (hsplit : size.bytesOf (m.registers.dataReg data) = done ++ b :: rest)
    (hfailed : failed = ⟨addr + 2 * .ofNat done.length, .write, m.dataSpace⟩)
    (hstored : m.space.StoresAlternate addr done s) : Leaves m i failed m.registers s

/-- What is left has its data registers, status word and control registers. -/
theorem Machine.Leaves.retains {r : RegisterFile} {s : Space} (h : m.Leaves i failed r s) :
    m.registers.Retains r := by
  cases h with
  | resolving | stored => exact .refl _
  | source => exact retains_moved _ _ _
  | performing => exact retains_movedBy _ _ _
  | popped =>
    rw [RegisterFile.setActiveSp_eq]
    exact RegisterFile.retains_setAddrReg _ _ _

/-- Only `MOVEP` to memory leaves anything in memory. -/
theorem Machine.Leaves.space_eq {r : RegisterFile} {s : Space} (h : m.Leaves i failed r s)
    (hi : ∀ size data n, i ≠ .movepToMemory size data n) : s = m.space := by
  cases h with
  | stored hmovep => exact absurd hmovep (hi _ _ _)
  | _ => rfl

/-- The instructions that move the stack pointer themselves and read or write the stack
once. -/
def Instruction.usesStack : Instruction → Bool
  | rte | rts | rtd | jumpSubroutine _ | branchSubroutine _ | pushAddress _ | link _ | linkLong _
  | unlink _ => true
  | _ => false

/-- Modes that name an address for its own sake move no register. -/
theorem moved_control (c : Control) (size : Size) (r : RegisterFile) : c.mode.moved size r = r := by
  cases c <;> rfl

/-- An instruction that reads or writes the stack once leaves the registers alone. -/
theorem Machine.Leaves.registers_eq {r : RegisterFile} {s : Space} (h : m.Leaves i failed r s)
    (hi : i.usesStack = true) : r = m.registers := by
  cases h with
  | resolving | stored => rfl
  | source hmove => simp [hmove, Instruction.usesStack] at hi
  | popped hrtr => simp [hrtr, Instruction.usesStack] at hi
  | performing =>
    cases i with
    | jumpSubroutine c | pushAddress c => exact moved_control c _ _
    | rte | rts | rtd | branchSubroutine distance | link n | linkLong n | unlink n => rfl
    | _ => cases hi

/-- What is left where an operand cannot be resolved. -/
theorem resolve_leaves (hresolve : i.resolve m = .error a m') (failed : BusCycle) :
    ∃ r pc, m.Leaves i failed r m.space ∧ m' = m.movedTo r pc := by
  -- a `MOVE` may stop between its operands, everything else before a register moves
  by_cases hmove : ∃ size src dst, i = .move size src dst
  · obtain ⟨size, src, dst, rfl⟩ := hmove
    have hrun : (src.resolve size >>= fun o => dst.resolve size >>= fun p =>
        pure (Operation.move size o p)) m = .error a m' := hresolve
    cases hsrc : src.resolve size m with
    | error e m₁ =>
      rw [bind_of_error hsrc] at hrun
      cases hrun
      obtain ⟨pc, rfl⟩ := (names_mode src).stalls.of_error hsrc
      refine ⟨m.registers, pc, .resolving hresolve fun size' src' dst' heq => ?_, rfl⟩
      cases heq
      exact ⟨_, _, hsrc⟩
    | ok o m₁ =>
      rw [bind_of_ok hsrc] at hrun
      have hm₁ := (names_mode src).of_ok hsrc
      cases hdst : dst.resolve size m₁ with
      | ok p m₂ =>
        rw [bind_of_ok hdst] at hrun
        cases hrun
      | error e m₂ =>
        rw [bind_of_error hdst] at hrun
        cases hrun
        obtain ⟨pc, rfl⟩ := (names_target dst).stalls.of_error hdst
        refine ⟨_, pc, .source rfl hsrc hdst, ?_⟩
        rw [hm₁]
        rfl
  · have hplain (size : Size) (src : Mode) (dst : Target) : i ≠ .move size src dst :=
      fun h => hmove ⟨size, src, dst, h⟩
    obtain ⟨pc, rfl⟩ := (stalls_resolve hplain).of_error hresolve
    exact ⟨m.registers, pc, .resolving hresolve fun _ _ _ h => absurd h (hplain _ _ _), rfl⟩

/-- What is left where the first or the second pop of `RTR` fails. -/
theorem rtr_leaves (heffect : Operation.rtr.effect m = .error a m') (failed : BusCycle) :
    ∃ r pc, m.Leaves .rtr failed r m.space ∧ m' = m.movedTo r pc := by
  have hrun : (pop .word >>= fun ccr => pop .long >>= fun pc => modifyRegisters fun r =>
      { r.setCcr ccr.toUInt8 with pc := pc }) m = .error a m' := heffect
  cases hccr : pop .word m with
  | error e m₁ =>
    rw [bind_of_error hccr] at hrun
    cases hrun
    cases ends_pop.of_error hccr
    exact ⟨m.registers, m.registers.pc, .performing rfl (fun _ => ⟨_, hccr⟩) nofun, rfl⟩
  | ok ccr m₁ =>
    rw [bind_of_ok hccr] at hrun
    have hm₁ := ends_pop.of_ok hccr
    cases hpc : pop .long m₁ with
    | ok pc m₂ =>
      rw [bind_of_ok hpc] at hrun
      cases hrun
    | error e m₂ =>
      rw [bind_of_error hpc] at hrun
      cases hrun
      cases ends_pop.of_error hpc
      exact ⟨_, m'.registers.pc, .popped rfl hccr hpc, by rw [hm₁]; rfl⟩

/-- What is left where `MOVEP` to memory fails. -/
theorem movep_leaves {data n : Fin 8} {addr : UInt32} {m₁ : Machine}
    (hresolve : (Instruction.movepToMemory size data n).resolve m =
      .ok (.movepToMemory size data addr) m₁)
    (heffect : (Operation.movepToMemory size data addr).effect m₁ = .error a m')
    (hfailed : a.fault.cycle? = some failed) :
    ∃ pc s, m.Leaves (.movepToMemory size data n) failed m.registers s ∧
      m' = { m.movedTo m.registers pc with space := s } := by
  have hm₁ := (resolves_instruction _).of_ok hresolve
  have hlength : (size.bytesOf (m₁.registers.dataReg data)).length < 2 ^ 31 := by
    cases size <;> simp [Size.bytesOf]
  obtain ⟨done, b, rest, hsplit, hfault, hm', hstored⟩ :=
    (ends_storeAlternate hlength).of_error heffect
  subst hm₁
  rw [hfault] at hfailed
  cases hfailed
  exact ⟨_, m'.space, .stored rfl hresolve hsplit rfl hstored, hm'⟩

/-- What is left where an access of the resolved operation fails. -/
theorem effect_leaves {op : Operation} {m₁ : Machine} (hresolve : i.resolve m = .ok op m₁)
    (heffect : op.effect m₁ = .error a m') (hfailed : a.fault.cycle? = some failed) :
    ∃ r pc s, m.Leaves i failed r s ∧ m' = { m.movedTo r pc with space := s } := by
  have hgives := (yields_instruction i m).of_ok hresolve
  cases hstaged : op.isStaged with
  | false =>
    -- the instruction is none of the two that are done in stages, since its operation is not
    have hm₁ := (resolves_instruction i).of_ok hresolve
    have hm' := (careful_effect hstaged m₁).of_error heffect (by rw [hfailed]; rfl)
    refine ⟨_, _, _, .performing hresolve ?_ ?_, hm'.trans hm₁⟩
    · rintro rfl
      cases hgives
      cases hstaged
    · rintro size data n rfl
      cases hgives
      cases hstaged
  | true =>
    cases op with
    | rtr =>
      cases hgives
      cases hresolve
      obtain ⟨r, pc, hleaves, hm'⟩ := rtr_leaves heffect failed
      exact ⟨r, pc, _, hleaves, hm'⟩
    | movepToMemory size data addr =>
      cases hgives
      obtain ⟨pc, s, hleaves, hm'⟩ := movep_leaves hresolve heffect hfailed
      exact ⟨_, pc, s, hleaves, hm'⟩
    | _ => cases hstaged

/-- What is left where an access of an instruction fails. -/
theorem perform_leaves (h : i.perform m = .error a m') (hfailed : a.fault.cycle? = some failed) :
    ∃ r pc s, m.Leaves i failed r s ∧ m' = { m.movedTo r pc with space := s } := by
  rw [perform_eq] at h
  cases hresolve : i.resolve m with
  | error e m₁ =>
    have herror : (.error e m₁ : EStateM.Result Abort Machine Unit) = .error a m' := by
      rw [← h]
      split
      · exact (bind_of_error hresolve).symm
      · exact (bind_of_error hresolve).symm
    cases herror
    obtain ⟨r, pc, hleaves, hm'⟩ := resolve_leaves hresolve failed
    exact ⟨r, pc, _, hleaves, hm'⟩
  | ok op m₁ =>
    split at h
    · rw [bind_of_ok hresolve] at h
      exact effect_leaves hresolve h hfailed
    · rw [bind_of_ok hresolve] at h
      cases h
      cases hfailed

/-- What is left of a cycle where an access fails: the opcode could not be fetched, or its
instruction has left something. -/
theorem cycle_leaves (h : cycle m = .error a m') (hfailed : a.fault.cycle? = some failed) :
    (m.wordAt? m.registers.pc = none ∧ m' = { m with instructionAddress := m.registers.pc }) ∨
      ∃ opcode i r pc s, m.wordAt? m.registers.pc = some opcode ∧
        Instruction.ofOpcode? m.chip opcode = some i ∧ (m.fetched opcode).Leaves i failed r s ∧
        m' = { (m.fetched opcode).movedTo r pc with space := s } := by
  cases hopcode : m.wordAt? m.registers.pc with
  | none =>
    left
    cases hfetch : fetchOpcode m with
    | ok opcode m₁ =>
      obtain ⟨hsome, -⟩ := ends_fetchOpcode.of_ok hfetch
      rw [hopcode] at hsome
      cases hsome
    | error e m₁ =>
      rw [cycle, bind_of_error hfetch] at h
      cases h
      exact ⟨rfl, (ends_fetchOpcode.of_error hfetch).1⟩
  | some opcode =>
    right
    cases hi : Instruction.ofOpcode? m.chip opcode with
    | none =>
      rw [cycle_unknown hopcode hi] at h
      cases h
      rw [Fault.cycle?_ofUnknownOpcode] at hfailed
      cases hfailed
    | some i =>
      rw [cycle_eq hopcode hi] at h
      obtain ⟨r, pc, s, hleaves, hm'⟩ := perform_leaves h hfailed
      exact ⟨opcode, i, r, pc, s, rfl, hi, hleaves, hm'⟩

namespace Machine

/-- A bus or address error that halts the machine leaves no more behind than
`Machine.Leaves` says. The status word, the data registers, the control registers and
the stack pointer of the other mode are the same. Memory is the same, but for the bytes
that `MOVEP` has stored, and an instruction that reads or writes the stack once has
moved no address register. -/
theorem fault_leaves (m : Machine) {fault : Fault} (hstate : m.state = .normal)
    (hpolicy : m.policy = .halt) (hfault : m.fault? = some fault)
    (hfailed : fault.cycle? = some failed) :
    m.step.val.state = .halted ∧ m.registers.Retains m.step.val.registers ∧
      ((m.wordAt? m.registers.pc = none ∧
          m.step.val = { m with instructionAddress := m.registers.pc, state := .halted }) ∨
        ∃ opcode i, m.wordAt? m.registers.pc = some opcode ∧
          Instruction.ofOpcode? m.chip opcode = some i ∧
          (∃ r pc s, (m.fetched opcode).Leaves i failed r s ∧ m.step.val =
            { m.fetched opcode with
              registers := { r with pc := pc }, space := s, state := .halted }) ∧
          ((∀ size data n, i ≠ .movepToMemory size data n) → m.step.val.space = m.space) ∧
          (i.usesStack = true →
            m.step.val.registers = { m.registers with pc := m.step.val.registers.pc })) := by
  rw [fault?_eq hstate] at hfault
  rw [step_val hstate]
  cases hrun : cycle m with
  | ok u m' =>
    rw [hrun] at hfault
    cases hfault
  | error a m' =>
    rw [hrun] at hfault
    cases hfault
    have hhalted (hsame : m'.policy = m.policy) :
        (m'.takeFault a.fault).val = { m' with state := .halted } := by
      refine takeFault_of_not_isTaken (Fault.not_isTaken_of_cycle hfailed ?_)
      rw [hsame, hpolicy]
    rcases cycle_leaves hrun hfailed with
      ⟨hopcode, rfl⟩ | ⟨opcode, i, r, pc, s, hopcode, hi, hleaves, rfl⟩
    · dsimp only
      rw [hhalted rfl]
      exact ⟨rfl, .refl _, .inl ⟨hopcode, rfl⟩⟩
    · dsimp only
      rw [hhalted rfl]
      have hretains : m.registers.Retains r :=
        ((RegisterFile.Retains.refl _).withPc _).trans hleaves.retains
      refine ⟨rfl, hretains.withPc pc,
        .inr ⟨opcode, i, hopcode, hi, ⟨r, pc, s, hleaves, rfl⟩, ?_, ?_⟩⟩
      · exact fun hplain => hleaves.space_eq hplain
      · intro hstack
        rw [hleaves.registers_eq hstack]
        rfl

/-- A machine at a `MOVEP.L D0,0(A0)` whose third byte lies behind its memory. -/
def storing : Machine :=
  { Machine.initial .mc68000 .halt (.flat ⟨.general,
      ⟨Array.replicate 32 0 ++ #[0x01, 0xC8, 0, 0] ++ Array.replicate 28 0⟩⟩) with
    registers := { RegisterFile.initial with
      data := #v[0x11223344, 0, 0, 0, 0, 0, 0, 0], addr := #v[60, 0, 0, 0, 0, 0, 0], pc := 32,
      ssp := 64, sr := ⟨0x2000⟩ }
    state := .normal }

/-- A `MOVEP` that fails at its third byte has stored the two before it, and halts. -/
theorem fault_leaves_storing :
    let failed : BusCycle := ⟨64, .write, .supervisorData⟩
    storing.state = .normal ∧ storing.policy = .halt ∧
      storing.fault? = some (.busError failed) ∧ (Fault.busError failed).cycle? = some failed ∧
      storing.step.val.state = .halted ∧ storing.registers.Retains storing.step.val.registers ∧
      (∃ r, (storing.fetched 0x01C8).Leaves (.movepToMemory .long 0 0) failed r
        storing.step.val.space) ∧
      storing.step.val.space.byte? 60 = some 0x11 ∧
      storing.step.val.space.byte? 62 = some 0x22 := by
  intro failed
  have hfault : storing.fault? = some (.busError failed) := by decide +kernel
  have hword : storing.wordAt? storing.registers.pc = some 0x01C8 := by decide +kernel
  have hmovep : Instruction.ofOpcode? storing.chip 0x01C8 = some (.movepToMemory .long 0 0) := by
    decide +kernel
  obtain ⟨hhalted, hretains, hleft⟩ := fault_leaves storing rfl rfl hfault rfl
  refine ⟨rfl, rfl, hfault, rfl, hhalted, hretains, ?_, by decide +kernel, by decide +kernel⟩
  rcases hleft with ⟨hnone, -⟩ | ⟨opcode, i, hopcode, hi, ⟨r, pc, s, hleaves, hstep⟩, -⟩
  · cases hword.symm.trans hnone
  · cases hword.symm.trans hopcode
    cases hmovep.symm.trans hi
    rw [hstep]
    exact ⟨r, hleaves⟩

end Machine

end Cpu68k
