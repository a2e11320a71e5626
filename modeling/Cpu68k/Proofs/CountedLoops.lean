import Cpu68k.Proofs.Comparisons
import Cpu68k.Proofs.Encodings
import Cpu68k.Proofs.ProgramCounter
import Cpu68k.Proofs.Runs
import Cpu68k.Proofs.TwoOperands

/-!
# Counted loops

`DBcc` decreases the low word of a data register and branches until the word has gone below
zero. A branch onto itself is the shortest such loop: with the count `k` it takes `k + 1`
steps, each of which changes nothing but the count. `counted_loop` says so, and that a run
with enough steps goes on behind the loop.
-/

namespace Cpu68k

/-! ### The opcode -/

namespace Instruction

/-- The opcode of `DBcc`. -/
def decrementBranchOpcode (test : Test) (n : Fin 8) : UInt16 :=
  byteOpcode (fourBits 0x5) (fourBits test.code.toNat) (.ofNat (0xC8 + n.val))

/-- The opcode of `DBcc` as an exact number. -/
theorem toNat_decrementBranchOpcode (test : Test) (n : Fin 8) :
    (decrementBranchOpcode test n).toNat =
      5 * 4096 + (fourBits test.code.toNat).val * 256 + (0xC8 + n.val) := by
  have hlow : (UInt8.ofNat (0xC8 + n.val)).toNat = 0xC8 + n.val :=
    UInt8.toNat_ofNat_of_lt' (by change _ < 256; omega)
  rw [decrementBranchOpcode, toNat_byteOpcode, hlow]
  rfl

/-- The opcode of `DBcc` is read back on every chip. -/
theorem ofOpcode?_decrementBranch (chip : Chip) (test : Test) (n : Fin 8) :
    ofOpcode? chip (decrementBranchOpcode test n) = some (.decrementBranch test n) := by
  have hnat := toNat_decrementBranchOpcode test n
  have htest : testField (decrementBranchOpcode test n) = test := by
    rw [testField, Test.ofCode, decrementBranchOpcode, digit_byteOpcode]
    cases test <;> rfl
  have hsize : sizeField? (decrementBranchOpcode test n) = none := by
    refine Size.ofBits?_of_and (UInt16.toNat_inj.1 ?_)
    rw [toNat_sizeBits, hnat]
    change _ = 3
    omega
  have hmode : Mode.ofOpcode? (decrementBranchOpcode test n) = some (.target (.addrReg n)) := by
    have hmode : Mode.field (decrementBranchOpcode test n) 3 = 1 := by
      refine Fin.ext ?_
      rw [Mode.field_val_eq _ _ 3 rfl, hnat]
      change _ = 1
      omega
    have hreg : Mode.field (decrementBranchOpcode test n) 0 = n := by
      refine Fin.ext ?_
      rw [Mode.field_val_eq _ _ 0 rfl, hnat]
      omega
    rw [Mode.ofOpcode?, hmode, hreg]
    rfl
  have hline : ofOpcode? chip (decrementBranchOpcode test n) =
      ofLine5? (decrementBranchOpcode test n) := by
    rw [ofOpcode?, decrementBranchOpcode, line_byteOpcode]
    rfl
  rw [hline]
  simp [ofLine5?, hmode, hsize, htest, Mode.target?]

end Instruction

/-! ### One turn -/

variable {m m' m'' : Machine} {test : Test} {n : Fin 8} {count count' : Nat} {pc pc' : UInt32}

/-- The number that a loop counts down: the low word of a data register. -/
def RegisterFile.counter (r : RegisterFile) (n : Fin 8) : Nat :=
  (r.dataReg n).toNat % 2 ^ 16

/-- The counter is the low word of its register. -/
theorem RegisterFile.counter_eq (r : RegisterFile) (n : Fin 8) :
    r.counter n = (r.dataReg n &&& 0xFFFF).toNat :=
  (Size.word.toNat_and_mask _).symm

namespace Machine

/-- What counting has done: the low word of the data register is the count, and the program
counter may have moved. -/
structure Counted (m : Machine) (n : Fin 8) (count : Nat) (pc : UInt32) (m' : Machine) : Prop where
  /-- Of the registers only data registers and the program counter differ, and of the machine
  only the registers and what was recorded of the instruction. -/
  machine : m' = { m with
    registers := { m.registers with data := m'.registers.data, pc := pc }
    opcode := m'.opcode
    instructionAddress := m'.instructionAddress }
  /-- The low word is the count. -/
  counter : m'.registers.counter n = count
  /-- The high word is the same. -/
  upper : m'.registers.dataReg n &&& ~~~0xFFFF = m.registers.dataReg n &&& ~~~0xFFFF
  /-- The other data registers are the same. -/
  others : ∀ k, k ≠ n → m'.registers.dataReg k = m.registers.dataReg k

/-- Nothing has been counted. -/
theorem Counted.refl (m : Machine) (n : Fin 8) :
    m.Counted n (m.registers.counter n) m.registers.pc m :=
  ⟨rfl, rfl, rfl, fun _ _ => rfl⟩

/-- Counting goes on from the last count. -/
theorem Counted.trans (h : m.Counted n count pc m') (h' : m'.Counted n count' pc' m'') :
    m.Counted n count' pc' m'' := by
  refine ⟨?_, h'.counter, h'.upper.trans h.upper, fun k hk => (h'.others k hk).trans (h.others k hk)⟩
  rw [h'.machine, h.machine]

/-- A branch onto itself whose test fails. -/
structure AtLoop (m : Machine) (test : Test) (n : Fin 8) : Prop where
  /-- The machine runs. -/
  state : m.state = .normal
  /-- The instruction with its distance can be fetched. -/
  words : m.HasWords m.registers.pc [Instruction.decrementBranchOpcode test n, 0xFFFE]
  /-- The test does not end the loop. -/
  fails : test.holds m.registers.sr = false

/-- Counting leads back to the same instruction. -/
theorem Counted.atLoop (h : m.Counted n count m.registers.pc m') (hloop : m.AtLoop test n) :
    m'.AtLoop test n := by
  have hsr : m'.registers.sr = m.registers.sr := by rw [h.machine]
  have hpc : m'.registers.pc = m.registers.pc := by rw [h.machine]
  have hspace : m'.space = m.space := by rw [h.machine]
  have hmode : m.registers.isSupervisor = m'.registers.isSupervisor := by
    rw [RegisterFile.isSupervisor, RegisterFile.isSupervisor, hsr]
  constructor
  · rw [h.machine]
    exact hloop.state
  · rw [hpc]
    exact hloop.words.congr (wordAt?_congr hspace.symm hmode)
  · rw [hsr]
    exact hloop.fails

/-- The machine with the low word of a data register decreased, and with another program
counter. -/
def decreased (m : Machine) (n : Fin 8) (pc : UInt32) : Machine :=
  { m with registers := { m.registers.setDataReg n (Size.word.merge (m.registers.dataReg n)
      ((m.registers.dataReg n - 1) &&& 0xFFFF)) with pc := pc } }

/-- Decreasing the low word counts down by one, from zero to the largest word. -/
theorem counted_decreased (m : Machine) (n : Fin 8) (pc : UInt32) :
    m.Counted n ((m.registers.counter n + 0xFFFF) % 2 ^ 16) pc (m.decreased n pc) := by
  have hset : (m.decreased n pc).registers.dataReg n = Size.word.merge (m.registers.dataReg n)
      ((m.registers.dataReg n - 1) &&& 0xFFFF) :=
    m.registers.dataReg_setDataReg n _
  constructor
  · rfl
  · have hprevious : (m.registers.dataReg n - 1).toNat =
        (2 ^ 32 - 1 + (m.registers.dataReg n).toNat) % 2 ^ 32 := UInt32.toNat_sub _ 1
    have hlow : (m.decreased n pc).registers.counter n =
        (m.registers.dataReg n - 1).toNat % 2 ^ 16 := by
      rw [RegisterFile.counter_eq, hset]
      refine (congrArg UInt32.toNat (Size.word.merge_and_mask _ _)).trans ?_
      rw [Size.mask, UInt32.and_assoc, UInt32.and_self]
      exact Size.word.toNat_and_mask _
    rw [hlow, hprevious, RegisterFile.counter]
    omega
  · rw [hset]
    exact Size.word.merge_and_not_mask _ _
  · intro k hk
    exact m.registers.dataReg_setDataReg_of_ne n _ hk

end Machine

/-- Where the test fails, the count decreases, and the branch is taken unless it was zero. -/
theorem decrementBranch_eq (hfails : test.holds m.registers.sr = false) (target : UInt32) :
    (Operation.decrementBranch test n target).effect m =
      .ok () (m.decreased n (if m.registers.counter n = 0 then m.registers.pc else target)) := by
  have hzero : (m.registers.dataReg n - 1) &&& 0xFFFF = 0xFFFF ↔ m.registers.counter n = 0 := by
    rw [count_eq_iff, RegisterFile.counter_eq, ← UInt32.toNat_inj]
    rfl
  refine Ends.eq_ok ?_
  unfold Operation.effect
  rw [ends_bind, ends_get]
  dsimp only
  rw [hfails, Bool.not_false, if_pos rfl, ends_bind]
  by_cases hcount : m.registers.counter n = 0
  · simp [hzero, hcount, Place.write, Machine.decreased, RegisterFile.setDataReg]
  · simp [hzero, hcount, Place.write, Machine.decreased]

/-- The target is counted from the address of the distance. -/
theorem resolve_decrementBranch {word : UInt16} (h : m.wordAt? m.registers.pc = some word) :
    (Instruction.decrementBranch test n).resolve m =
      .ok (.decrementBranch test n (m.registers.pc + Size.word.signExtend word.toUInt32))
        (m.resolved m.registers 1) := by
  have hdistance : fetchDistance m =
      .ok (Size.word.signExtend word.toUInt32) (m.resolved m.registers 1) := by
    unfold fetchDistance
    rw [bind_of_ok (fetchWord_eq h)]
    rfl
  refine Ends.eq_ok ?_
  unfold Instruction.resolve
  rw [ends_bind, ends_get, ends_bind, Ends, hdistance]
  exact ⟨rfl, rfl⟩

namespace Machine

/-- The machine past an opcode and one more word. -/
def past (m : Machine) (opcode : UInt16) : Machine :=
  (m.fetched opcode).resolved (m.fetched opcode).registers 1

/-- An opcode and one more word are four bytes. -/
theorem pc_past (m : Machine) (opcode : UInt16) :
    (m.past opcode).registers.pc = m.registers.pc + 4 := by
  change m.registers.pc + 2 + 2 * 1 = _
  grind

/-- Passing the words of an instruction counts nothing. -/
theorem counted_past (m : Machine) (opcode : UInt16) (n : Fin 8) :
    m.Counted n (m.registers.counter n) (m.registers.pc + 4) (m.past opcode) := by
  rw [← pc_past m opcode]
  exact ⟨rfl, rfl, rfl, fun _ _ => rfl⟩

/-- A cycle with a branch onto itself decreases the count. -/
theorem cycle_decrementBranch {opcode : UInt16} (hopcode : m.wordAt? m.registers.pc = some opcode)
    (hdecodes : Instruction.ofOpcode? m.chip opcode = some (.decrementBranch test n))
    (hword : m.wordAt? (m.registers.pc + 2) = some 0xFFFE)
    (hfails : test.holds m.registers.sr = false) :
    cycle m = .ok () ((m.past opcode).decreased n
      (if m.registers.counter n = 0 then m.registers.pc + 4 else m.registers.pc)) := by
  have hdistance : (m.fetched opcode).wordAt? (m.fetched opcode).registers.pc = some 0xFFFE :=
    (wordAt?_congr rfl rfl _).trans hword
  have hback : (m.fetched opcode).registers.pc + Size.word.signExtend (0xFFFE : UInt16).toUInt32 =
      m.registers.pc := by
    change m.registers.pc + 2 + 0xFFFFFFFE = _
    grind
  have hresolve : (Instruction.decrementBranch test n).resolve (m.fetched opcode) =
      .ok (.decrementBranch test n m.registers.pc) (m.past opcode) := by
    rw [resolve_decrementBranch hdistance, hback, past]
  have hpermits : (Instruction.decrementBranch test n).privilege.permits (m.fetched opcode).chip
      (m.fetched opcode).registers.isSupervisor = true := rfl
  rw [cycle_eq hopcode hdecodes, perform_eq, if_pos hpermits, bind_of_ok hresolve]
  refine (decrementBranch_eq (m := m.past opcode) hfails m.registers.pc).trans ?_
  rw [pc_past]
  rfl

/-- A turn of the loop decreases the count and stays, or leaves where the count was zero. -/
theorem AtLoop.step (h : m.AtLoop test n) :
    m.Counted n ((m.registers.counter n + 0xFFFF) % 2 ^ 16)
      (if m.registers.counter n = 0 then m.registers.pc + 4 else m.registers.pc) m.step.val := by
  obtain ⟨hopcode, hword, -⟩ := h.words
  have hdecodes := Instruction.ofOpcode?_decrementBranch m.chip test n
  rw [step_val h.state, cycle_decrementBranch hopcode hdecodes hword h.fails]
  exact (m.counted_past _ n).trans (counted_decreased _ n _)

/-! ### The loop -/

/-- As long as the count lasts the loop counts down. -/
theorem AtLoop.after_counted (h : m.AtLoop test n) {j : Nat} (hj : j ≤ m.registers.counter n) :
    m.Counted n (m.registers.counter n - j) m.registers.pc (m.after j) := by
  induction j with
  | zero => exact .refl m n
  | succ j ih =>
    have hcounted := ih (by omega)
    have hpc : (m.after j).registers.pc = m.registers.pc := by rw [hcounted.machine]
    have hlt : m.registers.counter n < 2 ^ 16 := Nat.mod_lt _ (by decide)
    have hstep := (hcounted.atLoop h).step
    have hne : ¬m.registers.counter n - j = 0 := by omega
    have hnext : (m.registers.counter n - j + 0xFFFF) % 2 ^ 16 =
        m.registers.counter n - (j + 1) := by omega
    rw [hcounted.counter, if_neg hne, hnext, hpc] at hstep
    exact hcounted.trans hstep

/-- One turn later the loop is left. -/
theorem AtLoop.after_left (h : m.AtLoop test n) :
    m.Counted n 0xFFFF (m.registers.pc + 4) (m.after (m.registers.counter n + 1)) := by
  have hcounted := h.after_counted (Nat.le_refl _)
  have hpc : (m.after (m.registers.counter n)).registers.pc = m.registers.pc := by
    rw [hcounted.machine]
  have hstep := (hcounted.atLoop h).step
  rw [hcounted.counter, Nat.sub_self, if_pos rfl, hpc] at hstep
  exact hcounted.trans hstep

/-- A branch onto itself with the count `k` takes `k + 1` steps, each of which changes nothing
but the count: it is `k - j` after `j` steps, and has gone below zero behind the loop. A run
that may take more steps goes on from there. -/
theorem counted_loop (m : Machine) (test : Test) (n : Fin 8) (hstate : m.state = .normal)
    (hwords : m.HasWords m.registers.pc [Instruction.decrementBranchOpcode test n, 0xFFFE])
    (hfails : test.holds m.registers.sr = false) :
    let k := m.registers.counter n
    (∀ j ≤ k, m.Counted n (k - j) m.registers.pc (m.after j)) ∧
      m.Counted n 0xFFFF (m.registers.pc + 4) (m.after (k + 1)) ∧
      ∀ keep limit, k + 1 ≤ limit →
        let rest := (m.after (k + 1)).run keep (limit - (k + 1))
        (m.run keep limit).val = (k + 1 + rest.val.1, rest.val.2) := by
  intro k
  have hloop : m.AtLoop test n := ⟨hstate, hwords, hfails⟩
  refine ⟨fun j hj => hloop.after_counted hj, hloop.after_left, ?_⟩
  intro keep limit hlimit
  have hrunning : ∀ j < k + 1, (m.after j).state = .normal := by
    intro j hj
    rw [(hloop.after_counted (Nat.le_of_lt_succ hj)).machine]
    exact hstate
  have hturns := run_val_of_running (by rw [hstate]; exact nofun) hrunning keep
  have hsplit : limit = (k + 1) + (limit - (k + 1)) := by omega
  rw [hsplit, run_add, Logged.val_bind, hturns]
  simp only [Nat.add_sub_cancel_left]
  rfl

/-- A machine at a `DBF D0` onto itself, with the count 2 below another word. -/
def looping : Machine :=
  { Machine.initial .mc68010 .halt (.flat ⟨.general,
      ⟨Array.replicate 32 0 ++ #[0x51, 0xC8, 0xFF, 0xFE] ++ Array.replicate 28 0⟩⟩) with
    registers := { RegisterFile.initial with
      data := #v[0x00070002, 0, 0, 0, 0, 0, 0, 0], pc := 32, ssp := 64, sr := ⟨0x2000⟩ }
    state := .normal }

/-- A loop with the count 2: the first turn leaves 1, and the third goes on behind it. -/
theorem counted_loop_looping :
    looping.state = .normal ∧
      looping.HasWords looping.registers.pc
        [Instruction.decrementBranchOpcode .never 0, 0xFFFE] ∧
      Test.never.holds looping.registers.sr = false ∧
      looping.Counted 0 1 32 (looping.after 1) ∧ looping.Counted 0 0xFFFF 36 (looping.after 3) ∧
      (looping.run (fun _ => true) 3).val = (3, looping.after 3) := by
  have hwords : looping.HasWords looping.registers.pc
      [Instruction.decrementBranchOpcode .never 0, 0xFFFE] :=
    ⟨by decide +kernel, by decide +kernel, trivial⟩
  have hcount : looping.registers.counter 0 = 2 := by decide
  obtain ⟨hinside, hbehind, hrun⟩ := counted_loop looping .never 0 rfl hwords rfl
  rw [hcount] at hinside hbehind hrun
  exact ⟨rfl, hwords, rfl, hinside 1 (by decide), hbehind, hrun _ 3 (by decide)⟩

end Machine

end Cpu68k
