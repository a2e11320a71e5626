import Cpu68k.Proofs.Stepping

/-!
# The value of a `MOVE`

Operands are resolved to places first, and the source is read after the destination has
been resolved. An address keeps its contents meanwhile and a data register its value,
so the value that is moved is the one that the source had as soon as it was resolved.
The one exception is a source that is an address register which the destination then
moves: there the new address is what is written.
-/

namespace Cpu68k

variable {m m' : Machine} {size : Size} {src : Mode} {dst : Target} {value : UInt32}
variable {opcode : UInt16}

/-! ### Reading as a function of the machine -/

/-- The value of an operand. -/
def Operand.valueIn (m : Machine) (size : Size) : Operand → Except Abort UInt32
  | place (.dataReg n) => .ok (m.registers.dataReg n &&& size.mask)
  | place (.addrReg n) => .ok (m.registers.addrReg n &&& size.mask)
  | place (.memory addr) => m.load addr size m.dataSpace
  | program addr => m.load addr size m.programSpace
  | constant value => .ok (value &&& size.mask)

/-- Reading an operand gives its value and changes nothing. -/
theorem operandRead_eq (o : Operand) (size : Size) (m : Machine) :
    o.read size m = match o.valueIn m size with
      | .ok value => .ok value m
      | .error a => .error a m := by
  have hload (addr : UInt32) (fc : FunctionCode) : loadFrom addr size fc m =
      match m.load addr size fc with
      | .ok value => .ok value m
      | .error a => .error a m := by
    unfold loadFrom
    cases m.load addr size fc <;> rfl
  cases o with
  | place p =>
    cases p with
    | dataReg n => rfl
    | addrReg n => rfl
    | memory addr => exact hload addr m.dataSpace
  | program addr => exact hload addr m.programSpace
  | constant value => rfl

/-- Reading an operand gives its value and changes nothing. -/
theorem operandRead_eq_ok {o : Operand} :
    o.read size m = .ok value m' ↔ o.valueIn m size = .ok value ∧ m' = m := by
  rw [operandRead_eq]
  cases o.valueIn m size with
  | ok value => simp [eq_comm]
  | error a => simp

/-- The value of an operand depends on the memory, the mode and the register that the
operand names. -/
theorem Operand.valueIn_congr {o : Operand} (hchip : m'.chip = m.chip)
    (hspace : m'.space = m.space) (hmode : m'.registers.isSupervisor = m.registers.isSupervisor)
    (hdata : m'.registers.data = m.registers.data)
    (haddr : ∀ n, o = .place (.addrReg n) → m'.registers.addrReg n = m.registers.addrReg n) :
    o.valueIn m' size = o.valueIn m size := by
  have hload (addr : UInt32) (fc : FunctionCode) : m'.load addr size fc = m.load addr size fc := by
    have hforbids : m'.forbids addr size = m.forbids addr size := by
      rw [Machine.forbids, Machine.forbids, Machine.isMisaligned, Machine.isMisaligned, hchip]
    rw [Machine.load, Machine.load, hforbids, hspace]
  cases o with
  | place p =>
    cases p with
    | dataReg n => simp only [valueIn, RegisterFile.dataReg, hdata]
    | addrReg n => simp only [valueIn, haddr n rfl]
    | memory addr => simp only [valueIn, hload, Machine.dataSpace, hmode]
  | program addr => simp only [valueIn, hload, Machine.programSpace, hmode]
  | constant value => rfl

/-! ### Destinations that move the source -/

/-- The destination moves the address register that is the source. -/
def Target.Overtakes (dst : Target) (src : Mode) : Prop :=
  ∃ n, src = .target (.addrReg n) ∧ (dst = .postIncrement n ∨ dst = .preDecrement n)

/-- A mode moves no address register but its own. -/
theorem addrReg_moved {n : Fin 8} (r : RegisterFile)
    (h : ¬ (dst = .postIncrement n ∨ dst = .preDecrement n)) :
    ((Mode.target dst).moved size r).addrReg n = r.addrReg n := by
  cases dst with
  | postIncrement k =>
    exact r.addrReg_setAddrReg_of_ne k _ fun heq => h (.inl (by rw [heq]))
  | preDecrement k =>
    exact r.addrReg_setAddrReg_of_ne k _ fun heq => h (.inr (by rw [heq]))
  | _ => rfl

namespace Machine

/-- The value that the source denotes once it has been resolved. -/
def SourceDenotes (m : Machine) (size : Size) (src : Mode) (value : UInt32) : Prop :=
  ∃ o m₁, src.resolve size m = .ok o m₁ ∧ o.read size m₁ = .ok value m₁

/-- What moving a value does: source and destination are resolved, the value is written
to the destination, and the condition codes are set from it. -/
inductive MovesValue (m : Machine) (size : Size) (src : Mode) (dst : Target) (value : UInt32) :
    Machine → Prop
  | mk {o p m₁ m₂ m₃} (hsrc : src.resolve size m = .ok o m₁) (hdst : dst.resolve size m₁ = .ok p m₂)
    (hwrite : p.write size value m₂ = .ok () m₃) :
    MovesValue m size src dst value
      { m₃ with registers := { m₃.registers with sr := m₃.registers.sr.logical value size } }

end Machine

/-- The value of an operand is the same before and after the destination is resolved,
unless the destination moves the register that it is. -/
theorem valueIn_resolved {o : Operand} {words : UInt32} (hgives : src.Gives o)
    (h : ¬ dst.Overtakes src) :
    o.valueIn (m.resolved ((Mode.target dst).moved size m.registers) words) size =
      o.valueIn m size := by
  have hretains := retains_moved (.target dst) size m.registers
  refine Operand.valueIn_congr rfl rfl (isSupervisor_moved _ _ _) hretains.data fun n hn => ?_
  refine addrReg_moved m.registers fun hdst => h ⟨n, ?_, hdst⟩
  subst hn
  cases hgives with
  | target hplace =>
    cases hplace
    rfl

/-! ### The step -/

/-- A `MOVE` that succeeds resolves both operands, then reads and then writes. -/
theorem perform_move (h : (Instruction.move size src dst).perform m = .ok () m') :
    ∃ o p m₁ m₂ value m₃, src.resolve size m = .ok o m₁ ∧ dst.resolve size m₁ = .ok p m₂ ∧
      o.valueIn m₂ size = .ok value ∧ p.write size value m₂ = .ok () m₃ ∧
      m' = { m₃ with
        registers := { m₃.registers with sr := m₃.registers.sr.logical value size } } := by
  have hrun : ((Instruction.move size src dst).resolve >>= Operation.effect) m = .ok () m' := h
  obtain ⟨op, m₂, hresolve, heffect⟩ := exists_of_bind_ok hrun
  obtain ⟨o, m₁, hsrc, hrest⟩ := exists_of_bind_ok (x := src.resolve size) hresolve
  obtain ⟨p, m₂', hdst, hpure⟩ := exists_of_bind_ok (x := dst.resolve size) hrest
  cases hpure
  obtain ⟨value, m₂', hread, hafter⟩ := exists_of_bind_ok (x := o.read size) heffect
  obtain ⟨hvalue, rfl⟩ := operandRead_eq_ok.1 hread
  obtain ⟨⟨⟩, m₃, hwrite, hset⟩ := exists_of_bind_ok (x := p.write size value) hafter
  cases hset
  exact ⟨o, p, m₁, _, value, m₃, hsrc, hdst, hvalue, hwrite, rfl⟩

namespace Machine

/-- A `MOVE` that completes writes, and sets the condition codes from, the value that
its source denotes once it has been resolved and before its destination is. Where the
source is an address register that the destination moves, the value is the register
as the destination leaves it. -/
theorem move_value (m : Machine) (hstate : m.state = .normal) (hfault : m.fault? = none)
    (hopcode : m.wordAt? m.registers.pc = some opcode)
    (hi : Instruction.ofOpcode? m.chip opcode = some (.move size src dst)) :
    ∃ value, (m.fetched opcode).MovesValue size src dst value m.step.val ∧
      (¬ dst.Overtakes src → (m.fetched opcode).SourceDenotes size src value) ∧
      ∀ n, src = .target (.addrReg n) →
        (dst = .postIncrement n →
          value = (m.registers.addrReg n + stride n size) &&& size.mask) ∧
        (dst = .preDecrement n →
          value = (m.registers.addrReg n - stride n size) &&& size.mask) := by
  rw [fault?_eq hstate, cycle_eq hopcode hi] at hfault
  rw [step_val hstate, cycle_eq hopcode hi]
  cases hrun : (Instruction.move size src dst).perform (m.fetched opcode) with
  | error a m' =>
    rw [hrun] at hfault
    cases hfault
  | ok u m' =>
    obtain ⟨o, p, m₁, m₂, value, m₃, hsrc, hdst, hvalue, hwrite, rfl⟩ := perform_move hrun
    have hm₂ := (names_target dst).of_ok hdst
    refine ⟨value, ⟨hsrc, hdst, hwrite⟩, fun hplain => ⟨o, m₁, hsrc, ?_⟩, ?_⟩
    · have hgives := (yields_mode src size _).of_ok hsrc
      rw [hm₂, valueIn_resolved hgives hplain] at hvalue
      exact operandRead_eq_ok.2 ⟨hvalue, rfl⟩
    · rintro n rfl
      cases hsrc
      have hregister : value = m₂.registers.addrReg n &&& size.mask := by
        cases hvalue
        rfl
      subst hregister hm₂
      constructor
      · rintro rfl
        exact congrArg (· &&& size.mask) (RegisterFile.addrReg_setAddrReg _ n _)
      · rintro rfl
        exact congrArg (· &&& size.mask) (RegisterFile.addrReg_setAddrReg _ n _)

/-- A machine at a `MOVE.L (A0)+,(A0)+`. -/
def copying : Machine :=
  { Machine.initial .mc68000 .halt (.flat ⟨.general,
      ⟨Array.replicate 32 0 ++ #[0x20, 0xD8] ++ Array.replicate 14 0 ++ #[0, 0, 1, 2] ++
        Array.replicate 12 0⟩⟩) with
    registers := { RegisterFile.initial with
      addr := #v[48, 0, 0, 0, 0, 0, 0], pc := 32, ssp := 64, sr := ⟨0x2000⟩ }
    state := .normal }

/-- A move from memory to memory through one register, which takes a step on either side: the
value is that of the source before its second step. -/
theorem move_value_copying :
    copying.state = .normal ∧ copying.fault? = none ∧
      copying.wordAt? copying.registers.pc = some 0x20D8 ∧
      Instruction.ofOpcode? copying.chip 0x20D8 =
        some (.move .long (.target (.postIncrement 0)) (.postIncrement 0)) ∧
      (¬ (Target.postIncrement 0).Overtakes (.target (.postIncrement 0))) ∧
      ∃ value, (copying.fetched 0x20D8).MovesValue .long (.target (.postIncrement 0))
          (.postIncrement 0) value copying.step.val ∧
        (copying.fetched 0x20D8).SourceDenotes .long (.target (.postIncrement 0)) value := by
  have hfault : copying.fault? = none := by decide +kernel
  have hopcode : copying.wordAt? copying.registers.pc = some 0x20D8 := by decide +kernel
  have hi : Instruction.ofOpcode? copying.chip 0x20D8 =
      some (.move .long (.target (.postIncrement 0)) (.postIncrement 0)) := by decide +kernel
  have hplain : ¬ (Target.postIncrement 0).Overtakes (.target (.postIncrement 0)) := by
    rintro ⟨n, hsrc, -⟩
    cases hsrc
  obtain ⟨value, hmoves, hdenotes, -⟩ := move_value copying rfl hfault hopcode hi
  exact ⟨rfl, hfault, hopcode, hi, hplain, value, hmoves, hdenotes hplain⟩

/-- A machine at a `MOVE.L A0,-(A0)`. -/
def overtaking : Machine :=
  { Machine.initial .mc68000 .halt (.flat ⟨.general,
      ⟨Array.replicate 32 0 ++ #[0x21, 0x08] ++ Array.replicate 30 0⟩⟩) with
    registers := { RegisterFile.initial with
      addr := #v[64, 0, 0, 0, 0, 0, 0], pc := 32, ssp := 64, sr := ⟨0x2000⟩ }
    state := .normal }

/-- The value that the source denotes before the destination is resolved is not the one
that is moved: the register has been decremented. -/
theorem overtaking_moves_other :
    overtaking.state = .normal ∧ overtaking.fault? = none ∧
      overtaking.wordAt? overtaking.registers.pc = some 0x2108 ∧
      Instruction.ofOpcode? overtaking.chip 0x2108 =
        some (.move .long (.target (.addrReg 0)) (.preDecrement 0)) ∧
      ¬ ∃ value, (overtaking.fetched 0x2108).SourceDenotes .long (.target (.addrReg 0)) value ∧
        (overtaking.fetched 0x2108).MovesValue .long (.target (.addrReg 0)) (.preDecrement 0)
          value overtaking.step.val := by
  refine ⟨rfl, by decide +kernel, by decide +kernel, by decide +kernel, ?_⟩
  rintro ⟨value, ⟨o, m₁, hresolve, hread⟩, hmoves⟩
  have hvalue : value = 64 := by
    cases hresolve
    cases hread
    decide +kernel
  have hmemory :
      (overtaking.step.val.space.read 60 4 .supervisorData .read).toOption = some 60 := by
    decide +kernel
  generalize overtaking.step.val = m' at hmoves hmemory
  cases hmoves with
  | @mk o p m₁ m₂ m₃ hsrc hdst hwrite =>
    obtain ⟨rfl, hsupervisor⟩ : p = .memory 60 ∧ m₂.dataSpace = .supervisorData := by
      cases hsrc
      cases hdst
      decide +kernel
    have hwrite : writeData 60 .long value m₂ = .ok () m₃ := hwrite
    obtain ⟨spot, -, hlocate, rfl⟩ := ends_writeData.of_ok hwrite
    rw [hsupervisor] at hlocate
    have hwritten := Space.read_setNumberAt value hlocate
    have hread : some (value &&& Size.long.mask) = some 60 := by
      rw [← hmemory]
      exact (congrArg Except.toOption hwritten).symm
    rw [hvalue] at hread
    revert hread
    decide

end Machine

end Cpu68k
