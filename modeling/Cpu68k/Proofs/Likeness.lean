import Cpu68k.Proofs.Stepping

/-!
# Machines that programs cannot tell apart

A `Likeness` is a relation between machines with the same registers whose memories
answer every access of the program alike. A computation respects it if, from related
machines, it ends with the same value or the same fault, and with related machines. This
passes through the parts of a computation one after the other, so every instruction
respects every likeness: what two machines do may differ only where their accesses do.

A likeness may hold in one of the two modes only. An instruction that could lead out of
a mode then has to be refused in it.
-/

namespace Cpu68k

/-- Two outcomes of an access are alike: both are values that are related, or both are
refusals, which may have different reasons. -/
inductive OutcomesAlike {α β : Type} (P : α → β → Prop) :
    Except AccessError α → Except AccessError β → Prop
  | ok {a b} (h : P a b) : OutcomesAlike P (.ok a) (.ok b)
  | error (e e') : OutcomesAlike P (.error e) (.error e')

/-- Outcomes that are alike may be related by less. -/
theorem OutcomesAlike.mono {α β : Type} {P Q : α → β → Prop} {x : Except AccessError α}
    {y : Except AccessError β} (h : OutcomesAlike P x y) (hPQ : ∀ a b, P a b → Q a b) :
    OutcomesAlike Q x y := by
  cases h with
  | ok h => exact .ok (hPQ _ _ h)
  | error e e' => exact .error e e'

/-- A relation between machines that a program in one of the modes cannot tell apart. A
mode is given by the supervisor bit. Only accesses to some bytes count: no program makes
an access to none. -/
structure Likeness (modes : Bool → Prop) (R : Machine → Machine → Prop) : Prop where
  /-- The registers are the same. -/
  registers {m m'} : R m m' → m'.registers = m.registers
  /-- The chips have the same features. -/
  features {m m'} : R m m' → m'.chip.features = m.chip.features
  /-- The run states are the same. -/
  state {m m'} : R m m' → m'.state = m.state
  /-- The policies are the same. -/
  policy {m m'} : R m m' → m'.policy = m.policy
  /-- The mode is one in which the machines are alike. -/
  mode {m m'} : R m m' → modes m.registers.isSupervisor
  /-- What is alike for the supervisor is alike for every program. -/
  closed {s} : modes true → modes s
  /-- Registers may change unless they lead out of the modes. -/
  withRegisters {m m' r} : R m m' → modes r.isSupervisor →
    R { m with registers := r } { m' with registers := r }
  /-- The run state may change. -/
  withState {m m'} (state) : R m m' → R { m with state := state } { m' with state := state }
  /-- The record of the opcode may change. -/
  withOpcode {m m'} (opcode) :
    R m m' → R { m with opcode := opcode } { m' with opcode := opcode }
  /-- The record of the address of the opcode may change. -/
  withAddress {m m'} (addr) : R m m' →
    R { m with instructionAddress := addr } { m' with instructionAddress := addr }
  /-- Reading gives the same. -/
  read {m m' s} (program addr len access) : R m m' → modes s → len ≠ 0 →
    OutcomesAlike (fun a b => b = a) (m.space.read addr len (.ofFlags s program) access)
      (m'.space.read addr len (.ofFlags s program) access)
  /-- Writing does the same. -/
  write {m m' s} (addr len value) : R m m' → modes s → len ≠ 0 → OutcomesAlike
    (fun space space' => R { m with space := space } { m' with space := space' })
    (m.space.write addr len value (.ofFlags s false))
    (m'.space.write addr len value (.ofFlags s false))

/-- Two ends of a computation are alike: the values or the faults are the same and the
machines are related. -/
inductive EndsAlike {α : Type} (R : Machine → Machine → Prop) :
    EStateM.Result Abort Machine α → EStateM.Result Abort Machine α → Prop
  | ok {a m m'} (h : R m m') : EndsAlike R (.ok a m) (.ok a m')
  | error {a b m m'} (hfault : b.fault = a.fault) (h : R m m') :
    EndsAlike R (.error a m) (.error b m')

/-- From related machines the computation ends alike. -/
def Respects {α : Type} (R : Machine → Machine → Prop) (x : Exec α) : Prop :=
  ∀ m m', R m m' → EndsAlike R (x m) (x m')

/-- Chips with the same features read the same instructions. -/
theorem Instruction.ofOpcode?_congr {chip chip' : Chip} (h : chip'.features = chip.features)
    (opcode : UInt16) : ofOpcode? chip' opcode = ofOpcode? chip opcode := by
  simp only [ofOpcode?, ofLine0?, ofLine4?, ofAddressGroup?, ofUnaryGroup?, ofExtensionGroup?,
    ofControlGroup?, h]

/-- An operand has bytes. -/
theorem Size.bytes_ne_zero (size : Size) : size.bytes ≠ 0 := by
  cases size <;> decide

/-- Data is written where the space can be written. -/
theorem writeData_eq (addr : UInt32) (size : Size) (value : UInt32) (m : Machine) :
    writeData addr size value m =
      if m.forbids addr size then .error ⟨.addressError ⟨addr, .write, m.dataSpace⟩, none⟩ m
      else
        match m.space.write addr size.bytes value m.dataSpace with
        | .error e => .error ⟨.busError ⟨addr, .write, m.dataSpace⟩, some e⟩ m
        | .ok space => .ok () { m with space := space } := by
  unfold writeData Space.write
  dsimp only
  split
  · rfl
  · cases m.space.locate addr size.bytes m.dataSpace .write <;> rfl

section Rules

variable {α β : Type} {R : Machine → Machine → Prop} {modes : Bool → Prop} {x y : Exec α}
variable {m m' : Machine}

/-! ### Rules -/

/-- The same value by itself. -/
theorem respects_pure (a : α) : Respects R (pure a) :=
  fun _ _ h => .ok h

/-- The same fault is raised. -/
theorem respects_raise (fault : Fault) : Respects R (raise fault : Exec α) :=
  fun _ _ h => .error rfl h

/-- What comes after a computation may use what is known about its value. -/
theorem Respects.bind_yields {f : α → Exec β} {P : α → Prop} (hx : Respects R x)
    (hyields : Yields x P) (hf : ∀ a, P a → Respects R (f a)) : Respects R (x >>= f) := by
  intro m m' h
  have halike := hx m m' h
  have hvalue := hyields m
  generalize hrun : x m = result, hrun' : x m' = result' at halike
  cases halike with
  | ok hm₁ =>
    rw [bind_of_ok hrun, bind_of_ok hrun']
    exact hf _ (hvalue.of_ok hrun) _ _ hm₁
  | error hfault hm₁ =>
    rw [bind_of_error hrun, bind_of_error hrun']
    exact .error hfault hm₁

/-- A sequence of computations that respect a likeness does. -/
theorem Respects.bind {f : α → Exec β} (hx : Respects R x) (hf : ∀ a, Respects R (f a)) :
    Respects R (x >>= f) :=
  hx.bind_yields (P := fun _ => True) (fun _ => ends_true) fun a _ => hf a

/-- A choice by the same condition. -/
theorem Respects.ite {c : Prop} [Decidable c] (hx : c → Respects R x) (hy : ¬ c → Respects R y) :
    Respects R (if c then x else y) := by
  split
  next h => exact hx h
  next h => exact hy h

namespace Likeness

variable (hR : Likeness modes R)
include hR

/-- Both chips are the first one, or neither is. -/
theorem chip_eq_first (h : R m m') : (m'.chip == .mc68000) = (m.chip == .mc68000) := by
  have hfeatures := hR.features h
  cases hchip : m.chip <;> cases hchip' : m'.chip <;> rw [hchip, hchip'] at hfeatures <;>
    first | rfl | cases hfeatures

/-- The status words have the same bits. -/
theorem statusMask (h : R m m') : m'.chip.statusMask = m.chip.statusMask := by
  rw [Chip.statusMask, Chip.statusMask, hR.features h]

/-- Data is accessed with the same function code. -/
theorem dataSpace (h : R m m') : m'.dataSpace = m.dataSpace := by
  rw [Machine.dataSpace, Machine.dataSpace, hR.registers h]

/-- Programs are accessed with the same function code. -/
theorem programSpace (h : R m m') : m'.programSpace = m.programSpace := by
  rw [Machine.programSpace, Machine.programSpace, hR.registers h]

/-- The same accesses are misaligned. -/
theorem forbids (h : R m m') (addr : UInt32) (size : Size) :
    m'.forbids addr size = m.forbids addr size := by
  rw [Machine.forbids, Machine.forbids, Machine.isMisaligned, Machine.isMisaligned, hR.features h]

/-- After `get` a computation that reads the same from related machines respects what
the rest of it respects. -/
theorem get_bind {f : Machine → Exec β} (hf : ∀ m m', R m m' → f m' = f m)
    (h : ∀ m, modes m.registers.isSupervisor → Respects R (f m)) : Respects R (get >>= f) := by
  intro m m' hm
  change EndsAlike R (f m m) (f m' m')
  rw [hf m m' hm]
  exact h m (hR.mode hm) m m' hm

/-- A change of registers that does not lead out of the modes. -/
theorem modifyRegisters {f : RegisterFile → RegisterFile}
    (hf : ∀ r, modes r.isSupervisor → modes (f r).isSupervisor) :
    Respects R (modifyRegisters f) := by
  intro m m' h
  refine .ok ?_
  dsimp only
  rw [hR.registers h]
  exact hR.withRegisters h (hf _ (hR.mode h))

/-- Registers may change that do not decide about the mode. -/
theorem modifyRegisters_of_mode {f : RegisterFile → RegisterFile}
    (hf : ∀ r, (f r).isSupervisor = r.isSupervisor) : Respects R (Cpu68k.modifyRegisters f) :=
  hR.modifyRegisters fun r hr => (hf r).symm ▸ hr

/-- Both run states become the same. -/
theorem setState (state : RunState) : Respects R (setState state) :=
  fun _ _ h => .ok (hR.withState state h)

/-- Both program counters become the same. -/
theorem setPc (pc : UInt32) : Respects R (setPc pc) :=
  hR.modifyRegisters_of_mode fun _ => rfl

/-- The condition codes of the same result. -/
theorem setLogical (value : UInt32) (size : Size) : Respects R (setLogical value size) :=
  hR.modifyRegisters_of_mode fun r =>
    Status.has_supervisor_of_systemByte (r.sr.recoded_logical value size).system

/-- Condition codes do not change the mode. -/
theorem setCcr (f : RegisterFile → UInt8) :
    Respects R (Cpu68k.modifyRegisters fun r => r.setCcr (f r)) :=
  hR.modifyRegisters_of_mode fun r =>
    Status.has_supervisor_of_systemByte (r.recoded_setCcr _).system

/-- Data registers do not change the mode. -/
theorem setDataReg (n : Fin 8) (f : RegisterFile → UInt32) :
    Respects R (Cpu68k.modifyRegisters fun r => r.setDataReg n (f r)) :=
  hR.modifyRegisters_of_mode fun _ => rfl

/-- Address registers do not change the mode. -/
theorem setAddrReg (n : Fin 8) (f : RegisterFile → UInt32) :
    Respects R (Cpu68k.modifyRegisters fun r => r.setAddrReg n (f r)) :=
  hR.modifyRegisters_of_mode fun _ => RegisterFile.isSupervisor_setAddrReg _ _ _

/-! ### Accesses -/

/-- Loading in one of the modes gives the same value, or fails for both. -/
theorem loadFrom {s : Bool} (hs : modes s) (addr : UInt32) (size : Size) (program : Bool) :
    Respects R (loadFrom addr size (.ofFlags s program)) := by
  intro m m' h
  have hread := hR.read program addr size.bytes .read h hs size.bytes_ne_zero
  unfold Cpu68k.loadFrom Machine.load
  rw [hR.forbids h]
  cases m.forbids addr size with
  | true => exact .error rfl h
  | false =>
    generalize m.space.read addr size.bytes (.ofFlags s program) .read = outcome,
      m'.space.read addr size.bytes (.ofFlags s program) .read = outcome' at hread
    cases hread with
    | ok hvalue => exact hvalue ▸ .ok h
    | error e e' => exact .error rfl h

/-- Data is read in the mode of the machines. -/
theorem readData (addr : UInt32) (size : Size) : Respects R (readData addr size) := by
  intro m m' h
  unfold Cpu68k.readData
  rw [hR.dataSpace h]
  exact hR.loadFrom (hR.mode h) addr size false m m' h

/-- Data next to the program is read in the mode of the machines. -/
theorem readProgram (addr : UInt32) (size : Size) : Respects R (readProgram addr size) := by
  intro m m' h
  unfold Cpu68k.readProgram
  rw [hR.programSpace h]
  exact hR.loadFrom (hR.mode h) addr size true m m' h

/-- Data is written in the mode of the machines. -/
theorem writeData (addr : UInt32) (size : Size) (value : UInt32) :
    Respects R (writeData addr size value) := by
  intro m m' h
  have hwrite := hR.write addr size.bytes value h (hR.mode h) size.bytes_ne_zero
  -- Where the bytes go may differ between the machines, so the write is compared as a whole.
  rw [writeData_eq, writeData_eq, hR.dataSpace h, hR.forbids h]
  cases m.forbids addr size with
  | true => exact .error rfl h
  | false =>
    unfold Machine.dataSpace
    generalize m.space.write addr size.bytes value (.ofFlags m.registers.isSupervisor false) =
      outcome, m'.space.write addr size.bytes value (.ofFlags m.registers.isSupervisor false) =
      outcome' at hwrite
    cases hwrite with
    | ok hspace => exact .ok hspace
    | error e e' => exact .error rfl h

/-- A word of the instruction stream is fetched alike. -/
theorem fetchWord : Respects R fetchWord := by
  intro m m' h
  have hread := hR.read true m.registers.pc 2 .fetch h (hR.mode h) (by decide)
  unfold Cpu68k.fetchWord
  dsimp only
  rw [hR.programSpace h, hR.registers h]
  cases m.registers.pc &&& 1 != 0 with
  | true => exact .error rfl h
  | false =>
    unfold Machine.programSpace
    generalize m.space.read m.registers.pc 2 (.ofFlags m.registers.isSupervisor true) .fetch =
      outcome, m'.space.read m.registers.pc 2 (.ofFlags m.registers.isSupervisor true) .fetch =
      outcome' at hread
    cases hread with
    | ok hvalue => exact hvalue ▸ .ok (hR.withRegisters h (hR.mode h))
    | error e e' => exact .error rfl h

/-- A long is two fetches. -/
theorem fetchLong : Respects R fetchLong :=
  hR.fetchWord.bind fun _ => hR.fetchWord.bind fun _ => respects_pure _

/-- A distance is one fetch. -/
theorem fetchDistance : Respects R fetchDistance :=
  hR.fetchWord.bind fun _ => respects_pure _

/-- The same value is pushed on the same stack. -/
theorem push (size : Size) (value : UInt32) : Respects R (push size value) := by
  unfold Cpu68k.push
  simp only [RegisterFile.setActiveSp_eq]
  exact hR.get_bind (fun _ _ h => by simp only [hR.registers h]) fun _ _ =>
    (hR.writeData _ _ _).bind fun _ => hR.setAddrReg 7 _

/-- The same value is popped from the same stack. -/
theorem pop (size : Size) : Respects R (pop size) := by
  unfold Cpu68k.pop
  simp only [RegisterFile.setActiveSp_eq]
  exact hR.get_bind (fun _ _ h => by simp only [hR.registers h]) fun _ _ =>
    (hR.readData _ _).bind fun _ => (hR.setAddrReg 7 _).bind fun _ => respects_pure _

/-! ### Operands -/

/-- An index word has the same form for both chips. -/
theorem indexedAddress (base : UInt32) : Respects R (indexedAddress base) := by
  refine hR.fetchWord.bind fun word => hR.get_bind
    (fun _ _ h => by simp only [hR.registers h, hR.features h]) fun m _ => ?_
  exact .ite (fun _ => .ite (fun _ => respects_raise _) fun _ => respects_pure _)
    fun _ => respects_pure _

/-- A pointer names the same address. -/
theorem pointerAddress (p : Pointer) : Respects R p.address := by
  cases p with
  | indirect n =>
    exact hR.get_bind (fun _ _ h => by simp only [hR.registers h]) fun _ _ => respects_pure _
  | displaced n =>
    exact hR.fetchDistance.bind fun _ =>
      hR.get_bind (fun _ _ h => by simp only [hR.registers h]) fun _ _ => respects_pure _
  | indexed n =>
    exact hR.get_bind (fun _ _ h => by simp only [hR.registers h]) fun _ _ => hR.indexedAddress _
  | absoluteWord => exact hR.fetchDistance
  | absoluteLong => exact hR.fetchLong

/-- A relative mode names the same address. -/
theorem relativeAddress (r : Relative) : Respects R r.address := by
  cases r with
  | displaced =>
    exact hR.get_bind (fun _ _ h => by simp only [hR.registers h]) fun _ _ =>
      hR.fetchDistance.bind fun _ => respects_pure _
  | indexed =>
    exact hR.get_bind (fun _ _ h => by simp only [hR.registers h]) fun _ _ => hR.indexedAddress _

/-- A control mode names the same address. -/
theorem controlAddress (c : Control) : Respects R c.address := by
  cases c with
  | pointer p => exact hR.pointerAddress p
  | relative r => exact hR.relativeAddress r

/-- A target is resolved to the same place. -/
theorem targetResolve (t : Target) (size : Size) : Respects R (t.resolve size) := by
  cases t with
  | dataReg n | addrReg n => exact respects_pure _
  | postIncrement n | preDecrement n =>
    exact hR.get_bind (fun _ _ h => by simp only [hR.registers h]) fun _ _ =>
      (hR.setAddrReg n _).bind fun _ => respects_pure _
  | pointer p => exact (hR.pointerAddress p).bind fun _ => respects_pure _

/-- The same immediate value is fetched. -/
theorem fetchImmediate (size : Size) : Respects R (fetchImmediate size) := by
  cases size with
  | byte | word => exact hR.fetchWord.bind fun _ => respects_pure _
  | long => exact hR.fetchLong

/-- A mode is resolved to the same operand. -/
theorem modeResolve (mode : Mode) (size : Size) : Respects R (mode.resolve size) := by
  cases mode with
  | target t => exact (hR.targetResolve t size).bind fun _ => respects_pure _
  | relative r => exact (hR.relativeAddress r).bind fun _ => respects_pure _
  | immediate => exact (hR.fetchImmediate size).bind fun _ => respects_pure _

/-- A place has the same value. -/
theorem placeRead (p : Place) (size : Size) : Respects R (p.read size) := by
  cases p with
  | dataReg n | addrReg n =>
    exact hR.get_bind (fun _ _ h => by simp only [hR.registers h]) fun _ _ => respects_pure _
  | memory addr => exact hR.readData addr size

/-- An operand has the same value. -/
theorem operandRead (o : Operand) (size : Size) : Respects R (o.read size) := by
  cases o with
  | place p => exact hR.placeRead p size
  | program addr => exact hR.readProgram addr size
  | constant value => exact respects_pure _

/-- The same value is written to a place. -/
theorem placeWrite (p : Place) (size : Size) (value : UInt32) :
    Respects R (p.write size value) := by
  cases p with
  | dataReg n => exact hR.setDataReg n fun r => size.merge (r.dataReg n) value
  | addrReg n => exact hR.setAddrReg n fun _ => value
  | memory addr => exact hR.writeData addr size value

/-! ### Instructions -/

/-- A branch leads to the same address. -/
theorem branchTarget (distance : UInt8) : Respects R (branchTarget distance) := by
  refine hR.get_bind (fun _ _ h => by simp only [hR.registers h, hR.features h]) fun m _ => ?_
  exact .ite (fun _ => hR.fetchDistance.bind fun _ => respects_pure _) fun _ =>
    .ite (fun _ => hR.fetchLong.bind fun _ => respects_pure _) fun _ => respects_pure _

/-- The same control register is named. -/
theorem controlWord : Respects R controlWord :=
  hR.fetchWord.bind fun _ => respects_pure _

/-- Operands are resolved alike. -/
theorem resolve (i : Instruction) : Respects R i.resolve := by
  have hmode (mode : Mode) (size : Size) {f : Operand → Operation} :
      Respects R (mode.resolve size >>= fun o => pure (f o)) :=
    (hR.modeResolve mode size).bind fun _ => respects_pure _
  have htarget (t : Target) (size : Size) {f : Place → Operation} :
      Respects R (t.resolve size >>= fun p => pure (f p)) :=
    (hR.targetResolve t size).bind fun _ => respects_pure _
  have haddress (c : Control) {f : UInt32 → Operation} :
      Respects R (c.address >>= fun addr => pure (f addr)) :=
    (hR.controlAddress c).bind fun _ => respects_pure _
  cases i with
  | rtd | link => exact hR.fetchDistance.bind fun _ => respects_pure _
  | stop | logicToCcr | logicToSr => exact hR.fetchWord.bind fun _ => respects_pure _
  | linkLong => exact hR.fetchLong.bind fun _ => respects_pure _
  | movepToMemory size data n | movepFromMemory size data n =>
    exact (hR.pointerAddress (.displaced n)).bind fun _ => respects_pure _
  | branch condition distance | branchSubroutine distance =>
    exact (hR.branchTarget distance).bind fun _ => respects_pure _
  | decrementBranch condition n =>
    exact hR.get_bind (fun _ _ h => by simp only [hR.registers h]) fun _ _ =>
      hR.fetchDistance.bind fun _ => respects_pure _
  | jump dst | jumpSubroutine dst | loadAddress dst | pushAddress dst => exact haddress dst
  | move size src dst => exact (hR.modeResolve src size).bind fun _ => htarget dst size
  | setOnTest condition dst => exact htarget dst .byte
  | moveFromSr dst | moveFromCcr dst => exact htarget dst .word
  | clear size dst | negate size dst | complement size dst | fromRegister op size n dst =>
    exact htarget dst size
  | moveAddress size src | test size src | toRegister op size src | toAddress op size src
  | compare size src | compareAddress size src => exact hmode src size
  | moveToCcr src | moveToSr src => exact hmode src .word
  | moveFromControl | moveToControl => exact hR.controlWord.bind fun _ => respects_pure _
  | quick op size value dst =>
    refine (hR.targetResolve dst size).bind fun place => ?_
    cases place <;> exact respects_pure _
  | immediate op size dst => exact (hR.fetchImmediate size).bind fun _ => htarget dst size
  | compareImmediate size dst => exact (hR.fetchImmediate size).bind fun _ => hmode dst size
  | _ => exact respects_pure _

/-! ### Operations -/

/-- A status word is written that keeps the mode in which it was computed. -/
theorem setStatusWord {sr : Status} (hsr : modes (sr.has Status.supervisor)) :
    Respects R (setStatusWord sr) :=
  hR.modifyRegisters fun _ _ => hsr

/-- A result is written and then the condition codes. -/
theorem writeStatus {old sr : Status} (p : Place) (size : Size) (value : UInt32)
    (hold : modes (old.has Status.supervisor)) (hsr : old.Recoded sr) :
    Respects R (p.write size value >>= fun _ => Cpu68k.setStatusWord sr) := by
  refine (hR.placeWrite p size value).bind fun _ => hR.setStatusWord ?_
  rwa [Status.has_supervisor_of_systemByte hsr.system]

/-- A data register is extended alike. -/
theorem widen (n : Fin 8) (source result : Size) : Respects R (widen n source result) :=
  hR.get_bind (fun _ _ h => by simp only [hR.registers h]) fun _ _ =>
    (hR.placeWrite _ _ _).bind fun _ => hR.setLogical _ _

/-- Bytes at every other address are stored alike, one by one. -/
theorem storeAlternate (addr : UInt32) (bs : List UInt32) :
    Respects R (storeAlternate addr bs) := by
  induction bs generalizing addr with
  | nil => exact respects_pure _
  | cons b bs ih => exact (hR.writeData _ _ _).bind fun _ => ih _

/-- Bytes at every other address are loaded alike, one by one. -/
theorem loadAlternate (addr : UInt32) (n : Nat) (value : UInt32) :
    Respects R (loadAlternate addr n value) := by
  induction n generalizing addr value with
  | zero => exact respects_pure _
  | succ n ih => exact (hR.readData _ _).bind fun _ => ih _ _

/-- Frames are linked alike. -/
theorem linkFrame (n : Fin 8) (distance : UInt32) : Respects R (linkFrame n distance) := by
  unfold Cpu68k.linkFrame
  simp only [RegisterFile.setActiveSp_eq]
  exact hR.get_bind (fun _ _ h => by simp only [hR.registers h]) fun _ _ =>
    (hR.writeData _ _ _).bind fun _ => hR.modifyRegisters_of_mode fun _ => by simp

/-- Frames are unlinked alike. -/
theorem unlinkFrame (n : Fin 8) : Respects R (unlinkFrame n) := by
  unfold Cpu68k.unlinkFrame
  simp only [RegisterFile.setActiveSp_eq]
  exact hR.get_bind (fun _ _ h => by simp only [hR.registers h]) fun _ _ =>
    (hR.readData _ _).bind fun _ => hR.modifyRegisters_of_mode fun _ => by simp

/-- Both chips have the control register, or neither has. -/
theorem controlRegister (code : UInt16) : Respects R (controlRegister code) := by
  refine hR.get_bind (fun m m' h => ?_) fun m _ => ?_
  · have hcode : ControlRegister.ofCode? m'.chip code = ControlRegister.ofCode? m.chip code := by
      unfold ControlRegister.ofCode?
      rw [hR.features h]
    simp only [hcode]
  · cases ControlRegister.ofCode? m.chip code with
    | some c => exact respects_pure c
    | none => exact respects_raise _

/-- A return from an exception may lead into any mode. -/
theorem returnFromException (hall : ∀ s, modes s) : Respects R returnFromException := by
  refine hR.get_bind (fun m m' h => ?_) fun m _ => ?_
  · simp only [hR.registers h, hR.features h, hR.statusMask h]
  refine (hR.readData _ _).bind fun sr => (hR.readData _ _).bind fun pc => ?_
  have hlast {f : UInt32 → RegisterFile → RegisterFile} (x : Exec UInt32) (hx : Respects R x) :
      Respects R (x >>= fun length => Cpu68k.modifyRegisters (f length)) :=
    hx.bind fun _ => hR.modifyRegisters fun _ _ => hall _
  refine .ite (fun _ => (hR.readData _ _).bind fun word => ?_) fun _ => ?_
  · cases frameLength? word with
    | some length => exact hlast _ (respects_pure length)
    | none => exact hlast _ (respects_raise _)
  · exact hlast _ (respects_pure 6)

/-- Two registers are exchanged alike. -/
theorem exchange (x y : Register) : Respects R (Operation.exchange x y).effect := by
  have hset (r : RegisterFile) (x : Register) (value : UInt32) :
      (r.set x value).isSupervisor = r.isSupervisor := by
    cases x with
    | data n => rfl
    | addr n => exact r.isSupervisor_setAddrReg n value
  unfold Operation.effect
  exact hR.modifyRegisters_of_mode fun r => (hset _ _ _).trans (hset _ _ _)

/-- Performing an operation, where those of the supervisor are performed in machines that
are alike in both modes. -/
theorem effect (op : Operation) (hsystem : op.isSystem = true → ∀ s, modes s) :
    Respects R op.effect := by
  cases op with
  | nop | reset => exact respects_pure ()
  | illegal | trap => exact respects_raise _
  | trapV =>
    exact hR.get_bind (fun _ _ h => by simp only [hR.registers h]) fun _ _ =>
      .ite (fun _ => respects_raise _) fun _ => respects_pure _
  | rte => exact hR.returnFromException (hsystem rfl)
  | rts => exact (hR.pop .long).bind fun pc => hR.setPc pc
  | rtr =>
    refine (hR.pop .word).bind fun ccr => (hR.pop .long).bind fun pc => ?_
    exact hR.modifyRegisters_of_mode fun r =>
      Status.has_supervisor_of_systemByte (r.recoded_setCcr ccr.toUInt8).system
  | rtd distance =>
    exact (hR.pop .long).bind fun pc => hR.modifyRegisters_of_mode fun r =>
      r.isSupervisor_setActiveSp _
  | stop sr =>
    exact hR.get_bind (fun _ _ h => by simp only [hR.statusMask h]) fun _ _ =>
      (hR.modifyRegisters fun _ _ => hsystem rfl _).bind fun _ => hR.setState _
  | breakpoint n => exact hR.setState _
  | moveQuick value dst => exact (hR.placeWrite _ _ _).bind fun _ => hR.setLogical _ _
  | exchange x y => exact hR.exchange x y
  | swap n =>
    exact hR.get_bind (fun _ _ h => by simp only [hR.registers h]) fun _ _ =>
      (hR.placeWrite _ _ _).bind fun _ => hR.setLogical _ _
  | extend kind n => cases kind <;> exact hR.widen n _ _
  | link n distance => exact hR.linkFrame n distance
  | unlink n => exact hR.unlinkFrame n
  | moveToUsp n =>
    unfold Operation.effect
    exact hR.modifyRegisters_of_mode fun _ => rfl
  | moveFromUsp n => exact hR.setAddrReg n _
  | movepToMemory size data addr =>
    exact hR.get_bind (fun _ _ h => by simp only [hR.registers h]) fun _ _ => hR.storeAlternate _ _
  | movepFromMemory size data addr =>
    exact (hR.loadAlternate _ _ _).bind fun _ => hR.placeWrite _ _ _
  | branch condition target =>
    exact hR.get_bind (fun _ _ h => by simp only [hR.registers h]) fun _ _ =>
      .ite (fun _ => hR.setPc target) fun _ => respects_pure _
  | decrementBranch condition n target =>
    exact hR.get_bind (fun _ _ h => by simp only [hR.registers h]) fun _ _ =>
      .ite (fun _ => (hR.placeWrite _ _ _).bind fun _ =>
        .ite (fun _ => hR.setPc target) fun _ => respects_pure _) fun _ => respects_pure _
  | setOnTest condition dst =>
    exact hR.get_bind (fun _ _ h => by simp only [hR.registers h]) fun _ _ => hR.placeWrite _ _ _
  | jump target => exact hR.setPc target
  | call target =>
    exact hR.get_bind (fun _ _ h => by simp only [hR.registers h]) fun _ _ =>
      (hR.push _ _).bind fun _ => hR.setPc target
  | loadAddress addr n => exact hR.placeWrite (.addrReg n) .long addr
  | pushAddress addr => exact hR.push _ _
  | move size src dst =>
    exact (hR.operandRead src size).bind fun _ => (hR.placeWrite _ _ _).bind fun _ =>
      hR.setLogical _ _
  | moveAddress size src n => exact (hR.operandRead src size).bind fun _ => hR.placeWrite _ _ _
  | clear size dst => exact (hR.placeWrite _ _ _).bind fun _ => hR.setLogical 0 size
  | negate size dst =>
    refine (hR.placeRead dst size).bind fun value => ?_
    exact hR.get_bind (fun _ _ h => by simp only [hR.registers h]) fun m hm =>
      hR.writeStatus dst size _ hm (m.registers.sr.recoded_arithmetic ..)
  | complement size dst =>
    exact (hR.placeRead dst size).bind fun _ => (hR.placeWrite _ _ _).bind fun _ =>
      hR.setLogical _ _
  | test size src => exact (hR.operandRead src size).bind fun _ => hR.setLogical _ _
  | moveFromSr dst | moveFromCcr dst =>
    exact hR.get_bind (fun _ _ h => by simp only [hR.registers h]) fun _ _ => hR.placeWrite _ _ _
  | moveToCcr src =>
    exact (hR.operandRead src .word).bind fun value => hR.setCcr fun _ => value.toUInt8
  | moveToSr src =>
    exact (hR.operandRead src .word).bind fun _ =>
      hR.get_bind (fun _ _ h => by simp only [hR.statusMask h]) fun _ _ =>
        hR.modifyRegisters fun _ _ => hsystem rfl _
  | logicToCcr op value =>
    exact hR.setCcr fun r => (op.onStatus r.ccr.toUInt16 value).toUInt8
  | logicToSr op value =>
    exact hR.get_bind (fun _ _ h => by simp only [hR.statusMask h]) fun _ _ =>
      hR.modifyRegisters fun _ _ => hsystem rfl _
  | moveFromControl code dst =>
    refine (hR.controlRegister code).bind fun c => hR.modifyRegisters_of_mode fun r => ?_
    cases dst with
    | data n => rfl
    | addr n => exact r.isSupervisor_setAddrReg n _
  | moveToControl code src =>
    refine (hR.controlRegister code).bind fun c => hR.modifyRegisters_of_mode fun r => ?_
    cases c <;> rfl
  | binary op size src dst =>
    refine (hR.operandRead src size).bind fun x => (hR.placeRead dst size).bind fun y => ?_
    exact hR.get_bind (fun _ _ h => by simp only [hR.registers h]) fun m hm =>
      hR.writeStatus dst size _ hm (m.registers.sr.recoded_apply ..)
  | arithAddress op size src n => exact (hR.operandRead src size).bind fun _ => hR.setAddrReg n _
  | compare size src dst =>
    refine (hR.operandRead src size).bind fun x => (hR.operandRead dst size).bind fun y => ?_
    exact hR.modifyRegisters_of_mode fun r => Status.has_supervisor_of_systemByte
      (Status.recoded_compareStatus x y size r.sr).system
  | compareAddress size src n =>
    refine (hR.operandRead src size).bind fun x => hR.modifyRegisters_of_mode fun r => ?_
    exact Status.has_supervisor_of_systemByte
      (Status.recoded_compareStatus (size.signExtend x) (r.addrReg n) .long r.sr).system

/-- Every instruction ends alike in machines that are alike. -/
theorem perform (i : Instruction) : Respects R i.perform := by
  refine hR.get_bind (fun m m' h => ?_) fun m hmode => .ite (fun hpermits => ?_) fun _ => ?_
  · have hpermits (s : Bool) : i.privilege.permits m'.chip s = i.privilege.permits m.chip s := by
      unfold Privilege.permits
      rw [hR.chip_eq_first h]
    simp only [hpermits, hR.registers h]
  · refine (hR.resolve i).bind_yields (yields_instruction i) fun op hgives => ?_
    -- An operation of the supervisor is permitted in supervisor mode only, so the machines
    -- are alike there and with it in every mode that the operation may lead to.
    refine hR.effect op fun hsystem s => hR.closed ?_
    rw [hgives.privilege hsystem] at hpermits
    exact hpermits ▸ hmode
  · exact (hR.resolve i).bind fun _ => (hR.modifyRegisters fun _ _ => hmode).bind fun _ =>
      respects_raise _

/-! ### Steps -/

/-- The same opcode is fetched. -/
theorem fetchOpcode : Respects R fetchOpcode := by
  have haddress : Respects R
      (modify fun m => { m with instructionAddress := m.registers.pc } : Exec Unit) := by
    intro m m' h
    have hpc : m'.registers.pc = m.registers.pc := by rw [hR.registers h]
    refine .ok ?_
    dsimp only
    rw [hpc]
    exact hR.withAddress _ h
  have hopcode (opcode : UInt16) : Respects R
      (modify fun m => { m with opcode := opcode } : Exec Unit) :=
    fun _ _ h => .ok (hR.withOpcode opcode h)
  exact haddress.bind fun _ => hR.fetchWord.bind fun opcode => (hopcode opcode).bind fun _ =>
    respects_pure opcode

/-- One instruction, from its opcode on, ends alike in machines that are alike. -/
theorem cycle : Respects R cycle := by
  refine hR.fetchOpcode.bind fun opcode => hR.get_bind (fun m m' h => ?_) fun m _ => ?_
  · simp only [Instruction.ofOpcode?_congr (hR.features h)]
  · cases Instruction.ofOpcode? m.chip opcode with
    | none => exact respects_raise _
    | some i => exact hR.perform i

/-- A step of a machine that enters no exception is one of every machine like it. -/
theorem step (h : R m m') (hstarted : m.state ≠ .startup) (hentry : m.entersException = false) :
    m'.entersException = false ∧ R m.step.val m'.step.val := by
  have hstate := hR.state h
  by_cases hnormal : m.state = .normal
  · have hnormal' : m'.state = .normal := hstate.trans hnormal
    have halike := hR.cycle m m' h
    rw [Machine.entersException_eq hnormal] at hentry
    rw [Machine.entersException_eq hnormal', Machine.step_val hnormal, Machine.step_val hnormal']
    generalize Cpu68k.cycle m = result, Cpu68k.cycle m' = result' at halike hentry ⊢
    cases halike with
    | ok hm₁ => exact ⟨rfl, hm₁⟩
    | @error a b m₁ m₁' hfault hm₁ =>
      -- The faults are the same, so the other machine does not take its fault either.
      have hentry' : b.fault.isTaken m₁'.policy = false := by
        rw [hfault, hR.policy hm₁]
        exact hentry
      refine ⟨hentry', ?_⟩
      simp only [Machine.takeFault_of_not_isTaken hentry, Machine.takeFault_of_not_isTaken hentry']
      exact hR.withState _ hm₁
  · have hstarted' : m'.state ≠ .startup := hstate.symm ▸ hstarted
    have hnormal' : m'.state ≠ .normal := hstate.symm ▸ hnormal
    rw [Machine.entersException, Machine.step_of_not_running hstarted' hnormal',
      Machine.step_of_not_running hstarted hnormal]
    exact ⟨rfl, h⟩

end Likeness

end Rules

end Cpu68k
