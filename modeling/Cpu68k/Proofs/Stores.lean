import Cpu68k.Proofs.Careful
import Cpu68k.Proofs.StatusEffects

/-!
# What instructions store

An instruction writes memory in one of three places: at the one address to which its
target is resolved, on top of the active stack, or at every other address of a `MOVEP`.
`Operation.footprint` is the table of these addresses, which is known before the operation
begins, and `write_footprint` says that a step without a fault changes no other byte. An
instruction that works on a target in memory reads and writes the same address, and the
register of its mode moves once.
-/

namespace Cpu68k

/-! ### Rows of addresses -/

/-- `n` addresses from the first one on, each a distance behind the one before. -/
def strided (distance : UInt32) (n : Nat) (addr : UInt32) : List UInt32 :=
  (List.range n).map fun k => addr + distance * .ofNat k

/-- The addresses of a number. -/
def Size.span (size : Size) : UInt32 → List UInt32 :=
  strided 1 size.bytes.toNat

/-- The addresses of the bytes of a number that has one at every other address. -/
def Size.alternate (size : Size) : UInt32 → List UInt32 :=
  strided 2 size.bytes.toNat

/-- The addresses of a row by their numbers. -/
theorem mem_strided {distance addr a : UInt32} {n : Nat} :
    a ∈ strided distance n addr ↔ ∃ k < n, addr + distance * .ofNat k = a := by
  simp only [strided, List.mem_map, List.mem_range]

example : Size.long.alternate 0xFFFFFFFC = [0xFFFFFFFC, 0xFFFFFFFE, 0, 2] := by decide

namespace Space

variable {s s' : Space} {addrs : List UInt32} {addr len : UInt32} {bytes : List UInt32}

/-- The spaces have one outline, and their bytes agree except at some addresses. -/
structure AgreeExcept (addrs : List UInt32) (s s' : Space) : Prop where
  /-- Every access is decided alike. -/
  outline : s'.outline = s.outline
  /-- Bytes at other addresses, or at none, are the same. -/
  bytes : ∀ p, (∀ addr ∈ addrs, s.spot? addr ≠ some p) → s'.byteAt p = s.byteAt p

/-- A space that has not changed agrees with itself. -/
theorem AgreeExcept.refl (addrs : List UInt32) (s : Space) : AgreeExcept addrs s s :=
  ⟨rfl, fun _ _ => rfl⟩

/-- Equal spaces agree. -/
theorem AgreeExcept.of_eq (h : s' = s) : AgreeExcept addrs s s' :=
  h ▸ .refl addrs s

/-- Outside of a range is except at the row of its addresses. -/
theorem AgreeOutside.agreeExcept (h : AgreeOutside addr len s s') :
    AgreeExcept (strided 1 len.toNat addr) s s' := by
  refine ⟨h.outline, fun p hp => h.bytes p fun k hk => hp (addr + k) (mem_strided.2 ?_)⟩
  refine ⟨k.toNat, UInt32.lt_iff_toNat_lt.1 hk, ?_⟩
  rw [UInt32.ofNat_toNat, UInt32.one_mul]

/-- Storing bytes at every other address changes only these. -/
theorem StoresAlternate.agreeExcept (h : s.StoresAlternate addr bytes s') :
    AgreeExcept (strided 2 bytes.length addr) s s' :=
  ⟨h.outline, fun p hp => h.others p fun k hk => hp _ (mem_strided.2 ⟨k, hk, rfl⟩)⟩

end Space

/-! ### Footprints of operations -/

/-- The addresses that an access of a place names. -/
def Place.footprint (size : Size) : Place → List UInt32
  | dataReg _ | addrReg _ => []
  | memory addr => size.span addr

/-- The addresses that an operation may write, if the active stack pointer is `sp`. -/
def Operation.footprint (sp : UInt32) : Operation → List UInt32
  | call _ | pushAddress _ | link _ _ => Size.long.span (sp - 4)
  | movepToMemory size _ addr => size.alternate addr
  | setOnTest _ dst => dst.footprint .byte
  | moveFromSr dst | moveFromCcr dst => dst.footprint .word
  | move size _ dst | clear size dst | negate size dst | complement size dst
  | binary _ size _ dst => dst.footprint size
  | _ => []

variable {m m₁ m' : Machine} {i : Instruction} {op : Operation} {opcode : UInt16} {chip : Chip}
variable {size : Size} {addr : UInt32} {t : Target} {p : Place} {part : Part}

/-- No numbered register is in memory. -/
theorem Register.part_ne_memory (x : Register) : .memory ≠ x.part := by
  cases x <;> nofun

/-- Alterations of other parts keep the memory. -/
theorem Machine.Alters.space (h : m.Alters part m') (hpart : part ≠ .memory) :
    m'.space = m.space := by
  cases h with
  | store => exact absurd rfl hpart
  | _ => rfl

/-- Operations without memory among their parts write none. -/
theorem ends_space (hparts : .memory ∉ op.parts m.chip) :
    Ends op.effect m (fun _ m' => m'.space = m.space) fun _ _ => True :=
  effect_keeps op (fun hpart halters hsame =>
    (halters.space fun hmemory => hparts (hmemory ▸ hpart)).trans hsame) rfl

/-- Writing a place changes its own bytes only. -/
theorem ends_placeWrite_agrees (p : Place) (size : Size) (value : UInt32) (m : Machine) :
    Ends (p.write size value) m (fun _ m' => m.space.AgreeExcept (p.footprint size) m'.space)
      fun _ _ => True := by
  cases p with
  | dataReg n | addrReg n => exact .refl _ _
  | memory addr =>
    refine ends_writeData.mono_ok fun _ m' h => ?_
    obtain ⟨spot, -, hlocate, rfl⟩ := h
    exact (Space.agreeOutside_setNumberAt hlocate value).agreeExcept

/-- A place is written, and only registers after that. -/
theorem ends_write_modify (p : Place) (size : Size) (value : UInt32) (m : Machine)
    (f : RegisterFile → RegisterFile) :
    Ends (p.write size value >>= fun _ => modifyRegisters f) m
      (fun _ m' => m.space.AgreeExcept (p.footprint size) m'.space) fun _ _ => True :=
  ends_bind.2 (ends_placeWrite_agrees p size value m)

/-- Pushing changes the bytes below the stack pointer only. -/
theorem ends_push_agrees (size : Size) (value : UInt32) (m : Machine) :
    Ends (push size value) m (fun _ m' => m.space.AgreeExcept
      (size.span (m.registers.activeSp - size.bytes)) m'.space) fun _ _ => True :=
  ends_bind.2 (ends_get.2 (ends_write_modify (.memory _) size value m _))

/-- Linking a frame changes the long below the stack pointer only. -/
theorem ends_linkFrame_agrees (n : Fin 8) (distance : UInt32) (m : Machine) :
    Ends (linkFrame n distance) m (fun _ m' => m.space.AgreeExcept
      (Size.long.span (m.registers.activeSp - 4)) m'.space) fun _ _ => True :=
  ends_bind.2 (ends_get.2 (ends_write_modify (.memory _) .long _ m _))

/-- Storing a number at every other address changes only these. -/
theorem ends_storeAlternate_agrees (addr : UInt32) (size : Size) (value : UInt32) (m : Machine) :
    Ends (storeAlternate addr (size.bytesOf value)) m
      (fun _ m' => m.space.AgreeExcept (size.alternate addr) m'.space) fun _ _ => True := by
  have hlength : (size.bytesOf value).length = size.bytes.toNat := by
    cases size <;> rfl
  have hshort : size.bytes.toNat < 2 ^ 31 := by
    cases size <;> decide
  refine (ends_storeAlternate (hlength ▸ hshort)).mono_ok fun _ m' h => ?_
  rw [Size.alternate, ← hlength]
  exact h.2.agreeExcept

/-- An operation changes no byte outside its footprint. -/
theorem ends_footprint (op : Operation) (m : Machine) : Ends op.effect m
    (fun _ m' => m.space.AgreeExcept (op.footprint m.registers.activeSp) m'.space)
    fun _ _ => True := by
  have hnone {op : Operation} (hparts : .memory ∉ op.parts m.chip) : Ends op.effect m
      (fun _ m' => m.space.AgreeExcept (op.footprint m.registers.activeSp) m'.space)
      fun _ _ => True :=
    (ends_space hparts).mono_ok fun _ _ => .of_eq
  cases op with
  | call target =>
    refine ends_bind.2 (ends_get.2 (ends_bind.2 ?_))
    exact (ends_push_agrees .long _ m).mono_ok fun _ _ h => h
  | pushAddress addr => exact ends_push_agrees .long addr m
  | link n distance => exact ends_linkFrame_agrees n distance m
  | movepToMemory size data addr =>
    exact ends_bind.2 (ends_get.2 (ends_storeAlternate_agrees addr size _ m))
  | setOnTest test dst => exact ends_bind.2 (ends_get.2 (ends_placeWrite_agrees dst .byte _ m))
  | moveFromSr dst | moveFromCcr dst =>
    exact ends_bind.2 (ends_get.2 (ends_placeWrite_agrees dst .word _ m))
  | move size src dst =>
    exact ends_operandRead_bind src size fun _ _ => ends_write_modify dst size _ m _
  | clear size dst => exact ends_write_modify dst size 0 m _
  | negate size dst =>
    exact ends_operandRead_bind (.place dst) size fun _ _ =>
      ends_bind.2 (ends_get.2 (ends_write_modify dst size _ m _))
  | complement size dst =>
    exact ends_operandRead_bind (.place dst) size fun _ _ => ends_write_modify dst size _ m _
  | binary op size src dst =>
    exact ends_operandRead_bind src size fun _ _ => ends_operandRead_bind (.place dst) size
      fun _ _ => ends_bind.2 (ends_get.2 (ends_write_modify dst size _ m _))
  | exchange x y => exact hnone (by simp [Operation.parts, Register.part_ne_memory])
  | moveFromControl code dst => exact hnone (by simp [Operation.parts, dst.part_ne_memory])
  | _ => exact hnone (by simp [Operation.parts])

/-! ### Instructions that write memory -/

/-- Whether the instruction may write memory. -/
def Instruction.stores : Instruction → Bool
  | jumpSubroutine _ | branchSubroutine _ | pushAddress _ | link _ | linkLong _
  | movepToMemory _ _ _ => true
  | setOnTest _ dst | moveFromSr dst | moveFromCcr dst | move _ _ dst | clear _ dst
  | negate _ dst | complement _ dst | quick _ _ _ dst | fromRegister _ _ _ dst
  | immediate _ _ dst => dst.isMemory
  | _ => false

/-- A target that is a register names no place in memory. -/
theorem Target.Gives.part_ne_memory (h : t.Gives p) (ht : t.isMemory = false) :
    .memory ≠ p.part := by
  cases h with
  | dataReg | addrReg => nofun
  | _ => cases ht

/-- Other instructions become operations without memory among their parts. -/
theorem Instruction.Gives.memory_not_mem (h : i.Gives op) (hstores : i.stores = false) :
    .memory ∉ op.parts chip := by
  cases h with
  | jumpSubroutine | branchSubroutine | pushAddress | link | linkLong | movepToMemory =>
    cases hstores
  | setOnTest _ h | moveFromSr h | moveFromCcr h =>
    simp [Operation.parts, h.part_ne_memory hstores]
  | move _ _ h | clear _ h | negate _ h | complement _ h | quick _ _ _ h | fromRegister _ _ _ h
  | immediate _ _ _ h => simp [Operation.parts, h.part_ne_memory hstores]
  | toRegister => simp [Operation.parts, Place.part]
  | exchange x y => simp [Operation.parts, Register.part_ne_memory]
  | moveFromControl code dst => simp [Operation.parts, dst.part_ne_memory]
  | _ => simp [Operation.parts]

/-- The footprint can be told from the stack pointer before the instruction: those that
use the stack move no register while they are resolved. -/
theorem Machine.Completes.footprint_eq (h : m.Completes opcode i op m₁ m') :
    op.footprint m₁.registers.activeSp = op.footprint m.registers.activeSp := by
  have hmachine := (resolves_instruction i).of_ok h.resolves
  have hgives := (yields_instruction i _).of_ok h.resolves
  rw [hmachine]
  cases hgives with
  | jumpSubroutine c | pushAddress c => cases c <;> rfl
  | _ => rfl

/-- Resolving operands keeps the memory. -/
theorem Machine.Completes.space_eq (h : m.Completes opcode i op m₁ m') : m₁.space = m.space := by
  rw [(resolves_instruction i).of_ok h.resolves]
  rfl

/-! ### Instructions that work on a target -/

/-- The size and the target of an instruction that reads its target and writes it. -/
def Instruction.updated? : Instruction → Option (Size × Target)
  | negate size dst | complement size dst | quick _ size _ dst | fromRegister _ size _ dst
  | immediate _ size dst => some (size, dst)
  | _ => none

/-- The size and the place of an operation that reads its place and writes it. -/
def Operation.updated? : Operation → Option (Size × Place)
  | negate size dst | complement size dst | binary _ size _ dst => some (size, dst)
  | _ => none

/-- The value `new` that an operation computes from the value `old` of its place. -/
inductive Operation.Computes (m : Machine) : Operation → UInt32 → UInt32 → Prop
  | negate (size dst old) :
    Computes m (.negate size dst) old (Cpu68k.negate old size m.registers.sr).1
  | complement (size dst old) : Computes m (.complement size dst) old (~~~old &&& size.mask)
  | binary (op size dst old) {src x} (hx : Operand.valueIn m size src = .ok x) :
    Computes m (.binary op size src dst) old (op.apply x old size m.registers.sr).1

/-- The address to which `(An)+` and `-(An)` are resolved with some registers. -/
def Target.IsAt (r : RegisterFile) (size : Size) (addr : UInt32) : Target → Prop
  | postIncrement n => addr = r.addrReg n
  | preDecrement n => addr = r.addrReg n - stride n size
  | _ => True

/-- An instruction on a target in memory becomes an operation on an address. -/
theorem Instruction.Gives.updated (h : i.Gives op) (hi : i.updated? = some (size, t))
    (ht : t.isMemory = true) : ∃ addr, op.updated? = some (size, .memory addr) := by
  have hplace {p : Place} (h : t.Gives p) : ∃ addr, p = .memory addr := by
    cases h with
    | dataReg | addrReg => cases ht
    | _ => exact ⟨_, rfl⟩
  cases h with
  | negate _ h | complement _ h | quick _ _ _ h | fromRegister _ _ _ h | immediate _ _ _ h =>
    cases hi
    obtain ⟨addr, rfl⟩ := hplace h
    exact ⟨addr, rfl⟩
  | quickAddress =>
    cases hi
    cases ht
  | _ => cases hi

/-- A value that is written can still be read after the condition codes are set. -/
theorem ends_writeBack (p : Place) (size : Size) (value : UInt32) {f : RegisterFile → Status}
    (hf : ∀ r : RegisterFile, r.sr = m.registers.sr → r.sr.Recoded (f r)) :
    Ends (p.write size value >>= fun _ => modifyRegisters fun r => { r with sr := f r }) m
      (fun _ m' => (Operand.place p).valueIn m' size = .ok (value &&& size.mask))
      fun _ _ => True := by
  rw [ends_bind]
  have hwritten := (ends_placeWrite p size value).and (ends_placeWrite_value p size value m)
  refine hwritten.mono_ok fun _ m' h => ?_
  obtain ⟨hsr, hvalue⟩ := h
  exact (valueIn_recode (hf m'.registers hsr).system).trans hvalue

/-- An operation that works on a place writes there what it computes from the value that
it has read there. -/
theorem ends_update (h : op.updated? = some (size, p)) : Ends op.effect m
    (fun _ m' => ∃ old new, (Operand.place p).valueIn m size = .ok old ∧ op.Computes m old new ∧
      (Operand.place p).valueIn m' size = .ok (new &&& size.mask)) fun _ _ => True := by
  cases op with
  | negate =>
    cases h
    refine ends_operandRead_bind (.place p) size fun old hold => ends_bind.2 (ends_get.2 ?_)
    refine (ends_writeBack p size _ fun r hr => ?_).mono_ok fun _ m' hnew =>
      ⟨old, _, hold, .negate size p old, hnew⟩
    rw [hr]
    exact m.registers.sr.recoded_arithmetic ..
  | complement =>
    cases h
    refine ends_operandRead_bind (.place p) size fun old hold => ?_
    have hcodes (r : RegisterFile) : r.sr.Recoded (r.sr.logical (~~~old &&& size.mask) size) :=
      r.sr.recoded_logical _ size
    exact (ends_writeBack p size _ fun r _ => hcodes r).mono_ok fun _ m' hnew =>
      ⟨old, _, hold, .complement size p old, hnew⟩
  | binary op _ src =>
    cases h
    refine ends_operandRead_bind src size fun x hx => ?_
    refine ends_operandRead_bind (.place p) size fun old hold => ends_bind.2 (ends_get.2 ?_)
    refine (ends_writeBack p size _ fun r hr => ?_).mono_ok fun _ m' hnew =>
      ⟨old, _, hold, .binary op size p old hx, hnew⟩
    rw [hr]
    exact m.registers.sr.recoded_apply ..
  | _ => cases h

/-- The operation leaves the address registers alone if its place is in memory. -/
theorem ends_update_addrReg (h : op.updated? = some (size, .memory addr)) (n : Fin 8) :
    Ends op.effect m (fun _ m' => m'.registers.addrReg n = m.registers.addrReg n)
      fun _ _ => True := by
  have hparts : op.parts m.chip = [.memory, .codes] := by
    cases op with
    | negate | complement | binary =>
      cases h
      rfl
    | _ => cases h
  refine effect_keeps (P := fun m' => m'.registers.addrReg n = m.registers.addrReg n) op
    (fun hpart halters hsame => ?_) rfl
  rw [hparts] at hpart
  cases halters with
  | store => exact hsame
  | codes hsr =>
    -- which stack pointer is active depends on the high byte alone
    rw [← hsame]
    unfold RegisterFile.addrReg RegisterFile.activeSp
    rw [RegisterFile.isSupervisor_of_systemByte hsr.system]
  | data | addr | pc | status | control | stop | breakpoint => simp at hpart

/-- Where the target is that a mode names. -/
theorem ends_target_isAt (t : Target) (size : Size) (m : Machine) : Ends (t.resolve size) m
    (fun p _ => ∀ addr, p = .memory addr → t.IsAt m.registers size addr) fun _ _ => True := by
  cases t with
  | postIncrement n | preDecrement n =>
    unfold Target.resolve
    rw [ends_bind, ends_get, ends_bind, ends_modifyRegisters, ends_pure]
    intro addr haddr
    cases haddr
    rfl
  | _ => exact ends_of (fun _ _ _ _ _ => trivial) fun _ _ _ => trivial

/-- The operation is done at the address to which the mode leads. -/
theorem ends_resolve_isAt (hi : i.updated? = some (size, t)) (m : Machine) :
    Ends i.resolve m (fun op _ => ∀ addr, op.updated? = some (size, .memory addr) →
      t.IsAt m.registers size addr) fun _ _ => True := by
  cases i with
  | negate | complement | fromRegister =>
    cases hi
    refine ends_bind.2 ((ends_target_isAt t size m).mono_ok fun p m' hat => ?_)
    rw [ends_pure]
    intro addr hop
    cases hop
    exact hat addr rfl
  | quick =>
    cases hi
    refine ends_bind.2 ((ends_target_isAt t size m).mono_ok fun p m' hat => ?_)
    cases p with
    | memory a =>
      intro addr hop
      cases hop
      exact hat a rfl
    | dataReg | addrReg => exact nofun
  | immediate =>
    cases hi
    refine ends_bind.2 ((fetches_fetchImmediate size).mono_ok fun value m₁ h => ?_)
    subst h
    refine ends_bind.2 ((ends_target_isAt t size _).mono_ok fun p m' hat => ?_)
    rw [ends_pure]
    intro addr hop
    cases hop
    have hat := hat addr rfl
    -- passing the value has moved the program counter only
    cases t <;> exact hat
  | _ => cases hi

namespace Machine

/-- What an instruction does to a target in memory that it reads and writes, where `m₁` is
the machine in which its operation begins. -/
structure Updates (m m₁ : Machine) (op : Operation) (size : Size) (t : Target) (addr : UInt32)
    (m' : Machine) : Prop where
  /-- The operation is done at the address. -/
  updated : op.updated? = some (size, .memory addr)
  /-- The value that is written there is computed from the value that was there. -/
  value : ∃ old new, m.load addr size m.dataSpace = .ok old ∧ op.Computes m₁ old new ∧
    m'.load addr size m'.dataSpace = .ok (new &&& size.mask)
  /-- The address is the one to which the mode leads before the instruction. -/
  address : t.IsAt m.registers size addr
  /-- The mode has moved its register once, and no other one has moved. -/
  moved : ∀ n, m'.registers.addrReg n = ((Mode.target t).moved size m.registers).addrReg n

/-- The only mode of the instruction is its target. -/
theorem Completes.resolves_target (h : m.Completes opcode i op m₁ m')
    (hi : i.updated? = some (size, t)) : ∃ words, m₁ = (m.fetched opcode).resolved
      ((Mode.target t).moved size (m.fetched opcode).registers) words := by
  have hmodes : i.modes = [.target t] ∧ i.modeSize = size := by
    cases i with
    | negate | complement | quick | fromRegister | immediate =>
      cases hi
      exact ⟨rfl, rfl⟩
    | _ => cases hi
  have hresolved := (resolves_instruction i).of_ok h.resolves
  rw [hmodes.1, hmodes.2] at hresolved
  exact ⟨_, hresolved⟩

/-- A target in memory that is read and written is updated in its place. -/
theorem Completes.updates (h : m.Completes opcode i op m₁ m')
    (hi : i.updated? = some (size, t)) (ht : t.isMemory = true) :
    ∃ addr, m.Updates m₁ op size t addr m' := by
  have hgives := (yields_instruction i _).of_ok h.resolves
  obtain ⟨addr, hop⟩ := hgives.updated hi ht
  obtain ⟨words, hmachine⟩ := h.resolves_target hi
  have hretains := retains_moved (.target t) size (m.fetched opcode).registers
  refine ⟨addr, hop, ?_, (ends_resolve_isAt hi _).of_ok h.resolves addr hop, fun n => ?_⟩
  · obtain ⟨old, new, hold, hcomputes, hnew⟩ := (ends_update hop).of_ok h.performs
    refine ⟨old, new, ?_, hcomputes, hnew⟩
    have hsame : (Operand.place (.memory addr)).valueIn m₁ size =
        (Operand.place (.memory addr)).valueIn m size := by
      refine Operand.valueIn_congr ?_ ?_ ?_ ?_ nofun
      all_goals rw [hmachine]
      · rfl
      · rfl
      · exact isSupervisor_moved _ _ _
      · exact hretains.data
    exact hsame.symm.trans hold
  · rw [(ends_update_addrReg hop n).of_ok h.performs, hmachine]
    have hpc : (Mode.target t).moved size (m.fetched opcode).registers =
        { (Mode.target t).moved size m.registers with pc := m.registers.pc + 2 } :=
      moved_withPc _ _ _ _
    rw [hpc]
    rfl

/-- What a completed instruction writes. -/
structure StoresWithin (m : Machine) (i : Instruction) (op : Operation) (m₁ m' : Machine) :
    Prop where
  /-- Bytes outside the footprint are the same. -/
  footprint : m.space.AgreeExcept (op.footprint m.registers.activeSp) m'.space
  /-- Other instructions leave the memory as it was. -/
  kept : i.stores = false → m'.space = m.space
  /-- A target in memory that is read and written is read and written at one address. -/
  updates : ∀ size t, i.updated? = some (size, t) → t.isMemory = true →
    ∃ addr, m.Updates m₁ op size t addr m'

/-- A completed instruction writes within the footprint of its operation. -/
theorem Completes.storesWithin (h : m.Completes opcode i op m₁ m') :
    m.StoresWithin i op m₁ m' where
  footprint := by
    have hagree := (ends_footprint op m₁).of_ok h.performs
    rwa [h.footprint_eq, h.space_eq] at hagree
  kept hstores := by
    have hgives := (yields_instruction i _).of_ok h.resolves
    have hspace := (ends_space (hgives.memory_not_mem hstores)).of_ok h.performs
    exact hspace.trans h.space_eq
  updates _ _ hi ht := h.updates hi ht

/-- A step without a fault completes an instruction and writes no byte outside the
footprint of its operation, which is known as soon as the operands are resolved. -/
theorem write_footprint (m : Machine) (hstate : m.state = .normal) (hfault : m.fault? = none) :
    ∃ opcode i op m₁, m.Completes opcode i op m₁ m.step.val ∧
      m.StoresWithin i op m₁ m.step.val := by
  obtain ⟨opcode, i, op, m₁, hcompletes⟩ := step_completes hstate hfault
  exact ⟨opcode, i, op, m₁, hcompletes, hcompletes.storesWithin⟩

/-- A machine at a `NOT.W -(A0)`. -/
def complementing : Machine :=
  { Machine.initial .mc68000 .halt (.flat ⟨.general,
      ⟨Array.replicate 32 0 ++ #[0x46, 0x60] ++ Array.replicate 14 0 ++ #[0x12, 0x34] ++
        Array.replicate 14 0⟩⟩) with
    registers := { RegisterFile.initial with
      addr := #v[50, 0, 0, 0, 0, 0, 0], pc := 32, ssp := 64, sr := ⟨0x2000⟩ }
    state := .normal }

/-- A complement in memory under `-(A0)` changes the two bytes below the register, which has
moved once. -/
theorem write_footprint_complementing :
    complementing.state = .normal ∧ complementing.fault? = none ∧
      complementing.space.AgreeExcept [48, 49] complementing.step.val.space ∧
      (∃ op m₁, complementing.Updates m₁ op .word (.preDecrement 0) 48 complementing.step.val) ∧
      complementing.step.val.registers.addrReg 0 = 48 := by
  have hfault : complementing.fault? = none := by decide +kernel
  have hword : complementing.wordAt? complementing.registers.pc = some 0x4660 := by decide +kernel
  have hi : Instruction.ofOpcode? complementing.chip 0x4660 =
      some (.complement .word (.preDecrement 0)) := by decide +kernel
  obtain ⟨opcode, i, op, m₁, hcompletes, hstores⟩ := write_footprint complementing rfl hfault
  cases hword.symm.trans hcompletes.fetches
  cases hi.symm.trans hcompletes.decodes
  obtain ⟨addr, hupdates⟩ := hstores.updates .word (.preDecrement 0) rfl rfl
  have haddr : addr = 48 := hupdates.address.trans (by decide +kernel)
  subst haddr
  refine ⟨rfl, hfault, ?_, ⟨op, m₁, hupdates⟩, (hupdates.moved 0).trans (by decide +kernel)⟩
  have hfootprint : op.footprint complementing.registers.activeSp = [48, 49] := by
    have hop := hupdates.updated
    cases (yields_instruction _ _).of_ok hcompletes.resolves with
    | complement _ h =>
      cases hop
      decide
  exact hfootprint ▸ hstores.footprint

end Machine

end Cpu68k
