import Cpu68k.Proofs.EffectiveAddress
import Cpu68k.Proofs.Stores

/-!
# Instructions on two operands

Addition, subtraction and the bitwise operations have about a dozen encodings: into a data
register, from one, with an immediate value, and with a number in the opcode. One law holds
for all of them. The operands are what the modes denote before the instruction, the
destination receives the result modulo the size, the register of a mode moves one step, and
nothing else changes in the registers. Into an address register the sum or difference has all
32 bits, and the source counts with its sign.
-/

namespace Cpu68k

/-! ### The instructions and their operands -/

/-- Where the first operand of an instruction comes from. -/
inductive Source
  /-- A mode. -/
  | mode (src : Mode)
  /-- A number in the opcode. -/
  | literal (value : UInt32)

namespace Source

/-- The operand that a source denotes with its extension words. -/
def effective? (chip : Chip) (r : RegisterFile) (size : Size) :
    Source → List UInt16 → Option Operand
  | mode src, words => src.effective? chip r size words
  | literal value, [] => some (.constant value)
  | literal _, _ :: _ => none

/-- How far a source moves address register `n`. -/
def motion (size : Size) (n : Fin 8) : Source → Int
  | mode src => src.motion size n
  | literal _ => 0

end Source

namespace Instruction

/-- The operation, the size, the source and the destination of an instruction on two operands
whose destination is a data register or in memory. -/
def twoOperand? : Instruction → Option (Binary × Size × Source × Target)
  | toRegister op size src n => some (op, size, .mode src, .dataReg n)
  | fromRegister op size n dst =>
    if dst.isData then some (op, size, .mode (.target (.dataReg n)), dst) else none
  | immediate op size dst => if dst.isData then some (op, size, .mode .immediate, dst) else none
  | quick op size value dst =>
    if dst.isData then some (.arith op, size, .literal value, dst) else none
  | _ => none

/-- The operation, the size, the source and the destination of an instruction on an address
register. -/
def onAddress? : Instruction → Option (Arith × Size × Source × Fin 8)
  | toAddress op size src n => some (op, size, .mode src, n)
  | quick op size value (.addrReg n) => some (op, size, .literal value, n)
  | _ => none

end Instruction

/-- The operation modulo the size: `d` and then `s`. -/
def Binary.onBits {n : Nat} (op : Binary) (s d : BitVec n) : BitVec n :=
  match op with
  | arith .add => d + s
  | arith .sub => d - s
  | logic .and => d &&& s
  | logic .or => d ||| s
  | logic .eor => d ^^^ s

/-- The exact sum or difference: `d` and then `s`. -/
def Arith.onInts (op : Arith) (s d : Int) : Int :=
  match op with
  | add => d + s
  | sub => d - s

namespace Machine

/-- The registers behind the opcode. -/
def behindOpcode (m : Machine) : RegisterFile :=
  { m.registers with pc := m.registers.pc + 2 }

/-- The words behind the opcode denote a source and then a destination. -/
def HasOperands (m : Machine) (size : Size) (src : Source) (dst : Target) (o : Operand)
    (p : Place) : Prop :=
  ∃ words words', m.HasWords (m.registers.pc + 2) (words ++ words') ∧
    src.effective? m.chip m.behindOpcode size words = some o ∧
    (Mode.target dst).effective? m.chip m.behindOpcode size words' = some (.place p)

/-- What an instruction on two operands does, where `m'` is the machine after it. -/
structure Combines (m : Machine) (op : Binary) (size : Size) (src : Source) (dst : Target)
    (m' : Machine) : Prop where
  /-- The destination holds the result of the values that both operands had before. -/
  value : ∃ o p x y z, m.HasOperands size src dst o p ∧ o.valueIn m size = .ok x ∧
    (Operand.place p).valueIn m size = .ok y ∧ (Operand.place p).valueIn m' size = .ok z ∧
    z.toNat = (op.onBits (size.low x) (size.low y)).toNat
  /-- A destination that is a data register keeps its bits above the size. -/
  above (n : Fin 8) : dst = .dataReg n →
    m'.registers.dataReg n &&& ~~~size.mask = m.registers.dataReg n &&& ~~~size.mask
  /-- No other data register changes. -/
  data (n : Fin 8) : dst ≠ .dataReg n → m'.registers.dataReg n = m.registers.dataReg n
  /-- The register of `(An)+` and `-(An)` has moved by one step, and no other one. -/
  addr (n : Fin 8) : m'.registers.addrReg n = .ofInt ((m.registers.addrReg n).toNat +
    (src.motion size n + (Mode.target dst).motion size n))
  /-- The stack pointer that is not active stays. -/
  inactiveSp : m'.registers.inactiveSp = m.registers.inactiveSp

/-- What an instruction on an address register does. -/
structure CombinesAddress (m : Machine) (op : Arith) (size : Size) (src : Source) (n : Fin 8)
    (m' : Machine) : Prop where
  /-- The register, with the motion of the source, and the source with its sign. -/
  value : ∃ words o x, m.HasWords (m.registers.pc + 2) words ∧
    src.effective? m.chip m.behindOpcode size words = some o ∧ o.valueIn m size = .ok x ∧
    m'.registers.addrReg n = .ofInt (op.onInts (size.low x).toInt
      ((m.registers.addrReg n).toNat + src.motion size n))
  /-- The other address registers move with the source. -/
  others (k : Fin 8) : k ≠ n →
    m'.registers.addrReg k = .ofInt ((m.registers.addrReg k).toNat + src.motion size k)
  /-- The stack pointer that is not active stays. -/
  inactiveSp : m'.registers.inactiveSp = m.registers.inactiveSp
  /-- The data registers stay. -/
  data : m'.registers.data = m.registers.data

end Machine

/-! ### Results -/

section

variable {size : Size} {sr : Status} {src dst : UInt32}

/-- A result has no bits above the size. -/
theorem masked_apply (op : Binary) (src dst : UInt32) (size : Size) (sr : Status) :
    (op.apply src dst size sr).1 &&& size.mask = (op.apply src dst size sr).1 := by
  cases op with
  | arith op =>
    cases op with
    | add => exact masked_add src dst size sr
    | sub => exact masked_sub src dst size sr
  | logic op => simp [Binary.apply, UInt32.and_assoc]

/-- The low bits of a result are the result of the low bits. -/
theorem low_apply (op : Binary) (src dst : UInt32) (size : Size) (sr : Status) :
    size.low (op.apply src dst size sr).1 = op.onBits (size.low src) (size.low dst) := by
  cases op with
  | arith op =>
    cases op with
    | add => exact low_add_fst src dst size sr
    | sub => exact low_sub_fst src dst size sr
  | logic op =>
    cases op with
    | and => simp [Binary.apply, Logic.apply, Binary.onBits, BitVec.and_comm]
    | or => simp [Binary.apply, Logic.apply, Binary.onBits, BitVec.or_comm]
    | eor => simp [Binary.apply, Logic.apply, Binary.onBits, BitVec.xor_comm]

/-- An operation on an address register is the exact one, modulo 2^32. -/
theorem onAddress_eq (op : Arith) (size : Size) (x : UInt32) (y : Int) :
    op.onAddress (size.signExtend x) (.ofInt y) = .ofInt (op.onInts (size.low x).toInt y) := by
  cases op with
  | add => rw [Arith.onAddress, Arith.onInts, UInt32.ofInt_add, size.signExtend_eq_ofInt]
  | sub => rw [Arith.onAddress, Arith.onInts, ofInt_sub, size.signExtend_eq_ofInt]

end

/-! ### Resolving two operands -/

namespace Source

variable {src : Source} {size : Size} {m : Machine}

/-- Resolving a source. -/
def resolve (src : Source) (size : Size) : Exec Operand :=
  match src with
  | mode src => src.resolve size
  | literal value => pure (.constant value)

/-- The number of extension words of a source. -/
def extensionWords (size : Size) : Source → UInt32
  | mode src => src.extensionWords size
  | literal _ => 0

/-- The registers after a source has been resolved, apart from the program counter. -/
def moved (size : Size) (r : RegisterFile) : Source → RegisterFile
  | mode src => src.moved size r
  | literal _ => r

/-- Resolving a source gives the operand that its words denote, passes them and moves its
register. -/
theorem ends_resolve (src : Source) (size : Size) (m : Machine) : Ends (src.resolve size) m
    (fun o m' => ∃ words, m.HasWords m.registers.pc words ∧
      src.effective? m.chip m.registers size words = some o ∧
      words.length = (src.extensionWords size).toNat ∧
      m' = m.resolved (src.moved size m.registers) (src.extensionWords size))
    fun _ _ => True := by
  cases src with
  | literal value => exact ⟨[], trivial, rfl, rfl, m.resolved_self.symm⟩
  | mode src =>
    refine ((spells_mode src).and (names_mode src)).mono_ok fun o m' h => ?_
    obtain ⟨⟨words, hwords, ho⟩, hm'⟩ := h
    exact ⟨words, hwords, ho, Mode.length_of_effective? ho, hm'⟩

/-- A source moves its register by its motion. -/
theorem addrReg_moved_eq (src : Source) (size : Size) (r : RegisterFile) (n : Fin 8) :
    (src.moved size r).addrReg n = .ofInt ((r.addrReg n).toNat + src.motion size n) := by
  cases src with
  | mode src => exact Cpu68k.addrReg_moved_eq src size r n
  | literal value => simp [moved, motion]

/-- A source moves address registers only. -/
theorem retains_moved (src : Source) (size : Size) (r : RegisterFile) :
    r.Retains (src.moved size r) := by
  cases src with
  | mode src => exact Cpu68k.retains_moved src size r
  | literal value => exact .refl r

end Source

namespace Instruction

variable {i : Instruction} {op : Binary} {size : Size} {src : Source} {dst : Target}

/-- All instructions on two operands resolve the source and then the destination. -/
theorem resolve_twoOperand (hi : i.twoOperand? = some (op, size, src, dst)) :
    i.resolve = src.resolve size >>= fun o =>
      dst.resolve size >>= fun p => pure (.binary op size o p) := by
  cases i with
  | toRegister op size src n =>
    cases hi
    rfl
  | fromRegister op size n dst =>
    obtain ⟨-, heq⟩ := Option.ite_none_right_eq_some.1 hi
    cases heq
    rfl
  | immediate op size dst =>
    obtain ⟨-, heq⟩ := Option.ite_none_right_eq_some.1 hi
    cases heq
    simp [resolve, Source.resolve, Mode.resolve]
  | quick op size value dst =>
    obtain ⟨hdata, heq⟩ := Option.ite_none_right_eq_some.1 hi
    cases heq
    cases dst with
    | addrReg n => cases hdata
    | dataReg n | postIncrement n | preDecrement n => rfl
    | pointer p => simp [resolve, Source.resolve, Target.resolve]
  | _ => cases hi

/-- The destination is data, and only a data register is combined with a source that moves
or is an address register. -/
theorem twoOperand?_split (hi : i.twoOperand? = some (op, size, src, dst)) :
    dst.isData = true ∧ ((∃ n, dst = .dataReg n) ∨
      (∀ r, src.moved size r = r) ∧ ∀ n, src ≠ .mode (.target (.addrReg n))) := by
  cases i with
  | toRegister op size src n =>
    cases hi
    exact ⟨rfl, .inl ⟨n, rfl⟩⟩
  | fromRegister | immediate | quick =>
    obtain ⟨hdata, heq⟩ := Option.ite_none_right_eq_some.1 hi
    cases heq
    exact ⟨hdata, .inr ⟨fun _ => rfl, nofun⟩⟩
  | _ => cases hi

/-- All instructions on address registers resolve the source. -/
theorem resolve_onAddress {op : Arith} {n : Fin 8} (hi : i.onAddress? = some (op, size, src, n)) :
    i.resolve = src.resolve size >>= fun o => pure (.arithAddress op size o n) := by
  cases i with
  | toAddress op size src n =>
    cases hi
    rfl
  | quick op size value dst =>
    cases dst with
    | addrReg n =>
      cases hi
      rfl
    | _ => cases hi
  | _ => cases hi

end Instruction

section

variable {chip : Chip} {r : RegisterFile} {size : Size} {words : List UInt16} {n : Fin 8}

/-- A target denotes the place that it names. -/
theorem Target.effective?_eq_some {t : Target} {p : Place} :
    (Mode.target t).effective? chip r size words = some (.place p) ↔
      t.placeOf? chip r size words = some p := by
  rw [← t.placeOf?_eq, Option.map_eq_some_iff]
  simp

/-- A destination that is data is no address register. -/
theorem Target.Gives.ne_addrReg {t : Target} {p : Place} (h : t.Gives p) (ht : t.isData = true)
    (n : Fin 8) : p ≠ .addrReg n := by
  rintro rfl
  cases h
  cases ht

/-- Only an address register denotes an address register. -/
theorem Mode.eq_of_effective?_addrReg {mode : Mode}
    (h : mode.effective? chip r size words = some (.place (.addrReg n))) :
    mode = .target (.addrReg n) := by
  cases mode with
  | target t =>
    cases Target.gives_of_placeOf? (Target.effective?_eq_some.1 h)
    rfl
  | relative p =>
    obtain ⟨sum, -, heq⟩ := Option.map_eq_some_iff.1 h
    cases heq
  | immediate =>
    obtain ⟨number, -, heq⟩ := Option.map_eq_some_iff.1 h
    cases heq

/-- Only the mode of an address register denotes it. -/
theorem Source.eq_of_effective?_addrReg {src : Source}
    (h : src.effective? chip r size words = some (.place (.addrReg n))) :
    src = .mode (.target (.addrReg n)) := by
  cases src with
  | mode src => rw [Mode.eq_of_effective?_addrReg h]
  | literal value => cases words <;> cases h

end

/-- Words behind those that have been passed. -/
theorem Machine.HasWords.append_resolved {m : Machine} {r : RegisterFile} {k : UInt32}
    {words words' : List UInt16} (hwords : m.HasWords m.registers.pc words)
    (hlength : words.length = k.toNat) (hmode : r.isSupervisor = m.registers.isSupervisor)
    (hwords' : (m.resolved r k).HasWords (m.resolved r k).registers.pc words') :
    m.HasWords m.registers.pc (words ++ words') := by
  have hpc : (m.resolved r k).registers.pc = m.registers.pc + 2 * .ofNat words.length := by
    rw [hlength, UInt32.ofNat_toNat]
    rfl
  rw [hpc] at hwords'
  exact Machine.hasWords_append.2 ⟨hwords, hwords'.congr (Machine.wordAt?_congr rfl hmode)⟩

/-- What two operands are resolved to, where `r` are the registers after it, apart from the
program counter. -/
structure Machine.ResolvesBoth (m : Machine) (size : Size) (src : Source) (dst : Target)
    (o : Operand) (p : Place) (r : RegisterFile) : Prop where
  /-- The words at the program counter denote the operands. -/
  words : ∃ words words', m.HasWords m.registers.pc (words ++ words') ∧
    src.effective? m.chip m.registers size words = some o ∧
    (Mode.target dst).effective? m.chip m.registers size words' = some (.place p)
  /-- Only address registers change. -/
  retains : m.registers.Retains r
  /-- The source and the destination have moved. -/
  addr (n : Fin 8) : r.addrReg n = .ofInt ((m.registers.addrReg n).toNat +
    (src.motion size n + (Mode.target dst).motion size n))
  /-- A source that is an address register keeps its value. -/
  steady (n : Fin 8) : o = .place (.addrReg n) → r.addrReg n = m.registers.addrReg n

/-- Resolving an instruction on two operands gives its operation on what its words denote. -/
theorem ends_resolve_twoOperand {i : Instruction} {op : Binary} {size : Size} {src : Source}
    {dst : Target} (hi : i.twoOperand? = some (op, size, src, dst)) (m : Machine) :
    Ends i.resolve m (fun operation m' => ∃ o p r k, operation = .binary op size o p ∧
      m' = m.resolved r k ∧ m.ResolvesBoth size src dst o p r) fun _ _ => True := by
  obtain ⟨-, hsplit⟩ := Instruction.twoOperand?_split hi
  rw [Instruction.resolve_twoOperand hi]
  refine ends_bind.2 ((src.ends_resolve size m).mono_ok fun o m₁ h => ?_)
  obtain ⟨words, hwords, ho, hlength, rfl⟩ := h
  refine ends_bind.2 (((spells_target dst).and (names_target dst)).mono_ok fun p m₂ h => ?_)
  obtain ⟨⟨words', hwords', hp⟩, rfl⟩ := h
  have hretains := src.retains_moved size m.registers
  have hmode : (src.moved size m.registers).isSupervisor = m.registers.isSupervisor := by
    rw [RegisterFile.isSupervisor, hretains.sr]
    rfl
  -- The destination is resolved behind the source. It names the same place as before: either
  -- it is a data register, or the source has moved no register.
  have hplace : dst.placeOf? m.chip m.registers size words' = some p := by
    have hthere : dst.placeOf? m.chip { src.moved size m.registers with
        pc := m.registers.pc + 2 * src.extensionWords size } size words' = some p := hp
    rw [Target.placeOf?_withPc] at hthere
    obtain ⟨n, rfl⟩ | ⟨hstill, -⟩ := hsplit
    · cases words' with
      | nil => exact hthere
      | cons word words' => cases hthere
    · rwa [hstill] at hthere
  refine ⟨o, p, _, _, rfl, m.resolved_resolved _ _ _ _, ?_⟩
  constructor
  · exact ⟨words, words', hwords.append_resolved hlength hmode hwords', ho,
      Target.effective?_eq_some.2 hplace⟩
  · exact (hretains.withPc _).trans (retains_moved _ _ _)
  · intro n
    have hmoved : (m.resolved (src.moved size m.registers)
        (src.extensionWords size)).registers.addrReg n =
          .ofInt ((m.registers.addrReg n).toNat + src.motion size n) :=
      src.addrReg_moved_eq size m.registers n
    rw [addrReg_moved_eq, UInt32.ofInt_add, ofInt_toNat, hmoved, ← UInt32.ofInt_add,
      Int.add_assoc]
  · rintro n rfl
    obtain rfl := Source.eq_of_effective?_addrReg ho
    obtain ⟨k, rfl⟩ | ⟨-, hne⟩ := hsplit
    · rfl
    · exact absurd rfl (hne n)

/-! ### Writing the result -/

/-- Bits above the size are kept. -/
theorem Size.merge_and_not_mask (size : Size) (old value : UInt32) :
    size.merge old value &&& ~~~size.mask = old &&& ~~~size.mask := by
  unfold merge
  refine UInt32.toBitVec_inj.1 (BitVec.eq_of_getLsbD_eq fun i hi => ?_)
  simp only [UInt32.toBitVec_and, UInt32.toBitVec_or, UInt32.toBitVec_not, BitVec.getLsbD_and,
    BitVec.getLsbD_or, BitVec.getLsbD_not]
  grind

namespace RegisterFile

variable {r : RegisterFile} {sr : Status}

/-- The active stack pointer depends on the high byte of the status word alone. -/
theorem addrReg_withStatus (hsr : sr.systemByte = r.sr.systemByte) (n : Fin 8) :
    ({ r with sr := sr } : RegisterFile).addrReg n = r.addrReg n := by
  have hmode : ({ r with sr := sr } : RegisterFile).isSupervisor = r.isSupervisor :=
    isSupervisor_of_systemByte hsr
  unfold addrReg activeSp
  rw [hmode]

/-- Condition codes do not change which stack pointer is not active. -/
theorem inactiveSp_withStatus (hsr : sr.systemByte = r.sr.systemByte) :
    ({ r with sr := sr } : RegisterFile).inactiveSp = r.inactiveSp := by
  have hmode : ({ r with sr := sr } : RegisterFile).isSupervisor = r.isSupervisor :=
    isSupervisor_of_systemByte hsr
  unfold inactiveSp
  rw [hmode]

end RegisterFile

/-- The registers after a value has been written to a place. -/
def Place.stored (size : Size) (value : UInt32) (r : RegisterFile) : Place → RegisterFile
  | dataReg n => r.setDataReg n (size.merge (r.dataReg n) value)
  | addrReg n => r.setAddrReg n value
  | memory _ => r

section

variable {p : Place} {r : RegisterFile} {n : Fin 8}

/-- Data registers that are not the place keep their values. -/
theorem Place.dataReg_stored_of_ne (h : p ≠ .dataReg n) (size : Size) (value : UInt32) :
    (p.stored size value r).dataReg n = r.dataReg n := by
  cases p with
  | dataReg k => exact r.dataReg_setDataReg_of_ne k _ fun heq => h (by rw [heq])
  | addrReg k => rw [RegisterFile.dataReg, stored, (r.retains_setAddrReg k value).data]; rfl
  | memory addr => rfl

/-- Address registers that are not the place keep their values. -/
theorem Place.addrReg_stored_of_ne (h : p ≠ .addrReg n) (size : Size) (value : UInt32) :
    (p.stored size value r).addrReg n = r.addrReg n := by
  cases p with
  | dataReg k | memory addr => rfl
  | addrReg k => exact r.addrReg_setAddrReg_of_ne k value fun heq => h (by rw [heq])

/-- Writing a place keeps the stack pointer that is not active. -/
theorem Place.inactiveSp_stored (p : Place) (r : RegisterFile) (size : Size) (value : UInt32) :
    (p.stored size value r).inactiveSp = r.inactiveSp := by
  cases p with
  | dataReg k | memory addr => rfl
  | addrReg k => exact (r.retains_setAddrReg k value).inactiveSp

/-- Writing a place keeps the status word. -/
theorem Place.sr_stored (p : Place) (r : RegisterFile) (size : Size) (value : UInt32) :
    (p.stored size value r).sr = r.sr := by
  cases p with
  | dataReg k | memory addr => rfl
  | addrReg k => exact r.sr_setAddrReg k value

end

/-- Writing a place stores the value in its register, if it has one. -/
theorem ends_placeWrite_registers (p : Place) (size : Size) (value : UInt32) (m : Machine) :
    Ends (p.write size value) m (fun _ m' => m'.registers = p.stored size value m.registers)
      fun _ _ => True := by
  cases p with
  | dataReg n | addrReg n => exact rfl
  | memory addr =>
    refine ends_writeData.mono_ok fun _ m' h => ?_
    obtain ⟨spot, -, -, rfl⟩ := h
    rfl

/-- The result and the condition codes are all that an operation on two operands changes. -/
theorem ends_binary_registers (op : Binary) (size : Size) (o : Operand) (p : Place)
    (m : Machine) : Ends (Operation.binary op size o p).effect m (fun _ m' => ∃ value sr,
      sr.systemByte = m.registers.sr.systemByte ∧
      m'.registers = { p.stored size value m.registers with sr := sr }) fun _ _ => True := by
  refine ends_operandRead_bind o size fun x _ => ?_
  refine ends_operandRead_bind (.place p) size fun y _ => ends_bind.2 (ends_get.2 ?_)
  refine ends_bind.2 ((ends_placeWrite_registers p size _ m).mono_ok fun _ m₁ h => ?_)
  rw [ends_setStatusWord, h]
  exact ⟨_, _, (Status.recoded_apply op x y size m.registers.sr).system, rfl⟩

namespace Machine

variable {m m₁ m' : Machine} {opcode : UInt16} {i : Instruction} {operation : Operation}
variable {size : Size} {src : Source}

/-- Values are the same before the opcode is fetched and after the operands are resolved. -/
theorem valueIn_resolved_fetched {o : Operand} {r : RegisterFile} {k : UInt32}
    (hretains : m.registers.Retains r)
    (haddr : ∀ n, o = .place (.addrReg n) → r.addrReg n = m.registers.addrReg n) :
    o.valueIn ((m.fetched opcode).resolved r k) size = o.valueIn m size :=
  Operand.valueIn_congr rfl rfl (congrArg (·.has Status.supervisor) hretains.sr) hretains.data
    haddr

/-- An instruction on two operands that completes combines them. -/
theorem Completes.combines {op : Binary} {dst : Target}
    (h : m.Completes opcode i operation m₁ m')
    (hi : i.twoOperand? = some (op, size, src, dst)) : m.Combines op size src dst m' := by
  obtain ⟨o, p, r, k, rfl, rfl, hboth⟩ := (ends_resolve_twoOperand hi _).of_ok h.resolves
  obtain ⟨words, words', hwords, ho, hp⟩ := hboth.words
  have hgives := Target.gives_of_placeOf? (Target.effective?_eq_some.1 hp)
  have hretains : m.registers.Retains r :=
    ((RegisterFile.Retains.refl m.registers).withPc _).trans hboth.retains
  have hdata (n : Fin 8) : r.dataReg n = m.registers.dataReg n := by
    rw [RegisterFile.dataReg, hretains.data]
    rfl
  have hplain := hgives.ne_addrReg (Instruction.twoOperand?_split hi).1
  obtain ⟨value, sr, hsr, hregisters⟩ := (ends_binary_registers op size o p _).of_ok h.performs
  have hsr' (value : UInt32) : sr.systemByte = (p.stored size value
      ((m.fetched opcode).resolved r k).registers).sr.systemByte := by
    rw [Place.sr_stored, hsr]
  constructor
  · obtain ⟨y, new, hy, hcomputes, hz⟩ := (ends_update rfl).of_ok h.performs
    cases hcomputes with
    | binary _ _ _ _ hx =>
      rename_i x
      rw [valueIn_resolved_fetched hretains hboth.steady] at hx
      rw [valueIn_resolved_fetched hretains fun n heq =>
        absurd (Operand.place.inj heq) (hplain n)] at hy
      refine ⟨o, p, x, y, _, ⟨words, words', hwords.congr (wordAt?_congr rfl rfl), ho, hp⟩, hx,
        hy, hz, ?_⟩
      rw [masked_apply, ← Size.toNat_low_of_masked (masked_apply ..), low_apply]
  · rintro n rfl
    cases hgives
    have hset := r.dataReg_setDataReg n (size.merge (r.dataReg n) value)
    rw [hregisters, ← hdata n, ← size.merge_and_not_mask (r.dataReg n) value, ← hset]
    rfl
  · intro n hn
    have hother : p ≠ .dataReg n := by
      rintro rfl
      cases hgives
      exact hn rfl
    rw [hregisters, ← hdata n]
    exact Place.dataReg_stored_of_ne hother size value
  · intro n
    rw [hregisters, RegisterFile.addrReg_withStatus (hsr' value),
      Place.addrReg_stored_of_ne (hplain n)]
    exact hboth.addr n
  · rw [hregisters, RegisterFile.inactiveSp_withStatus (hsr' value), Place.inactiveSp_stored]
    exact hretains.inactiveSp

/-- An instruction on an address register that completes combines it with the source. -/
theorem Completes.combinesAddress {op : Arith} {n : Fin 8}
    (h : m.Completes opcode i operation m₁ m')
    (hi : i.onAddress? = some (op, size, src, n)) : m.CombinesAddress op size src n m' := by
  have hresolves := h.resolves
  rw [Instruction.resolve_onAddress hi] at hresolves
  obtain ⟨o, m₂, hsrc, hpure⟩ := exists_of_bind_ok hresolves
  cases hpure
  obtain ⟨words, hwords, ho, -, rfl⟩ := (src.ends_resolve size _).of_ok hsrc
  obtain ⟨x, m₃, hread, hset⟩ := exists_of_bind_ok (x := o.read size) h.performs
  obtain ⟨hx, rfl⟩ := operandRead_eq_ok.1 hread
  cases hset
  have hretains : m.registers.Retains (src.moved size (m.fetched opcode).registers) :=
    ((RegisterFile.Retains.refl m.registers).withPc _).trans (src.retains_moved size _)
  have haddr := src.addrReg_moved_eq size (m.fetched opcode).registers
  -- A source that is an address register has no motion, so it still holds its value.
  have hsteady (k : Fin 8) (hk : o = .place (.addrReg k)) :
      (src.moved size (m.fetched opcode).registers).addrReg k = m.registers.addrReg k := by
    subst hk
    obtain rfl := Source.eq_of_effective?_addrReg ho
    rfl
  rw [valueIn_resolved_fetched hretains hsteady] at hx
  have hset := RegisterFile.retains_setAddrReg ((m.fetched opcode).resolved
    (src.moved size (m.fetched opcode).registers) (src.extensionWords size)).registers n
  constructor
  · refine ⟨words, o, x, hwords.congr (wordAt?_congr rfl rfl), ho, hx, ?_⟩
    refine (RegisterFile.addrReg_setAddrReg _ n _).trans ?_
    exact (congrArg (op.onAddress _) (haddr n)).trans (onAddress_eq op size x _)
  · intro k hk
    exact (RegisterFile.addrReg_setAddrReg_of_ne _ n _ hk).trans (haddr k)
  · exact (hset _).inactiveSp.trans hretains.inactiveSp
  · exact (hset _).data.trans hretains.data

/-- A step without a fault that executes an instruction on two operands combines the values
that the operands had before it, at every size and in every mode. -/
theorem step_combines (m : Machine) (i : Instruction) (hstate : m.state = .normal)
    (hfault : m.fault? = none) (hi : m.instruction? = some i) :
    (∀ op size src dst, i.twoOperand? = some (op, size, src, dst) →
      m.Combines op size src dst m.step.val) ∧
    (∀ op size src n, i.onAddress? = some (op, size, src, n) →
      m.CombinesAddress op size src n m.step.val) := by
  obtain ⟨opcode, i', operation, m₁, hcompletes⟩ := step_completes hstate hfault
  obtain rfl : i' = i := Option.some.inj (hcompletes.instruction?.symm.trans hi)
  exact ⟨fun op size src dst h => hcompletes.combines h,
    fun op size src n h => hcompletes.combinesAddress h⟩

/-- A machine at a `SUB.W (A0)+,D1`, with 3 in memory and 1 in the low word of `D1`. -/
def subtracting : Machine :=
  { Machine.initial .mc68000 .halt (.flat ⟨.general,
      ⟨Array.replicate 32 0 ++ #[0x92, 0x58] ++ Array.replicate 18 0 ++ #[0, 3] ++
        Array.replicate 10 0⟩⟩) with
    registers := { RegisterFile.initial with
      data := #v[0, 0x12340001, 0, 0, 0, 0, 0, 0]
      addr := #v[52, 0, 0, 0, 0, 0, 0], pc := 32, ssp := 64, sr := ⟨0x2000⟩ }
    state := .normal }

/-- The word 3 in memory is subtracted from the low word 1 of a data register, whose high word
stays, and the address register takes its step. -/
theorem step_combines_subtracting :
    subtracting.state = .normal ∧ subtracting.fault? = none ∧
      subtracting.instruction? =
        some (.toRegister (.arith .sub) .word (.target (.postIncrement 0)) 1) ∧
      subtracting.Combines (.arith .sub) .word (.mode (.target (.postIncrement 0))) (.dataReg 1)
        subtracting.step.val ∧
      subtracting.step.val.registers.dataReg 1 &&& ~~~0xFFFF = 0x12340000 ∧
      subtracting.step.val.registers.addrReg 0 = 54 := by
  have hfault : subtracting.fault? = none := by decide +kernel
  have hi : subtracting.instruction? =
      some (.toRegister (.arith .sub) .word (.target (.postIncrement 0)) 1) := by decide +kernel
  have hcombines := (step_combines subtracting _ rfl hfault hi).1 _ _ _ _ rfl
  exact ⟨rfl, hfault, hi, hcombines, (hcombines.above 1 rfl).trans (by decide),
    (hcombines.addr 0).trans (by decide)⟩

end Machine

end Cpu68k
