import Cpu68k.Proofs.Fetching
import Cpu68k.Proofs.Registers

/-!
# What resolving operands does

Resolving an instruction fetches its extension words and moves the registers of
`(An)+` and `-(An)`. `Resolves` says so exactly: where it succeeds, the program
counter has passed the extension words and each mode has moved its register once.
Where it fails, some of the modes have been resolved and the rest have not; the
fault is that of an access, or an index word in the long form was met.
-/

namespace Cpu68k

/-! ### Extension words -/

namespace Mode

/-- The number of extension words of a mode. -/
def extensionWords (size : Size) : Mode → UInt32
  | target (.pointer (.displaced _)) | target (.pointer (.indexed _))
  | target (.pointer .absoluteWord) | relative _ => 1
  | target (.pointer .absoluteLong) => 2
  | immediate => size.immediateWords
  | _ => 0

/-- Whether the mode has an index register. -/
def isIndexed : Mode → Bool
  | target (.pointer (.indexed _)) | relative .indexed => true
  | _ => false

/-- The registers after the mode has been resolved, apart from the program counter. -/
def moved (size : Size) (r : RegisterFile) : Mode → RegisterFile
  | target (.postIncrement n) => r.setAddrReg n (r.addrReg n + stride n size)
  | target (.preDecrement n) => r.setAddrReg n (r.addrReg n - stride n size)
  | _ => r

end Mode

/-- A control mode as a mode. -/
def Control.mode : Control → Mode
  | pointer p => .target (.pointer p)
  | relative r => .relative r

/-- The number of extension words of several modes. -/
def extensionWords (size : Size) : List Mode → UInt32
  | [] => 0
  | mode :: modes => mode.extensionWords size + extensionWords size modes

/-- The registers after several modes have been resolved from left to right, apart
from the program counter. -/
def movedBy (size : Size) (r : RegisterFile) : List Mode → RegisterFile
  | [] => r
  | mode :: modes => movedBy size (mode.moved size r) modes

namespace Instruction

/-- The addressing modes of an instruction, in the order in which they are resolved. -/
def modes : Instruction → List Mode
  | setOnTest _ dst | clear _ dst | negate _ dst | complement _ dst | moveFromSr dst
  | moveFromCcr dst | quick _ _ _ dst | fromRegister _ _ _ dst | immediate _ _ dst =>
    [.target dst]
  | jump dst | jumpSubroutine dst => [dst.mode]
  | loadAddress src _ | pushAddress src => [src.mode]
  | move _ src dst => [src, .target dst]
  | moveAddress _ src _ | test _ src | moveToCcr src | moveToSr src | toRegister _ _ src _
  | toAddress _ _ src _ | compare _ src _ | compareAddress _ src _ => [src]
  | compareImmediate _ dst => [dst]
  | _ => []

/-- The size at which the addressing modes are resolved. -/
def modeSize : Instruction → Size
  | setOnTest _ _ => .byte
  | move size _ _ | moveAddress size _ _ | clear size _ | negate size _ | complement size _
  | test size _ | quick _ size _ _ | toRegister _ size _ _ | fromRegister _ size _ _
  | immediate _ size _ | toAddress _ size _ _ | compare size _ _ | compareImmediate size _
  | compareAddress size _ _ => size
  | moveFromSr _ | moveFromCcr _ | moveToCcr _ | moveToSr _ => .word
  | _ => .long

/-- The number of extension words in front of those of the addressing modes. -/
def leadingWords (chip : Chip) : Instruction → UInt32
  | rtd | stop | link _ | movepToMemory _ _ _ | movepFromMemory _ _ _ | decrementBranch _ _
  | logicToCcr _ | logicToSr _ | moveFromControl | moveToControl => 1
  | linkLong _ => 2
  | branch _ distance | branchSubroutine distance => branchWords chip distance
  | immediate _ size _ | compareImmediate size _ => size.immediateWords
  | _ => 0

end Instruction

variable {m : Machine}

/-! ### One mode -/

/-- How naming the operand of one mode fails: at an access, or at an index word in
the long form. Only the program counter has moved. -/
structure Mode.Fails (mode : Mode) (m : Machine) (a : Abort) (m' : Machine) : Prop where
  /-- Only the program counter differs. -/
  machine : ∃ pc, m' = m.withPc pc
  /-- An access failed, or the index word of an extended chip is long. -/
  fault : a.fault.cycle?.isSome ∨ a.fault = .illegalInstruction ∧ mode.isIndexed ∧
    m.chip.features.extended ∧ m.HasLongIndex m.registers.pc

/-- The computation names the operand of a mode: it passes the extension words of
the mode and moves its register. -/
def Names {α : Type} (x : Exec α) (mode : Mode) (size : Size) (m : Machine) : Prop :=
  Ends x m
    (fun _ m' => m' = m.resolved (mode.moved size m.registers) (mode.extensionWords size))
    (mode.Fails m)

variable {α : Type} {x : Exec α} {mode : Mode} {size : Size}

/-- Fetching the extension words of a mode without a register of its own. -/
theorem Fetches.names {k : UInt32} (h : Fetches x m k) (hwords : mode.extensionWords size = k)
    (hmoved : mode.moved size m.registers = m.registers) : Names x mode size m := by
  refine h.mono (fun _ m' h => ?_) fun _ _ h => ⟨h.1, .inl h.2⟩
  rw [h, hmoved, hwords]

/-- After `get` a computation names what the rest of it names. -/
theorem names_get_bind {f : Machine → Exec α} (h : Names (f m) mode size m) :
    Names (get >>= f) mode size m := by
  unfold Names at *
  rwa [ends_bind, ends_get]

/-- A function of the operand that is named. -/
theorem Names.map {β : Type} (f : α → β) (h : Names x mode size m) :
    Names (x >>= fun a => pure (f a)) mode size m := by
  unfold Names at *
  rwa [ends_bind]

/-- The index word is fetched first, so it is where the program counter was. -/
theorem names_indexedAddress (base : UInt32) (hindexed : mode.isIndexed = true)
    (hwords : mode.extensionWords size = 1) (hmoved : mode.moved size m.registers = m.registers) :
    Names (indexedAddress base) mode size m := by
  unfold Names indexedAddress
  rw [hwords, hmoved, ends_bind]
  refine ends_fetchWord.mono (fun word m' h => ?_) fun a m' h => ⟨⟨_, h.1⟩, .inl h.2⟩
  obtain ⟨hword, rfl⟩ := h
  rw [ends_bind, ends_get]
  rcases hextended : m.chip.features.extended with _ | _
  · simp [Machine.resolved, hextended]
  · by_cases hlong : (word &&& 0x0100 != 0) = true
    · rw [show (m.resolved m.registers 1).chip.features.extended = true from hextended, if_pos rfl,
        if_pos hlong, ends_raise]
      exact ⟨⟨_, rfl⟩, .inr ⟨rfl, hindexed, hextended, word, hword, by simpa using hlong⟩⟩
    · simp [Machine.resolved, hextended, hlong]

/-- The address of a pointer is named by its words. -/
theorem names_pointer (p : Pointer) : Names p.address (.target (.pointer p)) size m := by
  cases p with
  | indirect n => exact names_get_bind ((fetches_pure _).names rfl rfl)
  | displaced n => exact ((fetches_fetchDistance.map_get _).names rfl rfl)
  | indexed n => exact names_get_bind (names_indexedAddress _ rfl rfl rfl)
  | absoluteWord => exact fetches_fetchDistance.names rfl rfl
  | absoluteLong => exact fetches_fetchLong.names rfl rfl

/-- The address of a relative mode is named by its word. -/
theorem names_relative (r : Relative) : Names r.address (.relative r) size m := by
  cases r with
  | displaced => exact names_get_bind ((fetches_fetchDistance.map _).names rfl rfl)
  | indexed => exact names_get_bind (names_indexedAddress _ rfl rfl rfl)

/-- The address of a control mode is named by its words. -/
theorem names_control (c : Control) : Names c.address c.mode size m := by
  cases c with
  | pointer p => exact names_pointer p
  | relative r => exact names_relative r

/-- Moving the register of a mode without extension words. -/
theorem names_setAddrReg {n : Fin 8} {value : UInt32} (f : Unit → α)
    (hmoved : mode.moved size m.registers = m.registers.setAddrReg n value)
    (hwords : mode.extensionWords size = 0) :
    Names (modifyRegisters (fun r => r.setAddrReg n value) >>= fun u => pure (f u))
      mode size m := by
  have hpc : (m.registers.setAddrReg n value).pc = m.registers.pc + 2 * 0 := by simp
  simp only [Names, ends_bind, ends_modifyRegisters, ends_pure, hmoved, hwords, Machine.resolved,
    ← hpc]

/-- Resolving a target passes its words and moves its register. -/
theorem names_target (t : Target) : Names (t.resolve size) (.target t) size m := by
  cases t with
  | dataReg n => exact (fetches_pure _).names rfl rfl
  | addrReg n => exact (fetches_pure _).names rfl rfl
  | postIncrement n => exact names_get_bind (names_setAddrReg _ rfl rfl)
  | preDecrement n => exact names_get_bind (names_setAddrReg _ rfl rfl)
  | pointer p => exact (names_pointer p).map _

/-- Resolving a mode passes its extension words and moves its register. -/
theorem names_mode (mode : Mode) : Names (mode.resolve size) mode size m := by
  cases mode with
  | target t => exact (names_target t).map _
  | relative r => exact (names_relative r).map _
  | immediate => exact ((fetches_fetchImmediate size).map _).names rfl rfl

/-! ### Several modes -/

/-- How resolving several modes from left to right stops with `before` resolved and
`after` still to come, if it starts with the registers `r` behind `words` words: an
access failed, or the next mode has an index word in the long form, which lies
behind the words fetched so far. -/
structure StopsBetween (size : Size) (r : RegisterFile) (words : UInt32)
    (before after : List Mode) (m : Machine) (a : Abort) (m' : Machine) : Prop where
  /-- The registers have been moved by the modes that were resolved. -/
  machine : ∃ pc, m' = { m with registers := { movedBy size r before with pc := pc } }
  /-- An access failed, or the index word of an extended chip is long. -/
  fault : a.fault.cycle?.isSome ∨ a.fault = .illegalInstruction ∧
    (∃ mode rest, after = mode :: rest ∧ mode.isIndexed) ∧ m.chip.features.extended ∧
    m.HasLongIndex (m.registers.pc + 2 * (words + extensionWords size before))

/-- Resolving several modes stops somewhere between them. -/
def Stops (size : Size) (words : UInt32) (modes : List Mode) (m : Machine) (a : Abort)
    (m' : Machine) : Prop :=
  ∃ before after, modes = before ++ after ∧
    StopsBetween size m.registers words before after m a m'

/-- The computation resolves modes from left to right, behind some extension words
that come first. -/
def Resolves {α : Type} (x : Exec α) (size : Size) (words : UInt32) (modes : List Mode)
    (m : Machine) : Prop :=
  Ends x m
    (fun _ m' => m' = m.resolved (movedBy size m.registers modes)
      (words + extensionWords size modes))
    (Stops size words modes m)

/-- Resolving a mode does not change the mode of the machine. -/
@[simp]
theorem isSupervisor_moved (mode : Mode) (size : Size) (r : RegisterFile) :
    (mode.moved size r).isSupervisor = r.isSupervisor := by
  unfold Mode.moved
  split <;> simp

/-- Resolving a mode retains all but the address registers. -/
theorem retains_moved (mode : Mode) (size : Size) (r : RegisterFile) :
    r.Retains (mode.moved size r) := by
  unfold Mode.moved
  split
  · exact r.retains_setAddrReg _ _
  · exact r.retains_setAddrReg _ _
  · exact .refl r

/-- Resolving modes moves address registers only. -/
theorem retains_movedBy (size : Size) (r : RegisterFile) (modes : List Mode) :
    r.Retains (movedBy size r modes) := by
  induction modes generalizing r with
  | nil => exact .refl r
  | cons mode modes ih => exact (retains_moved mode size r).trans (ih _)

/-- The registers move alike wherever the program counter is. -/
theorem moved_withPc (mode : Mode) (size : Size) (r : RegisterFile) (pc : UInt32) :
    mode.moved size { r with pc := pc } = { mode.moved size r with pc := pc } := by
  unfold Mode.moved
  split
  · exact r.setAddrReg_withPc _ _ pc
  · exact r.setAddrReg_withPc _ _ pc
  · rfl

/-- Several modes move the registers alike wherever the program counter is. -/
theorem movedBy_withPc (size : Size) (r : RegisterFile) (pc : UInt32) (modes : List Mode) :
    movedBy size { r with pc := pc } modes = { movedBy size r modes with pc := pc } := by
  induction modes generalizing r with
  | nil => rfl
  | cons mode modes ih => rw [movedBy, movedBy, moved_withPc, ih]

/-- Without a mode nothing is resolved. -/
theorem resolves_pure (a : α) : Resolves (pure a) size 0 [] m :=
  m.resolved_self.symm

/-- What is left to resolve in a machine with some registers moved and some words
passed, as seen from the machine before that. -/
theorem Resolves.after {k : UInt32} {modes : List Mode} {r : RegisterFile}
    (h : Resolves x size 0 modes (m.resolved r k))
    (hmode : r.isSupervisor = m.registers.isSupervisor) :
    Ends x (m.resolved r k)
      (fun _ m' => m' = m.resolved (movedBy size r modes) (k + extensionWords size modes))
      fun a m' => ∃ before after, modes = before ++ after ∧
        StopsBetween size r k before after m a m' := by
  refine h.mono (fun _ m' h => ?_) fun a m' h => ?_
  · rw [h, Machine.resolved_resolved, UInt32.zero_add]
    simp only [Machine.resolved, movedBy_withPc]
  · obtain ⟨before, after, hsplit, ⟨pc, hpc⟩, hfault⟩ := h
    refine ⟨before, after, hsplit, ⟨pc, ?_⟩, hfault.imp id ?_⟩
    · simp only [hpc, Machine.resolved, movedBy_withPc]
    · rintro ⟨hillegal, hnext, hextended, word, hword, hlong⟩
      have haddr : (m.resolved r k).registers.pc + 2 * (0 + extensionWords size before) =
          m.registers.pc + 2 * (k + extensionWords size before) := by
        change m.registers.pc + 2 * k + 2 * (0 + extensionWords size before) = _
        grind
      have hsame : (m.resolved r k).wordAt? (m.registers.pc +
          2 * (k + extensionWords size before)) = m.wordAt? (m.registers.pc +
            2 * (k + extensionWords size before)) :=
        @Machine.wordAt?_congr m (m.resolved r k) rfl hmode _
      rw [haddr, hsame] at hword
      exact ⟨hillegal, hnext, hextended, word, hword, hlong⟩

/-- After `get` a computation resolves what the rest of it resolves. -/
theorem resolves_get_bind {words : UInt32} {modes : List Mode} {f : Machine → Exec α}
    (h : Resolves (f m) size words modes m) : Resolves (get >>= f) size words modes m := by
  unfold Resolves at *
  rwa [ends_bind, ends_get]

/-- Words are fetched first. -/
theorem Fetches.resolves {β : Type} {f : α → Exec β} {k : UInt32} {modes : List Mode}
    (hx : Fetches x m k)
    (hf : ∀ a, Resolves (f a) size 0 modes (m.resolved m.registers k)) :
    Resolves (x >>= f) size k modes m := by
  refine ends_bind.2 (hx.mono (fun a m' h => ?_) fun a m' h => ?_)
  · subst h
    exact (hf a).after rfl
  · exact ⟨[], modes, rfl, h.1, .inl h.2⟩

/-- The first mode is resolved first. -/
theorem Names.resolves {β : Type} {f : α → Exec β} {modes : List Mode}
    (hx : Names x mode size m)
    (hf : ∀ a, Resolves (f a) size 0 modes
      (m.resolved (mode.moved size m.registers) (mode.extensionWords size))) :
    Resolves (x >>= f) size 0 (mode :: modes) m := by
  refine ends_bind.2 (hx.mono (fun a m' h => ?_) fun a m' h => ?_)
  · subst h
    refine ((hf a).after (isSupervisor_moved _ _ _)).mono (fun _ m' h => ?_) fun a m' h => ?_
    · rw [h, UInt32.zero_add]
      rfl
    · obtain ⟨before, after, hsplit, hmachine, hfault⟩ := h
      refine ⟨mode :: before, after, by rw [hsplit]; rfl, hmachine, ?_⟩
      rwa [UInt32.zero_add]
  · obtain ⟨hmachine, hfault⟩ := h
    refine ⟨[], mode :: modes, rfl, hmachine, hfault.imp id ?_⟩
    rintro ⟨hillegal, hindexed, hextended, hlong⟩
    have hpc : m.registers.pc = m.registers.pc + 2 * (0 + extensionWords size []) := by
      simp [extensionWords]
    refine ⟨hillegal, ⟨mode, modes, rfl, hindexed⟩, hextended, ?_⟩
    rwa [← hpc]

/-- A computation that only names the operand of a mode. -/
theorem Names.resolves_map {β : Type} (f : α → β) (hx : Names x mode size m) :
    Resolves (x >>= fun a => pure (f a)) size 0 [mode] m :=
  hx.resolves fun _ => resolves_pure _

/-- A computation that only fetches words. -/
theorem Fetches.resolves_map {β : Type} {k : UInt32} (f : α → β) (hx : Fetches x m k) :
    Resolves (x >>= fun a => pure (f a)) size k [] m :=
  hx.resolves fun _ => resolves_pure _

/-- Resolving an instruction fetches its leading words and resolves its modes from
left to right. -/
theorem resolves_instruction (i : Instruction) :
    Resolves i.resolve i.modeSize (i.leadingWords m.chip) i.modes m := by
  cases i with
  | rtd => exact fetches_fetchDistance.resolves_map _
  | stop => exact fetches_fetchWord.resolves_map _
  | link n => exact fetches_fetchDistance.resolves_map _
  | linkLong n => exact fetches_fetchLong.resolves_map _
  | logicToCcr op => exact fetches_fetchWord.resolves_map _
  | logicToSr op => exact fetches_fetchWord.resolves_map _
  | movepToMemory size data addr => exact (fetches_fetchDistance.map_get _).resolves_map _
  | movepFromMemory size data addr => exact (fetches_fetchDistance.map_get _).resolves_map _
  | branch test distance => exact (fetches_branchTarget distance).resolves_map _
  | branchSubroutine distance => exact (fetches_branchTarget distance).resolves_map _
  | decrementBranch test n =>
    exact resolves_get_bind (fetches_fetchDistance.resolves_map _)
  | immediate op size dst =>
    exact (fetches_fetchImmediate size).resolves fun _ => (names_target dst).resolves_map _
  | compareImmediate size dst =>
    exact (fetches_fetchImmediate size).resolves fun _ => (names_mode dst).resolves_map _
  | move size src dst =>
    exact (names_mode src).resolves fun _ => (names_target dst).resolves_map _
  | quick op size value dst =>
    refine (names_target dst).resolves fun place => ?_
    cases place <;> exact resolves_pure _
  | jump dst => exact (names_control dst).resolves_map _
  | jumpSubroutine dst => exact (names_control dst).resolves_map _
  | loadAddress src n => exact (names_control src).resolves_map _
  | pushAddress src => exact (names_control src).resolves_map _
  | setOnTest _ dst | clear _ dst | negate _ dst | complement _ dst | moveFromSr dst
  | moveFromCcr dst | fromRegister _ _ _ dst => exact (names_target dst).resolves_map _
  | moveAddress _ src _ | test _ src | moveToCcr src | moveToSr src | toRegister _ _ src _
  | toAddress _ _ src _ | compare _ src _ | compareAddress _ src _ =>
    exact (names_mode src).resolves_map _
  | moveFromControl => exact fetches_controlWord.resolves_map _
  | moveToControl => exact fetches_controlWord.resolves_map _
  | _ => exact resolves_pure _

end Cpu68k
