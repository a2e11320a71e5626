import Cpu68k.Proofs.Computation

/-!
# Fetching extension words

A computation that only fetches passes a known number of words, or fails at an access
somewhere among them. `Fetches` says so, and passes through the parts of a
computation one after the other.
-/

namespace Cpu68k

/-! ### Numbers of words -/

/-- The number of extension words of an immediate value. -/
def Size.immediateWords : Size → UInt32
  | long => 2
  | _ => 1

/-- The number of extension words of a branch with the distance that its opcode
holds. -/
def Instruction.branchWords (chip : Chip) (distance : UInt8) : UInt32 :=
  if distance = 0 then 1
  else if distance = 0xFF ∧ chip.features.extended then 2
  else 0

/-! ### The instruction stream -/

namespace Machine

/-- The word of the instruction stream at an address, if it can be fetched. -/
def wordAt? (m : Machine) (addr : UInt32) : Option UInt16 :=
  if addr &&& 1 != 0 then none
  else
    match m.space.read addr 2 m.programSpace .fetch with
    | .error _ => none
    | .ok value => some value.toUInt16

/-- Whether the word at an address is an index word in the long form. -/
def HasLongIndex (m : Machine) (addr : UInt32) : Prop :=
  ∃ word, m.wordAt? addr = some word ∧ word &&& 0x0100 ≠ 0

/-- The machine with other registers, past a number of extension words. -/
def resolved (m : Machine) (r : RegisterFile) (words : UInt32) : Machine :=
  { m with registers := { r with pc := m.registers.pc + 2 * words } }

/-- No words have been passed. -/
theorem resolved_self (m : Machine) : m.resolved m.registers 0 = m := by
  simp [resolved]

/-- Words passed after other words are passed with them. -/
theorem resolved_resolved (m : Machine) (r r' : RegisterFile) (k k' : UInt32) :
    (m.resolved r k).resolved r' k' = m.resolved r' (k + k') := by
  have hpc : m.registers.pc + 2 * k + 2 * k' = m.registers.pc + 2 * (k + k') := by grind
  simp only [resolved, hpc]

/-- The words of the instruction stream depend on the memory and the mode only. -/
theorem wordAt?_congr {m m' : Machine} (hspace : m'.space = m.space)
    (hmode : m'.registers.isSupervisor = m.registers.isSupervisor) (addr : UInt32) :
    m'.wordAt? addr = m.wordAt? addr := by
  simp only [wordAt?, programSpace, hspace, hmode]

end Machine

variable {m : Machine}

/-- Fetching a word takes the word at the program counter and passes it, or fails and
changes nothing. -/
theorem ends_fetchWord : Ends fetchWord m
    (fun word m' => m.wordAt? m.registers.pc = some word ∧ m' = m.resolved m.registers 1)
    fun a m' => m' = m ∧ a.fault.cycle?.isSome := by
  unfold Ends fetchWord Machine.wordAt?
  by_cases hodd : (m.registers.pc &&& 1 != 0) = true
  · simp [hodd, Fault.cycle?]
  · simp only [hodd]
    cases hread : m.space.read m.registers.pc 2 m.programSpace .fetch with
    | error e => simp [Fault.cycle?]
    | ok value => simp [Machine.resolved]

/-- A word that can be fetched is fetched. -/
theorem fetchWord_eq {word : UInt16} (h : m.wordAt? m.registers.pc = some word) :
    fetchWord m = .ok word (m.resolved m.registers 1) := by
  unfold Machine.wordAt? at h
  unfold fetchWord
  split at h
  · cases h
  next heven =>
    cases hread : m.space.read m.registers.pc 2 m.programSpace .fetch with
    | error e => simp [hread] at h
    | ok value =>
      simp only [hread, Option.some.injEq] at h
      simp [heven, hread, h, Machine.resolved]

/-- A computation that only fetches `k` words: it passes them, or fails at an access
somewhere among them. -/
def Fetches {α : Type} (x : Exec α) (m : Machine) (k : UInt32) : Prop :=
  Ends x m (fun _ m' => m' = m.resolved m.registers k)
    fun a m' => (∃ pc, m' = m.withPc pc) ∧ a.fault.cycle?.isSome

/-- A value by itself fetches nothing. -/
theorem fetches_pure {α : Type} (a : α) : Fetches (pure a) m 0 := m.resolved_self.symm

/-- Fetching a word passes it. -/
theorem fetches_fetchWord : Fetches fetchWord m 1 :=
  ends_fetchWord.mono (fun _ _ h => h.2) fun _ _ h => ⟨⟨_, h.1⟩, h.2⟩

/-- The words of a sequence are those of its parts. -/
theorem Fetches.bind {α β : Type} {x : Exec α} {f : α → Exec β} {k k' : UInt32}
    (hx : Fetches x m k) (hf : ∀ a, Fetches (f a) (m.resolved m.registers k) k') :
    Fetches (x >>= f) m (k + k') := by
  refine ends_bind.2 (hx.mono (fun a m' h => ?_) fun _ _ h => h)
  subst h
  refine (hf a).mono (fun b m' h => ?_) fun e m' h => ⟨?_, h.2⟩
  · rw [h]
    exact m.resolved_resolved _ _ _ _
  · obtain ⟨⟨pc, rfl⟩, -⟩ := h
    exact ⟨pc, rfl⟩

/-- A function of the value fetches no more words. -/
theorem Fetches.map {α β : Type} {x : Exec α} {k : UInt32} (f : α → β) (hx : Fetches x m k) :
    Fetches (x >>= fun a => pure (f a)) m k := by
  have h := hx.bind fun a => fetches_pure (f a)
  rwa [UInt32.add_zero] at h

/-- After `get` a computation fetches what the rest of it fetches. -/
theorem fetches_get_bind {α : Type} {f : Machine → Exec α} {k : UInt32} (h : Fetches (f m) m k) :
    Fetches (get >>= f) m k := by
  unfold Fetches at *
  rwa [ends_bind, ends_get]

/-- A computation that fetches and then reads the registers. -/
theorem Fetches.map_get {α β : Type} {x : Exec α} {k : UInt32} (f : α → Machine → β)
    (hx : Fetches x m k) : Fetches (x >>= fun a => get >>= fun m => pure (f a m)) m k := by
  have h : Fetches (x >>= fun a => get >>= fun m => pure (f a m)) m (k + 0) :=
    hx.bind fun a => fetches_get_bind (fetches_pure _)
  rwa [UInt32.add_zero] at h

/-- A long is two words. -/
theorem fetches_fetchLong : Fetches fetchLong m 2 := by
  have htwo : (2 : UInt32) = 1 + 1 := by decide
  unfold fetchLong
  rw [htwo]
  exact fetches_fetchWord.bind fun _ => fetches_fetchWord.map _

/-- A distance is one word. -/
theorem fetches_fetchDistance : Fetches fetchDistance m 1 := by
  unfold fetchDistance
  exact fetches_fetchWord.map _

/-- An immediate value is the words of its size. -/
theorem fetches_fetchImmediate (size : Size) :
    Fetches (fetchImmediate size) m size.immediateWords := by
  cases size with
  | byte => exact fetches_fetchWord.map _
  | word => exact fetches_fetchWord.map _
  | long => exact fetches_fetchLong

/-- A branch has as many words as the byte in its opcode says. -/
theorem fetches_branchTarget (distance : UInt8) :
    Fetches (branchTarget distance) m (Instruction.branchWords m.chip distance) := by
  unfold branchTarget Instruction.branchWords
  refine fetches_get_bind ?_
  split
  · exact fetches_fetchDistance.map _
  split
  · exact fetches_fetchLong.map _
  · exact fetches_pure _

/-- A control register is named in one word. -/
theorem fetches_controlWord : Fetches controlWord m 1 := by
  unfold controlWord
  exact fetches_fetchWord.map _

end Cpu68k
