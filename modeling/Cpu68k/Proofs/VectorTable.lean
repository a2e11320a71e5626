import Cpu68k.Proofs.Containment
import Cpu68k.Proofs.Likeness

/-!
# The vector table is invisible to user programs

Low memory holds the vectors. Two machines whose protected memories differ there only are
alike in user mode, because every access of a user program to these bytes is refused.
So the two run alike until an exception is entered, and where one of them enters none
neither does the other.
-/

namespace Cpu68k

/-- Two protected regions of the same size that differ at most in their low bytes. -/
structure Region.DiffersBelow (r r' : Region) : Prop where
  /-- The first region is protected. -/
  guarded : r.protection = .lowMemory
  /-- The second region is protected. -/
  guarded' : r'.protection = .lowMemory
  /-- The sizes are the same. -/
  size : r'.size = r.size
  /-- The bytes above are the same. -/
  bytes : ∀ i, lowMemoryLimit ≤ i → r'.byte i = r.byte i

/-- Two memories that are one such region each. -/
inductive Space.DiffersBelow : Space → Space → Prop
  | flat {r r' : Region} (h : r.DiffersBelow r') : DiffersBelow (.flat r) (.flat r')

/-- Two machines that differ at most in the low bytes of their protected memories. -/
structure Machine.DiffersBelow (m m' : Machine) : Prop where
  /-- Everything but the memory is the same. -/
  machine : m' = { m with space := m'.space }
  /-- The memories differ at most below. -/
  space : m.space.DiffersBelow m'.space

namespace Region

variable {r r' : Region} {i : Nat}

namespace DiffersBelow

/-- Two regions may be exchanged. -/
theorem symm (h : r.DiffersBelow r') : r'.DiffersBelow r :=
  ⟨h.guarded', h.guarded, h.size.symm, fun i hi => (h.bytes i hi).symm⟩

/-- The same number may be written to both regions. -/
theorem setNumber (h : r.DiffersBelow r') (i n : Nat) (value : UInt32) :
    (r.setNumber i n value).DiffersBelow (r'.setNumber i n value) where
  guarded := by rw [protection_setNumber, h.guarded]
  guarded' := by rw [protection_setNumber, h.guarded']
  size := by rw [size_setNumber, size_setNumber, h.size]
  bytes j hj := byte_setNumber_congr h.size (h.bytes j hj) i n value

/-- Numbers above the low bytes are the same. -/
theorem number (h : r.DiffersBelow r') (hi : lowMemoryLimit ≤ i) (n : Nat) :
    r'.number i n = r.number i n :=
  number_congr fun k _ => h.bytes (i + k) (by omega)

/-- Both regions allow the same accesses. -/
theorem check (h : r.DiffersBelow r') (offset len : UInt32) (fc : FunctionCode)
    (access : Access) : r'.check offset len fc access = r.check offset len fc access :=
  check_congr (h.guarded'.trans h.guarded.symm) h.size offset len fc access

end DiffersBelow

/-- Bytes below the limit may be any. -/
theorem differsBelow_append {low low' rest : Array UInt8} (h : low.size = lowMemoryLimit)
    (h' : low'.size = lowMemoryLimit) :
    DiffersBelow ⟨.lowMemory, ⟨low ++ rest⟩⟩ ⟨.lowMemory, ⟨low' ++ rest⟩⟩ where
  guarded := rfl
  guarded' := rfl
  size := by simp only [size, ByteArray.size, Array.size_append, h, h']
  bytes i hi := by
    have hlow : low.size ≤ i := by rwa [h]
    have hlow' : low'.size ≤ i := by rwa [h']
    simp only [byte_eq_getD, Array.getElem?_append_right hlow, Array.getElem?_append_right hlow',
      h, h']

/-- A user program is refused the low bytes of a protected region. -/
theorem limit_le_of_check {offset len : UInt32} {fc : FunctionCode} {access : Access}
    (hguarded : r.protection = .lowMemory) (huser : fc.isUser = true)
    (h : r.check offset len fc access = .ok ()) : lowMemoryLimit ≤ offset.toNat := by
  obtain ⟨hallowed, -, -⟩ := check_eq_ok.1 h
  rw [hguarded] at hallowed
  simpa [Protection.denies, huser] using hallowed

end Region

namespace Space.DiffersBelow

variable {s s' : Space}

/-- Two memories may be exchanged. -/
theorem symm (h : s.DiffersBelow s') : s'.DiffersBelow s := by
  cases h with
  | flat h => exact .flat h.symm

/-- The user program reads the same from both memories. -/
theorem read (h : s.DiffersBelow s') {fc : FunctionCode} (huser : fc.isUser = true)
    (addr len : UInt32) (access : Access) :
    OutcomesAlike (fun a b => b = a) (s.read addr len fc access) (s'.read addr len fc access) := by
  cases h with
  | @flat r r' h =>
    unfold Space.read locate
    dsimp only
    rw [h.check]
    cases hcheck : r.check addr len fc access with
    | error e => exact .error e e
    | ok u => exact .ok (h.number (Region.limit_le_of_check h.guarded huser hcheck) _)

/-- Writing does the same to both memories. -/
theorem write (h : s.DiffersBelow s') (addr len value : UInt32) (fc : FunctionCode) :
    OutcomesAlike DiffersBelow (s.write addr len value fc) (s'.write addr len value fc) := by
  cases h with
  | @flat r r' h =>
    unfold Space.write locate
    dsimp only
    rw [h.check]
    cases r.check addr len fc .write with
    | error e => exact .error e e
    | ok u => exact .ok (.flat (h.setNumber _ _ _))

end Space.DiffersBelow

namespace Machine

variable {m m' : Machine}

/-- Two machines may be exchanged. -/
theorem DiffersBelow.symm (h : m.DiffersBelow m') : m'.DiffersBelow m :=
  ⟨by rw [h.machine], h.space.symm⟩

/-- In user mode, machines that differ below are alike. -/
theorem likeness_differsBelow : Likeness (· = false) fun m m' =>
    m.DiffersBelow m' ∧ m.registers.isSupervisor = false where
  registers h := by rw [h.1.machine]
  features h := by rw [h.1.machine]
  state h := by rw [h.1.machine]
  policy h := by rw [h.1.machine]
  mode h := h.2
  closed h := by cases h
  withRegisters h hmode := ⟨⟨by rw [h.1.machine], h.1.space⟩, hmode⟩
  withState state h := ⟨⟨by rw [h.1.machine], h.1.space⟩, h.2⟩
  withOpcode opcode h := ⟨⟨by rw [h.1.machine], h.1.space⟩, h.2⟩
  withAddress addr h := ⟨⟨by rw [h.1.machine], h.1.space⟩, h.2⟩
  read program addr len access h hs _ := by
    subst hs
    exact h.1.space.read (by cases program <;> rfl) addr len access
  write addr len value h _ _ := (h.1.space.write addr len value _).mono
    fun _ _ hspace => ⟨⟨by rw [h.1.machine], hspace⟩, h.2⟩

/-- As long as one of two runs enters no exception, the other enters none and differs at
most below. -/
theorem after_differsBelow (h : m.DiffersBelow m') (hmode : m.registers.isSupervisor = false)
    (hstarted : m.state ≠ .startup) (n : Nat)
    (hentry : ∀ k < n, (m.after k).entersException = false) :
    (∀ k < n, (m'.after k).entersException = false) ∧ (m.after n).DiffersBelow (m'.after n) := by
  induction n with
  | zero => exact ⟨fun k hk => absurd hk (by omega), h⟩
  | succ n ih =>
    -- Without an exception the run stays in user mode, where the likeness holds.
    have hbefore (k : Nat) (hk : k < n) := hentry k (by omega)
    obtain ⟨hentry', hdiffers⟩ := ih hbefore
    obtain ⟨hcontained, hstate⟩ := after_confined hmode hstarted n hbefore
    obtain ⟨hlast, hstep⟩ := likeness_differsBelow.step
      ⟨hdiffers, hcontained.isSupervisor.trans hmode⟩ hstate (hentry n (by omega))
    refine ⟨fun k hk => ?_, hstep.1⟩
    by_cases heq : k = n
    · rwa [heq]
    · exact hentry' k (by omega)

/-- User programs cannot see the vector table. If two machines in user mode differ at most
in the low bytes of their protected memories, and one of them enters no exception in its
first steps, then neither does the other, and afterwards they still differ at most there. -/
theorem vectors_invisible (m m' : Machine) (h : m.DiffersBelow m') (hstate : m.state = .normal)
    (hmode : m.registers.isSupervisor = false) (n : Nat)
    (hentry : (∀ k < n, (m.after k).entersException = false) ∨
      ∀ k < n, (m'.after k).entersException = false) :
    (∀ k < n, (m.after k).entersException = false) ∧
      (∀ k < n, (m'.after k).entersException = false) ∧ (m.after n).DiffersBelow (m'.after n) := by
  have hstarted : m.state ≠ .startup := by
    rw [hstate]
    exact nofun
  have hsame : m'.registers = m.registers ∧ m'.state = m.state := by
    rw [h.machine]
    exact ⟨rfl, rfl⟩
  rcases hentry with hentry | hentry'
  · exact ⟨hentry, after_differsBelow h hmode hstarted n hentry⟩
  · have hmode' : m'.registers.isSupervisor = false := by rwa [hsame.1]
    have hstarted' : m'.state ≠ .startup := by rwa [hsame.2]
    obtain ⟨hentry, hdiffers⟩ := after_differsBelow h.symm hmode' hstarted' n hentry'
    exact ⟨hentry, hentry', hdiffers.symm⟩

/-- A user program above vectors that are all the same: it stores a register and asks for a
breakpoint. -/
def overVectors (filler : UInt8) : Machine :=
  { Machine.initial .mc68020 .halt (.flat ⟨.lowMemory, ⟨Array.replicate lowMemoryLimit filler ++
      #[0x21, 0xC0, 0x04, 0x06, 0x48, 0x4B, 0, 0, 0, 0]⟩⟩) with
    registers := { RegisterFile.initial with pc := 1024, sr := ⟨0⟩ }
    state := .normal }

/-- A user program above different vectors stores a register and stops at its breakpoint, with
the same state left. -/
theorem vectors_invisible_storing :
    (overVectors 0).DiffersBelow (overVectors 1) ∧ (overVectors 0).state = .normal ∧
      (overVectors 0).registers.isSupervisor = false ∧
      ((overVectors 0).after 2).DiffersBelow ((overVectors 1).after 2) ∧
      ((overVectors 0).after 2).state = .breakpoint 3 := by
  have hdiffers : (overVectors 0).DiffersBelow (overVectors 1) :=
    ⟨rfl, .flat (Region.differsBelow_append Array.size_replicate Array.size_replicate)⟩
  have hentry : ∀ k < 2, ((overVectors 0).after k).entersException = false := by decide +kernel
  obtain ⟨-, -, hafter⟩ := vectors_invisible _ _ hdiffers rfl rfl 2 (.inl hentry)
  exact ⟨hdiffers, rfl, rfl, hafter, by decide +kernel⟩

end Machine

end Cpu68k
