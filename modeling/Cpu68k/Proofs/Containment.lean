import Cpu68k.Proofs.Stepping

/-!
# Containment of user programs

A user program cannot reach the state of the supervisor: no instruction that it may
perform changes the high byte of the status word, the supervisor's registers or the
guarded bytes of low memory. This is an invariant of the elementary alterations, so it
holds of every instruction and, until an exception is entered, of every run. The only
way into supervisor mode is through a vector.
-/

namespace Cpu68k

/-- A space guards the low bytes of its protected regions. -/
def Space.Guards (s : Space) (spot : Spot) : Prop :=
  spot.offset < lowMemoryLimit ∧
    ∃ region, s.region? spot.index = some region ∧ region.protection = .lowMemory

/-- What is guarded depends on the outline of the memory only. -/
theorem Space.Guards.congr {s s' : Space} {spot : Spot} (h : s'.outline = s.outline)
    (hguards : s'.Guards spot) : s.Guards spot := by
  obtain ⟨hlow, region', hregion', hprotection⟩ := hguards
  rw [region?_eq] at hregion'
  obtain ⟨p', hp', rfl⟩ := Option.map_eq_some_iff.1 hregion'
  obtain ⟨p, hp, houtline⟩ := exists_placed? h hp'
  refine ⟨hlow, p.region, by rw [region?_eq, hp]; rfl, ?_⟩
  rw [← hprotection]
  exact congrArg Outline.protection houtline

/-- The control registers: the vector base, the two function codes and the cache
control. -/
def RegisterFile.control (r : RegisterFile) : UInt32 × UInt8 × UInt8 × UInt32 :=
  (r.vbr, r.sfc, r.dfc, r.cacr)

/-- What a user program leaves alone. -/
structure Machine.Contained (m m' : Machine) : Prop where
  /-- The chip. -/
  chip : m'.chip = m.chip
  /-- The high byte of the status word. -/
  systemByte : m'.registers.sr.systemByte = m.registers.sr.systemByte
  /-- The supervisor's stack pointer. -/
  ssp : m'.registers.ssp = m.registers.ssp
  /-- The control registers. -/
  control : m'.registers.control = m.registers.control
  /-- The places and protections of the regions. -/
  outline : m'.space.outline = m.space.outline
  /-- The low bytes of protected regions. -/
  guarded : ∀ spot, m.space.Guards spot → m'.space.byteAt spot = m.space.byteAt spot

namespace Machine

variable {m m' m'' : Machine} {a : Abort}

/-- A machine that has not changed is contained. -/
theorem Contained.refl (m : Machine) : m.Contained m :=
  ⟨rfl, rfl, rfl, rfl, rfl, fun _ _ => rfl⟩

/-- Containment goes on from one change to the next. -/
theorem Contained.trans (h : m.Contained m') (h' : m'.Contained m'') : m.Contained m'' where
  chip := h'.chip.trans h.chip
  systemByte := h'.systemByte.trans h.systemByte
  ssp := h'.ssp.trans h.ssp
  control := h'.control.trans h.control
  outline := h'.outline.trans h.outline
  guarded spot hspot :=
    (h'.guarded spot (hspot.congr h.outline.symm)).trans (h.guarded spot hspot)

/-- A contained program stays in its mode. -/
theorem Contained.isSupervisor (h : m.Contained m') :
    m'.registers.isSupervisor = m.registers.isSupervisor :=
  RegisterFile.isSupervisor_of_systemByte h.systemByte

/-- The stack pointer that a user sets is not the supervisor's. -/
theorem contained_of_addr (hmode : m.registers.isSupervisor = false) (n : Fin 8)
    (value : UInt32) : m.Contained { m with registers := m.registers.setAddrReg n value } := by
  obtain ⟨addr, usp, ssp, heq, hssp, -⟩ := m.registers.setAddrReg_eq n value
  rw [heq]
  exact ⟨rfl, rfl, hssp hmode, rfl, rfl, fun _ _ => rfl⟩

/-- Where a user may access memory, guarded bytes of the same region lie below. -/
theorem guarded_lt_of_locate {s : Space} {addr len : UInt32} {fc : FunctionCode} {access : Access}
    {spot p : Spot} (huser : fc.isUser = true) (h : s.locate addr len fc access = .ok spot)
    (hp : s.Guards p) (hindex : p.index = spot.index) : p.offset < spot.offset := by
  obtain ⟨hlow, region, hregion, hprotection⟩ := hp
  obtain ⟨placed, -, hplaced, hcheck, hoffset⟩ := Space.locate_eq_ok.1 h
  obtain ⟨hallowed, -, -⟩ := Region.check_eq_ok.1 hcheck
  have hsame : placed.region = region := by
    rw [Space.region?_eq, hindex, hplaced] at hregion
    exact Option.some.inj hregion
  rw [hsame, hprotection] at hallowed
  simp only [Protection.denies, huser, Bool.true_or, Bool.and_true,
    decide_eq_false_iff_not] at hallowed
  omega

/-- A user program may not write to guarded bytes. -/
theorem contained_of_store {addr : UInt32} {size : Size} {spot : Spot} (value : UInt32)
    (hmode : m.registers.isSupervisor = false)
    (h : m.space.locate addr size.bytes m.dataSpace .write = .ok spot) :
    m.Contained { m with space := m.space.setNumberAt spot size.bytes.toNat value } := by
  have huser : m.dataSpace.isUser = true := by
    rw [dataSpace, hmode]
    rfl
  refine ⟨rfl, rfl, rfl, rfl, Space.outline_setNumberAt _ _ _, fun p hp => ?_⟩
  exact Space.byteAt_setNumberAt_of_outside value fun hindex =>
    .inl (guarded_lt_of_locate huser h hp hindex)

/-- Elementary alterations of a user program are contained. -/
theorem Alters.contained {part : Part} (hmode : m.registers.isSupervisor = false)
    (hpart : part.isSystem = false) (h : m.Alters part m') : m.Contained m' := by
  cases h with
  | addr n value => exact contained_of_addr hmode n value
  | codes h => exact ⟨rfl, h.system, rfl, rfl, rfl, fun _ _ => rfl⟩
  | store value h => exact contained_of_store value hmode h
  | data | pc | stop | breakpoint => exact ⟨rfl, rfl, rfl, rfl, rfl, fun _ _ => rfl⟩
  | status | control => cases hpart

/-- No elementary alteration leads back to the start. -/
theorem Alters.state_ne {part : Part} (h : m.Alters part m') (hstate : m.state ≠ .startup) :
    m'.state ≠ .startup := by
  cases h with
  | breakpoint | stop => exact nofun
  | _ => exact hstate

/-! ### Steps and runs -/

/-- The invariant of a user program: it is contained, and the machine has started. -/
structure Confined (m m' : Machine) : Prop where
  /-- The state of the supervisor is the same. -/
  contained : m.Contained m'
  /-- The reset exception is not to come. -/
  started : m'.state ≠ .startup

/-- A cycle of a user program is confined however it ends. -/
theorem cycle_confined (hmode : m.registers.isSupervisor = false) (hstate : m.state ≠ .startup) :
    Ends cycle m (fun _ m' => m.Confined m') fun _ m' => m.Confined m' := by
  have hrecorded : m.Confined { m with instructionAddress := m.registers.pc } :=
    ⟨⟨rfl, rfl, rfl, rfl, rfl, fun _ _ => rfl⟩, hstate⟩
  have hfetched (opcode : UInt16) : m.Confined (m.fetched opcode) :=
    ⟨⟨rfl, rfl, rfl, rfl, rfl, fun _ _ => rfl⟩, hstate⟩
  refine cycle_keeps (P := m.Confined) hrecorded hfetched
    fun {opcode i part m₁ m₂} _ hpart halters hconfined => ?_
  have huser : part.isSystem = false := by
    refine Bool.eq_false_iff.2 fun hsystem => ?_
    have hsupervisor : m.registers.isSupervisor = true := hpart.isSupervisor hsystem
    rw [hsupervisor] at hmode
    cases hmode
  have hmode₁ := hconfined.contained.isSupervisor.trans hmode
  exact ⟨hconfined.contained.trans (halters.contained hmode₁ huser),
    halters.state_ne hconfined.started⟩

/-- A step of a user program that enters no exception is contained. -/
theorem step_confined (hmode : m.registers.isSupervisor = false) (hstate : m.state ≠ .startup)
    (hentry : m.entersException = false) : m.Confined m.step.val := by
  by_cases hnormal : m.state = .normal
  · have hcycle := cycle_confined hmode hstate
    rw [entersException_eq hnormal] at hentry
    rw [step_val hnormal]
    cases hrun : cycle m with
    | ok u m' => exact hcycle.of_ok hrun
    | error a m' =>
      rw [hrun] at hentry
      have hconfined := hcycle.of_error hrun
      simp only [takeFault_of_not_isTaken hentry]
      refine ⟨hconfined.contained.trans ?_, nofun⟩
      exact ⟨rfl, rfl, rfl, rfl, rfl, fun _ _ => rfl⟩
  · rw [step_of_not_running hstate hnormal]
    exact ⟨Contained.refl m, hstate⟩

/-- What the supervisor relies on after a step that enters an exception: the control
registers are the same, and the machine has gone through the vector of the fault or
has halted. -/
structure EntersSupervisor (m m' : Machine) : Prop where
  /-- The step has entered an exception. -/
  entry : m.entersException = true
  /-- The control registers. -/
  control : m'.registers.control = m.registers.control
  /-- The program counter is the contents of the vector, as memory stands after
  stacking, or the machine has halted. -/
  vector : m'.state = .halted ∨ ∃ fault, m.fault? = some fault ∧
    m'.space.read ((if m.chip = .mc68000 then 0 else m.registers.vbr) + fault.vectorOffset.toUInt32)
      4 .supervisorData .read = .ok m'.registers.pc

/-- A step of a user program that enters an exception goes through its vector. -/
theorem step_entersSupervisor (hmode : m.registers.isSupervisor = false)
    (hstate : m.state ≠ .startup) (hentry : m.entersException = true) :
    m.EntersSupervisor m.step.val := by
  obtain ⟨a, m', frame, pc, hrun, hfault, hfits, hstep⟩ := step_of_entersException hstate hentry
  have hcontained := ((cycle_confined hmode hstate).of_error hrun).contained
  rw [hstep]
  rcases @takeException_cases (m'.withPc pc) frame a.fault.vectorOffset hfits with
    ⟨m₁, hval, hentered⟩ | ⟨b, m₁, hval, hrefused⟩
  · have hcontrol : m₁.registers.control = m'.registers.control := by
      rw [hentered.machine]
      rfl
    have hvector := hentered.vector
    have hvbr : m'.registers.vbr = m.registers.vbr := congrArg Prod.fst hcontained.control
    rw [hval]
    rw [vectorAddress_eq] at hvector
    refine ⟨hentry, hcontrol.trans hcontained.control, .inr ⟨a.fault, hfault, ?_⟩⟩
    rw [← hcontained.chip, ← hvbr]
    exact hvector
  · obtain ⟨ssp, hmachine⟩ := hrefused.machine
    have hcontrol : m₁.registers.control = m'.registers.control := by
      rw [hmachine]
      rfl
    rw [hval]
    exact ⟨hentry, hcontrol.trans hcontained.control, .inl rfl⟩

/-- As long as no exception has been entered, a run of a user program is confined. -/
theorem after_confined (hmode : m.registers.isSupervisor = false) (hstate : m.state ≠ .startup)
    (n : Nat) (hentry : ∀ k < n, (m.after k).entersException = false) : m.Confined (m.after n) := by
  induction n with
  | zero => exact ⟨Contained.refl m, hstate⟩
  | succ n ih =>
    obtain ⟨hcontained, hstarted⟩ := ih fun k hk => hentry k (by omega)
    have hstep := step_confined (hcontained.isSupervisor.trans hmode) hstarted (hentry n (by omega))
    exact ⟨hcontained.trans hstep.contained, hstep.started⟩

/-- A run that stays in user mode has entered no exception. -/
theorem entersException_of_user (hmode : m.registers.isSupervisor = false)
    (hstate : m.state ≠ .startup) (n : Nat)
    (huser : ∀ k ≤ n, (m.after k).registers.isSupervisor = false) :
    ∀ k < n, (m.after k).entersException = false := by
  induction n with
  | zero => exact fun k hk => absurd hk (by omega)
  | succ n ih =>
    have hbefore := ih fun k hk => huser k (by omega)
    have hstarted := (after_confined hmode hstate n hbefore).started
    intro k hk
    by_cases hlast : k = n
    · subst hlast
      refine Bool.eq_false_iff.2 fun hentry => ?_
      obtain ⟨a, m', frame, pc, -, -, hfits, hstep⟩ := step_of_entersException hstarted hentry
      have hsupervisor : (m.after (k + 1)).registers.isSupervisor = true := by
        change (m.after k).step.val.registers.isSupervisor = true
        rw [hstep]
        exact takeException_mode hfits
      rw [huser (k + 1) (by omega)] at hsupervisor
      cases hsupervisor
    · exact hbefore k (by omega)

/-- User programs are contained over whole runs. Until a step enters an exception the
machine stays in user mode and keeps the state of the supervisor. The first step that
ends in supervisor mode has entered an exception; it keeps the control registers, and
goes through the vector of its fault or halts. -/
theorem user_contained (m : Machine) (hstate : m.state = .normal)
    (hmode : m.registers.isSupervisor = false) :
    (∀ n, (∀ k < n, (m.after k).entersException = false) →
      (m.after n).registers.isSupervisor = false ∧ m.Contained (m.after n)) ∧
    ∀ n, (∀ k ≤ n, (m.after k).registers.isSupervisor = false) →
      (m.after (n + 1)).registers.isSupervisor = true →
      m.Contained (m.after n) ∧ (m.after n).EntersSupervisor (m.after (n + 1)) := by
  have hstarted : m.state ≠ .startup := by
    rw [hstate]
    exact nofun
  constructor
  · intro n hentry
    have hcontained := (after_confined hmode hstarted n hentry).contained
    exact ⟨hcontained.isSupervisor.trans hmode, hcontained⟩
  · intro n huser hsupervisor
    have hbefore := entersException_of_user hmode hstarted n huser
    obtain ⟨hcontained, hlast⟩ := after_confined hmode hstarted n hbefore
    refine ⟨hcontained, step_entersSupervisor (huser n (Nat.le_refl n)) hlast ?_⟩
    refine Bool.of_not_eq_false fun hentry => ?_
    have hmode' := (step_confined (huser n (Nat.le_refl n)) hlast hentry).contained.isSupervisor
    rw [huser n (Nat.le_refl n)] at hmode'
    change (m.after (n + 1)).registers.isSupervisor = false at hmode'
    rw [hsupervisor] at hmode'
    cases hmode'

/-- A user program next to a guarded vector table: it does nothing and then traps. -/
def trapping : Machine :=
  let table : Placed := ⟨0, ⟨.lowMemory, ⟨Array.replicate 132 0⟩⟩⟩
  let program : Placed := ⟨256, ⟨.general, ⟨#[0x4E, 0x71, 0x4E, 0x40, 0, 0, 0, 0, 0, 0, 0, 0]⟩⟩⟩
  { Machine.initial .mc68010 .vector
      (.mapped ⟨#[table, program], @ordered_of_firstDefect none _ (by decide +kernel)⟩) with
    registers := { RegisterFile.initial with pc := 256, ssp := 268, sr := ⟨0⟩ }
    state := .normal }

/-- A program that does nothing and then traps: contained for one step, in the supervisor's mode
after the second. -/
theorem user_contained_trapping :
    trapping.state = .normal ∧ trapping.registers.isSupervisor = false ∧
      (∀ k < 1, (trapping.after k).entersException = false) ∧
      trapping.Contained (trapping.after 1) ∧
      (∀ k ≤ 1, (trapping.after k).registers.isSupervisor = false) ∧
      (trapping.after 2).registers.isSupervisor = true ∧
      (trapping.after 1).EntersSupervisor (trapping.after 2) := by
  have hmode : trapping.registers.isSupervisor = false := by decide +kernel
  have hentry : ∀ k < 1, (trapping.after k).entersException = false := by decide +kernel
  have huser : ∀ k ≤ 1, (trapping.after k).registers.isSupervisor = false := by decide +kernel
  have hsupervisor : (trapping.after 2).registers.isSupervisor = true := by decide +kernel
  have hcontained := user_contained trapping rfl hmode
  exact ⟨rfl, hmode, hentry, (hcontained.1 1 hentry).2, huser, hsupervisor,
    (hcontained.2 1 huser hsupervisor).2⟩

end Machine

end Cpu68k
