import Cpu68k.Proofs.Containment
import Cpu68k.Proofs.Decoding
import Cpu68k.Proofs.HostCalls

/-!
# The registers that a chip has

Whatever a host does with a machine, its status word has no bit that the chip does not
have, its function codes have three bits, and the control registers that the chip does
not have keep their contents. `Machine.Orderly` is the law of one call; it is a law of
the elementary alterations, of exceptions and of the reset exception, which alone clears
the vector base register.
-/

namespace Cpu68k

/-! ### Status words -/

namespace Status

/-- No bit is set that the chip does not have. -/
def Fits (chip : Chip) (sr : Status) : Prop :=
  sr.bits &&& ~~~chip.statusMask = 0

variable {chip : Chip} {sr sr' : Status}

instance : Decidable (sr.Fits chip) :=
  inferInstanceAs (Decidable (_ = _))

/-- Some bits of a word without other bits. -/
theorem and_eq_zero_of_covered {a b low mask : UInt16} (hcover : a ||| (b ||| low) = b ||| low)
    (hlow : low &&& mask = 0) (hb : b &&& mask = 0) : a &&& mask = 0 := by
  refine word_ext fun i hi => ?_
  have hcover := congrArg (fun w : UInt16 => w.toBitVec.getLsbD i) hcover
  have hlow := congrArg (fun w : UInt16 => w.toBitVec.getLsbD i) hlow
  have hb := congrArg (fun w : UInt16 => w.toBitVec.getLsbD i) hb
  simp only [UInt16.toBitVec_and, UInt16.toBitVec_or, BitVec.getLsbD_and, BitVec.getLsbD_or,
    UInt16.toBitVec_zero, BitVec.getLsbD_zero] at hcover hlow hb ⊢
  grind

/-- Every chip has the condition codes. -/
theorem Recoded.fits (h : sr.Recoded sr') (hfits : sr.Fits chip) : sr'.Fits chip := by
  have hcodes : conditionCodes &&& ~~~chip.statusMask = 0 := by
    cases chip <;> decide
  exact and_eq_zero_of_covered h.bits hcodes hfits

/-- Loading the status word through the mask of the chip. -/
theorem fits_masked (value : UInt16) : (⟨value &&& chip.statusMask⟩ : Status).Fits chip := by
  change value &&& chip.statusMask &&& ~~~chip.statusMask = 0
  rw [UInt16.and_assoc]
  refine word_ext fun i hi => ?_
  simp only [UInt16.toBitVec_and, UInt16.toBitVec_not, BitVec.getLsbD_and, BitVec.getLsbD_not,
    UInt16.toBitVec_zero, BitVec.getLsbD_zero]
  grind

/-- Every chip has the supervisor bit. -/
theorem Fits.handler (hfits : sr.Fits chip) : sr.handler.Fits chip := by
  have hsupervisor : supervisor &&& ~~~chip.statusMask = 0 := by
    cases chip <;> decide
  refine and_eq_zero_of_covered (b := sr.bits) ?_ hsupervisor hfits
  change (sr.bits ||| supervisor) &&& ~~~traceBits ||| (sr.bits ||| supervisor) = _
  exact and_or_self _ _

/-- Every chip has the bits that a reset sets. -/
theorem fits_reset : (⟨0x2700⟩ : Status).Fits chip := by
  cases chip <;> decide

end Status

/-! ### Run states -/

/-- A breakpoint has a number of three bits. -/
def RunState.IsNumbered (s : RunState) : Prop :=
  ∀ n, s = .breakpoint n → n ≤ 7

/-- A state whose number has three bits can be told from its raw form. -/
theorem RunState.IsNumbered.ofRaw?_raw {s : RunState} (h : s.IsNumbered) :
    RunState.ofRaw? s.raw = some s := by
  cases s with
  | breakpoint n =>
    have hall : ∀ k : Fin 8, RunState.ofRaw? (breakpoint k.val.toUInt8).raw =
        some (breakpoint k.val.toUInt8) := by decide
    have hle : n.toNat ≤ 7 := UInt8.le_iff_toNat_le.1 (h n rfl)
    have hn : n.toNat.toUInt8 = n := UInt8.ofNat_toNat
    have hthis := hall ⟨n.toNat, by omega⟩
    rwa [hn] at hthis
  | _ => rfl

/-! ### Control registers -/

/-- Whether a chip has a control register. Every chip has the user stack pointer, which
has an instruction of its own. -/
def ControlRegister.isOn (chip : Chip) : ControlRegister → Bool
  | usp => true
  | cacr => chip.features.cacheControl
  | sfc | dfc | vbr => chip.features.movec

/-- Whether a chip has what an alteration of the part needs. -/
def Part.isOn (chip : Chip) : Part → Bool
  | control c => c.isOn chip
  | _ => true

variable {chip : Chip} {opcode : UInt16} {i : Instruction} {part : Part}

/-- A code names a control register that the chip has. -/
theorem ControlRegister.isOn_of_ofCode? {code : UInt16} {c : ControlRegister}
    (hmovec : chip.features.movec = true) (h : ofCode? chip code = some c) :
    c.isOn chip = true := by
  unfold ofCode? at h
  split at h
  · cases h
    exact hmovec
  split at h
  · cases h
    exact hmovec
  split at h
  · split at h
    next hcacr =>
      cases h
      exact hcacr
    next => cases h
  split at h
  · cases h
    rfl
  split at h
  · cases h
    exact hmovec
  · cases h

/-- Only chips with `MOVEC` read it. -/
theorem Instruction.movec_of_ofOpcode? (h : ofOpcode? chip opcode = some .moveToControl) :
    chip.features.movec = true := by
  have hopcode : opcode = 0x4E7B := isEncoded_of_ofOpcode? h
  subst hopcode
  cases chip with
  | mc68000 =>
    revert h
    decide
  | _ => rfl

/-- The operations of an instruction that a chip reads alter only what the chip has. -/
theorem Instruction.Gives.isOn {op : Operation} (hgives : i.Gives op)
    (hi : Instruction.ofOpcode? chip opcode = some i) (hpart : part ∈ op.parts chip) :
    part.isOn chip = true := by
  cases part with
  | control c =>
    have hsystem := Operation.isSystem_of_mem_parts hpart rfl
    cases op with
    | moveToControl code src =>
      cases hgives
      simp only [Operation.parts, List.mem_map, Option.mem_toList, Part.control.injEq,
        exists_eq_right] at hpart
      exact ControlRegister.isOn_of_ofCode? (Instruction.movec_of_ofOpcode? hi) hpart
    | moveToUsp n =>
      simp only [Operation.parts, List.mem_singleton, Part.control.injEq] at hpart
      rw [hpart]
      rfl
    | rte | stop | moveToSr | logicToSr => simp [Operation.parts] at hpart
    | _ => cases hsystem
  | _ => rfl

namespace Machine

variable {m m' m'' : Machine} {a : Abort} {calls : List HostCall}

/-! ### One call -/

/-- What every call of the host respects, except that a reset clears the vector base
register. -/
structure Orderly (m m' : Machine) : Prop where
  /-- The chip is the same. -/
  chip : m'.chip = m.chip
  /-- The status word stays within the bits that the chip has. -/
  status : m.registers.sr.Fits m.chip → m'.registers.sr.Fits m.chip
  /-- The function codes stay within three bits. -/
  functionCodes : m.registers.sfc ≤ 7 ∧ m.registers.dfc ≤ 7 →
    m'.registers.sfc ≤ 7 ∧ m'.registers.dfc ≤ 7
  /-- The first chip has no control registers, and those of the machine stay. -/
  control : m.chip = .mc68000 → m'.registers.control = m.registers.control
  /-- The second chip has no cache control register, and that of the machine stays. -/
  cacr : m.chip = .mc68010 → m'.registers.cacr = m.registers.cacr
  /-- The number of a breakpoint stays within three bits. -/
  state : m.state.IsNumbered → m'.state.IsNumbered

/-- A machine that has not changed is orderly. -/
theorem Orderly.refl (m : Machine) : m.Orderly m :=
  ⟨rfl, id, id, fun _ => rfl, fun _ => rfl, id⟩

/-- Two orderly changes in a row are one. -/
theorem Orderly.trans (h : m.Orderly m') (h' : m'.Orderly m'') : m.Orderly m'' where
  chip := h'.chip.trans h.chip
  status hfits := h.chip ▸ h'.status (h.chip.symm ▸ h.status hfits)
  functionCodes hcodes := h'.functionCodes (h.functionCodes hcodes)
  control hchip := (h'.control (h.chip.trans hchip)).trans (h.control hchip)
  cacr hchip := (h'.cacr (h.chip.trans hchip)).trans (h.cacr hchip)
  state hstate := h'.state (h.state hstate)

/-- Another run state that is no breakpoint. -/
theorem orderly_of_state {state : RunState} (hstate : state.IsNumbered) :
    m.Orderly { m with state := state } :=
  ⟨rfl, id, id, fun _ => rfl, fun _ => rfl, fun _ => hstate⟩

/-- Setting an address register is orderly. -/
theorem orderly_of_addr (n : Fin 8) (value : UInt32) :
    m.Orderly { m with registers := m.registers.setAddrReg n value } := by
  obtain ⟨addr, usp, ssp, heq, -⟩ := m.registers.setAddrReg_eq n value
  rw [heq]
  exact ⟨rfl, id, id, fun _ => rfl, fun _ => rfl, id⟩

/-- Writing a control register that the chip has. -/
theorem orderly_of_control {c : ControlRegister} (hon : c.isOn m.chip = true) (value : UInt32) :
    m.Orderly { m with registers := c.write m.registers value } := by
  have hcode (value : UInt8) : value &&& 7 ≤ 7 := by
    rw [UInt8.le_iff_toNat_le, UInt8.toNat_and]
    exact Nat.and_le_right
  have hfirst {P : Prop} (hmovec : m.chip.features.movec = true) (hchip : m.chip = .mc68000) :
      P := by
    rw [hchip] at hmovec
    cases hmovec
  cases c with
  | sfc => exact ⟨rfl, id, fun h => ⟨hcode _, h.2⟩, hfirst hon, fun _ => rfl, id⟩
  | dfc => exact ⟨rfl, id, fun h => ⟨h.1, hcode _⟩, hfirst hon, fun _ => rfl, id⟩
  | vbr => exact ⟨rfl, id, id, hfirst hon, fun _ => rfl, id⟩
  | usp => exact ⟨rfl, id, id, fun _ => rfl, fun _ => rfl, id⟩
  | cacr =>
    have hlater {P : Prop} (hchip : m.chip.features.cacheControl = false) : P := by
      rw [ControlRegister.isOn, hchip] at hon
      cases hon
    exact ⟨rfl, id, id, fun hchip => hlater (hchip ▸ rfl), fun hchip => hlater (hchip ▸ rfl), id⟩

/-- Elementary alterations of what the chip has are orderly. -/
theorem Alters.orderly (hpart : part.isOn m.chip = true) (h : m.Alters part m') :
    m.Orderly m' := by
  cases h with
  | addr n value => exact orderly_of_addr n value
  | codes h => exact ⟨rfl, h.fits, id, fun _ => rfl, fun _ => rfl, id⟩
  | status value =>
    exact ⟨rfl, fun _ => Status.fits_masked value, id, fun _ => rfl, fun _ => rfl, id⟩
  | control c value => exact orderly_of_control hpart value
  | stop => exact orderly_of_state nofun
  | breakpoint n =>
    refine orderly_of_state fun k hk => ?_
    cases hk
    revert n
    decide
  | data | pc | store => exact ⟨rfl, id, id, fun _ => rfl, fun _ => rfl, id⟩

/-- A chain of alterations of what the chip has is orderly. -/
theorem AltersBy.orderly {parts : Part → Prop} (hparts : ∀ part, parts part → part.isOn m.chip)
    (h : AltersBy parts m m') : m.Orderly m' := by
  refine h.keeps (fun hpart halters horderly => ?_) (Orderly.refl m)
  exact horderly.trans (halters.orderly (horderly.chip ▸ hparts _ hpart))

/-- Fetching an opcode is orderly. -/
theorem orderly_fetched (m : Machine) (opcode : UInt16) : m.Orderly (m.fetched opcode) :=
  ⟨rfl, id, id, fun _ => rfl, fun _ => rfl, id⟩

/-- A cycle is orderly however it ends. -/
theorem cycle_orderly (m : Machine) :
    Ends cycle m (fun _ m' => m.Orderly m') fun _ m' => m.Orderly m' := by
  have hrecorded : m.Orderly { m with instructionAddress := m.registers.pc } :=
    ⟨rfl, id, id, fun _ => rfl, fun _ => rfl, id⟩
  refine cycle_keeps (P := m.Orderly) hrecorded (orderly_fetched m)
    fun {opcode i part m₁ m₂} hi hpart halters horderly => ?_
  have hon : part.isOn m.chip = true := by
    rcases hpart with rfl | rfl | ⟨-, op, hgives, hpart⟩
    · rfl
    · rfl
    · exact hgives.isOn hi hpart
  exact horderly.trans (halters.orderly (horderly.chip ▸ hon))

/-- Taking an exception is orderly. -/
theorem takeException_orderly {frame : List FrameItem} {offset : UInt16}
    (hfits : frameBytes frame < UInt32.size) :
    m.Orderly (m.takeException frame offset).val.2 := by
  obtain ⟨ssp, pc, space, state, hval, hstate⟩ := @takeException_handler m frame offset hfits
  rw [hval]
  refine ⟨rfl, Status.Fits.handler, id, fun _ => rfl, fun _ => rfl, fun hnumbered => ?_⟩
  rcases hstate with rfl | rfl
  · exact hnumbered
  · exact nofun

/-- Moving the program counter is orderly. -/
theorem orderly_withPc (m : Machine) (pc : UInt32) : m.Orderly (m.withPc pc) :=
  ⟨rfl, id, id, fun _ => rfl, fun _ => rfl, id⟩

/-- A step of a running machine is orderly. -/
theorem step_orderly (hstate : m.state = .normal) : m.Orderly m.step.val := by
  have hcycle := cycle_orderly m
  rw [step_val hstate]
  cases hrun : cycle m with
  | ok u m' => exact hcycle.of_ok hrun
  | error a m' =>
    have horderly := hcycle.of_error hrun
    dsimp only
    cases htaken : a.fault.isTaken m'.policy with
    | true =>
      obtain ⟨frame, pc, hfits, htake⟩ := takeFault_of_isTaken htaken
      rw [htake]
      exact (horderly.trans (orderly_withPc m' pc)).trans (takeException_orderly hfits)
    | false =>
      rw [takeFault_of_not_isTaken htaken]
      exact horderly.trans (orderly_of_state nofun)

/-! ### Sequences of calls -/

/-- The machine with another vector base register. -/
def withVbr (m : Machine) (vbr : UInt32) : Machine :=
  { m with registers := { m.registers with vbr := vbr } }

/-- The same vector base register may be put on both sides. -/
theorem Orderly.withVbr (h : m.Orderly m') (vbr : UInt32) :
    (m.withVbr vbr).Orderly (m'.withVbr vbr) :=
  ⟨h.chip, h.status, h.functionCodes,
    fun hchip => congrArg (fun c => (vbr, c.2)) (h.control hchip), h.cacr, h.state⟩

/-- Apart from the vector base register, a reset is orderly. -/
theorem reset_orderly (m : Machine) : (m.withVbr 0).Orderly m.reset.val := by
  obtain ⟨ssp, pc, state, hval, hstate⟩ := m.reset_val
  rw [hval]
  refine ⟨rfl, fun _ => Status.fits_reset, id, fun _ => rfl, fun _ => rfl, fun _ => ?_⟩
  rcases hstate with rfl | rfl <;> exact nofun

/-- A run of any length is orderly. -/
theorem runSteps_orderly {start : Machine} {keep : Event → Bool} {limit count : Nat}
    {log : Array Event} (h : start.Orderly m) :
    start.Orderly (runSteps keep limit count log m).2.2 :=
  runSteps_keeps (fun _ hstate h => h.trans (step_orderly hstate)) h

end Machine

namespace HostCall

variable {m : Machine}

/-- A call that does not reset is orderly. -/
theorem perform_orderly (call : HostCall) (hresets : ¬ call.Resets m) :
    m.Orderly (call.perform m) := by
  have hmoved (target : RunState) (htarget : target.IsNumbered) (source : RunState) :
      m.Orderly (m.transition source target).val.2 := by
    unfold Machine.transition
    split
    · exact Machine.orderly_of_state htarget
    · exact Machine.Orderly.refl m
  cases call with
  | reset => exact absurd trivial hresets
  | step =>
    by_cases hnormal : m.state = .normal
    · exact Machine.step_orderly hnormal
    · rw [perform, Machine.step_of_not_running hresets hnormal]
      exact Machine.Orderly.refl m
  | run keep limit =>
    have hstate : m.state ≠ .startup := hresets
    have hfirst : (if m.state = .startup then m.reset else pure m : Logged Machine).val = m := by
      rw [if_neg hstate]
      rfl
    refine Machine.runSteps_orderly ?_
    rw [hfirst]
    exact Machine.Orderly.refl m
  | start =>
    rw [perform, Machine.start]
    split
    · exact Machine.orderly_of_state nofun
    · exact Machine.Orderly.refl m
  | halt => exact Machine.orderly_of_state nofun
  | haltOnFrame => exact Machine.orderly_of_state nofun
  | finish => exact hmoved .finished nofun .normal
  | wake => exact hmoved .normal nofun .stopped
  | resume =>
    rw [perform, Machine.resume]
    split
    · exact Machine.orderly_of_state nofun
    · exact Machine.Orderly.refl m
  | setPolicy policy => exact ⟨rfl, id, id, fun _ => rfl, fun _ => rfl, id⟩
  | takeShort offset => exact Machine.takeException_orderly (shortFrame_fits ..)
  | takeLong offset instructionAddress cycle =>
    exact Machine.takeException_orderly (longFrame_fits ..)
  | readData | writeData | fetchWord | fetchLong | push | pop =>
    refine (alters_of_isAccess rfl m).orderly fun part hpart => ?_
    cases part with
    | control => cases hpart
    | _ => rfl

/-- A call that resets is orderly apart from the vector base register. -/
theorem perform_orderly_of_resets (call : HostCall) (hresets : call.Resets m) :
    (m.withVbr 0).Orderly (call.perform m) := by
  cases call with
  | reset => exact m.reset_orderly
  | step =>
    rw [perform, Machine.step_of_startup hresets]
    exact m.reset_orderly
  | run keep limit =>
    have hstate : m.state = .startup := hresets
    have hfirst : (if m.state = .startup then m.reset else pure m : Logged Machine).val =
        m.reset.val := by
      rw [if_pos hstate]
    refine Machine.runSteps_orderly ?_
    rw [hfirst]
    exact m.reset_orderly
  | _ => exact hresets.elim

end HostCall

namespace Machine

variable {m : Machine}

/-- Apart from the vector base register, every sequence of calls is orderly. -/
theorem performAll_orderly (calls : List HostCall) (m : Machine) :
    ∃ vbr, (m.withVbr vbr).Orderly (m.performAll calls) := by
  induction calls generalizing m with
  | nil => exact ⟨m.registers.vbr, Orderly.refl m⟩
  | cons call calls ih =>
    -- The calls that follow are compared under the vector base register that the last
    -- reset among them leaves, whatever this call does to it.
    obtain ⟨vbr, hrest⟩ := ih (call.perform m)
    refine ⟨vbr, Orderly.trans ?_ hrest⟩
    by_cases hresets : call.Resets m
    · exact (call.perform_orderly_of_resets hresets).withVbr vbr
    · exact (call.perform_orderly hresets).withVbr vbr

/-- What a host finds after any calls of a machine. -/
structure Architectural (m m' : Machine) : Prop where
  /-- The status word has no bit that the chip does not have. -/
  status : m'.registers.sr.Fits m.chip
  /-- The source function code has three bits. -/
  sfc : m'.registers.sfc ≤ 7
  /-- The destination function code has three bits. -/
  dfc : m'.registers.dfc ≤ 7
  /-- On the first chip the function codes and the cache control register have never
  changed, and the next call changes the vector base register only by a reset, to zero. -/
  first : m.chip = .mc68000 → m'.registers.sfc = m.registers.sfc ∧
    m'.registers.dfc = m.registers.dfc ∧ m'.registers.cacr = m.registers.cacr ∧
    ∀ call : HostCall, (call.perform m').registers.vbr = m'.registers.vbr ∨
      call.Resets m' ∧ (call.perform m').registers.vbr = 0
  /-- On the second chip the cache control register has never changed. -/
  second : m.chip = .mc68010 → m'.registers.cacr = m.registers.cacr
  /-- A breakpoint has a number of three bits, so that the run state can be told from its
  raw form. -/
  state : m.state.IsNumbered →
    m'.state.IsNumbered ∧ RunState.ofRaw? m'.state.raw = some m'.state

/-- The next call changes the vector base register of the first chip only by a reset. -/
theorem vbr_perform (hchip : m.chip = .mc68000) (call : HostCall) :
    (call.perform m).registers.vbr = m.registers.vbr ∨
      call.Resets m ∧ (call.perform m).registers.vbr = 0 := by
  by_cases hresets : call.Resets m
  · exact .inr ⟨hresets, congrArg Prod.fst ((call.perform_orderly_of_resets hresets).control hchip)⟩
  · exact .inl (congrArg Prod.fst ((call.perform_orderly hresets).control hchip))

/-- The registers keep the form that the chip gives them, over every sequence of calls
of the host. -/
theorem registers_architectural (m : Machine) (calls : List HostCall)
    (hstatus : m.registers.sr.Fits m.chip) (hsfc : m.registers.sfc ≤ 7)
    (hdfc : m.registers.dfc ≤ 7) : m.Architectural (m.performAll calls) := by
  obtain ⟨vbr, horderly⟩ := performAll_orderly calls m
  obtain ⟨hsfc', hdfc'⟩ := horderly.functionCodes ⟨hsfc, hdfc⟩
  refine ⟨horderly.status hstatus, hsfc', hdfc', fun hchip => ?_, horderly.cacr, fun hstate => ?_⟩
  · have hcontrol : (m.performAll calls).registers.control = (vbr, m.registers.control.2) :=
      horderly.control hchip
    have hsame := congrArg Prod.snd hcontrol
    exact ⟨congrArg Prod.fst hsame, congrArg (fun c => c.2.1) hsame,
      congrArg (fun c => c.2.2) hsame, vbr_perform (horderly.chip.trans hchip)⟩
  · have hnumbered := horderly.state hstate
    exact ⟨hnumbered, hnumbered.ofRaw?_raw⟩

/-- A new machine whose program sets every bit of the status word and asks for a
breakpoint. -/
def recoding : Machine :=
  let vectors := Array.replicate 7 0 ++ #[8]
  let program := #[0x46, 0xFC, 0xFF, 0xFF, 0x48, 0x4D]
  Machine.initial .mc68010 .vector (.flat ⟨.general, ⟨vectors ++ program⟩⟩)

/-- A program loads all ones into the status word, which keeps the bits that its chip has, and
stops at its breakpoint. -/
theorem registers_architectural_recoding :
    let calls : List HostCall := [.reset, .step, .step]
    recoding.registers.sr.Fits recoding.chip ∧ recoding.registers.sfc ≤ 7 ∧
      recoding.registers.dfc ≤ 7 ∧ recoding.Architectural (recoding.performAll calls) ∧
      (recoding.performAll calls).registers.sr = ⟨0xA71F⟩ ∧
      (recoding.performAll calls).state = .breakpoint 5 := by
  intro calls
  have hstatus : recoding.registers.sr.Fits recoding.chip := by decide +kernel
  have hcodes : recoding.registers.sfc ≤ 7 ∧ recoding.registers.dfc ≤ 7 := by decide +kernel
  have hreached : (recoding.performAll calls).registers.sr = ⟨0xA71F⟩ ∧
      (recoding.performAll calls).state = .breakpoint 5 := by decide +kernel
  exact ⟨hstatus, hcodes.1, hcodes.2,
    registers_architectural recoding calls hstatus hcodes.1 hcodes.2, hreached⟩

end Machine

end Cpu68k
