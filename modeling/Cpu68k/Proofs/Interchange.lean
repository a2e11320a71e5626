import Cpu68k.Proofs.Footprint
import Cpu68k.Proofs.HostLikeness

/-!
# Parts that can be exchanged

Two parts of a machine have replacements that no program and no host can tell from them.
A chip with all features can be one of another generation. A memory that is one region
from zero on can be a layout that places only this region: the two refuse the same
accesses, and their reasons for it, which differ, never reach the machine.
-/

namespace Cpu68k

/-! ### Replacements -/

/-- A relation between memories that answer every access to some bytes alike. -/
structure SpaceLikeness (S : Space → Space → Prop) : Prop where
  /-- Reading gives the same. -/
  read {s s'} (addr len fc access) : S s s' → len ≠ 0 →
    OutcomesAlike Eq (s.read addr len fc access) (s'.read addr len fc access)
  /-- Writing does the same. -/
  write {s s'} (addr len value fc) : S s s' → len ≠ 0 →
    OutcomesAlike S (s.write addr len value fc) (s'.write addr len value fc)

/-- Two machines that are the same up to their chips and their memories. -/
structure Machine.Matches (C : Chip → Chip → Prop) (S : Space → Space → Prop)
    (m m' : Machine) : Prop where
  /-- Everything else is the same. -/
  machine : m' = { m with chip := m'.chip, space := m'.space }
  /-- The chips are related. -/
  chip : C m.chip m'.chip
  /-- The memories are related. -/
  space : S m.space m'.space

/-- Chips with the same features and memories that answer alike make machines that nobody
can tell apart. -/
theorem Machine.hostLikeness_matches {C : Chip → Chip → Prop} {S : Space → Space → Prop}
    (hC : ∀ chip chip', C chip chip' → chip'.features = chip.features) (hS : SpaceLikeness S) :
    HostLikeness (Matches C S) where
  registers h := by rw [h.machine]
  features h := hC _ _ h.chip
  state h := by rw [h.machine]
  policy h := by rw [h.machine]
  opcode h := by rw [h.machine]
  instructionAddress h := by rw [h.machine]
  withRegisters h _ := ⟨by rw [h.machine], h.chip, h.space⟩
  withState state h := ⟨by rw [h.machine], h.chip, h.space⟩
  withOpcode opcode h := ⟨by rw [h.machine], h.chip, h.space⟩
  withAddress addr h := ⟨by rw [h.machine], h.chip, h.space⟩
  withPolicy policy h := ⟨by rw [h.machine], h.chip, h.space⟩
  read program addr len access h _ hlen :=
    (hS.read addr len _ access h.space hlen).mono fun _ _ heq => heq.symm
  write addr len value h _ hlen := (hS.write addr len value _ h.space hlen).mono
    fun _ _ hspace => ⟨by rw [h.machine], h.chip, hspace⟩

/-! ### Chips of the extended generations -/

/-- A memory can be exchanged with itself. -/
theorem spaceLikeness_eq : SpaceLikeness Eq where
  read addr len fc access h _ := by
    subst h
    cases Space.read _ addr len fc access with
    | ok value => exact .ok rfl
    | error e => exact .error e e
  write addr len value fc h _ := by
    subst h
    cases Space.write _ addr len value fc with
    | ok space => exact .ok rfl
    | error e => exact .error e e

namespace Machine

/-- The machine with another chip. -/
def onChip (m : Machine) (chip : Chip) : Machine :=
  { m with chip := chip }

/-- Chips with the same features run alike in all the rest of a machine. -/
theorem performAll_onChip {chip chip' : Chip} (h : chip'.features = chip.features) (m : Machine)
    (calls : List HostCall) :
    (m.onChip chip').answers calls = (m.onChip chip).answers calls ∧
      (m.onChip chip').performAll calls = ((m.onChip chip).performAll calls).onChip chip' := by
  have hlike : HostLikeness (Matches (fun c c' => c'.features = c.features ∧ c' = chip') Eq) :=
    hostLikeness_matches (fun _ _ h => h.1) spaceLikeness_eq
  have hstart : (m.onChip chip).Matches (fun c c' => c'.features = c.features ∧ c' = chip') Eq
      (m.onChip chip') := ⟨rfl, ⟨h, rfl⟩, rfl⟩
  obtain ⟨hanswers, hlast⟩ := hlike.performAll hstart calls
  refine ⟨hanswers, ?_⟩
  rw [hlast.machine, hlast.chip.2, ← hlast.space]
  rfl

/-- The last three generations are one machine. Whatever is done with a machine that has
one of their chips, with another of them in its place every call has the same answer, and
the same registers, memory, run state, opcode and instruction address are left. -/
theorem extended_generations_alike (m : Machine) (calls : List HostCall) :
    (m.onChip .mc68030).performAll calls = ((m.onChip .mc68020).performAll calls).onChip .mc68030 ∧
      (m.onChip .mc68040).performAll calls =
        ((m.onChip .mc68020).performAll calls).onChip .mc68040 ∧
      (m.onChip .mc68030).answers calls = (m.onChip .mc68020).answers calls ∧
      (m.onChip .mc68040).answers calls = (m.onChip .mc68020).answers calls := by
  have hsame : Chip.mc68030.features = Chip.mc68020.features := rfl
  have hsame' : Chip.mc68040.features = Chip.mc68020.features := rfl
  obtain ⟨hanswers, hlast⟩ := performAll_onChip hsame m calls
  obtain ⟨hanswers', hlast'⟩ := performAll_onChip hsame' m calls
  exact ⟨hlast, hlast', hanswers, hanswers'⟩

end Machine

/-! ### One region and a layout of it -/

/-- A memory that is one region, and a layout that places it at zero and no other. -/
inductive Space.LaidOut : Space → Space → Prop
  | intro {r : Region} {l : Layout} (h : l.placed = #[⟨0, r⟩]) : LaidOut (.flat r) (.mapped l)

namespace Layout

variable {l : Layout} {r : Region} {addr : UInt32}

/-- The addresses of the one region are found in it. -/
theorem find?_of_lt (h : l.placed = #[⟨0, r⟩]) (hlt : addr.toNat < r.size) :
    l.find? addr = some 0 :=
  find?_eq_some.2 ⟨⟨0, r⟩, by simp [h],
    Placed.contains_iff.2 ⟨Nat.zero_le _, (Nat.zero_add r.size).symm ▸ hlt⟩⟩

/-- Behind the one region no address is found. -/
theorem find?_of_le (h : l.placed = #[⟨0, r⟩]) (hle : r.size ≤ addr.toNat) :
    l.find? addr = none := by
  refine Option.eq_none_iff_forall_ne_some.2 fun i hfind => ?_
  obtain ⟨p, hp, hcontains⟩ := find?_eq_some.1 hfind
  have hmem : p ∈ l.placed := Array.mem_of_getElem? hp
  rw [h, List.mem_toArray, List.mem_singleton] at hmem
  subst hmem
  have hlt : addr.toNat < 0 + r.size := (Placed.contains_iff.1 hcontains).2
  omega

end Layout

namespace Space.LaidOut

variable {s s' : Space}

/-- The two memories allow the same accesses, at the same spots of the only region. -/
theorem locate (h : s.LaidOut s') (addr len : UInt32) (fc : FunctionCode) (access : Access)
    (hlen : len ≠ 0) : OutcomesAlike (fun spot spot' => spot' = spot ∧ spot.index = 0)
      (s.locate addr len fc access) (s'.locate addr len fc access) := by
  obtain @⟨r, l, hplaced⟩ := h
  have hpos := toNat_pos hlen
  unfold Space.locate
  dsimp only
  by_cases hin : addr.toNat < r.size
  · have hzero : addr - 0 = addr := UInt32.sub_zero addr
    rw [Layout.find?_of_lt hplaced hin]
    simp only [hplaced, List.getElem?_toArray, List.getElem?_cons_zero, hzero]
    cases r.check addr len fc access with
    | ok u => exact .ok ⟨rfl, rfl⟩
    | error e => exact .error e (e.rebased 0)
  · -- The layout has no region here, and the region alone refuses what lies behind its end.
    rw [Layout.find?_of_le hplaced (by omega)]
    cases hcheck : r.check addr len fc access with
    | ok u =>
      obtain ⟨-, -, hend⟩ := Region.check_eq_ok.1 hcheck
      omega
    | error e => exact .error e _

/-- Where nothing is placed the layout knows no region, which the region alone never
gives as the reason. -/
theorem locate_of_le {r : Region} (h : (flat r).LaidOut s') {addr len : UInt32} (hlen : len ≠ 0)
    (hle : r.size ≤ addr.toNat) (fc : FunctionCode) (access : Access) :
    s'.locate addr len fc access = .error (.unmapped addr) ∧
      ∃ e, (flat r).locate addr len fc access = .error e ∧ e ≠ .unmapped addr := by
  cases h with | @intro _ l hplaced
  have hpos := toNat_pos hlen
  unfold Space.locate Region.check
  dsimp only
  rw [Layout.find?_of_le hplaced hle]
  refine ⟨rfl, ?_⟩
  by_cases hdenied : r.protection.denies addr fc access = true
  · exact ⟨.denied addr fc access, by rw [if_pos hdenied], nofun⟩
  rw [if_neg hdenied]
  by_cases htop : UInt32.size ≤ addr.toNat + len.toNat
  · exact ⟨.overflow addr len, by rw [if_pos htop], nofun⟩
  · exact ⟨.outOfRange addr len, by rw [if_neg htop, if_pos (by omega)], nofun⟩

/-- Both memories have the same byte at every address. -/
theorem byte? (h : s.LaidOut s') (addr : UInt32) : s'.byte? addr = s.byte? addr := by
  obtain @⟨r, l, hplaced⟩ := h
  by_cases hin : addr.toNat < r.size
  · simp [Space.byte?, spot?, position?, placed?, byteAt, region?, Layout.find?_of_lt hplaced hin,
      hplaced, hin]
  · have hfind := Layout.find?_of_le hplaced (Nat.le_of_not_lt hin)
    rw [Space.byte?, Space.byte?, spot?, spot?, position?, position?, hfind]
    simp [placed?, hin]

/-- Reading gives the same from both memories. -/
theorem read (h : s.LaidOut s') (addr len : UInt32) (fc : FunctionCode) (access : Access)
    (hlen : len ≠ 0) :
    OutcomesAlike Eq (s.read addr len fc access) (s'.read addr len fc access) := by
  have hlocate := h.locate addr len fc access hlen
  obtain @⟨r, l, hplaced⟩ := h
  unfold Space.read
  generalize (flat r).locate addr len fc access = outcome,
    (mapped l).locate addr len fc access = outcome' at hlocate
  cases hlocate with
  | error e e' => exact .error e e'
  | @ok spot spot' hspot =>
    obtain ⟨rfl, hindex⟩ := hspot
    refine .ok ?_
    simp [numberAt, hindex, hplaced]

/-- Writing leaves memories that can be exchanged again. -/
theorem write (h : s.LaidOut s') (addr len value : UInt32) (fc : FunctionCode) (hlen : len ≠ 0) :
    OutcomesAlike LaidOut (s.write addr len value fc) (s'.write addr len value fc) := by
  have hlocate := h.locate addr len fc .write hlen
  obtain @⟨r, l, hplaced⟩ := h
  unfold Space.write
  generalize (flat r).locate addr len fc .write = outcome,
    (mapped l).locate addr len fc .write = outcome' at hlocate
  cases hlocate with
  | error e e' => exact .error e e'
  | @ok spot spot' hspot =>
    obtain ⟨rfl, hindex⟩ := hspot
    refine .ok ?_
    simp only [setNumberAt, modify, hindex, if_pos]
    exact .intro (by simp [Layout.modify, hplaced])

/-- One region and the layout of it can be exchanged. -/
theorem spaceLikeness : SpaceLikeness LaidOut where
  read addr len fc access h hlen := h.read addr len fc access hlen
  write addr len value fc h hlen := h.write addr len value fc hlen

end Space.LaidOut

/-- A region that fits into the address space can be placed at zero. -/
theorem Layout.exists_laidOut {r : Region} (hpos : 0 < r.size) (hsize : r.size ≤ UInt32.size) :
    ∃ l, Layout.build [⟨0, r⟩] = .ok l ∧ (Space.flat r).LaidOut (.mapped l) := by
  have hsorted : [(⟨0, r⟩ : Placed)].mergeSort (fun a b => a.start ≤ b.start) = [⟨0, r⟩] :=
    List.mergeSort_singleton _
  have hdefect : firstDefect none ([(⟨0, r⟩ : Placed)].map Placed.extent) = none := by
    have hempty : (Placed.extent ⟨0, r⟩).size ≠ 0 := Nat.ne_of_gt hpos
    have hstop : (Placed.extent ⟨0, r⟩).stop = r.size := Nat.zero_add r.size
    have hend : ¬ UInt32.size < (Placed.extent ⟨0, r⟩).stop := by
      rw [hstop]
      exact Nat.not_lt.2 hsize
    simp only [List.map_cons, List.map_nil, firstDefect, if_neg hempty, if_neg hend]
  unfold build
  dsimp only
  split
  next e he =>
    rw [hsorted, hdefect] at he
    cases he
  next h => exact ⟨_, rfl, .intro (congrArg List.toArray hsorted)⟩

namespace Machine

/-- The machine with another memory. -/
def onSpace (m : Machine) (space : Space) : Machine :=
  { m with space := space }

/-- A memory of one region and the layout of this region alone make one machine. Whatever is
done, with the layout in place of the region every call has the same answer, and the same
registers, run state, opcode, instruction address and bytes are left. The reasons of the
two memories differ all the same where nothing is placed. -/
theorem sole_region_alike (m : Machine) (r : Region) (hflat : m.space = .flat r)
    (hpos : 0 < r.size) (hsize : r.size ≤ UInt32.size) :
    ∃ l, Layout.build [⟨0, r⟩] = .ok l ∧
      (∀ calls,
        let space := ((m.onSpace (.mapped l)).performAll calls).space
        (m.onSpace (.mapped l)).answers calls = m.answers calls ∧
          (m.onSpace (.mapped l)).performAll calls = (m.performAll calls).onSpace space ∧
          (m.performAll calls).space.LaidOut space ∧
          ∀ addr, space.byte? addr = (m.performAll calls).space.byte? addr) ∧
      ∀ addr len fc access, r.size ≤ addr.toNat → len ≠ 0 →
        (Space.mapped l).locate addr len fc access = .error (.unmapped addr) ∧
          ∃ e, m.space.locate addr len fc access = .error e ∧ e ≠ .unmapped addr := by
  obtain ⟨l, hbuild, hlaid⟩ := Layout.exists_laidOut hpos hsize
  refine ⟨l, hbuild, fun calls => ?_, fun addr len fc access hle hlen => ?_⟩
  · have hlike : HostLikeness (Matches (fun c c' => c' = c) Space.LaidOut) :=
      hostLikeness_matches (fun _ _ h => by rw [h]) Space.LaidOut.spaceLikeness
    have hstart : m.Matches (fun c c' => c' = c) Space.LaidOut (m.onSpace (.mapped l)) :=
      ⟨rfl, rfl, hflat ▸ hlaid⟩
    obtain ⟨hanswers, hlast⟩ := hlike.performAll hstart calls
    refine ⟨hanswers, hlast.machine.trans ?_, hlast.space, hlast.space.byte?⟩
    rw [hlast.chip]
    rfl
  · rw [hflat]
    exact hlaid.locate_of_le hlen hle fc access

/-- Two vectors and one instruction, behind which the memory ends. -/
def shortMemory : Region :=
  ⟨.general, ⟨#[0, 0, 0, 8, 0, 0, 0, 8, 0x4E, 0x71]⟩⟩

/-- A machine that starts in this memory. -/
def shortLived : Machine :=
  Machine.initial .mc68010 .vector (.flat shortMemory)

/-- A machine runs to the end of its short memory, where the two memories refuse the fetch for
different reasons, and halts on the layout too. -/
theorem sole_region_alike_short : shortLived.space = .flat shortMemory ∧ 0 < shortMemory.size ∧
    shortMemory.size ≤ UInt32.size ∧ ∃ l, Layout.build [⟨0, shortMemory⟩] = .ok l ∧
      ((shortLived.onSpace (.mapped l)).performAll [.step, .step, .step]).state = .halted ∧
      ((shortLived.onSpace (.mapped l)).performAll [.step, .step, .step]).registers.pc = 10 ∧
      (Space.mapped l).locate 10 2 .supervisorProgram .fetch = .error (.unmapped 10) ∧
      shortLived.space.locate 10 2 .supervisorProgram .fetch = .error (.outOfRange 10 2) := by
  obtain ⟨l, hbuild, hcalls, herrors⟩ :=
    sole_region_alike shortLived shortMemory rfl (by decide) (by decide)
  obtain ⟨-, hlast, -, -⟩ := hcalls [.step, .step, .step]
  obtain ⟨hunmapped, -⟩ := herrors 10 2 .supervisorProgram .fetch (by decide) (by decide)
  refine ⟨rfl, by decide, by decide, l, hbuild, ?_, ?_, hunmapped, rfl⟩
  · rw [hlast]
    change (shortLived.performAll [.step, .step, .step]).state = .halted
    decide +kernel
  · rw [hlast]
    change (shortLived.performAll [.step, .step, .step]).registers.pc = 10
    decide +kernel

end Machine

end Cpu68k
