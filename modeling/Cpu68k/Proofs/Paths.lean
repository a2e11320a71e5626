import Cpu68k.Inspection
import Cpu68k.Proofs.EffectiveAddress

/-!
# Paths and their values

A text is understood as a register letter with one digit, or as a name, and the listing is
written down apart from both. `Machine.query_exact` says that the machine answers exactly the
texts of the listing: reading is the inverse of writing, so a text with another digit, another
letter or more letters is none. What it answers about registers and about parts of the status
word is stated on the registers and on the one word that it answers for all of them.
-/

namespace Cpu68k

/-! ### Written forms -/

namespace Path

variable {digit : Char} {name text : String} {path : Path}

/-- A register number is written as one digit. -/
theorem toList_toString (n : Fin 8) : (toString n.val).toList = [Char.ofNat (48 + n.val)] := by
  revert n
  decide

/-- A data register is written as a letter and a digit. -/
theorem toList_text_dataReg (n : Fin 8) :
    (dataReg n).text.toList = ['d', Char.ofNat (48 + n.val)] := by
  rw [Path.text, String.toList_append, toList_toString]
  rfl

/-- An address register is written as a letter and a digit. -/
theorem toList_text_addrReg (n : Fin 8) :
    (addrReg n).text.toList = ['a', Char.ofNat (48 + n.val)] := by
  rw [Path.text, String.toList_append, toList_toString]
  rfl

/-- A digit of a register is that of its number, and no other character is one. -/
theorem eq_of_registerNumber? {n : Fin 8} (h : registerNumber? digit = some n) :
    digit = Char.ofNat (48 + n.val) := by
  unfold registerNumber? at h
  split at h
  next hdigit =>
    cases h
    have hnumber : 48 + (digit.toNat - 48) = digit.toNat := by omega
    exact (hnumber ▸ Char.ofNat_toNat digit).symm
  next => cases h

/-- A name that is read was written so. -/
theorem eq_text_of_ofName? (h : ofName? name = some path) : name = path.text := by
  unfold ofName? at h
  split at h <;> cases h <;> rfl

/-- What is read was written so. -/
theorem eq_text_of_ofText? (h : ofText? text = some path) : text = path.text := by
  unfold ofText? at h
  split at h
  next digit htext =>
    obtain ⟨n, hn, rfl⟩ := Option.map_eq_some_iff.1 h
    rw [← String.toList_inj, htext, toList_text_dataReg, eq_of_registerNumber? hn]
  next digit htext =>
    obtain ⟨n, hn, rfl⟩ := Option.map_eq_some_iff.1 h
    rw [← String.toList_inj, htext, toList_text_addrReg, eq_of_registerNumber? hn]
  next => exact eq_text_of_ofName? h

/-- What is written is read back. -/
theorem ofText?_text (path : Path) : ofText? path.text = some path := by
  cases path with
  | dataReg n | addrReg n =>
    revert n
    decide
  | _ => decide

/-- Reading is the inverse of writing: every path has one written form. -/
theorem ofText?_eq_some_iff : ofText? text = some path ↔ text = path.text :=
  ⟨eq_text_of_ofText?, fun h => h ▸ ofText?_text path⟩

/-! ### The listing -/

/-- No path is missing among all of them. -/
theorem mem_all (path : Path) : path ∈ all := by
  cases path with
  | dataReg n | addrReg n =>
    revert n
    decide
  | _ => decide

/-- The listing holds the written forms of all paths. -/
theorem listed_eq : listed = all.map Path.text := by
  decide

/-- A text is listed if it is the written form of a path. -/
theorem mem_listed_iff : text ∈ listed ↔ ∃ path : Path, text = path.text := by
  rw [listed_eq, List.mem_map]
  exact ⟨fun ⟨path, _, h⟩ => ⟨path, h.symm⟩, fun ⟨path, h⟩ => ⟨path, mem_all path, h.symm⟩⟩

/-- The texts that are understood are those of the listing. -/
theorem isSome_ofText?_iff : (ofText? text).isSome ↔ text ∈ listed := by
  simp only [Option.isSome_iff_exists, ofText?_eq_some_iff, mem_listed_iff]

end Path

/-! ### Fields of the status word -/

namespace RegisterFile

/-- The condition codes are the low byte of the status word. -/
theorem ccr_eq (r : RegisterFile) : r.ccr = .ofNat (r.sr.bits.toNat % 2 ^ 8) := by
  refine UInt8.toNat_inj.1 ?_
  rw [ccr, UInt16.toNat_toUInt8, UInt8.toNat_ofNat']
  omega

/-- The interrupt mask is three bits of the high byte of the status word. -/
theorem interruptMask_eq (r : RegisterFile) :
    r.interruptMask = .ofNat (r.sr.bits.toNat / 2 ^ 8 % 2 ^ 3) := by
  refine UInt8.toNat_inj.1 ?_
  have hbits : (r.sr.bits.toNat &&& 0x0700) >>> 8 = r.sr.bits.toNat / 2 ^ 8 % 2 ^ 3 := by
    rw [Nat.shiftRight_and_distrib, Nat.shiftRight_eq_div_pow]
    exact Nat.and_two_pow_sub_one_eq_mod _ 3
  rw [interruptMask, UInt16.toNat_toUInt8, UInt16.toNat_shiftRight, UInt16.toNat_and,
    UInt8.toNat_ofNat']
  exact congrArg (· % 2 ^ 8) hbits

end RegisterFile

/-- The paths of single bits of the status word, with the numbers of the bits. -/
def statusFlags : List (String × Nat) :=
  [("flags.x", 4), ("flags.n", 3), ("flags.z", 2), ("flags.v", 1), ("flags.c", 0),
    ("flags.s", 13), ("flags.t", 15)]

namespace Machine

variable {m : Machine} {text : String} {reading : Reading}

/-- What a machine answers about its numbered registers, and about the fields of a word that
it answers for its status. -/
structure ShowsRegisters (m : Machine) (sr : UInt16) : Prop where
  /-- The data registers by their numbers. -/
  data : ∀ n : Fin 8, m.query ("d" ++ toString n.val) = some (.long (m.registers.data.get n))
  /-- The address registers by their numbers. -/
  addr : ∀ n : Fin 7, m.query ("a" ++ toString n.val) = some (.long (m.registers.addr.get n))
  /-- The last address register is the stack pointer of the current mode. -/
  stack : m.query "a7" =
    some (.long (if sr.toNat.testBit 13 then m.registers.ssp else m.registers.usp))
  /-- The status word. -/
  status : m.query "sr" = some (.word sr)
  /-- The condition codes are its low byte. -/
  ccr : m.query "ccr" = some (.byte (.ofNat (sr.toNat % 2 ^ 8)))
  /-- The interrupt mask is the low three bits of its high byte. -/
  interruptMask : m.query "int_mask" = some (.byte (.ofNat (sr.toNat / 2 ^ 8 % 2 ^ 3)))
  /-- The flags are single bits. -/
  flags : ∀ flag ∈ statusFlags, m.query flag.1 = some (.flag (sr.toNat.testBit flag.2))

/-- At the written form of a path the machine answers the value. -/
theorem query_text (m : Machine) (path : Path) : m.query path.text = some (m.read path) := by
  rw [query, Path.ofText?_text, Option.map_some]

/-- A listing shows every value, at its written path. -/
theorem readings_eq (m : Machine) :
    m.readings = Path.all.map fun path => (path.text, m.read path) := by
  rw [readings, Path.listed_eq, List.filterMap_map, ← List.filterMap_eq_map]
  refine congrArg (List.filterMap · Path.all) (funext fun path => ?_)
  simp only [Function.comp_apply, query_text, Option.map_some]

/-- All address registers but the last one are those of the register file. -/
theorem read_addrReg_of_lt (m : Machine) (n : Fin 7) :
    m.read (.addrReg n.castSucc) = .long (m.registers.addr.get n) :=
  congrArg Reading.long (dif_pos n.isLt)

/-- The stack pointer of the current mode, by the supervisor bit. -/
theorem read_addrReg_seven (m : Machine) : m.read (.addrReg 7) =
    .long (if m.registers.sr.bits.toNat.testBit 13 then m.registers.ssp else m.registers.usp) := by
  have hmode : m.registers.isSupervisor = m.registers.sr.bits.toNat.testBit 13 :=
    and_bne_zero_eq_testBit rfl
  rw [← hmode]
  rfl

/-- A flag is a bit of the status word. -/
theorem query_statusFlags (m : Machine) : ∀ flag ∈ statusFlags,
    m.query flag.1 = some (.flag (m.registers.sr.bits.toNat.testBit flag.2)) := by
  have hbit (path : Path) {mask : UInt16} {i : Nat} (hmask : mask.toNat = 2 ^ i)
      (hread : m.read path = .flag (m.registers.sr.has mask)) :
      m.query path.text = some (.flag (m.registers.sr.bits.toNat.testBit i)) := by
    rw [query_text, hread, Status.has, and_bne_zero_eq_testBit hmask]
  intro flag hflag
  simp only [statusFlags, List.mem_cons, List.not_mem_nil, or_false] at hflag
  rcases hflag with rfl | rfl | rfl | rfl | rfl | rfl | rfl
  · exact hbit .extend rfl rfl
  · exact hbit .negative rfl rfl
  · exact hbit .zero rfl rfl
  · exact hbit .overflow rfl rfl
  · exact hbit .carry rfl rfl
  · exact hbit .supervisor rfl rfl
  · exact hbit .traced rfl rfl

/-- A machine answers its registers, and for its status the word in its status register. -/
theorem showsRegisters (m : Machine) : m.ShowsRegisters m.registers.sr.bits where
  data n := m.query_text (.dataReg n)
  addr n := (m.query_text (.addrReg n.castSucc)).trans (congrArg some (m.read_addrReg_of_lt n))
  stack := (m.query_text (.addrReg 7)).trans (congrArg some m.read_addrReg_seven)
  status := m.query_text .sr
  ccr := by rw [← m.registers.ccr_eq]; exact m.query_text .ccr
  interruptMask := by rw [← m.registers.interruptMask_eq]; exact m.query_text .interruptMask
  flags := m.query_statusFlags

/-- A machine answers exactly the texts of the listing. At the paths of numbered registers it
answers these, the last address register being the stack pointer of the current mode, and at
the paths of flags, condition codes and interrupt mask the fields of the word that it answers
for its status. -/
theorem query_exact (m : Machine) (text : String) :
    ((m.query text).isSome ↔ text ∈ Path.listed) ∧ m.ShowsRegisters m.registers.sr.bits := by
  refine ⟨?_, m.showsRegisters⟩
  rw [query, Option.isSome_map, Path.isSome_ofText?_iff]

/-- A number out of range, another case and a longer text are not understood. -/
example (m : Machine) :
    m.query "a8" = none ∧ m.query "D0" = none ∧ m.query "d00" = none ∧ m.query "" = none :=
  ⟨rfl, rfl, rfl, rfl⟩

end Machine

end Cpu68k
