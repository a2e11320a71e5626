import Cpu68k.CommandLine.Report
import Cpu68k.Proofs.DataAccess
import Cpu68k.Proofs.Runs

/-!
# Booting from an image

The RAM of a run holds the image and, in front of it, reset vectors that lead there, so every
run of a machine in it starts by taking them. Whether the program can then be fetched is
another matter: an image may be accepted at an odd address, in low memory, from which nobody
fetches, or so close to the end that no word is left. `Arguments.boots_as_loaded` says what
the RAM holds, where the reset leads, and from which addresses the first opcode is fetched.
-/

namespace Cpu68k

/-! ### The contents of the RAM -/

section

variable {image : ByteArray} {load ramSize i k : Nat} {protection : Protection}

/-- The bytes of an image that is placed in clear RAM. -/
theorem data_imageBytes : (imageBytes image load ramSize).data =
    Array.replicate load 0 ++ image.data ++ Array.replicate (ramSize - load - image.size) 0 := by
  rw [imageBytes, ByteArray.data_append, ByteArray.data_append]
  rfl

/-- An image that fits leaves the RAM as large as it was. -/
theorem size_imageBytes (h : load + image.size ≤ ramSize) :
    (imageBytes image load ramSize).size = ramSize := by
  rw [← ByteArray.size_data, data_imageBytes, Array.size_append, Array.size_append,
    Array.size_replicate, Array.size_replicate, ByteArray.size_data]
  omega

/-- The image is where it was copied. -/
theorem byte_imageBytes (hk : k < image.size) :
    (⟨protection, imageBytes image load ramSize⟩ : Region).byte (load + k) = image[k] := by
  have hfront : load + k < (Array.replicate load (0 : UInt8) ++ image.data).size := by
    rw [Array.size_append, Array.size_replicate, ByteArray.size_data]
    omega
  have hback : (Array.replicate load (0 : UInt8)).size ≤ load + k := by
    rw [Array.size_replicate]
    omega
  rw [Region.byte_eq_getD, data_imageBytes, Array.getElem?_append_left hfront,
    Array.getElem?_append_right hback, Array.size_replicate, Nat.add_sub_cancel_left,
    Array.getElem?_eq_getElem hk, Option.getD_some, ByteArray.getElem_eq_getElem_data]

/-- The bytes around the image are clear. -/
theorem byte_imageBytes_of_outside (hi : i < load ∨ load + image.size ≤ i) :
    (⟨protection, imageBytes image load ramSize⟩ : Region).byte i = 0 := by
  rw [Region.byte_eq_getD, data_imageBytes, Array.getElem?_append, Array.getElem?_append,
    Array.getElem?_replicate, Array.getElem?_replicate, Array.size_append, Array.size_replicate,
    ByteArray.size_data]
  split
  · rw [if_pos (by omega), if_pos (by omega)]
    rfl
  · split <;> rfl

end

variable {image : ByteArray} {load ramSize : UInt32} {ram : Region}

/-- RAM that holds an image and reset vectors that lead to it, and nothing else. -/
structure Loaded (image : ByteArray) (load ramSize : UInt32) (ram : Region) : Prop where
  /-- The low bytes are protected. -/
  protection : ram.protection = .lowMemory
  /-- There are as many bytes as were asked for. -/
  size : ram.size = ramSize.toNat
  /-- The image lies behind the vectors and ends within the RAM. -/
  placed : resetVectorsSize ≤ load.toNat ∧ load.toNat + image.size ≤ ramSize.toNat
  /-- The stack starts at the end of the RAM. -/
  stack : bigEndian [ram.byte 0, ram.byte 1, ram.byte 2, ram.byte 3] = ramSize.toNat
  /-- The program starts with the image. -/
  program : bigEndian [ram.byte 4, ram.byte 5, ram.byte 6, ram.byte 7] = load.toNat
  /-- The image is in its place. -/
  intact : ∀ k (h : k < image.size), ram.byte (load.toNat + k) = image[k]
  /-- All other bytes are clear. -/
  clear : ∀ i, resetVectorsSize ≤ i → i < load.toNat ∨ load.toNat + image.size ≤ i →
    ram.byte i = 0

/-- A long that is written is the number of the four bytes from there on. -/
theorem Region.bigEndian_setNumber {r : Region} {i : Nat} (h : i + 4 ≤ r.size) (value : UInt32) :
    bigEndian ((List.range 4).map fun k => (r.setNumber i 4 value).byte (i + k)) =
      value.toNat := by
  have hmask : lowBytes 4 = Size.long.mask := lowBytes_bytes .long
  rw [← toNat_number_eq (Nat.le_refl 4), number_setNumber h, hmask, Size.toNat_and_mask]
  exact Nat.mod_eq_of_lt value.toNat_lt

/-- An image with a place of its own is accepted if it lies behind the vectors and ends within
the RAM, and the vectors are written in front of it. -/
theorem bootRam_eq_ok_iff (hload : load ≠ 0) : bootRam image load ramSize = .ok ram ↔
    resetVectorsSize ≤ load.toNat ∧ load.toNat + image.size ≤ ramSize.toNat ∧
      ram = ((⟨.lowMemory, imageBytes image load.toNat ramSize.toNat⟩ : Region).setNumber
        0 4 ramSize).setNumber 4 4 load := by
  unfold bootRam
  rw [if_neg hload]
  constructor
  · intro h
    split at h
    next => cases h
    split at h
    next => cases h
    split at h
    next => cases h
    next hfits hvectors =>
      rw [Except.ok.injEq] at h
      exact ⟨Nat.le_of_not_lt hvectors, Nat.le_of_not_lt hfits, h.symm⟩
  · rintro ⟨hvectors, hfits, hram⟩
    have hsize : resetVectorsSize ≤ ramSize.toNat :=
      Nat.le_trans hvectors (Nat.le_trans (Nat.le_add_right _ _) hfits)
    rw [if_neg (Nat.not_lt.2 hsize), if_neg (Nat.not_lt.2 hfits), if_neg (Nat.not_lt.2 hvectors),
      hram]

/-- The vectors are written in front of an image in clear RAM and leave it alone. -/
theorem loaded_of_vectors {clear : Region} (hprotection : clear.protection = .lowMemory)
    (hsize : clear.size = ramSize.toNat)
    (hplaced : resetVectorsSize ≤ load.toNat ∧ load.toNat + image.size ≤ ramSize.toNat)
    (hintact : ∀ k (h : k < image.size), clear.byte (load.toNat + k) = image[k])
    (hclear : ∀ i, i < load.toNat ∨ load.toNat + image.size ≤ i → clear.byte i = 0) :
    Loaded image load ramSize ((clear.setNumber 0 4 ramSize).setNumber 4 4 load) := by
  have hvectors : 8 ≤ load.toNat := hplaced.1
  have hroom : 4 + 4 ≤ (clear.setNumber 0 4 ramSize).size := by
    rw [Region.size_setNumber]
    omega
  have hbehind {i : Nat} (hi : 8 ≤ i) :
      ((clear.setNumber 0 4 ramSize).setNumber 4 4 load).byte i = clear.byte i := by
    rw [Region.byte_setNumber_of_outside (by omega), Region.byte_setNumber_of_outside (by omega)]
  constructor
  case protection => rw [Region.protection_setNumber, Region.protection_setNumber, hprotection]
  case size => rw [Region.size_setNumber, Region.size_setNumber, hsize]
  case placed => exact hplaced
  case stack =>
    have hstack := Region.bigEndian_setNumber (r := clear) (i := 0) (by omega) ramSize
    -- The second long lies behind the first and leaves it alone.
    have hbefore {i : Nat} (hi : i < 4) :
        ((clear.setNumber 0 4 ramSize).setNumber 4 4 load).byte i =
          (clear.setNumber 0 4 ramSize).byte i :=
      Region.byte_setNumber_of_outside (.inl hi) load
    rw [hbefore (by decide), hbefore (by decide), hbefore (by decide), hbefore (by decide)]
    exact hstack
  case program => exact Region.bigEndian_setNumber hroom load
  case intact =>
    intro k hk
    rw [hbehind (by omega), hintact k hk]
  case clear =>
    intro i hi houtside
    rw [hbehind hi, hclear i houtside]

/-- RAM that is accepted holds what was asked for. -/
theorem loaded_of_bootRam (hload : load ≠ 0) (h : bootRam image load ramSize = .ok ram) :
    Loaded image load ramSize ram := by
  obtain ⟨hvectors, hfits, hram⟩ := (bootRam_eq_ok_iff hload).1 h
  rw [hram]
  exact loaded_of_vectors rfl (size_imageBytes hfits) ⟨hvectors, hfits⟩
    (fun k hk => byte_imageBytes hk) fun i hi => byte_imageBytes_of_outside hi

/-! ### The reset exception -/

/-- One region reads the number at the address where its check allows it. -/
theorem Space.read_flat_eq_ok {region : Region} {addr len value : UInt32} {fc : FunctionCode}
    {access : Access} : (flat region).read addr len fc access = .ok value ↔
      region.check addr len fc access = .ok () ∧ region.number addr.toNat len.toNat = value := by
  rw [read, locate]
  cases region.check addr len fc access with
  | error e => simp
  | ok u => simp [numberAt]

/-- The supervisor reads the vectors back. -/
theorem Loaded.vectors (h : Loaded image load ramSize ram) :
    (Space.flat ram).read 0 4 .supervisorData .read = .ok ramSize ∧
      (Space.flat ram).read 4 4 .supervisorData .read = .ok load := by
  have hsize := h.size
  have hroom : 8 ≤ load.toNat ∧ load.toNat + image.size ≤ ramSize.toNat := h.placed
  have hallowed {addr : UInt32} (haddr : addr.toNat + 4 ≤ 8) :
      ram.check addr 4 .supervisorData .read = .ok () := by
    refine Region.check_eq_ok.2 ⟨?_, ?_, ?_⟩
    · rw [h.protection, Protection.denies]
      exact Bool.and_false _
    · exact Nat.lt_of_le_of_lt haddr (by decide)
    · rw [hsize]
      exact Nat.le_trans haddr (by omega)
  constructor
  · refine Space.read_flat_eq_ok.2 ⟨hallowed (by decide), UInt32.toNat_inj.1 ?_⟩
    exact (Region.toNat_number_eq (Nat.le_refl 4)).trans h.stack
  · refine Space.read_flat_eq_ok.2 ⟨hallowed (by decide), UInt32.toNat_inj.1 ?_⟩
    exact (Region.toNat_number_eq (Nat.le_refl 4)).trans h.program

namespace Machine

variable {m : Machine}

/-- A reset that finds its vectors. -/
theorem reset_eq {ssp pc : UInt32} (hssp : m.space.read 0 4 .supervisorData .read = .ok ssp)
    (hpc : m.space.read 4 4 .supervisorData .read = .ok pc) : m.reset =
      ⟨{ m with
        registers := { m.registers with sr := ⟨0x2700⟩, vbr := 0, ssp := ssp, pc := pc }
        state := .normal }, [.resetTaken m.chip ssp pc]⟩ := by
  unfold reset
  simp only [hssp, hpc]
  rfl

/-- The machine in front of a program: it has been reset in RAM that holds the program, to the
end of the RAM and to the program's first address. -/
def booted (chip : Chip) (policy : FaultPolicy) (ram : Region) (load ramSize : UInt32) :
    Machine where
  registers := { RegisterFile.initial with sr := ⟨0x2700⟩, vbr := 0, ssp := ramSize, pc := load }
  space := .flat ram
  chip := chip
  state := .normal
  opcode := 0
  instructionAddress := 0
  policy := policy

/-- A program starts in the supervisor's mode. -/
theorem programSpace_booted (chip : Chip) (policy : FaultPolicy) (ram : Region)
    (load ramSize : UInt32) :
    (booted chip policy ram load ramSize).programSpace = .supervisorProgram := by
  have hmode : (⟨0x2700⟩ : Status).has Status.supervisor = true := by decide
  rw [programSpace, booted, RegisterFile.isSupervisor, hmode]
  rfl

/-- Every run of a machine in the RAM resets first, and goes on in front of the program. -/
theorem run_initial (h : Loaded image load ramSize ram) (chip : Chip) (policy : FaultPolicy)
    (keep : Event → Bool) (limit : Nat) :
    let ready := booted chip policy ram load ramSize
    (initial chip policy (.flat ram)).run keep limit =
      ⟨(ready.run keep limit).val,
        [Event.resetTaken chip ramSize load].filter keep ++ (ready.run keep limit).events⟩ := by
  intro ready
  obtain ⟨hssp, hpc⟩ := h.vectors
  have hready : (initial chip policy (.flat ram)).ready =
      ⟨ready, [.resetTaken chip ramSize load]⟩ := by
    have hstate : (initial chip policy (.flat ram)).state = .startup := rfl
    rw [Machine.ready, if_pos hstate]
    exact reset_eq hssp hpc
  rw [run_ready, hready]

end Machine

/-! ### The first fetch -/

/-- Whether a program can be started at an address of the RAM: instructions lie at even
addresses, not in low memory, and there has to be room for one word. -/
def Executable (load ramSize : UInt32) : Prop :=
  load.toNat % 2 = 0 ∧ 1024 ≤ load.toNat ∧ load.toNat + 2 ≤ ramSize.toNat

instance : Decidable (Executable load ramSize) :=
  inferInstanceAs (Decidable (_ ∧ _))

/-- The fault of a fetch that is refused: odd addresses are refused before the memory is
asked. -/
def Fault.ofFetch (addr : UInt32) (fc : FunctionCode) : Fault :=
  if addr.toNat % 2 = 1 then .addressError ⟨addr, .fetch, fc⟩ else .busError ⟨addr, .fetch, fc⟩

/-- The RAM allows a fetch outside low memory that ends within it. -/
theorem Loaded.check_fetch_iff (h : Loaded image load ramSize ram) :
    ram.check load 2 .supervisorProgram .fetch = .ok () ↔
      1024 ≤ load.toNat ∧ load.toNat + 2 ≤ ramSize.toNat := by
  -- The size of the RAM is a 32-bit number, so no access that ends within it wraps around.
  have htop : ramSize.toNat < UInt32.size := ramSize.toNat_lt
  have htwo : (2 : UInt32).toNat = 2 := rfl
  rw [Region.check_eq_ok, h.size, Bool.eq_false_iff, ne_eq, Protection.denies_eq_true, htwo]
  constructor
  · rintro ⟨hallowed, -, hend⟩
    refine ⟨?_, hend⟩
    by_contra hlow
    exact hallowed ⟨h.protection, Nat.lt_of_not_le hlow, .inr rfl⟩
  · rintro ⟨hhigh, hend⟩
    refine ⟨?_, by omega, hend⟩
    rintro ⟨-, hlow, -⟩
    exact absurd hhigh (Nat.not_le.2 hlow)

namespace Machine

variable {m : Machine} {addr : UInt32} {word : UInt16}

/-- A word is fetched at even addresses where the memory allows it. -/
theorem wordAt?_eq_some_iff : m.wordAt? addr = some word ↔ addr.toNat % 2 = 0 ∧
    ∃ value, m.space.read addr 2 m.programSpace .fetch = .ok value ∧ value.toUInt16 = word := by
  rw [wordAt?]
  by_cases hodd : addr.toNat % 2 = 1
  · rw [if_pos (and_one_bne_zero_iff.2 hodd)]
    constructor
    · intro h
      cases h
    · rintro ⟨heven, -⟩
      omega
  · have heven : addr.toNat % 2 = 0 := by omega
    rw [if_neg (mt and_one_bne_zero_iff.1 hodd)]
    cases m.space.read addr 2 m.programSpace .fetch with
    | error e => simp
    | ok value => simp [heven]

/-- An opcode is fetched where there is a word to be fetched. -/
theorem exists_fetchOpcode_iff :
    (∃ m', fetchOpcode m = .ok word m') ↔ m.wordAt? m.registers.pc = some word := by
  constructor
  · rintro ⟨m', h⟩
    exact (ends_fetchOpcode.of_ok h).1
  · intro h
    exact ⟨m.fetched word, fetchOpcode_eq h⟩

/-- Where there is none the fetch fails. -/
theorem exists_fetchWord_error (h : m.wordAt? m.registers.pc = none) :
    ∃ cause, fetchWord m = .error ⟨.ofFetch m.registers.pc m.programSpace, cause⟩ m := by
  unfold fetchWord Fault.ofFetch
  dsimp only
  by_cases hodd : m.registers.pc.toNat % 2 = 1
  · rw [if_pos (and_one_bne_zero_iff.2 hodd), if_pos hodd]
    exact ⟨none, rfl⟩
  · rw [if_neg (mt and_one_bne_zero_iff.1 hodd), if_neg hodd]
    cases hread : m.space.read m.registers.pc 2 m.programSpace .fetch with
    | error e => exact ⟨some e, rfl⟩
    | ok value =>
      have hword := wordAt?_eq_some_iff.2 ⟨by omega, value, hread, rfl⟩
      rw [h] at hword
      cases hword

/-- A step that cannot fetch its opcode ends with the fault of the fetch. -/
theorem fault?_of_wordAt?_eq_none (hstate : m.state = .normal)
    (h : m.wordAt? m.registers.pc = none) :
    m.fault? = some (.ofFetch m.registers.pc m.programSpace) := by
  obtain ⟨cause, hfetch⟩ :=
    exists_fetchWord_error (m := { m with instructionAddress := m.registers.pc }) h
  have hopcode : fetchOpcode m = .error ⟨.ofFetch m.registers.pc m.programSpace, cause⟩
      { m with instructionAddress := m.registers.pc } := by
    change (fetchWord >>= _) { m with instructionAddress := m.registers.pc } = _
    exact bind_of_error hfetch
  rw [fault?_eq hstate, cycle, bind_of_error hopcode]

/-- The first word of the program. -/
theorem wordAt?_booted (h : Loaded image load ramSize ram) (chip : Chip) (policy : FaultPolicy) :
    (booted chip policy ram load ramSize).wordAt? load = some word ↔ Executable load ramSize ∧
      word.toNat = bigEndian [ram.byte load.toNat, ram.byte (load.toNat + 1)] := by
  have hnumber : (ram.number load.toNat 2).toUInt16.toNat =
      bigEndian [ram.byte load.toNat, ram.byte (load.toNat + 1)] := by
    have hlt : (ram.number load.toNat 2).toNat < 2 ^ (8 * 2) := Region.number_lt (by decide)
    rw [UInt32.toNat_toUInt16, Nat.mod_eq_of_lt hlt]
    exact Region.toNat_number_eq (by decide)
  have hspace : (booted chip policy ram load ramSize).space = .flat ram := rfl
  rw [wordAt?_eq_some_iff, hspace, programSpace_booted]
  simp only [Space.read_flat_eq_ok, h.check_fetch_iff]
  constructor
  · rintro ⟨heven, value, ⟨hallowed, rfl⟩, rfl⟩
    exact ⟨⟨heven, hallowed⟩, hnumber⟩
  · rintro ⟨⟨heven, hallowed⟩, hword⟩
    exact ⟨heven, _, ⟨hallowed, rfl⟩, UInt16.toNat_inj.1 (hnumber.trans hword.symm)⟩

end Machine

/-! ### The runner -/

namespace CommandLine

/-- The RAM of a run is that around the image which the arguments name. -/
theorem Arguments.ram_eq_ok_iff {a : Arguments} {files : Files} : a.ram files = .ok ram ↔
    ∃ image, files a.image = some image ∧ bootRam image a.load a.ramSize = .ok ram := by
  unfold Arguments.ram
  cases files a.image with
  | none => simp
  | some image =>
    cases hboot : bootRam image a.load a.ramSize with
    | error e => simp [hboot, Except.mapError]
    | ok r => simp [hboot, Except.mapError]

/-- Every image that is accepted is booted as it was loaded. The RAM holds it with reset vectors
in front of it, and is clear otherwise. Every run of a machine in this RAM resets to the end of
the RAM and the start of the image, and goes on from there. The first opcode is the word at the
start of the image exactly where this is executable, and elsewhere the first step ends with a
fault. -/
theorem Arguments.boots_as_loaded (a : Arguments) (files : Files) (ram : Region)
    (hload : a.load ≠ 0) (hram : a.ram files = .ok ram) (chip : Chip) (policy : FaultPolicy) :
    let ready := Machine.booted chip policy ram a.load a.ramSize
    (∃ image, files a.image = some image ∧ Loaded image a.load a.ramSize ram) ∧
      (∀ keep limit, (Machine.initial chip policy (.flat ram)).run keep limit =
        ⟨(ready.run keep limit).val,
          [Event.resetTaken chip a.ramSize a.load].filter keep ++
            (ready.run keep limit).events⟩) ∧
      (∀ word, (∃ m, fetchOpcode ready = .ok word m) ↔ Executable a.load a.ramSize ∧
        word.toNat = bigEndian [ram.byte a.load.toNat, ram.byte (a.load.toNat + 1)]) ∧
      (¬Executable a.load a.ramSize →
        ready.fault? = some (.ofFetch a.load .supervisorProgram)) := by
  obtain ⟨image, himage, hboot⟩ := Arguments.ram_eq_ok_iff.1 hram
  have hloaded := loaded_of_bootRam hload hboot
  intro ready
  refine ⟨⟨image, himage, hloaded⟩, Machine.run_initial hloaded chip policy, ?_, ?_⟩
  · intro word
    rw [Machine.exists_fetchOpcode_iff]
    exact Machine.wordAt?_booted hloaded chip policy
  · intro hrefused
    have hnone : ready.wordAt? ready.registers.pc = none := by
      rw [Option.eq_none_iff_forall_ne_some]
      intro word hword
      exact hrefused ((Machine.wordAt?_booted hloaded chip policy).1 hword).1
    rw [← Machine.programSpace_booted chip policy ram a.load a.ramSize]
    exact Machine.fault?_of_wordAt?_eq_none rfl hnone

/-- Arguments with an image at the first address that is not in low memory. -/
def starting : Arguments where
  image := "image"
  chip? := none
  config? := none
  load := 1024
  ramSize := 1032
  maxSteps := 10
  vectorFaults := false
  dump := false

/-- An image of three bytes. -/
def startingFiles : Files := fun path =>
  if path = "image" then some ⟨#[0x4E, 0x72, 0x27]⟩ else none

/-- The RAM around that image. -/
def startingRam : Region :=
  ((⟨.lowMemory, imageBytes ⟨#[0x4E, 0x72, 0x27]⟩ 1024 1032⟩ : Region).setNumber
    0 4 1032).setNumber 4 4 1024

/-- An image of three bytes starts at its address, and its first word is fetched there. -/
theorem Arguments.boots_as_loaded_starting :
    let ready := Machine.booted .mc68020 .vector startingRam 1024 1032
    starting.load ≠ 0 ∧ starting.ram startingFiles = .ok startingRam ∧
      ((Machine.initial .mc68020 .vector (.flat startingRam)).run (fun _ => true) 0).val =
        (0, ready) ∧
      ∃ m, fetchOpcode ready = .ok 0x4E72 m := by
  intro ready
  have hram : starting.ram startingFiles = .ok startingRam := rfl
  obtain ⟨-, hrun, hfetch, -⟩ := Arguments.boots_as_loaded starting startingFiles startingRam
    (by decide) hram .mc68020 .vector
  have hready : (ready.run (fun _ => true) 0).val = (0, ready) := rfl
  have hword : Executable starting.load starting.ramSize ∧ (0x4E72 : UInt16).toNat =
      bigEndian [startingRam.byte 1024, startingRam.byte 1025] :=
    ⟨by decide, by decide +kernel⟩
  refine ⟨by decide, hram, ?_, (hfetch 0x4E72).2 hword⟩
  exact (congrArg Logged.val (hrun (fun _ => true) 0)).trans hready

end CommandLine

end Cpu68k
