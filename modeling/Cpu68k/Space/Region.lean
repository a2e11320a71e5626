import Cpu68k.Bus

/-!
# Memory regions

A region is a run of bytes with a protection. `Region.check` decides an access
before anything is read or written, so reading and writing themselves cannot
fail. A region counts its bytes from zero; whoever places it somewhere moves the
addresses of its errors there. Numbers are stored with the most significant byte
first.
-/

namespace Cpu68k

/-- Why an access was refused, with the address at which it starts. -/
inductive AccessError
  /-- The access wraps past the top of the address space. -/
  | overflow (addr len : UInt32)
  /-- The access ends past the end of its region. -/
  | outOfRange (addr len : UInt32)
  /-- The region's protection refuses this function code or kind of access. -/
  | denied (addr : UInt32) (fc : FunctionCode) (access : Access)
  /-- No region holds the address. -/
  | unmapped (addr : UInt32)
  deriving DecidableEq

/-- The message of an access error. -/
def AccessError.message : AccessError → String
  | overflow addr len =>
    toString len.toNat ++ "-byte access at " ++ hex 8 addr.toNat ++ " wraps the address space"
  | outOfRange addr len =>
    toString len.toNat ++ "-byte access at " ++ hex 8 addr.toNat ++
      " runs past the end of its region"
  | denied addr fc access =>
    access.verb ++ " at " ++ hex 8 addr.toNat ++ " denied to " ++ fc.name
  | unmapped addr => "no region mapped at " ++ hex 8 addr.toNat

/-- The address that an access error is about. -/
def AccessError.addr : AccessError → UInt32
  | overflow addr _ | outOfRange addr _ | denied addr _ _ | unmapped addr => addr

/-- The same error where the bytes are counted from `start` on. -/
def AccessError.rebased (start : UInt32) : AccessError → AccessError
  | overflow addr len => overflow (addr + start) len
  | outOfRange addr len => outOfRange (addr + start) len
  | denied addr fc access => denied (addr + start) fc access
  | unmapped addr => unmapped (addr + start)

/-- Who may use the low bytes of a region. -/
inductive Protection
  /-- Everyone, for everything. -/
  | general
  /-- The first 1024 bytes hold vectors: only the supervisor reads and writes
  them, and nobody fetches instructions from them. -/
  | lowMemory
  deriving DecidableEq, Inhabited

/-- The number of bytes that `Protection.lowMemory` guards. -/
def lowMemoryLimit : Nat := 1024

/-- Whether an access that starts at `offset` in the region is refused. Only the
first byte of the access counts. -/
def Protection.denies (protection : Protection) (offset : UInt32) (fc : FunctionCode)
    (access : Access) : Bool :=
  match protection with
  | .general => false
  | .lowMemory => offset.toNat < lowMemoryLimit && (fc.isUser || access == .fetch)

/-- A run of bytes with a protection. -/
structure Region where
  /-- Who may use the low bytes. -/
  protection : Protection
  /-- The contents. -/
  bytes : ByteArray

namespace Region

instance : DecidableEq Region := fun r r' =>
  decidable_of_iff (r.protection = r'.protection ∧ r.bytes.data = r'.bytes.data) <| by
    obtain ⟨protection, bytes⟩ := r
    obtain ⟨protection', bytes'⟩ := r'
    rw [Region.mk.injEq, ByteArray.ext_iff]

/-- The number of bytes in the region. -/
def size (r : Region) : Nat :=
  r.bytes.size

/-- Decides an access to `len` bytes from `offset` on: protection comes first,
then the address space, then the end of the region. -/
def check (r : Region) (offset len : UInt32) (fc : FunctionCode) (access : Access) :
    Except AccessError Unit :=
  if r.protection.denies offset fc access then .error (.denied offset fc access)
  else if UInt32.size ≤ offset.toNat + len.toNat then .error (.overflow offset len)
  else if r.size < offset.toNat + len.toNat then .error (.outOfRange offset len)
  else .ok ()

/-- Byte `i` of the region; there is a zero past the end. -/
def byte (r : Region) (i : Nat) : UInt8 :=
  if h : i < r.bytes.size then r.bytes[i] else 0

/-- Replaces byte `i`; past the end nothing happens. -/
def setByte (r : Region) (i : Nat) (value : UInt8) : Region :=
  if h : i < r.bytes.size then { r with bytes := r.bytes.set i value h } else r

/-- The `n` bytes from `i` on as one number, modulo 2^32. -/
def number (r : Region) (i : Nat) : Nat → UInt32
  | 0 => 0
  | n + 1 => (r.number i n <<< 8) ||| (r.byte (i + n)).toUInt32

/-- Writes the low `n` bytes of `value` from `i` on. -/
def setNumber (r : Region) (i : Nat) : Nat → UInt32 → Region
  | 0, _ => r
  | n + 1, value => (r.setByte (i + n) value.toUInt8).setNumber i n (value >>> 8)

/-- The `n` bytes from `i` on. -/
def slice (r : Region) (i n : Nat) : List UInt8 :=
  (r.bytes.extract i (i + n)).data.toList

/-- Writes a list of bytes from `i` on. -/
def setSlice (r : Region) (i : Nat) : List UInt8 → Region
  | [] => r
  | b :: bs => (r.setByte i b).setSlice (i + 1) bs

/-- Replacing a byte keeps the size of the region. -/
@[simp]
theorem size_setByte (r : Region) (i : Nat) (value : UInt8) : (r.setByte i value).size = r.size := by
  rw [setByte]
  split
  · rw [size, ← ByteArray.size_data, ByteArray.data_set, Array.size_set]
    rfl
  · rfl

/-- Writing a number keeps the size of the region. -/
@[simp]
theorem size_setNumber (r : Region) (i n : Nat) (value : UInt32) :
    (r.setNumber i n value).size = r.size := by
  induction n generalizing r value with
  | zero => rfl
  | succ n ih => simp [setNumber, ih]

/-- Writing a list of bytes keeps the size of the region. -/
@[simp]
theorem size_setSlice (r : Region) (i : Nat) (bs : List UInt8) :
    (r.setSlice i bs).size = r.size := by
  induction bs generalizing r i with
  | nil => rfl
  | cons b bs ih => simp [setSlice, ih]

end Region

end Cpu68k
