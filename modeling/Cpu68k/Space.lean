import Cpu68k.Space.Layout

/-!
# The address space

A machine sees one region, or several placed regions. `Space.locate` decides an
access and says where its bytes are; reading and writing at a located spot
cannot fail.
-/

namespace Cpu68k

/-- The memory of a machine. -/
inductive Space
  /-- One region that starts at address zero. -/
  | flat (region : Region)
  /-- Several regions, each at its place. -/
  | mapped (layout : Layout)

/-- The place of a byte: the position of its region and its offset there. -/
structure Spot where
  /-- The position of the region. -/
  index : Nat
  /-- The offset in the region. -/
  offset : Nat
  deriving DecidableEq

namespace Space

/-- Where the `len` bytes from `addr` on are, if the access is allowed. -/
def locate (s : Space) (addr len : UInt32) (fc : FunctionCode) (access : Access) :
    Except AccessError Spot :=
  match s with
  | flat region =>
    match region.check addr len fc access with
    | .error e => .error e
    | .ok () => .ok ⟨0, addr.toNat⟩
  | mapped layout =>
    match layout.find? addr with
    | none => .error (.unmapped addr)
    | some i =>
      match layout.placed[i]? with
      | none => .error (.unmapped addr)
      | some p =>
        match p.region.check (addr - p.start) len fc access with
        | .error e => .error (e.rebased p.start)
        | .ok () => .ok ⟨i, (addr - p.start).toNat⟩

/-- A region by its position. -/
def region? (s : Space) (i : Nat) : Option Region :=
  match s with
  | flat region => if i = 0 then some region else none
  | mapped layout => (layout.placed[i]?).map Placed.region

/-- Changes the contents of the region at a position. -/
def modify (s : Space) (i : Nat) (f : Region → Region) (hf : ∀ r, (f r).size = r.size) : Space :=
  match s with
  | flat region => flat (if i = 0 then f region else region)
  | mapped layout => mapped (layout.modify i f hf)

/-- The `n` bytes at a spot as one number. -/
def numberAt (s : Space) (spot : Spot) (n : Nat) : UInt32 :=
  match s with
  | flat region => region.number spot.offset n
  | mapped layout =>
    match layout.placed[spot.index]? with
    | none => 0
    | some p => p.region.number spot.offset n

/-- Writes the low `n` bytes of `value` at a spot. -/
def setNumberAt (s : Space) (spot : Spot) (n : Nat) (value : UInt32) : Space :=
  s.modify spot.index (fun r => r.setNumber spot.offset n value) fun r => r.size_setNumber _ _ _

/-- Reads `len` bytes from `addr` on as one number. -/
def read (s : Space) (addr len : UInt32) (fc : FunctionCode) (access : Access) :
    Except AccessError UInt32 :=
  match s.locate addr len fc access with
  | .error e => .error e
  | .ok spot => .ok (s.numberAt spot len.toNat)

/-- Writes the low `len` bytes of `value` from `addr` on. -/
def write (s : Space) (addr len value : UInt32) (fc : FunctionCode) : Except AccessError Space :=
  match s.locate addr len fc .write with
  | .error e => .error e
  | .ok spot => .ok (s.setNumberAt spot len.toNat value)

/-- The `len` bytes from `addr` on. -/
def view (s : Space) (addr len : UInt32) (fc : FunctionCode) (access : Access) :
    Except AccessError (List UInt8) :=
  match s.locate addr len fc access with
  | .error e => .error e
  | .ok spot =>
    match s.region? spot.index with
    | none => .error (.unmapped addr)
    | some region => .ok (region.slice spot.offset len.toNat)

/-- Writes bytes from `addr` on, as an access of the given kind. -/
def overwrite (s : Space) (addr : UInt32) (bytes : List UInt8) (fc : FunctionCode)
    (access : Access) : Except AccessError Space :=
  match s.locate addr bytes.length.toUInt32 fc access with
  | .error e => .error e
  | .ok spot =>
    .ok (s.modify spot.index (fun r => r.setSlice spot.offset bytes) fun r => r.size_setSlice _ _)

/-- All regions with their first addresses, lowest first. -/
def regions (s : Space) : List Placed :=
  match s with
  | flat region => [⟨0, region⟩]
  | mapped layout => layout.placed.toList

end Space

end Cpu68k
