import Cpu68k.Space.Region

/-!
# Layouts of regions

A layout places regions in the address space, in ascending order and without
overlap. The invariant is part of the type: `Layout.build` checks it once, and
writing keeps it because no write changes where a region starts or ends.
-/

namespace Cpu68k

/-- A region and the address of its first byte. -/
structure Placed where
  /-- The address of the first byte. -/
  start : UInt32
  /-- The bytes and their protection. -/
  region : Region
  deriving DecidableEq

/-- The addresses that a placed region takes. -/
structure Extent where
  /-- The first address. -/
  start : UInt32
  /-- The number of bytes. -/
  size : Nat
  deriving DecidableEq

/-- The first address after the extent, as an exact number. -/
def Extent.stop (e : Extent) : Nat :=
  e.start.toNat + e.size

/-- Whether the extent holds an address. -/
def Extent.contains (e : Extent) (addr : UInt32) : Bool :=
  e.start.toNat ≤ addr.toNat && addr.toNat < e.stop

/-- The addresses of a placed region. -/
def Placed.extent (p : Placed) : Extent :=
  ⟨p.start, p.region.size⟩

/-- Extents that form a layout: none is empty, none goes past the top of the
address space, and each ends before the later ones start. -/
structure Ordered (es : List Extent) : Prop where
  /-- No extent is empty. -/
  nonempty : ∀ e ∈ es, 0 < e.size
  /-- Every extent ends at 2^32 or before. -/
  bounded : ∀ e ∈ es, e.stop ≤ UInt32.size
  /-- Earlier extents end before later ones start. -/
  apart : es.Pairwise fun a b => a.stop ≤ b.start.toNat

/-- Why regions do not form a layout. -/
inductive LayoutError
  /-- A region starts before the one at `other` has ended. -/
  | overlap (start other : UInt32)
  /-- A region goes past the top of the address space. -/
  | pastEnd (start : UInt32)
  /-- A region has no bytes. -/
  | empty (start : UInt32)
  deriving DecidableEq

/-- The message of a layout error. -/
def LayoutError.message : LayoutError → String
  | overlap start other =>
    "region at " ++ hex 8 start.toNat ++ " overlaps the region at " ++ hex 8 other.toNat
  | pastEnd start =>
    "region at " ++ hex 8 start.toNat ++ " extends past the top of the address space"
  | empty start => "region at " ++ hex 8 start.toNat ++ " is empty"

/-- The first defect of extents in ascending order, where `before` precedes
them. Each extent is tested for its size, its end and then its neighbour. -/
def firstDefect : Option Extent → List Extent → Option LayoutError
  | _, [] => none
  | before, e :: es =>
    if e.size = 0 then some (.empty e.start)
    else if UInt32.size < e.stop then some (.pastEnd e.start)
    else
      match before with
      | none => firstDefect (some e) es
      | some b =>
        if e.start.toNat < b.stop then some (.overlap e.start b.start)
        else firstDefect (some e) es

/-- Extents without a defect start after whatever precedes them. -/
theorem stop_le_of_firstDefect {b : Extent} {es : List Extent}
    (h : firstDefect (some b) es = none) : ∀ e ∈ es, b.stop ≤ e.start.toNat := by
  induction es generalizing b with
  | nil => simp
  | cons e es ih =>
    simp only [firstDefect] at h
    split at h
    · cases h
    split at h
    · cases h
    split at h
    · cases h
    have hstep : b.stop ≤ e.start.toNat := by omega
    intro x hx
    rcases List.mem_cons.1 hx with rfl | hx
    · exact hstep
    · have hx := ih h x hx
      simp only [Extent.stop] at *
      omega

/-- Extents without a defect form a layout. -/
theorem ordered_of_firstDefect {before : Option Extent} {es : List Extent}
    (h : firstDefect before es = none) : Ordered es := by
  induction es generalizing before with
  | nil => exact ⟨by simp, by simp, .nil⟩
  | cons e es ih =>
    simp only [firstDefect] at h
    split at h
    · cases h
    split at h
    · cases h
    have hrest : firstDefect (some e) es = none := by
      cases before with
      | none => exact h
      | some b =>
        simp only at h
        split at h
        · cases h
        · exact h
    have hlater := stop_le_of_firstDefect hrest
    have htail := ih hrest
    refine ⟨?_, ?_, ?_⟩
    · intro x hx
      rcases List.mem_cons.1 hx with rfl | hx
      · omega
      · exact htail.nonempty x hx
    · intro x hx
      rcases List.mem_cons.1 hx with rfl | hx
      · omega
      · exact htail.bounded x hx
    · exact .cons hlater htail.apart

/-- Regions placed in ascending order and without overlap. -/
structure Layout where
  /-- The regions, lowest first. -/
  placed : Array Placed
  /-- The regions' addresses form a layout. -/
  ordered : Ordered (placed.toList.map Placed.extent)

namespace Layout

/-- Sorts regions by their first address and checks that they form a layout.
Regions with the same first address stay in the order in which they are given. -/
def build (regions : List Placed) : Except LayoutError Layout :=
  let sorted := regions.mergeSort fun a b => a.start ≤ b.start
  match h : firstDefect none (sorted.map Placed.extent) with
  | some e => .error e
  | none => .ok ⟨sorted.toArray, ordered_of_firstDefect h⟩

/-- The number of regions. -/
def size (l : Layout) : Nat :=
  l.placed.size

/-- The number of regions that start at `addr` or before it, where those before position `lo`
are known to and those from `hi` on are known not to. The regions stand in ascending order,
so each look at the middle settles one half of the others. -/
def countStarts (placed : Array Placed) (addr : UInt32) (lo hi : Nat) (h : hi ≤ placed.size) :
    Nat :=
  if hlt : lo < hi then
    let mid := lo + (hi - lo) / 2
    if placed[mid].start ≤ addr then countStarts placed addr (mid + 1) hi h
    else countStarts placed addr lo mid (by omega)
  else lo
termination_by hi - lo

/-- The position of the region that holds an address. Only the last region that starts at
the address or before it can hold it. -/
def find? (l : Layout) (addr : UInt32) : Option Nat :=
  match countStarts l.placed addr 0 l.placed.size (Nat.le_refl _) with
  | 0 => none
  | i + 1 =>
    match l.placed[i]? with
    | none => none
    | some p => if (addr - p.start).toNat < p.region.size then some i else none

/-- Changes the contents of region `i`. -/
def modify (l : Layout) (i : Nat) (f : Region → Region) (hf : ∀ r, (f r).size = r.size) :
    Layout where
  placed := l.placed.modify i fun p => { p with region := f p.region }
  ordered := by
    have hmap : (l.placed.modify i fun p => { p with region := f p.region }).toList.map
        Placed.extent = l.placed.toList.map Placed.extent := by
      apply List.ext_getElem
      · simp
      · intro j h₁ h₂
        simp only [List.getElem_map, Array.getElem_toList, Array.getElem_modify]
        split <;> simp [Placed.extent, hf]
    rw [hmap]
    exact l.ordered

end Layout

end Cpu68k
