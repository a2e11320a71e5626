import Cpu68k.Machine
import Cpu68k.Proofs.Lookup
import Cpu68k.Proofs.Regions

/-!
# Laws of memory

A write changes the bytes that its address range names and nothing else, and the
same range then reads back what was written. Addresses are counted modulo 2^32, so
a range may go on at zero. The places and protections of the regions never change:
they are the outline of a space, which decides every access.
-/

namespace Cpu68k

/-! ### Outlines -/

/-- A sum that does not wrap. -/
theorem toNat_add_of_lt {a b : UInt32} (h : a.toNat + b.toNat < UInt32.size) :
    (a + b).toNat = a.toNat + b.toNat := by
  rw [UInt32.toNat_add]
  exact Nat.mod_eq_of_lt h

/-- The positions in a range of addresses. -/
theorem toNat_position {k : Nat} {len : UInt32} (hk : k < len.toNat) : (UInt32.ofNat k).toNat = k :=
  UInt32.toNat_ofNat_of_lt' (Nat.lt_trans hk len.toNat_lt)

/-- The position of a byte in an access, as a long. -/
theorem position_lt {k : Nat} {len : UInt32} (hk : k < len.toNat) : UInt32.ofNat k < len := by
  rwa [UInt32.lt_iff_toNat_lt, toNat_position hk]

/-- A length other than zero is positive. -/
theorem toNat_pos {len : UInt32} (h : len ≠ 0) : 0 < len.toNat :=
  Nat.pos_of_ne_zero fun hzero => h (UInt32.toNat_inj.1 hzero)

/-- What no write changes about a placed region. -/
structure Outline where
  /-- The addresses. -/
  extent : Extent
  /-- Who may use the low bytes. -/
  protection : Protection
  deriving DecidableEq

/-- The outline of a placed region. -/
def Placed.outline (p : Placed) : Outline :=
  ⟨p.extent, p.region.protection⟩

/-- Regions with one outline decide every access alike. -/
theorem Placed.check_congr {p p' : Placed} (h : p'.outline = p.outline) (addr len : UInt32)
    (fc : FunctionCode) (access : Access) :
    p'.region.check (addr - p'.start) len fc access =
      p.region.check (addr - p.start) len fc access := by
  have hstart : p'.start = p.start := congrArg (fun o => o.extent.start) h
  rw [hstart]
  exact Region.check_congr (congrArg Outline.protection h) (congrArg (fun o => o.extent.size) h) ..

namespace Space

variable {s s' : Space}

/-- The outlines of all regions. One region at zero is told from a layout of one
region. -/
def outline : Space → Outline ⊕ List Outline
  | flat region => .inl (Placed.outline ⟨0, region⟩)
  | mapped layout => .inr (layout.placed.toList.map Placed.outline)

/-- A region by its position, with its first address. -/
def placed? (s : Space) (i : Nat) : Option Placed :=
  match s with
  | flat region => if i = 0 then some ⟨0, region⟩ else none
  | mapped layout => layout.placed[i]?

/-- The position of the region in which an address is looked up. -/
def position? (s : Space) (addr : UInt32) : Option Nat :=
  match s with
  | flat _ => some 0
  | mapped layout => layout.find? addr

/-- A region is that of its placed region. -/
theorem region?_eq (s : Space) (i : Nat) : s.region? i = (s.placed? i).map Placed.region := by
  cases s with
  | flat region =>
    rw [region?, placed?]
    split <;> rfl
  | mapped layout => rfl

/-- An access is allowed if there is a region at the address that allows it. -/
theorem locate_eq_ok {addr len : UInt32} {fc : FunctionCode} {access : Access} {spot : Spot} :
    s.locate addr len fc access = .ok spot ↔ ∃ p, s.position? addr = some spot.index ∧
      s.placed? spot.index = some p ∧ p.region.check (addr - p.start) len fc access = .ok () ∧
      spot.offset = (addr - p.start).toNat := by
  obtain ⟨index, offset⟩ := spot
  cases s with
  | flat region =>
    have hzero : addr - 0 = addr := UInt32.sub_zero addr
    rw [locate, position?, placed?]
    constructor
    · intro h
      cases hcheck : region.check addr len fc access with
      | error e => simp [hcheck] at h
      | ok u =>
        simp only [hcheck, Except.ok.injEq, Spot.mk.injEq] at h
        obtain ⟨rfl, rfl⟩ := h
        exact ⟨⟨0, region⟩, rfl, rfl, by rwa [hzero], by rw [hzero]⟩
    · rintro ⟨p, hindex, hp, hcheck, hoffset⟩
      cases hindex
      cases hp
      rw [hzero] at hcheck hoffset
      subst hoffset
      simp only [hcheck]
  | mapped layout =>
    simp only [locate, position?, placed?]
    cases hfind : layout.find? addr with
    | none => simp
    | some i =>
      simp only
      cases hplaced : layout.placed[i]? with
      | none => grind
      | some p =>
        simp only
        cases hcheck : p.region.check (addr - p.start) len fc access <;> grind

/-- Spaces of one outline have the same outlines at the same positions. -/
theorem map_outline_placed? (h : s'.outline = s.outline) (i : Nat) :
    (s'.placed? i).map Placed.outline = (s.placed? i).map Placed.outline := by
  cases s with
  | flat region =>
    cases s' with
    | flat region' =>
      rw [placed?, placed?]
      split
      · exact congrArg some (Sum.inl.inj h)
      · rfl
    | mapped layout' => cases h
  | mapped layout =>
    cases s' with
    | flat region' => cases h
    | mapped layout' =>
      have hlist := congrArg (fun os => os[i]?) (Sum.inr.inj h)
      simpa [placed?] using hlist

/-- Spaces with one outline have regions at the same positions. -/
theorem exists_placed? (h : s'.outline = s.outline) {i : Nat} {p' : Placed}
    (hp' : s'.placed? i = some p') : ∃ p, s.placed? i = some p ∧ p.outline = p'.outline := by
  have hmap := map_outline_placed? h i
  rwa [hp', Option.map_some, eq_comm, Option.map_eq_some_iff] at hmap

/-- Spaces of one outline look up an address in the same region. -/
theorem position?_congr (h : s'.outline = s.outline) (addr : UInt32) :
    s'.position? addr = s.position? addr := by
  cases s with
  | flat region =>
    cases s' with
    | flat region' => rfl
    | mapped layout' => cases h
  | mapped layout =>
    cases s' with
    | flat region' => cases h
    | mapped layout' =>
      have hle {l l' : Layout} (h : (mapped l').outline = (mapped l).outline) {i : Nat}
          (hfind : l'.find? addr = some i) : l.find? addr = some i := by
        obtain ⟨p', hp', hcontains⟩ := Layout.find?_eq_some.1 hfind
        obtain ⟨p, hp, houtline⟩ := exists_placed? h hp'
        have hextent : p.extent = p'.extent := congrArg Outline.extent houtline
        exact Layout.find?_eq_some.2 ⟨p, hp, by rwa [hextent]⟩
      exact Option.ext fun i => ⟨hle h, hle h.symm⟩

/-- Spaces with one outline decide every access alike. -/
theorem locate_eq_ok_congr (h : s'.outline = s.outline) {addr len : UInt32} {fc : FunctionCode}
    {access : Access} {spot : Spot} :
    s'.locate addr len fc access = .ok spot ↔ s.locate addr len fc access = .ok spot := by
  have hle {s s' : Space} (h : s'.outline = s.outline)
      (hlocate : s'.locate addr len fc access = .ok spot) :
      s.locate addr len fc access = .ok spot := by
    obtain ⟨p', hposition, hp', hcheck, hoffset⟩ := locate_eq_ok.1 hlocate
    obtain ⟨p, hp, houtline⟩ := exists_placed? h hp'
    have hstart : p.start = p'.start := congrArg (fun o => o.extent.start) houtline
    exact locate_eq_ok.2 ⟨p, (position?_congr h addr) ▸ hposition, hp,
      by rwa [Placed.check_congr houtline], by rw [hoffset, hstart]⟩
  exact ⟨hle h, hle h.symm⟩

/-! ### Where bytes are -/

/-- Where the byte at an address is. -/
def spot? (s : Space) (addr : UInt32) : Option Spot := do
  let i ← s.position? addr
  let p ← s.placed? i
  if (addr - p.start).toNat < p.region.size then some ⟨i, (addr - p.start).toNat⟩ else none

/-- The byte at a spot; there is a zero outside all regions. -/
def byteAt (s : Space) (spot : Spot) : UInt8 :=
  match s.region? spot.index with
  | none => 0
  | some region => region.byte spot.offset

/-- An address is at a spot if its region reaches that far. -/
theorem spot?_eq_some {addr : UInt32} {spot : Spot} :
    s.spot? addr = some spot ↔ ∃ p, s.position? addr = some spot.index ∧
      s.placed? spot.index = some p ∧ spot.offset = (addr - p.start).toNat ∧
      spot.offset < p.region.size := by
  obtain ⟨index, offset⟩ := spot
  simp only [spot?, Option.bind_eq_bind, Option.bind_eq_some_iff]
  constructor
  · rintro ⟨i, hi, p, hp, h⟩
    split at h
    · cases h
      exact ⟨p, hi, hp, rfl, by assumption⟩
    · cases h
  · rintro ⟨p, hi, hp, rfl, hlt⟩
    exact ⟨index, hi, p, hp, if_pos hlt⟩

/-- Different addresses are at different spots. -/
theorem spot?_injective {a b : UInt32} {spot : Spot} (ha : s.spot? a = some spot)
    (hb : s.spot? b = some spot) : a = b := by
  obtain ⟨p, -, hp, hoffset, -⟩ := spot?_eq_some.1 ha
  obtain ⟨p', -, hp', hoffset', -⟩ := spot?_eq_some.1 hb
  have hsame : p' = p := Option.some.inj (hp'.symm.trans hp)
  have hsub : a - p.start = b - p.start := by
    rw [← UInt32.toNat_inj, ← hoffset, hoffset', hsame]
  exact (UInt32.sub_left_inj p.start).1 hsub

/-- Spaces of one outline have their bytes at the same spots. -/
theorem spot?_congr (h : s'.outline = s.outline) (addr : UInt32) :
    s'.spot? addr = s.spot? addr := by
  have hle {s s' : Space} (h : s'.outline = s.outline) {spot : Spot}
      (hspot : s'.spot? addr = some spot) : s.spot? addr = some spot := by
    obtain ⟨p', hposition, hp', hoffset, hlt⟩ := spot?_eq_some.1 hspot
    obtain ⟨p, hp, houtline⟩ := exists_placed? h hp'
    have hstart : p.start = p'.start := congrArg (fun o => o.extent.start) houtline
    have hsize : p.region.size = p'.region.size := congrArg (fun o => o.extent.size) houtline
    exact spot?_eq_some.2 ⟨p, (position?_congr h addr) ▸ hposition, hp, by rw [hoffset, hstart],
      by rwa [hsize]⟩
  exact Option.ext fun spot => ⟨hle h, hle h.symm⟩

/-- The region in which an address is looked up holds the addresses behind it up to
its end. -/
theorem position?_add {addr k : UInt32} {i : Nat} {p : Placed}
    (hposition : s.position? addr = some i) (hp : s.placed? i = some p)
    (hlt : (addr - p.start).toNat + k.toNat < p.region.size) : s.position? (addr + k) = some i := by
  cases s with
  | flat region => exact hposition
  | mapped layout =>
    obtain ⟨p', hp', hcontains⟩ := Layout.find?_eq_some.1 hposition
    obtain rfl : p' = p := Option.some.inj (hp'.symm.trans hp)
    obtain ⟨hstart, -⟩ := Placed.contains_iff.1 hcontains
    have hbound : p'.start.toNat + p'.region.size ≤ UInt32.size :=
      layout.ordered.bounded p'.extent (List.mem_map_of_mem (Array.mem_toList_iff.2
        (Array.mem_of_getElem? hp)))
    have hsub := Placed.toNat_sub_start hcontains
    have hadd : (addr + k).toNat = addr.toNat + k.toNat := toNat_add_of_lt (by omega)
    exact Layout.find?_eq_some.2 ⟨p', hp, Placed.contains_iff.2 ⟨by omega, by omega⟩⟩

/-- The bytes of a located range lie one behind the other. -/
theorem spot?_of_locate {addr len k : UInt32} {fc : FunctionCode} {access : Access} {spot : Spot}
    (h : s.locate addr len fc access = .ok spot) (hk : k < len) :
    s.spot? (addr + k) = some ⟨spot.index, spot.offset + k.toNat⟩ := by
  obtain ⟨p, hposition, hp, hcheck, hoffset⟩ := locate_eq_ok.1 h
  obtain ⟨-, htop, hend⟩ := Region.check_eq_ok.1 hcheck
  have hk := UInt32.lt_iff_toNat_lt.1 hk
  have hsub : (addr + k - p.start).toNat = (addr - p.start).toNat + k.toNat := by
    have hswap : addr + k - p.start = addr - p.start + k := by grind
    rw [hswap]
    exact toNat_add_of_lt (by omega)
  refine spot?_eq_some.2 ⟨p, position?_add hposition hp (by omega), hp, ?_, ?_⟩
  · rw [hsub, hoffset]
  · rw [hoffset]
    change (addr - p.start).toNat + k.toNat < p.region.size
    omega

/-! ### Writing -/

/-- Writing a number changes the region at its spot only. -/
theorem region?_setNumberAt (spot : Spot) (n : Nat) (value : UInt32) (i : Nat) :
    (s.setNumberAt spot n value).region? i = if i = spot.index then
      (s.region? i).map fun r => r.setNumber spot.offset n value else s.region? i := by
  cases s with
  | flat region =>
    simp only [setNumberAt, modify, region?]
    split <;> grind
  | mapped layout =>
    simp only [setNumberAt, modify, region?, Layout.modify, Array.getElem?_modify, Option.map_map]
    grind

/-- Writing a number keeps the outline. -/
@[simp]
theorem outline_setNumberAt (spot : Spot) (n : Nat) (value : UInt32) :
    (s.setNumberAt spot n value).outline = s.outline := by
  cases s with
  | flat region =>
    simp only [setNumberAt, modify, outline]
    split <;> simp [Placed.outline, Placed.extent]
  | mapped layout =>
    refine congrArg Sum.inr (List.ext_getElem (by simp [Layout.modify]) ?_)
    intro j h₁ h₂
    simp only [Layout.modify, List.getElem_map, Array.getElem_toList, Array.getElem_modify]
    split <;> simp [Placed.outline, Placed.extent]

/-- A number at a spot is read from the region there. -/
theorem numberAt_eq {spot : Spot} {region : Region} {n : Nat}
    (h : s.region? spot.index = some region) : s.numberAt spot n = region.number spot.offset n := by
  cases s with
  | flat r =>
    rw [region?] at h
    split at h
    · cases h
      rfl
    · cases h
  | mapped layout =>
    obtain ⟨p, hp, rfl⟩ := Option.map_eq_some_iff.1 h
    rw [numberAt, hp]

/-- A number depends on its own bytes only. -/
theorem numberAt_congr {spot : Spot} {n : Nat} {region region' : Region}
    (hregion : s.region? spot.index = some region)
    (hregion' : s'.region? spot.index = some region')
    (h : ∀ k < n,
      s'.byteAt ⟨spot.index, spot.offset + k⟩ = s.byteAt ⟨spot.index, spot.offset + k⟩) :
    s'.numberAt spot n = s.numberAt spot n := by
  rw [numberAt_eq hregion, numberAt_eq hregion']
  refine Region.number_congr fun k hk => ?_
  have hk := h k hk
  rwa [byteAt, byteAt, hregion, hregion'] at hk

/-- Writing a number leaves the bytes at other spots alone. -/
theorem byteAt_setNumberAt_of_outside {spot p : Spot} {n : Nat} (value : UInt32)
    (h : p.index = spot.index → p.offset < spot.offset ∨ spot.offset + n ≤ p.offset) :
    (s.setNumberAt spot n value).byteAt p = s.byteAt p := by
  rw [byteAt, byteAt, region?_setNumberAt]
  by_cases hindex : p.index = spot.index
  · rw [if_pos hindex]
    cases s.region? p.index with
    | none => rfl
    | some region => exact Region.byte_setNumber_of_outside (h hindex) value
  · rw [if_neg hindex]

/-- An access that is located ends within its region. -/
theorem region?_of_locate {addr len : UInt32} {fc : FunctionCode} {access : Access} {spot : Spot}
    (h : s.locate addr len fc access = .ok spot) : ∃ region, s.region? spot.index = some region ∧
      spot.offset + len.toNat ≤ region.size := by
  obtain ⟨p, -, hp, hcheck, hoffset⟩ := locate_eq_ok.1 h
  obtain ⟨-, -, hend⟩ := Region.check_eq_ok.1 hcheck
  exact ⟨p.region, by rw [region?_eq, hp]; rfl, by rwa [hoffset]⟩

end Space

end Cpu68k
