import Cpu68k.Boot
import Cpu68k.Proofs.Memory
import Cpu68k.Proofs.Placement

/-!
# Translating addresses

An access to a layout is answered by the one region that holds its first address, and never
by a neighbour. `Placed.answer` says in exact numbers what that region answers, and
`Layout.access_exact` that the search, the offsets modulo 2^32 and the errors that are moved
back to the region's place come to the same.

A layout may take every address up to the last one. Bounds are sums of 32-bit offsets, which
count from the start of a region, and so an access that ends at the last address is refused as
wrapping if its region starts at 0: there the first offset behind it is 2^32. All other bytes
of a layout can be reached, which `Layout.reachable_unless_from_zero` states.
-/

namespace Cpu68k

/-! ### Rows of bytes in a region -/

namespace Region

variable {r r' : Region} {i : Nat} {bs : List UInt8}

/-- The bytes of the region as a list. -/
def contents (r : Region) : List UInt8 :=
  r.bytes.data.toList

/-- There are as many bytes as the region is large. -/
@[simp]
theorem length_contents (r : Region) : r.contents.length = r.size :=
  rfl

/-- A region is known by its protection and its bytes. -/
theorem eq_of_contents (hprotection : r'.protection = r.protection)
    (h : r'.contents = r.contents) : r' = r := by
  obtain ⟨protection, ⟨data⟩⟩ := r
  obtain ⟨protection', ⟨data'⟩⟩ := r'
  cases hprotection
  cases Array.toList_inj.1 h
  rfl

/-- A slice as a part of the list of bytes. -/
theorem slice_eq (r : Region) (i n : Nat) : r.slice i n = (r.contents.drop i).take n := by
  rw [slice, ByteArray.data_extract, Array.toList_extract, List.extract_eq_take_drop,
    Nat.add_sub_cancel_left]
  rfl

/-- Replacing a byte replaces it in the list. -/
theorem contents_setByte (r : Region) (i : Nat) (b : UInt8) :
    (r.setByte i b).contents = r.contents.set i b := by
  rw [contents, data_setByte, Array.toList_setIfInBounds]
  rfl

/-- Writing a list of bytes keeps the protection. -/
@[simp]
theorem protection_setSlice (r : Region) (i : Nat) (bs : List UInt8) :
    (r.setSlice i bs).protection = r.protection := by
  induction bs generalizing r i with
  | nil => rfl
  | cons b bs ih => rw [setSlice, ih, protection_setByte]

/-- Writing a list of bytes replaces the bytes in its place and leaves those before it and
behind it alone. -/
theorem contents_setSlice (h : i + bs.length ≤ r.size) :
    (r.setSlice i bs).contents =
      r.contents.take i ++ bs ++ r.contents.drop (i + bs.length) := by
  induction bs generalizing r i with
  | nil => rw [setSlice, List.length_nil, Nat.add_zero, List.append_nil, List.take_append_drop]
  | cons b bs ih =>
    rw [List.length_cons] at h
    have hlt : i < r.contents.length := by
      rw [length_contents]
      omega
    have hfront : (r.contents.set i b).take (i + 1) = r.contents.take i ++ [b] := by
      rw [List.take_add_one, List.take_set_of_le (Nat.le_refl i), List.getElem?_set_self hlt]
      rfl
    have hback : (r.contents.set i b).drop (i + 1 + bs.length) =
        r.contents.drop (i + (b :: bs).length) := by
      rw [List.drop_set_of_lt (by omega), List.length_cons, Nat.add_right_comm, Nat.add_assoc]
    rw [setSlice, ih (by rw [size_setByte]; omega), contents_setByte, hfront, hback,
      List.append_assoc (r.contents.take i) [b] bs]
    rfl

end Region

/-! ### What a placed region answers -/

/-- What a protection refuses: the low bytes, to users and to fetches. -/
theorem Protection.denies_eq_true {protection : Protection} {offset : UInt32} {fc : FunctionCode}
    {access : Access} : protection.denies offset fc access = true ↔
      protection = .lowMemory ∧ offset.toNat < lowMemoryLimit ∧
        (fc.isUser = true ∨ access = .fetch) := by
  cases protection <;> simp [Protection.denies]

namespace Placed

/-- The `len` bytes from `addr` on. -/
def row (p : Placed) (addr len : UInt32) : List UInt8 :=
  (p.region.contents.drop (addr.toNat - p.start.toNat)).take len.toNat

/-- The region with `bytes` in place of those from `addr` on. -/
def patched (p : Placed) (addr : UInt32) (bytes : List UInt8) : Placed :=
  let offset := addr.toNat - p.start.toNat
  let contents := p.region.contents.take offset ++ bytes ++
    p.region.contents.drop (offset + bytes.length)
  ⟨p.start, ⟨p.region.protection, ⟨contents.toArray⟩⟩⟩

/-- What an access from `addr` on gives if the region holds that address. -/
def answer (p : Placed) (addr len : UInt32) (fc : FunctionCode) (access : Access) :
    Except AccessError (List UInt8) :=
  let offset := addr.toNat - p.start.toNat
  if p.region.protection = .lowMemory ∧ offset < lowMemoryLimit ∧
      (fc.isUser = true ∨ access = .fetch) then .error (.denied addr fc access)
  else if UInt32.size ≤ offset + len.toNat then .error (.overflow addr len)
  else if p.region.size < offset + len.toNat then .error (.outOfRange addr len)
  else .ok (p.row addr len)

variable {p : Placed} {addr len : UInt32} {fc : FunctionCode} {access : Access}
  {e : AccessError}

/-- Every error of a region is about the address at which the access starts. -/
theorem addr_of_answer (h : p.answer addr len fc access = .error e) : e.addr = addr := by
  simp only [answer] at h
  split at h
  · cases h
    rfl
  split at h
  · cases h
    rfl
  split at h
  · cases h
    rfl
  · cases h

/-- The answer to the supervisor's data accesses, which no protection refuses. -/
theorem answer_supervisor (p : Placed) (addr len : UInt32) (haccess : access ≠ .fetch) :
    p.answer addr len .supervisorData access =
      if UInt32.size ≤ addr.toNat - p.start.toNat + len.toNat then .error (.overflow addr len)
      else if p.region.size < addr.toNat - p.start.toNat + len.toNat then
        .error (.outOfRange addr len)
      else .ok (p.row addr len) := by
  refine if_neg ?_
  rintro ⟨-, -, huser | hfetch⟩
  · cases huser
  · exact haccess hfetch

/-- A row that ends within its region misses no byte. -/
theorem length_row (h : addr.toNat - p.start.toNat + len.toNat ≤ p.region.size) :
    (p.row addr len).length = len.toNat := by
  rw [row, List.length_take, List.length_drop, Region.length_contents]
  omega

/-- A region of clear bytes. -/
def clear (start : UInt32) (size : Nat) : Placed :=
  ⟨start, ⟨.general, clearBytes size⟩⟩

/-- The addresses of a clear region. -/
@[simp]
theorem extent_clear (start : UInt32) (size : Nat) : (clear start size).extent = ⟨start, size⟩ :=
  congrArg (Extent.mk start) Array.size_replicate

end Placed

/-! ### Access to a space -/

namespace Space

variable {s s' : Space} {addr len : UInt32} {bytes : List UInt8} {fc : FunctionCode}
  {access : Access} {e : AccessError}

/-- The number of some bytes as a length. -/
theorem toUInt32_length (h : bytes.length = len.toNat) : bytes.length.toUInt32 = len := by
  rw [h, Nat.toUInt32_eq, UInt32.ofNat_toNat]

/-- Bytes cannot be viewed where their access cannot be located. -/
theorem view_eq_error : s.view addr len fc access = .error e ↔
    s.locate addr len fc access = .error e := by
  unfold view
  cases hlocate : s.locate addr len fc access with
  | error e' => rw [Except.error.injEq, Except.error.injEq]
  | ok spot =>
    obtain ⟨region, hregion, -⟩ := region?_of_locate hlocate
    simp only [hregion]
    exact ⟨nofun, nofun⟩

/-- Bytes can be replaced where they can be viewed, and are refused alike elsewhere. -/
theorem overwrite_eq_error_iff_view (h : bytes.length = len.toNat) :
    s.overwrite addr bytes fc access = .error e ↔ s.view addr len fc access = .error e := by
  rw [view_eq_error, overwrite, toUInt32_length h]
  cases s.locate addr len fc access with
  | error e' => rw [Except.error.injEq, Except.error.injEq]
  | ok spot => exact ⟨nofun, nofun⟩

/-- Bytes that can be viewed can be replaced. -/
theorem exists_overwrite {row : List UInt8} (hview : s.view addr len fc access = .ok row)
    (h : bytes.length = len.toNat) : ∃ s', s.overwrite addr bytes fc access = .ok s' := by
  cases hoverwrite : s.overwrite addr bytes fc access with
  | ok s' => exact ⟨s', rfl⟩
  | error e =>
    rw [overwrite_eq_error_iff_view h, hview] at hoverwrite
    cases hoverwrite

end Space

namespace Layout

variable {l : Layout} {i j : Nat} {p q : Placed} {addr len : UInt32} {bytes : List UInt8}
  {fc : FunctionCode} {access : Access} {e : AccessError} {s' : Space}

/-- An address that no region holds is not found. -/
theorem find?_eq_none (h : ∀ p ∈ l.placed, p.extent.contains addr = false) :
    l.find? addr = none := by
  cases hfind : l.find? addr with
  | none => rfl
  | some i =>
    obtain ⟨p, hp, hcontains⟩ := find?_eq_some.1 hfind
    rw [h p (Array.mem_of_getElem? hp)] at hcontains
    cases hcontains

/-- Addresses that no region holds are unmapped. -/
theorem view_of_unmapped (h : ∀ p ∈ l.placed, p.extent.contains addr = false) :
    (Space.mapped l).view addr len fc access = .error (.unmapped addr) := by
  rw [Space.view_eq_error, Space.locate, find?_eq_none h]

/-- Some region holds an address, or none does. -/
theorem mapped_or_unmapped (l : Layout) (addr : UInt32) :
    (∃ p ∈ l.placed, p.extent.contains addr = true) ∨
      ∀ p ∈ l.placed, p.extent.contains addr = false := by
  by_cases h : ∃ p ∈ l.placed, p.extent.contains addr = true
  · exact .inl h
  · exact .inr fun p hp => Bool.eq_false_iff.2 fun hcontains => h ⟨p, hp, hcontains⟩

/-- The region that holds the first address of an access answers it. -/
theorem view_eq_answer (hp : l.placed[i]? = some p) (h : p.extent.contains addr = true) :
    (Space.mapped l).view addr len fc access = p.answer addr len fc access := by
  have hfind : l.find? addr = some i := find?_eq_some.2 ⟨p, hp, h⟩
  have hregion : (Space.mapped l).region? i = some p.region := by
    rw [Space.region?, hp]
    rfl
  have hback : addr - p.start + p.start = addr := UInt32.sub_add_cancel addr p.start
  simp only [Space.view, Space.locate, hfind, hp, Region.check, Protection.denies_eq_true,
    Placed.toNat_sub_start h, Placed.answer]
  -- The region and the exact answer make the same three tests in the same order.
  by_cases hdenied : p.region.protection = .lowMemory ∧
      addr.toNat - p.start.toNat < lowMemoryLimit ∧ (fc.isUser = true ∨ access = .fetch)
  · simp only [if_pos hdenied, AccessError.rebased, hback]
  by_cases hwraps : UInt32.size ≤ addr.toNat - p.start.toNat + len.toNat
  · simp only [if_neg hdenied, if_pos hwraps, AccessError.rebased, hback]
  by_cases hends : p.region.size < addr.toNat - p.start.toNat + len.toNat
  · simp only [if_neg hdenied, if_neg hwraps, if_pos hends, AccessError.rebased, hback]
  · simp only [if_neg hdenied, if_neg hwraps, if_neg hends, hregion, Region.slice_eq, Placed.row]

/-- Replacing bytes changes these bytes of the region that holds the first one, and no other
region. -/
theorem overwrite_eq_ok (hp : l.placed[i]? = some p) (h : p.extent.contains addr = true)
    (hoverwrite : (Space.mapped l).overwrite addr bytes fc access = .ok s')
    (hbytes : bytes.length = len.toNat) :
    ∃ l', s' = .mapped l' ∧ l'.placed = l.placed.setIfInBounds i (p.patched addr bytes) := by
  rw [Space.overwrite, Space.toUInt32_length hbytes] at hoverwrite
  cases hlocate : (Space.mapped l).locate addr len fc access with
  | error e =>
    rw [hlocate] at hoverwrite
    cases hoverwrite
  | ok spot =>
    obtain ⟨index, offset⟩ := spot
    obtain ⟨q, hfind, hq, hcheck, hoffset⟩ := Space.locate_eq_ok.1 hlocate
    obtain rfl : index = i :=
      Option.some.inj (hfind.symm.trans (find?_eq_some.2 ⟨p, hp, h⟩))
    obtain rfl : q = p := Option.some.inj (hq.symm.trans hp)
    obtain ⟨-, -, hend⟩ := Region.check_eq_ok.1 hcheck
    dsimp only at hoffset
    rw [Placed.toNat_sub_start h] at hoffset hend
    subst hoffset
    simp only [hlocate, Except.ok.injEq] at hoverwrite
    subst hoverwrite
    have hregion : q.region.setSlice (addr.toNat - q.start.toNat) bytes =
        (q.patched addr bytes).region := by
      refine Region.eq_of_contents (Region.protection_setSlice ..) ?_
      rw [Region.contents_setSlice (by omega)]
      exact List.toList_toArray.symm
    refine ⟨_, rfl, Array.ext_getElem? fun j => ?_⟩
    simp only [modify, Array.getElem?_modify, Array.getElem?_setIfInBounds]
    grind [Placed.patched]

/-- An access to a layout is decided by the region that holds its first address. There is
at most one such region; without one the address is unmapped. Bytes can be replaced exactly
where they can be viewed, and every other access has the same reason, which names the
address that was asked for. Replacing bytes changes only these and only in that region. -/
theorem access_exact (l : Layout) (addr len : UInt32) (fc : FunctionCode) (access : Access) :
    ((∀ p ∈ l.placed, p.extent.contains addr = false) →
      (Space.mapped l).view addr len fc access = .error (.unmapped addr)) ∧
    (∀ i p, l.placed[i]? = some p → p.extent.contains addr = true →
      (∀ j q, l.placed[j]? = some q → q.extent.contains addr = true → j = i) ∧
      (Space.mapped l).view addr len fc access = p.answer addr len fc access ∧
      ∀ bytes s', bytes.length = len.toNat →
        (Space.mapped l).overwrite addr bytes fc access = .ok s' →
          ∃ l', s' = .mapped l' ∧ l'.placed = l.placed.setIfInBounds i (p.patched addr bytes)) ∧
    (∀ e, (Space.mapped l).view addr len fc access = .error e → e.addr = addr) ∧
    ∀ bytes e, bytes.length = len.toNat →
      ((Space.mapped l).overwrite addr bytes fc access = .error e ↔
        (Space.mapped l).view addr len fc access = .error e) := by
  refine ⟨view_of_unmapped, ?_, ?_, fun bytes e h => Space.overwrite_eq_error_iff_view h⟩
  · intro i p hp hcontains
    refine ⟨fun j q hq hholds => eq_of_contains hq hp hholds hcontains,
      view_eq_answer hp hcontains, fun bytes s' hbytes hoverwrite => ?_⟩
    exact overwrite_eq_ok hp hcontains hoverwrite hbytes
  · intro e h
    obtain ⟨p, hmem, hcontains⟩ | hunmapped := l.mapped_or_unmapped addr
    · obtain ⟨i, hp⟩ := Array.getElem?_of_mem hmem
      rw [view_eq_answer hp hcontains] at h
      exact Placed.addr_of_answer h
    · rw [view_of_unmapped hunmapped] at h
      cases h
      rfl

/-- Two neighbours with a gap behind them. -/
def neighbours : Layout where
  placed := #[⟨16, ⟨.general, ⟨#[1, 2, 3]⟩⟩⟩, ⟨19, ⟨.lowMemory, ⟨#[4, 5]⟩⟩⟩]
  ordered := ⟨by decide, by decide, by decide⟩

/-- The first neighbour answers for its last byte and refuses a word there, the other one
refuses the user, and behind both nothing is mapped. -/
theorem access_exact_neighbours :
    (Space.mapped neighbours).view 18 1 .userData .write = .ok [3] ∧
    (Space.mapped neighbours).view 19 1 .userData .read = .error (.denied 19 .userData .read) ∧
    (Space.mapped neighbours).view 21 1 .userData .read = .error (.unmapped 21) ∧
    (Space.mapped neighbours).overwrite 18 [7, 8] .userData .write =
      .error (.outOfRange 18 2) ∧
    ∃ l', (Space.mapped neighbours).overwrite 18 [7] .userData .write = .ok (.mapped l') ∧
      l'.placed = #[⟨16, ⟨.general, ⟨#[1, 2, 7]⟩⟩⟩, ⟨19, ⟨.lowMemory, ⟨#[4, 5]⟩⟩⟩] := by
  obtain ⟨-, hbyte, -, -⟩ := access_exact neighbours 18 1 .userData .write
  obtain ⟨-, hword, -, hrefuses⟩ := access_exact neighbours 18 2 .userData .write
  obtain ⟨-, hsecond, -, -⟩ := access_exact neighbours 19 1 .userData .read
  obtain ⟨hgap, -, -, -⟩ := access_exact neighbours 21 1 .userData .read
  obtain ⟨-, hview, hpatch⟩ := hbyte 0 _ rfl rfl
  have hanswer : (Space.mapped neighbours).view 18 1 .userData .write = .ok [3] := hview
  refine ⟨hanswer, (hsecond 1 _ rfl rfl).2.1, hgap (by decide),
    (hrefuses [7, 8] _ rfl).2 (hword 0 _ rfl rfl).2.1, ?_⟩
  have hlength : [(7 : UInt8)].length = (1 : UInt32).toNat := rfl
  obtain ⟨s', hs'⟩ := Space.exists_overwrite hanswer hlength
  obtain ⟨l', rfl, hplaced⟩ := hpatch _ _ hlength hs'
  exact ⟨l', hs', hplaced⟩

/-! ### The last byte of the address space -/

/-- The supervisor's data accesses reach the `len` bytes from `addr` on: these are what it
views, and it can put others in their place. -/
structure Reaches (l : Layout) (p : Placed) (addr len : UInt32) (access : Access) : Prop where
  /-- The view is that of the region's own bytes. -/
  view : (Space.mapped l).view addr len .supervisorData access = .ok (p.row addr len)
  /-- No byte is missing. -/
  length : (p.row addr len).length = len.toNat
  /-- As many bytes can take their place. -/
  overwrite : ∀ bytes, bytes.length = len.toNat →
    ∃ s', (Space.mapped l).overwrite addr bytes .supervisorData access = .ok s'

/-- What the supervisor's data accesses give that start in a placed region. -/
theorem view_supervisor (hp : p ∈ l.placed) (h : p.extent.contains addr = true) (len : UInt32)
    (haccess : access ≠ .fetch) : (Space.mapped l).view addr len .supervisorData access =
      if UInt32.size ≤ addr.toNat - p.start.toNat + len.toNat then .error (.overflow addr len)
      else if p.region.size < addr.toNat - p.start.toNat + len.toNat then
        .error (.outOfRange addr len)
      else .ok (p.row addr len) := by
  obtain ⟨i, hi⟩ := Array.getElem?_of_mem hp
  rw [view_eq_answer hi h, Placed.answer_supervisor p addr len haccess]

/-- An access wraps if, counted from the start of its region, it ends past the last offset. -/
theorem view_eq_overflow_iff (hp : p ∈ l.placed) (h : p.extent.contains addr = true)
    (haccess : access ≠ .fetch) :
    (Space.mapped l).view addr len .supervisorData access = .error (.overflow addr len) ↔
      UInt32.size ≤ addr.toNat - p.start.toNat + len.toNat := by
  rw [view_supervisor hp h len haccess]
  by_cases hwraps : UInt32.size ≤ addr.toNat - p.start.toNat + len.toNat
  · rw [if_pos hwraps]
    exact iff_of_true rfl hwraps
  · rw [if_neg hwraps]
    refine iff_of_false (fun hrefused => ?_) hwraps
    split at hrefused <;> cases hrefused

/-- Rows that end within their region, and not past the last offset, are reached. -/
theorem reaches_of_lt (hp : p ∈ l.placed) (h : p.extent.contains addr = true)
    (haccess : access ≠ .fetch)
    (hend : addr.toNat - p.start.toNat + len.toNat ≤ p.region.size)
    (hoffset : addr.toNat - p.start.toNat + len.toNat < UInt32.size) :
    l.Reaches p addr len access := by
  have hview := view_supervisor hp h len haccess
  rw [if_neg (Nat.not_le.2 hoffset), if_neg (Nat.not_lt.2 hend)] at hview
  exact ⟨hview, Placed.length_row hend, fun bytes hbytes => Space.exists_overwrite hview hbytes⟩

/-- An access that ends at the last address wraps if it starts in a region from 0 on, and only
then: there its length is counted from 0, and the sum is 2^32. -/
theorem view_eq_overflow_iff_of_top (haccess : access ≠ .fetch)
    (htop : addr.toNat + len.toNat = UInt32.size) :
    (Space.mapped l).view addr len .supervisorData access = .error (.overflow addr len) ↔
      ∃ p ∈ l.placed, p.start = 0 ∧ p.extent.contains addr = true := by
  constructor
  · intro hview
    obtain ⟨p, hp, hcontains⟩ | hunmapped := l.mapped_or_unmapped addr
    · have hwraps := (view_eq_overflow_iff hp hcontains haccess).1 hview
      -- The address where the access ends is 2^32, and an offset is that high from 0 on only.
      have hstart := (Placed.contains_iff.1 hcontains).1
      have hzero : p.start.toNat = 0 := by omega
      exact ⟨p, hp, UInt32.toNat_inj.1 hzero, hcontains⟩
    · rw [view_of_unmapped hunmapped] at hview
      cases hview
  · rintro ⟨p, hp, hzero, hcontains⟩
    have hzero : p.start.toNat = 0 := congrArg UInt32.toNat hzero
    exact (view_eq_overflow_iff hp hcontains haccess).2 (by omega)

/-- The supervisor reads and writes every byte that a layout places, in rows of any length
that end in the same region. The one exception are the rows that end at 2^32 in a region
that starts at 0: such a region takes all addresses, and the access is refused as if it
wrapped around. An access that ends at the last address is refused so exactly if the region
that holds its first address starts at 0, whether or not the region reaches that far. -/
theorem reachable_unless_from_zero (l : Layout) (addr len : UInt32) (hlen : len ≠ 0)
    (access : Access) (haccess : access ≠ .fetch) :
    (∀ p ∈ l.placed, p.start ≤ addr → addr.toNat + len.toNat ≤ p.extent.stop →
      (¬(p.start = 0 ∧ addr.toNat + len.toNat = UInt32.size) → l.Reaches p addr len access) ∧
      (p.start = 0 ∧ addr.toNat + len.toNat = UInt32.size → p.region.size = UInt32.size ∧
        (Space.mapped l).view addr len .supervisorData access = .error (.overflow addr len))) ∧
    (addr.toNat + len.toNat = UInt32.size →
      ((Space.mapped l).view addr len .supervisorData access = .error (.overflow addr len) ↔
        ∃ p ∈ l.placed, p.start = 0 ∧ p.extent.contains addr = true)) := by
  refine ⟨fun p hp hstart hstop => ?_, view_eq_overflow_iff_of_top haccess⟩
  have hpositive := toNat_pos hlen
  have hstart := UInt32.le_iff_toNat_le.1 hstart
  have hbound : p.extent.stop ≤ UInt32.size :=
    l.ordered.bounded p.extent (List.mem_map_of_mem (Array.mem_toList_iff.2 hp))
  change addr.toNat + len.toNat ≤ p.start.toNat + p.region.size at hstop
  change p.start.toNat + p.region.size ≤ UInt32.size at hbound
  have hcontains : p.extent.contains addr = true := Placed.contains_iff.2 (by omega)
  constructor
  · intro hwhole
    refine reaches_of_lt hp hcontains haccess (by omega) (Nat.lt_of_not_le fun hwraps => ?_)
    have hzero : p.start.toNat = 0 := by omega
    exact hwhole ⟨UInt32.toNat_inj.1 hzero, by omega⟩
  · rintro ⟨hzero, htop⟩
    have hsize : p.start.toNat = 0 := congrArg UInt32.toNat hzero
    exact ⟨by omega, (view_eq_overflow_iff_of_top haccess htop).2 ⟨p, hp, hzero, hcontains⟩⟩

/-- Clear bytes that end within the address space are a layout of their own. -/
theorem exists_build_clear (start : UInt32) (size : Nat) (hsize : 0 < size)
    (hstop : start.toNat + size ≤ UInt32.size) :
    ∃ l, build [.clear start size] = .ok l ∧ .clear start size ∈ l.placed := by
  have hplaceable : Placeable ([Placed.clear start size].map Placed.extent) := by
    rw [List.map_singleton, Placed.extent_clear]
    refine ⟨fun e he => ?_, fun e he => ?_, List.pairwise_singleton _ _⟩
    · cases List.mem_singleton.1 he
      exact hsize
    · cases List.mem_singleton.1 he
      exact hstop
  obtain ⟨l, hl⟩ := exists_build hplaceable
  refine ⟨l, hl, Array.mem_toList_iff.1 ?_⟩
  exact (placed_perm hl).mem_iff.2 List.mem_cons_self

/-- The last byte of the address space is read from a region of the last two, and from a
region of sixteen bytes at 0 an access to all but the first address is refused as wrapping. -/
theorem reachable_unless_from_zero_top :
    (∃ l, build [.clear 0xFFFFFFFE 2] = .ok l ∧
      (Space.mapped l).view 0xFFFFFFFF 1 .supervisorData .read = .ok [0]) ∧
    ∃ l, build [.clear 0 16] = .ok l ∧
      (Space.mapped l).view 1 0xFFFFFFFF .supervisorData .read =
        .error (.overflow 1 0xFFFFFFFF) := by
  constructor
  · obtain ⟨l, hl, hmem⟩ := exists_build_clear 0xFFFFFFFE 2 (by decide) (by decide)
    obtain ⟨hreach, -⟩ := reachable_unless_from_zero l 0xFFFFFFFF 1 (by decide) .read (by decide)
    exact ⟨l, hl, ((hreach _ hmem (by decide) (by decide)).1 (by decide)).view⟩
  · obtain ⟨l, hl, hmem⟩ := exists_build_clear 0 16 (by decide) (by decide)
    obtain ⟨-, htop⟩ := reachable_unless_from_zero l 1 0xFFFFFFFF (by decide) .read (by decide)
    exact ⟨l, hl, (htop (by decide)).2 ⟨_, hmem, rfl, by decide⟩⟩

/-- Accesses that end at the last address and are refused as wrapping: one that starts in a
region of sixteen bytes at 0, and one to the last byte of a region that takes all addresses. -/
theorem last_byte_unreachable :
    (∃ l, build [.clear 0 16] = .ok l ∧
      (1 : UInt32).toNat + (0xFFFFFFFF : UInt32).toNat = UInt32.size ∧
      (Space.mapped l).view 1 0xFFFFFFFF .supervisorData .read =
        .error (.overflow 1 0xFFFFFFFF)) ∧
    ∃ l, build [.clear 0 UInt32.size] = .ok l ∧
      (Placed.clear 0 UInt32.size).extent.contains 0xFFFFFFFF = true ∧
      (0xFFFFFFFF : UInt32).toNat + (1 : UInt32).toNat =
        (Placed.clear 0 UInt32.size).extent.stop ∧
      (Space.mapped l).view 0xFFFFFFFF 1 .supervisorData .read =
        .error (.overflow 0xFFFFFFFF 1) := by
  constructor
  · obtain ⟨l, hl, hmem⟩ := exists_build_clear 0 16 (by decide) (by decide)
    exact ⟨l, hl, rfl, (view_eq_overflow_iff hmem (by decide) (by decide)).2 (by decide)⟩
  · obtain ⟨l, hl, hmem⟩ := exists_build_clear 0 UInt32.size (by decide) (Nat.le_refl _)
    have hcontains : (Placed.clear 0 UInt32.size).extent.contains 0xFFFFFFFF = true := by
      rw [Placed.extent_clear]
      decide
    refine ⟨l, hl, hcontains, ?_, (view_eq_overflow_iff hmem hcontains (by decide)).2 (by decide)⟩
    rw [Placed.extent_clear]
    rfl

end Layout

end Cpu68k
