import Cpu68k.Proofs.Lookup

/-!
# Building layouts

Regions form a layout in any order, if none is empty, none goes past the top of the address
space and no two share an address. `Layout.build` sorts them and then compares each one with
its predecessor only. In a sorted list this is enough, because a region that ends before its
successor starts also ends before all later ones start. `build_exact` says that exactly
these regions are accepted, that they are placed as they are given, and that the errors
about all others are true.
-/

namespace Cpu68k

/-- The two extents share no address. -/
def Extent.Disjoint (a b : Extent) : Prop :=
  ∀ addr, a.contains addr = true → b.contains addr = false

/-- The extents of regions that form a layout in some order. -/
structure Placeable (es : List Extent) : Prop where
  /-- No extent is empty. -/
  nonempty : ∀ e ∈ es, 0 < e.size
  /-- Every extent ends at 2^32 or before. -/
  bounded : ∀ e ∈ es, e.stop ≤ UInt32.size
  /-- No two extents share an address. -/
  disjoint : es.Pairwise Extent.Disjoint

/-- What a layout error says about the extents of the given regions. For an overlap these
are two extents, `a` and `b`, and others. -/
def LayoutError.IsTrueOf (es : List Extent) : LayoutError → Prop
  | empty start => ∃ e ∈ es, e.start = start ∧ e.size = 0
  | pastEnd start => ∃ e ∈ es, e.start = start ∧ UInt32.size < e.stop
  | overlap start other => ∃ a b others, es.Perm (a :: b :: others) ∧
      a.start = start ∧ b.start = other ∧ other ≤ start ∧ start.toNat < b.stop

/-- Extents in ascending order of their first addresses. -/
abbrev Ascending (es : List Extent) : Prop :=
  es.Pairwise fun a b => a.start ≤ b.start

variable {a b e : Extent} {es es' : List Extent} {before : Option Extent} {error : LayoutError}

/-! ### Extents in ascending order -/

/-- Two extents share no address, in either order. -/
theorem Extent.Disjoint.symm (h : a.Disjoint b) : b.Disjoint a := by
  intro addr hb
  cases ha : a.contains addr with
  | false => rfl
  | true => exact absurd (h addr ha) (by simp [hb])

/-- Extents with addresses share none if one ends before the other starts. If they overlap,
the first address of the later one is in both. -/
theorem Extent.disjoint_iff (ha : 0 < a.size) (hb : 0 < b.size) :
    a.Disjoint b ↔ a.stop ≤ b.start.toNat ∨ b.stop ≤ a.start.toNat := by
  unfold stop
  constructor
  · intro h
    refine Decidable.byContradiction fun hoverlap => ?_
    rcases Nat.le_total a.start.toNat b.start.toNat with hle | hle
    · have hin := h b.start (contains_iff.2 (by omega))
      rw [contains_iff.2 (by omega)] at hin
      cases hin
    · have hin := h a.start (contains_iff.2 (by omega))
      rw [contains_iff.2 (by omega)] at hin
      cases hin
  · intro h addr hin
    rw [contains_iff] at hin
    rw [← Bool.not_eq_true, contains_iff]
    omega

/-- In ascending order, extents that form a layout are extents of which each ends before the
later ones start. -/
theorem ordered_iff_placeable (h : Ascending es) : Ordered es ↔ Placeable es := by
  constructor
  · intro hordered
    refine ⟨hordered.nonempty, hordered.bounded, ?_⟩
    refine hordered.apart.imp_of_mem fun ha hb hapart => ?_
    exact (Extent.disjoint_iff (hordered.nonempty _ ha) (hordered.nonempty _ hb)).2 (.inl hapart)
  · intro hplaceable
    refine ⟨hplaceable.nonempty, hplaceable.bounded, ?_⟩
    refine (h.and hplaceable.disjoint).imp_of_mem fun {a b} ha hb hab => ?_
    obtain ⟨hle, hdisjoint⟩ := hab
    have hsize := hplaceable.nonempty _ hb
    have hle := UInt32.le_iff_toNat_le.1 hle
    have hcases := (Extent.disjoint_iff (hplaceable.nonempty _ ha) hsize).1 hdisjoint
    unfold Extent.stop at hcases ⊢
    omega

/-- Extents may be placed in any order. -/
theorem Placeable.perm (h : Placeable es) (hperm : es.Perm es') : Placeable es' where
  nonempty e he := h.nonempty e (hperm.mem_iff.2 he)
  bounded e he := h.bounded e (hperm.mem_iff.2 he)
  disjoint := hperm.pairwise h.disjoint Extent.Disjoint.symm

/-! ### The scan -/

/-- The scan finds nothing wrong with extents that form a layout behind what precedes them. -/
theorem firstDefect_eq_none (hbefore : ∀ b ∈ before, ∀ e ∈ es, b.stop ≤ e.start.toNat)
    (h : Ordered es) : firstDefect before es = none := by
  induction es generalizing before with
  | nil => rfl
  | cons e es ih =>
    have hsize := h.nonempty e List.mem_cons_self
    have hstop := h.bounded e List.mem_cons_self
    obtain ⟨hlater, hapart⟩ := List.pairwise_cons.1 h.apart
    have hrest : firstDefect (some e) es = none := by
      refine ih (fun b hb => ?_) ⟨fun x hx => h.nonempty x (List.mem_cons_of_mem e hx),
        fun x hx => h.bounded x (List.mem_cons_of_mem e hx), hapart⟩
      cases hb
      exact hlater
    simp only [firstDefect, if_neg (Nat.ne_of_gt hsize), if_neg (Nat.not_lt.2 hstop)]
    cases before with
    | none => exact hrest
    | some b =>
      have hb := hbefore b rfl e List.mem_cons_self
      simp only [if_neg (Nat.not_lt.2 hb), hrest]

/-- An error stays true where there is one more extent. -/
theorem LayoutError.IsTrueOf.cons (h : error.IsTrueOf es) (e : Extent) :
    error.IsTrueOf (e :: es) := by
  cases error with
  | empty start =>
    obtain ⟨x, hx, hdefect⟩ := h
    exact ⟨x, List.mem_cons_of_mem e hx, hdefect⟩
  | pastEnd start =>
    obtain ⟨x, hx, hdefect⟩ := h
    exact ⟨x, List.mem_cons_of_mem e hx, hdefect⟩
  | overlap start other =>
    obtain ⟨a, b, others, hperm, hdefect⟩ := h
    refine ⟨a, b, e :: others, (hperm.cons e).trans ?_, hdefect⟩
    exact (List.Perm.swap a e _).trans ((List.Perm.swap b e others).cons a)

/-- An error is true in any order. -/
theorem LayoutError.IsTrueOf.perm (h : error.IsTrueOf es) (hperm : es.Perm es') :
    error.IsTrueOf es' := by
  cases error with
  | empty start =>
    obtain ⟨x, hx, hdefect⟩ := h
    exact ⟨x, hperm.mem_iff.1 hx, hdefect⟩
  | pastEnd start =>
    obtain ⟨x, hx, hdefect⟩ := h
    exact ⟨x, hperm.mem_iff.1 hx, hdefect⟩
  | overlap start other =>
    obtain ⟨a, b, others, hothers, hdefect⟩ := h
    exact ⟨a, b, others, hperm.symm.trans hothers, hdefect⟩

/-- The scan is right about what it finds. Its last look is at two neighbours, which in
ascending order overlap if the first one ends behind the start of the second. -/
theorem isTrueOf_of_firstDefect (hascending : Ascending (before.toList ++ es))
    (h : firstDefect before es = some error) : error.IsTrueOf (before.toList ++ es) := by
  induction es generalizing before with
  | nil => cases h
  | cons e es ih =>
    have hmem : e ∈ before.toList ++ e :: es := List.mem_append_right _ List.mem_cons_self
    have hrest : Ascending ((some e).toList ++ es) := (List.pairwise_append.1 hascending).2.1
    simp only [firstDefect] at h
    split at h
    next hsize =>
      cases h
      exact ⟨e, hmem, rfl, hsize⟩
    split at h
    next hstop =>
      cases h
      exact ⟨e, hmem, rfl, hstop⟩
    cases before with
    | none => exact ih hrest h
    | some b =>
      simp only at h
      split at h
      next hoverlap =>
        cases h
        have hle := (List.pairwise_cons.1 hascending).1 e List.mem_cons_self
        exact ⟨e, b, es, List.Perm.swap e b es, rfl, rfl, hle, hoverlap⟩
      next => exact (ih hrest h).cons b

/-! ### Layouts -/

namespace Layout

variable {regions regions' : List Placed} {l : Layout}

/-- The regions in ascending order of their first addresses. -/
def ascending (regions : List Placed) : List Placed :=
  regions.mergeSort fun a b => a.start ≤ b.start

/-- Sorting keeps the regions. -/
theorem ascending_perm (regions : List Placed) : (ascending regions).Perm regions :=
  List.mergeSort_perm regions _

/-- The sorted regions ascend. -/
theorem ascending_ascends (regions : List Placed) :
    Ascending ((ascending regions).map Placed.extent) := by
  have hsorted : (ascending regions).Pairwise fun a b => decide (a.start ≤ b.start) = true := by
    apply List.pairwise_mergeSort
    · intro a b c hab hbc
      rw [decide_eq_true_eq] at *
      exact UInt32.le_trans hab hbc
    · intro a b
      rw [Bool.or_eq_true, decide_eq_true_eq, decide_eq_true_eq]
      exact UInt32.le_total a.start b.start
  rw [Ascending, List.pairwise_map]
  exact hsorted.imp fun h => of_decide_eq_true h

/-- The scan accepts exactly the regions that form a layout. -/
theorem firstDefect_ascending :
    firstDefect none ((ascending regions).map Placed.extent) = none ↔
      Placeable (regions.map Placed.extent) := by
  have hascends := ascending_ascends regions
  have hperm := (ascending_perm regions).map Placed.extent
  constructor
  · intro h
    exact ((ordered_iff_placeable hascends).1 (ordered_of_firstDefect h)).perm hperm
  · intro h
    exact firstDefect_eq_none nofun ((ordered_iff_placeable hascends).2 (h.perm hperm.symm))

/-- A layout is refused for the first defect of the sorted regions. -/
theorem build_eq_error :
    build regions = .error error ↔
      firstDefect none ((ascending regions).map Placed.extent) = some error := by
  unfold build
  dsimp only
  split
  next e he =>
    change firstDefect none ((ascending regions).map Placed.extent) = some e at he
    rw [he, Except.error.injEq, Option.some.injEq]
  next he =>
    change firstDefect none ((ascending regions).map Placed.extent) = none at he
    rw [he]
    exact ⟨nofun, nofun⟩

/-- Regions that can be placed are placed in ascending order. -/
theorem build_eq_ok :
    build regions = .ok l ↔
      Placeable (regions.map Placed.extent) ∧ l.placed = (ascending regions).toArray := by
  rw [← firstDefect_ascending]
  unfold build
  dsimp only
  split
  next e he =>
    change firstDefect none ((ascending regions).map Placed.extent) = some e at he
    rw [he]
    exact ⟨nofun, fun h => nomatch h.1⟩
  next he =>
    constructor
    · intro h
      cases h
      exact ⟨he, rfl⟩
    · rintro ⟨-, hplaced⟩
      cases l
      cases hplaced
      rfl

/-- Regions that can be placed make up a layout. -/
theorem exists_build (h : Placeable (regions.map Placed.extent)) : ∃ l, build regions = .ok l := by
  have hperm := (ascending_perm regions).map Placed.extent
  have hordered := (ordered_iff_placeable (ascending_ascends regions)).2 (h.perm hperm.symm)
  exact ⟨⟨(ascending regions).toArray, hordered⟩, build_eq_ok.2 ⟨h, rfl⟩⟩

/-- The regions of a layout are the given ones. -/
theorem placed_perm (h : build regions = .ok l) : l.placed.toList.Perm regions := by
  rw [(build_eq_ok.1 h).2]
  exact ascending_perm regions

/-- The first addresses of a layout ascend without repetition. -/
theorem starts_ascend (l : Layout) : l.placed.toList.Pairwise fun p q => p.start < q.start := by
  have hapart := List.pairwise_map.1 l.ordered.apart
  refine hapart.imp_of_mem fun {p q} hp hq h => ?_
  have hsize := l.ordered.nonempty p.extent (List.mem_map_of_mem hp)
  have hstop : p.start.toNat + p.region.size ≤ q.start.toNat := h
  change 0 < p.region.size at hsize
  exact UInt32.lt_iff_toNat_lt.2 (by omega)

/-- Regions have one order in which their first addresses ascend without repetition. -/
theorem eq_of_starts_ascend (hperm : regions'.Perm regions)
    (h' : regions'.Pairwise fun p q => p.start < q.start)
    (h : regions.Pairwise fun p q => p.start < q.start) : regions' = regions :=
  hperm.eq_of_pairwise (fun _ _ _ _ hpq hqp => absurd hpq (UInt32.lt_asymm hqp)) h' h

/-- Layouts of the same regions are the same. -/
theorem eq_of_perm {l l' : Layout} (h : l'.placed.toList.Perm l.placed.toList) : l' = l := by
  have hplaced := eq_of_starts_ascend h l'.starts_ascend l.starts_ascend
  cases l
  cases l'
  cases Array.toList_inj.1 hplaced
  rfl

/-- Sorting gives the order in which the first addresses ascend, if there is one. -/
theorem ascending_eq (hperm : regions'.Perm regions)
    (h : regions'.Pairwise fun p q => p.start < q.start) : ascending regions = regions' := by
  have hsorts : (ascending regions).Perm regions' := (ascending_perm regions).trans hperm.symm
  have hle := List.pairwise_map.1 (ascending_ascends regions)
  have hne : (ascending regions).Pairwise fun p q => p.start ≠ q.start :=
    hsorts.symm.pairwise (h.imp UInt32.ne_of_lt) Ne.symm
  exact eq_of_starts_ascend hsorts ((hle.and hne).imp fun ⟨hle, hne⟩ =>
    UInt32.lt_of_le_of_ne hle hne) h

/-- The order in which regions are given makes no difference. -/
theorem build_of_perm (hperm : regions'.Perm regions) (h : build regions = .ok l) :
    build regions' = .ok l := by
  have hplaceable := (build_eq_ok.1 h).1.perm (hperm.symm.map Placed.extent)
  obtain ⟨l', h'⟩ := exists_build hplaceable
  have hsame : l' = l := eq_of_perm ((placed_perm h').trans (hperm.trans (placed_perm h).symm))
  rw [h', hsame]

/-- The error of regions that form no layout is true. -/
theorem isTrueOf_of_build (h : build regions = .error error) :
    error.IsTrueOf (regions.map Placed.extent) :=
  (isTrueOf_of_firstDefect (ascending_ascends regions) (build_eq_error.1 h)).perm
    ((ascending_perm regions).map Placed.extent)

/-- Exactly the regions that form a layout are accepted. They are placed as they are given,
in ascending order, and in whatever order they are given the layout is the same. The error
about any others names regions that were given and have the defect. -/
theorem build_exact (regions : List Placed) :
    ((∃ l, build regions = .ok l) ↔ Placeable (regions.map Placed.extent)) ∧
      (∀ l, build regions = .ok l → l.placed.toList.Perm regions ∧
        l.placed.toList.Pairwise (fun p q => p.start < q.start) ∧
        ∀ regions', regions'.Perm regions → build regions' = .ok l) ∧
      ∀ e, build regions = .error e → e.IsTrueOf (regions.map Placed.extent) := by
  refine ⟨⟨?_, exists_build⟩, ?_, fun e h => isTrueOf_of_build h⟩
  · rintro ⟨l, h⟩
    exact (build_eq_ok.1 h).1
  · intro l h
    exact ⟨placed_perm h, l.starts_ascend, fun regions' hperm => build_of_perm hperm h⟩

/-- Two neighbours and the last bytes of the address space, in no order. -/
def scattered : List Placed :=
  [⟨4, ⟨.general, ⟨#[1, 2]⟩⟩⟩, ⟨0xFFFFFFFE, ⟨.general, ⟨#[3, 4]⟩⟩⟩,
    ⟨0, ⟨.lowMemory, ⟨#[0, 0, 0, 0]⟩⟩⟩]

/-- The same with a byte on top of the second neighbour. -/
def colliding : List Placed :=
  scattered ++ [⟨5, ⟨.general, ⟨#[5]⟩⟩⟩]

/-- Regions in no order are placed, also in reverse, and one more that reaches into another is
refused. -/
theorem build_exact_scattered :
    (∃ l, build scattered = .ok l ∧ l.placed.toList.Perm scattered ∧
      build scattered.reverse = .ok l) ∧
    build colliding = .error (.overlap 5 4) ∧
      (LayoutError.overlap 5 4).IsTrueOf (colliding.map Placed.extent) := by
  have hscattered : ascending scattered =
      [⟨0, ⟨.lowMemory, ⟨#[0, 0, 0, 0]⟩⟩⟩, ⟨4, ⟨.general, ⟨#[1, 2]⟩⟩⟩,
        ⟨0xFFFFFFFE, ⟨.general, ⟨#[3, 4]⟩⟩⟩] := ascending_eq (by decide) (by decide)
  have hcolliding : ascending colliding =
      [⟨0, ⟨.lowMemory, ⟨#[0, 0, 0, 0]⟩⟩⟩, ⟨4, ⟨.general, ⟨#[1, 2]⟩⟩⟩,
        ⟨5, ⟨.general, ⟨#[5]⟩⟩⟩, ⟨0xFFFFFFFE, ⟨.general, ⟨#[3, 4]⟩⟩⟩] :=
    ascending_eq (by decide) (by decide)
  have hfits : firstDefect none ((ascending scattered).map Placed.extent) = none := by
    rw [hscattered]
    decide
  have herror : build colliding = .error (.overlap 5 4) := by
    rw [build_eq_error, hcolliding]
    decide
  obtain ⟨haccepts, hplaces, -⟩ := build_exact scattered
  obtain ⟨-, -, herrors⟩ := build_exact colliding
  obtain ⟨l, hl⟩ := haccepts.2 (firstDefect_ascending.1 hfits)
  obtain ⟨hperm, -, horders⟩ := hplaces l hl
  exact ⟨⟨l, hl, hperm, horders _ (List.reverse_perm scattered)⟩, herror, herrors _ herror⟩

end Layout

end Cpu68k
