import Cpu68k.Space.Layout

/-!
# Looking up an address

A layout finds the region of an address by halving the positions that are left. Its
regions stand in ascending order, so the search stops behind the last one that starts at
the address or before it, and they do not overlap, so no other region can hold the
address. `find?_eq_some` says that the search finds the region that holds the address.
-/

namespace Cpu68k

/-- The addresses of an extent in exact numbers. -/
theorem Extent.contains_iff {e : Extent} {addr : UInt32} :
    e.contains addr = true ↔ e.start.toNat ≤ addr.toNat ∧ addr.toNat < e.start.toNat + e.size := by
  rw [contains, Bool.and_eq_true, decide_eq_true_eq, decide_eq_true_eq]
  rfl

/-- The addresses of a placed region in exact numbers. -/
theorem Placed.contains_iff {p : Placed} {addr : UInt32} : p.extent.contains addr = true ↔
    p.start.toNat ≤ addr.toNat ∧ addr.toNat < p.start.toNat + p.region.size :=
  Extent.contains_iff

/-- The offset of an address in the region that holds it does not wrap. -/
theorem Placed.toNat_sub_start {p : Placed} {addr : UInt32} (h : p.extent.contains addr = true) :
    (addr - p.start).toNat = addr.toNat - p.start.toNat :=
  UInt32.toNat_sub_of_le _ _ (UInt32.le_iff_toNat_le.2 (contains_iff.1 h).1)

/-- The regions before position `k` are those that start at an address or before it. -/
structure SplitsAt (placed : Array Placed) (addr : UInt32) (k : Nat) : Prop where
  /-- The position is one of the regions or the one behind them. -/
  bound : k ≤ placed.size
  /-- The regions before the position start early enough. -/
  before : ∀ (i : Nat) (hi : i < placed.size), i < k → placed[i].start ≤ addr
  /-- The others start too late. -/
  behind : ∀ (i : Nat) (hi : i < placed.size), k ≤ i → addr < placed[i].start

namespace Layout

variable {placed : Array Placed} {l : Layout} {addr : UInt32} {i j lo hi : Nat} {p q : Placed}

/-- Halving the positions keeps those that are settled on both sides right. -/
theorem splitsAt_countStarts
    (hascending : ∀ (i j : Nat) (hi : i < placed.size) (hj : j < placed.size), i ≤ j →
      placed[i].start ≤ placed[j].start)
    (h : hi ≤ placed.size) (hle : lo ≤ hi)
    (hbefore : ∀ (i : Nat) (hi : i < placed.size), i < lo → placed[i].start ≤ addr)
    (hbehind : ∀ (i : Nat) (hi' : i < placed.size), hi ≤ i → addr < placed[i].start) :
    SplitsAt placed addr (countStarts placed addr lo hi h) := by
  fun_induction countStarts placed addr lo hi h with
  | case1 lo hi h hlt mid hmid ih =>
    refine ih (by omega) (fun i hi' hlow => ?_) hbehind
    exact UInt32.le_trans (hascending i mid hi' (by omega) (by omega)) hmid
  | case2 lo hi h hlt mid hmid ih =>
    refine ih (by omega) hbefore fun i hi' hhigh => ?_
    exact UInt32.lt_of_lt_of_le (UInt32.not_le.1 hmid) (hascending mid i (by omega) hi' hhigh)
  | case3 lo hi h hge =>
    exact ⟨by omega, hbefore, fun i hi' hhigh => hbehind i hi' (by omega)⟩

/-- Regions at later positions start behind the end of the earlier ones. -/
theorem stop_le_start (hp : l.placed[i]? = some p) (hq : l.placed[j]? = some q) (h : i < j) :
    p.start.toNat + p.region.size ≤ q.start.toNat := by
  obtain ⟨hi, rfl⟩ := Array.getElem?_eq_some_iff.1 hp
  obtain ⟨hj, rfl⟩ := Array.getElem?_eq_some_iff.1 hq
  have hapart := List.pairwise_iff_getElem.1 l.ordered.apart i j (by simpa using hi)
    (by simpa using hj) h
  simp only [List.getElem_map, Array.getElem_toList] at hapart
  exact hapart

/-- Only one region holds an address. -/
theorem eq_of_contains (hp : l.placed[i]? = some p) (hq : l.placed[j]? = some q)
    (hcontains : p.extent.contains addr = true) (hcontains' : q.extent.contains addr = true) :
    i = j := by
  obtain ⟨hstart, hstop⟩ := Placed.contains_iff.1 hcontains
  obtain ⟨hstart', hstop'⟩ := Placed.contains_iff.1 hcontains'
  rcases Nat.lt_trichotomy i j with hlt | heq | hlt
  · have hapart := stop_le_start hp hq hlt
    omega
  · exact heq
  · have hapart := stop_le_start hq hp hlt
    omega

/-- The search settles every position. -/
theorem splitsAt_find (l : Layout) (addr : UInt32) :
    SplitsAt l.placed addr (countStarts l.placed addr 0 l.placed.size (Nat.le_refl _)) := by
  refine splitsAt_countStarts (fun i j hi hj hle => ?_) _ (Nat.zero_le _)
    (fun i _ hlt => absurd hlt (by omega)) fun i hi hle => absurd hle (by omega)
  rcases Nat.lt_or_eq_of_le hle with hlt | rfl
  · have hapart := stop_le_start (Array.getElem?_eq_getElem hi) (Array.getElem?_eq_getElem hj) hlt
    exact UInt32.le_iff_toNat_le.2 (by omega)
  · exact UInt32.le_refl _

/-- The search finds the region that holds the address. -/
theorem find?_eq_some :
    l.find? addr = some i ↔ ∃ p, l.placed[i]? = some p ∧ p.extent.contains addr = true := by
  have hsplits := l.splitsAt_find addr
  unfold find?
  generalize countStarts l.placed addr 0 l.placed.size (Nat.le_refl _) = k at hsplits
  have hoffset {p : Placed} (h : p.start ≤ addr) :
      (addr - p.start).toNat < p.region.size ↔ p.extent.contains addr = true := by
    have hle := UInt32.le_iff_toNat_le.1 h
    rw [UInt32.toNat_sub_of_le _ _ h, Placed.contains_iff]
    omega
  constructor
  · intro h
    cases k with
    | zero => cases h
    | succ k =>
      cases hp : l.placed[k]? with
      | none => simp [hp] at h
      | some p =>
        obtain ⟨hk, rfl⟩ := Array.getElem?_eq_some_iff.1 hp
        simp only [hp] at h
        split at h
        next hlt =>
          cases h
          exact ⟨_, hp, (hoffset (hsplits.before i hk (Nat.lt_succ_self i))).1 hlt⟩
        next => cases h
  · rintro ⟨p, hp, hcontains⟩
    obtain ⟨hi, rfl⟩ := Array.getElem?_eq_some_iff.1 hp
    obtain ⟨hstart, hstop⟩ := Placed.contains_iff.1 hcontains
    -- The region starts early enough, so the search stops behind it.
    have hlt : i < k := by
      refine Nat.lt_of_not_le fun hle => ?_
      have hlate := UInt32.lt_iff_toNat_lt.1 (hsplits.behind i hi hle)
      exact Nat.not_lt.2 hstart hlate
    cases k with
    | zero => cases hlt
    | succ k =>
      have hk : k < l.placed.size := hsplits.bound
      have hearly := hsplits.before k hk (Nat.lt_succ_self k)
      -- A region between the two would start behind the end of the first one.
      have hlast : i = k := by
        refine Nat.le_antisymm (Nat.le_of_lt_succ hlt) (Nat.le_of_not_lt fun hik => ?_)
        have hapart := stop_le_start hp (Array.getElem?_eq_getElem hk) hik
        have hearly := UInt32.le_iff_toNat_le.1 hearly
        omega
      subst hlast
      simp only [hp, if_pos ((hoffset hearly).2 hcontains)]

end Layout

end Cpu68k
