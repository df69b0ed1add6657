import Mathlib.Data.List.Basic
import Mathlib.Tactic.Ring
import Slicing.Indices

/-!
# Ranges as lists

A range walks over a stretch of adjacent integers and keeps every so many of them. So its elements
are those of the stretch at the places `0, k, 2k, …`, where `k` is the length of its step.

* `Range.size_eq` — the size by way of the stretch, the same upwards and downwards
* `Range.toList_eq_everyNth` — the elements by way of the stretch
* `Range.toList_congr` — when two ranges have the same elements
-/

namespace Slicing

/-- The elements of a list at the places `0`, `k`, `2k` and so on. -/
def everyNth {α : Type} (k : Nat) (l : List α) : List α :=
  (List.range l.length).filterMap fun j => l[j * k]?

theorem mem_of_mem_everyNth {α : Type} {k : Nat} {l : List α} {x : α} (h : x ∈ everyNth k l) :
    x ∈ l := by
  obtain ⟨j, -, hj⟩ := List.mem_filterMap.mp h
  exact List.mem_of_getElem? hj

/-- The places that are left after the last multiple of `k` hold nothing. -/
theorem everyNth_map_range {α : Type} {k : Nat} (hk : 0 < k) (n : Nat) (f : Nat → α) :
    everyNth k ((List.range n).map f) =
      (List.range ((n + k - 1) / k)).map fun j => f (j * k) := by
  -- the places that hold something are those below the quotient rounded up
  have reached : ∀ j, j * k < n ↔ j < (n + k - 1) / k := by
    intro j
    rw [Nat.lt_div_iff_mul_lt hk]
    omega
  have short : (n + k - 1) / k ≤ n := by
    rw [← Nat.lt_succ_iff, Nat.div_lt_iff_lt_mul hk, Nat.succ_mul]
    have := Nat.le_mul_of_pos_right n hk
    omega
  -- so the list of places is cut there, and the part beyond gives nothing
  obtain ⟨rest, hrest⟩ := Nat.exists_eq_add_of_le short
  have split : List.range n = List.range ((n + k - 1) / k) ++
      (List.range rest).map ((n + k - 1) / k + ·) := by
    rw [← List.range_add, ← hrest]
  unfold everyNth
  rw [List.length_map, List.length_range, congrArg (List.filterMap _) split, List.filterMap_append,
    List.filterMap_map]
  have beyond : (List.range rest).filterMap
      ((fun j => ((List.range n).map f)[j * k]?) ∘ ((n + k - 1) / k + ·)) = [] := by
    rw [List.filterMap_eq_nil_iff]
    intro j _
    have : ¬((n + k - 1) / k + j) * k < n := by rw [reached]; omega
    simp only [Function.comp_apply, List.getElem?_map, Option.map_eq_none_iff]
    simpa using this
  have within : (List.range ((n + k - 1) / k)).filterMap
      (fun j => ((List.range n).map f)[j * k]?) =
        (List.range ((n + k - 1) / k)).filterMap (some ∘ fun j => f (j * k)) := by
    refine List.filterMap_congr fun j hj => ?_
    have : j * k < n := (reached j).mpr (List.mem_range.mp hj)
    simp [this]
  rw [beyond, List.append_nil, within, List.filterMap_eq_map]

namespace Range

/-! ## Size -/

/-- The number of integers from the start to short of the stop, in the direction of the step. -/
def span (r : Range) : Nat :=
  if 0 < r.step then (r.stop - r.start).toNat else (r.start - r.stop).toNat

/-- The integers from the start to short of the stop, in the direction of the step. -/
def stretch (r : Range) : List Int :=
  (List.range r.span).map fun i : Nat => if 0 < r.step then r.start + i else r.start - i

theorem toNat_ceilDiv {k : Int} (hk : 0 < k) (d : Int) :
    ((d + k - 1) / k).toNat = (d.toNat + k.natAbs - 1) / k.natAbs := by
  obtain ⟨n, rfl⟩ := Int.eq_ofNat_of_zero_le hk.le
  rcases Int.le_total 0 d with hd | hd
  · obtain ⟨e, rfl⟩ := Int.eq_ofNat_of_zero_le hd
    have : (e : Int) + n - 1 = ((e + n - 1 : Nat) : Int) := by omega
    rw [this, ← Int.natCast_div, Int.toNat_natCast, Int.toNat_natCast, Int.natAbs_natCast]
  -- with nothing to walk the quotient is not positive, and both sides are zero
  · have low : (d + n - 1) / (n : Int) ≤ 0 := by
      rw [← Int.lt_add_one_iff, Int.ediv_lt_iff_lt_mul hk]
      omega
    rw [Int.toNat_of_nonpos low, Int.toNat_of_nonpos hd, Nat.div_eq_of_lt]
    simp only [Int.natAbs_natCast]
    omega

theorem size_eq (r : Range) : r.size = (r.span + r.step.natAbs - 1) / r.step.natAbs := by
  unfold size span
  by_cases up : 0 < r.step
  · rw [if_pos up, if_pos up, toNat_ceilDiv up]
  · have down : 0 < -r.step := by have := r.step_ne_zero; omega
    rw [if_neg up, if_neg up, ← Int.natAbs_neg r.step, ← toNat_ceilDiv down]
    rfl

theorem size_eq_zero_iff (r : Range) : r.size = 0 ↔ r.span = 0 := by
  have : 0 < r.step.natAbs := Int.natAbs_pos.mpr r.step_ne_zero
  rw [size_eq, Nat.div_eq_zero_iff_lt this]
  omega

/-- A step as long as the stretch reaches no second element. -/
theorem size_le_one {r : Range} (h : r.span ≤ r.step.natAbs) : r.size ≤ 1 := by
  have pos : 0 < r.step.natAbs := Int.natAbs_pos.mpr r.step_ne_zero
  rw [size_eq, ← Nat.lt_succ_iff, Nat.div_lt_iff_lt_mul pos]
  omega

/-! ## Elements -/

theorem toList_eq_everyNth (r : Range) : r.toList = everyNth r.step.natAbs r.stretch := by
  have pos : 0 < r.step.natAbs := Int.natAbs_pos.mpr r.step_ne_zero
  rw [stretch, everyNth_map_range pos, ← size_eq]
  unfold toList nth
  refine List.map_congr_left fun j _ => ?_
  have cast : ((j * r.step.natAbs : Nat) : Int) = j * |r.step| := by
    rw [Int.natCast_mul, Int.natCast_natAbs]
  by_cases up : 0 < r.step
  · rw [if_pos up, cast, abs_of_pos up]
  · rw [if_neg up, cast, abs_of_nonpos (Int.not_lt.mp up)]
    ring

/--
Two ranges over equal stretches have the same elements if their steps are the same, or if both
steps are too long to reach a second element.
-/
theorem toList_congr {r s : Range} (start : r.start = s.start) (span : r.span = s.span)
    (step : r.step = s.step ∨ r.span ≤ r.step.natAbs ∧ s.span ≤ s.step.natAbs) :
    r.toList = s.toList := by
  unfold toList nth
  rw [start]
  rcases step with step | ⟨long, long'⟩
  · rw [size_eq, size_eq s, span, step]
  -- neither reaches a second element, and the stretch says whether there is a first
  · have size : r.size = s.size := by
      have := size_le_one long
      have := size_le_one long'
      have := size_eq_zero_iff r
      have := size_eq_zero_iff s
      omega
    rw [size]
    refine List.map_congr_left fun j hj => ?_
    have : j = 0 := by
      have := List.mem_range.mp hj
      have := size_le_one long'
      omega
    simp [this]

theorem toList_eq_nil {r : Range} (h : r.span = 0) : r.toList = [] := by
  unfold toList
  rw [(size_eq_zero_iff r).mpr h]
  rfl

theorem toList_eq_singleton {r : Range} (h : r.span = 1) : r.toList = [r.start] := by
  have pos : 0 < r.step.natAbs := Int.natAbs_pos.mpr r.step_ne_zero
  have size : r.size = 1 := by
    rw [size_eq, h, Nat.add_sub_cancel_left, Nat.div_self pos]
  unfold toList nth
  simp [size]

theorem toList_take_one {r : Range} (h : r.span ≠ 0) : r.toList.take 1 = [r.start] := by
  have size : r.size ≠ 0 := mt (size_eq_zero_iff r).mp h
  obtain ⟨n, hn⟩ := Nat.exists_eq_succ_of_ne_zero size
  unfold toList nth
  simp [hn, List.range_succ_eq_map]

end Range

end Slicing
