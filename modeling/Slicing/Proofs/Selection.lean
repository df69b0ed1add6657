import Mathlib.Data.List.Sort
import Slicing.Proofs.IntegerBounds
import Slicing.Proofs.Progression
import Slicing.Session

/-!
# What a slice selects

The meaning of a slice needs no clamping: of all positions of a sequence, in the direction of the
step, it takes those between the two bounds, and of these every so many.

* `selected` — this meaning
* `exactPositions_selected` — exact indices list exactly the positions selected

A clamp moves a bound that lies outside the sequence to its edge. `mem_stretch_ofBounds` says that
this neither loses nor gains a position, so the walk also begins at the same one.
-/

namespace Slicing

/-! ## The meaning of a slice -/

/-- The place that a bound names: one that is negative counts from the end. -/
def placeOf (length n : Int) : Int :=
  if 0 ≤ n then n else n + length

/-- Whether position `i` lies between the bounds, of which the one the walk heads for is left out. -/
def Between (start stop : Option Int) (step length i : Int) : Prop :=
  if 0 < step then (∀ n ∈ start, placeOf length n ≤ i) ∧ ∀ n ∈ stop, i < placeOf length n
  else (∀ n ∈ start, i ≤ placeOf length n) ∧ ∀ n ∈ stop, placeOf length n < i

instance (start stop : Option Int) (step length i : Int) :
    Decidable (Between start stop step length i) := by
  unfold Between
  infer_instance

/-- All positions of a sequence of `length` elements, in the direction of the step. -/
def allPositions (step length : Int) : List Int :=
  let upwards := (List.range length.toNat).map Int.ofNat
  if 0 < step then upwards else upwards.reverse

/-- The positions that a slice selects, in the order in which they are visited. -/
def selected (start stop : Option Int) (step length : Int) : List Int :=
  everyNth step.natAbs
    ((allPositions step length).filter fun i => Between start stop step length i)

example : selected (some (-2)) none (-3) 9 = [7, 4, 1] := by decide

theorem mem_allPositions {step length i : Int} :
    i ∈ allPositions step length ↔ 0 ≤ i ∧ i < length := by
  have h : i ∈ (List.range length.toNat).map Int.ofNat ↔ 0 ≤ i ∧ i < length := by
    simp only [List.mem_map, List.mem_range]
    constructor
    · rintro ⟨n, hn, rfl⟩
      exact ⟨Int.natCast_nonneg n, by simp only [Int.ofNat_eq_natCast]; omega⟩
    · rintro ⟨low, high⟩
      exact ⟨i.toNat, by omega, by simp only [Int.ofNat_eq_natCast]; omega⟩
  unfold allPositions
  split
  · exact h
  · rw [List.mem_reverse, h]

theorem mem_selected {start stop : Option Int} {step length i : Int}
    (h : i ∈ selected start stop step length) : 0 ≤ i ∧ i < length :=
  mem_allPositions.mp (List.mem_filter.mp (mem_of_mem_everyNth h)).1

/-! ## Stretches -/

/-- Whether `i` comes before `j` on a walk by `step`. -/
def Precedes (step i j : Int) : Prop :=
  if 0 < step then i < j else j < i

instance (step : Int) : Std.Irrefl (Precedes step) where
  irrefl i := by unfold Precedes; split <;> omega

instance (step : Int) : Std.Antisymm (Precedes step) where
  antisymm i j := by unfold Precedes; split <;> omega

theorem pairwise_allPositions (step length : Int) :
    (allPositions step length).Pairwise (Precedes step) := by
  have h : ((List.range length.toNat).map Int.ofNat).Pairwise (· < ·) := by
    rw [List.pairwise_map]
    exact List.pairwise_lt_range.imp Int.ofNat_lt.mpr
  unfold allPositions Precedes
  by_cases up : 0 < step
  · simpa only [up, if_true] using h
  · simpa only [up, if_false, List.pairwise_reverse] using h

theorem pairwise_stretch (r : Range) : r.stretch.Pairwise (Precedes r.step) := by
  unfold Range.stretch
  rw [List.pairwise_map]
  refine List.pairwise_lt_range.imp fun {i j} h => ?_
  unfold Precedes
  split <;> omega

theorem mem_stretch_of_pos {r : Range} (up : 0 < r.step) {i : Int} :
    i ∈ r.stretch ↔ r.start ≤ i ∧ i < r.stop := by
  unfold Range.stretch Range.span
  simp only [List.mem_map, List.mem_range, up, if_true]
  constructor
  · rintro ⟨n, hn, rfl⟩
    omega
  · intro h
    exact ⟨(i - r.start).toNat, by omega, by omega⟩

theorem mem_stretch_of_neg {r : Range} (down : r.step < 0) {i : Int} :
    i ∈ r.stretch ↔ r.stop < i ∧ i ≤ r.start := by
  unfold Range.stretch Range.span
  simp only [List.mem_map, List.mem_range, down.not_gt, if_false]
  constructor
  · rintro ⟨n, hn, rfl⟩
    omega
  · intro h
    exact ⟨(r.start - i).toNat, by omega, by omega⟩

/-! ## Clamping -/

namespace Indices

/-- Walking upwards, a clamp does not move a bound past any position. -/
theorem clamp_le_iff {step length n i : Int} (up : 0 < step) (low : 0 ≤ i) (high : i < length) :
    clamp step length n ≤ i ↔ placeOf length n ≤ i := by
  unfold clamp lower upper placeOf
  split <;> split <;> (try split) <;> omega

/-- Nor does it walking downwards. -/
theorem clamp_lt_iff {step length n i : Int} (down : step < 0) (low : 0 ≤ i)
    (high : i < length) : clamp step length n < i ↔ placeOf length n < i := by
  unfold clamp lower upper placeOf
  split <;> split <;> (try split) <;> omega

variable {step length : Int}

theorem lower_le_upper (step : Int) (nonneg : 0 ≤ length) : lower step ≤ upper step length :=
  (lower_le_clamp 0 nonneg).trans (clamp_le_upper 0 nonneg)

/-- The start lies between the limits, and is one of them if it is missing. -/
theorem startOf_within (step : Int) (nonneg : 0 ≤ length) (start : Option Int) :
    lower step ≤ startOf step length start ∧ startOf step length start ≤ upper step length := by
  have order := lower_le_upper step nonneg
  cases start with
  | some n => exact ⟨lower_le_clamp n nonneg, clamp_le_upper n nonneg⟩
  | none =>
    simp only [startOf]
    split
    · exact ⟨order, le_rfl⟩
    · exact ⟨le_rfl, order⟩

theorem stopOf_within (step : Int) (nonneg : 0 ≤ length) (stop : Option Int) :
    lower step ≤ stopOf step length stop ∧ stopOf step length stop ≤ upper step length := by
  have order := lower_le_upper step nonneg
  cases stop with
  | some n => exact ⟨lower_le_clamp n nonneg, clamp_le_upper n nonneg⟩
  | none =>
    simp only [stopOf]
    split
    · exact ⟨le_rfl, order⟩
    · exact ⟨order, le_rfl⟩

theorem startOf_le_iff (up : 0 < step) {start : Option Int} {i : Int} (low : 0 ≤ i)
    (high : i < length) :
    startOf step length start ≤ i ↔ ∀ n ∈ start, placeOf length n ≤ i := by
  cases start with
  | some n => simpa [startOf] using clamp_le_iff up low high
  | none => simpa [startOf, lower, up.not_gt] using low

theorem lt_stopOf_iff (up : 0 < step) {stop : Option Int} {i : Int} (low : 0 ≤ i)
    (high : i < length) :
    i < stopOf step length stop ↔ ∀ n ∈ stop, i < placeOf length n := by
  cases stop with
  | some n => simpa [stopOf] using (clamp_le_iff up low high).not
  | none => simpa [stopOf, upper, up.not_gt] using high

theorem le_startOf_iff (down : step < 0) {start : Option Int} {i : Int} (low : 0 ≤ i)
    (high : i < length) :
    i ≤ startOf step length start ↔ ∀ n ∈ start, i ≤ placeOf length n := by
  cases start with
  | some n => simpa [startOf] using (clamp_lt_iff down low high).not
  | none => simpa [startOf, upper, down] using (by omega : i ≤ length - 1)

theorem stopOf_lt_iff (down : step < 0) {stop : Option Int} {i : Int} (low : 0 ≤ i)
    (high : i < length) :
    stopOf step length stop < i ↔ ∀ n ∈ stop, placeOf length n < i := by
  cases stop with
  | some n => simpa [stopOf] using clamp_lt_iff down low high
  | none => simpa [stopOf, lower, down] using (by omega : -1 < i)

/-- The range that exact indices stand for. -/
def range (start stop : Option Int) (step length : Int) (nonzero : step ≠ 0) : Range :=
  { start := startOf step length start, stop := stopOf step length stop, step
    step_ne_zero := nonzero }

theorem positions?_ofBounds (start stop : Option Int) (nonzero : step ≠ 0) :
    (ofBounds start stop step length).positions? = some (range start stop step length nonzero) := by
  unfold positions? Range.of?
  exact dif_pos nonzero

/-- The stretch between the clamped bounds holds the positions between the bounds as given. -/
theorem mem_stretch_range {start stop : Option Int} (nonzero : step ≠ 0) (nonneg : 0 ≤ length)
    {i : Int} :
    i ∈ (range start stop step length nonzero).stretch ↔
      (0 ≤ i ∧ i < length) ∧ Between start stop step length i := by
  -- clamped bounds lie within the sequence, so everything between them does
  obtain ⟨hlower, hupper⟩ := startOf_within step nonneg start
  obtain ⟨hlower', hupper'⟩ := stopOf_within step nonneg stop
  unfold Between
  by_cases up : 0 < step
  · simp only [lower, upper, up.not_gt, if_false] at hlower hupper hlower' hupper'
    rw [mem_stretch_of_pos up, if_pos up]
    constructor
    · rintro ⟨h, h'⟩
      simp only [range] at h h'
      have low : 0 ≤ i := by omega
      have high : i < length := by omega
      exact ⟨⟨low, high⟩, (startOf_le_iff up low high).mp h, (lt_stopOf_iff up low high).mp h'⟩
    · rintro ⟨⟨low, high⟩, h, h'⟩
      exact ⟨(startOf_le_iff up low high).mpr h, (lt_stopOf_iff up low high).mpr h'⟩
  · have down : step < 0 := by omega
    simp only [lower, upper, down, if_true] at hlower hupper hlower' hupper'
    rw [mem_stretch_of_neg down, if_neg up]
    constructor
    · rintro ⟨h', h⟩
      simp only [range] at h h'
      have low : 0 ≤ i := by omega
      have high : i < length := by omega
      exact ⟨⟨low, high⟩, (le_startOf_iff down low high).mp h, (stopOf_lt_iff down low high).mp h'⟩
    · rintro ⟨⟨low, high⟩, h, h'⟩
      exact ⟨(stopOf_lt_iff down low high).mpr h', (le_startOf_iff down low high).mpr h⟩

theorem toList_range {start stop : Option Int} (nonzero : step ≠ 0) (nonneg : 0 ≤ length) :
    (range start stop step length nonzero).toList = selected start stop step length := by
  have stretch : (range start stop step length nonzero).stretch =
      (allPositions step length).filter fun i => Between start stop step length i := by
    -- both lists are in the order of the walk, so it is enough that they hold the same positions
    refine (pairwise_stretch _).eq_of_mem_iff ((pairwise_allPositions step length).filter _) ?_
    intro i
    rw [mem_stretch_range nonzero nonneg, List.mem_filter, mem_allPositions, decide_eq_true_iff]
  rw [Range.toList_eq_everyNth, stretch]
  rfl

end Indices

/-! ## Exact indices -/

/-- The positions that a slice lists over a sequence of `length` elements by its exact indices. -/
def exactPositions (c : Callbacks) (s : Slice) (length : Int) : Eval Range := do
  let i ← indices c s.bounds (.int length)
  Eval.orRaise .zeroRangeStep i.positions?

theorem exactPositions_eq (c : Callbacks) {s : Slice} {start stop step : Option Int}
    (bounds : s.bounds = .ofInts start stop step) (nonzero : step ≠ some 0) {length : Int}
    (nonneg : 0 ≤ length) :
    exactPositions c s length =
      pure (Indices.range start stop (step.getD 1) length (getD_one_ne_zero nonzero)) := by
  unfold exactPositions
  rw [bounds, indices_ofInts c _ _ nonzero nonneg, pure_bind, Indices.positions?_ofBounds,
    Eval.orRaise_some]

/-- Exact indices list exactly the positions that the slice selects, and nothing else happens. -/
theorem exactPositions_selected (c : Callbacks) (w : World) {s : Slice}
    {start stop step : Option Int} (bounds : s.bounds = .ofInts start stop step)
    (nonzero : step ≠ some 0) {length : Int} (nonneg : 0 ≤ length) :
    ∃ r : Range,
      exactPositions c s length w = { outcome := .ok r, events := [], world := w } ∧
        r.toList = selected start stop (step.getD 1) length := by
  refine ⟨_, ?_, Indices.toList_range (getD_one_ne_zero nonzero) nonneg⟩
  rw [exactPositions_eq c bounds nonzero nonneg, Eval.pure_apply]

theorem exactPositions_selected_backward :
    (Slice.ofInts (some (-2)) none (some (-3))).bounds = .ofInts (some (-2)) none (some (-3)) ∧
      (some (-3) : Option Int) ≠ some 0 ∧ (0 : Int) ≤ 9 ∧
        ∃ r : Range,
          exactPositions (Callbacks.ofDepth 0) (.ofInts (some (-2)) none (some (-3))) 9
              (World.initial .host) =
            { outcome := .ok r, events := [], world := World.initial .host } ∧
          r.toList = [7, 4, 1] := by
  have bounds := Slice.bounds_ofInts (some (-2)) none (some (-3))
  obtain ⟨r, hr, list⟩ := exactPositions_selected (Callbacks.ofDepth 0) (World.initial .host)
    bounds (by decide) (by decide : (0 : Int) ≤ 9)
  exact ⟨bounds, by decide, by decide, r, hr, list.trans (by decide)⟩

end Slicing
