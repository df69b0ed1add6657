import Slicing.Perform
import Slicing.Proofs.Selection

/-!
# Both ways to the same positions

A slice with integer bounds finds its positions in two ways: by exact indices, or by saturating its
bounds to the word and adjusting them to a window. A backward slice is exact about where it starts
and stops; its window holds the same stretch turned round, both ends moved up by one.

1. `low_of_pos`, `high_of_pos`, `low_of_neg`, `high_of_neg` — the ends of the window are the exact
   indices, for every bound, however far it lies outside the word.
2. `pace_ofIntegers` — the pace is the length of the step, or the greatest signed integer if the
   step is longer than that. Such a step reaches no second position anyway.
3. `machinePositions_eq_exact` — so both ways list the same positions, unless the unsigned word
   cannot hold the pace. Then the window is cut down to its first position.
-/

namespace Slicing

/-- The signed word is the two's complement one whose largest value is `m`. -/
structure Words.Signed (w : Words) (m : Int) : Prop where
  one_le : 1 ≤ m
  isizeMax_eq : w.isizeMax = m
  isizeMin_eq : w.isizeMin = -m - 1

theorem Words.Signed.proper {w : Words} {m : Int} (h : w.Signed m) : w.Proper where
  isizeMin_neg := by have := h.one_le; rw [h.isizeMin_eq]; omega
  isizeMax_pos := by have := h.one_le; rw [h.isizeMax_eq]; omega

theorem Words.signed_twosComplement {m : Int} (h : 1 ≤ m) : (twosComplement m).Signed m :=
  ⟨h, rfl, rfl⟩

variable {w : Words} {m length step : Int}

/-! ## Clamping within the word -/

theorem saturateIndex_saturate (word : w.Signed m) (nonneg : 0 ≤ length) (up : 0 < step)
    (n : Int) :
    w.saturateIndex (w.saturate n) length = Indices.clamp step (min length m) n := by
  obtain ⟨pos, hmax, hmin⟩ := word
  simp only [Words.saturateIndex, Words.saturate, Words.clampLength, Indices.clamp, Indices.lower,
    Indices.upper, hmax, hmin, up.not_gt, if_false]
  grind

/-- The index one above the length is clamped to the length, so both kinds of bound end up alike. -/
theorem saturateIndex_above (word : w.Signed m) (length n : Int) :
    w.saturateIndex (Saturated.above w length n) length =
      w.saturateIndex (Saturated.aboveStart w length n) length := by
  obtain ⟨pos, hmax, hmin⟩ := word
  unfold Saturated.above Saturated.aboveStart
  by_cases h : n = -1
  · rw [if_pos h, if_pos h]
    simp only [Words.saturateIndex, Words.saturate, Words.clampLength, Words.saturatingAdd, hmax,
      hmin]
    grind
  · rw [if_neg h, if_neg h]

theorem saturateIndex_aboveStart (word : w.Signed m) (nonneg : 0 ≤ length) (down : step < 0)
    (n : Int) :
    w.saturateIndex (Saturated.aboveStart w length (w.saturate n)) length =
      Indices.clamp step (min length m) n + 1 := by
  obtain ⟨pos, hmax, hmin⟩ := word
  simp only [Words.saturateIndex, Words.saturate, Words.clampLength, Words.saturatingAdd,
    Saturated.aboveStart, Indices.clamp, Indices.lower, Indices.upper, hmax, hmin, down, if_true]
  grind

/-! ## The ends of the window -/

section

variable (word : w.Signed m) (nonneg : 0 ≤ length) (lineage : Lineage) (start stop : Option Int)
include word nonneg

open Saturated (ofIntegers)

theorem low_of_pos (up : 0 < step) :
    (ofIntegers w lineage start stop step).low w length =
      Indices.startOf step (min length m) start := by
  have positive : ¬w.saturate step < 0 := by rw [Words.saturate_neg_iff word.proper]; omega
  simp only [Saturated.low, ofIntegers, positive, if_false]
  cases start with
  | some n => exact saturateIndex_saturate word nonneg up n
  | none =>
    obtain ⟨pos, hmax, hmin⟩ := word
    simp only [Option.map_none, Option.getD_none, Saturated.defaultStart, positive, if_false,
      Words.saturateIndex, Words.clampLength, Indices.startOf, Indices.lower, up.not_gt, hmax]
    grind

theorem high_of_pos (up : 0 < step) :
    (ofIntegers w lineage start stop step).high w length =
      Indices.stopOf step (min length m) stop := by
  have positive : ¬w.saturate step < 0 := by rw [Words.saturate_neg_iff word.proper]; omega
  simp only [Saturated.high, ofIntegers, positive, if_false]
  cases stop with
  | some n => exact saturateIndex_saturate word nonneg up n
  | none =>
    obtain ⟨pos, hmax, hmin⟩ := word
    simp only [Option.map_none, Option.getD_none, Saturated.defaultStop, positive, if_false,
      Words.saturateIndex, Words.clampLength, Indices.stopOf, Indices.upper, up.not_gt, hmax]
    grind

theorem low_of_neg (down : step < 0) :
    (ofIntegers w lineage start stop step).low w length =
      Indices.stopOf step (min length m) stop + 1 := by
  have negative : w.saturate step < 0 := (Words.saturate_neg_iff word.proper).mpr down
  simp only [Saturated.low, ofIntegers, negative, if_true]
  rw [saturateIndex_above word]
  cases stop with
  | some n => exact saturateIndex_aboveStart word nonneg down n
  | none =>
    obtain ⟨pos, hmax, hmin⟩ := word
    simp only [Option.map_none, Option.getD_none, Saturated.defaultStop, if_true,
      Saturated.aboveStart, Words.saturatingAdd, Words.saturate, Words.saturateIndex,
      Words.clampLength, Indices.stopOf, Indices.lower, down, hmax, hmin]
    grind

theorem high_of_neg (down : step < 0) :
    (ofIntegers w lineage start stop step).high w length =
      Indices.startOf step (min length m) start + 1 := by
  have negative : w.saturate step < 0 := (Words.saturate_neg_iff word.proper).mpr down
  simp only [Saturated.high, ofIntegers, negative, if_true]
  cases start with
  | some n => exact saturateIndex_aboveStart word nonneg down n
  | none =>
    obtain ⟨pos, hmax, hmin⟩ := word
    simp only [Option.map_none, Option.getD_none, Saturated.defaultStart, if_true,
      Saturated.aboveStart, Words.saturatingAdd, Words.saturate, Words.saturateIndex,
      Words.clampLength, Indices.startOf, Indices.upper, down, hmax, hmin]
    grind

end

/-! ## The pace -/

theorem pace_ofIntegers (step : Int) (word : w.Signed m) (lineage : Lineage)
    (start stop : Option Int) :
    (Saturated.ofIntegers w lineage start stop step).pace w =
      if min |step| m ≤ w.usizeMax then some (min |step| m) else none := by
  have length : (if w.saturate step < 0 then w.saturatingAbs (w.saturate step)
      else w.saturate step) = min |step| m := by
    obtain ⟨pos, hmax, hmin⟩ := word
    simp only [Words.saturate, Words.saturatingAbs, hmax, hmin, abs_eq_max_neg]
    grind
  exact congrArg (fun pace => if pace ≤ w.usizeMax then some pace else none) length

/-! ## A range as a window -/

namespace Range

/-- The lowest element that the stretch of a range can hold. -/
def low (r : Range) : Int :=
  if 0 < r.step then r.start else r.stop + 1

/-- The integer above the highest element that the stretch can hold. -/
def high (r : Range) : Int :=
  if 0 < r.step then r.stop else r.start + 1

/-- The end from which the stretch is walked. -/
def direction (r : Range) : Direction :=
  if 0 < r.step then .forward else .backward

/-- The range over the same stretch with a step of length `k`. -/
def paced (r : Range) (k : Int) (pos : 0 < k) : Range :=
  { r with step := if 0 < r.step then k else -k, step_ne_zero := by split <;> omega }

theorem span_eq (r : Range) : r.span = (r.high - r.low).toNat := by
  unfold span high low
  split <;> omega

theorem positions?_window (r : Range) {k : Int} (pos : 0 < k) :
    ({ start := r.low, stop := r.high, step := some k, direction := r.direction } :
      Window).positions? = some (r.paced k pos) := by
  have nonzero : k ≠ 0 := pos.ne'
  unfold Window.positions? of? low high direction paced
  by_cases up : 0 < r.step <;> simp [up, nonzero]

/-- Steps of one length, or steps that are both too long for a second element. -/
theorem toList_paced {r : Range} {m : Int} (pos : 0 < min |r.step| m) (short : r.span ≤ m) :
    (r.paced (min |r.step| m) pos).toList = r.toList := by
  have nonzero := r.step_ne_zero
  -- the pace differs from the step only where the step is longer than the whole stretch
  have span : (r.paced (min |r.step| m) pos).span = r.span := by
    unfold Range.span paced
    by_cases up : 0 < r.step
    · simp only [up, if_true, pos]
    · simp only [up, if_false, Int.neg_pos, pos.not_gt]
  refine toList_congr rfl span ?_
  rw [span]
  simp only [paced, abs_eq_max_neg]
  split <;> omega

end Range

/-- A window without positions lists none, from whichever end it is walked. -/
theorem positions?_empty {pace : Option Int} (h : pace ≠ some 0) (low : Int) (d : Direction) :
    ∃ r : Range,
      ({ start := low, stop := low, step := pace, direction := d } : Window).positions? = some r ∧
        r.toList = [] := by
  have nonzero : pace.getD 1 ≠ 0 := getD_one_ne_zero h
  cases d with
  | forward =>
    refine ⟨_, dif_pos nonzero, Range.toList_eq_nil ?_⟩
    unfold Range.span
    split <;> simp
  | backward =>
    refine ⟨_, dif_pos (Int.neg_ne_zero.mpr nonzero), Range.toList_eq_nil ?_⟩
    unfold Range.span
    split <;> simp

/-- A window of one position lists it, from whichever end it is walked. -/
theorem positions?_single {low high : Int} (next : high = low + 1) (d : Direction) :
    ∃ r : Range,
      ({ start := low, stop := high, step := none, direction := d } : Window).positions? = some r ∧
        r.toList = [low] := by
  subst next
  cases d with
  | forward =>
    let first : Range := ⟨low, low + 1, 1, one_ne_zero⟩
    have span : first.span = 1 := by simp [Range.span, first]
    exact ⟨first, rfl, Range.toList_eq_singleton span⟩
  | backward =>
    -- walked from the end, the first position is the integer below the stop
    let first : Range := ⟨low + 1 - 1, low - 1, -1, neg_ne_zero.mpr one_ne_zero⟩
    have span : first.span = 1 := by simp [Range.span, first]
    refine ⟨first, rfl, ?_⟩
    rw [Range.toList_eq_singleton span, show first.start = low from Int.add_sub_cancel low 1]

/-! ## The positions of the window -/

/-- A window over the stretch of a range lists its elements, or the first if it has no pace. -/
theorem Saturated.positions?_window {s : Saturated} (exact : Range)
    (hlow : s.low w length = exact.low) (hhigh : s.high w length = exact.high)
    (hdir : s.direction = exact.direction)
    (hpace : s.pace w =
      if min |exact.step| m ≤ w.usizeMax then some (min |exact.step| m) else none)
    (pos : 1 ≤ m) (short : exact.span ≤ m) :
    ∃ r : Range,
      (s.window w length).positions? = some r ∧
        r.toList =
          if min |exact.step| m ≤ w.usizeMax then exact.toList else exact.toList.take 1 := by
  have positive : 0 < min |exact.step| m := by
    have := abs_pos.mpr exact.step_ne_zero
    omega
  have span := exact.span_eq
  unfold Saturated.window
  rw [hlow, hhigh, hdir, hpace]
  -- a window without positions shows neither its pace nor its direction
  by_cases empty : exact.high ≤ exact.low
  · have nil : exact.toList = [] := Range.toList_eq_nil (by omega)
    simp only [empty, if_true, nil, List.take_nil, ite_self]
    refine positions?_empty ?_ _ _
    split
    · simpa using positive.ne'
    · simp
  · by_cases holds : min |exact.step| m ≤ w.usizeMax
    · simp only [empty, holds, if_true, if_false]
      exact ⟨_, exact.positions?_window positive, Range.toList_paced positive short⟩
    · simp only [empty, holds, if_false]
      rw [Range.toList_take_one (by omega)]
      -- what is left is the end that the walk begins at
      by_cases up : 0 < exact.step
      · simp only [Range.direction, Range.low, up, if_true]
        exact positions?_single rfl .forward
      · simp only [Range.direction, Range.high, up, if_false, Int.add_sub_cancel]
        exact positions?_single rfl .backward

section

variable (word : w.Signed m) (nonzero : step ≠ 0) (lineage : Lineage)
  (start stop : Option Int)
include word

theorem low_ofIntegers (nonneg : 0 ≤ length) :
    (Saturated.ofIntegers w lineage start stop step).low w length =
      (Indices.range start stop step (min length m) nonzero).low := by
  rcases Int.lt_or_gt_of_ne nonzero with down | up
  · rw [low_of_neg word nonneg lineage start stop down]
    exact (if_neg down.not_gt).symm
  · rw [low_of_pos word nonneg lineage start stop up]
    exact (if_pos up).symm

theorem high_ofIntegers (nonneg : 0 ≤ length) :
    (Saturated.ofIntegers w lineage start stop step).high w length =
      (Indices.range start stop step (min length m) nonzero).high := by
  rcases Int.lt_or_gt_of_ne nonzero with down | up
  · rw [high_of_neg word nonneg lineage start stop down]
    exact (if_neg down.not_gt).symm
  · rw [high_of_pos word nonneg lineage start stop up]
    exact (if_pos up).symm

theorem direction_ofIntegers :
    (Saturated.ofIntegers w lineage start stop step).direction =
      (Indices.range start stop step (min length m) nonzero).direction := by
  have sign := Words.saturate_neg_iff (n := step) word.proper
  rcases Int.lt_or_gt_of_ne nonzero with down | up
  · exact (if_pos (sign.mpr down)).trans (if_neg down.not_gt).symm
  · exact (if_neg (mt sign.mp up.not_gt)).trans (if_pos up).symm

theorem span_range_le (nonneg : 0 ≤ length) :
    (Indices.range start stop step (min length m) nonzero).span ≤ m := by
  have bounded : 0 ≤ min length m := by have := word.one_le; omega
  obtain ⟨hstart', hstart⟩ := Indices.startOf_within step bounded start
  obtain ⟨hstop', hstop⟩ := Indices.stopOf_within step bounded stop
  have pos := word.one_le
  simp only [Indices.lower, Indices.upper] at hstart hstart' hstop hstop'
  rcases Int.lt_or_gt_of_ne nonzero with down | up
  · have span : (Indices.range start stop step (min length m) nonzero).span =
        (Indices.startOf step (min length m) start -
          Indices.stopOf step (min length m) stop).toNat := if_neg down.not_gt
    simp only [down, if_true] at hstart hstart' hstop hstop'
    omega
  · have span : (Indices.range start stop step (min length m) nonzero).span =
        (Indices.stopOf step (min length m) stop -
          Indices.startOf step (min length m) start).toNat := if_pos up
    simp only [up.not_gt, if_false] at hstart hstart' hstop hstop'
    omega

/-- The window of a slice with integer bounds lists what its exact indices list. -/
theorem positions?_window_ofIntegers (nonneg : 0 ≤ length) :
    ∃ r : Range,
      ((Saturated.ofIntegers w lineage start stop step).window w length).positions? = some r ∧
        r.toList =
          if min |step| m ≤ w.usizeMax then
            (Indices.range start stop step (min length m) nonzero).toList
          else (Indices.range start stop step (min length m) nonzero).toList.take 1 := by
  have low := low_ofIntegers word nonzero lineage start stop nonneg
  have high := high_ofIntegers word nonzero lineage start stop nonneg
  have direction : (Saturated.ofIntegers w lineage start stop step).direction =
      (Indices.range start stop step (min length m) nonzero).direction :=
    direction_ofIntegers word nonzero lineage start stop
  have pace := pace_ofIntegers step word lineage start stop
  have short := span_range_le word nonzero start stop nonneg
  exact Saturated.positions?_window (Indices.range start stop step (min length m) nonzero) low
    high direction pace word.one_le short

end

/-! ## Resolving, adjusting and walking -/

/-- The positions that a slice lists over a sequence of `length` elements by way of the word. -/
def machinePositions (c : Callbacks) (s : Slice) (length : Int) : Eval Range := do
  let resolved ← Eval.allocateMachine (← resolve c .base s.bounds.members)
  let adjusted ← Eval.allocateAdjusted (← adjustBounds c (← expectSaturated resolved) length)
  positionsOf c adjusted

theorem yields_expectSaturated {w : World} {v : Value} {lineage : Lineage} {b : Bounds}
    (h : w.cell? v = some (.saturated lineage b)) : (expectSaturated v).Yields w b w := by
  unfold expectSaturated expect
  simp [Eval.Yields, Eval.bind_apply, Eval.world_apply, h, Eval.pure_apply]

/-- Integer bounds are adjusted to the window of the slice, and nothing else happens. -/
theorem adjustBounds_bounds_apply (c : Callbacks) (s : Saturated) {length : Int}
    (nonneg : 0 ≤ length) (w : World) :
    adjustBounds c s.bounds length w =
      { outcome := .ok (s.window w.words length).adjusted, events := [], world := w } := by
  rw [adjustBounds_bounds]
  simp [adjust, Saturated.adjust?, Int.not_lt.mpr nonneg, Eval.bind_apply, Eval.map_apply,
    Eval.words_apply, Eval.pure_apply, Except.map]

theorem yields_adjustBounds (c : Callbacks) (s : Saturated) {length : Int} (nonneg : 0 ≤ length)
    (w : World) :
    (adjustBounds c s.bounds length).Yields w (s.window w.words length).adjusted w := by
  rw [Eval.Yields, adjustBounds_bounds_apply c s nonneg w]
  exact ⟨rfl, rfl⟩

/-- Walking an adjusted slice that shows a window gives the positions of the window. -/
theorem positionsOf_allocateAdjusted (c : Callbacks) (window : Window) {r : Range}
    (h : window.positions? = some r) (w : World) :
    ((Eval.allocateAdjusted window.adjusted >>= positionsOf c) w).outcome = .ok r := by
  -- the stretch is an object of its own, made before the adjusted slice that refers to it
  let w₁ := w.insert (.range window.adjusted.stretch)
  let w₂ := w₁.insert (.adjusted w.fresh (.ofInt? window.step) window.direction)
  have range : w₂.cell? w.fresh = some (.range window.adjusted.stretch) :=
    World.cell?_insert_of_some (World.cell?_insert_fresh w _) _
  have adjusted : w₂.cell? w₁.fresh =
      some (.adjusted w.fresh (.ofInt? window.step) window.direction) :=
    World.cell?_insert_fresh w₁ _
  have walked := positionsOf_window (c := c) adjusted range
  have run : (Eval.allocateAdjusted window.adjusted >>= positionsOf c) w =
      positionsOf c w₁.fresh w₂ := rfl
  rw [run, walked]
  show (Eval.orRaise .zeroRangeStep window.positions? w₂).outcome = .ok r
  rw [h]
  rfl

/-- Going through objects makes no difference: the positions are those of the window. -/
theorem machinePositions_outcome {c : Callbacks} {s : Slice} {w w' : World} {resolved : Saturated}
    (h : (resolve c .base s.bounds.members).Yields w resolved w') {length : Int}
    (nonneg : 0 ≤ length) {r : Range}
    (window : (resolved.window w'.words length).positions? = some r) :
    (machinePositions c s length w).outcome = .ok r := by
  let held := w'.insert (.saturated resolved.lineage resolved.bounds)
  have cell : held.cell? w'.fresh = some (.saturated resolved.lineage resolved.bounds) :=
    World.cell?_insert_fresh w' _
  have adjusted := yields_adjustBounds c resolved nonneg held
  refine Eval.bind_outcome_ok_iff.mpr ⟨resolved, w', h, ?_⟩
  refine Eval.bind_outcome_ok_iff.mpr ⟨w'.fresh, held, ⟨rfl, rfl⟩, ?_⟩
  refine Eval.bind_outcome_ok_iff.mpr ⟨_, held, yields_expectSaturated cell, ?_⟩
  refine Eval.bind_outcome_ok_iff.mpr ⟨_, held, adjusted, ?_⟩
  exact positionsOf_allocateAdjusted c _ window held

/--
Both ways list the same positions, for every word and every length, longer than the word or not.
Only where the unsigned word cannot hold the pace does the way by the word stop after the first,
and an unsigned word as wide as the signed one holds every pace.
-/
theorem machinePositions_eq_exact (c : Callbacks) {w : World} {m : Int} (word : w.words.Signed m)
    {s : Slice} {start stop step : Option Int} (bounds : s.bounds = .ofInts start stop step)
    (nonzero : step ≠ some 0) {length : Int} (nonneg : 0 ≤ length) :
    ∃ exact machine : Range,
      (exactPositions c s (min length m) w).outcome = .ok exact ∧
        (machinePositions c s length w).outcome = .ok machine ∧
          (machine.toList =
            if min |step.getD 1| m ≤ w.words.usizeMax then exact.toList
            else exact.toList.take 1) ∧
          (w.words.usizeMax = 2 * m + 1 → machine.toList = exact.toList) := by
  have bounded : 0 ≤ min length m := by have := word.one_le; omega
  have resolved := yields_resolve_ofInts c start stop step w word.proper nonzero .base
  obtain ⟨r, hr, list⟩ := positions?_window_ofIntegers word (getD_one_ne_zero nonzero) .base start
    stop nonneg
  refine ⟨_, r, ?_, ?_, list, ?_⟩
  · rw [exactPositions_eq c bounds nonzero bounded, Eval.pure_apply]
  · rw [← bounds] at resolved
    exact machinePositions_outcome resolved nonneg hr
  · intro wide
    have holds : min |step.getD 1| m ≤ w.words.usizeMax := by
      have := word.one_le
      omega
    rw [list, if_pos holds]

/-- A sequence longer than the word, walked backward by steps that the unsigned word cannot hold. -/
theorem machinePositions_eq_exact_unpaced :
    (World.initial { isizeMax := 5, isizeMin := -6, usizeMax := 1 }).words.Signed 5 ∧
      (Slice.ofInts (some (-2)) none (some (-3))).bounds =
        .ofInts (some (-2)) none (some (-3)) ∧
      (some (-3) : Option Int) ≠ some 0 ∧ (0 : Int) ≤ 9 ∧
        ∃ exact machine : Range,
          (exactPositions (Callbacks.ofDepth 0) (.ofInts (some (-2)) none (some (-3))) (min 9 5)
            (World.initial { isizeMax := 5, isizeMin := -6, usizeMax := 1 })).outcome =
              .ok exact ∧
            (machinePositions (Callbacks.ofDepth 0) (.ofInts (some (-2)) none (some (-3))) 9
              (World.initial { isizeMax := 5, isizeMin := -6, usizeMax := 1 })).outcome =
                .ok machine ∧
              machine.toList = exact.toList.take 1 := by
  have word : (World.initial { isizeMax := 5, isizeMin := -6, usizeMax := 1 }).words.Signed 5 :=
    ⟨by decide, rfl, rfl⟩
  have bounds := Slice.bounds_ofInts (some (-2)) none (some (-3))
  obtain ⟨exact, machine, hexact, hmachine, list, -⟩ :=
    machinePositions_eq_exact (Callbacks.ofDepth 0) word bounds (by decide)
      (by decide : (0 : Int) ≤ 9)
  exact ⟨word, bounds, by decide, by decide, exact, machine, hexact, hmachine, list⟩

end Slicing
