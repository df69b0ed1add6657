import Slicing.Proofs.OneCall
import Slicing.Proofs.Agreement

/-!
# Values that count as integers

A truth value counts as one or zero, so it may stand wherever an integer is wanted. Whatever is
computed of a value that counts as an integer is computed of that integer; only where a value is
handed on as it is, it stays a truth value.

* `adjustBounds_countAs` — bounds that count as integers are adjusted to the window of the slice
  with those integers
* `positionsOf_apply` — an adjusted slice whose step counts as an integer is walked in such steps
-/

namespace Slicing

section

variable {c : Callbacks} {v : Value} {n : Int}

theorem holdsFor_of_toInt? (h : v.toInt? = some n) (c : Callbacks) (op : Comparison) (m : Int) :
    holdsFor c op v m = holdsFor c op (.int n) m := by
  unfold holdsFor
  rw [h]
  rfl

theorem addInteger_of_toInt? (h : v.toInt? = some n) (operation : String) (m : Int) :
    addInteger operation v m = pure (.int (n + m)) := by
  unfold addInteger
  rw [h]

theorem applyUnary_of_toInt? (h : v.toInt? = some n) (operation : String) (onInt : Int → Int)
    (onNumber : Number → Number) :
    applyUnary operation onInt onNumber v = pure (.int (onInt n)) := by
  unfold applyUnary
  rw [h]

theorem magnitude_of_toInt? (h : v.toInt? = some n) : magnitude v = pure (.int n.natAbs) :=
  applyUnary_of_toInt? h _ _ _

theorem negate_of_toInt? (h : v.toInt? = some n) : negate v = pure (.int (-n)) :=
  applyUnary_of_toInt? h _ _ _

theorem toInteger_of_toInt? (h : v.toInt? = some n) : toInteger c v = pure n := by
  ext w
  exact indexOr_of_toInt? h

/-! ## Within the word -/

theorem fromStart_of_toInt? (h : v.toInt? = some n) (c : Callbacks) (length : Int) :
    ∃ u : Value,
      u.toInt? = some (if n < 0 then (if n + length < 0 then 0 else n + length) else n) ∧
      clampValue.fromStart c length v = pure u := by
  unfold clampValue.fromStart
  simp only [holdsFor_of_toInt? h, holdsFor_lt_int, addInteger_of_toInt? h, pure_bind]
  by_cases negative : n < 0
  · by_cases before : n + length < 0
    · exact ⟨.int 0, by simp [negative, before, Value.toInt?], by simp [negative, before]⟩
    · exact ⟨.int (n + length), by simp [negative, before, Value.toInt?],
        by simp [negative, before]⟩
  · exact ⟨v, by simp [negative, h], by simp [negative]⟩

theorem clampValue_of_toInt? (h : v.toInt? = some n) (c : Callbacks) (length : Int) (w : World) :
    ∃ u : Value, u.toInt? = some (w.words.saturateIndex n length) ∧
      clampValue c v length w = { outcome := .ok u, events := [], world := w } := by
  obtain ⟨p, counts, start⟩ := fromStart_of_toInt? h c (w.words.clampLength length)
  unfold clampValue Words.saturateIndex
  simp only [Eval.bind_apply, Eval.words_apply, start, holdsFor_of_toInt? counts,
    holdsFor_gt_int, Eval.pure_apply]
  generalize (if n < 0 then _ else n : Int) = q at counts ⊢
  by_cases beyond : w.words.clampLength length < q
  · exact ⟨.int (w.words.clampLength length), by simp [beyond, Value.toInt?],
      by simp [beyond, Eval.pure_apply]⟩
  · exact ⟨p, by simp [beyond, counts], by simp [beyond, Eval.pure_apply]⟩

/-! ## Turning a slice round -/

theorem valueAbove_of_toInt? (h : v.toInt? = some n) (c : Callbacks) (beyond : Eval Value) :
    valueAbove c beyond v = valueAbove c beyond (.int n) := by
  unfold valueAbove
  rw [holdsFor_of_toInt? h, addInteger_of_toInt? h, addInteger_int]

theorem stepMagnitude_of_toInt? (h : v.toInt? = some n) (c : Callbacks) :
    stepMagnitude c v = stepMagnitude c (.int n) := by
  unfold stepMagnitude
  simp only [holdsFor_of_toInt? h, magnitude_of_toInt? h, magnitude_int]

end

/-- Each bound counts as the integer that the slice has in its place. -/
structure Bounds.CountAs (b : Bounds) (s : Saturated) : Prop where
  start : b.start.toInt? = some s.start
  stop : b.stop.toInt? = some s.stop
  step : b.step.toInt? = some s.step

theorem Saturated.bounds_countAs (s : Saturated) : s.bounds.CountAs s :=
  ⟨rfl, rfl, rfl⟩

section

variable {b : Bounds} {s : Saturated}

/-- A slice that walks backward is turned round, and then its bounds are integers. -/
theorem turnUpwards_countAs (c : Callbacks) (counts : b.CountAs s) (length : Int) (w : World) :
    ∃ u : Bounds, u.CountAs (s.upwards w.words length) ∧
      turnUpwards c b length w =
        { outcome := .ok (u, s.direction), events := [], world := w } := by
  obtain ⟨start, stop, step⟩ := counts
  by_cases down : s.step < 0
  · refine ⟨(s.upwards w.words length).bounds, Saturated.bounds_countAs _, ?_⟩
    rw [← turnUpwards_bounds_apply c s length w]
    unfold turnUpwards
    simp only [holdsFor_of_toInt? step, valueAbove_of_toInt? start, valueAbove_of_toInt? stop,
      stepMagnitude_of_toInt? step, Saturated.bounds, holdsFor_lt_int, pure_bind, down,
      decide_true, if_true]
  · have upwards : s.upwards w.words length = s := if_neg down
    have forward : s.direction = .forward := if_neg down
    refine ⟨b, ?_, ?_⟩
    · rw [upwards]
      exact ⟨start, stop, step⟩
    · unfold turnUpwards
      simp only [holdsFor_of_toInt? step, holdsFor_lt_int, pure_bind, down, decide_false,
        Bool.false_eq_true, if_false, Eval.bind_apply, Eval.words_apply, Eval.pure_apply,
        List.nil_append, forward]

/-- What an optional step may be given as: `null` for none, or a value that counts as the step. -/
def Value.StepIs (v : Value) : Option Int → Prop
  | none => v = .null
  | some k => v.toInt? = some k

/-- The window that the parts of an adjusted slice make, with a step that it counts as. -/
def Adjusted.shown (a : Adjusted) (k : Option Int) : Window :=
  { start := a.stretch.start, stop := a.stretch.stop, step := k, direction := a.direction }

/-- The adjusted slice shows the window, though its step need not be given as an integer. -/
structure Adjusted.Shows (a : Adjusted) (v : Window) : Prop where
  parts : a.shown v.step = v
  step : a.step.StepIs v.step

/-- Bounds that count as integers are adjusted as those integers are. -/
theorem adjustBounds_countAs (c : Callbacks) (counts : b.CountAs s) {length : Int}
    (nonneg : 0 ≤ length) (w : World) :
    ∃ a : Adjusted,
      adjustBounds c b length w = { outcome := .ok a, events := [], world := w } ∧
        a.Shows (s.window w.words length) := by
  obtain ⟨u, ⟨start, stop, step⟩, turned⟩ := turnUpwards_countAs c counts length w
  obtain ⟨low, lowIs, clampLow⟩ := clampValue_of_toInt? start c length w
  obtain ⟨high, highIs, clampHigh⟩ := clampValue_of_toInt? stop c length w
  rw [s.low_upwards] at lowIs
  rw [s.high_upwards] at highIs
  have window := adjusted_window w.words s length
  have pace := s.pace_upwards w.words length
  have stepIs : (if (s.upwards w.words length).step ≤ w.words.usizeMax then u.step else
      .null).StepIs (s.pace w.words) := by
    rw [pace]
    split
    · exact step
    · rfl
  have reaches : (s.pace w.words).isSome =
      decide ((s.upwards w.words length).step ≤ w.words.usizeMax) := by
    rw [pace]
    split <;> simp_all
  refine ⟨{ stretch := shrink (s.low w.words length) (s.high w.words length)
              (s.pace w.words).isSome s.direction
            step := if (s.upwards w.words length).step ≤ w.words.usizeMax then u.step else .null
            direction := s.direction }, ?_, ?_, ?_⟩
  · unfold adjustBounds
    simp only [nonneg.not_gt, if_false, Eval.bind_apply, turned, Eval.words_apply,
      holdsFor_of_toInt? step, holdsFor_le_int, clampLow, clampHigh, toInteger_of_toInt? lowIs,
      toInteger_of_toInt? highIs, Eval.pure_apply, reaches, List.nil_append, decide_eq_true_eq]
  · unfold Adjusted.shown
    rw [← congrArg Adjusted.stretch window, ← congrArg Adjusted.direction window]
    rfl
  · rw [s.step_window]
    exact stepIs

end

/-! ## Walking in steps that count as integers -/

section

variable {c : Callbacks} {w : World} {x step : Value} {k : Option Int}

/-- Walking looks at nothing of a step but the integer that it counts as. -/
theorem walk_congr (counts : step.StepIs k) (c : Callbacks) (stretch direction : Value) :
    walk c stretch step direction = walk c stretch (.ofInt? k) direction := by
  cases k with
  | none => exact congrArg (walk c stretch · direction) counts
  | some n =>
    have integer : step.toInt? = some n := counts
    have given : step ≠ .null := by
      rintro rfl
      simp [Value.toInt?] at integer
    have same : toInteger c step = toInteger c (.int n) :=
      (toInteger_of_toInt? integer).trans (toInteger_of_toInt? rfl).symm
    unfold walk
    simp only [given, if_false, Value.ofInt?, reduceCtorEq, negate_of_toInt? integer, negate_int,
      rangeOf, same]

/-- The value is an adjusted slice, whose stretch is an object of its own. -/
def World.HoldsAdjusted (w : World) (x : Value) (a : Adjusted) : Prop :=
  ∃ stretch : Value,
    w.cell? x = some (.adjusted stretch a.step a.direction) ∧
      w.cell? stretch = some (.range a.stretch)

/-- The positions of an adjusted slice are those of the window that its parts make. -/
theorem positionsOf_apply {a : Adjusted} (held : w.HoldsAdjusted x a) (counts : a.step.StepIs k) :
    positionsOf c x w = positions (a.shown k) w := by
  obtain ⟨stretch, adjusted, range⟩ := held
  have walked := walk_range_apply (c := c) range k a.direction
  rw [← walk_congr counts] at walked
  rw [positionsOf, Eval.bind_apply, takeApart_adjusted_apply adjusted]
  exact walked

theorem positionsOf_apply_of_some {a : Adjusted} {r : Range} (held : w.HoldsAdjusted x a)
    (counts : a.step.StepIs k) (walked : (a.shown k).positions? = some r) :
    positionsOf c x w = { outcome := .ok r, events := [], world := w } := by
  rw [positionsOf_apply held counts, positions, walked]
  rfl

end

end Slicing
