import Slicing.Reading
import Slicing.Resolution

/-!
# Adjusting and walking any values

A saturated slice may hold bounds that are no integers, and an adjusted slice may have been made
by hand, or be no more than three values in a row. Adjusting and walking follow the same steps
then. Each step asks a value how it compares, adds to it, or asks it for its index, and the first
that a value does not know is the error.

For a saturated slice with integer bounds nothing happens but arithmetic, and the result shows
the window of `Saturated.adjust?`; for an adjusted slice that shows a window the positions are
those of `Window.positions?`.
-/

namespace Slicing

/-! ## Adjusting -/

/-- The index one above a bound; above the last element lies what `beyond` gives. -/
def valueAbove (c : Callbacks) (beyond : Eval Value) (v : Value) : Eval Value := do
  if ← holdsFor c .eq v (-1) then beyond
  else saturateValue c (← addInteger "+" v 1)

/-- The magnitude of a step; the least of the signed word gives the greatest. -/
def stepMagnitude (c : Callbacks) (v : Value) : Eval Value := do
  let limits ← Eval.words
  if ← holdsFor c .eq v limits.isizeMin then
    let limits ← Eval.words
    return .int limits.isizeMax
  else magnitude v

/-- A value that is an index, clamped into `[0, length]`; a negative one counts from the end. -/
def clampValue (c : Callbacks) (v : Value) (length : Int) : Eval Value := do
  let length := (← Eval.words).clampLength length
  let p ← fromStart length v
  if ← holdsFor c .gt p length then return .int length
  else return p
where
  /-- The index counted from the start, or zero if it lies in front of that. -/
  fromStart (length : Int) (v : Value) : Eval Value := do
    if ← holdsFor c .lt v 0 then
      let p ← addInteger "+=" v length
      if ← holdsFor c .lt p 0 then return .int 0
      else return p
    else return v

/-- An integer made of a value that must have an index. -/
def toInteger (c : Callbacks) (v : Value) : Eval Int :=
  indexOr c .notAnInteger v

/-- The bounds of a walk upwards over the same positions, and the end that the walk begins at. -/
def turnUpwards (c : Callbacks) (b : Bounds) (length : Int) : Eval (Bounds × Direction) := do
  let length := (← Eval.words).clampLength length
  if ← holdsFor c .lt b.step 0 then
    let start ← valueAbove c (saturateValue c (.int (length + 1))) b.stop
    let stop ← valueAbove c (pure (.int length)) b.start
    let step ← stepMagnitude c b.step
    return ({ start, stop, step }, .backward)
  else return (b, .forward)

/-- The stretch between two ends, shrunk to one element if a step reaches no second one. -/
def shrink (low high : Int) (reaches : Bool) (direction : Direction) : Range :=
  if high ≤ low then Range.unit low low
  else if reaches then Range.unit low high
  else match direction with
    | .forward => Range.unit low (low + 1)
    | .backward => Range.unit (high - 1) high

/-- Adjusts bounds of any kind to a length. -/
def adjustBounds (c : Callbacks) (b : Bounds) (length : Int) : Eval Adjusted := do
  if length < 0 then Eval.raise .negativeLength
  else
    let (b, direction) ← turnUpwards c b length
    let limits ← Eval.words
    let reaches ← holdsFor c .le b.step limits.usizeMax
    let low ← clampValue c b.start length
    let high ← clampValue c b.stop length
    let low ← toInteger c low
    let high ← toInteger c high
    return {
      stretch := shrink low high reaches direction
      step := if reaches then b.step else .null
      direction }

/-! ## Walking -/

/-- The range that three values make, each of which must have an index. -/
def rangeOf (c : Callbacks) (start stop step : Value) : Eval Range := do
  let start ← toInteger c start
  let stop ← toInteger c stop
  let step ← toInteger c step
  Eval.orRaise .zeroRangeStep (Range.of? start stop step)

/--
Up to `n` elements of a value, if it has elements to go through. They are taken from the front,
except that an iterator goes on where it stopped.
-/
def takeElements (n : Nat) (v : Value) : Eval (Option (List Value)) := do
  let w ← Eval.world
  match v, w.cell? v with
  | .text s, _ => return some ((s.toList.take n).map fun c => .text (String.singleton c))
  | _, some (.list items) => return some (items.take n)
  | _, some (.set items) => return some ((items.take n).map .int)
  | _, some (.range r) => return some ((r.extract 0 n).map .int)
  | .object a, some (.iterator r drawn) => do
    let items := r.extract drawn n
    Eval.store a (.iterator r (drawn + items.length))
    return some (items.map .int)
  | _, cell => return (cell.bind Cell.tupleItems?).map (·.take n)

/-- The three parts of an adjusted slice, or of any three values in a row. -/
def takeApart (v : Value) : Eval (Value × Value × Value) := do
  match ← takeElements 4 v with
  | some [stretch, step, direction] => return (stretch, step, direction)
  | some parts =>
    Eval.raise (if parts.length < 3 then .tooFewParts parts.length else .tooManyParts)
  | none => do Eval.raise (.notSplittable ((← Eval.world).kind v))

/-- What a field of a value is. -/
def readField (v : Value) (field : Field) : Eval Value := do
  Eval.ofExcept ((← Eval.world).members v field)

/-- The positions of a stretch that is walked in some steps, backward only if it says so. -/
def walk (c : Callbacks) (stretch step direction : Value) : Eval Range := do
  let step := if step = .null then .int 1 else step
  if direction = .direction .backward then
    let start ← addInteger "-" (← readField stretch .stop) (-1)
    let stop ← addInteger "-" (← readField stretch .start) (-1)
    rangeOf c start stop (← negate step)
  else
    let start ← readField stretch .start
    let stop ← readField stretch .stop
    rangeOf c start stop step

/-- The positions of an adjusted slice in the order in which they are visited. -/
def positionsOf (c : Callbacks) (adjusted : Value) : Eval Range := do
  let (stretch, step, direction) ← takeApart adjusted
  walk c stretch step direction

/-- The number of those positions, if it can be counted. -/
def countOf (c : Callbacks) (adjusted : Value) : Eval Nat := do
  countElements (← positionsOf c adjusted)

/-! ## Integers -/

theorem fromStart_int (c : Callbacks) (length p : Int) :
    clampValue.fromStart c length (.int p) =
      pure (.int (if p < 0 then (if p + length < 0 then 0 else p + length) else p)) := by
  simp only [clampValue.fromStart, holdsFor_lt_int, addInteger_int, pure_bind]
  by_cases h : p < 0
  · by_cases h' : p + length < 0 <;> simp [h, h']
  · simp [h]

theorem clampValue_int_apply (c : Callbacks) (p length : Int) (w : World) :
    clampValue c (.int p) length w =
      { outcome := .ok (.int (w.words.saturateIndex p length)), events := [], world := w } := by
  simp only [clampValue, fromStart_int, holdsFor_gt_int, pure_bind, Eval.bind_apply,
    Eval.words_apply, Words.saturateIndex]
  generalize (if p < 0 then _ else p : Int) = q
  by_cases h : w.words.clampLength length < q <;> simp [h, Eval.pure_apply]

theorem valueAbove_int_apply (c : Callbacks) (beyond : Eval Value) (n : Int) (w : World) :
    valueAbove c beyond (.int n) w =
      if n = -1 then beyond w
      else { outcome := .ok (.int (w.words.saturatingAdd n 1)), events := [], world := w } := by
  simp only [valueAbove, holdsFor_eq_int, addInteger_int, pure_bind]
  split <;> simp_all [saturateValue_int_apply, Words.saturatingAdd]

theorem stepMagnitude_int_apply (c : Callbacks) (n : Int) (w : World) :
    stepMagnitude c (.int n) w =
      { outcome := .ok (.int (w.words.saturatingAbs n)), events := [], world := w } := by
  simp only [stepMagnitude, holdsFor_eq_int, pure_bind, magnitude_int, Eval.bind_apply,
    Eval.words_apply, Words.saturatingAbs]
  by_cases h : n = w.words.isizeMin
  · simp [h, Eval.map_apply, Eval.words_apply, Except.map]
  · simp [h, Eval.pure_apply]

/-- The bounds of the walk upwards that a slice with integer bounds comes to. -/
def Saturated.upwards (w : Words) (s : Saturated) (length : Int) : Saturated :=
  if s.step < 0 then
    { s with
      start := above w length s.stop
      stop := aboveStart w length s.start
      step := w.saturatingAbs s.step }
  else s

theorem turnUpwards_bounds_apply (c : Callbacks) (s : Saturated) (length : Int) (w : World) :
    turnUpwards c s.bounds length w =
      { outcome := .ok ((s.upwards w.words length).bounds, s.direction), events := []
        world := w } := by
  simp only [turnUpwards, Saturated.bounds, holdsFor_lt_int, pure_bind, Eval.bind_apply,
    Eval.words_apply, Saturated.upwards, Saturated.direction]
  by_cases h : s.step < 0
  · by_cases h1 : s.stop = -1 <;> by_cases h2 : s.start = -1 <;>
      simp [h, h1, h2, Eval.bind_apply, valueAbove_int_apply, saturateValue_int_apply,
        stepMagnitude_int_apply, Eval.pure_apply, Eval.map_apply, Except.map, Saturated.above,
        Saturated.aboveStart, Words.saturatingAdd]
  · simp [h, Eval.pure_apply]

theorem Saturated.low_upwards (w : Words) (s : Saturated) (length : Int) :
    w.saturateIndex (s.upwards w length).start length = s.low w length := by
  unfold upwards low
  split <;> rfl

theorem Saturated.high_upwards (w : Words) (s : Saturated) (length : Int) :
    w.saturateIndex (s.upwards w length).stop length = s.high w length := by
  unfold upwards high
  split <;> rfl

theorem Saturated.pace_upwards (w : Words) (s : Saturated) (length : Int) :
    s.pace w =
      if (s.upwards w length).step ≤ w.usizeMax then some (s.upwards w length).step else none := by
  unfold upwards pace
  split <;> rfl

theorem adjusted_window (w : Words) (s : Saturated) (length : Int) :
    (s.window w length).adjusted =
      { stretch := shrink (s.low w length) (s.high w length) (s.pace w).isSome s.direction
        step := .ofInt? (s.pace w)
        direction := s.direction } := by
  simp only [Saturated.window, shrink]
  split
  · rfl
  · cases s.pace w <;> cases s.direction <;> rfl

/-- Integer bounds are adjusted by arithmetic alone, to the window of the slice. -/
theorem adjustBounds_bounds (c : Callbacks) (s : Saturated) (length : Int) :
    adjustBounds c s.bounds length = (do return (← adjust s length).adjusted) := by
  ext w
  by_cases h : length < 0
  · simp [adjustBounds, adjust, Saturated.adjust?, h, Eval.bind_apply, Eval.words_apply,
      Eval.raise_apply]
  · have adjusted := adjusted_window w.words s length
    rw [s.pace_upwards w.words length, ← s.low_upwards, ← s.high_upwards] at adjusted
    simp only [adjustBounds, adjust, Saturated.adjust?, h, if_false, Eval.orRaise_some,
      Eval.bind_apply, Eval.words_apply, turnUpwards_bounds_apply, Eval.pure_apply, adjusted]
    simp only [Saturated.bounds, holdsFor_le_int, Eval.pure_apply, clampValue_int_apply,
      toInteger, indexOr_int, List.nil_append]
    by_cases reaches : (s.upwards w.words length).step ≤ w.words.usizeMax <;>
      simp [reaches, Value.ofInt?]

/-! ## Windows -/

theorem rangeOf_int (c : Callbacks) (start stop step : Int) :
    rangeOf c (.int start) (.int stop) (.int step) =
      Eval.orRaise .zeroRangeStep (Range.of? start stop step) := by
  simp [rangeOf, toInteger, indexOr_int]

theorem readField_range_apply {w : World} {v : Value} {r : Range}
    (cell : w.cell? v = some (.range r)) (field : Field) :
    readField v field w =
      { outcome := .ok (r.bounds.get field), events := [], world := w } := by
  simp [readField, Eval.bind_apply, Eval.world_apply, World.members, World.member?, cell,
    Eval.pure_apply]

theorem takeApart_adjusted_apply {w : World} {v stretch step : Value} {d : Direction}
    (cell : w.cell? v = some (.adjusted stretch step d)) :
    takeApart v w =
      { outcome := .ok (stretch, step, .direction d), events := [], world := w } := by
  cases v with
  | object a =>
    simp [takeApart, takeElements, Eval.bind_apply, Eval.world_apply, cell, Eval.pure_apply,
      Cell.tupleItems?]
  | _ => simp [World.cell?] at cell

/-- Walking a range in integer steps, or in none, is walking a window. -/
theorem walk_range_apply {c : Callbacks} {w : World} {stretch : Value} {r : Range}
    (range : w.cell? stretch = some (.range r)) (step : Option Int) (d : Direction) :
    walk c stretch (.ofInt? step) (.direction d) w =
      positions { start := r.start, stop := r.stop, step, direction := d } w := by
  unfold walk
  cases d <;> cases step <;>
    simp [Eval.bind_apply, Eval.pure_apply, readField_range_apply range, Range.bounds, Bounds.get,
      rangeOf_int, Value.ofInt?, positions, Window.positions?] <;> rfl

/-- The positions of an adjusted slice with an integer step or none are those of a window. -/
theorem positionsOf_window {c : Callbacks} {w : World} {v stretch : Value} {r : Range}
    {step : Option Int} {d : Direction}
    (cell : w.cell? v = some (.adjusted stretch (.ofInt? step) d))
    (range : w.cell? stretch = some (.range r)) :
    positionsOf c v w =
      positions { start := r.start, stop := r.stop, step, direction := d } w := by
  rw [positionsOf, Eval.bind_apply, takeApart_adjusted_apply cell, ← walk_range_apply range step d]
  rfl

end Slicing
