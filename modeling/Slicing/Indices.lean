import Slicing.Range

/-!
# Exact indices

A slice over a sequence of `length` elements becomes a triple of exact integers: where the walk
starts, the limit it stays short of, and its step. Bounds of any size are clamped to the ends of
the sequence, so nothing is ever rounded.

Walking backwards, both ends move down by one: `-1` is the place before the first element.
-/

namespace Slicing

/-- Where a walk over a sequence starts, the limit it stays short of, and its step. -/
structure Indices where
  start : Int
  stop : Int
  step : Int
  deriving DecidableEq

namespace Indices

/-- The lowest limit a bound can be clamped to. -/
def lower (step : Int) : Int :=
  if step < 0 then -1 else 0

/-- The highest limit a bound can be clamped to. -/
def upper (step length : Int) : Int :=
  if step < 0 then length - 1 else length

/-- A given bound, counted from the end if it is negative, and kept between the two limits. -/
def clamp (step length n : Int) : Int :=
  if n < 0 then
    if n + length < lower step then lower step else n + length
  else if upper step length < n then upper step length
  else n

/-- The place where the walk starts: a missing bound is the end it sets out from. -/
def startOf (step length : Int) : Option Int → Int
  | none => if step < 0 then upper step length else lower step
  | some n => clamp step length n

/-- The limit of the walk: a missing bound is the end it heads for. -/
def stopOf (step length : Int) : Option Int → Int
  | none => if step < 0 then lower step else upper step length
  | some n => clamp step length n

/-- The indices that a slice with these bounds visits over a sequence of `length` elements. -/
def ofBounds (start stop : Option Int) (step length : Int) : Indices :=
  { start := startOf step length start, stop := stopOf step length stop, step }

/-- The positions the indices stand for; there are none to list when the step is zero. -/
def positions? (i : Indices) : Option Range :=
  Range.of? i.start i.stop i.step

theorem lower_le_clamp {step length : Int} (n : Int) (h : 0 ≤ length) :
    lower step ≤ clamp step length n := by
  unfold clamp lower upper
  split <;> split <;> split <;> omega

theorem clamp_le_upper {step length : Int} (n : Int) (h : 0 ≤ length) :
    clamp step length n ≤ upper step length := by
  unfold clamp lower upper
  split <;> split <;> split <;> omega

end Indices

end Slicing
