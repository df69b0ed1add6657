import Slicing.Value

/-!
# Adjusted slices

An adjusted slice is a window as it is handed out: the stretch as a range, the step, and the
direction. One that comes of a window has an integer step or none; one that is made by hand may
have any value there, which nobody looks at before its positions are asked for.
-/

namespace Slicing

/-- A stretch, a step that may be any value, and a direction. -/
structure Adjusted where
  stretch : Range
  step : Value
  direction : Direction
  deriving DecidableEq

namespace Window

/-- The adjusted slice that shows a window. -/
def adjusted (w : Window) : Adjusted :=
  { stretch := Range.unit w.start w.stop, step := .ofInt? w.step, direction := w.direction }

/-- A window can be read off the adjusted slice that shows it. -/
theorem adjusted_inj {w v : Window} : w.adjusted = v.adjusted ↔ w = v := by
  obtain ⟨start, stop, step, direction⟩ := w
  obtain ⟨start', stop', step', direction'⟩ := v
  cases step <;> cases step' <;> simp [adjusted, Range.unit, Value.ofInt?, and_assoc]

end Window

end Slicing
