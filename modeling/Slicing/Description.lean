import Slicing.Report

/-!
# Descriptions

What slices, saturated slices and ranges show of themselves: how they are written, their three
fields as read from outside, and what rebuilds them. Only a slice can have a bound left out.
-/

namespace Slicing

/-- The description of a slice. -/
def Slice.describe (w : World) (s : Slice) : Description :=
  let start := w.view s.start
  let stop := w.view s.stop
  let step := w.view s.step
  { kind := s.kind
    text := (View.slice s.lineage start stop step).toText
    start := start.given
    stop
    step := step.given
    arguments := View.arguments start stop step
    present := some [s.start.isPresent, s.stop.isPresent, s.step.isPresent] }

/-- The description of a value that shows three bounds, and is rebuilt from them. -/
def describeBounds (w : World) (v : Value) (b : Bounds) : Description :=
  { kind := w.kind v
    text := (w.view v).toText
    start := w.view b.start
    stop := w.view b.stop
    step := w.view b.step
    arguments := b.toList.map w.view
    present := none }

/-- The description of a value, if it has the fields for one. -/
def describe (v : Value) : Eval Description := do
  let w ← Eval.world
  match w.cell? v with
  | some (.slice s) => pure (s.describe w)
  | some (.saturated _ b) => pure (describeBounds w v b)
  | some (.range r) => pure (describeBounds w v r.bounds)
  | _ => Eval.raise (.noAttribute (w.kind v) "start")

end Slicing
