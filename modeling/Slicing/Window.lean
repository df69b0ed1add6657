import Slicing.Range

/-!
# Windows

A window is what a slice selects from a sequence of known length: a stretch `[start, stop)` of
adjacent positions, the pace at which it is walked, and the end from which the walk begins.
-/

namespace Slicing

/-- The end from which a window is walked. -/
inductive Direction where
  | forward
  | backward
  deriving DecidableEq

/-- The name of a direction as it is written in requests and answers. -/
def Direction.name : Direction → String
  | .forward => "forward"
  | .backward => "backward"

/-- The direction written so, if any. -/
def Direction.ofName? : String → Option Direction
  | "forward" => some .forward
  | "backward" => some .backward
  | _ => none

/--
The stretch `[start, stop)` walked in steps of `step` from `start` upwards, or from `stop - 1`
downwards. A step of `none` stands for one too long to reach a second element.
-/
structure Window where
  start : Int
  stop : Int
  step : Option Int
  direction : Direction
  deriving DecidableEq

namespace Window

/--
The positions in the order in which they are visited. A step of `none` is walked as 1, which is
right when the stretch has at most one element. A step of zero visits nothing that can be listed.
-/
def positions? (w : Window) : Option Range :=
  let step := w.step.getD 1
  match w.direction with
  | .forward => Range.of? w.start w.stop step
  | .backward => Range.of? (w.stop - 1) (w.start - 1) (-step)

end Window

end Slicing
