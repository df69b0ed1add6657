import Slicing.Arithmetic
import Slicing.Saturated

/-!
# Building saturated slices

The constructor of saturated slices asks of its bounds only how they compare with integers. The
step must not equal zero; then each bound is held against the limits of the word, the greatest
first, and one beyond a limit is replaced by that limit. So integers are saturated, and any other
value that knows its order against integers is kept as it is or replaced by a limit. Such a value
may be asked for its answer, and the limits are looked up anew each time, since it may change them.

For integers this is the saturated slice of `Saturated.of?`, and nothing happens on the way.
-/

namespace Slicing

/-- A value within the limits of the signed word: itself, or the limit that it is beyond. -/
def saturateValue (c : Callbacks) (v : Value) : Eval Value := do
  let limits ← Eval.words
  if ← holdsFor c .gt v limits.isizeMax then
    let limits ← Eval.words
    return .int limits.isizeMax
  else
    let limits ← Eval.words
    if ← holdsFor c .lt v limits.isizeMin then
      let limits ← Eval.words
      return .int limits.isizeMin
    else return v

/-- Makes a saturated slice of three bounds. -/
def buildSaturated (c : Callbacks) (lineage : Lineage) (b : Bounds) : Eval Value := do
  if ← holdsFor c .eq b.step 0 then Eval.raise .zeroStep
  else
    let start ← saturateValue c b.start
    let stop ← saturateValue c b.stop
    let step ← saturateValue c b.step
    Eval.allocate (.saturated lineage { start, stop, step })

/-- Makes a saturated slice of the bounds in a list, of which there must be three. -/
def allocateSaturated (c : Callbacks) (lineage : Lineage) : List Value → Eval Value
  | [] => Eval.raise (.missingBounds ["start", "stop", "step"])
  | [_] => Eval.raise (.missingBounds ["stop", "step"])
  | [_, _] => Eval.raise (.missingBounds ["step"])
  | [start, stop, step] => buildSaturated c lineage { start, stop, step }
  | bounds => Eval.raise (.surplusBounds bounds.length)

namespace Eval

/-- The saturated slice that three integers build under the words as they are now. -/
def saturatedOf (lineage : Lineage) (start stop step : Int) : Eval Saturated := do
  orRaise .zeroStep (Saturated.of? (← words) lineage start stop step)

/-- Makes the object of a saturated slice with integer bounds. -/
def allocateMachine (s : Saturated) : Eval Value :=
  allocate (.saturated s.lineage s.bounds)

end Eval

/-! ## Integers -/

theorem saturateValue_int_apply (c : Callbacks) (n : Int) (w : World) :
    saturateValue c (.int n) w =
      { outcome := .ok (.int (w.words.saturate n)), events := [], world := w } := by
  simp only [saturateValue, holdsFor_gt_int, holdsFor_lt_int, Words.saturate]
  by_cases high : w.words.isizeMax < n
  · simp [high, Eval.bind_apply, Eval.map_apply, Eval.words_apply, Except.map]
  · by_cases low : n < w.words.isizeMin
    · simp [high, low, Eval.bind_apply, Eval.map_apply, Eval.words_apply, Except.map]
    · simp [high, low, Eval.bind_apply, Eval.words_apply, Eval.pure_apply]

/-- Integers are saturated, and nothing else happens. -/
theorem buildSaturated_int (c : Callbacks) (lineage : Lineage) (start stop step : Int) :
    buildSaturated c lineage { start := .int start, stop := .int stop, step := .int step } =
      (do Eval.allocateMachine (← Eval.saturatedOf lineage start stop step)) := by
  ext w
  simp only [buildSaturated, holdsFor_eq_int, pure_bind, Eval.saturatedOf, Saturated.of?]
  by_cases h : step = 0
  · simp [h, Eval.bind_apply, Eval.words_apply, Eval.raise_apply]
  · simp [h, Eval.bind_apply, Eval.map_apply, Eval.words_apply, saturateValue_int_apply,
      Eval.allocateMachine, Saturated.bounds, Except.map]

/-- Integers build the object of their saturated slice, unless the step is zero. -/
theorem buildSaturated_int_apply (c : Callbacks) {lineage : Lineage} {start stop step : Int}
    {s : Saturated} {w : World} (built : Saturated.of? w.words lineage start stop step = some s) :
    buildSaturated c lineage { start := .int start, stop := .int stop, step := .int step } w =
      { outcome := .ok w.fresh, events := []
        world := w.insert (.saturated s.lineage s.bounds) } := by
  rw [buildSaturated_int]
  simp [Eval.saturatedOf, built, Eval.allocateMachine, Eval.bind_apply, Eval.words_apply,
    Eval.pure_apply, Eval.allocate_apply]

end Slicing
