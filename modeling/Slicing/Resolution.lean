import Slicing.Indices
import Slicing.Saturation

/-!
# From bounds to positions

A bound is turned into an integer by asking it for its index, exactly once. The step comes first,
because it decides what a missing start or stop stands for; then the start, then the stop. The
first bound that fails ends the matter, and no later one is asked.

The bounds are those of a slice, or of anything else that has fields of their names. A field is
read when its turn comes, and may turn out to be missing.

There are two ways on. Exact indices clamp the integers to a length given beforehand. Resolution
saturates them to the word, leaving a record of each that did not fit, and knows no length yet:
the length is read afterwards, under a lock if there is one, when no bound can call back any more.
-/

namespace Slicing

/-! ## Bounds to integers -/

/-- The error for a value of some kind that has no index; the caller may word it. -/
def indexRefusal (template : Option String) (k : Kind) : Error :=
  match template with
  | none => .notAnIndex k
  | some template =>
    match Text.fill template k.name with
    | .ok message => .notConvertible message
    | .error fault => .badTemplate fault

/-- The index of a value. A value without one is an error that the caller may word. -/
def toIndex (c : Callbacks) (template : Option String) (v : Value) : Eval Int :=
  indexOr c (indexRefusal template) v

/-- The index of a bound, or nothing for `null`, which is not asked. -/
def toIndex? (c : Callbacks) (v : Value) : Eval (Option Int) :=
  if v = .null then pure none
  else return some (← toIndex c none v)

/-- A step as it is walked: one where none is given. Zero is refused. -/
def checkStep : Option Int → Eval Int
  | none => pure 1
  | some step => if step = 0 then Eval.raise .zeroStep else pure step

/-! ## Exact indices -/

/-- The wording for a length without an index. -/
def lengthTemplate : String :=
  "\x7b!r\x7d object cannot be interpreted as an integer"

/-- The exact indices over a sequence of `length` elements, a length that is not negative. -/
def normalise (c : Callbacks) (m : Members) (length : Int) : Eval Indices := do
  let step ← Eval.ofExcept (m .step)
  let step ← checkStep (← toIndex? c step)
  let start ← Eval.ofExcept (m .start)
  let start ← toIndex? c start
  let stop ← Eval.ofExcept (m .stop)
  let stop ← toIndex? c stop
  return Indices.ofBounds start stop step length

/-- The exact indices over a length that is itself a value; it is turned into an integer first. -/
def indices (c : Callbacks) (b : Bounds) (length : Value) : Eval Indices := do
  let n ← toIndex c (some lengthTemplate) length
  if n < 0 then Eval.raise .negativeLength
  else normalise c b.members n

/-! ## Resolution -/

/-- Saturates the integer given in a field, and records it if that changed it. -/
def saturateField (field : Field) (n : Int) : Eval Int := do
  let limit := (← Eval.words).saturate n
  if limit ≠ n then Eval.emit (.saturated field n limit)
  return limit

/-- The saturated integer of a bound, or nothing for `null`. -/
def resolveField (c : Callbacks) (field : Field) (v : Value) : Eval (Option Int) := do
  match ← toIndex? c v with
  | none => return none
  | some n => return some (← saturateField field n)

/-- Turns bounds into machine integers. From here on nothing calls back. -/
def resolve (c : Callbacks) (lineage : Lineage) (m : Members) : Eval Saturated := do
  let step ← Eval.ofExcept (m .step)
  let step ← checkStep (← resolveField c .step step)
  let start ← Eval.ofExcept (m .start)
  let start ← resolveField c .start start
  let start := start.getD (Saturated.defaultStart (← Eval.words) step)
  let stop ← Eval.ofExcept (m .stop)
  let stop ← resolveField c .stop stop
  let stop := stop.getD (Saturated.defaultStop (← Eval.words) step)
  Eval.saturatedOf lineage start stop step

/-! ## Positions -/

/-- The window that a saturated slice selects from a length. -/
def adjust (s : Saturated) (length : Int) : Eval Window := do
  Eval.orRaise .negativeLength (s.adjust? (← Eval.words) length)

/-- The positions of a window in the order in which they are visited. -/
def positions (w : Window) : Eval Range :=
  Eval.orRaise .zeroRangeStep w.positions?

/-- The number of positions, if it can be counted. -/
def count (w : Window) : Eval Nat := do
  countElements (← positions w)

/-- The positions that a resolved slice selects from a sequence as long as it is now. -/
def currentPositions (s : Saturated) (sequence : Value) : Eval Range := do
  positions (← adjust s (← measure sequence))

/-- Runs `x` under a lock; `null` stands for no lock at all. -/
def underLock {α : Type} (lock : Value) (x : Eval α) : Eval (Option α) := do
  if lock = .null then return some (← x)
  else
    let w ← Eval.world
    match w.cell? lock with
    | some (.lock l) => Eval.guarded l x
    | _ => Eval.raise (.notALock (w.kind lock))

/--
The positions of `sequence` that a slice selects. Every bound is asked before the lock is entered.
The length is read under the lock and the bounds are adjusted to it without leaving the lock. A
lock that swallows an error leaves no positions.
-/
def positionsFor (c : Callbacks) (m : Members) (sequence lock : Value) : Eval (Option Range) := do
  let s ← resolve c .base m
  underLock lock (currentPositions s sequence)

end Slicing
