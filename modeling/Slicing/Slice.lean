import Slicing.Error
import Slicing.Value

/-!
# Slices

A slice holds three bounds exactly as they were given. The stop is always there; a start or a step
that was left out is held as `absent`.

The list of bounds that rebuilds a slice is as short as it can be: a slice without a start has
only a stop, and one without a step has a start and a stop. Reading from outside goes through the
uniform triple, in which an absent start or step is `null`.
-/

namespace Slicing

/-- The three places of a slice. -/
inductive Field where
  | start
  | stop
  | step
  deriving DecidableEq

/-- The name of a field. -/
def Field.name : Field → String
  | .start => "start"
  | .stop => "stop"
  | .step => "step"

/-- The uniform triple of a slice: what its bounds are when read from outside. -/
structure Bounds where
  start : Value
  stop : Value
  step : Value
  deriving DecidableEq

/-- The bounds in the order in which they are written. -/
def Bounds.toList (b : Bounds) : List Value :=
  [b.start, b.stop, b.step]

/-- The bound in a field. -/
def Bounds.get (b : Bounds) : Field → Value
  | .start => b.start
  | .stop => b.stop
  | .step => b.step

/-- What reading each of the three fields of a value gives. Not every value has all of them. -/
abbrev Members : Type :=
  Field → Except Error Value

/-- Reading the fields of a uniform triple never fails. -/
def Bounds.members (b : Bounds) : Members := fun field =>
  .ok (b.get field)

@[simp] theorem Bounds.members_apply (b : Bounds) (field : Field) :
    b.members field = .ok (b.get field) := rfl

/-- A start, a stop and a step, held as given. -/
structure Slice where
  lineage : Lineage
  start : Value
  stop : Value
  step : Value
  deriving DecidableEq

namespace Slice

/-- The kind of a slice. -/
def kind (s : Slice) : Kind :=
  .slice s.lineage

/-- The slice that one, two or three bounds build. A bound alone is the stop. -/
def ofArguments (lineage : Lineage) : List Value → Except Error Slice
  | [] => .error (.noArguments (.slice lineage))
  | [stop] => .ok { lineage, start := .absent, stop, step := .absent }
  | [start, stop] => .ok { lineage, start, stop, step := .absent }
  | [start, stop, step] => .ok { lineage, start, stop, step }
  | bounds => .error (.tooManyArguments (.slice lineage) bounds.length)

/-- The bounds that rebuild the slice. -/
def arguments (s : Slice) : List Value :=
  if !s.start.isPresent then [s.stop]
  else if !s.step.isPresent then [s.start, s.stop]
  else [s.start, s.stop, s.step]

/-- The uniform triple. -/
def bounds (s : Slice) : Bounds :=
  { start := s.start.given, stop := s.stop, step := s.step.given }

/-- The bound held in a field. -/
def held (s : Slice) : Field → Value
  | .start => s.start
  | .stop => s.stop
  | .step => s.step

/-- A slice whose start is there, or whose step is left out with it, is rebuilt as it was. -/
theorem ofArguments_arguments {s : Slice} (h : s.start.isPresent = true ∨ s.step = .absent) :
    ofArguments s.lineage s.arguments = .ok s := by
  obtain ⟨lineage, start, stop, step⟩ := s
  unfold arguments
  grind [ofArguments, Value.isPresent]

end Slice

end Slicing
