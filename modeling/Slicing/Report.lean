import Slicing.Eval
import Slicing.Indices

/-!
# Reports

What operations answer when the answer is more than a value: descriptions, accounts of a copy,
selections. Reports hold views, so they can be handed out as they are.
-/

namespace Slicing

/-- All that a slice shows of itself, or another value with the same three fields. -/
structure Description where
  kind : Kind
  /-- How it is written. -/
  text : String
  start : View
  stop : View
  step : View
  /-- The bounds that rebuild it. -/
  arguments : List View
  /-- Which of the three bounds of a slice were not left out; nothing else leaves any out. -/
  present : Option (List Bool)

/-- How the bounds of a deep copy lie to those of the slice and to each other. -/
structure Sharing where
  /-- For each bound that is a container, whether the copy holds another object. -/
  fresh : List (Field × Bool)
  /-- The pairs of fields of the copy that hold one and the same container. -/
  shared : List (Field × Field)

/-- An account of a copy. -/
structure CopyReport where
  /-- Whether the copy is the very object. -/
  same : Bool
  equal : Bool
  kind : Kind
  copy : View
  sharing : Option Sharing

/-- What there is to know about the mark of a bound left out. -/
structure AbsentReport where
  text : String
  truth : Bool
  kind : Kind
  /-- For each way of copying it, whether the copy is the very same. -/
  same : List (CopyMode × Bool)

/-- What a slice selects from a length, exactly and by way of a window. -/
structure Selection where
  exact : Indices
  exactPositions : Range
  adjusted : View
  positions : Range
  count : Nat

/-- What an operation answers. -/
inductive Report where
  | value (v : View)
  | description (d : Description)
  | copied (c : CopyReport)
  | absent (a : AbsentReport)
  | bound (present : Bool) (value : View)
  | words (w : Words)
  | selection (s : Selection)
  | comparisons (answers : List (Comparison × Answer View))

/-- The result of an operation: a value that can be used further, or a report. -/
inductive Result where
  | value (v : Value)
  | report (r : Report)

/-- The value of a result; a report is no value. -/
def Result.value? : Result → Option Value
  | value v => some v
  | report _ => none

/-- What can be seen of a result. -/
def Result.toReport : Result → Eval Report
  | value v => do return .value (← Eval.view v)
  | report r => pure r

end Slicing
