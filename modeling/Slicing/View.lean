import Slicing.World

/-!
# Views

A view is what can be seen of a value at one moment: a tree without addresses. Events and answers
carry views, so what they show stays as it was, whatever happens to the objects later.

Every view has a text. Slices show their uniform triple, so one that was left out shows as null.
-/

namespace Slicing

/-- What can be seen of a value. -/
inductive View where
  | null
  | bool (b : Bool)
  | int (n : Int)
  | float (text : String)
  | text (s : String)
  | absent
  | notImplemented
  | direction (d : Direction)
  | list (items : List View)
  | tuple (items : List View)
  | set (items : List Int)
  /-- The bounds are shown as they are held. -/
  | slice (lineage : Lineage) (start stop step : View)
  | saturated (lineage : Lineage) (start stop step : View)
  | adjusted (range : Range) (step : View) (direction : Direction)
  | range (range : Range)
  | iterator
  | scripted (name : String)
  | sequence (name : String)
  | lock (name : String)
  /-- Something too deep to be seen. -/
  | beyond

namespace View

/-! ## Text -/

/-- The text of a range; a step of one goes without saying. -/
def rangeText (r : Range) : String :=
  let ends := [toString r.start, toString r.stop]
  "range(" ++ Text.commaSeparated (if r.step = 1 then ends else ends ++ [toString r.step]) ++ ")"

/-- The text of a direction, with its name in capitals and as it is written. -/
def directionText (d : Direction) : String :=
  "<Direction." ++ d.name.toUpper ++ ": " ++ Text.quote d.name ++ ">"

/-- The text of a set in increasing order; the empty one is named. -/
def setText (items : List Int) : String :=
  if items.isEmpty then "set()"
  else "\x7b" ++ Text.commaSeparated (items.map toString) ++ "\x7d"

/-- The text of a tuple, given those of its elements. A single one is followed by a comma. -/
def tupleText : List String → String
  | [item] => "(" ++ item ++ ",)"
  | items => "(" ++ Text.commaSeparated items ++ ")"

/-- The text of a bound that may have been left out. -/
def givenText (bound : View) (shown : String) : String :=
  match bound with
  | absent => "None"
  | _ => shown

mutual

/-- The text of a view. -/
def toText : View → String
  | null => "None"
  | bool b => Text.ofBool b
  | int n => toString n
  | float written => written
  | text s => Text.quote s
  | absent => "Absent"
  | notImplemented => "NotImplemented"
  | direction d => directionText d
  | list items => "[" ++ Text.commaSeparated (toTexts items) ++ "]"
  | tuple items => tupleText (toTexts items)
  | set items => setText items
  | slice _ start stop step =>
    "slice(" ++ Text.commaSeparated
      [givenText start (toText start), toText stop, givenText step (toText step)] ++ ")"
  | saturated lineage start stop step =>
    (Kind.saturated lineage).name ++ "(" ++
      Text.commaSeparated [toText start, toText stop, toText step] ++ ")"
  | adjusted r step d =>
    "AdjustedSlice(" ++ Text.commaSeparated
      ["range=" ++ rangeText r, "step=" ++ toText step, "direction=" ++ directionText d] ++ ")"
  | range r => rangeText r
  | iterator => "<range_iterator>"
  | scripted name | sequence name | lock name => "<" ++ name ++ ">"
  | beyond => "..."

/-- The texts of several views. -/
def toTexts : List View → List String
  | [] => []
  | v :: vs => toText v :: toTexts vs

end

/-! ## Parts of a view -/

/-- The bounds that rebuild a slice, from views of the three that it holds. -/
def arguments (start stop step : View) : List View :=
  match start, step with
  | absent, _ => [stop]
  | _, absent => [start, stop]
  | _, _ => [start, stop, step]

/-- What is seen of a bound from outside. -/
def given : View → View
  | absent => null
  | v => v

end View

namespace World

/-- What can be seen of a value down to the given depth. -/
def viewTo (w : World) : Nat → Value → View
  | _, .null => .null
  | _, .bool b => .bool b
  | _, .int n => .int n
  | _, .text s => .text s
  | _, .absent => .absent
  | _, .notImplemented => .notImplemented
  | _, .direction d => .direction d
  | 0, .object _ => .beyond
  | depth + 1, .object a =>
    match w.cells[a]? with
    | none => .beyond
    | some (.float text) => .float text
    | some (.list items) => .list (items.map (viewTo w depth))
    | some (.tuple items) => .tuple (items.map (viewTo w depth))
    | some (.set items) => .set items
    | some (.slice s) =>
      .slice s.lineage (viewTo w depth s.start) (viewTo w depth s.stop) (viewTo w depth s.step)
    | some (.saturated lineage b) =>
      .saturated lineage (viewTo w depth b.start) (viewTo w depth b.stop) (viewTo w depth b.step)
    | some (.adjusted stretch step direction) =>
      match w.cell? stretch with
      | some (.range r) => .adjusted r (viewTo w depth step) direction
      | _ => .beyond
    | some (.range r) => .range r
    | some (.iterator _ _) => .iterator
    | some (.scripted s _) => .scripted s.name
    | some (.sequence name _ _) => .sequence name
    | some (.lock l) => .lock l.name

/--
What can be seen of a value. A way down that meets no object twice passes at most every object
once, so the number of objects is deep enough for all that does not hold itself.
-/
def view (w : World) (v : Value) : View :=
  w.viewTo w.cells.size v

end World

end Slicing
