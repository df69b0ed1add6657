import Slicing.Error
import Slicing.Plain
import Slicing.Word

/-!
# Requests

What can be asked for. A `Term` describes a value that is built anew every time it is read. An
`Operation` is one thing to do with such values, and a `Step` is an operation whose result may be
given a name.

A scripted object is described by its script: what it answers when it is asked for its index, for
its truth, or how it compares. An answer may itself be a step, so terms, scripts, outcomes and
operations are defined together.
-/

namespace Slicing

/-- What a lock does when it is entered and left. -/
structure Lock where
  name : String
  /-- Whether an error that passes through is swallowed. -/
  suppresses : Bool
  enterError : Option Error
  exitError : Option Error

/-- The two ways of copying through the value itself, and the way through its stored form. -/
inductive CopyMode where
  | shallow
  | deep
  | stored
  deriving DecidableEq

/-- New limits for the word; a limit that is not given stays. -/
structure WordUpdate where
  isizeMax : Option Int
  isizeMin : Option Int
  usizeMax : Option Int

/-- The words after an update. -/
def WordUpdate.apply (u : WordUpdate) (w : Words) : Words :=
  { isizeMax := u.isizeMax.getD w.isizeMax
    isizeMin := u.isizeMin.getD w.isizeMin
    usizeMax := u.usizeMax.getD w.usizeMax }

/-- The type that a construction calls. -/
inductive Constructor where
  | slice (lineage : Lineage)
  | saturated (lineage : Lineage)
  deriving DecidableEq

mutual

/-- The description of a value. -/
inductive Term where
  | null
  | bool (b : Bool)
  | int (n : Int)
  | float (text : String)
  | text (s : String)
  | absent
  | list (items : List Term)
  | tuple (items : List Term)
  | set (items : List Int)
  | slice (lineage : Lineage) (arguments : List Term)
  | saturated (lineage : Lineage) (arguments : List Term)
  /-- An adjusted slice made by hand from what a range is made of, a step and a direction. -/
  | adjusted (range : List Int) (step : Term) (direction : Plain)
  /-- The value bound to a name. -/
  | named (name : String)
  | scripted (script : Script)
  /-- A sequence that reports its length, or raises an error instead. -/
  | sequence (name : String) (length : Int) (error : Option Error)
  | lock (lock : Lock)

/-- What a scripted object answers when it is called. -/
inductive Script where
  /--
  `index` is there if the object has an index: its answers to the first call, the second and so
  on, the last of which repeats. Each such call adds to the length of the sequence named in
  `grows`. `methods` are its answers to comparisons, `truth` its answer when tested.
  -/
  | mk (name kind : String) (index : Option (List Outcome)) (grows : Option (String × Int))
    (methods : List (Comparison × Outcome)) (truth : Option Outcome)

/-- One answer of a scripted object. -/
inductive Outcome where
  | raises (error : Error)
  | notImplemented
  /-- Perform a step and answer with its result, or with the element at a place of it. -/
  | performs (step : Step) (pick : Option Nat)
  | gives (term : Term)

/-- An operation and the name that its result is given, if any. -/
inductive Step where
  | mk (operation : Operation) (name : Option String)

/-- One thing to do. -/
inductive Operation where
  /-- Build a slice, with some bounds perhaps given by name, and describe it. -/
  | construct (type : Constructor) (arguments : List Term) (named : List (String × Term))
  | describe (value : Term)
  /-- Initialise a value that has been built already, and describe it. -/
  | reinitialise (value : Term) (arguments : List Term)
  | assign (value : Term) (name : String) (given : Term)
  | copy (mode : CopyMode) (value : Term)
  | absentFacts
  | bound (value : Term)
  | words
  | setWords (update : WordUpdate)
  | direction (value : Plain)
  | hasIndex (value : Term)
  | toIndex (value : Term) (template : Option String)
  | toIndexOrNull (value : Term)
  | indices (slice length : Term)
  | normalise (slice : Term) (length : Int)
  | resolve (slice : Term) (lineage : Lineage)
  /-- The same through the slice itself. -/
  | saturate (slice : Term)
  | adjust (saturated : Term) (length : Int)
  | saturateIndex (p length : Int)
  | positions (adjusted : Term)
  /-- The same through the adjusted slice itself. -/
  | ownPositions (adjusted : Term)
  | count (adjusted : Term)
  | iterate (adjusted : Term)
  | next (iterator : Term) (take : Nat)
  | select (slice : Term) (length : Int)
  | positionsFor (slice sequence lock : Term)
  | compare (comparison : Comparison) (a b : Term)
  | compareAll (a b : Term)
  /-- Ask the left operand alone. -/
  | compareMethod (comparison : Comparison) (a b : Term)
  | identicalOrEqual (a b : Term)
  | compareField (comparison : Comparison) (a b : Term)
  | sequenceEqual (pairs : List (Term × Term))
  | lexicographic (comparison : Comparison) (pairs : List (Term × Term))
  | hash (value : Term)
  | hashEqual (a b : Term)
  | same (a b : Term)
  | push (list item : Term)

end

namespace Script

/-- The name under which a scripted object appears in answers. -/
def name : Script → String
  | mk name _ _ _ _ _ => name

/-- The kind of a scripted object. -/
def kind : Script → Kind
  | mk _ kind _ _ _ _ => .scripted kind

/-- The answers to calls for an index, if the object has one. -/
def index : Script → Option (List Outcome)
  | mk _ _ index _ _ _ => index

/-- The sequence that each call for an index lengthens, and by how much. -/
def grows : Script → Option (String × Int)
  | mk _ _ _ grows _ _ => grows

/-- The answer to being tested, if it is not simply true. -/
def truth : Script → Option Outcome
  | mk _ _ _ _ _ truth => truth

/-- The answer to a comparison; an object that knows none leaves it to the other operand. -/
def method (c : Comparison) : Script → Outcome
  | mk _ _ _ _ methods _ => (methods.lookup c).getD .notImplemented

/-- The answer to the call for an index that follows `calls` others. -/
def outcome (calls : Nat) (s : Script) : Outcome :=
  let outcomes := s.index.getD []
  (outcomes[calls]? <|> outcomes.getLast?).getD (.gives .null)

end Script

end Slicing
