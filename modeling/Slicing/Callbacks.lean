import Slicing.Number
import Slicing.Report

/-!
# Calling scripted objects

A scripted object answers calls from its script, and an answer may be to perform a whole operation
first. What it means to perform one is not known here: it is handed in as `Callbacks`, together
with what it means to compare two values and to read a term, which may come back to scripted
objects again. Later the knot is tied by depth. Until then everything holds whatever the callbacks
do.
-/

namespace Slicing

/-- What a computation may call back into. -/
structure Callbacks where
  /-- The answer of a comparison, which need not be a truth value. -/
  compare : Comparison → Value → Value → Eval Value
  perform : Step → Eval Result
  /-- Makes the value that a term describes. -/
  read : Term → Eval Value
  /-- How many times a list may grow under a walk along it before the walk is given up. -/
  patience : Nat

/-- The element at place `i` of a value, or the value itself if no place is asked for. -/
def pickFrom (v : Value) : Option Nat → Eval Value
  | none => pure v
  | some i => do
    let w ← Eval.world
    match v, w.cell? v with
    | .text s, _ =>
      Eval.orRaise (.noElement "string") (s.toList[i]?.map fun c => .text (String.singleton c))
    | _, some (.list items) => Eval.orRaise (.noElement "list") items[i]?
    | _, some (.range r) =>
      Eval.orRaise (.noElement "range object") (if i < r.size then some (.int (r.nth i)) else none)
    | v, cell =>
      match cell.bind Cell.tupleItems? with
      | some items => Eval.orRaise (.noElement "tuple") items[i]?
      | none => Eval.raise (.noElements (w.kind v))

/-- Takes an outcome: what a scripted object answers. -/
def Outcome.take (c : Callbacks) : Outcome → Eval Value
  | raises e => Eval.raise e
  | notImplemented => pure .notImplemented
  | gives term => c.read term
  | performs step place => do
    match ← c.perform step with
    | .value v => pickFrom v place
    | .report _ => if place.isNone then pure .null else Eval.raise (.noElements .null)

/-! ## Index -/

/-- Whether a value has an index. -/
def World.hasIndex (w : World) (v : Value) : Bool :=
  match w.cell? v with
  | some (.scripted s _) => s.index.isSome
  | _ => v.toInt?.isSome

/-- Lengthens the sequence bound to a name. -/
def lengthen (name : String) (amount : Int) : Eval Unit := do
  let w ← Eval.world
  match w.lookup? name with
  | some (.object a) =>
    match w.cells[a]? with
    | some (.sequence n length error) => Eval.store a (.sequence n (length + amount) error)
    | _ => pure ()
  | _ => pure ()

/-- Asks the scripted object at `a` for its index, once. -/
def callIndex (c : Callbacks) (a : Address) (s : Script) (calls : Nat) : Eval Int := do
  Eval.emit (.indexed s.name (← Eval.world).isLocked)
  Eval.store a (.scripted s (calls + 1))
  match s.grows with
  | some (name, amount) => lengthen name amount
  | none => pure ()
  let answer ← (s.outcome calls).take c
  Eval.orRaise (.indexNotInteger ((← Eval.world).kind answer)) answer.toInt?

/-- The index of a value, or else the error for a value of its kind. -/
def indexOr (c : Callbacks) (refused : Kind → Error) (v : Value) : Eval Int := do
  let w ← Eval.world
  match v, w.cell? v with
  | .object a, some (.scripted s calls) =>
    if s.index.isSome then callIndex c a s calls
    else Eval.raise (refused (w.kind v))
  | v, _ => Eval.orRaise (refused (w.kind v)) v.toInt?

theorem indexOr_int (c : Callbacks) (refused : Kind → Error) (n : Int) :
    indexOr c refused (.int n) = pure n := by
  ext w
  rfl

/-! ## Length -/

/-- The length that a sequence reports, if an index can reach it. -/
def checkLength (n : Int) : Eval Int :=
  if n < 0 then Eval.raise .lengthBelowZero
  else if Words.host.isizeMax < n then Eval.raise .lengthTooLarge
  else pure n

/-- The number of elements of a range, if it can be counted. -/
def countElements (r : Range) : Eval Nat :=
  if Words.host.isizeMax < r.size then Eval.raise .countTooLarge
  else pure r.size

/-- The length of a value. -/
def measure (v : Value) : Eval Int := do
  let w ← Eval.world
  match v with
  | .text s => pure s.length
  | _ =>
    match w.cell? v with
    | some (.list items) => pure items.length
    | some (.tuple items) => pure items.length
    | some (.set items) => pure items.length
    | some (.adjusted _ _ _) => pure 3
    | some (.range r) => countElements r
    | some (.sequence name length error) =>
      Eval.emit (.measured name w.isLocked)
      match error with
      | some e => Eval.raise e
      | none => checkLength length
    | _ => Eval.raise (.noLength (w.kind v))

/-! ## Truth -/

/-- Tests a scripted object. -/
def callTruth (c : Callbacks) (s : Script) : Eval Bool := do
  Eval.emit (.tested s.name)
  match s.truth with
  | none => pure true
  | some outcome =>
    match ← outcome.take c with
    | .bool b => pure b
    | answer => do Eval.raise (.truthNotBoolean ((← Eval.world).kind answer))

/-- Whether a value passes for true: zero, the empty and the missing do not. -/
def truth (c : Callbacks) (v : Value) : Eval Bool := do
  match v with
  | .null | .absent => pure false
  | .bool b => pure b
  | .int n => pure (n != 0)
  | .text s => pure (s != "")
  | .notImplemented | .direction _ => pure true
  | .object _ =>
    match (← Eval.world).cell? v with
    | some (.float written) => pure (Number.ofText written != .finite 0)
    | some (.list items) => pure (!items.isEmpty)
    | some (.tuple items) => pure (!items.isEmpty)
    | some (.set items) => pure (!items.isEmpty)
    | some (.range r) => pure (r.size != 0)
    | some (.sequence _ _ _) => return (← measure v) != 0
    | some (.scripted s _) => callTruth c s
    | _ => pure true

end Slicing
