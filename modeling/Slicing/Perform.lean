import Slicing.Adjustment
import Slicing.Attributes
import Slicing.Clone
import Slicing.Description
import Slicing.Hashing

/-!
# Performing operations

An operation first reads its terms, in the order in which they stand, and then does its work. Only
where the first of two terms is asked for something on its own, such as a method or its hash, the
second is read after that. What an operation gives is a value or a report. Whatever it calls back
into is handed in.
-/

namespace Slicing

/-! ## Operands of the right kind -/

/-- What `find` sees in an object, or else the error for an object without that attribute. -/
def expect {α : Type} (find : Cell → Option α) (name : String) (v : Value) : Eval α := do
  let w ← Eval.world
  Eval.orRaise (.noAttribute (w.kind v) name) ((w.cell? v).bind find)

/-- The slice at an object. -/
def expectSlice : Value → Eval Slice :=
  expect (fun | .slice s => some s | _ => none) "indices"

/-- The bounds of a saturated slice. -/
def expectSaturated : Value → Eval Bounds :=
  expect (fun | .saturated _ b => some b | _ => none) "adjust_indices"

/-- The value itself, if it is an adjusted slice. -/
def expectAdjusted (v : Value) : Eval Value :=
  expect (fun | .adjusted _ _ _ => some v | _ => none) "positions" v

/-- The elements of a list. -/
def expectList : Value → Eval (List Value) :=
  expect (fun | .list items => some items | _ => none) "append"

/-- The fields of a value as they are now. -/
def membersOf (v : Value) : Eval Members := do
  return (← Eval.world).members v

/-! ## Results -/

/-- Makes an object and gives it as the result. -/
def Eval.object (cell : Cell) : Eval Result := do
  return .value (← Eval.allocate cell)

/-- Gives a tuple of the three indices. -/
def Indices.result (i : Indices) : Eval Result :=
  Eval.object (.tuple [.int i.start, .int i.stop, .int i.step])

/-- Gives a truth value. -/
def Result.ofBool (b : Bool) : Result :=
  .value (.bool b)

/-- Gives the object of a saturated slice. -/
def Saturated.result (s : Saturated) : Eval Result := do
  return .value (← Eval.allocateMachine s)

/-! ## Longer operations -/

/-- The error for bounds that are given by name. No constructor takes any. -/
def Constructor.refuse (k : Constructor) (names : List String) : Option Error :=
  let (kind, places) := match k with
    | .slice _ => (Kind.slice .base, ["cls"])
    | .saturated _ => (Kind.saturated .base, ["cls", "start", "stop", "step"])
  match names, places.filter names.contains with
  | [], _ => none
  | name :: _, [] => some (.namedArgument kind name)
  | _, placed => some (.placeOnly kind placed)

/-- Builds a slice of some type from its bounds. -/
def Constructor.build (c : Callbacks) (k : Constructor) (arguments : List Value) : Eval Value :=
  match k with
  | .slice lineage => Eval.allocateSlice lineage arguments
  | .saturated lineage => allocateSaturated c lineage arguments

/-- The facts about the mark of a bound left out, each found by doing what it is about. -/
def absentReport (c : Callbacks) : Eval AbsentReport := do
  let truth ← truth c .absent
  let same ← [CopyMode.shallow, .deep, .stored].mapM fun mode => do
    return (mode, (← copy c mode .absent) == .absent)
  return { text := (← Eval.view .absent).toText, truth, kind := (← Eval.world).kind .absent, same }

/-- Selects from a length by way of a window and exactly, and gives both. -/
def select (c : Callbacks) (slice : Value) (length : Int) : Eval Selection := do
  let window ← adjust (← resolve c .base (← membersOf slice)) length
  let exact ← indices c (← expectSlice slice).bounds (.int length)
  let exactPositions ← Eval.orRaise .zeroRangeStep exact.positions?
  let adjusted ← Eval.allocateAdjusted window.adjusted
  return {
    exact
    exactPositions
    adjusted := ← Eval.view adjusted
    positions := ← positions window
    count := ← count window }

/-- Draws up to `take` further elements of a value. -/
def drawNext (v : Value) (take : Nat) : Eval (List Value) := do
  match ← takeElements take v with
  | some items => return items
  | none => do Eval.raise (.notIterable ((← Eval.world).kind v))

/-- Appends an item to a list, as long as it is by now. -/
def push (list item : Value) : Eval Unit := do
  match list with
  | .object a => do Eval.store a (.list ((← expectList list) ++ [item]))
  | v => do
    let _ ← expectList v

/-- Runs all six comparisons, one after the other; an error in one does not stop the next. -/
def compareAll (c : Callbacks) (a b : Value) : Eval (List (Comparison × Answer View)) :=
  [Comparison.lt, .le, .gt, .ge, .eq, .ne].mapM fun op => do
    return (op, ← Eval.capture do Eval.view (← c.compare op a b))

/-- Pairs of values, each of which shows when it is drawn. -/
def drawsOf (pairs : List (Value × Value)) : List Draw :=
  pairs.zipIdx.map fun (pair, i) => do
    Eval.emit (.drawn i)
    return pair

/-- Makes the pairs that pairs of terms describe. -/
def readPairs (c : Callbacks) : List (Term × Term) → Eval (List (Value × Value))
  | [] => pure []
  | (s, t) :: rest => do
    let a ← s.read c
    let b ← t.read c
    return (a, b) :: (← readPairs c rest)

/-! ## All operations -/

/-- Performs an operation. -/
def Operation.perform (c : Callbacks) : Operation → Eval Result
  | construct type arguments named => do
    let arguments ← Term.readAll c arguments
    let _ ← Term.readAll c (named.map Prod.snd)
    match type.refuse (named.map Prod.fst) with
    | some e => Eval.raise e
    | none => return .report (.description (← Slicing.describe (← type.build c arguments)))
  | describe value => do
    return .report (.description (← Slicing.describe (← value.read c)))
  | reinitialise value arguments => do
    let value ← value.read c
    let _ ← Term.readAll c arguments
    return .report (.description (← Slicing.describe value))
  | assign value name given => do
    let value ← value.read c
    let given ← given.read c
    let w ← Eval.world
    match (w.kind value).assignError? name (w.kind given) with
    | some e => Eval.raise e
    | none => return .value .null
  | copy mode value => do
    return .report (.copied (← copyReport c mode (← value.read c)))
  | absentFacts => do
    return .report (.absent (← absentReport c))
  | bound value => do
    let value ← value.read c
    return .report (.bound value.isPresent (← Eval.view value.given))
  | words => return .report (.words .host)
  | setWords update => do
    Eval.setWords (update.apply (← Eval.words))
    return .value .null
  | direction value => do
    return .value (.direction (← Eval.ofExcept value.direction))
  | hasIndex value => do
    let value ← value.read c
    return .ofBool ((← Eval.world).hasIndex value)
  | toIndex value template => do
    return .value (.int (← Slicing.toIndex c template (← value.read c)))
  | toIndexOrNull value => do
    return .value (.ofInt? (← toIndex? c (← value.read c)))
  | indices slice length => do
    let slice ← expectSlice (← slice.read c)
    let length ← length.read c
    (← Slicing.indices c slice.bounds length).result
  | normalise slice length => do
    (← Slicing.normalise c (← membersOf (← slice.read c)) length).result
  | resolve slice lineage => do
    (← Slicing.resolve c lineage (← membersOf (← slice.read c))).result
  | saturate slice => do
    let s ← expect (fun | .slice s => some s | _ => none) "to_saturated" (← slice.read c)
    (← Slicing.resolve c .base s.bounds.members).result
  | adjust saturated length => do
    let adjusted ← adjustBounds c (← expectSaturated (← saturated.read c)) length
    return .value (← Eval.allocateAdjusted adjusted)
  | saturateIndex p length => do
    return .value (.int ((← Eval.words).saturateIndex p length))
  | positions adjusted => do
    Eval.object (.range (← positionsOf c (← adjusted.read c)))
  | ownPositions adjusted => do
    Eval.object (.range (← positionsOf c (← expectAdjusted (← adjusted.read c))))
  | count adjusted => do
    return .value (.int (← countOf c (← adjusted.read c)))
  | iterate adjusted => do
    Eval.object (.iterator (← positionsOf c (← adjusted.read c)) 0)
  | next iterator take => do
    Eval.object (.list (← drawNext (← iterator.read c) take))
  | select slice length => do
    return .report (.selection (← Slicing.select c (← slice.read c) length))
  | positionsFor slice sequence lock => do
    let slice ← slice.read c
    let sequence ← sequence.read c
    let lock ← lock.read c
    match ← Slicing.positionsFor c (← membersOf slice) sequence lock with
    | some r => Eval.object (.range r)
    | none => return .value .null
  | compare op a b => do
    let a ← a.read c
    let b ← b.read c
    return .value (← c.compare op a b)
  | compareAll a b => do
    let a ← a.read c
    let b ← b.read c
    return .report (.comparisons (← Slicing.compareAll c a b))
  | compareMethod op a b => do
    let a ← a.read c
    let b ← b.read c
    return .value (← Slicing.compareMethod c op a b)
  | identicalOrEqual a b => do
    let a ← a.read c
    let b ← b.read c
    return .ofBool (← Slicing.identicalOrEqual c a b)
  | compareField op a b => do
    let a ← a.read c
    let b ← b.read c
    match ← Slicing.compareField c op a b with
    | some answer => return .ofBool answer
    | none => return .value .null
  | sequenceEqual pairs => do
    return .ofBool (← Slicing.sequenceEqual c (drawsOf (← readPairs c pairs)))
  | lexicographic op pairs => do
    return .ofBool (← Slicing.lexicographic c op (drawsOf (← readPairs c pairs)))
  | hash value => do
    let _ ← hashKey (← value.read c)
    return .value (.text "hashable")
  | hashEqual a b => do
    let key ← hashKey (← a.read c)
    return .ofBool (key.beq (← hashKey (← b.read c)))
  | same a b => do
    let a ← a.read c
    let b ← b.read c
    return .ofBool (a == b)
  | push list item => do
    let list ← list.read c
    let _ ← expectList list
    let item ← item.read c
    Slicing.push list item
    return .value list

/-- Performs the operation of a step and gives the result its name. A report takes no name. -/
def Step.perform (c : Callbacks) : Step → Eval Result
  | mk operation name => do
    let result ← operation.perform c
    match name, result.value? with
    | some name, some v => Eval.bindName name v
    | _, _ => pure ()
    return result

end Slicing
