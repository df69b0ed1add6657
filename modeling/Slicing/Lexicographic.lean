import Slicing.Callbacks

/-!
# Comparing field by field

Two sequences of fields are compared pair by pair. A pair ties if its two values are one object or
answer that they are equal. The first pair that does not tie decides, and no later pair is drawn,
let alone compared. Fields that tie are never ordered, so fields that know only equality do no harm.

Drawing a pair is a computation of its own, so it shows which pairs were drawn.
-/

namespace Slicing

/-- A pair of fields that is yet to be drawn. -/
abbrev Draw : Type :=
  Eval (Value × Value)

/-- Whether two values are one object or answer that they are equal. -/
def identicalOrEqual (c : Callbacks) (a b : Value) : Eval Bool :=
  if a = b then pure true
  else do truth c (← c.compare .eq a b)

/-- The truth of the comparison of one pair of fields, or nothing if they tie. -/
def compareField (c : Callbacks) (op : Comparison) (a b : Value) : Eval (Option Bool) := do
  if ← identicalOrEqual c a b then return none
  else return some (← truth c (← c.compare op a b))

/-- Whether every pair ties. -/
def sequenceEqual (c : Callbacks) : List Draw → Eval Bool
  | [] => pure true
  | draw :: draws => do
    let (a, b) ← draw
    if ← identicalOrEqual c a b then sequenceEqual c draws
    else pure false

/-- The answer of the first pair that does not tie, or that for a tie throughout. -/
def decideBy (c : Callbacks) (op : Comparison) : List Draw → Eval Bool
  | [] => pure op.onTie
  | draw :: draws => do
    let (a, b) ← draw
    match ← compareField c op a b with
    | some answer => pure answer
    | none => decideBy c op draws

/-- Compares two sequences by order, field by field. -/
def lexicographic (c : Callbacks) (op : Comparison) (draws : List Draw) : Eval Bool :=
  if op.isOrder then decideBy c op draws
  else Eval.raise .notAnOrder

/-- The pairs of bounds of two slices, in the order start, stop, step. -/
def Bounds.pairs (a b : Bounds) : List (Value × Value) :=
  a.toList.zip b.toList

/-- Compares two slices through their uniform triples. Unequal means that some pair does not tie. -/
def Bounds.compare (c : Callbacks) (op : Comparison) (a b : Bounds) : Eval Bool :=
  let draws : List Draw := (a.pairs b).map pure
  match op with
  | .eq => sequenceEqual c draws
  | .ne => do return !(← sequenceEqual c draws)
  | _ => lexicographic c op draws

theorem identicalOrEqual_self (c : Callbacks) (a : Value) : identicalOrEqual c a a = pure true := by
  simp [identicalOrEqual]

theorem lexicographic_of_isOrder {op : Comparison} (h : op.isOrder = true) (c : Callbacks)
    (draws : List Draw) : lexicographic c op draws = decideBy c op draws := by
  simp [lexicographic, h]

end Slicing
