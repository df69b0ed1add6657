import Slicing.Arithmetic
import Slicing.Lexicographic

/-!
# Operators

Comparing two values asks one operand after the other. Each kind of value has a method that knows
how it compares with values of its own kind, and answers `notImplemented` to all others. The left
operand is asked first, then the right one with the comparison turned round; if the kind of the
right operand refines that of the left, the right one goes first. When neither knows, two values
are equal if they are one object, and have no order.

Lists and tuples compare like slices do: the first pair that does not tie decides, except that
its answer is handed on as it is. Two saturated slices are equal if the tuples of their bounds are,
and have no order.
-/

namespace Slicing

/-! ## Sequences of values -/

/--
Whether two elements tie. An object ties with itself and is not asked. Of two objects the operator
for equality is asked, and its answer tested.
-/
def elementsTie (c : Callbacks) (a b : Value) : Eval Bool := do
  if a = b then return true
  let answer ← c.compare .eq a b
  truth c answer

/-- The first pair that does not tie. -/
def firstDifference (c : Callbacks) : List (Value × Value) → Eval (Option (Value × Value))
  | [] => pure none
  | (a, b) :: pairs => do
    if ← elementsTie c a b then firstDifference c pairs
    else return some (a, b)

/-- Elements tie under the very test that fields of slices are put to. -/
theorem elementsTie_eq_identicalOrEqual (c : Callbacks) (a b : Value) :
    elementsTie c a b = identicalOrEqual c a b := rfl

theorem firstDifference_eq_cons (c : Callbacks) (a b : Value) (pairs : List (Value × Value)) :
    firstDifference c ((a, b) :: pairs) = (do
      if ← identicalOrEqual c a b then firstDifference c pairs
      else return some (a, b)) := by
  rw [firstDifference, elementsTie_eq_identicalOrEqual]

/-- The answer of a pair that does not tie. -/
def decideOn (c : Callbacks) (op : Comparison) (a b : Value) : Eval Value :=
  match op with
  | .eq => pure (.bool false)
  | .ne => pure (.bool true)
  | op => c.compare op a b

/-- Compares two tuples by the first pair that does not tie, or else by their lengths. -/
def compareTuples (c : Callbacks) (op : Comparison) (xs ys : List Value) : Eval Value := do
  match ← firstDifference c (xs.zip ys) with
  | some (a, b) => decideOn c op a b
  | none => return .bool (op.holds (compareOfLessAndEq xs.length ys.length))

/-- The pairs in which two lists run side by side, from place `done` on, as long as they are now. -/
def World.pairsFrom (w : World) (a b : Value) (done : Nat) : List (Value × Value) :=
  ((w.listItems a).drop done).zip ((w.listItems b).drop done)

/--
The first pair that does not tie in the lists `a` and `b`, from place `done` on. Comparing two
elements may lengthen the lists, so after each round they are looked up again, until one of them
has nothing left.
-/
def firstListDifference (c : Callbacks) (a b : Value) :
    Nat → Nat → Eval (Option (Value × Value))
  | 0, done => do
    if ((← Eval.world).pairsFrom a b done).isEmpty then return none
    else Eval.exhausted
  | rounds + 1, done => do
    let pairs := (← Eval.world).pairsFrom a b done
    if pairs.isEmpty then return none
    else
      match ← firstDifference c pairs with
      | some pair => return some pair
      | none => firstListDifference c a b rounds (done + pairs.length)

/-- Compares two lists. Lists of different lengths are unequal without looking at an element. -/
def compareLists (c : Callbacks) (op : Comparison) (a b : Value) : Eval Value := do
  let w ← Eval.world
  if !op.isOrder && (w.listItems a).length != (w.listItems b).length then
    return .bool (op.holds .lt)
  else
    match ← firstListDifference c a b (c.patience + 1) 0 with
    | some (x, y) => decideOn c op x y
    | none =>
      let w ← Eval.world
      return .bool (op.holds (compareOfLessAndEq (w.listItems a).length (w.listItems b).length))

/-- Compares two sets, of which one is less than the other if it is a proper part of it. -/
def compareSets (op : Comparison) (xs ys : List Int) : Bool :=
  let below := xs.all ys.contains
  let above := ys.all xs.contains
  match op with
  | .lt => below && !above
  | .le => below
  | .gt => above && !below
  | .ge => above
  | .eq => below && above
  | .ne => !(below && above)

/-! ## Methods -/

/-- The number that a value stands for in a comparison, if it is one. -/
def World.number? (w : World) : Value → Option Number
  | .bool b => some (.ofInt b.toInt)
  | .int n => some (.ofInt n)
  | v => w.float? v

/-- What a value answers that knows only whether it is the other one. -/
def compareIdentity (op : Comparison) (a b : Value) : Value :=
  match op with
  | .eq => if a = b then .bool true else .notImplemented
  | .ne => if a = b then .bool false else .notImplemented
  | _ => .notImplemented

/-- The answer if there is one, or else that the value does not know. -/
def answerOf (b : Option Bool) : Value :=
  (b.map Value.bool).getD .notImplemented

/-- What the immediate value `a` answers to a comparison with `b`. An integer knows no fractions. -/
def compareImmediate (op : Comparison) (a b : Value) : Value :=
  match a, b with
  | .text s, .text t => .bool (op.holds (compareOfLessAndEq s t))
  | .text _, _ => .notImplemented
  | a, b =>
    match a.toInt?, b.toInt? with
    | some m, some n => .bool ((Number.ofInt m).holds op (.ofInt n))
    | some _, none => .notImplemented
    | none, _ => compareIdentity op a b

/-- What the value `a` answers when it is asked how it compares with `b`. -/
def compareMethod (c : Callbacks) (op : Comparison) (a b : Value) : Eval Value := do
  let w ← Eval.world
  match w.cell? a with
  | none => pure (compareImmediate op a b)
  | some cell =>
    match cell, w.cell? b with
    | .scripted s _, _ => do
      Eval.emit (.compared op s.name (w.view b))
      (s.method op).take c
    | .float written, _ =>
      pure (answerOf ((w.number? b).map fun n => (Number.ofText written).holds op n))
    | .slice s, some (.slice t) => return .bool (← s.bounds.compare c op t.bounds)
    | .saturated _ s, some (.saturated _ t) =>
      if op.isOrder then pure .notImplemented else compareTuples c op s.toList t.toList
    | .list _, some (.list _) => compareLists c op a b
    | .set xs, some (.set ys) => pure (.bool (compareSets op xs ys))
    | .range r, some (.range s) =>
      pure (if op.isOrder then .notImplemented else .bool (r.sameElements s == op.onTie))
    | .iterator _ _, _ | .sequence _ _ _, _ | .lock _, _ => pure (compareIdentity op a b)
    | cell, other =>
      match cell.tupleItems?, other.bind Cell.tupleItems? with
      | some xs, some ys => compareTuples c op xs ys
      | _, _ => pure .notImplemented

/-! ## Both operands -/

/-- What the operator comes to when neither operand knows an answer. -/
def compareUnknown (op : Comparison) (a b : Value) : Eval Value :=
  match op with
  | .eq => pure (.bool (a == b))
  | .ne => pure (.bool (a != b))
  | op => do
    let w ← Eval.world
    Eval.raise (.unordered op (w.kind a) (w.kind b))

/-- The answer of the first computation, or that of the second if the first knows none. -/
def orElseAsk (first second : Eval Value) : Eval Value := do
  let answer ← first
  if answer = .notImplemented then second else pure answer

/-- Compares two values: each operand is asked at most once, and the more refined one first. -/
def compareValues (c : Callbacks) (op : Comparison) (a b : Value) : Eval Value := do
  let w ← Eval.world
  let left := compareMethod c op a b
  let right := compareMethod c op.swapped b a
  if (w.kind b).refines (w.kind a) then
    orElseAsk right (orElseAsk left (compareUnknown op a b))
  else
    orElseAsk left (orElseAsk right (compareUnknown op a b))

end Slicing
