import Slicing.Callbacks
import Slicing.Decimal

/-!
# Arithmetic on values

What the four operations that adjusting needs come to for any value: adding an integer, the
magnitude, the opposite, and how the value compares with an integer. Truth values count as
integers. A floating point number stays one. Every other value knows no arithmetic, but may well
know how it compares.

For integers each operation is what it says and nothing else happens, whatever the callbacks do.
-/

namespace Slicing

/-- The floating point number at an object, if it is one. -/
def World.float? (w : World) (v : Value) : Option Number :=
  match w.cell? v with
  | some (.float written) => some (.ofText written)
  | _ => none

/-- Makes a floating point number. -/
def Eval.allocateNumber (n : Number) : Eval Value :=
  Eval.allocate (.float n.toText)

/-- Adds the integer `n` to a value; `operation` is how a message names what is done. -/
def addInteger (operation : String) (v : Value) (n : Int) : Eval Value :=
  match v.toInt? with
  | some m => pure (.int (m + n))
  | none => do
    let w ← Eval.world
    match w.float? v with
    | some x => do
      let y ← Eval.orRaise .integerTooLarge (Number.ofInt? n)
      Eval.allocateNumber (x.add y)
    | none => Eval.raise (.operands operation (w.kind v) .int)

/--
Does to a value what `onInt` does to an integer and `onNumber` to a floating point number;
`operation` is how a message names what is done.
-/
def applyUnary (operation : String) (onInt : Int → Int) (onNumber : Number → Number) (v : Value) :
    Eval Value :=
  match v.toInt? with
  | some m => pure (.int (onInt m))
  | none => do
    let w ← Eval.world
    match w.float? v with
    | some x => Eval.allocateNumber (onNumber x)
    | none => Eval.raise (.operand operation (w.kind v))

/-- The magnitude of a value. -/
def magnitude : Value → Eval Value :=
  applyUnary "abs()" (fun m => m.natAbs) Number.magnitude

/-- The opposite of a value. -/
def negate : Value → Eval Value :=
  applyUnary "unary -" (fun m => -m) Number.opposite

/-- The order of two integers. -/
def compareInts (m n : Int) : Ordering :=
  compareOfLessAndEq m n

/-- Whether a comparison of a value with the integer `n` holds. -/
def holdsFor (c : Callbacks) (op : Comparison) (v : Value) (n : Int) : Eval Bool :=
  match v.toInt? with
  | some m => pure (op.holds (compareInts m n))
  | none => do truth c (← c.compare op v (.int n))

/-! ## Integers -/

@[simp] theorem addInteger_int (operation : String) (m n : Int) :
    addInteger operation (.int m) n = pure (.int (m + n)) := rfl

@[simp] theorem magnitude_int (m : Int) : magnitude (.int m) = pure (.int m.natAbs) := rfl

@[simp] theorem negate_int (m : Int) : negate (.int m) = pure (.int (-m)) := rfl

/-- Integers answer to a comparison themselves, and nothing is asked. -/
theorem holdsFor_int (c : Callbacks) (op : Comparison) (m n : Int) :
    holdsFor c op (.int m) n = pure (decide (op.Relates m n)) := by
  have answer : op.holds (compareInts m n) = decide (op.Relates m n) := by
    rw [Bool.eq_iff_iff, decide_eq_true_iff]
    exact op.holds_compareOfLessAndEq m n
  exact congrArg pure answer

@[simp] theorem holdsFor_lt_int (c : Callbacks) (m n : Int) :
    holdsFor c .lt (.int m) n = pure (decide (m < n)) :=
  holdsFor_int c .lt m n

@[simp] theorem holdsFor_gt_int (c : Callbacks) (m n : Int) :
    holdsFor c .gt (.int m) n = pure (decide (n < m)) :=
  holdsFor_int c .gt m n

@[simp] theorem holdsFor_le_int (c : Callbacks) (m n : Int) :
    holdsFor c .le (.int m) n = pure (decide (m ≤ n)) :=
  holdsFor_int c .le m n

@[simp] theorem holdsFor_eq_int (c : Callbacks) (m n : Int) :
    holdsFor c .eq (.int m) n = pure (decide (m = n)) :=
  holdsFor_int c .eq m n

end Slicing
