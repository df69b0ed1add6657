import Slicing.Window

/-!
# Values

A value is either immediate, and then is what it says, or an object, and then is known by the
address under which the world keeps it. So two values are the same object exactly when they are
equal, and what an object holds never takes part in that question.

`absent` marks a bound that was left out. It is kept apart from `null`, which is a bound given as
nothing in particular; both read as `null` from outside.
-/

namespace Slicing

/-- Where the world keeps an object. -/
abbrev Address := Nat

/-- An immediate value, or the address of an object. -/
inductive Value where
  | null
  | bool (b : Bool)
  | int (n : Int)
  | text (s : String)
  | absent
  | notImplemented
  | direction (d : Direction)
  | object (a : Address)
  deriving DecidableEq

namespace Value

/-- The bound as it reads from outside: one that was left out is `null`. -/
def given : Value → Value
  | absent => null
  | v => v

/-- Whether a bound was not left out. -/
def isPresent (v : Value) : Bool :=
  v != absent

/-- The integer or `null` that stands for an optional integer. -/
def ofInt? : Option Int → Value
  | none => null
  | some n => int n

/-- The integer that an immediate value stands for as an index, if it does. -/
def toInt? : Value → Option Int
  | bool b => some b.toInt
  | int n => some n
  | _ => none

theorem given_of_isPresent {v : Value} (h : v.isPresent = true) : v.given = v := by
  cases v <;> first | rfl | simp [isPresent] at h

end Value

end Slicing
