/-!
# Comparisons

The six comparisons, the symbols they are written with, and how they turn round when their
operands change places.
-/

namespace Slicing

/-- A comparison of two operands. -/
inductive Comparison where
  | lt
  | le
  | gt
  | ge
  | eq
  | ne
  deriving DecidableEq

namespace Comparison

/-- The symbol a comparison is written with. -/
def symbol : Comparison → String
  | lt => "<"
  | le => "<="
  | gt => ">"
  | ge => ">="
  | eq => "=="
  | ne => "!="

/-- The comparison that says the same with the operands in the other order. -/
def swapped : Comparison → Comparison
  | lt => gt
  | le => ge
  | gt => lt
  | ge => le
  | eq => eq
  | ne => ne

/-- Whether the comparison asks for an order, rather than only for equality. -/
def isOrder : Comparison → Bool
  | lt | le | gt | ge => true
  | eq | ne => false

/-- The answer for operands that are equal throughout. -/
def onTie : Comparison → Bool
  | le | ge | eq => true
  | lt | gt | ne => false

/-- The answer for two operands whose order is known. -/
def holds : Comparison → Ordering → Bool
  | lt, o => o == .lt
  | le, o => o != .gt
  | gt, o => o == .gt
  | ge, o => o != .lt
  | eq, o => o == .eq
  | ne, o => o != .eq

@[simp] theorem swapped_swapped (c : Comparison) : c.swapped.swapped = c := by
  cases c <;> rfl

theorem holds_eq (c : Comparison) : c.holds .eq = c.onTie := by
  cases c <;> rfl

theorem holds_swapped (c : Comparison) (o : Ordering) : c.swapped.holds o.swap = c.holds o := by
  cases c <;> cases o <;> rfl

/-! ## Things that have an order -/

section

variable {α : Type} [LT α] [LE α]

/-- What a comparison says of two things that have an order. -/
def Relates (op : Comparison) (x y : α) : Prop :=
  match op with
  | lt => x < y
  | le => x ≤ y
  | gt => y < x
  | ge => y ≤ x
  | eq => x = y
  | ne => x ≠ y

variable [DecidableEq α] [DecidableLT α]

instance [DecidableLE α] (op : Comparison) (x y : α) : Decidable (op.Relates x y) :=
  match op with
  | lt => inferInstanceAs (Decidable (x < y))
  | le => inferInstanceAs (Decidable (x ≤ y))
  | gt => inferInstanceAs (Decidable (y < x))
  | ge => inferInstanceAs (Decidable (y ≤ x))
  | eq => inferInstanceAs (Decidable (x = y))
  | ne => inferInstanceAs (Decidable (x ≠ y))

/-- In a line, the order of two things tells whether a comparison holds of them. -/
theorem holds_compareOfLessAndEq [Std.IsLinearOrder α] [Std.LawfulOrderLT α] (op : Comparison)
    (x y : α) : op.holds (compareOfLessAndEq x y) = true ↔ op.Relates x y := by
  unfold compareOfLessAndEq
  cases op <;> simp only [holds, Relates] <;> grind

end

end Comparison

end Slicing
