import Slicing.Lineage

/-!
# Kinds of values

Every value has a kind, which is what messages name and what decides whose comparison is tried
first: a kind that refines another comes before it.
-/

namespace Slicing

/-- What a value is. A scripted object is of a kind of its own, with a name of its own. -/
inductive Kind where
  | null
  | bool
  | int
  | float
  | text
  | list
  | tuple
  | set
  | absent
  | notImplemented
  | direction
  | slice (lineage : Lineage)
  | saturated (lineage : Lineage)
  | adjusted
  | range
  /-- An iterator over a range, which may go beyond what the host's words hold. -/
  | iterator (wide : Bool)
  | sequence
  | lock
  | scripted (name : String)
  deriving DecidableEq

namespace Kind

/-- The name of a kind, as messages and descriptions give it. -/
def name : Kind → String
  | null => "NoneType"
  | bool => "bool"
  | int => "int"
  | float => "float"
  | text => "str"
  | list => "list"
  | tuple => "tuple"
  | set => "set"
  | absent => "AbsentType"
  | notImplemented => "NotImplementedType"
  | direction => "Direction"
  | slice .base => "Slice"
  | slice .derived => "SubSlice"
  | saturated .base => "SaturatedSlice"
  | saturated .derived => "SubSaturated"
  | adjusted => "AdjustedSlice"
  | range => "range"
  | iterator false => "range_iterator"
  | iterator true => "longrange_iterator"
  | sequence => "Sequence"
  | lock => "Lock"
  | scripted name => name

/-- Whether `k` is derived from the other kind `l`, and so goes before it in a comparison. -/
def refines : Kind → Kind → Bool
  | slice .derived, slice .base => true
  | saturated .derived, saturated .base => true
  | adjusted, tuple => true
  | bool, int => true
  | _, _ => false

theorem refines_irrefl (k : Kind) : k.refines k = false := by
  cases k with
  | slice l => cases l <;> rfl
  | saturated l => cases l <;> rfl
  | _ => rfl

end Kind

end Slicing
