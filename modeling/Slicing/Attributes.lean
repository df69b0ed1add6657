import Slicing.Error

/-!
# Attributes

What becomes of an assignment to an attribute. Values of the types that are known here have no
attributes that can be assigned, and the error says why not: the name is that of a field, it
belongs to the type, or it is unknown. A scripted object, a sequence, a lock and a direction are
open: whatever is assigned to them is of no consequence.

The names that belong to a type are those which every value has and those of its own operations.
-/

namespace Slicing

namespace Attributes

/-- The names that belong to every type. -/
def ofEvery : List String :=
  Inspection.Category.anything.ownNames

/-- The names that belong to integers and truth values. -/
def ofInt : List String :=
  [ "__abs__", "__add__", "__and__", "__bool__", "__ceil__", "__divmod__", "__float__",
    "__floor__", "__floordiv__", "__getnewargs__", "__index__", "__int__", "__invert__",
    "__lshift__", "__mod__", "__mul__", "__neg__", "__or__", "__pos__", "__pow__", "__radd__",
    "__rand__", "__rdivmod__", "__rfloordiv__", "__rlshift__", "__rmod__", "__rmul__", "__ror__",
    "__round__", "__rpow__", "__rrshift__", "__rshift__", "__rsub__", "__rtruediv__", "__rxor__",
    "__sub__", "__truediv__", "__trunc__", "__xor__", "as_integer_ratio", "bit_count",
    "bit_length", "conjugate", "from_bytes", "to_bytes" ]

/-- The names that belong to floating point numbers. -/
def ofFloat : List String :=
  [ "__abs__", "__add__", "__bool__", "__ceil__", "__divmod__", "__float__", "__floor__",
    "__floordiv__", "__getformat__", "__getnewargs__", "__int__", "__mod__", "__mul__", "__neg__",
    "__pos__", "__pow__", "__radd__", "__rdivmod__", "__rfloordiv__", "__rmod__", "__rmul__",
    "__round__", "__rpow__", "__rsub__", "__rtruediv__", "__sub__", "__truediv__", "__trunc__",
    "as_integer_ratio", "conjugate", "fromhex", "hex", "is_integer" ]

/-- The names that belong to texts. -/
def ofText : List String :=
  Inspection.Category.text.ownNames

/-- The names that belong to lists. -/
def ofList : List String :=
  [ "__add__", "__class_getitem__", "__contains__", "__delitem__", "__getitem__", "__iadd__",
    "__imul__", "__iter__", "__len__", "__mul__", "__reversed__", "__rmul__", "__setitem__",
    "append", "clear", "copy", "count", "extend", "index", "insert", "pop", "remove", "reverse",
    "sort" ]

/-- The names that belong to tuples. -/
def ofTuple : List String :=
  Inspection.Category.row.ownNames

/-- The names that belong to sets. -/
def ofSet : List String :=
  [ "__and__", "__class_getitem__", "__contains__", "__iand__", "__ior__", "__isub__", "__iter__",
    "__ixor__", "__len__", "__or__", "__rand__", "__ror__", "__rsub__", "__rxor__", "__sub__",
    "__xor__", "add", "clear", "copy", "difference", "difference_update", "discard",
    "intersection", "intersection_update", "isdisjoint", "issubset", "issuperset", "pop",
    "remove", "symmetric_difference", "symmetric_difference_update", "union", "update" ]

/-- The names that belong to ranges. -/
def ofRange : List String :=
  [ "__bool__", "__contains__", "__getitem__", "__iter__", "__len__", "__reversed__", "count",
    "index" ]

/-- The names that belong to iterators. -/
def ofIterator : List String :=
  [ "__iter__", "__length_hint__", "__next__", "__setstate__" ]

/-- The names that belong to adjusted slices and not to all tuples. -/
def ofAdjusted : List String :=
  [ "__annotations__", "__match_args__", "__module__", "__orig_bases__", "__slots__", "_asdict",
    "_field_defaults", "_fields", "_make", "_replace", "positions" ]

/-- The names that belong to slices. -/
def ofSlice : List String :=
  [ "__annotations__", "__copy__", "__deepcopy__", "__module__", "__slots__", "_Slice__args",
    "_Slice__fields", "indices", "to_saturated" ]

/-- The names that belong to saturated slices. -/
def ofSaturated : List String :=
  [ "__annotations__", "__module__", "__slots__", "adjust_indices", "with_slice" ]

/-- The names that belong to the mark of a bound left out. -/
def ofAbsent : List String :=
  [ "__bool__", "__module__", "__slots__", "_instance" ]

end Attributes

namespace Kind

/-- The names that belong to a kind of value and not to every kind. -/
def attributes : Kind → List String
  | null | notImplemented => ["__bool__"]
  | bool | int => Attributes.ofInt
  | float => Attributes.ofFloat
  | text => Attributes.ofText
  | list => Attributes.ofList
  | tuple => Attributes.ofTuple
  | set => Attributes.ofSet
  | absent => Attributes.ofAbsent
  | slice _ => Attributes.ofSlice
  | saturated _ => Attributes.ofSaturated
  | adjusted => Attributes.ofTuple ++ Attributes.ofAdjusted
  | range => Attributes.ofRange
  | iterator _ => Attributes.ofIterator
  | direction | sequence | lock | scripted _ => []

/-- The error for a field that values of this kind have, if the name is that of one. -/
def fieldError? (k : Kind) (name : String) : Option Error :=
  match k with
  | slice _ | saturated _ =>
    if ["start", "stop", "step"].contains name then some (.noSetter k name) else none
  | adjusted => if ["range", "step", "direction"].contains name then some .fixedPart else none
  | range => if ["start", "stop", "step"].contains name then some .fixedMember else none
  | bool | int =>
    if ["numerator", "denominator", "real", "imag"].contains name then
      some (.notWritable .int name)
    else none
  | float => if ["real", "imag"].contains name then some (.notWritable .float name) else none
  | direction => if ["name", "value"].contains name then some (.fixedChoice name) else none
  | _ => none

/-- Whether a value of this kind takes any attribute that it has no field for. -/
def isOpen : Kind → Bool
  | direction | sequence | lock | scripted _ => true
  | _ => false

/-- Why a value of kind `given` cannot be assigned to an attribute of a value of this kind. -/
def assignError? (k : Kind) (name : String) (given : Kind) : Option Error :=
  if name = "__class__" then some (.notAType given)
  else if let some e := k.fieldError? name then some e
  else if k.isOpen then none
  else if Attributes.ofEvery.contains name || k.attributes.contains name then
    some (.readOnly k name)
  else some (.noAttribute k name)

end Kind

end Slicing
