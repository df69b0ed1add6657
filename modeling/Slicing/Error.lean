import Slicing.Comparison
import Slicing.Kind
import Slicing.Text.Clipped
import Slicing.Text.Listed
import Slicing.Text.Template

/-!
# Errors

An error is the cause of a failure. Its kind and its message are both read off the cause, so an
operation says what went wrong and the wording is in one place. A scripted object raises an error
with a kind and a text of its own.

Most messages name the kind of a value, and clip a name that is longer than they have room for.
-/

namespace Slicing

/-- The kind of an error: what a lock is told when an error passes through it. -/
inductive ErrorKind where
  | invalidArgument
  | typeConversion
  | type
  | value
  | attribute
  | overflow
  | runtime
  | zeroDivision
  | assertion
  | index
  | lookup
  deriving DecidableEq

/-- What went wrong. -/
inductive Error where
  /-- A slice of this kind was built from nothing. -/
  | noArguments (kind : Kind)
  /-- A slice of this kind was built from more than three bounds. -/
  | tooManyArguments (kind : Kind) (count : Nat)
  /-- A constructor of this kind was given something by a name that it does not know. -/
  | namedArgument (kind : Kind) (name : String)
  /-- A constructor of this kind was given by name what is given by place only. -/
  | placeOnly (kind : Kind) (names : List String)
  /-- A saturated slice was built from fewer than three bounds; these are the missing ones. -/
  | missingBounds (names : List String)
  /-- A saturated slice was built from more than three bounds. -/
  | surplusBounds (count : Nat)
  /-- A slice has a step of zero. -/
  | zeroStep
  /-- A sequence is said to have fewer than no elements. -/
  | negativeLength
  /-- A value of this kind stands where an index is needed. -/
  | notAnIndex (kind : Kind)
  /-- The same, with a message of the caller's. -/
  | notConvertible (message : String)
  /-- The same, but the template of the message cannot be filled in. -/
  | badTemplate (fault : Text.TemplateError)
  /-- A value of this kind stands where an integer is needed. -/
  | notAnInteger (kind : Kind)
  /-- An object gave a value of this kind as its index. -/
  | indexNotInteger (kind : Kind)
  /-- An object gave a value of this kind as its truth. -/
  | truthNotBoolean (kind : Kind)
  /-- Neither operand has an answer to a comparison by order. -/
  | unordered (comparison : Comparison) (left right : Kind)
  /-- The operation knows no operands of these kinds. -/
  | operands (operation : String) (left right : Kind)
  /-- The operation knows no operand of this kind. -/
  | operand (operation : String) (kind : Kind)
  /-- An integer is beyond all floating point numbers. -/
  | integerTooLarge
  /-- The value has no length. -/
  | noLength (kind : Kind)
  /-- A sequence reports a length below zero. -/
  | lengthBelowZero
  /-- A sequence reports a length that no index reaches. -/
  | lengthTooLarge
  /-- A range has more elements than can be counted. -/
  | countTooLarge
  /-- A range was to be made of so many integers, and not of one, two or three. -/
  | rangeArguments (count : Nat)
  /-- A range has a step of zero. -/
  | zeroRangeStep
  /-- A value of this kind stands where a lock is needed. -/
  | notALock (kind : Kind)
  /-- The value has no hash. -/
  | unhashable (kind : Kind)
  /-- The field can be read but not assigned. -/
  | noSetter (kind : Kind) (name : String)
  /-- The name belongs to the kind and cannot be assigned. -/
  | readOnly (kind : Kind) (name : String)
  /-- The value has nothing of that name. -/
  | noAttribute (kind : Kind) (name : String)
  /-- The name is that of a part of the value, and such a part cannot be assigned. -/
  | fixedPart
  /-- The name is that of an end or the step of a range. -/
  | fixedMember
  /-- The name is that of a part of a number of this kind. -/
  | notWritable (kind : Kind) (name : String)
  /-- The name is that of a part of a direction. -/
  | fixedChoice (name : String)
  /-- A value of this kind stands where a type is needed. -/
  | notAType (kind : Kind)
  /-- The value with this text names no direction. -/
  | noDirection (text : String)
  /-- A comparison by order was needed. -/
  | notAnOrder
  /-- The value has no elements to go through. -/
  | notIterable (kind : Kind)
  /-- The value has no elements to be taken apart into. -/
  | notSplittable (kind : Kind)
  /-- Only so many elements were there when three were needed. -/
  | tooFewParts (count : Nat)
  /-- More elements were there than the three that were needed. -/
  | tooManyParts
  /-- The value has no elements to pick from. -/
  | noElements (kind : Kind)
  /-- What is called so has fewer elements than that. -/
  | noElement (name : String)
  /-- Nothing is bound to the name. -/
  | unbound (name : String)
  /-- An error that a scripted object raises. -/
  | scripted (kind : ErrorKind) (text : String)
  deriving DecidableEq

namespace Error

/-- The kind of the error when a step of a template leads nowhere. -/
def kindOfStep : Inspection.StepError → ErrorKind
  | .noFeature _ _ | .noFeatureOf _ _ | .unset _ => .attribute
  | .noCharacter | .noItem => .index
  | .keyOfText | .keyOfRow | .noParts _ | .noParameter _ => .type

/-- The kind of the error when a template cannot be filled in. -/
def kindOfTemplate : Text.TemplateError → ErrorKind
  | .noArgument _ => .index
  | .noName _ => .lookup
  | .step e => kindOfStep e
  | .noLayout _ => .type
  | _ => .value

/-- The kind of an error. -/
def kind : Error → ErrorKind
  | noArguments _ | tooManyArguments _ _ | zeroStep | negativeLength => .invalidArgument
  | notAnIndex _ | notConvertible _ => .typeConversion
  | badTemplate fault => kindOfTemplate fault
  | namedArgument _ _ | placeOnly _ _ | missingBounds _ | surplusBounds _ | notAnInteger _
  | indexNotInteger _ | truthNotBoolean _ | unordered _ _ _ | operands _ _ _ | operand _ _
  | noLength _ | rangeArguments _ | notALock _ | unhashable _ | notAType _ | notIterable _
  | notSplittable _ | noElements _ => .type
  | lengthBelowZero | zeroRangeStep | noDirection _ | tooFewParts _ | tooManyParts => .value
  | integerTooLarge | lengthTooLarge | countTooLarge => .overflow
  | noSetter _ _ | readOnly _ _ | noAttribute _ _ | fixedPart | fixedMember | notWritable _ _
  | fixedChoice _ => .attribute
  | notAnOrder => .assertion
  | noElement _ => .index
  | unbound _ => .lookup
  | scripted kind _ => kind

/-- The name between the single quotes that set it off in most messages. -/
def marked (name : String) : String :=
  "'" ++ name ++ "'"

/-- The names as a list in a sentence. -/
def enumerated : List String → String
  | [] => ""
  | [a] => marked a
  | [a, b] => marked a ++ " and " ++ marked b
  | a :: b :: rest => marked a ++ ", " ++ listed b rest
where
  /-- What follows the first of three names or more. -/
  listed (b : String) : List String → String
    | [] => "and " ++ marked b
    | c :: rest => marked b ++ ", " ++ listed c rest

/-- The name of a kind between quotes, clipped to so many bytes. -/
def clipped (limit : Nat) (kind : Kind) : String :=
  marked (Text.clip limit kind.name)

/-- A character in a message: as it is, or by its code point where it is not plainly visible. -/
def shown (c : Char) (last : Nat) : String :=
  if 32 < c.toNat ∧ c.toNat ≤ last then String.singleton c
  else "\\x" ++ String.ofList (Nat.toDigits 16 c.toNat)

/-- The wording when a text cannot be laid out. -/
def layoutMessage : Text.LayoutError → String
  | .tooManyDigits => "Too many decimal digits in format string"
  | .noPrecision => "Format specifier missing precision"
  | .invalid written =>
    "Invalid format specifier " ++ marked written ++ " for object of type 'str'"
  | .bothGroupings => "Cannot specify both ',' and '_'."
  | .groupingWith mark form =>
    "Cannot specify " ++ marked (String.singleton mark) ++ " with " ++ marked (shown form 127) ++
      "."
  | .unknownForm form =>
    "Unknown format code " ++ marked (shown form 127) ++ " for object of type 'str'"
  | .space => "Space not allowed in string format specifier"
  | .sign => "Sign not allowed in string format specifier"
  | .negativeZero => "Negative zero coercion (z) not allowed in string format specifier"
  | .alternate => "Alternate form (#) not allowed in string format specifier"
  | .behindSign => "'=' alignment not allowed in string format specifier"

/-- The wording when a step of a template leads nowhere. -/
def stepMessage : Inspection.StepError → String
  | .noFeature c name => marked c.name ++ " object has no attribute " ++ marked name
  | .noFeatureOf c name =>
    "type object " ++ marked c.name ++ " has no attribute " ++ marked name
  | .unset name => name
  | .noCharacter => "string index out of range"
  | .noItem => "tuple index out of range"
  | .keyOfText => "string indices must be integers, not 'str'"
  | .keyOfRow => "tuple indices must be integers or slices, not str"
  | .noParts c => marked c.name ++ " object is not subscriptable"
  | .noParameter c => "type " ++ marked c.name ++ " is not subscriptable"

/-- The wording when a template cannot be filled in. -/
def templateMessage : Text.TemplateError → String
  | .loneOpen => "Single '\x7b' encountered in format string"
  | .loneClose => "Single '\x7d' encountered in format string"
  | .openInName => "unexpected '\x7b' in field name"
  | .unclosed => "expected '\x7d' before end of string"
  | .noConversion => "end of string while looking for conversion specifier"
  | .noColon => "expected ':' after conversion specifier"
  | .unclosedLayout => "unmatched '\x7b' in format spec"
  | .tooDeep => "Max string recursion exceeded"
  | .tooManyDigits => "Too many decimal digits in format string"
  | .automaticAfterManual =>
    "cannot switch from manual field specification to automatic field numbering"
  | .manualAfterAutomatic =>
    "cannot switch from automatic field numbering to manual field specification"
  | .noArgument index =>
    "Replacement index " ++ toString index ++ " out of range for positional args tuple"
  | .noName name => Text.quote name
  | .behindBracket => "Only '.' or '[' may follow ']' in format field specifier"
  | .emptyStep => "Empty attribute in format string"
  | .unclosedBracket => "Missing ']' in format string"
  | .step e => stepMessage e
  | .unknownConversion c => "Unknown conversion specifier " ++ shown c 126
  | .layout e => layoutMessage e
  | .noLayout c => "unsupported format string passed to " ++ c.name ++ ".__format__"

/-- The wording of an error. -/
def message : Error → String
  | noArguments kind => kind.name ++ "() must have at least one argument"
  | tooManyArguments kind count =>
    kind.name ++ "() takes at most 3 arguments, got " ++ toString count
  | namedArgument kind name =>
    kind.name ++ ".__new__() got an unexpected keyword argument " ++ marked name
  | placeOnly kind names =>
    kind.name ++ ".__new__() got some positional-only arguments passed as keyword arguments: " ++
      marked (Text.commaSeparated names)
  | missingBounds names =>
    "SaturatedSlice.__new__() missing " ++ toString names.length ++ " required positional " ++
      (if names.length = 1 then "argument: " else "arguments: ") ++ enumerated names
  | surplusBounds count =>
    "SaturatedSlice.__new__() takes 4 positional arguments but " ++ toString (count + 1) ++
      " were given"
  | zeroStep => "slice step cannot be zero"
  | negativeLength => "length should not be negative"
  | notAnIndex kind =>
    "slice indices must be integers or None or have an __index__ method, not " ++
      Text.quote kind.name
  | notConvertible message => message
  | badTemplate fault => templateMessage fault
  | notAnInteger kind => clipped 200 kind ++ " object cannot be interpreted as an integer"
  | indexNotInteger kind =>
    "__index__ returned non-int (type " ++ Text.clip 200 kind.name ++ ")"
  | truthNotBoolean kind => "__bool__ should return bool, returned " ++ kind.name
  | unordered comparison left right =>
    marked comparison.symbol ++ " not supported between instances of " ++ clipped 100 left ++
      " and " ++ clipped 100 right
  | operands operation left right =>
    "unsupported operand type(s) for " ++ operation ++ ": " ++ clipped 100 left ++ " and " ++
      clipped 100 right
  | operand operation kind =>
    "bad operand type for " ++ operation ++ ": " ++ clipped 200 kind
  | integerTooLarge => "int too large to convert to float"
  | noLength kind => "object of type " ++ clipped 200 kind ++ " has no len()"
  | lengthBelowZero => "__len__() should return >= 0"
  | lengthTooLarge => "cannot fit 'int' into an index-sized integer"
  | countTooLarge => "Python int too large to convert to C ssize_t"
  | rangeArguments count =>
    if count = 0 then "range expected at least 1 argument, got 0"
    else "range expected at most 3 arguments, got " ++ toString count
  | zeroRangeStep => "range() arg 3 must not be zero"
  | notALock kind => clipped 200 kind ++ " object does not support the context manager protocol"
  | unhashable kind => "unhashable type: " ++ clipped 200 kind
  | noSetter kind name =>
    "property " ++ marked name ++ " of " ++ marked kind.name ++ " object has no setter"
  | readOnly kind name =>
    clipped 50 kind ++ " object attribute " ++ marked name ++ " is read-only"
  | noAttribute kind name => clipped 50 kind ++ " object has no attribute " ++ marked name
  | fixedPart => "can't set attribute"
  | fixedMember => "readonly attribute"
  | notWritable kind name =>
    "attribute " ++ marked name ++ " of " ++ marked kind.name ++ " objects is not writable"
  | fixedChoice name => "<enum 'Enum'> cannot set attribute " ++ marked name
  | notAType kind => "__class__ must be set to a class, not " ++ clipped 200 kind ++ " object"
  | noDirection text => text ++ " is not a valid Direction"
  | notAnOrder => ""
  | notIterable kind => clipped 200 kind ++ " object is not iterable"
  | notSplittable kind =>
    "cannot unpack non-iterable " ++ Text.clip 200 kind.name ++ " object"
  | tooFewParts count =>
    "not enough values to unpack (expected 3, got " ++ toString count ++ ")"
  | tooManyParts => "too many values to unpack (expected 3)"
  | noElements kind => clipped 200 kind ++ " object is not subscriptable"
  | noElement name => name ++ " index out of range"
  | unbound name => Text.quote name
  | scripted _ text => text

end Error

end Slicing
