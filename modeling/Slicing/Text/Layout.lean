import Slicing.Text.Digit

/-!
# Layout of text

A layout says how a text is fitted into a line of a message: to how many characters it is cut, to
what width it is filled up, with what, and on which side. It is written as an optional fill and
alignment, marks that only numbers have, a width, marks for grouping, a precision and a form, in
this order. Marks that only numbers have can be written and are refused afterwards, each with an
error of its own, so it is known what was asked for.
-/

namespace Slicing.Text

/-- Why a text cannot be laid out as asked. -/
inductive LayoutError where
  /-- A width or a precision is too great. -/
  | tooManyDigits
  /-- A point is followed by no precision. -/
  | noPrecision
  /-- Something is left over behind the form. -/
  | invalid (written : String)
  /-- Both marks for grouping are there. -/
  | bothGroupings
  /-- The form knows no grouping by this mark. -/
  | groupingWith (mark form : Char)
  /-- The form is not one for texts. -/
  | unknownForm (form : Char)
  /-- A space is asked for in place of a sign. -/
  | space
  /-- A sign is asked for. -/
  | sign
  /-- A negative zero is to lose its sign. -/
  | negativeZero
  /-- The alternate form is asked for. -/
  | alternate
  /-- What fills up is to stand behind the sign. -/
  | behindSign
  deriving DecidableEq

/-- A layout as it is written, with marks that a text cannot follow. -/
structure Layout where
  fill : Char
  /-- The mark of the alignment, if one is written. -/
  align : Option Char
  sign : Option Char
  positiveZero : Bool
  alternate : Bool
  width : Option Nat
  precision : Option Nat
  form : Char

namespace Layout

/-! ## Reading -/

/-- Whether the character is the mark of an alignment. -/
def isAlignment (c : Char) : Bool :=
  c == '<' || c == '>' || c == '=' || c == '^'

/-- The first character, if it passes the test, and what is left then. -/
def readOptional (test : Char → Bool) : List Char → Option Char × List Char
  | [] => (none, [])
  | c :: rest => if test c then (some c, rest) else (none, c :: rest)

/-- A fill and an alignment, an alignment alone, or neither. -/
def readAlignment : List Char → Option Char × Option Char × List Char
  | c :: d :: rest =>
    if isAlignment d then (some c, some d, rest)
    else if isAlignment c then (none, some c, d :: rest)
    else (none, none, c :: d :: rest)
  | cs =>
    let (align, rest) := readOptional isAlignment cs
    (none, align, rest)

/-- A number, or nothing where there is no digit. -/
def readNumber (cs : List Char) : Except LayoutError (Option Nat × List Char) :=
  match DigitRun.read cs with
  | .tooGreat => .error .tooManyDigits
  | .number _ 0 rest => .ok (none, rest)
  | .number n _ rest => .ok (some n, rest)

/-- A mark for grouping, of which there may be one. -/
def readGrouping : List Char → Except LayoutError (Option Char × List Char)
  | ',' :: '_' :: _ | '_' :: ',' :: _ => .error .bothGroupings
  | cs => .ok (readOptional (fun c => c == ',' || c == '_') cs)

/-- A point and a precision. -/
def readPrecision : List Char → Except LayoutError (Option Nat × List Char)
  | '.' :: rest => do
    match ← readNumber rest with
    | (none, _) => .error .noPrecision
    | found => .ok found
  | cs => .ok (none, cs)

/-- Whether numbers of this form are grouped by the mark. -/
def admitsGrouping (mark form : Char) : Bool :=
  "deEfFgG%\x00".toList.contains form || (mark == '_' && "boxX".toList.contains form)

/-- Reads a layout. -/
def read (written : List Char) : Except LayoutError Layout := do
  let (fill, align, cs) := readAlignment written
  let (sign, cs) := readOptional (fun c => c == ' ' || c == '+' || c == '-') cs
  let (positiveZero, cs) := readOptional (· == 'z') cs
  let (alternate, cs) := readOptional (· == '#') cs
  let (padded, cs) := if fill.isSome then (none, cs) else readOptional (· == '0') cs
  let (width, cs) ← readNumber cs
  let (grouping, cs) ← readGrouping cs
  let (precision, cs) ← readPrecision cs
  let form ← match cs with
    | [] => .ok 's'
    | [form] => .ok form
    | _ => .error (.invalid (String.ofList written))
  if let some mark := grouping then
    if !admitsGrouping mark form then throw (.groupingWith mark form)
  return {
    fill := (fill <|> padded).getD ' '
    align
    sign
    positiveZero := positiveZero.isSome
    alternate := alternate.isSome
    width
    precision
    form }

/-! ## Following -/

/-- What a text cannot follow of a layout, if there is anything of that kind. -/
def refused? (l : Layout) : Option LayoutError :=
  if l.form ≠ 's' then some (.unknownForm l.form)
  else if l.sign = some ' ' then some .space
  else if l.sign.isSome then some .sign
  else if l.positiveZero then some .negativeZero
  else if l.alternate then some .alternate
  else if l.align = some '=' then some .behindSign
  else none

/-- How much of `missing` characters of fill stands in front of the text. -/
def inFront (l : Layout) (missing : Nat) : Nat :=
  match l.align with
  | some '>' => missing
  | some '^' => missing / 2
  | _ => 0

/-- The text cut to the precision and filled up to the width. -/
def fit (l : Layout) (cs : List Char) : List Char :=
  let cs := cs.take (l.precision.getD cs.length)
  let missing := l.width.getD 0 - cs.length
  let front := l.inFront missing
  List.replicate front l.fill ++ cs ++ List.replicate (missing - front) l.fill

/-- The text laid out as it is written; nothing written leaves it as it is. -/
def apply (written text : List Char) : Except LayoutError (List Char) := do
  if written.isEmpty then return text
  else
    let l ← read written
    match l.refused? with
    | some e => throw e
    | none => return l.fit text

end Layout

end Slicing.Text
