import Slicing.Inspection.Category
import Slicing.Text.Listed
import Slicing.Text.Quoted

/-!
# Things found by looking into a text

A step leads from a thing to another: by name to one of its features, by a place to one of its
parts. A feature is first sought among the facts about the thing, which every category lists by
name. A step from a category looks for facts about that category first, then for features of its
own things, and last for what categories have in common.

What a function of a category or an operation of a certain thing is called depends on where it is
kept, which differs from run to run. Their texts show the same place always.
-/

namespace Slicing.Inspection

/-- What can be found. -/
inductive Thing where
  | text (cs : List Char)
  | nothing
  | category (c : Category)
  | row (items : List Category)
  /-- A feature that belongs to no certain thing, with the category that has it. -/
  | feature (owner : Category) (name : String) (form : Form)
  /-- A feature that belongs to a certain thing. -/
  | bound (holder : Thing) (owner : Category) (name : String) (form : Form)
  deriving DecidableEq

/-- Why a step leads nowhere. -/
inductive StepError where
  /-- A thing of this category has no such feature. -/
  | noFeature (c : Category) (name : String)
  /-- The category itself has no such feature. -/
  | noFeatureOf (c : Category) (name : String)
  /-- Nothing was ever written under this name. -/
  | unset (name : String)
  /-- A text has no character at that place. -/
  | noCharacter
  /-- A row has no item at that place. -/
  | noItem
  /-- A text has nothing under a key that is no number. -/
  | keyOfText
  /-- A row has nothing under a key that is no number. -/
  | keyOfRow
  /-- A thing of this category has no parts. -/
  | noParts (c : Category)
  /-- The category takes no parameter. -/
  | noParameter (c : Category)
  deriving DecidableEq

namespace Thing

/-- A text as a thing. -/
def ofString (s : String) : Thing :=
  text s.toList

/-- The category that a thing belongs to. -/
def categoryOf : Thing → Category
  | text _ => .text
  | nothing => .nothing
  | category _ => .category
  | row _ => .row
  | feature _ _ .method => .method
  | feature _ _ .slot => .slot
  | feature _ _ .field => .field
  | feature _ _ _ => .operator
  | bound _ _ _ .operator => .boundOperator
  | bound _ _ _ _ => .boundMethod

/-! ## Facts -/

/-- A text if there is one, or else nothing. -/
def ofOption (s : Option String) : Thing :=
  (s.map ofString).getD nothing

/-- The description of a category as a thing. -/
def described (c : Category) : Thing :=
  if c.description.isEmpty then nothing else ofString ("\n".intercalate c.description)

/-- A fact about a category. -/
def factOfCategory (c : Category) : String → Except StepError Thing
  | "__name__" | "__qualname__" => .ok (ofString c.name)
  | "__module__" => .ok (ofString "builtins")
  | "__base__" => .ok ((c.parents.head?.map category).getD nothing)
  | "__bases__" => .ok (row c.parents)
  | "__mro__" => .ok (row c.ancestors)
  | "__text_signature__" => .ok (ofOption c.signature?)
  | "__doc__" =>
    .ok (if c.features.fields.contains "__doc__" && c.description.isEmpty then
      feature c "__doc__" .field else described c)
  | "__abstractmethods__" => .error (.unset "__abstractmethods__")
  | name => .error (.noFeatureOf c name)

/-- The category after which an operation is called that belongs to the thing. -/
def namesake : Thing → Category
  | category c => c
  | t => t.categoryOf

/-- A fact about a thing. Features are not described, so there is nothing to be told of that. -/
def fact (t : Thing) (name : String) : Except StepError Thing :=
  if name = "__class__" then .ok (category t.categoryOf)
  else
    match t, name with
    | category c, name => factOfCategory c name
    | feature _ own _, "__name__" | bound _ _ own _, "__name__" => .ok (ofString own)
    | feature owner _ _, "__objclass__" | bound _ owner _ _, "__objclass__" => .ok (category owner)
    | feature owner own _, "__qualname__" | bound _ owner own .operator, "__qualname__" =>
      .ok (ofString (owner.name ++ "." ++ own))
    | bound holder _ own _, "__qualname__" => .ok (ofString (holder.namesake.name ++ "." ++ own))
    | bound _ _ _ .function, "__self__" => .ok nothing
    | bound holder _ _ _, "__self__" => .ok holder
    | _, _ => .ok nothing

/-! ## Steps -/

/-- A feature of the category that `t` belongs to, as it is had by `t`. -/
def bind (t : Thing) (owner : Category) (name : String) : Form → Except StepError Thing
  | .slot | .field => t.fact name
  | .description => .ok (described owner)
  | .shared => .ok (bound (category t.categoryOf) owner name .shared)
  | .maker => .ok (bound (category owner) owner name .maker)
  | .function => .ok (bound (category owner) owner name .function)
  | form => .ok (bound t owner name form)

/-- A feature of the things of the category `c`, as it is had by `c`. -/
def loose (c owner : Category) (name : String) : Form → Thing
  | .description => described owner
  | .shared => bound (category c) owner name .shared
  | .maker => bound (category owner) owner name .maker
  | .function => bound (category owner) owner name .function
  | form => feature owner name form

/-- The step from a category to a feature. -/
def featureOfCategory (c : Category) (name : String) : Except StepError Thing :=
  match Category.category.find? name, c.find? name with
  | some (owner, .slot), _ => (category c).bind owner name .slot
  | some (owner, .field), _ => (category c).bind owner name .field
  | _, some (owner, form) => .ok (loose c owner name form)
  | some (owner, form), none => (category c).bind owner name form
  | none, none => .error (.noFeatureOf c name)

/-- The step to a feature. -/
def featureNamed (t : Thing) (name : String) : Except StepError Thing :=
  match t with
  | category c => featureOfCategory c name
  | t =>
    match t.categoryOf.find? name with
    | some (owner, form) => t.bind owner name form
    | none => .error (.noFeature t.categoryOf name)

/-- The step to the part at a place, or under a key that is no number. -/
def part (t : Thing) (place : Option Nat) : Except StepError Thing :=
  match t, place with
  | text cs, some i => (cs[i]?.map fun c => text [c]).elim (.error .noCharacter) .ok
  | text _, none => .error .keyOfText
  | row items, some i => (items[i]?.map category).elim (.error .noItem) .ok
  | row _, none => .error .keyOfRow
  | category c, _ => .error (.noParameter c)
  | t, _ => .error (.noParts t.categoryOf)

/-! ## Text -/

/-- The texts of several categories in brackets. A single one is followed by a comma. -/
def rowText (items : List Category) : String :=
  match items with
  | [c] => "(" ++ c.toText ++ ",)"
  | items => "(" ++ Text.commaSeparated (items.map Category.toText) ++ ")"

/-- The text of a feature that belongs to no certain thing. -/
def featureText (owner : Category) (name : String) (form : Form) : String :=
  let sort := match form with
    | .method => "method"
    | .slot => "member"
    | .field => "attribute"
    | _ => "slot wrapper"
  "<" ++ sort ++ " '" ++ name ++ "' of '" ++ owner.name ++ "' objects>"

/-- The text of a feature that belongs to a thing of category `c`. -/
def boundText (c : Category) (name : String) (form : Form) : String :=
  let sort := match form with
    | .operator => "method-wrapper '" ++ name ++ "'"
    | _ => "built-in method " ++ name
  "<" ++ sort ++ " of " ++ c.name ++ " object at 0x7f0000000000>"

/-- The text of a thing. -/
def toText : Thing → String
  | text cs => String.ofList cs
  | nothing => "None"
  | category c => c.toText
  | row items => rowText items
  | feature owner name form => featureText owner name form
  | bound holder _ name form => boundText holder.categoryOf name form

/-- The text of a thing in which a text is set off by quote marks. -/
def toQuoted : Thing → String
  | text cs => Text.quote (String.ofList cs)
  | t => t.toText

end Thing

end Slicing.Inspection
