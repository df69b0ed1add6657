import Slicing.Decimal
import Slicing.Text.Listed
import Slicing.Text.Quoted

/-!
# Plain data

Plain data is what can be written down without any objects: nothing, truth values, numbers, texts,
and lists and records of these. A number with a fraction is kept as it is written, and has a text
of its own, which is the shortest that reads back as the same number.
-/

namespace Slicing

/-- Data without objects. -/
inductive Plain where
  | null
  | bool (b : Bool)
  | int (n : Int)
  | float (written : String)
  | text (s : String)
  | list (items : List Plain)
  | record (fields : List (String × Plain))
  deriving Inhabited

namespace Plain

mutual

/-- The text of plain data. -/
def toText : Plain → String
  | null => "None"
  | bool b => Text.ofBool b
  | int n => toString n
  | float written => Number.restate written
  | text s => Text.quote s
  | list items => "[" ++ Text.commaSeparated (toTexts items) ++ "]"
  | record fields => "\x7b" ++ Text.commaSeparated (fieldTexts fields) ++ "\x7d"

/-- The texts of several items. -/
def toTexts : List Plain → List String
  | [] => []
  | item :: items => toText item :: toTexts items

/-- The texts of fields, each with its name in front. -/
def fieldTexts : List (String × Plain) → List String
  | [] => []
  | (name, value) :: fields => (Text.quote name ++ ": " ++ toText value) :: fieldTexts fields

end

/-- The text of data that is one, if it is. -/
def text? : Plain → Option String
  | text s => some s
  | _ => none

end Plain

end Slicing
