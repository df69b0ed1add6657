/-!
# Texts in a row

The texts of the parts of a value stand in a row, with a comma and a space between any two.
-/

namespace Slicing.Text

/-- The texts with a comma and a space between any two. -/
def commaSeparated (texts : List String) : String :=
  ", ".intercalate texts

/-- The text of a truth value. -/
def ofBool (b : Bool) : String :=
  if b then "True" else "False"

end Slicing.Text
