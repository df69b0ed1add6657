/-!
# Clipped text

Some messages leave room for a name of so many bytes and no more. A longer name is cut there, and
a character that the cut goes through is shown as the replacement character.
-/

namespace Slicing.Text

/-- As much of the text as fits in `limit` bytes. -/
def clipList : Nat → List Char → List Char
  | _, [] => []
  | limit, c :: cs =>
    if c.utf8Size ≤ limit then c :: clipList (limit - c.utf8Size) cs
    else if limit = 0 then []
    else ['\ufffd']

/-- As much of the text as fits in `limit` bytes. -/
def clip (limit : Nat) (s : String) : String :=
  String.ofList (clipList limit s.toList)

end Slicing.Text
