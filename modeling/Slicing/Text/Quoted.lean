import Slicing.Text.Unprintable

/-!
# Quoted text

Text is shown between quote marks so that it can be told apart from a name or a number. The mark
is a single quote, unless the text holds single quotes and no double ones. The mark, the backslash
and every unprintable character are escaped, so the quoted form is one line of visible text. It
can be narrowed further by escaping everything beyond the first 128 characters.
-/

namespace Slicing.Text

/-- The number `n` in lower case hexadecimal, in exactly `width` digits. -/
def hexadecimal (width n : Nat) : List Char :=
  (List.range width).reverse.map fun i => Nat.digitChar (n / Nat.pow 16 i % 16)

/-- The code point of `c` as an escape of two, four or eight digits, whichever first holds it. -/
def escapeCodePoint (c : Char) : List Char :=
  if c.toNat ≤ 0xff then '\\' :: 'x' :: hexadecimal 2 c.toNat
  else if c.toNat ≤ 0xffff then '\\' :: 'u' :: hexadecimal 4 c.toNat
  else '\\' :: 'U' :: hexadecimal 8 c.toNat

/-- The character `c` as it stands between two quote marks `mark`. -/
def escape (mark c : Char) : List Char :=
  if c = '\\' ∨ c = mark then ['\\', c]
  else if c = '\n' then ['\\', 'n']
  else if c = '\r' then ['\\', 'r']
  else if c = '\t' then ['\\', 't']
  else if isUnprintable c then escapeCodePoint c
  else [c]

/-- The mark that quotes `cs`: double only where that saves escaping a single one. -/
def quoteMark (cs : List Char) : Char :=
  if cs.contains '\x27' && !cs.contains '\x22' then '\x22' else '\x27'

/-- The text between quote marks, with whatever could not stand there escaped. -/
def quote (s : String) : String :=
  let mark := quoteMark s.toList
  String.ofList (mark :: s.toList.flatMap (escape mark) ++ [mark])

/-- The text with every character beyond the first 128 escaped. -/
def narrow (s : String) : String :=
  String.ofList (s.toList.flatMap fun c => if c.toNat < 128 then [c] else escapeCodePoint c)

end Slicing.Text
