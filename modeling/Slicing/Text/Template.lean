import Slicing.Inspection.Thing
import Slicing.Text.Layout

/-!
# Message templates

A template is the text of a message with gaps for one name. A gap stands between braces. It may
say which name is meant, though there is only one, which is number 0, and which steps lead on from
it: a point and the name of a feature, or brackets around the place of a part. Then it may say how
what is found there is converted, after an exclamation mark; and how it is laid out, after a colon.
The layout may have gaps of its own. A doubled brace stands for a brace.

Gaps without a number are numbered as they come. A template either numbers all its gaps or none.

A template is taken apart first. What is found of it up to the first fault is filled in, and the
fault comes to light only when everything in front of it could be filled in.
-/

namespace Slicing.Text

open Inspection (Thing)

/-- Why a template gives no message. -/
inductive TemplateError where
  | loneOpen
  | loneClose
  | openInName
  | unclosed
  | noConversion
  | noColon
  | unclosedLayout
  /-- A gap in the layout of a gap in a layout. -/
  | tooDeep
  | tooManyDigits
  /-- A gap without a number after one with a number. -/
  | automaticAfterManual
  /-- A gap with a number after one without. -/
  | manualAfterAutomatic
  /-- There is nothing of that number. -/
  | noArgument (index : Nat)
  /-- There is nothing of that name. -/
  | noName (name : String)
  | behindBracket
  | emptyStep
  | unclosedBracket
  | step (e : Inspection.StepError)
  | unknownConversion (c : Char)
  | layout (e : LayoutError)
  /-- Things of this category are not laid out. -/
  | noLayout (c : Inspection.Category)
  deriving DecidableEq

/-! ## Taking apart -/

/-- A part of a template. -/
inductive Piece where
  | plain (c : Char)
  /-- A gap: what it says of the name, the conversion and the layout. -/
  | gap (name : List Char) (conversion : Option Char) (layout : List Char)
  deriving DecidableEq

/-- Where in a template a character stands. -/
inductive Place where
  | text
  /-- In a gap, behind this much of its name. -/
  | name (before : List Char)
  /-- The same, within brackets, where every character is part of the name. -/
  | bracket (before : List Char)
  | conversion (name : List Char)
  | behindConversion (name : List Char) (conversion : Char)
  /-- In a layout, within this many further braces. -/
  | layout (name : List Char) (conversion : Option Char) (before : List Char) (depth : Nat)

/-- The parts of a template up to its end or the first fault. -/
def pieces : Place → List Char → List Piece × Option TemplateError
  | .text, [] => ([], none)
  | .text, ['\x7b'] => ([], some .loneOpen)
  | .text, '\x7b' :: '\x7b' :: rest => after (.plain '\x7b') (pieces .text rest)
  | .text, '\x7b' :: rest => pieces (.name []) rest
  | .text, '\x7d' :: '\x7d' :: rest => after (.plain '\x7d') (pieces .text rest)
  | .text, '\x7d' :: _ => ([], some .loneClose)
  | .text, c :: rest => after (.plain c) (pieces .text rest)
  | .name _, [] => ([], some .unclosed)
  | .name _, '\x7b' :: _ => ([], some .openInName)
  | .name before, '[' :: rest => pieces (.bracket (before ++ ['['])) rest
  | .name before, '\x7d' :: rest => after (.gap before none []) (pieces .text rest)
  | .name before, ':' :: rest => pieces (.layout before none [] 0) rest
  | .name before, '!' :: rest => pieces (.conversion before) rest
  | .name before, c :: rest => pieces (.name (before ++ [c])) rest
  | .bracket _, [] => ([], some .unclosed)
  | .bracket before, ']' :: rest => pieces (.name (before ++ [']'])) rest
  | .bracket before, c :: rest => pieces (.bracket (before ++ [c])) rest
  | .conversion _, [] => ([], some .noConversion)
  | .conversion name, c :: rest => pieces (.behindConversion name c) rest
  | .behindConversion _ _, [] => ([], some .unclosedLayout)
  | .behindConversion name c, '\x7d' :: rest => after (.gap name (some c) []) (pieces .text rest)
  | .behindConversion name c, ':' :: rest => pieces (.layout name (some c) [] 0) rest
  | .behindConversion _ _, _ => ([], some .noColon)
  | .layout _ _ _ _, [] => ([], some .unclosedLayout)
  | .layout name c before 0, '\x7d' :: rest => after (.gap name c before) (pieces .text rest)
  | .layout name c before (depth + 1), '\x7d' :: rest =>
    pieces (.layout name c (before ++ ['\x7d']) depth) rest
  | .layout name c before depth, '\x7b' :: rest =>
    pieces (.layout name c (before ++ ['\x7b']) (depth + 1)) rest
  | .layout name c before depth, d :: rest =>
    pieces (.layout name c (before ++ [d]) depth) rest
where
  /-- Puts one more part in front. -/
  after (p : Piece) (found : List Piece × Option TemplateError) :
      List Piece × Option TemplateError :=
    (p :: found.1, found.2)

/-! ## Filling in -/

/-- How the gaps so far were numbered. -/
inductive Numbering where
  | open
  | automatic (next : Nat)
  | manual
  deriving DecidableEq

/-- The number of a gap without one, and how the gaps are numbered from then on. -/
def Numbering.next : Numbering → Except TemplateError (Nat × Numbering)
  | .open => .ok (0, .automatic 1)
  | .automatic n => .ok (n, .automatic (n + 1))
  | .manual => .error .automaticAfterManual

/-- How the gaps are numbered from a gap with a number on. -/
def Numbering.given : Numbering → Except TemplateError Numbering
  | .automatic _ => .error .manualAfterAutomatic
  | _ => .ok .manual

/-- Whether the character begins a further step into what a gap names. -/
def beginsStep (c : Char) : Bool :=
  c == '.' || c == '['

/-- The number written as `cs`, or nothing if it is no number. -/
def indexOf? (cs : List Char) : Except TemplateError (Option Nat) :=
  match DigitRun.read cs with
  | .tooGreat => .error .tooManyDigits
  | .number n (_ + 1) [] => .ok (some n)
  | _ => .ok none

/-- Which of the names is meant, found without the further steps; there is only number 0. -/
def choose (numbering : Numbering) (name : List Char) : Except TemplateError Numbering := do
  let (index, numbering) ← match name, ← indexOf? name with
    | [], _ => numbering.next
    | _, some index => do pure (index, ← numbering.given)
    | _, none => .error (.noName (String.ofList name))
  if index = 0 then return numbering else throw (.noArgument index)

/-- The part of a thing that a key in brackets picks. -/
def pick (key : List Char) (t : Thing) : Except TemplateError Thing := do
  let place ← indexOf? key
  if key.isEmpty then throw .emptyStep
  else (t.part place).mapError .step

/-- Follows the steps `path` from a thing. -/
def follow (path : List Char) (t : Thing) : Except TemplateError Thing :=
  match path with
  | [] => .ok t
  | '.' :: rest => do
    let name := rest.takeWhile (!beginsStep ·)
    if name.isEmpty then throw .emptyStep
    else
      let found ← (t.featureNamed (String.ofList name)).mapError .step
      follow (rest.dropWhile (!beginsStep ·)) found
  | '[' :: rest =>
    match _h : rest.dropWhile (· != ']') with
    | [] => .error .unclosedBracket
    | _ :: further => do
      follow further (← pick (rest.takeWhile (· != ']')) t)
  | _ => .error .behindBracket
termination_by path.length
decreasing_by
  · have := (List.dropWhile_suffix (!beginsStep ·) (l := rest)).length_le
    simp only [List.length_cons]
    omega
  · have := (List.dropWhile_suffix (· != ']') (l := rest)).length_le
    simp only [_h, List.length_cons] at this ⊢
    omega

/-- The thing as the text that a conversion asks for, or as it is. -/
def convert (conversion : Option Char) (t : Thing) : Except TemplateError Thing :=
  match conversion with
  | none | some '\x00' => .ok t
  | some 's' => .ok (.ofString t.toText)
  | some 'r' => .ok (.ofString t.toQuoted)
  | some 'a' => .ok (.ofString (narrow t.toQuoted))
  | some c => .error (.unknownConversion c)

/-- The thing laid out. Only texts can be, but no layout at all is one for everything. -/
def layOut (layout : List Char) : Thing → Except TemplateError (List Char)
  | .text cs => (Layout.apply layout cs).mapError .layout
  | t => if layout.isEmpty then .ok t.toText.toList else .error (.noLayout t.categoryOf)

/-- Fills in a part of a template; `expand` is how a layout with gaps of its own is filled in. -/
def Piece.fill (expand : Numbering → List Char → Except TemplateError (List Char × Numbering))
    (text : List Char) (numbering : Numbering) :
    Piece → Except TemplateError (List Char × Numbering)
  | plain c => .ok ([c], numbering)
  | gap name conversion layout => do
    let numbering ← choose numbering (name.takeWhile (!beginsStep ·))
    let found ← follow (name.dropWhile (!beginsStep ·)) (.text text)
    let converted ← convert conversion found
    let (layout, numbering) ←
      if layout.contains '\x7b' then expand numbering layout else .ok (layout, numbering)
    return (← layOut layout converted, numbering)

/-- Fills in the parts of a template one after the other, and then comes upon the fault. -/
def fillAll (expand : Numbering → List Char → Except TemplateError (List Char × Numbering))
    (text : List Char) (fault : Option TemplateError) (numbering : Numbering) :
    List Piece → Except TemplateError (List Char × Numbering)
  | [] =>
    match fault with
    | none => .ok ([], numbering)
    | some fault => .error fault
  | p :: ps => do
    let (first, numbering) ← p.fill expand text numbering
    let (others, numbering) ← fillAll expand text fault numbering ps
    return (first ++ others, numbering)

/-- Fills in a template whose layouts may have gaps to the given depth. -/
def expand (text : List Char) :
    Nat → Numbering → List Char → Except TemplateError (List Char × Numbering)
  | 0, _, _ => .error .tooDeep
  | depth + 1, numbering, template =>
    let (parts, fault) := pieces .text template
    fillAll (expand text depth) text fault numbering parts

/-- The message that the template gives for `name`. -/
def fill (template name : String) : Except TemplateError String := do
  let (message, _) ← expand name.toList 2 .open template.toList
  return String.ofList message

/-! ## Plain text and a quoted name -/

/-- Characters outside of all gaps are their own message. -/
theorem fillAll_plain
    (expand : Numbering → List Char → Except TemplateError (List Char × Numbering))
    (text cs : List Char) (numbering : Numbering) :
    fillAll expand text none numbering (cs.map .plain) = .ok (cs, numbering) := by
  induction cs with
  | nil => rfl
  | cons c cs ih => simp [fillAll, Piece.fill, ih, bind, Except.bind, pure, Except.pure]

/-- A first gap that asks for the name between quote marks. -/
theorem Piece.fill_quoted
    (expand : Numbering → List Char → Except TemplateError (List Char × Numbering))
    (text : List Char) :
    fill expand text .open (.gap [] (some 'r') []) =
      .ok ((quote (String.ofList text)).toList, .automatic 1) := by
  have chosen : choose .open [] = .ok (.automatic 1) := by
    simp [choose, indexOf?, DigitRun.read, DigitRun.extend, Numbering.next, bind, Except.bind,
      pure, Except.pure]
  have followed : follow [] (.text text) = .ok (.text text) := by rw [follow]
  simp only [fill, List.takeWhile_nil, List.dropWhile_nil, chosen, followed]
  rfl

end Slicing.Text
