import Slicing.Request
import Slicing.Saturated
import Slicing.Slice

/-!
# The world

The world keeps what objects hold, one cell an object, together with the limits of the word, the
number of locks held and the names that values have been given. Objects are never destroyed, so
an address stays valid once it has been given out.

The empty tuple is a single object: it is made with the world and lives at `World.emptyTuple`.
-/

namespace Slicing

/-- The ends and the step of a range as bounds. -/
def Range.bounds (r : Range) : Bounds :=
  { start := .int r.start, stop := .int r.stop, step := .int r.step }

/-- The bounds of a saturated slice as values. -/
def Saturated.bounds (s : Saturated) : Bounds :=
  { start := .int s.start, stop := .int s.stop, step := .int s.step }

/-- What an object holds. -/
inductive Cell where
  | float (text : String)
  | list (items : List Value)
  | tuple (items : List Value)
  | set (items : List Int)
  | slice (slice : Slice)
  /-- The three bounds; they need not be integers, as long as they compare with some. -/
  | saturated (lineage : Lineage) (bounds : Bounds)
  /-- The range that is the stretch, the step and the direction, which pass for a tuple of three. -/
  | adjusted (stretch step : Value) (direction : Direction)
  | range (range : Range)
  /-- A range and the number of its elements that have been drawn. -/
  | iterator (range : Range) (drawn : Nat)
  /-- A script and the number of times that the object has been asked for its index. -/
  | scripted (script : Script) (calls : Nat)
  | sequence (name : String) (length : Int) (error : Option Error)
  | lock (lock : Lock)

/-- The kind of the object that a cell belongs to. -/
def Cell.kind : Cell → Kind
  | float _ => .float
  | list _ => .list
  | tuple _ => .tuple
  | set _ => .set
  | slice s => s.kind
  | saturated lineage _ => .saturated lineage
  | adjusted _ _ _ => .adjusted
  | range _ => .range
  | iterator r _ => .iterator (!r.isMachine)
  | scripted s _ => s.kind
  | sequence _ _ _ => .sequence
  | lock _ => .lock

/-- The elements of a tuple; an adjusted slice has its range, its step and its direction. -/
def Cell.tupleItems? : Cell → Option (List Value)
  | tuple items => some items
  | adjusted stretch step direction => some [stretch, step, .direction direction]
  | _ => none

/-- All that a run can change. -/
structure World where
  cells : Array Cell
  words : Words
  held : Nat
  names : List (String × Value)

namespace World

/-- The one tuple without elements. -/
def emptyTuple : Value :=
  .object 0

/-- A world with no object but the empty tuple. -/
def initial (words : Words) : World :=
  { cells := #[.tuple []], words, held := 0, names := [] }

/-- What the object `v` holds; an immediate value holds nothing. -/
def cell? (w : World) : Value → Option Cell
  | .object a => w.cells[a]?
  | _ => none

/-- The kind of a value. -/
def kind (w : World) : Value → Kind
  | .null => .null
  | .bool _ => .bool
  | .int _ => .int
  | .text _ => .text
  | .absent => .absent
  | .notImplemented => .notImplemented
  | .direction _ => .direction
  | .object a => (w.cells[a]?.map Cell.kind).getD .null

/-- The value bound to a name. -/
def lookup? (w : World) (name : String) : Option Value :=
  w.names.lookup name

/-- Whether some lock is held. -/
def isLocked (w : World) : Bool :=
  w.held != 0

/-- The elements of a list, as long as they are now; anything else has none. -/
def listItems (w : World) (v : Value) : List Value :=
  match w.cell? v with
  | some (.list items) => items
  | _ => []

/-- What a field of an object is, if it has that field. Of an adjusted slice only the step is one. -/
def member? (w : World) (v : Value) (field : Field) : Option Value :=
  match w.cell? v with
  | some (.slice s) => some (s.bounds.get field)
  | some (.saturated _ b) => some (b.get field)
  | some (.range r) => some (r.bounds.get field)
  | some (.adjusted _ step _) => if field = .step then some step else none
  | _ => none

/-- The fields of a value. -/
def members (w : World) (v : Value) : Members := fun field =>
  match w.member? v field with
  | some bound => .ok bound
  | none => .error (.noAttribute (w.kind v) field.name)

/-- The world with `cell` in place of what the object at `a` held. -/
def store (w : World) (a : Address) (cell : Cell) : World :=
  { w with cells := w.cells.setIfInBounds a cell }

/-- The world with one more object, which holds `cell`. -/
def insert (w : World) (cell : Cell) : World :=
  { w with cells := w.cells.push cell }

/-- The value of the object that `insert` adds. -/
def fresh (w : World) : Value :=
  .object w.cells.size

/-! ## Fields -/

theorem members_slice {w : World} {v : Value} {s : Slice} (h : w.cell? v = some (.slice s)) :
    w.members v = s.bounds.members := by
  funext field
  simp [members, member?, h]

/-! ## What objects hold -/

theorem object_of_cell? {w : World} {v : Value} {cell : Cell} (h : w.cell? v = some cell) :
    ∃ a, v = .object a := by
  cases v with
  | object a => exact ⟨a, rfl⟩
  | _ => simp [cell?] at h

theorem cell?_insert_fresh (w : World) (cell : Cell) :
    (w.insert cell).cell? w.fresh = some cell := by
  simp [insert, fresh, cell?]

/-- A new object leaves the others as they are. -/
theorem cell?_insert_of_some {w : World} {v : Value} {old : Cell} (h : w.cell? v = some old)
    (cell : Cell) : (w.insert cell).cell? v = some old := by
  obtain ⟨a, rfl⟩ := object_of_cell? h
  simp only [cell?, insert] at h ⊢
  have := (Array.getElem?_eq_some_iff.mp h).1
  rw [Array.getElem?_push_lt (by omega)]
  simpa [this] using h

theorem cell?_store_self {w : World} {a : Address} {old : Cell}
    (h : w.cell? (.object a) = some old) (cell : Cell) :
    (w.store a cell).cell? (.object a) = some cell := by
  have bound : a < w.cells.size := (Array.getElem?_eq_some_iff.mp h).1
  simp [cell?, store, bound]

theorem cell?_store_of_ne {w : World} {v : Value} {a : Address} (h : v ≠ .object a) (cell : Cell) :
    (w.store a cell).cell? v = w.cell? v := by
  cases v with
  | object b =>
    have : a ≠ b := fun e => h (e ▸ rfl)
    simp [cell?, store, Array.getElem?_setIfInBounds_ne this]
  | _ => rfl

end World

end Slicing
