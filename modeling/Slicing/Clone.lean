import Slicing.Operator
import Slicing.Reading

/-!
# Copies

A shallow copy of an object that can change is another object that holds the same; everything else
is its own copy. A deep copy goes on into what an object holds, and keeps a table of the objects it
has copied, so an object that is met twice has one copy and sharing is kept. A tuple in which
nothing changed is its own deep copy; a slice never is.

A stored form keeps no objects at all: reading it back makes everything anew, down to the floating
point numbers. In every case a slice is rebuilt through its bounds, so a saturated slice is
saturated again under the words as they are now, and asks its bounds again how they compare.

A bound that is asked may lengthen a list. A deep copy looks at an object when it comes to it and
goes through a list to its end, wherever that is by then. A stored form is taken before any bound
is asked, so it holds each list as it was at the start.
-/

namespace Slicing

/-- The objects copied so far with their copies. -/
abbrev CopyTable : Type :=
  List (Address × Value)

/-- A computation that keeps a table of copies. -/
abbrev Copying (α : Type) : Type :=
  StateT CopyTable Eval α

namespace Copying

/-- The copy made of an object, if it has been made. -/
def known? (a : Address) : Copying (Option Value) := do
  return (← get).lookup a

/-- Enters a copy into the table. -/
def record (a : Address) (copy : Value) : Copying Value := do
  modify ((a, copy) :: ·)
  return copy

end Copying

/-- Where a copy finds what objects hold. -/
inductive CopySource where
  /-- In the world as it is when an object is reached. -/
  | live
  /-- In a stored form, which is the world as it was when the form was taken. -/
  | stored (w : World)

namespace CopySource

/-- The world in which objects are looked up now. -/
def world : CopySource → Eval World
  | live => Eval.world
  | stored w => pure w

/-- Whether even what cannot change is made anew. -/
def isStored : CopySource → Bool
  | live => false
  | stored _ => true

end CopySource

/--
Copies the elements of a list from place `done` on. Copying may lengthen the list, so after each
round the list is looked up again, until there is nothing left in it.
-/
def copyItems (source : CopySource) (copyItem : Value → Copying Value) (list : Value) :
    Nat → Nat → Copying (List Value)
  | 0, done => do
    if (((← source.world).listItems list).drop done).isEmpty then return []
    else Eval.exhausted
  | rounds + 1, done => do
    let items := ((← source.world).listItems list).drop done
    if items.isEmpty then return []
    else
      let copies ← items.mapM copyItem
      return copies ++ (← copyItems source copyItem list rounds (done + items.length))

/--
Copies a value with all that it holds, and from a stored form even what cannot change. A list
enters the table before its elements are copied, so one that holds itself comes out holding itself.
-/
def copyValue (c : Callbacks) (source : CopySource) : Nat → Value → Copying Value
  | 0, .object _ => Eval.exhausted
  | fuel + 1, .object a => do
    match ← Copying.known? a with
    | some copy => return copy
    | none =>
      match (← source.world).cell? (.object a) with
      | some (.list _) =>
        let copy ← Copying.record a (← Eval.allocate (.list []))
        let items ← copyItems source (copyValue c source fuel) (.object a) (c.patience + 1) 0
        match copy with
        | .object b => Eval.store b (.list items)
        | _ => pure ()
        return copy
      | some (.set items) => Copying.record a (← Eval.allocate (.set items))
      | some (.tuple items) =>
        let copies ← items.mapM (copyValue c source fuel)
        match ← Copying.known? a with
        | some copy => return copy
        | none =>
          if !source.isStored && copies == items then return .object a
          else Copying.record a (← Eval.allocateTuple copies)
      | some (.slice s) =>
        let arguments ← s.arguments.mapM (copyValue c source fuel)
        Copying.record a (← Eval.allocateSlice s.lineage arguments)
      | some (.saturated lineage b) =>
        let start ← copyValue c source fuel b.start
        let stop ← copyValue c source fuel b.stop
        let step ← copyValue c source fuel b.step
        Copying.record a (← buildSaturated c lineage { start, stop, step })
      | some (.adjusted stretch step direction) =>
        let stretch ← copyValue c source fuel stretch
        let step ← copyValue c source fuel step
        Copying.record a (← Eval.allocate (.adjusted stretch step direction))
      | some (.iterator r drawn) => Copying.record a (← Eval.allocate (.iterator r drawn))
      | some (.range r) =>
        if source.isStored then Copying.record a (← Eval.allocate (.range r))
        else return .object a
      | some (.float written) =>
        if source.isStored then Eval.allocate (.float written)
        else return .object a
      | _ => return .object a
  | _, v => return v

/--
Copies a value and all that it holds. A way down that meets no object twice passes at most every
object once, and an object that is met again is in the table. What is made on the way and put into
a list before its end is reached takes as many levels more as calls can be nested.
-/
def copyAll (c : Callbacks) (source : CopySource) (v : Value) : Eval Value := do
  let fuel := (← Eval.world).cells.size + 1 + c.patience
  let (copy, _) ← (copyValue c source fuel v).run []
  return copy

/-- Copies a value without what it holds. -/
def copyShallow (c : Callbacks) (v : Value) : Eval Value := do
  match (← Eval.world).cell? v with
  | some (.list items) => Eval.allocate (.list items)
  | some (.set items) => Eval.allocate (.set items)
  | some (.saturated lineage b) => buildSaturated c lineage b
  | some (.adjusted stretch step direction) => Eval.allocate (.adjusted stretch step direction)
  | some (.iterator r drawn) => Eval.allocate (.iterator r drawn)
  | _ => pure v

/-- Copies a value. -/
def copy (c : Callbacks) (mode : CopyMode) (v : Value) : Eval Value :=
  match mode with
  | .shallow => copyShallow c v
  | .deep => copyAll c .live v
  | .stored => do copyAll c (.stored (← Eval.world)) v

/-! ## How a copy lies to what was copied -/

/-- Whether a bound is a container, whose copy can be told from it. -/
def World.isContainer (w : World) (v : Value) : Bool :=
  match w.cell? v with
  | some (.list _) | some (.tuple _) | some (.set _) | some (.slice _)
  | some (.adjusted _ _ _) => true
  | _ => false

/-- How the bounds of the copy lie to those of the slice and to each other. -/
def World.sharing (w : World) (s copy : Slice) : Sharing :=
  { fresh := ([.start, .stop, .step] : List Field).filterMap fun f =>
      if w.isContainer (s.held f) then some (f, s.held f != copy.held f) else none
    shared := ([(.start, .stop), (.start, .step), (.stop, .step)] : List (Field × Field)).filter
      fun (f, g) => w.isContainer (copy.held f) && copy.held f == copy.held g }

/-- Copies a value and says how the copy lies to it. -/
def copyReport (c : Callbacks) (mode : CopyMode) (v : Value) : Eval CopyReport := do
  let copy ← Slicing.copy c mode v
  let equal ← truth c (← c.compare .eq copy v)
  let w ← Eval.world
  let sharing := match mode, w.cell? v, w.cell? copy with
    | .deep, some (.slice s), some (.slice t) => some (w.sharing s t)
    | _, _, _ => none
  return { same := copy == v, equal, kind := w.kind copy, copy := w.view copy, sharing }

end Slicing
