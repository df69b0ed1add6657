import Slicing.Adjusted
import Slicing.Saturation

/-!
# Reading terms

Reading a term makes the value that it describes. Every reading makes new objects, except where
the term names one that is there already. Reading can fail: a slice refuses its bounds, or a name
is bound to nothing. Nothing happens while a term is read, unless it describes a saturated slice,
whose bounds are asked how they compare.
-/

namespace Slicing

namespace Eval

/-- Makes a slice from its bounds. -/
def allocateSlice (lineage : Lineage) (arguments : List Value) : Eval Value := do
  allocate (.slice (← ofExcept (Slice.ofArguments lineage arguments)))

/-- Makes an adjusted slice and the range that is its stretch. -/
def allocateAdjusted (a : Adjusted) : Eval Value := do
  let stretch ← allocate (.range a.stretch)
  allocate (.adjusted stretch a.step a.direction)

end Eval

/-- The range of one, two or three integers: a stop, a start and a stop, or these and a step. -/
def Range.ofList : List Int → Except Error Range
  | [stop] => .ok (unit 0 stop)
  | [start, stop] => .ok (unit start stop)
  | [start, stop, step] =>
    match of? start stop step with
    | some r => .ok r
    | none => .error .zeroRangeStep
  | integers => .error (.rangeArguments integers.length)

/-- The direction that plain data names, or else the error that quotes the data. -/
def Plain.direction (p : Plain) : Except Error Direction :=
  match p.text?.bind Direction.ofName? with
  | some d => .ok d
  | none => .error (.noDirection p.toText)

/-- Puts a number into a list in increasing order, unless it is there already. -/
def insertOrdered (n : Int) : List Int → List Int
  | [] => [n]
  | m :: ms => if n < m then n :: m :: ms else if n = m then m :: ms else m :: insertOrdered n ms

namespace Term

mutual

/-- Makes the value that the term describes. -/
def read (c : Callbacks) : Term → Eval Value
  | null => pure .null
  | bool b => pure (.bool b)
  | int n => pure (.int n)
  | float written => Eval.allocate (.float written)
  | text s => pure (.text s)
  | absent => pure .absent
  | list items => do Eval.allocate (.list (← readAll c items))
  | tuple items => do Eval.allocateTuple (← readAll c items)
  | set items => Eval.allocate (.set (items.foldr insertOrdered []))
  | slice lineage arguments => do Eval.allocateSlice lineage (← readAll c arguments)
  | saturated lineage arguments => do allocateSaturated c lineage (← readAll c arguments)
  | adjusted range step direction => do
    let stretch ← Eval.ofExcept (Range.ofList range)
    let step ← step.read c
    let direction ← Eval.ofExcept direction.direction
    Eval.allocateAdjusted { stretch, step, direction }
  | named name => do Eval.orRaise (.unbound name) ((← Eval.world).lookup? name)
  | scripted script => Eval.allocate (.scripted script 0)
  | sequence name length error => Eval.allocate (.sequence name length error)
  | lock l => Eval.allocate (.lock l)

/-- Makes the values that several terms describe, in order. -/
def readAll (c : Callbacks) : List Term → Eval (List Value)
  | [] => pure []
  | t :: ts => do
    let v ← t.read c
    return v :: (← readAll c ts)

end

end Term

end Slicing
