import Slicing.Lineage
import Slicing.Window
import Slicing.Word

/-!
# Saturated slices

A saturated slice has had its bounds resolved to machine integers. From here on no bound can call
back, so adjusting it to a length is plain arithmetic that may run while a lock is held.

A backward slice is turned round first: the same positions are a forward stretch whose ends are
one up from `stop` and `start`. A bound of `-1` stands for the last element and so becomes the
length itself; the sum saturates.
-/

namespace Slicing

/-- A slice whose bounds are machine integers. -/
structure Saturated where
  lineage : Lineage
  start : Int
  stop : Int
  step : Int
  deriving DecidableEq

namespace Saturated

/-! ## Building -/

/-- The slice with each bound saturated to the word; refused when the step given is zero. -/
def of? (w : Words) (lineage : Lineage) (start stop step : Int) : Option Saturated :=
  if step = 0 then none
  else some
    { lineage, start := w.saturate start, stop := w.saturate stop, step := w.saturate step }

/-- The start of a slice that names none: the end that the walk sets out from. -/
def defaultStart (w : Words) (step : Int) : Int :=
  if step < 0 then w.isizeMax else 0

/-- The stop of a slice that names none: beyond the end that the walk heads for. -/
def defaultStop (w : Words) (step : Int) : Int :=
  if step < 0 then w.isizeMin else w.isizeMax

/-! ## Adjusting to a length -/

/-- The end from which the slice walks. -/
def direction (s : Saturated) : Direction :=
  if s.step < 0 then .backward else .forward

/-- The index one above the bound `n`; above the last element lies the length. -/
def above (w : Words) (length n : Int) : Int :=
  if n = -1 then w.saturatingAdd (w.clampLength length) 1 else w.saturatingAdd n 1

/-- The index one above a start `n`; the last element starts a walk over all of the length. -/
def aboveStart (w : Words) (length n : Int) : Int :=
  if n = -1 then w.clampLength length else w.saturatingAdd n 1

/-- The lower end of the stretch that the slice walks over `length` elements. -/
def low (w : Words) (s : Saturated) (length : Int) : Int :=
  w.saturateIndex (if s.step < 0 then above w length s.stop else s.start) length

/-- The upper end of that stretch. -/
def high (w : Words) (s : Saturated) (length : Int) : Int :=
  w.saturateIndex (if s.step < 0 then aboveStart w length s.start else s.stop) length

/-- The length of a step, if the unsigned word can hold it. -/
def pace (w : Words) (s : Saturated) : Option Int :=
  let step := if s.step < 0 then w.saturatingAbs s.step else s.step
  if step ≤ w.usizeMax then some step else none

/--
The window of a sequence of `length` elements that the slice selects. A step too long for the
unsigned word reaches no second element, and the window shrinks to the first one.
-/
def window (w : Words) (s : Saturated) (length : Int) : Window :=
  let low := s.low w length
  let high := s.high w length
  if high ≤ low then { start := low, stop := low, step := s.pace w, direction := s.direction }
  else match s.pace w, s.direction with
    | none, .forward => { start := low, stop := low + 1, step := none, direction := .forward }
    | none, .backward => { start := high - 1, stop := high, step := none, direction := .backward }
    | some step, direction => { start := low, stop := high, step := some step, direction }

/-- The window for a length, which must not be negative. -/
def adjust? (w : Words) (s : Saturated) (length : Int) : Option Window :=
  if length < 0 then none else some (s.window w length)

theorem adjust?_eq_none_iff {w : Words} {s : Saturated} {length : Int} :
    s.adjust? w length = none ↔ length < 0 := by
  unfold adjust?
  split <;> simp_all

theorem direction_window (w : Words) (s : Saturated) (length : Int) :
    (s.window w length).direction = s.direction := by
  simp only [window]
  grind

theorem step_window (w : Words) (s : Saturated) (length : Int) :
    (s.window w length).step = s.pace w := by
  simp only [window]
  grind

end Saturated

end Slicing
