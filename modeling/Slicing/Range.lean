/-!
# Arithmetic ranges

A range is the progression that starts at `start`, advances by `step` and stays short of `stop`.
Its size and its elements have closed forms, so a range of astronomical size costs nothing until
its elements are listed.
-/

namespace Slicing

/-- The integers `start, start + step, …` short of `stop`. The step is never zero. -/
structure Range where
  start : Int
  stop : Int
  step : Int
  step_ne_zero : step ≠ 0
  deriving DecidableEq

namespace Range

/-- The range with the given ends and step, if the step is not zero. -/
def of? (start stop step : Int) : Option Range :=
  if h : step ≠ 0 then some ⟨start, stop, step, h⟩ else none

/-- The unit step range `start, start + 1, …`. -/
def unit (start stop : Int) : Range :=
  ⟨start, stop, 1, by decide⟩

/-- The number of elements. -/
def size (r : Range) : Nat :=
  if 0 < r.step then ((r.stop - r.start + r.step - 1) / r.step).toNat
  else ((r.start - r.stop - r.step - 1) / -r.step).toNat

/-- The element at place `i`, whether or not the range reaches that far. -/
def nth (r : Range) (i : Nat) : Int :=
  r.start + i * r.step

/-- At most `n` elements, from place `i` on. -/
def extract (r : Range) (i n : Nat) : List Int :=
  (List.range' i (min n (r.size - i))).map r.nth

/-- All elements in order. -/
def toList (r : Range) : List Int :=
  (List.range r.size).map r.nth

/-- The last element, if there is one. -/
def last? (r : Range) : Option Int :=
  if r.size = 0 then none else some (r.nth (r.size - 1))

/-- Whether two ranges list the same elements, found without listing them. -/
def sameElements (r s : Range) : Bool :=
  r.size == s.size && (r.size == 0 || (r.start == s.start && (r.size == 1 || r.step == s.step)))

/-! ## Within machine words -/

/-- Whether an integer fits the signed word of a host of 64 bits. -/
def fitsWord (n : Int) : Bool :=
  -Nat.pow 2 63 ≤ n && n < Nat.pow 2 63

/--
Whether the range can be walked in such words: its ends, its step and its size fit, and so does
the farthest integer that a step beyond the last element can come to.
-/
def isMachine (r : Range) : Bool :=
  fitsWord r.start && fitsWord r.stop && fitsWord r.step && fitsWord r.size &&
    (r.size == 0 || fitsWord (r.stop + r.step - r.step.sign))

/-! ## Elements -/

@[simp] theorem length_toList (r : Range) : r.toList.length = r.size := by
  simp [toList]

theorem extract_zero (r : Range) (n : Nat) : r.extract 0 n = r.toList.take n := by
  rcases Nat.le_total n r.size with h | h
  · simp [extract, toList, ← List.map_take, List.range_eq_range', h]
  · simp [extract, toList, ← List.map_take, List.range_eq_range', h]

/-- Drawing `m` elements and then `n` more is drawing `m + n` at once. -/
theorem extract_append (r : Range) (i m n : Nat) :
    r.extract i m ++ r.extract (i + (r.extract i m).length) n = r.extract i (m + n) := by
  simp only [extract, ← List.map_append, List.length_map, List.length_range']
  rw [List.range'_append_1]
  congr 2
  omega

end Range

end Slicing
