/-!
# Machine words

Positions in a sequence are machine integers: a signed word for indices, an unsigned word for
counts. `Words` holds the three limits that matter. They are parameters rather than constants,
so that everything built on them is stated for every word size at once.

Arithmetic that could leave the signed word saturates: it stops at the nearest limit.
-/

namespace Slicing

/-- The limits of a machine word: the ends of the signed range and the top of the unsigned one. -/
structure Words where
  isizeMax : Int
  isizeMin : Int
  usizeMax : Int
  deriving DecidableEq

namespace Words

/-- The two's complement words whose largest signed value is `m`. -/
def twosComplement (m : Int) : Words :=
  { isizeMax := m, isizeMin := -m - 1, usizeMax := 2 * m + 1 }

/-- The words of a 64-bit host. -/
def host : Words := twosComplement (Nat.pow 2 63 - 1)

/-- The nearest value to `n` within the signed word. -/
def saturate (w : Words) (n : Int) : Int :=
  if w.isizeMax < n then w.isizeMax
  else if n < w.isizeMin then w.isizeMin
  else n

/-- Addition that stops at the limits of the signed word. -/
def saturatingAdd (w : Words) (a b : Int) : Int :=
  w.saturate (a + b)

/-- The magnitude of `a`. The least signed value has no counterpart and gives the greatest. -/
def saturatingAbs (w : Words) (a : Int) : Int :=
  if a = w.isizeMin then w.isizeMax else a.natAbs

/-- The longest length that the signed word can express, for a sequence of `length` elements. -/
def clampLength (w : Words) (length : Int) : Int :=
  min length w.isizeMax

/--
Clamps the index `p` into `[0, length]`, counting a negative index from the end.
The length enters through `clampLength`, so no sum leaves the signed word.
-/
def saturateIndex (w : Words) (p length : Int) : Int :=
  let length := w.clampLength length
  let p := if p < 0 then (if p + length < 0 then 0 else p + length) else p
  if length < p then length else p

/-! ## Within the limits -/

theorem saturate_eq_self {w : Words} {n : Int} (lo : w.isizeMin ≤ n) (hi : n ≤ w.isizeMax) :
    w.saturate n = n := by
  unfold saturate
  split <;> (try split) <;> omega

theorem saturate_le {w : Words} (h : w.isizeMin ≤ w.isizeMax) (n : Int) :
    w.saturate n ≤ w.isizeMax := by
  unfold saturate
  split <;> (try split) <;> omega

theorem le_saturate {w : Words} (h : w.isizeMin ≤ w.isizeMax) (n : Int) :
    w.isizeMin ≤ w.saturate n := by
  unfold saturate
  split <;> (try split) <;> omega

theorem saturate_saturate {w : Words} (h : w.isizeMin ≤ w.isizeMax) (n : Int) :
    w.saturate (w.saturate n) = w.saturate n :=
  saturate_eq_self (le_saturate h n) (saturate_le h n)

theorem saturateIndex_nonneg {w : Words} {length : Int} (hw : 0 ≤ w.isizeMax) (hl : 0 ≤ length)
    (p : Int) : 0 ≤ w.saturateIndex p length := by
  have : 0 ≤ w.clampLength length := by unfold clampLength; omega
  simp only [saturateIndex]
  grind

theorem saturateIndex_le {w : Words} {length : Int} (p : Int) :
    w.saturateIndex p length ≤ w.clampLength length := by
  simp only [saturateIndex]
  grind

end Words

end Slicing
