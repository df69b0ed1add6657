import Slicing.Comparison

/-!
# Exact numbers

Integers and floating point numbers compare by the value they stand for. A floating point number
is kept as the decimal text it is written with; its value is the fraction with a 53-bit numerator
and a power of two below that comes nearest to that decimal. Values are exact fractions, so an
integer of any size meets a floating point number without either being rounded again. A sum is
exact as well and then rounded once; what reaches two to the power 1024 is infinite.
-/

namespace Slicing

/-- A number as comparisons see it. -/
inductive Number where
  | nan
  | negInfinity
  | finite (q : Rat)
  | infinity
  deriving DecidableEq

namespace Number

/-- The integer `n` as a number. -/
def ofInt (n : Int) : Number :=
  .finite n

/-! ## Comparing -/

/-- The order of two numbers; one that is not a number has no place in it. -/
def compare? : Number → Number → Option Ordering
  | .nan, _ | _, .nan => none
  | .negInfinity, .negInfinity | .infinity, .infinity => some .eq
  | .negInfinity, _ | _, .infinity => some .lt
  | .infinity, _ | _, .negInfinity => some .gt
  | .finite p, .finite q => some (if p < q then .lt else if q < p then .gt else .eq)

/-- Whether the comparison holds; numbers without an order are unequal and nothing else. -/
def holds (c : Comparison) (a b : Number) : Bool :=
  match compare? a b with
  | some o => c.holds o
  | none => c == .ne

/-! ## Reading -/

/-- `num / den` to the nearest integer, a half going to the even neighbour. -/
def divNearest (num den : Nat) : Nat :=
  let q := num / den
  let r := num % den
  if 2 * r < den ∨ (2 * r = den ∧ q % 2 = 0) then q else q + 1

/-- The exponent `e` for which `num / den` lies in `[2 ^ e, 2 ^ (e + 1))`. -/
def binaryExponent (num den : Nat) : Int :=
  let e : Int := (num.log2 : Int) - den.log2
  if num * Nat.pow 2 (-e).toNat < den * Nat.pow 2 e.toNat then e - 1 else e

/--
The nearest fraction to `num / den` with a 53-bit numerator over a power of two. Below the
smallest normal exponent the last place stays at `2 ^ (-1074)`.
-/
def nearestBinary (num den : Nat) : Rat :=
  let e := max (binaryExponent num den - 52) (-1074)
  if e < 0 then
    let places := Nat.pow 2 (-e).toNat
    mkRat (divNearest (num * places) den) places
  else
    let unit := Nat.pow 2 e.toNat
    (divNearest num (den * unit) * unit : Nat)

/-- The number written by a run of decimal digits, after the number `n`. -/
def readDigits (n : Nat) (cs : List Char) : Nat :=
  cs.foldl (fun n c => 10 * n + (c.toNat - '0'.toNat)) n

/-- The value of a whole part, a fractional part and an exponent, rounded once. -/
def ofDecimal (whole fraction : List Char) (exponent : Int) : Rat :=
  let digits := readDigits (readDigits 0 whole) fraction
  let exponent := exponent - fraction.length
  nearestBinary (digits * Nat.pow 10 exponent.toNat) (Nat.pow 10 (-exponent).toNat)

/-- The exponent written after its mark: digits with an optional sign. -/
def readExponent : List Char → Int
  | '-' :: cs => -(readDigits 0 cs : Int)
  | '+' :: cs => readDigits 0 cs
  | cs => readDigits 0 cs

/-- Whether a character marks the exponent of a decimal text. -/
def isExponentMark (c : Char) : Bool :=
  c == 'e' || c == 'E'

/-- The value of an unsigned decimal text. -/
def ofUnsigned (cs : List Char) : Rat :=
  let mantissa := cs.takeWhile (!isExponentMark ·)
  let exponent := (cs.dropWhile (!isExponentMark ·)).drop 1
  ofDecimal (mantissa.takeWhile (· != '.')) ((mantissa.dropWhile (· != '.')).drop 1)
    (readExponent exponent)

/-- The least magnitude that no finite floating point number has. -/
def unreachable : Rat :=
  Nat.pow 2 1024

/-- The number of a value that has been rounded, which may lie beyond all finite ones. -/
def bounded (q : Rat) : Number :=
  if unreachable ≤ q then .infinity
  else if q ≤ -unreachable then .negInfinity
  else .finite q

/-- The number that a floating point text stands for. -/
def ofText (text : String) : Number :=
  match text.toList with
  | ['n', 'a', 'n'] => .nan
  | ['i', 'n', 'f'] => .infinity
  | ['-', 'i', 'n', 'f'] => .negInfinity
  | '-' :: cs => bounded (-(ofUnsigned cs))
  | cs => bounded (ofUnsigned cs)

/-! ## Rounding and adding -/

/-- The floating point number nearest to a fraction. -/
def round (q : Rat) : Number :=
  let magnitude := nearestBinary q.num.natAbs q.den
  bounded (if q < 0 then -magnitude else magnitude)

/-- The floating point number nearest to an integer, if there is a finite one. -/
def ofInt? (n : Int) : Option Number :=
  match round n with
  | .finite q => some (.finite q)
  | _ => none

/-- The sum of two floating point numbers, rounded once. -/
def add : Number → Number → Number
  | .nan, _ | _, .nan => .nan
  | .infinity, .negInfinity | .negInfinity, .infinity => .nan
  | .infinity, _ | _, .infinity => .infinity
  | .negInfinity, _ | _, .negInfinity => .negInfinity
  | .finite p, .finite q => round (p + q)

/-- The number with the other sign. -/
def opposite : Number → Number
  | .nan => .nan
  | .infinity => .negInfinity
  | .negInfinity => .infinity
  | .finite q => .finite (-q)

/-- The number without its sign. -/
def magnitude : Number → Number
  | .nan => .nan
  | .infinity | .negInfinity => .infinity
  | .finite q => .finite (if q < 0 then -q else q)

/-! ## Order -/

theorem compare?_swap (a b : Number) : (compare? a b).map Ordering.swap = compare? b a := by
  cases a <;> cases b <;>
    simp only [compare?, Option.map_some, Option.map_none, apply_ite Ordering.swap,
      Ordering.swap_lt, Ordering.swap_eq, Ordering.swap_gt]
  grind

/-- A comparison says the same of its operands in the other order, turned round. -/
theorem holds_swapped (c : Comparison) (a b : Number) : holds c.swapped b a = holds c a b := by
  unfold holds
  rw [← compare?_swap a b]
  cases compare? a b with
  | none => cases c <;> rfl
  | some o => exact c.holds_swapped o

end Number

end Slicing
