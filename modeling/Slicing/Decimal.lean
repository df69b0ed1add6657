import Slicing.Number

/-!
# Shortest decimals

A floating point number is written with the fewest decimal digits that read back as that number,
and of those that are as short, with the ones nearest to it. They are found by trying one digit,
two and so on: on each decimal grid only the two points on either side of the number can be among
the nearest that read back.

The digits are written out around the decimal point unless that takes too many zeros; then the
point stands behind the first digit and an exponent follows.
-/

namespace Slicing

/-- The integer `digits` in the place where its last digit stands for `10 ^ exponent`. -/
structure Decimal where
  digits : Nat
  exponent : Int
  deriving DecidableEq

namespace Decimal

/-! ## Which digits -/

/-- The floating point number, without sign or limit, that a decimal reads back as. -/
def readBack (d : Decimal) : Rat :=
  Number.nearestBinary (d.digits * Nat.pow 10 d.exponent.toNat) (Nat.pow 10 (-d.exponent).toNat)

/-- The number of decimal digits of `n`; zero has one. -/
def digitCount (n : Nat) : Nat :=
  (Nat.toDigits 10 n).length

/-- The exponent `e` for which the positive fraction `q` lies in `[10 ^ e, 10 ^ (e + 1))`. -/
def leadingExponent (q : Rat) : Int :=
  let num := q.num.natAbs
  if q.den ≤ num then digitCount (num / q.den) - 1
  else
    let inverse := q.den / num
    if q.den % num = 0 ∧ inverse = Nat.pow 10 (digitCount inverse - 1) then 1 - digitCount inverse
    else -digitCount inverse

/--
Of the two points of the grid of multiples of `10 ^ exponent` on either side of `q`, the one that
reads back as `q`; if both do, the nearer, and of two as near the one with an even last digit.
-/
def onGrid? (q : Rat) (exponent : Int) : Option Decimal :=
  let num := q.num.natAbs * Nat.pow 10 (-exponent).toNat
  let den := q.den * Nat.pow 10 exponent.toNat
  let below : Decimal := ⟨num / den, exponent⟩
  let above : Decimal := ⟨num / den + 1, exponent⟩
  let nearer := if Number.divNearest num den = below.digits then [below, above] else [above, below]
  nearer.find? (·.readBack = q)

/-- The shortest decimal that reads back as the positive number `q`. Seventeen digits suffice. -/
def shortest (q : Rat) : Decimal :=
  let leading := leadingExponent q
  ((List.range 17).findSome? fun (i : Nat) => onGrid? q (leading - i)).getD ⟨0, 0⟩

/-! ## How they are written -/

/-- The digits without the zeros at the end. -/
def significant (d : Decimal) : List Char :=
  ((Nat.toDigits 10 d.digits).reverse.dropWhile (· == '0')).reverse

/-- What the first digit stands for is ten to this power. -/
def leading (d : Decimal) : Int :=
  d.exponent + digitCount d.digits - 1

/-- The digits around a decimal point, with at least one on either side. -/
def positional (d : Decimal) : List Char :=
  let digits := d.significant
  if d.leading < 0 then
    "0.".toList ++ List.replicate (-d.leading - 1).toNat '0' ++ digits
  else
    let whole := d.leading.toNat + 1
    let digits := digits ++ List.replicate (whole - digits.length) '0'
    let fraction := digits.drop whole
    digits.take whole ++ ['.'] ++ (if fraction.isEmpty then ['0'] else fraction)

/-- The first digit, a point and further digits if there are any, and the exponent. -/
def scientific (d : Decimal) : List Char :=
  let digits := d.significant
  let mantissa := match digits.drop 1 with
    | [] => digits
    | further => digits.take 1 ++ ['.'] ++ further
  let exponent := Nat.toDigits 10 d.leading.natAbs
  mantissa ++ ['e', if d.leading < 0 then '-' else '+'] ++
    (if exponent.length < 2 then '0' :: exponent else exponent)

/-- The text of a decimal: with an exponent below `10 ^ (-4)` and from `10 ^ 16` on. -/
def toText (d : Decimal) : String :=
  String.ofList (if -4 ≤ d.leading ∧ d.leading < 16 then d.positional else d.scientific)

end Decimal

namespace Number

/-- The text of a magnitude. -/
def magnitudeText (q : Rat) : String :=
  if q = 0 then "0.0" else (Decimal.shortest q).toText

/-- The text of a floating point number. -/
def toText : Number → String
  | .nan => "nan"
  | .infinity => "inf"
  | .negInfinity => "-inf"
  | .finite q => if q < 0 then "-" ++ magnitudeText (-q) else magnitudeText q

/-- The text of a floating point number that is written in any way; zero keeps its sign. -/
def restate (written : String) : String :=
  let n := ofText written
  if n = .finite 0 ∧ written.toList.head? = some '-' then "-0.0" else n.toText

end Number

end Slicing
