import Slicing.Callbacks

/-!
# Hash keys

The hash of a value is a function of its key, and the key says all that the hash depends on. Numbers
that are equal have the same key: their value modulo a prime. A saturated slice is keyed by its
kind and its three bounds, each of which must have a key. What can change has no key, and neither
has a slice or a scripted object.
-/

namespace Slicing

/-- What the hash of a value depends on. -/
inductive HashKey where
  | number (residue : Int)
  | text (s : String)
  | kind (kind : Kind)
  | object (v : Value)
  | tuple (keys : List HashKey)

namespace HashKey

/-- The prime modulo which numbers are hashed; it is one less than a power of two. -/
def modulus : Nat :=
  Nat.pow 2 61 - 1

/-- The residue of an integer with its sign; the residue -1 is set aside and stands as -2. -/
def residue (n : Int) : Int :=
  let r := n.tmod modulus
  if r = -1 then -2 else r

/--
The residue of a fraction over a power of two. As two to the power 61 leaves one, the power of two
below is undone by the power of two that completes its exponent to a multiple of 61.
-/
def fractionResidue (q : Rat) : Int :=
  residue (q.num * Nat.pow 2 ((61 - q.den.log2 % 61) % 61))

/-- The key of a floating point number; one that is not a number is told apart by identity. -/
def ofNumber (v : Value) : Number → HashKey
  | .nan => object v
  | .infinity => number 314159
  | .negInfinity => number (-314159)
  | .finite q => number (fractionResidue q)

/-- The key of a range: its size and as much more as its elements depend on. -/
def ofRange (r : Range) : HashKey :=
  tuple
    [ number (residue r.size),
      if r.size = 0 then object .null else number (residue r.start),
      if r.size ≤ 1 then object .null else number (residue r.step) ]

/-- The key of a text; the empty one is keyed like zero. -/
def ofText (s : String) : HashKey :=
  if s.isEmpty then number 0 else text s

/-- The key of a direction: that of its name in capitals. -/
def ofDirection (d : Direction) : HashKey :=
  ofText d.name.toUpper

mutual

/-- Whether two keys are the same. -/
def beq : HashKey → HashKey → Bool
  | number m, number n => m == n
  | text s, text t => s == t
  | kind k, kind l => k == l
  | object v, object w => v == w
  | tuple ks, tuple ls => beqAll ks ls
  | _, _ => false

/-- Whether two lists of keys are the same. -/
def beqAll : List HashKey → List HashKey → Bool
  | [], [] => true
  | k :: ks, l :: ls => beq k l && beqAll ks ls
  | _, _ => false

end

end HashKey

/-- The key of a value down to the given depth. A value without one is an error. -/
def hashKeyTo : Nat → Value → Eval HashKey
  | _, .bool b => pure (.number b.toInt)
  | _, .int n => pure (.number (HashKey.residue n))
  | _, .text s => pure (.ofText s)
  | _, .direction d => pure (.ofDirection d)
  | 0, .object _ => Eval.exhausted
  | depth + 1, .object a => do
    match (← Eval.world).cell? (.object a) with
    | some (.float written) => pure (.ofNumber (.object a) (.ofText written))
    | some (.tuple items) => return .tuple (← items.mapM (hashKeyTo depth))
    | some (.adjusted stretch step direction) =>
      let items := [stretch, step, .direction direction]
      return .tuple (← items.mapM (hashKeyTo depth))
    | some (.range r) => pure (.ofRange r)
    | some (.saturated lineage b) =>
      return .tuple (.kind (.saturated lineage) :: (← b.toList.mapM (hashKeyTo depth)))
    | some (.list _) => Eval.raise (.unhashable .list)
    | some (.set _) => Eval.raise (.unhashable .set)
    | some (.slice s) => Eval.raise (.unhashable s.kind)
    | some (.scripted s _) => Eval.raise (.unhashable s.kind)
    | _ => pure (.object (.object a))
  | _, v => pure (.object v)

/-- The key of a value. -/
def hashKey (v : Value) : Eval HashKey := do
  hashKeyTo (← Eval.world).cells.size v

end Slicing
