import Mathlib.Algebra.Order.Ring.Int
import Slicing.Proofs.Windows

/-!
# Arithmetic in two's complement

A machine computes in words of `n` bits. What does not fit such a word is cut back to it and becomes
another number; only a saturating operation stops at the limit instead. Each addition, subtraction
and negation here notes what it came to before the cut.

* `Worked` — a computation on words, with the numbers that its operations came to
* `Worked.Ensures` — no operation left the word, and the result is as promised
* `clampIndex_ensures`, `toInt_saturatingAdd`, `saturatingAbs_ensures` — what the word has room for
  comes out as it does on integers

The comparisons are exact on words, and saturating is where the cut would have made a difference.
-/

namespace Slicing

/-! ## Words -/

/-- The limits of words of `n` bits. -/
def Words.ofWidth (n : Nat) : Words :=
  twosComplement (2 ^ (n - 1) - 1)

/-- The signed word has room for `k`. -/
def Words.Holds (words : Words) (k : Int) : Prop :=
  words.isizeMin ≤ k ∧ k ≤ words.isizeMax

theorem Words.holds_ofWidth_iff {n : Nat} {k : Int} :
    (ofWidth n).Holds k ↔ -2 ^ (n - 1) ≤ k ∧ k < 2 ^ (n - 1) := by
  simp only [Holds, ofWidth, twosComplement]
  omega

theorem Words.holds_toInt {n : Nat} (a : BitVec n) : (ofWidth n).Holds a.toInt :=
  holds_ofWidth_iff.mpr ⟨a.le_toInt, BitVec.toInt_lt⟩

theorem Words.signed_ofWidth {n : Nat} (wide : 2 ≤ n) : (ofWidth n).Signed (2 ^ (n - 1) - 1) := by
  have room : (2 : Int) ^ 1 ≤ 2 ^ (n - 1) :=
    pow_le_pow_right₀ (by decide) (by omega)
  exact signed_twosComplement (by omega)

/-- A number that the word has room for becomes a word without being cut. -/
theorem Words.toInt_ofInt {n : Nat} (wide : 2 ≤ n) {k : Int} (holds : (ofWidth n).Holds k) :
    (BitVec.ofInt n k).toInt = k := by
  obtain ⟨low, high⟩ := holds_ofWidth_iff.mp holds
  exact BitVec.toInt_ofInt_eq_self (by omega) low high

/-! ## Computations on words -/

/--
A computation on words of `n` bits: its result, and the numbers that its operations came to before
they were cut to the word, in order.
-/
structure Worked (n : Nat) (α : Type) where
  result : α
  uncut : List Int

namespace Worked

variable {n : Nat} {α β : Type}

instance : Monad (Worked n) where
  pure a := { result := a, uncut := [] }
  bind x f :=
    let next := f x.result
    { result := next.result, uncut := x.uncut ++ next.uncut }

/-- The sum, cut to the word. -/
def add (a b : BitVec n) : Worked n (BitVec n) :=
  { result := a + b, uncut := [a.toInt + b.toInt] }

/-- The difference, cut to the word. -/
def sub (a b : BitVec n) : Worked n (BitVec n) :=
  { result := a - b, uncut := [a.toInt - b.toInt] }

/-- The opposite, cut to the word. -/
def neg (a : BitVec n) : Worked n (BitVec n) :=
  { result := -a, uncut := [-a.toInt] }

/-- No operation on the way left the word, and the result satisfies `Q`. -/
def Ensures (x : Worked n α) (Q : α → Prop) : Prop :=
  (∀ k ∈ x.uncut, (Words.ofWidth n).Holds k) ∧ Q x.result

namespace Ensures

variable {P Q : α → Prop}

theorem pure {a : α} (h : Q a) : (Pure.pure a : Worked n α).Ensures Q :=
  ⟨fun _ mem => absurd mem List.not_mem_nil, h⟩

theorem bind {x : Worked n α} {f : α → Worked n β} {R : β → Prop} (hx : x.Ensures P)
    (hf : ∀ a, P a → (f a).Ensures R) : (x >>= f).Ensures R := by
  obtain ⟨held, result⟩ := hx
  obtain ⟨held', result'⟩ := hf x.result result
  refine ⟨fun k mem => ?_, result'⟩
  rcases List.mem_append.mp mem with mem | mem
  · exact held k mem
  · exact held' k mem

theorem mono {x : Worked n α} (hx : x.Ensures P) (h : ∀ a, P a → Q a) : x.Ensures Q :=
  ⟨hx.1, h _ hx.2⟩

theorem operation {a : α} {k : Int} (room : (Words.ofWidth n).Holds k) (h : Q a) :
    ({ result := a, uncut := [k] } : Worked n α).Ensures Q :=
  ⟨fun _ mem => List.mem_singleton.mp mem ▸ room, h⟩

end Ensures

/-! ## Single operations -/

theorem add_ensures {a b : BitVec n} (room : (Words.ofWidth n).Holds (a.toInt + b.toInt)) :
    (add a b).Ensures fun r => r.toInt = a.toInt + b.toInt := by
  obtain ⟨low, high⟩ := Words.holds_ofWidth_iff.mp room
  have fits : ¬a.saddOverflow b = true := by simp [BitVec.saddOverflow]; omega
  exact .operation room (BitVec.toInt_add_of_not_saddOverflow fits)

theorem sub_ensures {a b : BitVec n} (room : (Words.ofWidth n).Holds (a.toInt - b.toInt)) :
    (sub a b).Ensures fun r => r.toInt = a.toInt - b.toInt := by
  obtain ⟨low, high⟩ := Words.holds_ofWidth_iff.mp room
  have fits : ¬a.ssubOverflow b = true := by simp [BitVec.ssubOverflow]; omega
  exact .operation room (BitVec.toInt_sub_of_not_ssubOverflow fits)

theorem neg_ensures {a : BitVec n} (room : (Words.ofWidth n).Holds (-a.toInt)) :
    (neg a).Ensures fun r => r.toInt = -a.toInt := by
  obtain ⟨low, high⟩ := Words.holds_ofWidth_iff.mp room
  have fits : ¬a.negOverflow = true := by simp [BitVec.negOverflow]; omega
  exact .operation room (BitVec.toInt_neg_of_not_negOverflow fits)

/-! ## Saturating operations -/

/-- The sum, or the limit of the word that it is beyond. Nothing is cut. -/
def saturatingAdd (a b : BitVec n) : BitVec n :=
  if a.saddOverflow b then (if a.msb then .intMin n else .intMax n) else a + b

/-- The magnitude. The least word has no opposite and gives the greatest. -/
def saturatingAbs (a : BitVec n) : Worked n (BitVec n) :=
  if a = .intMin n then pure (.intMax n)
  else if a.slt 0 then neg a
  else pure a

/-- Clamps the index `p` into `[0, length]`, counting a negative one from the end. -/
def clampIndex (p length : BitVec n) : Worked n (BitVec n) := do
  let p ← fromStart p
  return if length.slt p then length else p
where
  /-- The index counted from the start, or zero if it lies in front of that. -/
  fromStart (p : BitVec n) : Worked n (BitVec n) :=
    if p.slt 0 then do
      let p ← add p length
      return if p.slt 0 then 0 else p
    else pure p

theorem slt_zero_iff {a : BitVec n} : a.slt 0 = true ↔ a.toInt < 0 := by
  rw [BitVec.slt_iff_toInt_lt]
  simp

theorem fromStart_ensures {p length : BitVec n} (nonneg : 0 ≤ length.toInt) :
    (clampIndex.fromStart length p).Ensures fun r =>
      r.toInt = if p.toInt < 0 then
        (if p.toInt + length.toInt < 0 then 0 else p.toInt + length.toInt) else p.toInt := by
  obtain ⟨low, -⟩ := Words.holds_toInt p
  obtain ⟨-, high⟩ := Words.holds_toInt length
  unfold clampIndex.fromStart
  by_cases below : p.toInt < 0
  · have room : (Words.ofWidth n).Holds (p.toInt + length.toInt) := ⟨by omega, by omega⟩
    rw [if_pos (slt_zero_iff.mpr below), if_pos below]
    refine (add_ensures room).bind fun q sum => .pure ?_
    rw [← sum]
    by_cases front : q.toInt < 0
    · rw [if_pos (slt_zero_iff.mpr front), if_pos front]
      exact BitVec.toInt_zero
    · rw [if_neg (mt slt_zero_iff.mp front), if_neg front]
  · rw [if_neg (mt slt_zero_iff.mp below), if_neg below]
    exact .pure rfl

/-- On words an index is clamped to the same place as on integers. -/
theorem clampIndex_ensures {p length : BitVec n} {k : Int} (nonneg : 0 ≤ length.toInt)
    (clamped : length.toInt = (Words.ofWidth n).clampLength k) :
    (clampIndex p length).Ensures fun r =>
      r.toInt = (Words.ofWidth n).saturateIndex p.toInt k := by
  unfold clampIndex Words.saturateIndex
  dsimp only
  rw [← clamped]
  refine (fromStart_ensures nonneg).bind fun q place => .pure ?_
  rw [← place]
  by_cases beyond : length.toInt < q.toInt
  · rw [if_pos (BitVec.slt_iff_toInt_lt.mpr beyond), if_pos beyond]
  · rw [if_neg (mt BitVec.slt_iff_toInt_lt.mp beyond), if_neg beyond]

section

variable (wide : 2 ≤ n)
include wide

theorem toInt_intMin : (BitVec.intMin n).toInt = (Words.ofWidth n).isizeMin := by
  have half : 2 ^ (n - 1) < 2 ^ n := Nat.pow_lt_pow_right (by decide) (by omega)
  rw [BitVec.toInt_intMin, Nat.mod_eq_of_lt half]
  simp [Words.ofWidth, Words.twosComplement]

theorem toInt_saturatingAdd (a b : BitVec n) :
    (saturatingAdd a b).toInt = (Words.ofWidth n).saturatingAdd a.toInt b.toInt := by
  have least := toInt_intMin wide
  have greatest : (BitVec.intMax n).toInt = (Words.ofWidth n).isizeMax := BitVec.toInt_intMax
  obtain ⟨low, high⟩ := Words.holds_toInt a
  obtain ⟨low', high'⟩ := Words.holds_toInt b
  have zero := (Words.signed_ofWidth wide).proper
  have neg := zero.isizeMin_neg
  have pos := zero.isizeMax_pos
  have overflow : a.saddOverflow b = true ↔ ¬(Words.ofWidth n).Holds (a.toInt + b.toInt) := by
    rw [Words.holds_ofWidth_iff]
    simp only [BitVec.saddOverflow, Bool.or_eq_true, decide_eq_true_eq]
    omega
  unfold saturatingAdd Words.saturatingAdd
  by_cases room : (Words.ofWidth n).Holds (a.toInt + b.toInt)
  · have fits : ¬a.saddOverflow b = true := mt overflow.mp (not_not.mpr room)
    rw [if_neg fits, BitVec.toInt_add_of_not_saddOverflow fits,
      Words.saturate_eq_self room.1 room.2]
  · -- both terms have one sign, so the sign of the first tells which limit the sum is beyond
    rw [if_pos (overflow.mpr room), BitVec.msb_eq_toInt]
    unfold Words.Holds at room
    unfold Words.saturate
    by_cases below : a.toInt < 0
    · rw [if_pos (decide_eq_true below), if_neg (by omega), if_pos (by omega), least]
    · rw [if_neg (by simpa using below), if_pos (by omega), greatest]

theorem saturatingAbs_ensures (a : BitVec n) :
    (saturatingAbs a).Ensures fun r => r.toInt = (Words.ofWidth n).saturatingAbs a.toInt := by
  have least := toInt_intMin wide
  obtain ⟨low, high⟩ := Words.holds_toInt a
  obtain ⟨pos, hmax, hmin⟩ := Words.signed_ofWidth wide
  unfold saturatingAbs Words.saturatingAbs
  by_cases unopposed : a = .intMin n
  · rw [if_pos unopposed, if_pos (unopposed ▸ least)]
    exact .pure BitVec.toInt_intMax
  · have opposed : a.toInt ≠ (Words.ofWidth n).isizeMin := by
      rw [← least]
      exact mt BitVec.eq_of_toInt_eq unopposed
    rw [if_neg unopposed, if_neg opposed]
    by_cases below : a.toInt < 0
    · have room : (Words.ofWidth n).Holds (-a.toInt) := ⟨by omega, by omega⟩
      rw [if_pos (slt_zero_iff.mpr below)]
      exact (neg_ensures room).mono fun r eq => by omega
    · rw [if_neg (mt slt_zero_iff.mp below)]
      exact .pure (by omega)

end

end Worked

end Slicing
