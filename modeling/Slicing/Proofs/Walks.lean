import Slicing.Proofs.IntegerValues
import Slicing.Proofs.Windows

/-!
# Walking an adjusted slice

An adjusted slice says which positions it stands for: those from one end of its stretch on, in steps
of its length, as long as they lie in the stretch; and if it has no step, none after the first. It
may have been made by hand, so nothing is known of its stretch and its step but what they are.

1. `Range.getElem?_toList` — a range comes to its `i`-th element exactly if that lies in its
   stretch.
2. `Window.getElem?_positions` — so a window is walked as it says, if it has a step.
3. `positionsOf_stated_iff` — without a step it is walked in steps of one, which is what it says
   only where there is no second position.

A step counts as an integer if arithmetic takes it for one, as it does with truth values.
-/

namespace Slicing

/-! ## What a window says -/

namespace Window

/-- The position that lies `i` steps of length `k` away from the end where the walk begins. -/
def place (v : Window) (k : Int) (i : Nat) : Int :=
  match v.direction with
  | .forward => v.start + i * k
  | .backward => v.stop - 1 - i * k

/--
The position that the window says is visited after `i` others, if it says that one is: the place
that many steps on, as long as it lies in the stretch, and only the first where there is no step.
-/
def stated (v : Window) (i : Nat) : Option Int :=
  match v.step with
  | some k => if v.start ≤ v.place k i ∧ v.place k i < v.stop then some (v.place k i) else none
  | none => if i = 0 ∧ v.start < v.stop then some v.first else none

/-- Of a window with one position at most, a step of one says the same as no step at all. -/
theorem stated_of_short {v : Window} (step : v.step = none) (short : v.stop ≤ v.start + 1)
    (i : Nat) : ({ v with step := some 1 } : Window).stated i = v.stated i := by
  unfold stated place first
  rw [step]
  dsimp only
  cases v.direction with
  | forward =>
    by_cases zero : i = 0
    · subst zero
      have first : v.start + ((0 : Nat) : Int) * 1 = v.start := by omega
      simp only [first, le_refl, true_and]
    · have beyond : ¬(v.start ≤ v.start + i * 1 ∧ v.start + i * 1 < v.stop) := by omega
      simp only [zero, false_and, if_false, beyond]
  | backward =>
    by_cases zero : i = 0
    · subst zero
      have last : v.stop - 1 - ((0 : Nat) : Int) * 1 = v.stop - 1 := by omega
      have some : (v.start ≤ v.stop - 1 ∧ v.stop - 1 < v.stop) ↔ v.start < v.stop := by omega
      simp only [last, some, true_and]
    · have beyond : ¬(v.start ≤ v.stop - 1 - i * 1 ∧ v.stop - 1 - i * 1 < v.stop) := by omega
      simp only [zero, false_and, if_false, beyond]

/-- A second position is stated where there is a step of one, and not where there is none. -/
theorem stated_one_ne {v : Window} (step : v.step = none) (long : v.start + 1 < v.stop) :
    ({ v with step := some 1 } : Window).stated 1 ≠ v.stated 1 := by
  have inside : v.start ≤ ({ v with step := some 1 } : Window).place 1 1 ∧
      ({ v with step := some 1 } : Window).place 1 1 < v.stop := by
    unfold place
    cases v.direction <;> dsimp only <;> omega
  unfold stated
  rw [step]
  simp [inside]

end Window

/-! ## How far a range comes -/

namespace Range

variable {r : Range}

/-- The `i`-th element is reached if that many steps stay within the stretch. -/
theorem lt_size_iff {i : Nat} : i < r.size ↔ i * r.step.natAbs < r.span := by
  have pos : 0 < r.step.natAbs := Int.natAbs_pos.mpr r.step_ne_zero
  rw [size_eq, Nat.lt_div_iff_mul_lt pos]
  omega

theorem getElem?_toList (r : Range) (i : Nat) :
    r.toList[i]? = if i * r.step.natAbs < r.span then some (r.nth i) else none := by
  unfold toList
  by_cases reached : i < r.size
  · rw [if_pos (lt_size_iff.mp reached)]
    simp [reached]
  · rw [if_neg (mt lt_size_iff.mpr reached)]
    simpa using reached

/-- The size of a range that is not empty: its first element and one for each step that fits. -/
theorem size_of_span_ne_zero (h : r.span ≠ 0) : r.size = (r.span - 1) / r.step.natAbs + 1 := by
  have pos : 0 < r.step.natAbs := Int.natAbs_pos.mpr r.step_ne_zero
  have rest : r.span + r.step.natAbs - 1 = r.span - 1 + r.step.natAbs := by omega
  rw [size_eq, rest, Nat.add_div_right _ pos]

end Range

/-! ## Walking a window -/

namespace Window

variable {v : Window} {k : Int} {r : Range}

/-- With a step that leads on, the positions of a window are a range over its stretch. -/
theorem range_of_positions (step : v.step.getD 1 = k) (pos : 0 < k)
    (positions : v.positions? = some r) :
    r.step.natAbs = k.natAbs ∧ r.span = (v.stop - v.start).toNat ∧ ∀ i, r.nth i = v.place k i := by
  have nonzero : k ≠ 0 := pos.ne'
  unfold positions? at positions
  unfold place
  rw [step] at positions
  cases direction : v.direction with
  | forward =>
    simp only [direction, Range.of?, ne_eq, nonzero, not_false_eq_true, dif_pos,
      Option.some.injEq] at positions
    subst positions
    refine ⟨rfl, ?_, fun i => rfl⟩
    simp [Range.span, pos]
  | backward =>
    simp only [direction, Range.of?, ne_eq, neg_eq_zero, nonzero, not_false_eq_true, dif_pos,
      Option.some.injEq] at positions
    subst positions
    have down : ¬0 < -k := by omega
    refine ⟨Int.natAbs_neg k, ?_, fun i => ?_⟩
    · simp only [Range.span, down, if_false]
      omega
    · simp only [Range.nth, Int.mul_neg]
      omega

/-- A window with a step is walked as it says. -/
theorem getElem?_positions (step : v.step = some k) (pos : 0 < k)
    (positions : v.positions? = some r) (i : Nat) : r.toList[i]? = v.stated i := by
  obtain ⟨magnitude, span, nth⟩ := range_of_positions (by rw [step]; rfl) pos positions
  have reached : i * r.step.natAbs < r.span ↔ v.start ≤ v.place k i ∧ v.place k i < v.stop := by
    have cast : ((i * k.natAbs : Nat) : Int) = i * k := by
      rw [Int.natCast_mul, Int.natCast_natAbs, abs_of_pos pos]
    have nonneg : 0 ≤ (i : Int) * k := Int.mul_nonneg (Int.natCast_nonneg i) pos.le
    rw [magnitude, span]
    unfold place
    cases v.direction <;> dsimp only <;> omega
  rw [Range.getElem?_toList, nth]
  unfold stated
  rw [step]
  exact if_congr reached rfl rfl

/-- How many positions a window has. -/
theorem size_positions (step : v.step.getD 1 = k) (pos : 0 < k)
    (positions : v.positions? = some r) :
    (r.size : Int) = if v.stop ≤ v.start then 0 else (v.stop - v.start - 1) / k + 1 := by
  obtain ⟨magnitude, span, -⟩ := range_of_positions step pos positions
  by_cases empty : v.stop ≤ v.start
  · rw [if_pos empty, (Range.size_eq_zero_iff r).mpr (by omega)]
    rfl
  · have width : ((r.span - 1 : Nat) : Int) = v.stop - v.start - 1 := by omega
    have length : (k.natAbs : Int) = k := by omega
    rw [if_neg empty, Range.size_of_span_ne_zero (by omega), magnitude, Int.natCast_add,
      Int.natCast_ediv, width, length]
    rfl

end Window

/-! ## Walking an adjusted slice -/

section

variable {w : World} {x : Value} {a : Adjusted} {k : Option Int}

/-- With a step that leads on, or with none, an adjusted slice can be walked. -/
theorem positionsOf_of_pos (c : Callbacks) (held : w.HoldsAdjusted x a) (counts : a.step.StepIs k)
    (pos : 0 < k.getD 1) :
    ∃ r : Range,
      (a.shown k).positions? = some r ∧
        positionsOf c x w = { outcome := .ok r, events := [], world := w } := by
  obtain ⟨r, positions, -⟩ := Window.walked_of_pos (v := a.shown k) pos
  exact ⟨r, positions, positionsOf_apply_of_some held counts positions⟩

/--
An adjusted slice, made by hand or not, with a step that counts as a positive integer or with none.
Its positions are those that it states if a step of one is put where there is none. So they are
those that it states itself exactly if it has a step or cannot have a second position.
-/
theorem positionsOf_stated_iff (c : Callbacks) (held : w.HoldsAdjusted x a)
    (counts : a.step.StepIs k) (pos : ∀ n ∈ k, 1 ≤ n) :
    ∃ r : Range,
      positionsOf c x w = { outcome := .ok r, events := [], world := w } ∧
        (∀ i, r.toList[i]? = (a.shown (some (k.getD 1))).stated i) ∧
        ((∀ i, r.toList[i]? = (a.shown k).stated i) ↔
          (k = none → a.stretch.stop ≤ a.stretch.start + 1)) := by
  have positive : 0 < k.getD 1 := by
    cases k with
    | none => exact one_pos
    | some n => exact pos n rfl
  obtain ⟨r, positions, run⟩ := positionsOf_of_pos c held counts positive
  have paced : ∀ i, r.toList[i]? = (a.shown (some (k.getD 1))).stated i :=
    Window.getElem?_positions rfl positive positions
  refine ⟨r, run, paced, ?_⟩
  cases k with
  | some n => exact ⟨fun _ => nofun, fun _ => paced⟩
  | none =>
    constructor
    · intro stated _
      by_contra long
      have second := (paced 1).symm.trans (stated 1)
      exact Window.stated_one_ne (v := a.shown none) rfl (not_le.mp long) second
    · intro short i
      exact (paced i).trans (Window.stated_of_short (v := a.shown none) rfl (short rfl) i)

end

/-- A stretch of five positions, walked backward in steps of three and forward without a step. -/
def World.handMade : World :=
  { World.initial .host with
    cells := #[.tuple [], .range (.unit 0 5), .adjusted (.object 1) (.int 3) .backward,
      .adjusted (.object 1) .null .forward] }

/-- With its step of three the stretch is walked as it says, from its last position on. -/
theorem positionsOf_stated_iff_backward :
    World.handMade.HoldsAdjusted (.object 2)
        { stretch := .unit 0 5, step := .int 3, direction := .backward } ∧
      (Value.int 3).StepIs (some 3) ∧ (∀ n ∈ some (3 : Int), 1 ≤ n) ∧
      ∃ r : Range,
        positionsOf (.ofDepth 0) (.object 2) .handMade =
            { outcome := .ok r, events := [], world := .handMade } ∧
          r.toList = [4, 1] ∧
          ∀ i, r.toList[i]? =
            ({ start := 0, stop := 5, step := some 3, direction := .backward } :
              Window).stated i := by
  have held : World.handMade.HoldsAdjusted (.object 2)
      { stretch := .unit 0 5, step := .int 3, direction := .backward } := ⟨.object 1, rfl, rfl⟩
  have counts : (Value.int 3).StepIs (some 3) := rfl
  have pos : ∀ n ∈ some (3 : Int), 1 ≤ n := by simp
  obtain ⟨r, run, -, stated⟩ := positionsOf_stated_iff (.ofDepth 0) held counts pos
  have visited : r = { start := 4, stop := -1, step := -3, step_ne_zero := by decide } :=
    Except.ok.inj ((congrArg (fun run : Run Range => run.outcome) run).symm.trans rfl)
  refine ⟨held, counts, pos, r, run, ?_, stated.mpr nofun⟩
  rw [visited]
  rfl

/-- Without a step there should be no position after the first, but all five are visited. -/
theorem positionsOf_stepless :
    ∃ r : Range,
      positionsOf (.ofDepth 0) (.object 3) .handMade =
          { outcome := .ok r, events := [], world := .handMade } ∧
        r.toList = [0, 1, 2, 3, 4] ∧
        r.toList[1]? ≠
          ({ start := 0, stop := 5, step := none, direction := .forward } : Window).stated 1 := by
  refine ⟨.unit 0 5, rfl, rfl, ?_⟩
  decide

end Slicing
