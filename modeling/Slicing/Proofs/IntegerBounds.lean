import Slicing.Proofs.Asking

/-!
# Integer bounds

Bounds that are integers or `null` answer at once, and asking them leaves the world as it is. So
for such bounds resolution and exact indices are functions of the integers alone.
-/

namespace Slicing

/-- The bounds that are these integers, and `null` where there is none. -/
def Bounds.ofInts (start stop step : Option Int) : Bounds :=
  { start := .ofInt? start, stop := .ofInt? stop, step := .ofInt? step }

/-- The slice of three bounds that are integers, or `null` where there is none. -/
def Slice.ofInts (start stop step : Option Int) : Slice :=
  { lineage := .base, start := .ofInt? start, stop := .ofInt? stop, step := .ofInt? step }

theorem Slice.bounds_ofInts (start stop step : Option Int) :
    (Slice.ofInts start stop step).bounds = .ofInts start stop step := by
  cases start <;> cases step <;> rfl

theorem toIndex?_ofInt? (c : Callbacks) (answer : Option Int) :
    toIndex? c (.ofInt? answer) = pure answer := by
  cases answer with
  | none => rfl
  | some n =>
    show (some <$> indexOr c (indexRefusal none) (.int n)) = pure (some n)
    rw [indexOr_int, map_pure]

section

variable (c : Callbacks) (start stop step : Option Int) (w : World)

/-! ## Resolution -/

theorem askField_ofInts_world (field : Field) :
    (askField c (Bounds.ofInts start stop step).members field w).world = w := by
  have h : ∀ answer : Option Int, (toIndex? c (.ofInt? answer) w).world = w := by
    intro answer
    rw [toIndex?_ofInt?]
    rfl
  cases field <;> exact h _

theorem afterAsking_ofInts (fields : List Field) :
    w.afterAsking c (Bounds.ofInts start stop step).members fields = w := by
  induction fields with
  | nil => rfl
  | cons field fields ih => rw [World.afterAsking, askField_ofInts_world, ih]

theorem asked_ofInts : Asked c (Bounds.ofInts start stop step).members w start stop step := by
  have h : ∀ (answer : Option Int) (w : World),
      (toIndex? c (.ofInt? answer) w).outcome = .ok answer := by
    intro answer w
    rw [toIndex?_ofInt?]
    rfl
  exact ⟨h step _, h start _, h stop _⟩

theorem steadyWords_ofInts : SteadyWords c (Bounds.ofInts start stop step).members w w.words := by
  intro fields _
  rw [afterAsking_ofInts]

theorem yields_resolve_ofInts (proper : w.words.Proper) (nonzero : step ≠ some 0)
    (lineage : Lineage) :
    (resolve c lineage (Bounds.ofInts start stop step).members).Yields w
      (.ofIntegers w.words lineage start stop (step.getD 1)) w := by
  refine (yields_resolve_iff proper (steadyWords_ofInts c start stop step w)).mpr ?_
  exact ⟨start, stop, step, asked_ofInts c start stop step w, nonzero, rfl,
    (afterAsking_ofInts c start stop step w _).symm⟩

/-! ## Exact indices -/

theorem normalise_ofInts {step : Option Int} (nonzero : step ≠ some 0) (length : Int) :
    normalise c (Bounds.ofInts start stop step).members length =
      pure (Indices.ofBounds start stop (step.getD 1) length) := by
  unfold normalise
  simp only [Bounds.members_apply, Bounds.get, Bounds.ofInts, Eval.ofExcept_ok, pure_bind,
    toIndex?_ofInt?, checkStep_of_ne nonzero]

theorem indices_ofInts {step : Option Int} (nonzero : step ≠ some 0) {length : Int}
    (nonneg : 0 ≤ length) :
    indices c (Bounds.ofInts start stop step) (.int length) =
      pure (Indices.ofBounds start stop (step.getD 1) length) := by
  unfold indices toIndex
  rw [indexOr_int, pure_bind, if_neg (Int.not_lt.mpr nonneg), normalise_ofInts c _ _ nonzero]

end

end Slicing
