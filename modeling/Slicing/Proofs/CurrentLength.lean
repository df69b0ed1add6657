import Slicing.Proofs.Agreement
import Slicing.Proofs.Measuring
import Slicing.Proofs.OneCall
import Slicing.Session

/-!
# The length after the last call

A bound that is asked may lengthen or shorten the very sequence that is about to be indexed. So the
length is read when all bounds have answered, and nothing calls back between that and the result.

* `yields_currentPositions_iff` — what a resolved slice gives is its window over the length now
* `yields_underLock` — a lock changes nothing of that, once it has been left again
* `positionsFor_current` — so the positions are those of the sequence as it is found afterwards
-/

namespace Slicing

/-! ## Without a lock -/

/-- The positions that a resolved slice selects are those of its window over the length now. -/
theorem yields_currentPositions_iff {s : Saturated} {sequence : Value} {w w' : World} {r : Range} :
    (currentPositions s sequence).Yields w r w' ↔
      ∃ n, w.lengthOf sequence = .ok n ∧ 0 ≤ n ∧
        (s.window w.words n).positions? = some r ∧ w' = w := by
  unfold currentPositions adjust positions
  simp only [Eval.yields_bind_iff, Eval.yields_words_iff, Eval.yields_orRaise_iff]
  constructor
  · rintro ⟨n, w₁, hn, window, w₂, ⟨_, _, ⟨rfl, rfl⟩, hwindow, rfl⟩, hr, rfl⟩
    rw [Eval.Yields, measure_apply] at hn
    obtain ⟨hn, rfl⟩ := hn
    have nonneg : ¬n < 0 := by
      rw [← Saturated.adjust?_eq_none_iff, hwindow]
      simp
    rw [Saturated.adjust?, if_neg nonneg] at hwindow
    exact ⟨n, hn, by omega, by rwa [Option.some.inj hwindow], rfl⟩
  · rintro ⟨n, hn, nonneg, hr, rfl⟩
    refine ⟨n, w', ⟨?_, ?_⟩, _, _, ⟨_, _, ⟨rfl, rfl⟩, ?_, rfl⟩, hr, rfl⟩
    · rw [measure_apply, hn]
    · rw [measure_apply]
    · exact if_neg (Int.not_lt.mpr nonneg)

/-! ## Under a lock -/

/-- If a lock that is left hands a result on, the computation under it had that result. -/
theorem yields_leave {α : Type} {l : Lock} {outcome : Except Fault α} {w w' : World} {a : α}
    (h : (Eval.leave l outcome).Yields w (some a) w') :
    outcome = .ok a ∧ w' = { w with held := w.held - 1 } := by
  obtain ⟨⟨⟩, _, ⟨-, rfl⟩, h⟩ := Eval.yields_bind_iff.mp h
  cases outcome with
  | ok b =>
    obtain ⟨⟨⟩, _, ⟨-, rfl⟩, h⟩ := Eval.yields_bind_iff.mp h
    cases herr : l.exitError with
    | some e => simp [herr, Eval.Yields, Eval.raise_apply] at h
    | none =>
      rw [herr, Eval.yields_pure_iff, Option.some.injEq] at h
      exact ⟨congrArg _ h.1.symm, h.2⟩
  | error fault =>
    cases fault with
    | exhausted => simp [Eval.Yields, Eval.bind_apply, Eval.emit_apply, Eval.exhausted] at h
    | raised e =>
      obtain ⟨⟨⟩, _, -, h⟩ := Eval.yields_bind_iff.mp h
      split at h
      · simp [Eval.Yields, Eval.raise_apply] at h
      · split at h <;> simp [Eval.Yields, Eval.raise_apply, Eval.pure_apply] at h

theorem yields_guarded {α : Type} {l : Lock} {x : Eval α} {w w' : World} {a : α}
    (frame : ∀ w, (x w).world = w) (h : (Eval.guarded l x).Yields w (some a) w') :
    w' = w ∧ (x { w with held := w.held + 1 }).outcome = .ok a := by
  obtain ⟨⟨⟩, _, ⟨-, rfl⟩, h⟩ := Eval.yields_bind_iff.mp h
  cases refused : l.enterError with
  | some e => simp [refused, Eval.Yields, Eval.raise_apply] at h
  | none =>
    rw [refused] at h
    obtain ⟨⟨⟩, _, ⟨-, rfl⟩, h⟩ := Eval.yields_bind_iff.mp h
    obtain ⟨outcome, _, ⟨houtcome, rfl⟩, h⟩ := Eval.yields_bind_iff.mp h
    obtain ⟨rfl, hw⟩ := yields_leave h
    refine ⟨?_, Except.ok.inj houtcome⟩
    rw [hw, Eval.settle, frame]
    rfl

/-- A lock that has been left again shows in nothing but the events. -/
theorem yields_underLock {α : Type} {lock : Value} {x : Eval α} {w w' : World} {a : α}
    (frame : ∀ w, (x w).world = w) (h : (underLock lock x).Yields w (some a) w') :
    w' = w ∧ ∃ held : Nat, (x { w with held := held }).outcome = .ok a := by
  unfold underLock at h
  by_cases free : lock = .null
  · rw [if_pos free] at h
    obtain ⟨b, w₁, ⟨hb, rfl⟩, h⟩ := Eval.yields_bind_iff.mp h
    obtain ⟨hab, rfl⟩ := Eval.yields_pure_iff.mp h
    refine ⟨frame w, w.held, ?_⟩
    rw [Option.some.inj hab]
    exact hb
  · rw [if_neg free] at h
    obtain ⟨_, _, ⟨hw, rfl⟩, h⟩ := Eval.yields_bind_iff.mp h
    obtain rfl := Except.ok.inj hw
    split at h
    · obtain ⟨hworld, houtcome⟩ := yields_guarded frame h
      exact ⟨hworld, _, houtcome⟩
    · simp [Eval.Yields, Eval.raise_apply] at h

/-! ## The positions of a sequence as it is found -/

/--
The positions that are returned are those that the integers which the bounds answered in this call
select exactly from the length which the sequence has when the call returns. Each bound is called
once at most, and the world is left as the last of these calls left it. Whatever the bounds did to
the sequence, none of the positions lies outside it.
-/
theorem positionsFor_current {c : Callbacks} {fields : Members} {sequence lock : Value}
    {w : World} {m : Int} {r : Range} (one_le : 1 ≤ m)
    (steady : SteadyWords c fields w (.twosComplement m))
    (returned : (positionsFor c fields sequence lock w).outcome = .ok (some r)) :
    ∃ (start stop step : Option Int) (n : Int) (exact : Range),
      Answered c fields Field.inOrder w [step, start, stop]
          (positionsFor c fields sequence lock w).world ∧
        (measure sequence (positionsFor c fields sequence lock w).world).outcome = .ok n ∧
        (exactPositions c (.ofInts start stop step) (min n m)
          (positionsFor c fields sequence lock w).world).outcome = .ok exact ∧
        r.toList = exact.toList ∧ ∀ p ∈ r.toList, 0 ≤ p ∧ p < n := by
  have word := Words.signed_twosComplement one_le
  obtain ⟨s, w₁, hresolve, hlock⟩ := Eval.yields_bind_iff.mp ⟨returned, rfl⟩
  obtain ⟨start, stop, step, asked, nonzero, rfl, rfl⟩ :=
    (yields_resolve_iff word.proper steady).mp hresolve
  -- the length is read in a world that differs from the last one in the locks held, if at all
  obtain ⟨world, held, houtcome⟩ :=
    yields_underLock (fun w => (currentPositions_run _ sequence w).1) hlock
  obtain ⟨n, hn, nonneg, window, -⟩ := yields_currentPositions_iff.mp ⟨houtcome, rfl⟩
  rw [lengthOf_held] at hn
  have bounded : 0 ≤ min n m := by omega
  obtain ⟨r', hr', list⟩ := positions?_window_ofIntegers word (getD_one_ne_zero nonzero) .base
    start stop nonneg
  rw [show World.words _ = _ from steady.afterStop, hr'] at window
  obtain rfl := Option.some.inj window
  -- the pace of a step always fits the unsigned word, which is more than twice the signed one
  have holds : min |step.getD 1| m ≤ (Words.twosComplement m).usizeMax := by
    simp only [Words.twosComplement]
    omega
  rw [if_pos holds] at list
  refine ⟨start, stop, step, n, _, ?_, ?_, ?_, list, ?_⟩
  · exact answered_inOrder_iff.mpr ⟨asked, world⟩
  · rw [show (positionsFor c fields sequence lock w).world = _ from world, measure_apply, hn]
  · rw [exactPositions_eq c (Slice.bounds_ofInts start stop step) nonzero bounded, Eval.pure_apply]
  · intro p hp
    rw [list, Indices.toList_range (getD_one_ne_zero nonzero) bounded] at hp
    have := mem_selected hp
    omega

/-- An object whose index is -1, and which lengthens the sequence named `q` by two when asked. -/
def lengthening : Script :=
  .mk "p" "Probe" (some [.gives (.int (-1))]) (some ("q", 2)) [] none

/-- A world with a sequence of three elements, a scripted object and a lock, in a narrow word. -/
def World.lengthened : World :=
  { cells := #[.tuple [], .sequence "q" 3 none, .scripted lengthening 0,
      .lock { name := "l", suppresses := true, enterError := none, exitError := none }]
    words := .twosComplement 4
    held := 0
    names := [("q", .object 1)] }

/-- The bounds of a walk backward from where that object says. -/
def Bounds.lengthening : Bounds :=
  { start := .object 2, stop := .null, step := .int (-2) }

/--
The object is called once and answers -1. The sequence has five elements when it is indexed, one
more than the word can express.
-/
theorem positionsFor_current_lengthened :
    (1 : Int) ≤ 4 ∧
      SteadyWords (.ofDepth 1) Bounds.lengthening.members .lengthened (.twosComplement 4) ∧
      (positionsFor (.ofDepth 1) Bounds.lengthening.members (.object 1) (.object 3)
        .lengthened).outcome = .ok (some ⟨3, -1, -2, by decide⟩) ∧
      Answered (.ofDepth 1) Bounds.lengthening.members Field.inOrder .lengthened
        [some (-2), some (-1), none]
        (positionsFor (.ofDepth 1) Bounds.lengthening.members (.object 1) (.object 3)
          .lengthened).world ∧
      (measure (.object 1) (positionsFor (.ofDepth 1) Bounds.lengthening.members (.object 1)
        (.object 3) .lengthened).world).outcome = .ok 5 ∧
      ∃ exact : Range,
        (exactPositions (.ofDepth 1) (.ofInts (some (-1)) none (some (-2))) (min 5 4)
          (positionsFor (.ofDepth 1) Bounds.lengthening.members (.object 1) (.object 3)
            .lengthened).world).outcome = .ok exact ∧
          [3, 1] = exact.toList ∧ ∀ p ∈ ([3, 1] : List Int), 0 ≤ p ∧ p < 5 := by
  have steady : SteadyWords (.ofDepth 1) Bounds.lengthening.members .lengthened
      (.twosComplement 4) :=
    .of_each (by decide) (by decide) (by decide) (by decide)
  have returned : (positionsFor (.ofDepth 1) Bounds.lengthening.members (.object 1) (.object 3)
      .lengthened).outcome = .ok (some ⟨3, -1, -2, by decide⟩) := by decide
  obtain ⟨start, stop, step, n, exact, answered, measured, chosen, list, inside⟩ :=
    positionsFor_current (by decide) steady returned
  obtain ⟨asked, -⟩ := answered_inOrder_iff.mp answered
  obtain rfl : some (-2) = step := Except.ok.inj asked.step
  obtain rfl : some (-1) = start := Except.ok.inj asked.start
  obtain rfl : none = stop := Except.ok.inj asked.stop
  obtain rfl : 5 = n := Except.ok.inj measured
  exact ⟨by decide, steady, returned, answered, measured, exact, chosen, list, inside⟩

end Slicing
