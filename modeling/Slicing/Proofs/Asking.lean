import Slicing.Resolution

/-!
# Asking the bounds

Resolution does two things with each bound: it asks the bound for its index, which may call back,
and it saturates the answer, which cannot. Here the two are taken apart.

* `Asked` — what the three bounds answer when each is asked once, the step first
* `resolve_eq` — resolution is asking and saturating by turns
* `yields_resolve_iff` — what it gives is a function of the answers and of the words, and all that
  it leaves behind is what asking left behind

The limits of the word are looked up anew between the calls, and a call may set them. `SteadyWords`
says that none did.
-/

namespace Slicing

namespace Eval

variable {α β : Type}

/-- From the world `w`, `x` gives `a` and leaves the world `w'`, whatever happens on the way. -/
def Yields (x : Eval α) (w : World) (a : α) (w' : World) : Prop :=
  (x w).outcome = .ok a ∧ (x w).world = w'

theorem yields_pure_iff {a b : α} {w w' : World} :
    (pure a : Eval α).Yields w b w' ↔ b = a ∧ w' = w := by
  simp [Yields, pure_apply, eq_comm]

theorem yields_words_iff {words : Words} {w w' : World} :
    Eval.words.Yields w words w' ↔ words = w.words ∧ w' = w := by
  simp [Yields, words_apply, eq_comm]

theorem yields_orRaise_iff {e : Error} {o : Option α} {a : α} {w w' : World} :
    (orRaise e o).Yields w a w' ↔ o = some a ∧ w' = w := by
  cases o with
  | none => simp [Yields, raise_apply]
  | some b => rw [orRaise_some, yields_pure_iff, Option.some.injEq, eq_comm (a := a)]

theorem yields_bind_iff {x : Eval α} {f : α → Eval β} {w w'' : World} {b : β} :
    (x >>= f).Yields w b w'' ↔ ∃ a w', x.Yields w a w' ∧ (f a).Yields w' b w'' := by
  unfold Yields
  rw [bind_apply]
  cases hx : (x w).outcome with
  | error fault => simp
  | ok a =>
    constructor
    · intro h
      exact ⟨a, _, ⟨rfl, rfl⟩, h⟩
    · rintro ⟨_, _, ⟨⟨⟩, rfl⟩, h⟩
      exact h

theorem yields_map_iff {x : Eval α} {f : α → β} {w w' : World} {b : β} :
    (f <$> x).Yields w b w' ↔ ∃ a, x.Yields w a w' ∧ b = f a := by
  rw [← bind_pure_comp]
  simp only [yields_bind_iff, yields_pure_iff]
  constructor
  · rintro ⟨a, w₁, hx, rfl, rfl⟩
    exact ⟨a, hx, rfl⟩
  · rintro ⟨a, hx, rfl⟩
    exact ⟨a, w', hx, rfl, rfl⟩

theorem bind_outcome_ok_iff {x : Eval α} {f : α → Eval β} {w : World} {b : β} :
    ((x >>= f) w).outcome = .ok b ↔ ∃ a w', x.Yields w a w' ∧ (f a w').outcome = .ok b := by
  constructor
  · intro h
    obtain ⟨a, w', hx, hf, -⟩ := yields_bind_iff.mp ⟨h, rfl⟩
    exact ⟨a, w', hx, hf⟩
  · rintro ⟨a, w', hx, hf⟩
    exact (yields_bind_iff.mpr ⟨a, w', hx, hf, rfl⟩).1

end Eval

/-! ## Words on both sides of zero -/

/-- The signed word holds integers on both sides of zero. -/
structure Words.Proper (w : Words) : Prop where
  isizeMin_neg : w.isizeMin < 0
  isizeMax_pos : 0 < w.isizeMax

namespace Words

variable {w : Words}

theorem Proper.isizeMin_le (h : w.Proper) : w.isizeMin ≤ w.isizeMax := by
  have := h.isizeMin_neg
  have := h.isizeMax_pos
  omega

/-- Saturating keeps an integer on its side of zero. -/
theorem sign_saturate (h : w.Proper) (n : Int) : (w.saturate n).sign = n.sign := by
  have negative := h.isizeMin_neg
  have positive := h.isizeMax_pos
  unfold saturate
  split
  · rw [Int.sign_eq_one_of_pos positive, Int.sign_eq_one_of_pos (by omega)]
  · split
    · rw [Int.sign_eq_neg_one_of_neg negative, Int.sign_eq_neg_one_of_neg (by omega)]
    · rfl

theorem saturate_eq_zero_iff (h : w.Proper) {n : Int} : w.saturate n = 0 ↔ n = 0 := by
  rw [← Int.sign_eq_zero_iff_zero, sign_saturate h, Int.sign_eq_zero_iff_zero]

theorem saturate_neg_iff (h : w.Proper) {n : Int} : w.saturate n < 0 ↔ n < 0 := by
  rw [← Int.sign_eq_neg_one_iff_neg, sign_saturate h, Int.sign_eq_neg_one_iff_neg]

theorem map_saturate_eq_zero_iff (h : w.Proper) {answer : Option Int} :
    answer.map w.saturate = some 0 ↔ answer = some 0 := by
  simp [Option.map_eq_some_iff, saturate_eq_zero_iff h]

/-- An answer that has been saturated is within the word, and so is a default that fits it. -/
theorem saturate_getD_saturated (le : w.isizeMin ≤ w.isizeMax) (answer : Option Int) {d : Int}
    (low : w.isizeMin ≤ d) (high : d ≤ w.isizeMax) :
    w.saturate ((answer.map w.saturate).getD d) = (answer.map w.saturate).getD d := by
  cases answer with
  | some n => exact saturate_saturate le n
  | none => exact saturate_eq_self low high

/-- A step of one, which is what none stands for, fits every word. -/
theorem map_saturate_getD_one (h : w.Proper) (answer : Option Int) :
    (answer.map w.saturate).getD 1 = w.saturate (answer.getD 1) := by
  have low := h.isizeMin_neg
  have high := h.isizeMax_pos
  cases answer with
  | some n => rfl
  | none =>
    have one : w.saturate 1 = 1 := saturate_eq_self (by omega) (by omega)
    exact one.symm

end Words

/-! ## One bound -/

/-- Asks the bound in a field for its index. Nothing is asked of `null`. -/
def askField (c : Callbacks) (m : Members) (field : Field) : Eval (Option Int) := do
  toIndex? c (← Eval.ofExcept (m field))

/-- Saturates the answer of a bound, and records it if that changed it. -/
def saturateAnswer (field : Field) : Option Int → Eval (Option Int)
  | none => pure none
  | some n => return some (← saturateField field n)

/-- The record of an answer that does not fit the word. -/
def saturationLog (words : Words) (field : Field) : Option Int → List Event
  | none => []
  | some n => if words.saturate n ≠ n then [.saturated field n (words.saturate n)] else []

theorem saturateAnswer_apply (field : Field) (answer : Option Int) (w : World) :
    saturateAnswer field answer w =
      { outcome := .ok (answer.map w.words.saturate)
        events := saturationLog w.words field answer
        world := w } := by
  cases answer with
  | none => rfl
  | some n =>
    unfold saturateAnswer saturateField saturationLog
    by_cases same : w.words.saturate n = n
    · simp [Eval.bind_apply, Eval.words_apply, Eval.pure_apply, same]
    · simp [Eval.bind_apply, Eval.map_apply, Eval.words_apply, Eval.emit_apply, Eval.pure_apply,
        Except.map, same]

theorem resolveField_eq (c : Callbacks) (field : Field) (v : Value) :
    resolveField c field v = toIndex? c v >>= saturateAnswer field := by
  unfold resolveField
  congr 1

theorem checkStep_of_ne {step : Option Int} (h : step ≠ some 0) :
    checkStep step = pure (step.getD 1) := by
  cases step with
  | none => rfl
  | some n => simp_all [checkStep]

theorem yields_checkStep_iff {step : Option Int} {w w' : World} {n : Int} :
    (checkStep step).Yields w n w' ↔ step ≠ some 0 ∧ n = step.getD 1 ∧ w' = w := by
  by_cases zero : step = some 0
  · simp [zero, checkStep, Eval.Yields, Eval.raise_apply]
  · rw [checkStep_of_ne zero, Eval.yields_pure_iff]
    simp [zero]

theorem yields_saturateAnswer_iff {field : Field} {answer result : Option Int} {w w' : World} :
    (saturateAnswer field answer).Yields w result w' ↔
      result = answer.map w.words.saturate ∧ w' = w := by
  simp [Eval.Yields, saturateAnswer_apply, eq_comm]

/-! ## All three bounds -/

/-- The world after the bounds in some fields have been asked, one after the other. -/
def World.afterAsking (c : Callbacks) (m : Members) : List Field → World → World
  | [], w => w
  | field :: fields, w => afterAsking c m fields (askField c m field w).world

/-- The order in which the bounds are asked. The step comes first, as it decides the defaults. -/
def Field.inOrder : List Field :=
  [.step, .start, .stop]

/-- The three bounds answer with these integers, or with none, when each is asked once in order. -/
structure Asked (c : Callbacks) (m : Members) (w : World) (start stop step : Option Int) :
    Prop where
  step : (askField c m .step w).outcome = .ok step
  start : (askField c m .start (w.afterAsking c m [.step])).outcome = .ok start
  stop : (askField c m .stop (w.afterAsking c m [.step, .start])).outcome = .ok stop

/-- The limits of the word are `words` before the bounds are asked and after each of the calls. -/
def SteadyWords (c : Callbacks) (m : Members) (w : World) (words : Words) : Prop :=
  ∀ fields, fields <+: Field.inOrder → (w.afterAsking c m fields).words = words

namespace SteadyWords

variable {c : Callbacks} {m : Members} {w : World} {words : Words}

theorem afterStep (h : SteadyWords c m w words) : (w.afterAsking c m [.step]).words = words :=
  h _ ⟨[.start, .stop], rfl⟩

theorem afterStart (h : SteadyWords c m w words) :
    (w.afterAsking c m [.step, .start]).words = words :=
  h _ ⟨[.stop], rfl⟩

theorem afterStop (h : SteadyWords c m w words) :
    (w.afterAsking c m Field.inOrder).words = words :=
  h _ ⟨[], rfl⟩

/-- There are four moments at which the words can be looked at. -/
theorem of_each (before : w.words = words)
    (afterStep : (w.afterAsking c m [.step]).words = words)
    (afterStart : (w.afterAsking c m [.step, .start]).words = words)
    (afterStop : (w.afterAsking c m Field.inOrder).words = words) : SteadyWords c m w words := by
  intro fields h
  unfold Field.inOrder at h
  rcases List.prefix_cons_iff.mp h with rfl | ⟨fields, rfl, h₁⟩
  · exact before
  rcases List.prefix_cons_iff.mp h₁ with rfl | ⟨fields, rfl, h₂⟩
  · exact afterStep
  rcases List.prefix_cons_iff.mp h₂ with rfl | ⟨fields, rfl, h₃⟩
  · exact afterStart
  · rw [List.prefix_nil.mp h₃]
    exact afterStop

end SteadyWords

/-! ## Resolution -/

/-- The saturated slice that integers stand for, with the default in place of one not given. -/
def Saturated.ofIntegers (w : Words) (lineage : Lineage) (start stop : Option Int) (step : Int) :
    Saturated :=
  { lineage
    start := (start.map w.saturate).getD (defaultStart w (w.saturate step))
    stop := (stop.map w.saturate).getD (defaultStop w (w.saturate step))
    step := w.saturate step }

theorem getD_one_ne_zero {step : Option Int} (h : step ≠ some 0) : step.getD 1 ≠ 0 := by
  cases step with
  | none => simp
  | some n => simpa using h

/-- Resolution is asking and saturating by turns. -/
theorem resolve_eq (c : Callbacks) (lineage : Lineage) (m : Members) :
    resolve c lineage m = (do
      let step ← checkStep (← saturateAnswer .step (← askField c m .step))
      let start ← saturateAnswer .start (← askField c m .start)
      let start := start.getD (Saturated.defaultStart (← Eval.words) step)
      let stop ← saturateAnswer .stop (← askField c m .stop)
      let stop := stop.getD (Saturated.defaultStop (← Eval.words) step)
      Eval.saturatedOf lineage start stop step) := by
  simp only [resolve, askField, resolveField_eq, bind_assoc]

/-- Bounds that are saturated already stay as they are, and so do the defaults. -/
theorem Saturated.of?_saturated {w : Words} (proper : w.Proper) (lineage : Lineage)
    (start stop : Option Int) {step : Int} (nonzero : step ≠ 0) :
    of? w lineage ((start.map w.saturate).getD (defaultStart w (w.saturate step)))
        ((stop.map w.saturate).getD (defaultStop w (w.saturate step))) (w.saturate step) =
      some (ofIntegers w lineage start stop step) := by
  have low := proper.isizeMin_neg
  have high := proper.isizeMax_pos
  have hstart := Words.saturate_getD_saturated proper.isizeMin_le start
    (d := defaultStart w (w.saturate step))
    (by unfold defaultStart; split <;> omega) (by unfold defaultStart; split <;> omega)
  have hstop := Words.saturate_getD_saturated proper.isizeMin_le stop
    (d := defaultStop w (w.saturate step))
    (by unfold defaultStop; split <;> omega) (by unfold defaultStop; split <;> omega)
  unfold of? ofIntegers
  rw [if_neg (mt (Words.saturate_eq_zero_iff proper).mp nonzero), hstart, hstop,
    Words.saturate_saturate proper.isizeMin_le]

/--
Resolution succeeds just when each bound answers and the step is not zero. Then its result depends
on the answers and the words alone, and it leaves the world as asking left it.
-/
theorem yields_resolve_iff {c : Callbacks} {m : Members} {w w' : World} {words : Words}
    (proper : words.Proper) (steady : SteadyWords c m w words) {lineage : Lineage}
    {s : Saturated} :
    (resolve c lineage m).Yields w s w' ↔
      ∃ start stop step, Asked c m w start stop step ∧ step ≠ some 0 ∧
        s = .ofIntegers words lineage start stop (step.getD 1) ∧
        w' = w.afterAsking c m Field.inOrder := by
  -- saturating leaves the world alone, so these are the worlds in which the words are looked up
  have words₁ : (askField c m .step w).world.words = words := steady.afterStep
  have words₂ : (askField c m .start (askField c m .step w).world).world.words = words :=
    steady.afterStart
  have words₃ : (askField c m .stop
      (askField c m .start (askField c m .step w).world).world).world.words = words :=
    steady.afterStop
  rw [resolve_eq]
  simp only [Eval.yields_bind_iff, yields_saturateAnswer_iff, yields_checkStep_iff,
    Eval.yields_words_iff, Eval.saturatedOf, Eval.yields_orRaise_iff]
  constructor
  · rintro ⟨step, w₁, ⟨hstep, rfl⟩, _, _, ⟨rfl, rfl⟩, k, _, ⟨nonzero, rfl, rfl⟩, h⟩
    obtain ⟨start, w₂, ⟨hstart, rfl⟩, _, _, ⟨rfl, rfl⟩, _, _, ⟨rfl, rfl⟩, h⟩ := h
    obtain ⟨stop, w₃, ⟨hstop, rfl⟩, _, _, ⟨rfl, rfl⟩, _, _, ⟨rfl, rfl⟩, h⟩ := h
    obtain ⟨_, _, ⟨rfl, rfl⟩, hs, rfl⟩ := h
    rw [words₁, ne_eq, Words.map_saturate_eq_zero_iff proper] at nonzero
    rw [words₁, words₂, words₃, Words.map_saturate_getD_one proper,
      Saturated.of?_saturated proper _ _ _ (getD_one_ne_zero nonzero)] at hs
    exact ⟨start, stop, step, ⟨hstep, hstart, hstop⟩, nonzero, (Option.some.inj hs).symm, rfl⟩
  · rintro ⟨start, stop, step, ⟨hstep, hstart, hstop⟩, nonzero, rfl, rfl⟩
    refine ⟨step, _, ⟨hstep, rfl⟩, _, _, ⟨rfl, rfl⟩, _, _, ⟨?_, rfl, rfl⟩, ?_⟩
    · rwa [words₁, ne_eq, Words.map_saturate_eq_zero_iff proper]
    refine ⟨start, _, ⟨hstart, rfl⟩, _, _, ⟨rfl, rfl⟩, _, _, ⟨rfl, rfl⟩, ?_⟩
    refine ⟨stop, _, ⟨hstop, rfl⟩, _, _, ⟨rfl, rfl⟩, _, _, ⟨rfl, rfl⟩, _, _, ⟨rfl, rfl⟩, ?_, rfl⟩
    rw [words₁, words₂, words₃, Words.map_saturate_getD_one proper]
    exact Saturated.of?_saturated proper _ _ _ (getD_one_ne_zero nonzero)

end Slicing
