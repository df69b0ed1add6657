import Slicing.Proofs.MachineWords

/-!
# Adjusting in two's complement

Adjusting a slice that was saturated to the word, and walking the window that comes of it, takes no
step that leaves the word. So a machine may do both on words, with every sum, difference and
opposite cut to the word, and come to the same as exact arithmetic does.

* `WordSlice.adjust_ensures`, `WordWindow.walk_ensures` — one lemma for each of the two stages
* `adjustBounds_in_words` — so on words the window and its positions are what they are on integers
-/

namespace Slicing

/-! ## Adjusting -/

/-- A slice whose bounds are words. -/
structure WordSlice (n : Nat) where
  start : BitVec n
  stop : BitVec n
  step : BitVec n

/-- A window whose ends and pace are words. -/
structure WordWindow (n : Nat) where
  start : BitVec n
  stop : BitVec n
  step : Option (BitVec n)
  direction : Direction

/-- The window that the words stand for. -/
def WordWindow.toWindow {n : Nat} (v : WordWindow n) : Window :=
  { start := v.start.toInt, stop := v.stop.toInt, step := v.step.map BitVec.toInt
    direction := v.direction }

/-- The bounds of a slice as words. -/
def Saturated.inWords (n : Nat) (s : Saturated) : WordSlice n :=
  { start := .ofInt n s.start, stop := .ofInt n s.stop, step := .ofInt n s.step }

namespace WordSlice

open Worked

variable {n : Nat}

/-- The slice that the words stand for. -/
def toSaturated (lineage : Lineage) (s : WordSlice n) : Saturated :=
  { lineage, start := s.start.toInt, stop := s.stop.toInt, step := s.step.toInt }

/-- The index one above a bound; above the last element lies the length. -/
def above (length bound : BitVec n) : BitVec n :=
  if bound = -1 then saturatingAdd length 1 else saturatingAdd bound 1

/-- The index one above a start; the last element starts a walk over all of the length. -/
def aboveStart (length bound : BitVec n) : BitVec n :=
  if bound = -1 then length else saturatingAdd bound 1

/-- The length of a step, if the unsigned word can hold it. -/
def pace (step : BitVec n) : Option (BitVec n) :=
  if step.ule (.allOnes n) then some step else none

/-- The window between two ends, shrunk to its first position if a step reaches no second one. -/
def shrink (low high : BitVec n) (step : Option (BitVec n)) (direction : Direction) :
    Worked n (WordWindow n) :=
  if high.sle low then pure { start := low, stop := low, step, direction }
  else match step, direction with
    | none, .forward => do
      return { start := low, stop := ← add low 1, step := none, direction := .forward }
    | none, .backward => do
      return { start := ← sub high 1, stop := high, step := none, direction := .backward }
    | some step, direction => pure { start := low, stop := high, step := some step, direction }

/-- Adjusts the slice to a length, which enters as far as the signed word can express it. -/
def adjust (s : WordSlice n) (length : BitVec n) : Worked n (WordWindow n) :=
  if s.step.slt 0 then do
    let step ← saturatingAbs s.step
    let low ← clampIndex (above length s.stop) length
    let high ← clampIndex (aboveStart length s.start) length
    shrink low high (pace step) .backward
  else do
    let low ← clampIndex s.start length
    let high ← clampIndex s.stop length
    shrink low high (pace s.step) .forward

/-- The unsigned word has room for every word. -/
theorem pace_eq (step : BitVec n) : pace step = some step := by
  unfold pace
  rw [if_pos]
  simp [BitVec.ule, BitVec.toNat_allOnes]
  omega

theorem shrink_ensures (low high step : BitVec n) (direction : Direction) :
    (shrink low high (some step) direction).Ensures fun v =>
      v.toWindow =
        if high.toInt ≤ low.toInt then
          { start := low.toInt, stop := low.toInt, step := some step.toInt, direction }
        else { start := low.toInt, stop := high.toInt, step := some step.toInt, direction } := by
  unfold shrink
  by_cases empty : high.toInt ≤ low.toInt
  · rw [if_pos (BitVec.sle_iff_toInt_le.mpr empty), if_pos empty]
    exact .pure rfl
  · rw [if_neg (mt BitVec.sle_iff_toInt_le.mp empty), if_neg empty]
    exact .pure rfl

end WordSlice

namespace Saturated

/-- With a pace a window is as long as its ends are apart. -/
theorem window_of_pace {words : Words} {s : Saturated} {k : Int} (pace : s.pace words = some k)
    (length : Int) :
    s.window words length =
      if s.high words length ≤ s.low words length then
        { start := s.low words length, stop := s.low words length, step := some k
          direction := s.direction }
      else
        { start := s.low words length, stop := s.high words length, step := some k
          direction := s.direction } := by
  unfold window
  simp only [pace]

/-- The unsigned word has room for the length of every step that fits the signed one. -/
theorem pace_ofWidth {n : Nat} (wide : 2 ≤ n) {s : Saturated}
    (holds : (Words.ofWidth n).Holds s.step) :
    s.pace (.ofWidth n) =
      some (if s.step < 0 then (Words.ofWidth n).saturatingAbs s.step else s.step) := by
  obtain ⟨pos, hmax, hmin⟩ := Words.signed_ofWidth wide
  obtain ⟨low, high⟩ := holds
  have top : (Words.ofWidth n).usizeMax = 2 * (Words.ofWidth n).isizeMax + 1 := rfl
  unfold pace Words.saturatingAbs
  dsimp only
  rw [if_pos]
  split <;> (try split) <;> omega

end Saturated

namespace WordSlice

open Worked

variable {n : Nat}

section

variable (wide : 2 ≤ n)
include wide

theorem toInt_one : (1 : BitVec n).toInt = 1 :=
  BitVec.toInt_one (by omega)

theorem eq_neg_one_iff {a : BitVec n} : a = -1 ↔ a.toInt = -1 := by
  have one := toInt_one wide
  have fits : ¬(1 : BitVec n).negOverflow = true := by
    have := pow_pos (two_pos : (0 : Int) < 2) (n - 1)
    simp only [BitVec.negOverflow, beq_iff_eq, one]
    omega
  rw [← BitVec.toInt_inj, BitVec.toInt_neg_of_not_negOverflow fits, one]

variable {length : BitVec n} {k : Int} (clamped : length.toInt = (Words.ofWidth n).clampLength k)
include clamped

theorem toInt_above (bound : BitVec n) :
    (above length bound).toInt = Saturated.above (.ofWidth n) k bound.toInt := by
  unfold above Saturated.above
  by_cases last : bound = -1
  · rw [if_pos last, if_pos ((eq_neg_one_iff wide).mp last), toInt_saturatingAdd wide, clamped,
      toInt_one wide]
  · rw [if_neg last, if_neg (mt (eq_neg_one_iff wide).mpr last), toInt_saturatingAdd wide,
      toInt_one wide]

theorem toInt_aboveStart (bound : BitVec n) :
    (aboveStart length bound).toInt = Saturated.aboveStart (.ofWidth n) k bound.toInt := by
  unfold aboveStart Saturated.aboveStart
  by_cases last : bound = -1
  · rw [if_pos last, if_pos ((eq_neg_one_iff wide).mp last), clamped]
  · rw [if_neg last, if_neg (mt (eq_neg_one_iff wide).mpr last), toInt_saturatingAdd wide,
      toInt_one wide]

/-- On words a slice is adjusted to the window that it has on integers. -/
theorem adjust_ensures (lineage : Lineage) (s : WordSlice n) (nonneg : 0 ≤ length.toInt) :
    (s.adjust length).Ensures fun v =>
      v.toWindow = (s.toSaturated lineage).window (.ofWidth n) k := by
  have pace := Saturated.pace_ofWidth wide (s := s.toSaturated lineage) (Words.holds_toInt s.step)
  unfold adjust
  by_cases down : s.step.toInt < 0
  · have backward : (s.toSaturated lineage).step < 0 := down
    rw [if_pos backward] at pace
    rw [if_pos (slt_zero_iff.mpr down)]
    refine (saturatingAbs_ensures wide s.step).bind fun step hstep => ?_
    refine (clampIndex_ensures nonneg clamped).bind fun low hlow => ?_
    refine (clampIndex_ensures nonneg clamped).bind fun high hhigh => ?_
    have lower : low.toInt = (s.toSaturated lineage).low (.ofWidth n) k := by
      rw [hlow, toInt_above wide clamped, Saturated.low, if_pos backward, toSaturated]
    have upper : high.toInt = (s.toSaturated lineage).high (.ofWidth n) k := by
      rw [hhigh, toInt_aboveStart wide clamped, Saturated.high, if_pos backward, toSaturated]
    have direction : (s.toSaturated lineage).direction = .backward := if_pos backward
    rw [pace_eq]
    refine (shrink_ensures low high step .backward).mono fun v hv => ?_
    rw [hv, Saturated.window_of_pace pace, lower, upper, hstep, direction, toSaturated]
  · have forward : ¬(s.toSaturated lineage).step < 0 := down
    rw [if_neg forward] at pace
    rw [if_neg (mt slt_zero_iff.mp down)]
    refine (clampIndex_ensures nonneg clamped).bind fun low hlow => ?_
    refine (clampIndex_ensures nonneg clamped).bind fun high hhigh => ?_
    have lower : low.toInt = (s.toSaturated lineage).low (.ofWidth n) k := by
      rw [hlow, Saturated.low, if_neg forward, toSaturated]
    have upper : high.toInt = (s.toSaturated lineage).high (.ofWidth n) k := by
      rw [hhigh, Saturated.high, if_neg forward, toSaturated]
    have direction : (s.toSaturated lineage).direction = .forward := if_neg forward
    rw [pace_eq]
    refine (shrink_ensures low high s.step .forward).mono fun v hv => ?_
    rw [hv, Saturated.window_of_pace pace, lower, upper, direction, toSaturated]

end

end WordSlice

/-! ## Walking -/

/-- A range whose ends and step are words. -/
structure WordRange (n : Nat) where
  start : BitVec n
  stop : BitVec n
  step : BitVec n

/-- The words stand for the ends and the step of the range. -/
structure WordRange.Shows {n : Nat} (r : WordRange n) (range : Range) : Prop where
  start : r.start.toInt = range.start
  stop : r.stop.toInt = range.stop
  step : r.step.toInt = range.step

/-- The positions of the window, whose step of none is walked as 1. -/
def WordWindow.walk {n : Nat} (v : WordWindow n) : Worked n (WordRange n) :=
  let step := v.step.getD 1
  match v.direction with
  | .forward => pure { start := v.start, stop := v.stop, step }
  | .backward => do
    let start ← Worked.sub v.stop 1
    let stop ← Worked.sub v.start 1
    return { start, stop, step := ← Worked.neg step }

namespace WordWindow

variable {n : Nat}

/-- On words a well-formed window with a pace has the positions that it has on integers. -/
theorem walk_ensures (wide : 2 ≤ n) {length : Int} {v : WordWindow n}
    (wellFormed : v.toWindow.WellFormed (.ofWidth n) length) {step : BitVec n}
    (pace : v.step = some step) :
    v.walk.Ensures fun r => ∃ range, v.toWindow.positions? = some range ∧ r.Shows range := by
  obtain ⟨pos, hmax, hmin⟩ := Words.signed_ofWidth wide
  have one := WordSlice.toInt_one wide
  have low : 0 ≤ v.start.toInt := wellFormed.start_nonneg
  have high := (Words.holds_toInt v.stop).2
  have high' := (Words.holds_toInt v.start).2
  have least : 0 ≤ v.stop.toInt := low.trans wellFormed.start_le_stop
  have long : 1 ≤ step.toInt := (wellFormed.paced step.toInt (by simp [toWindow, pace])).1
  have high'' := (Words.holds_toInt step).2
  unfold walk Window.positions?
  simp only [toWindow, pace, Option.map_some, Option.getD_some]
  cases v.direction with
  | forward =>
    refine .pure ⟨_, dif_pos (by omega), rfl, rfl, rfl⟩
  | backward =>
    have stopRoom : (Words.ofWidth n).Holds (v.stop.toInt - (1 : BitVec n).toInt) :=
      ⟨by omega, by omega⟩
    have startRoom : (Words.ofWidth n).Holds (v.start.toInt - (1 : BitVec n).toInt) :=
      ⟨by omega, by omega⟩
    have stepRoom : (Words.ofWidth n).Holds (-step.toInt) := ⟨by omega, by omega⟩
    refine (Worked.sub_ensures stopRoom).bind fun start hstart => ?_
    refine (Worked.sub_ensures startRoom).bind fun stop hstop => ?_
    refine (Worked.neg_ensures stepRoom).bind fun down hdown => .pure ?_
    rw [one] at hstart hstop
    exact ⟨_, dif_pos (by omega), hstart, hstop, hdown⟩

end WordWindow

/-! ## No step leaves the word -/

namespace Saturated

variable {words : Words} {m : Int} {lineage : Lineage} {start stop step : Int}

/-- The bounds that a constructor stores fit the word that it saturates to. -/
theorem holds_of_of? {s : Saturated} (proper : words.Proper)
    (built : of? words lineage start stop step = some s) :
    s.lineage = lineage ∧ words.Holds s.start ∧ words.Holds s.stop ∧ words.Holds s.step ∧
      s.step ≠ 0 := by
  have le := proper.isizeMin_le
  unfold of? at built
  split at built
  · simp at built
  · next nonzero =>
    obtain rfl := Option.some.inj built
    exact ⟨rfl, ⟨Words.le_saturate le _, Words.saturate_le le _⟩,
      ⟨Words.le_saturate le _, Words.saturate_le le _⟩,
      ⟨Words.le_saturate le _, Words.saturate_le le _⟩,
      mt (Words.saturate_eq_zero_iff proper).mp nonzero⟩

theorem toSaturated_inWords {n : Nat} (wide : 2 ≤ n) {s : Saturated}
    (start : (Words.ofWidth n).Holds s.start) (stop : (Words.ofWidth n).Holds s.stop)
    (step : (Words.ofWidth n).Holds s.step) : (s.inWords n).toSaturated s.lineage = s := by
  unfold inWords WordSlice.toSaturated
  dsimp only
  rw [Words.toInt_ofInt wide start, Words.toInt_ofInt wide stop, Words.toInt_ofInt wide step]

end Saturated

/-- Adjusts a slice of words to a length and walks the window. -/
def WordSlice.run {n : Nat} (s : WordSlice n) (length : BitVec n) :
    Worked n (WordWindow n × WordRange n) := do
  let v ← s.adjust length
  let r ← v.walk
  return (v, r)

/--
A slice built under words of `n` bits is adjusted to any length and walked without a step that
leaves the word. So with every sum, difference and opposite cut to the word the window, which always
has a pace, and the range of its positions are what they are on integers. The same holds of clamping
any index that is a word, and of any length, which enters as far as the signed word can express it.
-/
theorem adjustBounds_in_words (c : Callbacks) {n : Nat} (wide : 2 ≤ n) {lineage : Lineage}
    {start stop step : Int} {s : Saturated}
    (built : Saturated.of? (.ofWidth n) lineage start stop step = some s) {length : Int}
    (nonneg : 0 ≤ length) :
    ∃ (v : WordWindow n) (r : WordRange n) (range : Range),
      (∀ w : World, w.words = .ofWidth n →
        buildSaturated c lineage { start := .int start, stop := .int stop, step := .int step } w =
          { outcome := .ok w.fresh, events := []
            world := w.insert (.saturated lineage s.bounds) } ∧
        adjustBounds c s.bounds length w =
          { outcome := .ok v.toWindow.adjusted, events := [], world := w } ∧
        ((Eval.allocateAdjusted v.toWindow.adjusted >>= positionsOf c) w).outcome = .ok range) ∧
      r.Shows range ∧ v.step ≠ none ∧
      ((s.inWords n).run (.ofInt n ((Words.ofWidth n).clampLength length))).Ensures
        (· = (v, r)) ∧
      ∀ p, (Words.ofWidth n).Holds p →
        (Worked.clampIndex (.ofInt n p)
            (.ofInt n ((Words.ofWidth n).clampLength length))).Ensures
          fun q => q.toInt = (Words.ofWidth n).saturateIndex p length := by
  have word := Words.signed_ofWidth wide
  have pos : 1 ≤ (Words.ofWidth n).isizeMax := by rw [word.isizeMax_eq]; exact word.one_le
  obtain ⟨rfl, hstart, hstop, hstep, moves⟩ := Saturated.holds_of_of? word.proper built
  -- the length that enters is a word, and no negative one
  have room : (Words.ofWidth n).Holds ((Words.ofWidth n).clampLength length) := by
    unfold Words.Holds Words.clampLength
    have := word.proper.isizeMin_neg
    omega
  have clamped := Words.toInt_ofInt wide room
  have length_nonneg : 0 ≤ (BitVec.ofInt n ((Words.ofWidth n).clampLength length)).toInt := by
    rw [clamped, Words.clampLength]
    omega
  generalize BitVec.ofInt n ((Words.ofWidth n).clampLength length) = l at clamped length_nonneg ⊢
  -- adjusting on words, and then walking the window that comes of it
  have pace := Saturated.pace_ofWidth wide hstep
  have adjusted := WordSlice.adjust_ensures wide clamped s.lineage (s.inWords n) length_nonneg
  rw [Saturated.toSaturated_inWords wide hstart hstop hstep] at adjusted
  obtain ⟨v, hv⟩ : ∃ v, ((s.inWords n).adjust l).result = v := ⟨_, rfl⟩
  obtain ⟨inside, window⟩ := adjusted
  have wellFormed := Saturated.window_wellFormed pos moves nonneg
  have paced := (Saturated.step_window (.ofWidth n) s length).trans pace
  rw [← window, hv] at wellFormed paced
  rw [hv] at window
  obtain ⟨k, hk, -⟩ := Option.map_eq_some_iff.mp paced
  obtain ⟨inside', range, positions, shows⟩ := WordWindow.walk_ensures wide wellFormed hk
  refine ⟨v, v.walk.result, range, fun w words => ⟨?_, ?_, ?_⟩, shows, ?_, ?_, fun p hp => ?_⟩
  · rw [← words] at built
    exact buildSaturated_int_apply c built
  · rw [adjustBounds_bounds_apply c s nonneg, words, window]
  · exact positionsOf_allocateAdjusted c _ positions w
  · rw [hk]
    exact Option.some_ne_none k
  · refine Worked.Ensures.bind (P := (· = v)) ⟨inside, hv⟩ fun _ first => ?_
    rw [first]
    refine Worked.Ensures.bind (P := (· = v.walk.result)) ⟨inside', rfl⟩ fun _ second => ?_
    rw [second]
    exact .pure rfl
  · have index := Worked.clampIndex_ensures (p := BitVec.ofInt n p) length_nonneg clamped
    rwa [Words.toInt_ofInt wide hp] at index

/-- A backward slice whose bounds were beyond words of three bits, and whose step is the least. -/
def Saturated.least : Saturated :=
  { lineage := .base, start := 3, stop := -4, step := -4 }

/-- The step has no opposite, its magnitude is the greatest word, and the last position is left. -/
theorem adjustBounds_in_words_least :
    2 ≤ 3 ∧ Saturated.of? (.ofWidth 3) .base 9 (-9) (-4) = some .least ∧ (0 : Int) ≤ 7 ∧
      ∃ (v : WordWindow 3) (r : WordRange 3) (range : Range),
        v.toWindow = { start := 0, stop := 3, step := some 3, direction := .backward } ∧
          r.Shows range ∧ range.toList = [2] ∧
          ((Saturated.least.inWords 3).run 3#3).Ensures (· = (v, r)) ∧
          ((Saturated.least.inWords 3).run 3#3).uncut = [0, 2, -1, -3] := by
  have wide : 2 ≤ 3 := by decide
  have built : Saturated.of? (.ofWidth 3) .base 9 (-9) (-4) = some .least := by decide
  have nonneg : (0 : Int) ≤ 7 := by decide
  obtain ⟨v, r, range, run, shows, -, ensured, -⟩ :=
    adjustBounds_in_words (.ofDepth 0) wide built nonneg
  obtain ⟨-, adjusted, positions⟩ := run (World.initial (.ofWidth 3)) rfl
  have adjusted : Except.ok v.toWindow.adjusted = (.ok _ : Except Fault Adjusted) :=
    (congrArg (fun run : Run Adjusted => run.outcome) adjusted).symm.trans rfl
  have window : v.toWindow = { start := 0, stop := 3, step := some 3, direction := .backward } :=
    Window.adjusted_inj.mp (Except.ok.inj adjusted)
  rw [window] at positions
  obtain rfl := Except.ok.inj positions
  exact ⟨wide, built, nonneg, v, r, _, window, shows, rfl, ensured, by decide⟩

end Slicing
