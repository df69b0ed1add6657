import Slicing.Proofs.Agreement

/-!
# Windows within a sequence

Adjusting a slice reads the limits of the word anew, so the bounds that the slice holds need not
fit them. The window is well formed all the same: each of its ends is clamped on its own, and the
clamp looks at nothing but the length and the greatest index.

* `Saturated.window_wellFormed` — the window lies within the sequence and its pace within the word
* `Window.walked_of_pos` — a window with a positive pace is walked in order and never left
* `adjustBounds_wellFormed` — so adjusting and walking always succeed, whatever the words are
-/

namespace Slicing

/-! ## Walking a range -/

/-- Whether `i` is visited before `j` on a walk in this direction. -/
def Direction.Before : Direction → Int → Int → Prop
  | .forward, i, j => i < j
  | .backward, i, j => j < i

namespace Range

variable {r : Range}

theorem mem_stretch_iff {i : Int} : i ∈ r.stretch ↔ r.low ≤ i ∧ i < r.high := by
  unfold low high
  rcases Int.lt_or_gt_of_ne r.step_ne_zero with down | up
  · rw [mem_stretch_of_neg down, if_neg down.not_gt, if_neg down.not_gt]
    omega
  · rw [mem_stretch_of_pos up, if_pos up, if_pos up]

theorem mem_stretch_of_mem_toList {i : Int} (h : i ∈ r.toList) : i ∈ r.stretch := by
  rw [toList_eq_everyNth] at h
  exact mem_of_mem_everyNth h

theorem nth_before_nth {i j : Nat} (less : i < j) : r.direction.Before (r.nth i) (r.nth j) := by
  have less : (i : Int) < j := Int.ofNat_lt.mpr less
  unfold nth direction
  rcases Int.lt_or_gt_of_ne r.step_ne_zero with down | up
  · rw [if_neg down.not_gt]
    exact Int.add_lt_add_left (Int.mul_lt_mul_of_neg_right less down) _
  · rw [if_pos up]
    exact Int.add_lt_add_left (Int.mul_lt_mul_of_pos_right less up) _

theorem pairwise_toList : r.toList.Pairwise r.direction.Before := by
  unfold toList
  rw [List.pairwise_map]
  exact List.pairwise_lt_range.imp nth_before_nth

theorem head?_toList (h : r.low < r.high) : r.toList.head? = some r.start := by
  have span : r.span ≠ 0 := by rw [span_eq]; omega
  calc r.toList.head? = (r.toList.take 1).head? := by rw [List.head?_take, if_neg one_ne_zero]
    _ = some r.start := by rw [toList_take_one span, List.head?_cons]

theorem start_eq :
    r.start = match r.direction with
      | .forward => r.low
      | .backward => r.high - 1 := by
  unfold direction low high
  by_cases up : 0 < r.step
  · simp only [if_pos up]
  · simp only [if_neg up, Int.add_sub_cancel]

end Range

/-! ## Walking a window -/

namespace Window

/-- The position at which a walk over the window begins. -/
def first (v : Window) : Int :=
  match v.direction with
  | .forward => v.start
  | .backward => v.stop - 1

/-- The range visits positions of the window only, in its direction and from its first one on. -/
structure Walked (v : Window) (r : Range) : Prop where
  inside : ∀ p ∈ r.toList, v.start ≤ p ∧ p < v.stop
  ordered : r.toList.Pairwise v.direction.Before
  begins : v.start < v.stop → r.toList.head? = some v.first

/-- The positions of a window are a range over its stretch, from the end where its walk begins. -/
theorem positions?_of_pos {v : Window} (pos : 0 < v.step.getD 1) :
    ∃ r : Range, v.positions? = some r ∧ r.low = v.start ∧ r.high = v.stop ∧
      r.direction = v.direction := by
  obtain ⟨start, stop, step, direction⟩ := v
  unfold positions? Range.low Range.high Range.direction
  dsimp only at pos ⊢
  have nonzero := pos.ne'
  cases direction with
  | forward => exact ⟨_, dif_pos nonzero, if_pos pos, if_pos pos, if_pos pos⟩
  | backward =>
    have down : ¬0 < -step.getD 1 := by omega
    refine ⟨_, dif_pos (Int.neg_ne_zero.mpr nonzero), ?_, ?_, if_neg down⟩
    · rw [if_neg down, Int.sub_add_cancel]
    · rw [if_neg down, Int.sub_add_cancel]

/-- A window with a positive pace, or with none, is walked as it should be. -/
theorem walked_of_pos {v : Window} (pos : 0 < v.step.getD 1) :
    ∃ r : Range, v.positions? = some r ∧ v.Walked r := by
  obtain ⟨r, positions, low, high, direction⟩ := positions?_of_pos pos
  refine ⟨r, positions, ?_, ?_, ?_⟩
  · intro p mem
    rw [← low, ← high]
    exact Range.mem_stretch_iff.mp (Range.mem_stretch_of_mem_toList mem)
  · rw [← direction]
    exact Range.pairwise_toList
  · intro nonempty
    rw [← low, ← high] at nonempty
    rw [Range.head?_toList nonempty, Range.start_eq, low, high, direction]
    rfl

end Window

/-! ## Well-formed windows -/

/--
The window lies within a sequence of `length` elements and within the signed word, and its pace
within the unsigned one. Without a pace it has at most one position.
-/
structure Window.WellFormed (words : Words) (length : Int) (v : Window) : Prop where
  start_nonneg : 0 ≤ v.start
  start_le_stop : v.start ≤ v.stop
  stop_le : v.stop ≤ min length words.isizeMax
  paced : ∀ k ∈ v.step, 1 ≤ k ∧ k ≤ words.usizeMax
  unpaced : v.step = none → v.stop ≤ v.start + 1

theorem Window.WellFormed.pos {words : Words} {length : Int} {v : Window}
    (h : v.WellFormed words length) : 0 < v.step.getD 1 := by
  cases step : v.step with
  | none => exact one_pos
  | some k =>
    have := (h.paced k step).1
    rw [Option.getD_some]
    omega

namespace Saturated

variable {words : Words} {s : Saturated}

/-- No step is shorter than one, walked in whatever direction. -/
theorem pace_bounds (pos : 1 ≤ words.isizeMax) (nonzero : s.step ≠ 0) :
    ∀ k ∈ s.pace words, 1 ≤ k ∧ k ≤ words.usizeMax := by
  intro k hk
  have magnitude : 1 ≤ if s.step < 0 then words.saturatingAbs s.step else s.step := by
    unfold Words.saturatingAbs
    split <;> (try split) <;> omega
  obtain ⟨fits, rfl⟩ : _ ∧ (if s.step < 0 then words.saturatingAbs s.step else s.step) = k :=
    Option.ite_none_right_eq_some.mp hk |>.imp_right Option.some.inj
  exact ⟨magnitude, fits⟩

theorem window_wellFormed (pos : 1 ≤ words.isizeMax) (nonzero : s.step ≠ 0) {length : Int}
    (nonneg : 0 ≤ length) : (s.window words length).WellFormed words length := by
  have low : 0 ≤ s.low words length := Words.saturateIndex_nonneg (by omega) nonneg _
  have lowLe : s.low words length ≤ min length words.isizeMax := Words.saturateIndex_le _
  have highLe : s.high words length ≤ min length words.isizeMax := Words.saturateIndex_le _
  have paced := pace_bounds pos nonzero
  unfold window
  dsimp only
  by_cases empty : s.high words length ≤ s.low words length
  · rw [if_pos empty]
    exact ⟨low, le_rfl, lowLe, paced, fun _ => Int.le_add_one le_rfl⟩
  · rw [if_neg empty]
    have nonempty : s.low words length < s.high words length := not_le.mp empty
    cases pace : s.pace words with
    | some k =>
      rw [pace] at paced
      exact ⟨low, nonempty.le, highLe, paced, by simp⟩
    -- without a pace one position is left, at the end where the walk begins
    | none =>
      cases s.direction with
      | forward => exact ⟨low, by simp, by dsimp only; omega, by simp, fun _ => le_rfl⟩
      | backward => exact ⟨by dsimp only; omega, by simp, highLe, by simp, fun _ => by simp⟩

theorem direction_eq_backward_iff : s.direction = .backward ↔ s.step < 0 := by
  unfold direction
  split <;> simp_all

end Saturated

/-! ## Adjusting under any words -/

/--
Whatever words a slice was built under, adjusting it to a length under the words of now succeeds
with a well-formed window, and nothing else happens. Its positions can always be had, and they are
the walk that the window describes.
-/
theorem adjustBounds_wellFormed (c : Callbacks) {w : World} {s : Saturated}
    (pos : 1 ≤ w.words.isizeMax) (nonzero : s.step ≠ 0) {length : Int} (nonneg : 0 ≤ length) :
    ∃ (v : Window) (r : Range),
      adjustBounds c s.bounds length w =
          { outcome := .ok v.adjusted, events := [], world := w } ∧
        v.WellFormed w.words length ∧
        (v.direction = .backward ↔ s.step < 0) ∧
        (∀ w' : World, ((Eval.allocateAdjusted v.adjusted >>= positionsOf c) w').outcome = .ok r) ∧
        v.Walked r := by
  have wellFormed := Saturated.window_wellFormed pos nonzero nonneg
  obtain ⟨r, positions, walked⟩ := Window.walked_of_pos wellFormed.pos
  refine ⟨s.window w.words length, r, ?_, wellFormed, ?_, ?_, walked⟩
  · exact adjustBounds_bounds_apply c s nonneg w
  · rw [Saturated.direction_window, Saturated.direction_eq_backward_iff]
  · exact fun w' => positionsOf_allocateAdjusted c _ positions w'

/-- Words that hold less than the slice below does, and whose unsigned word is the narrower one. -/
def Words.narrow : Words :=
  { isizeMax := 5, isizeMin := -3, usizeMax := 2 }

/-- A slice built under wider words. -/
def Saturated.foreign : Saturated :=
  { lineage := .derived, start := -2, stop := -20, step := -7 }

/-- The step does not fit the unsigned word, so one position is left: the last of the stretch. -/
theorem adjustBounds_wellFormed_foreign :
    1 ≤ Words.narrow.isizeMax ∧ Saturated.foreign.step ≠ 0 ∧ (0 : Int) ≤ 9 ∧
      ∃ (v : Window) (r : Range),
        v = { start := 3, stop := 4, step := none, direction := .backward } ∧
          v.WellFormed .narrow 9 ∧
          ((Eval.allocateAdjusted v.adjusted >>= positionsOf (.ofDepth 0))
            (World.initial .host)).outcome = .ok r ∧
          v.Walked r := by
  have pos : 1 ≤ (World.initial .narrow).words.isizeMax := by decide
  have nonzero : Saturated.foreign.step ≠ 0 := by decide
  have nonneg : (0 : Int) ≤ 9 := by decide
  obtain ⟨v, r, run, wellFormed, -, positions, walked⟩ :=
    adjustBounds_wellFormed (.ofDepth 0) pos nonzero nonneg
  have adjusted : Except.ok v.adjusted = (.ok _ : Except Fault Adjusted) :=
    (congrArg (fun run : Run Adjusted => run.outcome) run).symm.trans rfl
  refine ⟨pos, nonzero, nonneg, v, r, ?_, wellFormed, positions _, walked⟩
  exact Window.adjusted_inj.mp (Except.ok.inj adjusted)

end Slicing
