import Slicing.Proofs.Rebuilding
import Slicing.Proofs.Windows

/-!
# Slices in a narrower word

The limits of the word are looked up whenever they are needed, so a slice that was resolved in one
word may be copied or adjusted in another. In a narrower word its bounds need not fit, and neither
need the defaults that stood in for missing bounds.

* `Saturated.narrowed_ofIntegers` — saturating again gives what the narrower word would have given
* `Saturated.positions?_window_eq_exact` — a slice that does not fit the word lists its exact
  positions all the same
* `resolve_narrowed` — so it makes no difference in which of the two words a slice was resolved
-/

namespace Slicing

namespace Words

/-- Every integer that the word holds is held by the other one too. -/
structure Narrower (narrow wide : Words) : Prop where
  isizeMin_le : wide.isizeMin ≤ narrow.isizeMin
  isizeMax_le : narrow.isizeMax ≤ wide.isizeMax

theorem Signed.narrower {narrow wide : Words} {m m' : Int} (hnarrow : narrow.Signed m')
    (hwide : wide.Signed m) (le : m' ≤ m) : narrow.Narrower wide where
  isizeMin_le := by rw [hnarrow.isizeMin_eq, hwide.isizeMin_eq]; omega
  isizeMax_le := by rw [hnarrow.isizeMax_eq, hwide.isizeMax_eq]; exact le

variable {narrow wide : Words}

/-- On the way to a narrower word it does no harm to saturate to a wider one first. -/
theorem saturate_saturate_of_narrower (le : narrow.isizeMin ≤ narrow.isizeMax)
    (narrower : narrow.Narrower wide) (n : Int) :
    narrow.saturate (wide.saturate n) = narrow.saturate n := by
  obtain ⟨low, high⟩ := narrower
  unfold saturate
  split <;> (try split) <;> (try split) <;> (try split) <;> omega

end Words

namespace Saturated

variable {narrow wide : Words}

/-- The slice with its bounds saturated to the word, as it is when it is rebuilt. -/
def narrowed (w : Words) (s : Saturated) : Saturated :=
  { s with start := w.saturate s.start, stop := w.saturate s.stop, step := w.saturate s.step }

theorem of?_eq_narrowed (w : Words) {s : Saturated} (nonzero : s.step ≠ 0) :
    of? w s.lineage s.start s.stop s.step = some (s.narrowed w) :=
  if_neg nonzero

theorem narrowed_eq_ofIntegers (w : Words) (s : Saturated) :
    s.narrowed w = ofIntegers w s.lineage (some s.start) (some s.stop) s.step := rfl

/-- The defaults of the wider word are beyond the narrower one, so they become its own. -/
theorem saturate_defaultStart (proper : narrow.Proper) (narrower : narrow.Narrower wide)
    {step step' : Int} (sign : step < 0 ↔ step' < 0) :
    narrow.saturate (defaultStart wide step) = defaultStart narrow step' := by
  have low := proper.isizeMin_neg
  have high := proper.isizeMax_pos
  have beyond := narrower.isizeMax_le
  unfold defaultStart Words.saturate
  by_cases down : step < 0
  · rw [if_pos down, if_pos (sign.mp down)]
    split <;> (try split) <;> omega
  · rw [if_neg down, if_neg (mt sign.mpr down), if_neg (by omega), if_neg (by omega)]

theorem saturate_defaultStop (proper : narrow.Proper) (narrower : narrow.Narrower wide)
    {step step' : Int} (sign : step < 0 ↔ step' < 0) :
    narrow.saturate (defaultStop wide step) = defaultStop narrow step' := by
  have le := proper.isizeMin_le
  obtain ⟨below, beyond⟩ := narrower
  unfold defaultStop Words.saturate
  by_cases down : step < 0
  · rw [if_pos down, if_pos (sign.mp down)]
    split <;> (try split) <;> omega
  · rw [if_neg down, if_neg (mt sign.mpr down)]
    split <;> (try split) <;> omega

/-- Saturating the bounds again gives the slice that the narrower word would have given. -/
theorem narrowed_ofIntegers (proper : narrow.Proper) (proper' : wide.Proper)
    (narrower : narrow.Narrower wide) (lineage : Lineage) (start stop : Option Int) (step : Int) :
    (ofIntegers wide lineage start stop step).narrowed narrow =
      ofIntegers narrow lineage start stop step := by
  have sign : wide.saturate step < 0 ↔ narrow.saturate step < 0 :=
    (Words.saturate_neg_iff proper').trans (Words.saturate_neg_iff proper).symm
  have again := Words.saturate_saturate_of_narrower proper.isizeMin_le narrower
  unfold narrowed ofIntegers
  rw [Saturated.mk.injEq]
  refine ⟨rfl, ?_, ?_, again step⟩
  · cases start with
    | none => exact saturate_defaultStart proper narrower sign
    | some n => exact again n
  · cases stop with
    | none => exact saturate_defaultStop proper narrower sign
    | some n => exact again n

/-! ## Bounds that do not fit the word -/

section

variable {w : Words} {m : Int} (word : w.Signed m)
include word

/-- Clamping to a length makes no difference between a bound and its saturation. -/
theorem saturateIndex_saturate_self (length n : Int) :
    w.saturateIndex (w.saturate n) length = w.saturateIndex n length := by
  obtain ⟨pos, hmax, hmin⟩ := word
  simp only [Words.saturateIndex, Words.saturate, Words.clampLength, hmax, hmin]
  grind

/-- Nor does it between the indices one above the two, which the sum cuts off at the word. -/
theorem saturateIndex_saturate_add_one (length n : Int) :
    w.saturateIndex (w.saturate n + 1) length = w.saturateIndex (n + 1) length := by
  obtain ⟨pos, hmax, hmin⟩ := word
  simp only [Words.saturateIndex, Words.saturate, Words.clampLength, hmax, hmin]
  grind

theorem saturate_eq_neg_one_iff {n : Int} : w.saturate n = -1 ↔ n = -1 := by
  obtain ⟨pos, hmax, hmin⟩ := word
  unfold Words.saturate
  split <;> (try split) <;> omega

theorem saturateIndex_aboveStart_saturate (length n : Int) :
    w.saturateIndex (aboveStart w length (w.saturate n)) length =
      w.saturateIndex (aboveStart w length n) length := by
  unfold aboveStart
  by_cases last : n = -1
  · rw [if_pos last, if_pos ((saturate_eq_neg_one_iff word).mpr last)]
  · rw [if_neg last, if_neg (mt (saturate_eq_neg_one_iff word).mp last)]
    calc w.saturateIndex (w.saturatingAdd (w.saturate n) 1) length
      _ = w.saturateIndex (w.saturate n + 1) length := saturateIndex_saturate_self word length _
      _ = w.saturateIndex (n + 1) length := saturateIndex_saturate_add_one word length n
      _ = w.saturateIndex (w.saturatingAdd n 1) length :=
        (saturateIndex_saturate_self word length _).symm

theorem low_narrowed (length : Int) (s : Saturated) :
    (s.narrowed w).low w length = s.low w length := by
  have sign : (s.narrowed w).step < 0 ↔ s.step < 0 := Words.saturate_neg_iff word.proper
  unfold low
  by_cases down : s.step < 0
  · rw [if_pos down, if_pos (sign.mpr down), saturateIndex_above word, saturateIndex_above word]
    exact saturateIndex_aboveStart_saturate word length s.stop
  · rw [if_neg down, if_neg (mt sign.mp down)]
    exact saturateIndex_saturate_self word length s.start

theorem high_narrowed (length : Int) (s : Saturated) :
    (s.narrowed w).high w length = s.high w length := by
  have sign : (s.narrowed w).step < 0 ↔ s.step < 0 := Words.saturate_neg_iff word.proper
  unfold high
  by_cases down : s.step < 0
  · rw [if_pos down, if_pos (sign.mpr down)]
    exact saturateIndex_aboveStart_saturate word length s.start
  · rw [if_neg down, if_neg (mt sign.mp down)]
    exact saturateIndex_saturate_self word length s.stop

/-- The length of a step beyond the word is what it is, unless it is that of the least integer. -/
theorem exists_pace_eq (s : Saturated) :
    ∃ k, m ≤ k ∧ s.pace w =
      if min |s.step| k ≤ w.usizeMax then some (min |s.step| k) else none := by
  obtain ⟨pos, hmax, hmin⟩ := word
  have magnitude : ∃ k, m ≤ k ∧
      (if s.step < 0 then w.saturatingAbs s.step else s.step) = min |s.step| k := by
    unfold Words.saturatingAbs
    rw [hmax, hmin, abs_eq_max_neg]
    by_cases least : s.step = -m - 1
    · exact ⟨m, le_rfl, by rw [if_pos (by omega), if_pos least]; omega⟩
    · exact ⟨max m (max s.step (-s.step)), by omega, by rw [if_neg least]; split <;> omega⟩
  obtain ⟨k, le, eq⟩ := magnitude
  exact ⟨k, le, congrArg (fun pace => if pace ≤ w.usizeMax then some pace else none) eq⟩

/-- A slice lists its exact positions whether its bounds fit the word or not. -/
theorem positions?_window_eq_exact (usize : m ≤ w.usizeMax) {s : Saturated}
    (nonzero : s.step ≠ 0) {length : Int} (nonneg : 0 ≤ length) :
    ∃ r : Range,
      (s.window w length).positions? = some r ∧
        r.toList =
          (Indices.range (some s.start) (some s.stop) s.step (min length m) nonzero).toList := by
  let exact := Indices.range (some s.start) (some s.stop) s.step (min length m) nonzero
  have low : s.low w length = exact.low := by
    rw [← low_narrowed word]
    exact low_ofIntegers word nonzero s.lineage (some s.start) (some s.stop) nonneg
  have high : s.high w length = exact.high := by
    rw [← high_narrowed word]
    exact high_ofIntegers word nonzero s.lineage (some s.start) (some s.stop) nonneg
  have direction : s.direction = exact.direction := by
    rcases Int.lt_or_gt_of_ne nonzero with down | up
    · exact (if_pos down).trans (if_neg down.not_gt).symm
    · exact (if_neg up.not_gt).trans (if_pos up).symm
  have span : exact.span ≤ m := span_range_le word nonzero (some s.start) (some s.stop) nonneg
  obtain ⟨k, le, pace⟩ := exists_pace_eq word s
  have one_le := word.one_le
  obtain ⟨r, positions, list⟩ :=
    Saturated.positions?_window exact low high direction pace (by omega) (by omega)
  refine ⟨r, positions, list.trans ?_⟩
  split
  · rfl
  · -- the step is longer than the unsigned word, and so than the whole stretch
    next long =>
    refine List.take_of_length_le ?_
    rw [Range.length_toList]
    refine Range.size_le_one ?_
    have step : exact.step = s.step := rfl
    rw [step, Int.abs_eq_natAbs] at long
    rw [step]
    omega

end

end Saturated

/-! ## Copies -/

section

variable {c : Callbacks} {w : World} {v : Value} {s t : Saturated}

/-- Reached for the first time, a saturated slice is built anew and enters the table. -/
theorem copyValue_saturated_apply {source : CopySource} {a : Address}
    (found : source.world w = { outcome := .ok w, events := [], world := w })
    (held : w.cell? (.object a) = some (.saturated s.lineage s.bounds))
    (built : Saturated.of? w.words s.lineage s.start s.stop s.step = some t) (fuel : Nat) :
    (copyValue c source (fuel + 1) (.object a)).run [] w =
      { outcome := .ok (w.fresh, [(a, w.fresh)]), events := []
        world := w.insert (.saturated t.lineage t.bounds) } := by
  have bound (n : Int) : copyValue c source fuel (.int n) = pure (.int n) :=
    copyValue_of_isImmediate rfl
  have build := buildSaturated_int_apply c built
  rw [copyValue]
  simp only [Copying.known?, bind_assoc, StateT.run_bind, StateT.run_get, pure_bind,
    List.lookup_nil, StateT.run_monadLift, monadLift_self]
  rw [Eval.bind_apply, found]
  simp only [held, Saturated.bounds, bound, pure_bind, StateT.run_bind, StateT.run_monadLift,
    monadLift_self, bind_assoc]
  rw [Eval.bind_apply, build]
  rfl

/-- However it is copied, a slice with integer bounds is built anew from them. -/
theorem copy_saturated_apply (mode : CopyMode)
    (held : w.cell? v = some (.saturated s.lineage s.bounds))
    (built : Saturated.of? w.words s.lineage s.start s.stop s.step = some t) :
    copy c mode v w =
      { outcome := .ok w.fresh, events := []
        world := w.insert (.saturated t.lineage t.bounds) } := by
  by_cases shallow : mode = .shallow
  · rw [shallow]
    unfold copy copyShallow
    dsimp only
    rw [Eval.bind_apply, Eval.world_apply]
    simp only [held, List.nil_append]
    exact buildSaturated_int_apply c built
  · obtain ⟨source, found, copy⟩ := copy_eq_copyAll (c := c) shallow v w
    rw [copy]
    cases v with
    | object a => exact copyAll_object_apply (copyValue_saturated_apply found held built)
    | _ => simp [World.cell?] at held

end

/-! ## From one word to the other -/

/-- The positions of a saturated slice with these bounds over a sequence of `length` elements. -/
def adjustedPositions (c : Callbacks) (b : Bounds) (length : Int) : Eval Range := do
  positionsOf c (← Eval.allocateAdjusted (← adjustBounds c b length))

/-- Going through objects makes no difference: the positions are those of the window. -/
theorem adjustedPositions_outcome {c : Callbacks} {w : World} {s : Saturated} {length : Int}
    (nonneg : 0 ≤ length) {r : Range} (window : (s.window w.words length).positions? = some r) :
    (adjustedPositions c s.bounds length w).outcome = .ok r := by
  unfold adjustedPositions
  refine Eval.bind_outcome_ok_iff.mpr ⟨_, w, yields_adjustBounds c s nonneg w, ?_⟩
  exact positionsOf_allocateAdjusted c _ window w

/--
A slice with integer bounds is resolved in a word and in a narrower one. Any copy of the first
result, made in the narrower word, is equal to the second result. Adjusted in the narrower word to
any length, the two list the same positions, although the bounds of the first need not fit it.
-/
theorem resolve_narrowed (c : Callbacks) {m m' : Int} (one_le : 1 ≤ m') (le : m' ≤ m)
    {w w' : World} (wide : w.words = .twosComplement m) (narrow : w'.words = .twosComplement m')
    {s : Slice} {start stop step : Option Int} (bounds : s.bounds = .ofInts start stop step)
    (nonzero : step ≠ some 0) {length : Int} (nonneg : 0 ≤ length) :
    ∃ r r' : Saturated,
      (resolve c .base s.bounds.members).Yields w r w ∧
      (resolve c .base s.bounds.members).Yields w' r' w' ∧
      (∀ (mode : CopyMode) (v : Value), w'.cell? v = some (.saturated r.lineage r.bounds) →
        copy c mode v w' =
            { outcome := .ok w'.fresh, events := []
              world := w'.insert (.saturated r'.lineage r'.bounds) } ∧
          ∀ v' : Value, w'.cell? v' = some (.saturated r'.lineage r'.bounds) →
            (compareValues c .eq w'.fresh v'
              (w'.insert (.saturated r'.lineage r'.bounds))).outcome = .ok (.bool true)) ∧
      ∃ q q' : Range,
        (adjustedPositions c r.bounds length w').outcome = .ok q ∧
        (adjustedPositions c r'.bounds length w').outcome = .ok q' ∧
        q.toList = q'.toList := by
  have word := Words.signed_twosComplement one_le
  have word' := Words.signed_twosComplement (one_le.trans le)
  have fits : m' ≤ (Words.twosComplement m').usizeMax := by
    simp only [Words.twosComplement]
    omega
  have resolved := yields_resolve_ofInts c start stop step w
    (by rw [wide]; exact word'.proper) nonzero .base
  have resolved' := yields_resolve_ofInts c start stop step w'
    (by rw [narrow]; exact word.proper) nonzero .base
  rw [← bounds, wide] at resolved
  rw [← bounds, narrow] at resolved'
  have rebuilt := Saturated.narrowed_ofIntegers word.proper word'.proper
    (word.narrower word' le) .base start stop (step.getD 1)
  -- from here on the first result may be any slice that the second one is rebuilt from
  have moves : (Saturated.ofIntegers (.twosComplement m) .base start stop (step.getD 1)).step ≠ 0 :=
    mt (Words.saturate_eq_zero_iff word'.proper).mp (getD_one_ne_zero nonzero)
  generalize Saturated.ofIntegers (.twosComplement m) .base start stop (step.getD 1) = r
    at resolved rebuilt moves
  generalize Saturated.ofIntegers (.twosComplement m') .base start stop (step.getD 1) = r'
    at resolved' rebuilt
  have built : Saturated.of? w'.words r.lineage r.start r.stop r.step = some r' := by
    rw [narrow, Saturated.of?_eq_narrowed _ moves, rebuilt]
  obtain ⟨q, window, list⟩ := Saturated.positions?_window_eq_exact word fits moves nonneg
  obtain ⟨q', window', list'⟩ :=
    positions?_window_ofIntegers word moves r.lineage (some r.start) (some r.stop) nonneg
  rw [← Saturated.narrowed_eq_ofIntegers, rebuilt] at window'
  rw [← narrow] at window window'
  refine ⟨r, r', resolved, resolved', fun mode v held => ⟨?_, fun v' held' => ?_⟩, q, q', ?_, ?_,
    ?_⟩
  · exact copy_saturated_apply mode held built
  · rw [compareValues_saturated_apply (World.cell?_insert_fresh w' _)
      (World.cell?_insert_of_some held' _)]
  · exact adjustedPositions_outcome nonneg window
  · exact adjustedPositions_outcome nonneg window'
  · rw [list, list', if_pos (by omega)]

/-- All of a sequence backward in steps of six, as it is resolved in words of four bits. -/
def Saturated.wide : Saturated :=
  { lineage := .base, start := 7, stop := -8, step := -6 }

/-- The same slice in words so narrow that their unsigned one does not hold the step either. -/
def Saturated.narrow : Saturated :=
  { lineage := .base, start := 2, stop := -3, step := -3 }

/-- A world with the narrower words, in which both slices are held. -/
def World.narrowed : World :=
  { World.initial (.twosComplement 2) with
    cells := #[.tuple [], .saturated .base Saturated.wide.bounds,
      .saturated .base Saturated.narrow.bounds] }

/-- The window of the first is shrunk to one position, and that of the second has no other. -/
theorem resolve_narrowed_shrunk :
    (1 : Int) ≤ 2 ∧ (2 : Int) ≤ 7 ∧
      (Slice.ofInts none none (some (-6))).bounds = .ofInts none none (some (-6)) ∧
      (some (-6) : Option Int) ≠ some 0 ∧ (0 : Int) ≤ 9 ∧
      copy (.ofDepth 0) .stored (.object 1) .narrowed =
        { outcome := .ok World.narrowed.fresh, events := []
          world := World.narrowed.insert (.saturated .base Saturated.narrow.bounds) } ∧
      (compareValues (.ofDepth 0) .eq (.object 3) (.object 2)
        (World.narrowed.insert (.saturated .base Saturated.narrow.bounds))).outcome =
          .ok (.bool true) ∧
      ∃ q q' : Range,
        (adjustedPositions (.ofDepth 0) Saturated.wide.bounds 9 .narrowed).outcome = .ok q ∧
        (adjustedPositions (.ofDepth 0) Saturated.narrow.bounds 9 .narrowed).outcome = .ok q' ∧
        q.toList = [1] ∧ q.toList = q'.toList := by
  have bounds := Slice.bounds_ofInts none none (some (-6))
  have wide : (World.initial (.twosComplement 7)).words = .twosComplement 7 := rfl
  have narrow : World.narrowed.words = .twosComplement 2 := rfl
  obtain ⟨r, r', ⟨hr, -⟩, ⟨hr', -⟩, copied, q, q', hq, hq', list⟩ :=
    resolve_narrowed (.ofDepth 0) (by decide) (by decide) wide narrow bounds (by decide)
      (by decide : (0 : Int) ≤ 9)
  obtain rfl : r = .wide := Except.ok.inj (hr.symm.trans rfl)
  obtain rfl : r' = .narrow := Except.ok.inj (hr'.symm.trans rfl)
  obtain ⟨copy, equal⟩ := copied .stored (.object 1) rfl
  have range : q = { start := 1, stop := 0, step := -1, step_ne_zero := by decide } :=
    Except.ok.inj (hq.symm.trans rfl)
  have first : q.toList = [1] := by
    rw [range]
    rfl
  exact ⟨by decide, by decide, bounds, by decide, by decide, copy, equal (.object 2) rfl, q, q', hq,
    hq', first, list⟩

end Slicing
