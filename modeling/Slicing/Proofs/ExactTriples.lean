import Slicing.Proofs.Selection

/-!
# Exact indices as triples

The positions that exact indices list do not show where a walk without positions starts and stops.
The laws here are about the triple itself, so they hold of such walks too.

* `indices_mirrored` — a walk backward is a walk forward seen from the other end of the sequence
* `indices_settled` — indices that are given back as bounds come out as they are

As a result `-1` is the place before the first element, and as a bound it names the last element.
So the second law needs the stop spelled as a bound (`Indices.stopBound`), and it fails for a start
of `-1`, which no spelling can help. `ofBounds_again_iff` says that nothing else goes wrong.
-/

namespace Slicing

/-- With integer bounds there are always indices, and nothing happens on the way to them. -/
theorem indices_apply (c : Callbacks) (w : World) {s : Slice} {start stop : Option Int}
    {k length : Int} (bounds : s.bounds = .ofInts start stop (some k)) (nonzero : k ≠ 0)
    (nonneg : 0 ≤ length) :
    indices c s.bounds (.int length) w =
      { outcome := .ok (.ofBounds start stop k length), events := [], world := w } := by
  have given : (some k : Option Int) ≠ some 0 := by simpa using nonzero
  rw [bounds, indices_ofInts c start stop given nonneg, Eval.pure_apply, Option.getD_some]

/-! ## The other end of the sequence -/

/-- The bound that names the same place when places are counted from the other end. -/
def mirrored (n : Int) : Int :=
  -1 - n

namespace Indices

/-- The same walk over `length` elements that are numbered from the other end. -/
def mirror (length : Int) (i : Indices) : Indices :=
  { start := length - 1 - i.start, stop := length - 1 - i.stop, step := -i.step }

variable {step length : Int}

theorem neg_one_le_lower (step : Int) : -1 ≤ lower step := by
  unfold lower
  split <;> omega

theorem lower_of_pos (up : 0 < step) : lower step = 0 :=
  if_neg up.not_gt

theorem lower_of_neg (down : step < 0) : lower step = -1 :=
  if_pos down

theorem lower_mirrored (up : 0 < step) (length : Int) :
    lower (-step) = length - 1 - upper step length := by
  unfold lower upper
  rw [if_pos (Int.neg_neg_of_pos up), if_neg up.not_gt]
  omega

theorem upper_mirrored (up : 0 < step) (length : Int) :
    upper (-step) length = length - 1 - lower step := by
  unfold lower upper
  rw [if_pos (Int.neg_neg_of_pos up), if_neg up.not_gt]
  omega

/-- A bound from the start becomes one from the end, and so the two clamps change places. -/
theorem clamp_mirrored (up : 0 < step) (n : Int) :
    clamp (-step) length n = length - 1 - clamp step length (mirrored n) := by
  unfold clamp
  rw [lower_mirrored up length, upper_mirrored up length]
  by_cases negative : n < 0
  · have fromStart : ¬mirrored n < 0 := by unfold mirrored; omega
    rw [if_pos negative, if_neg fromStart]
    unfold mirrored
    split <;> split <;> omega
  · have fromEnd : mirrored n < 0 := by unfold mirrored; omega
    rw [if_neg negative, if_pos fromEnd]
    unfold mirrored
    split <;> split <;> omega

theorem startOf_mirrored (up : 0 < step) (start : Option Int) :
    startOf (-step) length start = length - 1 - startOf step length (start.map mirrored) := by
  cases start with
  | some n => exact clamp_mirrored up n
  | none =>
    show (if -step < 0 then _ else _) = _ - (if step < 0 then _ else _)
    rw [if_pos (Int.neg_neg_of_pos up), if_neg up.not_gt, upper_mirrored up]

theorem stopOf_mirrored (up : 0 < step) (stop : Option Int) :
    stopOf (-step) length stop = length - 1 - stopOf step length (stop.map mirrored) := by
  cases stop with
  | some n => exact clamp_mirrored up n
  | none =>
    show (if -step < 0 then _ else _) = _ - (if step < 0 then _ else _)
    rw [if_pos (Int.neg_neg_of_pos up), if_neg up.not_gt, lower_mirrored up length]

theorem ofBounds_mirrored (up : 0 < step) (start stop : Option Int) (length : Int) :
    ofBounds start stop (-step) length =
      (ofBounds (start.map mirrored) (stop.map mirrored) step length).mirror length := by
  rw [ofBounds, startOf_mirrored up, stopOf_mirrored up]
  rfl

end Indices

/--
A slice that walks backward has the indices of the slice with mirrored bounds that walks forward by
steps of the same length, seen from the other end of the sequence.
-/
theorem indices_mirrored (c : Callbacks) (w : World) {s t : Slice} {start stop : Option Int}
    {k length : Int} (backward : s.bounds = .ofInts start stop (some (-k)))
    (forward : t.bounds = .ofInts (start.map mirrored) (stop.map mirrored) (some k))
    (one_le : 1 ≤ k) (nonneg : 0 ≤ length) :
    ∃ i : Indices, i.step = k ∧
      indices c t.bounds (.int length) w = { outcome := .ok i, events := [], world := w } ∧
      indices c s.bounds (.int length) w =
        { outcome := .ok (i.mirror length), events := [], world := w } := by
  have up : 0 < k := one_le
  refine ⟨.ofBounds (start.map mirrored) (stop.map mirrored) k length, rfl, ?_, ?_⟩
  · exact indices_apply c w forward up.ne' nonneg
  · rw [indices_apply c w backward (neg_ne_zero.mpr up.ne') nonneg, Indices.ofBounds_mirrored up]

/-- A walk without positions, from before the first element of the sequence. -/
theorem indices_mirrored_empty :
    (Slice.ofInts (some (-9)) none (some (-2))).bounds = .ofInts (some (-9)) none (some (-2)) ∧
      (Slice.ofInts (some 8) none (some 2)).bounds = .ofInts (some 8) none (some 2) ∧
      (1 : Int) ≤ 2 ∧ (0 : Int) ≤ 5 ∧
      ∃ i : Indices, i.step = 2 ∧
        indices (Callbacks.ofDepth 0) (Slice.ofInts (some 8) none (some 2)).bounds (.int 5)
          (World.initial .host) = { outcome := .ok i, events := [], world := .initial .host } ∧
        indices (Callbacks.ofDepth 0) (Slice.ofInts (some (-9)) none (some (-2))).bounds (.int 5)
          (World.initial .host) =
            { outcome := .ok (i.mirror 5), events := [], world := .initial .host } ∧
        i = ⟨5, 5, 2⟩ ∧ i.mirror 5 = ⟨-1, -1, -2⟩ := by
  have backward := Slice.bounds_ofInts (some (-9)) none (some (-2))
  have forward := Slice.bounds_ofInts (some 8) none (some 2)
  obtain ⟨i, step, found, found'⟩ := indices_mirrored (Callbacks.ofDepth 0) (World.initial .host)
    backward forward (by decide) (by decide : (0 : Int) ≤ 5)
  have value : i = ⟨5, 5, 2⟩ :=
    Except.ok.inj (congrArg (fun run => run.outcome) found).symm
  exact ⟨backward, forward, by decide, by decide, i, step, found, found', value, by rw [value]; rfl⟩

/-! ## Indices given back as bounds -/

namespace Indices

/-- The stop as a bound. The place before the first element has no number, and is left out. -/
def stopBound (i : Indices) : Option Int :=
  if i.stop = -1 then none else some i.stop

/-- Both ends lie within the limits to which bounds are clamped. -/
structure Within (i : Indices) (length : Int) : Prop where
  lower_le_start : lower i.step ≤ i.start
  start_le_upper : i.start ≤ upper i.step length
  lower_le_stop : lower i.step ≤ i.stop
  stop_le_upper : i.stop ≤ upper i.step length

theorem within_ofBounds (start stop : Option Int) (step : Int) {length : Int}
    (nonneg : 0 ≤ length) : (ofBounds start stop step length).Within length where
  lower_le_start := (startOf_within step nonneg start).1
  start_le_upper := (startOf_within step nonneg start).2
  lower_le_stop := (stopOf_within step nonneg stop).1
  stop_le_upper := (stopOf_within step nonneg stop).2

variable {i : Indices} {length : Int}

/-- What lies within a sequence lies within a longer one. -/
theorem Within.longer (h : i.Within length) {longer : Int} (le : length ≤ longer) :
    i.Within longer := by
  have grown : upper i.step length ≤ upper i.step longer := by
    unfold upper
    split <;> omega
  obtain ⟨lowStart, highStart, lowStop, highStop⟩ := h
  exact ⟨lowStart, highStart.trans grown, lowStop, highStop.trans grown⟩

/-- A place that an element has, or that is right behind the last one, is left alone by a clamp. -/
theorem clamp_eq_self {step n : Int} (low : 0 ≤ n) (high : n ≤ upper step length) :
    clamp step length n = n := by
  unfold clamp
  rw [if_neg low.not_gt, if_neg high.not_gt]

theorem stopOf_stopBound (h : i.Within length) : stopOf i.step length i.stopBound = i.stop := by
  obtain ⟨-, -, low, high⟩ := h
  unfold stopBound
  by_cases before : i.stop = -1
  · -- only a walk backward stops before the first element, and it does so by default
    have down : i.step < 0 := by
      by_contra up
      have : lower i.step = 0 := if_neg up
      omega
    rw [if_pos before, before]
    show (if i.step < 0 then lower i.step else _) = -1
    rw [if_pos down, lower_of_neg down]
  · have := neg_one_le_lower i.step
    rw [if_neg before]
    exact clamp_eq_self (by omega) high

/-- The start comes back as it was, unless it is read as the last element of a sequence. -/
theorem startOf_start_iff (h : i.Within length) (nonneg : 0 ≤ length) :
    startOf i.step length (some i.start) = i.start ↔ 0 ≤ i.start ∨ length = 0 := by
  obtain ⟨low, high, -, -⟩ := h
  by_cases inside : 0 ≤ i.start
  · exact iff_of_true (clamp_eq_self inside high) (.inl inside)
  · have := neg_one_le_lower i.step
    have before : i.start = -1 := by omega
    rw [before] at low ⊢
    show clamp i.step length (-1) = -1 ↔ _
    unfold clamp
    rw [if_pos (by decide), if_neg (by omega)]
    omega

/-- Indices that are given back as bounds come out as they are, unless they start before it all. -/
theorem ofBounds_again_iff (h : i.Within length) (nonneg : 0 ≤ length) :
    ofBounds (some i.start) i.stopBound i.step length = i ↔ 0 ≤ i.start ∨ length = 0 := by
  rw [← startOf_start_iff h nonneg, ofBounds, stopOf_stopBound h, Indices.mk.injEq]
  exact ⟨fun again => again.1, fun again => ⟨again, rfl, rfl⟩⟩

/-- A walk backward that has a position starts there. -/
theorem Within.start_nonneg (h : i.Within length) {r : Range} (found : i.positions? = some r)
    (ne_nil : r.toList ≠ []) (down : i.step < 0) : 0 ≤ i.start := by
  obtain ⟨-, -, low, -⟩ := h
  rw [lower_of_neg down] at low
  unfold positions? Range.of? at found
  rw [dif_pos down.ne, Option.some.injEq] at found
  subst found
  by_contra before
  apply ne_nil
  apply Range.toList_eq_nil
  unfold Range.span
  rw [if_neg down.not_gt]
  show (i.start - i.stop).toNat = 0
  omega

end Indices

/--
The indices of a slice, given back as the bounds of a slice with the same step, are its indices
again. Walking forward this holds over any longer sequence too. Walking backward it holds of every
walk that has a position, and fails just where the walk starts before the first of some elements.
-/
theorem indices_settled (c : Callbacks) (w : World) {s : Slice} {start stop : Option Int}
    {k length : Int} (bounds : s.bounds = .ofInts start stop (some k)) (nonzero : k ≠ 0)
    (nonneg : 0 ≤ length) :
    ∃ i : Indices, i.step = k ∧
      indices c s.bounds (.int length) w = { outcome := .ok i, events := [], world := w } ∧
      ∀ t : Slice, t.bounds = .ofInts (some i.start) i.stopBound (some k) →
        (0 < k → ∀ longer, length ≤ longer →
          indices c t.bounds (.int longer) w = { outcome := .ok i, events := [], world := w }) ∧
        (k < 0 → (∃ r, i.positions? = some r ∧ r.toList ≠ []) →
          indices c t.bounds (.int length) w = { outcome := .ok i, events := [], world := w }) ∧
        (indices c t.bounds (.int length) w = { outcome := .ok i, events := [], world := w } ↔
          0 ≤ i.start ∨ length = 0) := by
  refine ⟨.ofBounds start stop k length, rfl, indices_apply c w bounds nonzero nonneg, ?_⟩
  have within := Indices.within_ofBounds start stop k nonneg
  have step : (Indices.ofBounds start stop k length).step = k := rfl
  generalize Indices.ofBounds start stop k length = i at within step
  subst step
  intro t again
  have settled (n : Int) (nonneg : 0 ≤ n) (within : i.Within n) :
      indices c t.bounds (.int n) w = { outcome := .ok i, events := [], world := w } ↔
        0 ≤ i.start ∨ n = 0 := by
    rw [← Indices.ofBounds_again_iff within nonneg, indices_apply c w again nonzero nonneg]
    simp
  refine ⟨?_, ?_, settled length nonneg within⟩
  · intro up longer le
    have low := within.lower_le_start
    rw [Indices.lower_of_pos up] at low
    exact (settled longer (nonneg.trans le) (within.longer le)).mpr (.inl low)
  · rintro down ⟨r, found, ne_nil⟩
    exact (settled length nonneg within).mpr (.inl (within.start_nonneg found ne_nil down))

/--
Two walks backward over five elements. The first starts beyond the last element and is drawn in to
it. The other would stop far before the first element, which leaves a stop of -1, and that is left
out when it is given back.
-/
theorem indices_settled_backward :
    (Slice.ofInts (some 9) (some (-4)) (some (-2))).bounds =
        .ofInts (some 9) (some (-4)) (some (-2)) ∧
      (Slice.ofInts (some (-2)) (some (-9)) (some (-2))).bounds =
        .ofInts (some (-2)) (some (-9)) (some (-2)) ∧
      (-2 : Int) ≠ 0 ∧ (0 : Int) ≤ 5 ∧
      indices (Callbacks.ofDepth 0) (Slice.ofInts (some 9) (some (-4)) (some (-2))).bounds (.int 5)
        (World.initial .host) =
          { outcome := .ok ⟨4, 1, -2⟩, events := [], world := .initial .host } ∧
      indices (Callbacks.ofDepth 0) (Slice.ofInts (some 4) (some 1) (some (-2))).bounds (.int 5)
        (World.initial .host) =
          { outcome := .ok ⟨4, 1, -2⟩, events := [], world := .initial .host } ∧
      indices (Callbacks.ofDepth 0) (Slice.ofInts (some (-2)) (some (-9)) (some (-2))).bounds
        (.int 5) (World.initial .host) =
          { outcome := .ok ⟨3, -1, -2⟩, events := [], world := .initial .host } ∧
      indices (Callbacks.ofDepth 0) (Slice.ofInts (some 3) none (some (-2))).bounds (.int 5)
        (World.initial .host) =
          { outcome := .ok ⟨3, -1, -2⟩, events := [], world := .initial .host } := by
  have beyond := Slice.bounds_ofInts (some 9) (some (-4)) (some (-2))
  have before := Slice.bounds_ofInts (some (-2)) (some (-9)) (some (-2))
  have nonneg : (0 : Int) ≤ 5 := by decide
  obtain ⟨i, -, foundBeyond, again⟩ := indices_settled (Callbacks.ofDepth 0)
    (World.initial .host) beyond (by decide) nonneg
  obtain rfl : i = ⟨4, 1, -2⟩ :=
    Except.ok.inj (congrArg (fun run => run.outcome) foundBeyond).symm
  obtain ⟨-, backBeyond, -⟩ := again (Slice.ofInts (some 4) (some 1) (some (-2)))
    (Slice.bounds_ofInts (some 4) (some 1) (some (-2)))
  obtain ⟨i, -, foundBefore, again⟩ := indices_settled (Callbacks.ofDepth 0)
    (World.initial .host) before (by decide) nonneg
  obtain rfl : i = ⟨3, -1, -2⟩ :=
    Except.ok.inj (congrArg (fun run => run.outcome) foundBefore).symm
  obtain ⟨-, backBefore, -⟩ := again (Slice.ofInts (some 3) none (some (-2)))
    (Slice.bounds_ofInts (some 3) none (some (-2)))
  exact ⟨beyond, before, by decide, nonneg,
    foundBeyond, backBeyond (by decide) ⟨⟨4, 1, -2, by decide⟩, rfl, by decide⟩,
    foundBefore, backBefore (by decide) ⟨⟨3, -1, -2, by decide⟩, rfl, by decide⟩⟩

end Slicing
