import Slicing.Adjustment
import Slicing.Proofs.Locks.Comparing

/-!
# Making and adjusting values without a lock

Whatever a bound is asked while a value is made from it or adjusted to a length, it is asked from
rest. Making an object adds no lock to the world that the term for it does not describe.
-/

namespace Slicing

open Eval

variable {locks : List Lock} {c : Callbacks}

/-! ## Saturated slices -/

theorem saturateValue_calm (hc : c.Calm locks) (v : Value) : (saturateValue c v).Calm locks := by
  unfold saturateValue
  refine Ensures.words.andThen fun limits => ?_
  refine (holdsFor_calm hc .gt v _).andThen fun above => ?_
  split
  · exact Ensures.words.andThen fun _ => Ensures.pure trivial
  · refine Ensures.words.andThen fun limits => ?_
    refine (holdsFor_calm hc .lt v _).andThen fun below => ?_
    split
    · exact Ensures.words.andThen fun _ => Ensures.pure trivial
    · exact Ensures.pure trivial

theorem buildSaturated_calm (hc : c.Calm locks) (lineage : Lineage) (b : Bounds) :
    (buildSaturated c lineage b).Calm locks := by
  unfold buildSaturated
  refine (holdsFor_calm hc .eq b.step 0).andThen fun zero => ?_
  split
  · exact Ensures.raise _
  · refine (saturateValue_calm hc b.start).andThen fun start => ?_
    refine (saturateValue_calm hc b.stop).andThen fun stop => ?_
    refine (saturateValue_calm hc b.step).andThen fun step => ?_
    exact Ensures.allocate (List.nil_subset locks)

theorem allocateSaturated_calm (hc : c.Calm locks) (lineage : Lineage) (arguments : List Value) :
    (allocateSaturated c lineage arguments).Calm locks := by
  unfold allocateSaturated
  split
  · exact Ensures.raise _
  · exact Ensures.raise _
  · exact Ensures.raise _
  · exact buildSaturated_calm hc lineage _
  · exact Ensures.raise _

theorem saturatedOf_calm (lineage : Lineage) (start stop step : Int) :
    (saturatedOf lineage start stop step).Calm locks :=
  Ensures.words.andThen fun _ => Ensures.orRaise fun _ _ => trivial

theorem allocateMachine_calm (s : Saturated) : (allocateMachine s).Calm locks :=
  Ensures.allocate (List.nil_subset locks)

/-! ## Terms -/

theorem allocateSlice_calm (lineage : Lineage) (arguments : List Value) :
    (allocateSlice lineage arguments).Calm locks :=
  (Ensures.ofExcept _).andThen fun _ => Ensures.allocate (List.nil_subset locks)

theorem allocateAdjusted_calm (a : Adjusted) : (allocateAdjusted a).Calm locks :=
  (Ensures.allocate (List.nil_subset locks)).andThen fun _ =>
    Ensures.allocate (List.nil_subset locks)

mutual

theorem Term.read_calm (hc : c.Calm locks) :
    (t : Term) → t.locks ⊆ locks → (t.read c).Calm locks
  | .null, _ | .bool _, _ | .int _, _ | .text _, _ | .absent, _ => Ensures.pure trivial
  | .float _, _ | .set _, _ | .sequence _ _ _, _ => Ensures.allocate (List.nil_subset locks)
  | .list items, h =>
    (readAll_calm hc items h).andThen fun _ => Ensures.allocate (List.nil_subset locks)
  | .tuple items, h => (readAll_calm hc items h).andThen fun _ => Ensures.allocateTuple _
  | .slice _ arguments, h =>
    (readAll_calm hc arguments h).andThen fun _ => allocateSlice_calm _ _
  | .saturated _ arguments, h =>
    (readAll_calm hc arguments h).andThen fun _ => allocateSaturated_calm hc _ _
  | .adjusted _ step _, h =>
    (Ensures.ofExcept _).andThen fun _ =>
      (Term.read_calm hc step h).andThen fun _ =>
        (Ensures.ofExcept _).andThen fun _ => allocateAdjusted_calm _
  | .named _, _ => Ensures.world.andThen fun _ => Ensures.orRaise fun _ _ => trivial
  | .scripted _, h => Ensures.allocate h
  | .lock _, h => Ensures.allocate h

theorem readAll_calm (hc : c.Calm locks) :
    (ts : List Term) → Term.locksOfAll ts ⊆ locks → (Term.readAll c ts).Calm locks
  | [], _ => Ensures.pure trivial
  | t :: ts, h => by
    obtain ⟨first, rest⟩ := List.append_subset.mp h
    refine (Term.read_calm hc t first).andThen fun v => ?_
    exact (readAll_calm hc ts rest).andThen fun _ => Ensures.pure trivial

end

/-! ## Adjusting -/

theorem valueAbove_calm (hc : c.Calm locks) {beyond : Eval Value} (h : beyond.Calm locks)
    (v : Value) : (valueAbove c beyond v).Calm locks := by
  unfold valueAbove
  refine (holdsFor_calm hc .eq v (-1)).andThen fun last => ?_
  split
  · exact h
  · exact (addInteger_calm "+" v 1).andThen fun above => saturateValue_calm hc above

theorem stepMagnitude_calm (hc : c.Calm locks) (v : Value) : (stepMagnitude c v).Calm locks := by
  unfold stepMagnitude
  refine Ensures.words.andThen fun limits => ?_
  refine (holdsFor_calm hc .eq v _).andThen fun least => ?_
  split
  · exact Ensures.words.andThen fun _ => Ensures.pure trivial
  · exact applyUnary_calm _ _ _ v

theorem clampValue_calm (hc : c.Calm locks) (v : Value) (length : Int) :
    (clampValue c v length).Calm locks := by
  have fromStart (length : Int) : (clampValue.fromStart c length v).Calm locks := by
    unfold clampValue.fromStart
    refine (holdsFor_calm hc .lt v 0).andThen fun negative => ?_
    split
    · refine (addInteger_calm "+=" v length).andThen fun p => ?_
      refine (holdsFor_calm hc .lt p 0).andThen fun before => ?_
      split
      · exact Ensures.pure trivial
      · exact Ensures.pure trivial
    · exact Ensures.pure trivial
  unfold clampValue
  refine Ensures.words.andThen fun limits => ?_
  refine (fromStart _).andThen fun p => ?_
  refine (holdsFor_calm hc .gt p _).andThen fun beyond => ?_
  split
  · exact Ensures.pure trivial
  · exact Ensures.pure trivial

theorem toInteger_calm (hc : c.Calm locks) (v : Value) : (toInteger c v).Calm locks :=
  indexOr_calm hc .notAnInteger v

theorem turnUpwards_calm (hc : c.Calm locks) (b : Bounds) (length : Int) :
    (turnUpwards c b length).Calm locks := by
  unfold turnUpwards
  refine Ensures.words.andThen fun limits => ?_
  refine (holdsFor_calm hc .lt b.step 0).andThen fun backward => ?_
  split
  · refine (valueAbove_calm hc (saturateValue_calm hc _) b.stop).andThen fun start => ?_
    refine (valueAbove_calm hc (Ensures.pure trivial) b.start).andThen fun stop => ?_
    exact (stepMagnitude_calm hc b.step).andThen fun _ => Ensures.pure trivial
  · exact Ensures.pure trivial

theorem adjustBounds_calm (hc : c.Calm locks) (b : Bounds) (length : Int) :
    (adjustBounds c b length).Calm locks := by
  unfold adjustBounds
  split
  · exact Ensures.raise _
  · refine (turnUpwards_calm hc b length).andThen fun (b, direction) => ?_
    refine Ensures.words.andThen fun limits => ?_
    refine (holdsFor_calm hc .le b.step _).andThen fun reaches => ?_
    refine (clampValue_calm hc b.start length).andThen fun low => ?_
    refine (clampValue_calm hc b.stop length).andThen fun high => ?_
    refine (toInteger_calm hc low).andThen fun low => ?_
    exact (toInteger_calm hc high).andThen fun _ => Ensures.pure trivial

/-! ## Walking -/

theorem rangeOf_calm (hc : c.Calm locks) (start stop step : Value) :
    (rangeOf c start stop step).Calm locks := by
  unfold rangeOf
  refine (toInteger_calm hc start).andThen fun start => ?_
  refine (toInteger_calm hc stop).andThen fun stop => ?_
  exact (toInteger_calm hc step).andThen fun step => Ensures.orRaise fun _ _ => trivial

theorem takeElements_calm (n : Nat) (v : Value) : (takeElements n v).Calm locks := by
  unfold takeElements
  refine Ensures.world.andThen fun w => ?_
  split
  · exact Ensures.pure trivial
  · exact Ensures.pure trivial
  · exact Ensures.pure trivial
  · exact Ensures.pure trivial
  · exact (Ensures.store _ (List.nil_subset locks)).andThen fun _ => Ensures.pure trivial
  · exact Ensures.pure trivial

theorem takeApart_calm (v : Value) : (takeApart v).Calm locks := by
  unfold takeApart
  refine (takeElements_calm 4 v).andThen fun parts => ?_
  split
  · exact Ensures.pure trivial
  · exact Ensures.raise _
  · exact Ensures.world.andThen fun w => Ensures.raise _

theorem readField_calm (v : Value) (field : Field) : (readField v field).Calm locks :=
  Ensures.world.andThen fun _ => Ensures.ofExcept _

theorem walk_calm (hc : c.Calm locks) (stretch step direction : Value) :
    (walk c stretch step direction).Calm locks := by
  unfold walk
  dsimp only
  split
  · refine (readField_calm stretch .stop).andThen fun stop => ?_
    refine (addInteger_calm "-" stop (-1)).andThen fun start => ?_
    refine (readField_calm stretch .start).andThen fun begin => ?_
    refine (addInteger_calm "-" begin (-1)).andThen fun stop => ?_
    exact (applyUnary_calm _ _ _ _).andThen fun step => rangeOf_calm hc start stop step
  · refine (readField_calm stretch .start).andThen fun start => ?_
    exact (readField_calm stretch .stop).andThen fun stop => rangeOf_calm hc start stop _

theorem positionsOf_calm (hc : c.Calm locks) (adjusted : Value) :
    (positionsOf c adjusted).Calm locks :=
  (takeApart_calm adjusted).andThen fun (stretch, step, direction) =>
    walk_calm hc stretch step direction

theorem countOf_calm (hc : c.Calm locks) (adjusted : Value) : (countOf c adjusted).Calm locks :=
  (positionsOf_calm hc adjusted).andThen fun r => countElements_calm r

end Slicing
