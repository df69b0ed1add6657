import Slicing.Operator
import Slicing.Proofs.Locks.Calling

/-!
# Comparing without a lock

A comparison is calm if the callbacks are: all that it does beyond calling back is to look at the
world and to let the event of a call happen.
-/

namespace Slicing

open Eval

variable {locks : List Lock} {c : Callbacks}

/-! ## Field by field -/

theorem identicalOrEqual_calm (hc : c.Calm locks) (a b : Value) :
    (identicalOrEqual c a b).Calm locks := by
  unfold identicalOrEqual
  split
  · exact Ensures.pure trivial
  · exact (hc.compare .eq a b).andThen fun answer => truth_calm hc answer

theorem compareField_calm (hc : c.Calm locks) (op : Comparison) (a b : Value) :
    (compareField c op a b).Calm locks := by
  unfold compareField
  refine (identicalOrEqual_calm hc a b).andThen fun tie => ?_
  split
  · exact Ensures.pure trivial
  · refine (hc.compare op a b).andThen fun answer => ?_
    exact (truth_calm hc answer).andThen fun _ => Ensures.pure trivial

theorem sequenceEqual_calm (hc : c.Calm locks) {draws : List Draw}
    (h : ∀ draw ∈ draws, Eval.Calm locks draw) : (sequenceEqual c draws).Calm locks := by
  induction draws with
  | nil => exact Ensures.pure trivial
  | cons draw draws ih =>
    unfold sequenceEqual
    refine (h draw List.mem_cons_self).andThen fun (a, b) => ?_
    refine (identicalOrEqual_calm hc a b).andThen fun tie => ?_
    split
    · exact ih fun d mem => h d (List.mem_cons_of_mem draw mem)
    · exact Ensures.pure trivial

theorem decideBy_calm (hc : c.Calm locks) (op : Comparison) {draws : List Draw}
    (h : ∀ draw ∈ draws, Eval.Calm locks draw) : (decideBy c op draws).Calm locks := by
  induction draws with
  | nil => exact Ensures.pure trivial
  | cons draw draws ih =>
    unfold decideBy
    refine (h draw List.mem_cons_self).andThen fun (a, b) => ?_
    refine (compareField_calm hc op a b).andThen fun answer => ?_
    split
    · exact Ensures.pure trivial
    · exact ih fun d mem => h d (List.mem_cons_of_mem draw mem)

theorem lexicographic_calm (hc : c.Calm locks) (op : Comparison) {draws : List Draw}
    (h : ∀ draw ∈ draws, Eval.Calm locks draw) : (lexicographic c op draws).Calm locks := by
  unfold lexicographic
  split
  · exact decideBy_calm hc op h
  · exact Ensures.raise _

theorem Bounds.compare_calm (hc : c.Calm locks) (op : Comparison) (a b : Bounds) :
    (a.compare c op b).Calm locks := by
  have quiet : ∀ draw ∈ (a.pairs b).map (Pure.pure : Value × Value → Draw),
      Eval.Calm locks draw := by
    intro draw mem
    obtain ⟨pair, -, rfl⟩ := List.mem_map.mp mem
    exact Ensures.pure trivial
  unfold Bounds.compare
  dsimp only
  split
  · exact sequenceEqual_calm hc quiet
  · exact (sequenceEqual_calm hc quiet).andThen fun _ => Ensures.pure trivial
  · exact lexicographic_calm hc op quiet

/-! ## Rows of values -/

theorem firstDifference_calm (hc : c.Calm locks) (pairs : List (Value × Value)) :
    (firstDifference c pairs).Calm locks := by
  induction pairs with
  | nil => exact Ensures.pure trivial
  | cons pair pairs ih =>
    obtain ⟨a, b⟩ := pair
    rw [firstDifference_eq_cons]
    refine (identicalOrEqual_calm hc a b).andThen fun tie => ?_
    split
    · exact ih
    · exact Ensures.pure trivial

theorem decideOn_calm (hc : c.Calm locks) (op : Comparison) (a b : Value) :
    (decideOn c op a b).Calm locks := by
  unfold decideOn
  split
  · exact Ensures.pure trivial
  · exact Ensures.pure trivial
  · exact hc.compare op a b

theorem compareTuples_calm (hc : c.Calm locks) (op : Comparison) (xs ys : List Value) :
    (compareTuples c op xs ys).Calm locks := by
  unfold compareTuples
  refine (firstDifference_calm hc _).andThen fun pair => ?_
  cases pair with
  | some pair => exact decideOn_calm hc op pair.1 pair.2
  | none => exact Ensures.pure trivial

theorem firstListDifference_calm (hc : c.Calm locks) (a b : Value) (rounds done : Nat) :
    (firstListDifference c a b rounds done).Calm locks := by
  induction rounds generalizing done with
  | zero =>
    unfold firstListDifference
    refine Ensures.world.andThen fun w => ?_
    split
    · exact Ensures.pure trivial
    · exact Ensures.exhausted
  | succ rounds ih =>
    unfold firstListDifference
    refine Ensures.world.andThen fun w => ?_
    dsimp only
    split
    · exact Ensures.pure trivial
    · refine (firstDifference_calm hc _).andThen fun pair => ?_
      split
      · exact Ensures.pure trivial
      · exact ih _

theorem compareLists_calm (hc : c.Calm locks) (op : Comparison) (a b : Value) :
    (compareLists c op a b).Calm locks := by
  unfold compareLists
  refine Ensures.world.andThen fun w => ?_
  by_cases lengths : (!op.isOrder && (w.listItems a).length != (w.listItems b).length) = true
  · rw [if_pos lengths]
    exact Ensures.pure trivial
  · rw [if_neg lengths]
    refine (firstListDifference_calm hc a b _ _).andThen fun pair => ?_
    cases pair with
    | some pair => exact decideOn_calm hc op pair.1 pair.2
    | none => exact Ensures.world.andThen fun _ => Ensures.pure trivial

/-! ## Operators -/

theorem compareMethod_calm (hc : c.Calm locks) (op : Comparison) (a b : Value) :
    (compareMethod c op a b).Calm locks := by
  unfold compareMethod
  refine Ensures.world.bind fun w rest => ?_
  split
  · exact Ensures.pure trivial
  · next cell eq =>
    split
    · next s _ =>
      refine (Ensures.emit (e := .compared op s.name (w.view b)) trivial).andThen fun _ => ?_
      exact take_calm hc (List.Subset.trans (s.locks_method_subset op) (rest.locks_of_cell? eq))
    · exact Ensures.pure trivial
    · exact (Bounds.compare_calm hc op _ _).andThen fun _ => Ensures.pure trivial
    · split
      · exact Ensures.pure trivial
      · exact compareTuples_calm hc op _ _
    · exact compareLists_calm hc op a b
    · exact Ensures.pure trivial
    · exact Ensures.pure trivial
    · exact Ensures.pure trivial
    · exact Ensures.pure trivial
    · exact Ensures.pure trivial
    · split
      · exact compareTuples_calm hc op _ _
      · exact Ensures.pure trivial

theorem compareUnknown_calm (op : Comparison) (a b : Value) :
    (compareUnknown op a b).Calm locks := by
  unfold compareUnknown
  split
  · exact Ensures.pure trivial
  · exact Ensures.pure trivial
  · exact Ensures.world.andThen fun w => Ensures.raise _

theorem orElseAsk_calm {first second : Eval Value} (h : first.Calm locks)
    (h' : second.Calm locks) : (orElseAsk first second).Calm locks := by
  unfold orElseAsk
  refine h.andThen fun answer => ?_
  split
  · exact h'
  · exact Ensures.pure trivial

theorem compareValues_calm (hc : c.Calm locks) (op : Comparison) (a b : Value) :
    (compareValues c op a b).Calm locks := by
  have left := compareMethod_calm hc op a b
  have right := compareMethod_calm hc op.swapped b a
  have unknown : (compareUnknown op a b).Calm locks := compareUnknown_calm op a b
  unfold compareValues
  refine Ensures.world.andThen fun w => ?_
  dsimp only
  split
  · exact orElseAsk_calm right (orElseAsk_calm left unknown)
  · exact orElseAsk_calm left (orElseAsk_calm right unknown)

end Slicing
