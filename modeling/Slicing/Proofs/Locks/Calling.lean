import Slicing.Arithmetic
import Slicing.Proofs.Locks.Contract
import Slicing.Proofs.Measuring

/-!
# Calling scripted objects without a lock

A call is made from rest, so the event it leaves shows no lock held. Whatever the object answers
is calm by what is assumed of the callbacks, and the locks in its script are known because the
object is in the world.
-/

namespace Slicing

open Eval

/-- Callbacks that are calm as long as they are given no other locks than `locks`. -/
structure Callbacks.Calm (locks : List Lock) (c : Callbacks) : Prop where
  compare : ∀ op a b, (c.compare op a b).Calm locks
  perform : ∀ step, step.locks ⊆ locks → (c.perform step).Calm locks
  read : ∀ t, t.locks ⊆ locks → (c.read t).Calm locks

variable {locks : List Lock} {c : Callbacks}

theorem pickFrom_calm (v : Value) (place : Option Nat) : (pickFrom v place).Calm locks := by
  unfold pickFrom
  cases place with
  | none => exact Ensures.pure trivial
  | some i =>
    have element (e : Error) (o : Option Value) : (orRaise e o).Calm locks :=
      Ensures.orRaise fun _ _ => trivial
    refine Ensures.world.andThen fun w => ?_
    split
    · exact element _ _
    · exact element _ _
    · exact element _ _
    · split
      · exact element _ _
      · exact Ensures.raise _

theorem take_calm (hc : c.Calm locks) {o : Outcome} (h : o.locks ⊆ locks) :
    (o.take c).Calm locks := by
  cases o with
  | raises e => exact Ensures.raise e
  | notImplemented => exact Ensures.pure trivial
  | gives term => exact hc.read term h
  | performs step place =>
    refine (hc.perform step h).andThen fun result => ?_
    cases result with
    | value v => exact pickFrom_calm v place
    | report r =>
      dsimp only
      split
      · exact Ensures.pure trivial
      · exact Ensures.raise _

/-! ## Index -/

theorem lengthen_calm (name : String) (amount : Int) : (lengthen name amount).Calm locks := by
  unfold lengthen
  refine Ensures.world.andThen fun w => ?_
  split
  · split
    · exact Ensures.store _ (List.nil_subset locks)
    · exact Ensures.pure trivial
  · exact Ensures.pure trivial

theorem callIndex_calm (hc : c.Calm locks) (a : Address) {s : Script} (hs : s.locks ⊆ locks)
    (calls : Nat) : (callIndex c a s calls).Calm locks := by
  have answer : (do
      let answer ← (s.outcome calls).take c
      orRaise (.indexNotInteger ((← Eval.world).kind answer)) answer.toInt?).Calm locks := by
    refine (take_calm hc (List.Subset.trans (s.locks_outcome_subset calls) hs)).andThen fun v => ?_
    exact Ensures.world.andThen fun w => Ensures.orRaise fun _ _ => trivial
  unfold callIndex
  refine Ensures.world.bind fun w rest => ?_
  -- the only place where an object is asked for its index
  refine (Ensures.emit (e := .indexed s.name w.isLocked) rest.isLocked).andThen fun _ => ?_
  refine (Ensures.store a hs).andThen fun _ => ?_
  dsimp only
  split
  · exact (lengthen_calm _ _).andThen fun _ => answer
  · exact answer

theorem indexOr_calm (hc : c.Calm locks) (refused : Kind → Error) (v : Value) :
    (indexOr c refused v).Calm locks := by
  unfold indexOr
  refine Ensures.world.bind fun w rest => ?_
  split
  · next a s calls eq =>
    split
    -- the object is in the world, so the locks in its script are known
    · exact callIndex_calm hc a (rest.locks_of_cell? eq) calls
    · exact Ensures.raise _
  · exact Ensures.orRaise fun _ _ => trivial

/-! ## Length and truth -/

theorem countElements_calm (r : Range) : (countElements r).Calm locks := by
  unfold countElements
  split
  · exact Ensures.raise _
  · exact Ensures.pure trivial

theorem measure_calm (v : Value) : (measure v).Calm locks := by
  intro w rest
  rw [measure_apply]
  refine ⟨rest, ?_, fun _ _ => trivial⟩
  unfold World.lengthLog
  split
  · exact Orderly.singleton rest.isLocked
  · exact Orderly.nil

theorem callTruth_calm (hc : c.Calm locks) {s : Script} (hs : s.locks ⊆ locks) :
    (callTruth c s).Calm locks := by
  unfold callTruth
  refine (Ensures.emit (e := .tested s.name) trivial).andThen fun _ => ?_
  split
  · exact Ensures.pure trivial
  · next o eq =>
    refine (take_calm hc (List.Subset.trans (s.locks_truth_subset eq) hs)).andThen fun v => ?_
    split
    · exact Ensures.pure trivial
    · exact Ensures.world.andThen fun w => Ensures.raise _

theorem truth_calm (hc : c.Calm locks) (v : Value) : (truth c v).Calm locks := by
  cases v with
  | object a =>
    refine Ensures.world.bind fun w rest => ?_
    cases eq : w.cell? (.object a) with
    | none => exact Ensures.pure trivial
    | some cell =>
      cases cell with
      | sequence name n error => exact (measure_calm _).andThen fun _ => Ensures.pure trivial
      | scripted s calls => exact callTruth_calm hc (rest.locks_of_cell? eq)
      | _ => exact Ensures.pure trivial
  | _ => exact Ensures.pure trivial

/-! ## Arithmetic -/

theorem allocateNumber_calm (n : Number) : (allocateNumber n).Calm locks :=
  Ensures.allocate (List.nil_subset locks)

theorem addInteger_calm (operation : String) (v : Value) (n : Int) :
    (addInteger operation v n).Calm locks := by
  unfold addInteger
  split
  · exact Ensures.pure trivial
  · refine Ensures.world.andThen fun w => ?_
    split
    · refine (Ensures.orRaise fun _ _ => trivial).andThen fun y => ?_
      exact allocateNumber_calm _
    · exact Ensures.raise _

theorem applyUnary_calm (operation : String) (onInt : Int → Int) (onNumber : Number → Number)
    (v : Value) : (applyUnary operation onInt onNumber v).Calm locks := by
  unfold applyUnary
  split
  · exact Ensures.pure trivial
  · refine Ensures.world.andThen fun w => ?_
    split
    · exact allocateNumber_calm _
    · exact Ensures.raise _

theorem holdsFor_calm (hc : c.Calm locks) (op : Comparison) (v : Value) (n : Int) :
    (holdsFor c op v n).Calm locks := by
  unfold holdsFor
  split
  · exact Ensures.pure trivial
  · exact (hc.compare op v (.int n)).andThen fun answer => truth_calm hc answer

end Slicing
