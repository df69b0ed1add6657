import Slicing.Clone
import Slicing.Description
import Slicing.Hashing
import Slicing.Proofs.Locks.Converting

/-!
# Copying and hashing without a lock

A deep copy keeps a table beside the world. It is calm if it is so from any table. Copies are made
of containers only: a lock or a scripted object stands for itself, so no copy brings a new one.
-/

namespace Slicing

open Eval

variable {locks : List Lock} {c : Callbacks}

namespace Copying

variable {α β : Type}

/-- From rest, and with any table, a copy comes to rest again with an orderly log. -/
def Calm (locks : List Lock) (x : Copying α) : Prop :=
  ∀ table : CopyTable, (x.run table).Calm locks

theorem Calm.pure (a : α) : Calm locks (pure a : Copying α) := by
  intro table
  exact Ensures.pure trivial

theorem Calm.lift {x : Eval α} (h : x.Calm locks) : Calm locks (x : Copying α) := by
  intro table
  exact h.andThen fun _ => Ensures.pure trivial

theorem Calm.andThen {x : Copying α} {f : α → Copying β} (hx : Calm locks x)
    (hf : ∀ a, Calm locks (f a)) : Calm locks (x >>= f) := by
  intro table
  rw [StateT.run_bind]
  exact (hx table).andThen fun (a, table') => hf a table'

theorem Calm.mapM {f : α → Copying β} (h : ∀ a, Calm locks (f a)) (as : List α) :
    Calm locks (as.mapM f) := by
  induction as with
  | nil =>
    rw [List.mapM_nil]
    exact Calm.pure _
  | cons a as ih =>
    rw [List.mapM_cons]
    exact (h a).andThen fun _ => ih.andThen fun _ => Calm.pure _

theorem Calm.known? (a : Address) : Calm locks (known? a) := by
  intro table
  exact Ensures.pure trivial

theorem Calm.record (a : Address) (copy : Value) : Calm locks (record a copy) := by
  intro table
  exact Ensures.pure trivial

/-- Makes an object that holds no lock, and enters it as the copy of another. -/
theorem Calm.allocate {cell : Cell} (h : cell.locks ⊆ locks) (a : Address) :
    Calm locks (do Copying.record a (← Eval.allocate cell)) :=
  (Calm.lift (Ensures.allocate h)).andThen fun _ => Calm.record a _

end Copying

open Copying (Calm)

/-! ## Copies -/

theorem CopySource.world_calm (source : CopySource) : source.world.Calm locks := by
  cases source with
  | live => exact Ensures.world.calm
  | stored w => exact Ensures.pure trivial

theorem copyItems_calm (source : CopySource) {copyItem : Value → Copying Value}
    (h : ∀ v, Calm locks (copyItem v)) (list : Value) (rounds done : Nat) :
    Calm locks (copyItems source copyItem list rounds done) := by
  induction rounds generalizing done with
  | zero =>
    unfold copyItems
    refine (Calm.lift source.world_calm).andThen fun w => ?_
    split
    · exact Calm.pure _
    · exact Calm.lift Ensures.exhausted
  | succ rounds ih =>
    unfold copyItems
    refine (Calm.lift source.world_calm).andThen fun w => ?_
    dsimp only
    split
    · exact Calm.pure _
    · refine (Calm.mapM h _).andThen fun copies => ?_
      exact (ih _).andThen fun _ => Calm.pure _

theorem copyValue_calm (hc : c.Calm locks) (source : CopySource) (fuel : Nat) (v : Value) :
    Calm locks (copyValue c source fuel v) := by
  induction fuel generalizing v with
  | zero =>
    cases v with
    | object a => exact Calm.lift Ensures.exhausted
    | _ => exact Calm.pure _
  | succ fuel ih =>
    cases v with
    | object a =>
      unfold copyValue
      refine (Calm.known? a).andThen fun known => ?_
      cases known with
      | some copy => exact Calm.pure _
      | none =>
        refine (Calm.lift source.world_calm).andThen fun w => ?_
        cases w.cell? (.object a) with
        | none => exact Calm.pure _
        | some cell =>
          cases cell with
          | list items =>
            refine (Calm.lift (Ensures.allocate (List.nil_subset locks))).andThen fun new => ?_
            refine (Calm.record a new).andThen fun copy => ?_
            refine (copyItems_calm source ih _ _ _).andThen fun items => ?_
            dsimp only
            split
            · refine (Calm.lift (Ensures.store _ (List.nil_subset locks))).andThen fun _ => ?_
              exact Calm.pure _
            · exact Calm.pure _
          | set items => exact Calm.allocate (List.nil_subset locks) a
          | tuple items =>
            refine (Calm.mapM ih items).andThen fun copies => ?_
            -- a tuple may have come to be copied while its elements were
            refine (Calm.known? a).andThen fun known => ?_
            cases known with
            | some copy => exact Calm.pure _
            | none =>
              dsimp only
              split
              · exact Calm.pure _
              · exact (Calm.lift (Ensures.allocateTuple _)).andThen fun _ => Calm.record a _
          | slice s =>
            refine (Calm.mapM ih s.arguments).andThen fun arguments => ?_
            exact (Calm.lift (allocateSlice_calm s.lineage _)).andThen fun _ => Calm.record a _
          | saturated lineage b =>
            refine (ih b.start).andThen fun start => ?_
            refine (ih b.stop).andThen fun stop => ?_
            refine (ih b.step).andThen fun step => ?_
            exact (Calm.lift (buildSaturated_calm hc lineage _)).andThen fun _ => Calm.record a _
          | adjusted stretch step direction =>
            refine (ih stretch).andThen fun stretch => ?_
            exact (ih step).andThen fun step => Calm.allocate (List.nil_subset locks) a
          | iterator r drawn => exact Calm.allocate (List.nil_subset locks) a
          | range r =>
            dsimp only
            split
            · exact Calm.allocate (List.nil_subset locks) a
            · exact Calm.pure _
          | float written =>
            dsimp only
            split
            · exact Calm.lift (Ensures.allocate (List.nil_subset locks))
            · exact Calm.pure _
          | _ => exact Calm.pure _
    | _ => exact Calm.pure _

theorem copyAll_calm (hc : c.Calm locks) (source : CopySource) (v : Value) :
    (copyAll c source v).Calm locks := by
  unfold copyAll
  refine Ensures.world.andThen fun w => ?_
  exact (copyValue_calm hc source _ v []).andThen fun _ => Ensures.pure trivial

theorem copyShallow_calm (hc : c.Calm locks) (v : Value) : (copyShallow c v).Calm locks := by
  unfold copyShallow
  refine Ensures.world.andThen fun w => ?_
  cases w.cell? v with
  | none => exact Ensures.pure trivial
  | some cell =>
    cases cell with
    | list items => exact Ensures.allocate (List.nil_subset locks)
    | set items => exact Ensures.allocate (List.nil_subset locks)
    | saturated lineage b => exact buildSaturated_calm hc lineage b
    | adjusted stretch step direction => exact Ensures.allocate (List.nil_subset locks)
    | iterator r drawn => exact Ensures.allocate (List.nil_subset locks)
    | _ => exact Ensures.pure trivial

theorem copy_calm (hc : c.Calm locks) (mode : CopyMode) (v : Value) :
    (copy c mode v).Calm locks := by
  cases mode with
  | shallow => exact copyShallow_calm hc v
  | deep => exact copyAll_calm hc .live v
  | stored => exact Ensures.world.andThen fun w => copyAll_calm hc (.stored w) v

theorem copyReport_calm (hc : c.Calm locks) (mode : CopyMode) (v : Value) :
    (copyReport c mode v).Calm locks := by
  unfold copyReport
  refine (copy_calm hc mode v).andThen fun copy => ?_
  refine (hc.compare .eq copy v).andThen fun answer => ?_
  refine (truth_calm hc answer).andThen fun equal => ?_
  exact Ensures.world.andThen fun w => Ensures.pure trivial

/-! ## Hash keys -/

theorem hashKeyTo_calm (depth : Nat) (v : Value) : (hashKeyTo depth v).Calm locks := by
  induction depth generalizing v with
  | zero =>
    cases v with
    | object a => exact Ensures.exhausted
    | _ => exact Ensures.pure trivial
  | succ depth ih =>
    have all (items : List Value) : (items.mapM (hashKeyTo depth)).Calm locks :=
      (Ensures.mapM fun v _ => ih v).calm
    cases v with
    | object a =>
      unfold hashKeyTo
      refine Ensures.world.andThen fun w => ?_
      cases w.cell? (.object a) with
      | none => exact Ensures.pure trivial
      | some cell =>
        cases cell with
        | tuple items => exact (all items).andThen fun _ => Ensures.pure trivial
        | adjusted stretch step direction => exact (all _).andThen fun _ => Ensures.pure trivial
        | saturated lineage b => exact (all b.toList).andThen fun _ => Ensures.pure trivial
        | list items => exact Ensures.raise _
        | set items => exact Ensures.raise _
        | slice s => exact Ensures.raise _
        | scripted s calls => exact Ensures.raise _
        | _ => exact Ensures.pure trivial
    | _ => exact Ensures.pure trivial

theorem hashKey_calm (v : Value) : (hashKey v).Calm locks :=
  Ensures.world.andThen fun _ => hashKeyTo_calm _ v

/-! ## Descriptions -/

theorem describe_calm (v : Value) : (describe v).Calm locks := by
  unfold describe
  refine Ensures.world.andThen fun w => ?_
  split
  · exact Ensures.pure trivial
  · exact Ensures.pure trivial
  · exact Ensures.pure trivial
  · exact Ensures.raise _

end Slicing
