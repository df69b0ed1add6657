import Slicing.Proofs.Locks.Converting

/-!
# The one stretch under a lock

Every bound is asked before the lock is entered. Under the lock nothing is left but the reading of
a length, which calls nothing back, so the lock is left again before anything else can happen,
however the reading ends and whatever the lock does with an error.
-/

namespace Slicing

open Eval

variable {locks : List Lock} {c : Callbacks}

/-! ## Resolution -/

theorem toIndex_calm (hc : c.Calm locks) (template : Option String) (v : Value) :
    (toIndex c template v).Calm locks :=
  indexOr_calm hc _ v

theorem toIndex?_calm (hc : c.Calm locks) (v : Value) : (toIndex? c v).Calm locks := by
  unfold toIndex?
  split
  · exact Ensures.pure trivial
  · exact (toIndex_calm hc none v).andThen fun _ => Ensures.pure trivial

theorem checkStep_calm (step : Option Int) : (checkStep step).Calm locks := by
  unfold checkStep
  split
  · exact Ensures.pure trivial
  · split
    · exact Ensures.raise _
    · exact Ensures.pure trivial

theorem normalise_calm (hc : c.Calm locks) (m : Members) (length : Int) :
    (normalise c m length).Calm locks := by
  unfold normalise
  refine (Ensures.ofExcept _).andThen fun step => ?_
  refine (toIndex?_calm hc step).andThen fun step => ?_
  refine (checkStep_calm step).andThen fun step => ?_
  refine (Ensures.ofExcept _).andThen fun start => ?_
  refine (toIndex?_calm hc start).andThen fun start => ?_
  refine (Ensures.ofExcept _).andThen fun stop => ?_
  exact (toIndex?_calm hc stop).andThen fun _ => Ensures.pure trivial

theorem indices_calm (hc : c.Calm locks) (b : Bounds) (length : Value) :
    (indices c b length).Calm locks := by
  unfold indices
  refine (toIndex_calm hc _ length).andThen fun n => ?_
  split
  · exact Ensures.raise _
  · exact normalise_calm hc b.members n

theorem saturateField_calm (field : Field) (n : Int) : (saturateField field n).Calm locks := by
  unfold saturateField
  refine Ensures.words.andThen fun words => ?_
  dsimp only
  split
  · refine (Ensures.emit (e := .saturated field n _) trivial).andThen fun _ => ?_
    exact Ensures.pure trivial
  · exact Ensures.pure trivial

theorem resolveField_calm (hc : c.Calm locks) (field : Field) (v : Value) :
    (resolveField c field v).Calm locks := by
  unfold resolveField
  refine (toIndex?_calm hc v).andThen fun n => ?_
  split
  · exact Ensures.pure trivial
  · exact (saturateField_calm field _).andThen fun _ => Ensures.pure trivial

theorem resolve_calm (hc : c.Calm locks) (lineage : Lineage) (m : Members) :
    (resolve c lineage m).Calm locks := by
  unfold resolve
  refine (Ensures.ofExcept _).andThen fun step => ?_
  refine (resolveField_calm hc .step step).andThen fun step => ?_
  refine (checkStep_calm step).andThen fun step => ?_
  refine (Ensures.ofExcept _).andThen fun start => ?_
  refine (resolveField_calm hc .start start).andThen fun start => ?_
  refine Ensures.words.andThen fun words => ?_
  refine (Ensures.ofExcept _).andThen fun stop => ?_
  refine (resolveField_calm hc .stop stop).andThen fun stop => ?_
  exact Ensures.words.andThen fun words => saturatedOf_calm lineage _ _ step

/-! ## Windows -/

theorem adjust_calm (s : Saturated) (length : Int) : (adjust s length).Calm locks :=
  Ensures.words.andThen fun _ => Ensures.orRaise fun _ _ => trivial

theorem positions_calm (w : Window) : (positions w).Calm locks :=
  Ensures.orRaise fun _ _ => trivial

theorem count_calm (w : Window) : (count w).Calm locks :=
  (positions_calm w).andThen fun r => countElements_calm r

theorem currentPositions_calm (s : Saturated) (sequence : Value) :
    (currentPositions s sequence).Calm locks :=
  (measure_calm sequence).andThen fun n =>
    (adjust_calm s n).andThen fun window => positions_calm window

/-- Under a lock the length may show that it was read, and nothing else shows. -/
theorem currentPositions_measures (s : Saturated) (sequence : Value) {w : World}
    (locked : w.isLocked = true) :
    ∀ e ∈ (currentPositions s sequence w).events, e.Measures := by
  intro e mem
  rw [(currentPositions_run s sequence w).2, World.lengthLog] at mem
  split at mem
  · next name _ _ _ =>
    rw [List.mem_singleton, locked] at mem
    exact ⟨name, mem⟩
  · exact absurd mem List.not_mem_nil

/-! ## Locks -/

/-- Leaving a lock shows once, and the lock is held no longer, whatever becomes of the outcome. -/
theorem leave_apply {α : Type} (l : Lock) (outcome : Except Fault α) (w : World) :
    (leave l outcome w).world = { w with held := w.held - 1 } ∧
      ∃ error, (leave l outcome w).events = [.left l.name error] := by
  unfold leave
  cases outcome with
  | ok a => cases l.exitError <;> exact ⟨rfl, none, rfl⟩
  | error fault =>
    cases fault with
    | raised e =>
      cases l.exitError with
      | some own => exact ⟨rfl, some e.kind, rfl⟩
      | none => cases l.suppresses <;> exact ⟨rfl, some e.kind, rfl⟩
    | exhausted => exact ⟨rfl, none, rfl⟩

/-- A lock that refuses to be entered leaves its entry alone in the log. -/
theorem guarded_of_refused {α : Type} {l : Lock} {e : Error} (refuses : l.enterError = some e)
    (x : Eval α) (w : World) :
    (guarded l x w).world = w ∧ (guarded l x w).events = [.entered l.name] := by
  unfold guarded
  rw [refuses]
  exact ⟨rfl, rfl⟩

/-- What is run under a lock stands between the entry and the exit. -/
theorem guarded_of_admitted {α : Type} {l : Lock} (admits : l.enterError = none) {x : Eval α}
    (frame : ∀ w, (x w).world = w) (w : World) :
    (guarded l x w).world = w ∧ ∃ error, (guarded l x w).events =
      .entered l.name :: ((x { w with held := w.held + 1 }).events ++ [.left l.name error]) := by
  let inside : World := { w with held := w.held + 1 }
  obtain ⟨world, error, events⟩ := leave_apply l (x inside).outcome inside
  unfold guarded
  rw [admits]
  -- after the entry the log goes on with that of `x`, and then with that of leaving
  refine ⟨?_, error, ?_⟩
  · show (leave l (x inside).outcome (x inside).world).world = w
    rw [frame, world]
    rfl
  · show .entered l.name :: ((x inside).events ++
      (leave l (x inside).outcome (x inside).world).events) = _
    rw [frame, events]

theorem guarded_calm {α : Type} {l : Lock} (mem : l ∈ locks) {x : Eval α}
    (frame : ∀ w, (x w).world = w)
    (quiet : ∀ w : World, w.isLocked = true → ∀ e ∈ (x w).events, e.Measures) :
    (guarded l x).Calm locks := by
  intro w rest
  cases enter : l.enterError with
  | some e =>
    obtain ⟨world, events⟩ := guarded_of_refused enter x w
    rw [world, events]
    exact ⟨rest, Orderly.refused mem (by simp [enter]) Orderly.nil, fun _ _ => trivial⟩
  | none =>
    obtain ⟨world, error, events⟩ := guarded_of_admitted enter frame w
    rw [world, events]
    -- `x` runs with the lock held, so all that it shows is a reading of the length
    have locked : World.isLocked { w with held := w.held + 1 } = true := by simp [World.isLocked]
    exact ⟨rest, Orderly.held mem enter (quiet _ locked) Orderly.nil, fun _ _ => trivial⟩

theorem underLock_calm {α : Type} {lock : Value} {x : Eval α} (calm : x.Calm locks)
    (frame : ∀ w, (x w).world = w)
    (quiet : ∀ w : World, w.isLocked = true → ∀ e ∈ (x w).events, e.Measures) :
    (underLock lock x).Calm locks := by
  unfold underLock
  split
  · exact calm.andThen fun _ => Ensures.pure trivial
  · refine Ensures.world.bind fun w rest => ?_
    split
    · next l eq =>
      have mem : l ∈ locks := rest.locks_of_cell? eq List.mem_cons_self
      exact guarded_calm mem frame quiet
    · exact Ensures.raise _

theorem positionsFor_calm (hc : c.Calm locks) (m : Members) (sequence lock : Value) :
    (positionsFor c m sequence lock).Calm locks :=
  (resolve_calm hc .base m).andThen fun s =>
    underLock_calm (currentPositions_calm s sequence)
      (fun w => (currentPositions_run s sequence w).1)
      fun _ locked => currentPositions_measures s sequence locked

end Slicing
