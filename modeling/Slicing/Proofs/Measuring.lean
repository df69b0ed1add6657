import Slicing.Resolution

/-!
# Reading a length

A length is read by looking at the world. Only a sequence of a kind of its own shows that it has
been asked, and no value is called back, so indexing what is there changes nothing.

* `measure_apply` — reading a length finds what is there and leaves the world as it was
* `currentPositions_run` — the same of the positions of a sequence
-/

namespace Slicing

/-- The length of a value as it is now, or why it has none. -/
def World.lengthOf (w : World) (v : Value) : Except Fault Int :=
  match v, w.cell? v with
  | .text s, _ => .ok s.length
  | _, some (.list items) => .ok items.length
  | _, some (.tuple items) => .ok items.length
  | _, some (.set items) => .ok items.length
  | _, some (.adjusted _ _ _) => .ok 3
  | _, some (.range r) =>
    if Words.host.isizeMax < r.size then .error (.raised .countTooLarge) else .ok r.size
  | _, some (.sequence _ _ (some e)) => .error (.raised e)
  | _, some (.sequence _ n none) =>
    if n < 0 then .error (.raised .lengthBelowZero)
    else if Words.host.isizeMax < n then .error (.raised .lengthTooLarge)
    else .ok n
  | v, _ => .error (.raised (.noLength (w.kind v)))

/-- What is seen of reading the length of a value: only a sequence of its own kind shows it. -/
def World.lengthLog (w : World) (v : Value) : List Event :=
  match w.cell? v with
  | some (.sequence name _ _) => [.measured name w.isLocked]
  | _ => []

theorem measure_apply (v : Value) (w : World) :
    measure v w = { outcome := w.lengthOf v, events := w.lengthLog v, world := w } := by
  unfold measure World.lengthOf World.lengthLog
  rw [Eval.bind_apply, Eval.world_apply]
  cases v with
  | object a =>
    dsimp only
    cases w.cell? (.object a) with
    | none => rfl
    | some cell =>
      cases cell with
      | range r =>
        by_cases long : Words.host.isizeMax < r.size
        · simp [countElements, long, Eval.map_apply, Eval.raise_apply, Except.map]
        · simp [countElements, long, Eval.map_apply, Eval.pure_apply, Except.map]
      | sequence name n error =>
        cases error with
        | some e => rfl
        | none =>
          by_cases negative : n < 0
          · simp [checkLength, negative, Eval.bind_apply, Eval.emit_apply, Eval.raise_apply]
          · by_cases long : Words.host.isizeMax < n <;>
              simp [checkLength, negative, long, Eval.bind_apply, Eval.emit_apply,
                Eval.raise_apply, Eval.pure_apply]
      | _ => rfl
  | _ => rfl

theorem lengthOf_held (w : World) (held : Nat) (v : Value) :
    World.lengthOf { w with held := held } v = w.lengthOf v := by
  cases v <;> rfl

/-! ## The positions of a sequence as it is -/

/-- Beyond the length nothing is asked, and nothing is changed at all. -/
theorem currentPositions_run (s : Saturated) (sequence : Value) (w : World) :
    (currentPositions s sequence w).world = w ∧
      (currentPositions s sequence w).events = w.lengthLog sequence := by
  unfold currentPositions adjust positions
  rw [Eval.bind_apply, measure_apply]
  cases w.lengthOf sequence with
  | error fault => exact ⟨rfl, rfl⟩
  | ok n =>
    simp only [Eval.bind_apply, Eval.words_apply]
    cases s.adjust? w.words n with
    | none => exact ⟨rfl, List.append_nil _⟩
    | some window =>
      simp only [Eval.orRaise_some, Eval.pure_apply]
      cases window.positions? with
      | none => exact ⟨rfl, List.append_nil _⟩
      | some r => exact ⟨rfl, List.append_nil _⟩

end Slicing
