import Slicing.Proofs.Locks.Sessions

/-!
# What comes of a call under a lock

Selecting from a sequence can fail while the bounds are asked, when the lock is entered, when the
length is read, and when the lock is left. A lock may also swallow an error that passes through it.
Each way to fail has a log and an outcome of its own.

* `guarded_apply` — the log and the outcome of whatever runs under a lock
* `currentPositions_outcome` — what can fail under it: reading the length, and nothing that comes
  of the length being negative
* `positionsFor_protocol` — the log and the outcome of a whole call
-/

namespace Slicing

open Eval

/-! ## Locks -/

/-- The kind of the error that an outcome is, if it is one: what a lock is told when it is left. -/
def errorKind? {α : Type} : Except Fault α → Option ErrorKind
  | .error (.raised e) => some e.kind
  | _ => none

/--
What becomes of the outcome of what runs under a lock. An error on leaving comes before all else,
and then the lock may swallow an error in flight.
-/
def Lock.settle {α : Type} (l : Lock) (outcome : Except Fault α) : Except Fault (Option α) :=
  match l.exitError, outcome with
  | some e, _ => .error (.raised e)
  | none, .ok a => .ok (some a)
  | none, .error fault => if l.suppresses then .ok none else .error fault

section

variable {α : Type} {l : Lock} {x : Eval α}

/-- Leaving a lock shows the error in flight. Only giving up is nothing that a lock can settle. -/
theorem leave_eq_settle {outcome : Except Fault α} (result : outcome ≠ .error .exhausted)
    (w : World) :
    leave l outcome w =
      { outcome := l.settle outcome, events := [.left l.name (errorKind? outcome)]
        world := { w with held := w.held - 1 } } := by
  unfold leave Lock.settle
  cases outcome with
  | ok a => cases l.exitError <;> rfl
  | error fault =>
    cases fault with
    | exhausted => exact absurd rfl result
    | raised e =>
      cases l.exitError with
      | some own => rfl
      | none => cases l.suppresses <;> rfl

/-- A lock that swallows nothing and does not fail on leaving lets every outcome pass. -/
theorem settle_of_passes (exits : l.exitError = none) (passes : l.suppresses = false)
    (outcome : Except Fault α) : l.settle outcome = outcome.map some := by
  unfold Lock.settle
  rw [exits]
  cases outcome with
  | ok a => rfl
  | error fault => simp [passes, Except.map]

/-- A fault that is left is the lock's own, or it has passed through. -/
theorem settle_eq_error {outcome : Except Fault α} {fault : Fault}
    (h : l.settle outcome = .error fault) :
    (∃ e, l.exitError = some e ∧ fault = .raised e) ∨ outcome = .error fault := by
  unfold Lock.settle at h
  split at h
  · next e exits => exact .inl ⟨e, exits, (Except.error.inj h).symm⟩
  · simp at h
  · split at h
    · simp at h
    · exact .inr (by rw [Except.error.inj h])

theorem guarded_apply_of_refused {e : Error} (refuses : l.enterError = some e) (x : Eval α)
    (w : World) :
    guarded l x w =
      { outcome := .error (.raised e), events := [.entered l.name], world := w } := by
  unfold guarded
  rw [refuses]
  rfl

/-- What runs under a lock stands between the entry and the exit, and its outcome is settled. -/
theorem guarded_apply (admits : l.enterError = none) (frame : ∀ w, (x w).world = w)
    (result : ∀ w, (x w).outcome ≠ .error .exhausted) (w : World) :
    guarded l x w =
      { outcome := l.settle (x { w with held := w.held + 1 }).outcome
        events := .entered l.name :: ((x { w with held := w.held + 1 }).events ++
          [.left l.name (errorKind? (x { w with held := w.held + 1 }).outcome)])
        world := w } := by
  let inside : World := { w with held := w.held + 1 }
  have left := leave_eq_settle (l := l) (result inside) inside
  unfold guarded
  rw [admits]
  show { outcome := (leave l (x inside).outcome (x inside).world).outcome
         events := .entered l.name :: ((x inside).events ++
          (leave l (x inside).outcome (x inside).world).events)
         world := (leave l (x inside).outcome (x inside).world).world : Run (Option α) } = _
  rw [frame, left]
  rfl

/-! ## What stands for a lock -/

theorem underLock_null (x : Eval α) : underLock .null x = some <$> x :=
  if_pos rfl

theorem underLock_lock {lock : Value} {w : World} (held : w.cell? lock = some (.lock l))
    (x : Eval α) : underLock lock x w = guarded l x w := by
  have object : lock ≠ .null := by
    rintro rfl
    simp [World.cell?] at held
  unfold underLock
  rw [if_neg object, Eval.world_bind_apply, held]

theorem underLock_other {lock : Value} {w : World} (given : lock ≠ .null)
    (other : ∀ l, w.cell? lock ≠ some (.lock l)) (x : Eval α) :
    underLock lock x w = raise (.notALock (w.kind lock)) w := by
  unfold underLock
  rw [if_neg given, Eval.world_bind_apply]
  cases held : w.cell? lock with
  | none => rfl
  | some cell =>
    cases cell with
    | lock l => exact absurd held (other l)
    | _ => rfl

end

/-! ## Under the lock -/

theorem lengthOf_nonneg {w : World} {v : Value} {n : Int} (h : w.lengthOf v = .ok n) : 0 ≤ n := by
  unfold World.lengthOf at h
  split at h
  all_goals try split at h
  all_goals try split at h
  all_goals simp only [Except.ok.injEq, reduceCtorEq] at h
  all_goals omega

theorem lengthOf_ne_exhausted (w : World) (v : Value) : w.lengthOf v ≠ .error .exhausted := by
  unfold World.lengthOf
  split
  all_goals try split
  all_goals try split
  all_goals simp

/-- Once the length is read nothing fails but walking by a step of zero. -/
theorem currentPositions_outcome (s : Saturated) (sequence : Value) (w : World) :
    (currentPositions s sequence w).outcome =
      match w.lengthOf sequence with
      | .error fault => .error fault
      | .ok n =>
        match (s.window w.words n).positions? with
        | some r => .ok r
        | none => .error (.raised .zeroRangeStep) := by
  unfold currentPositions adjust positions
  rw [Eval.bind_apply, measure_apply]
  cases length : w.lengthOf sequence with
  | error fault => rfl
  | ok n =>
    have nonneg := lengthOf_nonneg length
    have adjusted : s.adjust? w.words n = some (s.window w.words n) :=
      if_neg (Int.not_lt.mpr nonneg)
    simp only [Eval.bind_apply, Eval.words_apply, adjusted, Eval.orRaise_some, Eval.pure_apply]
    cases (s.window w.words n).positions? <;> rfl

theorem currentPositions_ne_exhausted (s : Saturated) (sequence : Value) (w : World) :
    (currentPositions s sequence w).outcome ≠ .error .exhausted := by
  rw [currentPositions_outcome]
  split
  · next fault length =>
    intro exhausted
    obtain rfl := Except.error.inj exhausted
    exact lengthOf_ne_exhausted w sequence length
  · split <;> simp

/-- A length that has been read is not negative, so that error can only be one of the reading. -/
theorem currentPositions_negativeLength {s : Saturated} {sequence : Value} {w : World}
    (h : (currentPositions s sequence w).outcome = .error (.raised .negativeLength)) :
    (measure sequence w).outcome = .error (.raised .negativeLength) := by
  rw [measure_apply]
  rw [currentPositions_outcome] at h
  split at h
  · next fault length =>
    rw [length, Except.error.inj h]
  · split at h <;> simp at h

/-- Whether a lock is held shows in the log and nowhere else. -/
theorem currentPositions_outcome_held (s : Saturated) (sequence : Value) (w : World) (held : Nat) :
    (currentPositions s sequence { w with held := held }).outcome =
      (currentPositions s sequence w).outcome := by
  rw [currentPositions_outcome, currentPositions_outcome, lengthOf_held]

/-- What is seen of reading a length while a lock is held or none: only sequences show it, once. -/
def World.readingLog (w : World) (v : Value) (held : Bool) : List Event :=
  match w.cell? v with
  | some (.sequence name _ _) => [.measured name held]
  | _ => []

theorem currentPositions_events (s : Saturated) (sequence : Value) (w : World) :
    (currentPositions s sequence w).events = w.readingLog sequence w.isLocked :=
  (currentPositions_run s sequence w).2

/-! ## A whole call -/

/--
How a call goes on in the world `w` in which the bounds have been resolved to `s`: what it adds to
the log, and its outcome. Its body is reading the length and adjusting to it.
-/
structure Continued (s : Saturated) (sequence lock : Value) (w : World) (log : List Event)
    (outcome : Except Fault (Option Range)) : Prop where
  /-- Without a lock there is only the body, which finds no lock held. -/
  unlocked : lock = .null →
    log = w.readingLog sequence false ∧
      outcome = (currentPositions s sequence w).outcome.map some
  /-- If the lock cannot be entered, nothing follows. -/
  refused : ∀ l e, w.cell? lock = some (.lock l) → l.enterError = some e →
    log = [.entered l.name] ∧ outcome = .error (.raised e)
  /-- If it can, it is left again right after the body, and is told of an error in flight. -/
  admitted : ∀ l, w.cell? lock = some (.lock l) → l.enterError = none →
    log = .entered l.name :: (w.readingLog sequence true ++
        [.left l.name (errorKind? (currentPositions s sequence w).outcome)]) ∧
      outcome = l.settle (currentPositions s sequence w).outcome
  /-- What is no lock cannot be entered either, and this does not show. -/
  noLock : lock ≠ .null → (∀ l, w.cell? lock ≠ some (.lock l)) →
    log = [] ∧ outcome = .error (.raised (.notALock (w.kind lock)))

theorem underLock_continued (s : Saturated) (sequence lock : Value) {w : World}
    (free : w.held = 0) :
    Continued s sequence lock w (underLock lock (currentPositions s sequence) w).events
      (underLock lock (currentPositions s sequence) w).outcome where
  unlocked := by
    rintro rfl
    have unheld : w.isLocked = false := by simp [World.isLocked, free]
    rw [underLock_null, Eval.map_apply, currentPositions_events, unheld]
    exact ⟨rfl, rfl⟩
  refused := by
    intro l e held refuses
    rw [underLock_lock held, guarded_apply_of_refused refuses]
    exact ⟨rfl, rfl⟩
  admitted := by
    intro l held admits
    have locked : World.isLocked { w with held := w.held + 1 } = true := by simp [World.isLocked]
    rw [underLock_lock held, guarded_apply admits
      (fun w => (currentPositions_run s sequence w).1) (currentPositions_ne_exhausted s sequence)]
    rw [currentPositions_outcome_held, currentPositions_events, locked]
    exact ⟨rfl, rfl⟩
  noLock := by
    intro given other
    rw [underLock_other given other, Eval.raise_apply]
    exact ⟨rfl, rfl⟩

/-- A lock that never fails and swallows nothing might as well not be there. -/
theorem underLock_of_passes (s : Saturated) (sequence : Value) {lock : Value} {w : World}
    (free : w.held = 0) {l : Lock} (held : w.cell? lock = some (.lock l))
    (admits : l.enterError = none) (exits : l.exitError = none) (passes : l.suppresses = false) :
    (underLock lock (currentPositions s sequence) w).outcome =
      (underLock .null (currentPositions s sequence) w).outcome := by
  obtain ⟨-, locked⟩ := (underLock_continued s sequence lock free).admitted l held admits
  obtain ⟨-, unlocked⟩ := (underLock_continued s sequence .null free).unlocked rfl
  rw [locked, unlocked, settle_of_passes exits passes]

/-- That a length is negative is said by the reading of it or by the lock, if it is said at all. -/
theorem Continued.negativeLength {s : Saturated} {sequence lock : Value} {w : World}
    {log : List Event} {outcome : Except Fault (Option Range)}
    (h : Continued s sequence lock w log outcome)
    (negative : outcome = .error (.raised .negativeLength)) :
    (measure sequence w).outcome = .error (.raised .negativeLength) ∨
      ∃ l, w.cell? lock = some (.lock l) ∧
        (l.enterError = some .negativeLength ∨ l.exitError = some .negativeLength) := by
  by_cases null : lock = .null
  · obtain ⟨-, unlocked⟩ := h.unlocked null
    rw [unlocked] at negative
    cases body : (currentPositions s sequence w).outcome with
    | ok r => simp [body, Except.map] at negative
    | error fault =>
      rw [body] at negative
      obtain rfl := Except.error.inj negative
      exact .inl (currentPositions_negativeLength body)
  by_cases other : ∃ l, w.cell? lock = some (.lock l)
  case neg =>
    obtain ⟨-, refused⟩ := h.noLock null fun l held => other ⟨l, held⟩
    rw [refused] at negative
    simp at negative
  obtain ⟨l, held⟩ := other
  cases enter : l.enterError with
  | some e =>
    obtain ⟨-, refused⟩ := h.refused l e held enter
    rw [refused] at negative
    obtain rfl := Fault.raised.inj (Except.error.inj negative)
    exact .inr ⟨l, held, .inl enter⟩
  | none =>
    obtain ⟨-, settled⟩ := h.admitted l held enter
    rw [settled] at negative
    rcases settle_eq_error negative with ⟨e, exits, own⟩ | body
    · obtain rfl := Fault.raised.inj own
      exact .inr ⟨l, held, .inr exits⟩
    · exact .inl (currentPositions_negativeLength body)

/-- Any world is at rest in which no lock is held. -/
theorem World.atRest_of_held {w : World} (free : w.held = 0) :
    w.AtRest (w.cells.toList.flatMap Cell.locks) where
  held := free
  known cell mem := by
    intro l hl
    exact List.mem_flatMap_of_mem (Array.mem_toList_iff.mpr mem) hl

section

variable {c : Callbacks} {m : Members} {sequence lock : Value} {w : World}

theorem positionsFor_of_error {fault : Fault} (h : (resolve c .base m w).outcome = .error fault) :
    positionsFor c m sequence lock w =
      { outcome := .error fault, events := (resolve c .base m w).events
        world := (resolve c .base m w).world } :=
  Eval.bind_apply_of_error h _

/-- What follows on resolving is run in the world that it leaves. -/
theorem positionsFor_of_ok {s : Saturated} (h : (resolve c .base m w).outcome = .ok s) :
    positionsFor c m sequence lock w =
      let rest := underLock lock (currentPositions s sequence) (resolve c .base m w).world
      { outcome := rest.outcome, events := (resolve c .base m w).events ++ rest.events
        world := rest.world } :=
  Eval.bind_apply_of_ok h _

end

/--
A call in which resolving fails is over with that. Otherwise what it adds is a matter of the lock
as it is by then. A lock that never fails and swallows nothing does not change the outcome. That a
length is negative is never said in adjusting to it.
-/
theorem positionsFor_protocol (depth : Nat) (m : Members) (sequence lock : Value) {w : World}
    (free : w.held = 0) :
    let c := Callbacks.ofDepth depth
    let resolved := resolve c .base m w
    let run := positionsFor c m sequence lock w
    (∀ fault, resolved.outcome = .error fault →
      run = { outcome := .error fault, events := resolved.events, world := resolved.world }) ∧
    (∀ s, resolved.outcome = .ok s → ∃ log,
      run.events = resolved.events ++ log ∧
        Continued s sequence lock resolved.world log run.outcome) ∧
    (∀ l, resolved.world.cell? lock = some (.lock l) → l.enterError = none → l.exitError = none →
      l.suppresses = false → run.outcome = (positionsFor c m sequence .null w).outcome) ∧
    (run.outcome = .error (.raised .negativeLength) →
      resolved.outcome = .error (.raised .negativeLength) ∨
        (measure sequence resolved.world).outcome = .error (.raised .negativeLength) ∨
        ∃ l, resolved.world.cell? lock = some (.lock l) ∧
          (l.enterError = some .negativeLength ∨ l.exitError = some .negativeLength)) := by
  intro c resolved run
  have rest : resolved.world.held = 0 :=
    (resolve_calm (ofDepth_calm depth) .base m w (World.atRest_of_held free)).1.held
  refine ⟨fun fault h => positionsFor_of_error h, ?_, ?_, ?_⟩
  · intro s h
    refine ⟨_, congrArg (fun run => run.events) (positionsFor_of_ok h), ?_⟩
    rw [show run = _ from positionsFor_of_ok h]
    exact underLock_continued s sequence lock rest
  · intro l held admits exits passes
    cases h : resolved.outcome with
    | error fault => rw [show run = _ from positionsFor_of_error h, positionsFor_of_error h]
    | ok s =>
      rw [show run = _ from positionsFor_of_ok h, positionsFor_of_ok h]
      exact underLock_of_passes s sequence rest held admits exits passes
  · intro negative
    cases h : resolved.outcome with
    | error fault =>
      rw [show run = _ from positionsFor_of_error h] at negative
      exact .inl (by rw [Except.error.inj negative])
    | ok s =>
      rw [show run = _ from positionsFor_of_ok h] at negative
      exact .inr ((underLock_continued s sequence lock rest).negativeLength negative)

/-- An object whose index is 2, and which takes five elements off the sequence named `q`. -/
def shortening : Script :=
  .mk "p" "Probe" (some [.gives (.int 2)]) (some ("q", -5)) [] none

/-- A world with a sequence of three elements, such an object, and a lock that swallows errors. -/
def World.shortened : World :=
  { cells := #[.tuple [], .sequence "q" 3 none, .scripted shortening 0,
      .lock { name := "l", suppresses := true, enterError := none, exitError := none }]
    words := .twosComplement 4
    held := 0
    names := [("q", .object 1)] }

/-- By the time it is read the length is negative. The lock is told so, and swallows the error. -/
theorem positionsFor_protocol_swallowed :
    World.shortened.held = 0 ∧
      (positionsFor (.ofDepth 1) (Bounds.members ⟨.null, .object 2, .null⟩) (.object 1) (.object 3)
        .shortened).events =
          [.indexed "p" false, .entered "l", .measured "q" true, .left "l" (some .value)] ∧
      (positionsFor (.ofDepth 1) (Bounds.members ⟨.null, .object 2, .null⟩) (.object 1) (.object 3)
        .shortened).outcome = .ok none := by
  obtain ⟨-, continued, -⟩ := positionsFor_protocol 1 (Bounds.members ⟨.null, .object 2, .null⟩)
    (.object 1) (.object 3) (rfl : World.shortened.held = 0)
  obtain ⟨log, events, continued⟩ :=
    continued { lineage := .base, start := 0, stop := 2, step := 1 } rfl
  obtain ⟨rfl, outcome⟩ := continued.admitted _ rfl rfl
  exact ⟨rfl, events.trans rfl, outcome.trans rfl⟩

end Slicing
