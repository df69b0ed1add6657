import Slicing.View

/-!
# Runs

A computation of type `Eval α` takes the world as it finds it and gives a `Run`: an outcome, the
world it leaves, and the events that happened on the way, in order. The events are written and
never read, so no computation can depend on what happened before it except through the world.

An outcome is a result or a fault. A fault is an error that was raised, or the depth of calls was
`exhausted`; the latter is nobody's error and is never swallowed.
-/

namespace Slicing

/-- Something that happened and can be observed. -/
inductive Event where
  /-- An object was asked for its index, while some lock was held or none. -/
  | indexed (name : String) (held : Bool)
  /-- An object was asked how it compares with another value. -/
  | compared (comparison : Comparison) (name : String) (other : View)
  /-- An object was tested. -/
  | tested (name : String)
  /-- A sequence was asked for its length. -/
  | measured (name : String) (held : Bool)
  | entered (lock : String)
  /-- A lock was left, with an error of some kind passing through or with none. -/
  | left (lock : String) (error : Option ErrorKind)
  /-- A pair was drawn for a comparison. -/
  | drawn (place : Nat)
  /-- A bound did not fit the word. -/
  | saturated (field : Field) (value limit : Int)

/-- The message that records a bound which did not fit. -/
def saturationText (field : Field) (value limit : Int) : String :=
  "slice " ++ field.name ++ " " ++ toString value ++ " saturated to " ++ toString limit

/-- Why there is no result. -/
inductive Fault where
  | raised (error : Error)
  | exhausted
  deriving DecidableEq

/-- An outcome with the events that led to it. -/
structure Answer (α : Type) where
  outcome : Except Fault α
  events : List Event

/-- An answer together with the world that is left. -/
structure Run (α : Type) extends Answer α where
  world : World

/-- A computation that may change the world, cause events and fail. -/
def Eval (α : Type) : Type :=
  World → Run α

namespace Eval

variable {α β γ : Type}

@[ext] theorem ext {x y : Eval α} (h : ∀ w, x w = y w) : x = y :=
  funext h

/-- Gives `a` and does nothing. -/
protected def pure (a : α) : Eval α := fun w =>
  { outcome := .ok a, events := [], world := w }

/-- Runs `x` and then, if it has a result, what follows from it. -/
protected def bind (x : Eval α) (f : α → Eval β) : Eval β := fun w =>
  let first := x w
  match first.outcome with
  | .ok a =>
    let next := f a first.world
    { outcome := next.outcome, events := first.events ++ next.events, world := next.world }
  | .error fault => { outcome := .error fault, events := first.events, world := first.world }

instance : Monad Eval where
  pure := Eval.pure
  bind := Eval.bind

theorem pure_apply (a : α) (w : World) :
    (pure a : Eval α) w = { outcome := .ok a, events := [], world := w } := rfl

theorem bind_apply (x : Eval α) (f : α → Eval β) (w : World) :
    (x >>= f) w = match (x w).outcome with
      | .ok a =>
        { outcome := (f a (x w).world).outcome
          events := (x w).events ++ (f a (x w).world).events
          world := (f a (x w).world).world }
      | .error fault => { outcome := .error fault, events := (x w).events, world := (x w).world } :=
  rfl

theorem bind_apply_of_ok {x : Eval α} {w : World} {a : α} (h : (x w).outcome = .ok a)
    (f : α → Eval β) :
    (x >>= f) w =
      { outcome := (f a (x w).world).outcome
        events := (x w).events ++ (f a (x w).world).events
        world := (f a (x w).world).world } := by
  rw [bind_apply, h]

theorem bind_apply_of_error {x : Eval α} {w : World} {fault : Fault}
    (h : (x w).outcome = .error fault) (f : α → Eval β) :
    (x >>= f) w =
      { outcome := .error fault, events := (x w).events, world := (x w).world } := by
  rw [bind_apply, h]

theorem map_apply (f : α → β) (x : Eval α) (w : World) :
    (f <$> x) w =
      { outcome := (x w).outcome.map f, events := (x w).events, world := (x w).world } := by
  change (x >>= fun a => pure (f a)) w = _
  rw [bind_apply]
  rcases x w with ⟨⟨outcome, events⟩, world⟩
  cases outcome <;> simp [pure_apply, Except.map]

protected theorem pure_bind (a : α) (f : α → Eval β) : (pure a : Eval α) >>= f = f a := by
  ext w
  simp [bind_apply, pure_apply]

protected theorem bind_pure (x : Eval α) : x >>= pure = x := by
  ext w
  rw [bind_apply]
  rcases x w with ⟨⟨outcome, events⟩, world⟩
  cases outcome <;> simp [pure_apply]

protected theorem bind_assoc (x : Eval α) (f : α → Eval β) (g : β → Eval γ) :
    x >>= f >>= g = x >>= fun a => f a >>= g := by
  ext w
  simp only [bind_apply]
  rcases x w with ⟨⟨outcome, events⟩, world⟩
  cases outcome with
  | error fault => rfl
  | ok a =>
    simp only
    cases (f a world).outcome <;> simp

instance : LawfulMonad Eval := LawfulMonad.mk' Eval
  Eval.bind_pure Eval.pure_bind Eval.bind_assoc

/-! ## The world -/

/-- The world as it is now. -/
def world : Eval World := fun w =>
  { outcome := .ok w, events := [], world := w }

/-- The limits of the word as they are now. -/
def words : Eval Words := do
  return (← world).words

/-- Makes an object that holds `cell`. -/
def allocate (cell : Cell) : Eval Value := fun w =>
  { outcome := .ok w.fresh, events := [], world := w.insert cell }

/-- Replaces what the object at `a` holds. -/
def store (a : Address) (cell : Cell) : Eval Unit := fun w =>
  { outcome := .ok (), events := [], world := w.store a cell }

/-- Binds a name to a value, in front of what it was bound to before. -/
def bindName (name : String) (v : Value) : Eval Unit := fun w =>
  { outcome := .ok (), events := [], world := { w with names := (name, v) :: w.names } }

/-- Sets the limits of the word. -/
def setWords (words : Words) : Eval Unit := fun w =>
  { outcome := .ok (), events := [], world := { w with words } }

/-- What can be seen of a value now. -/
def view (v : Value) : Eval View := do
  return (← world).view v

/-- Makes a tuple; there is only one without elements. -/
def allocateTuple (items : List Value) : Eval Value :=
  if items.isEmpty then pure World.emptyTuple else allocate (.tuple items)

/-! ## Events and faults -/

/-- Lets an event happen. -/
def emit (e : Event) : Eval Unit := fun w =>
  { outcome := .ok (), events := [e], world := w }

/-- Raises an error. -/
def raise (e : Error) : Eval α := fun w =>
  { outcome := .error (.raised e), events := [], world := w }

/-- Gives up because calls are nested too deeply. -/
def exhausted : Eval α := fun w =>
  { outcome := .error .exhausted, events := [], world := w }

/-- The result of a step that may have failed. -/
def ofExcept : Except Error α → Eval α
  | .ok a => pure a
  | .error e => raise e

@[simp] theorem ofExcept_ok (a : α) : ofExcept (.ok a) = pure a := rfl

@[simp] theorem ofExcept_error (e : Error) : ofExcept (.error e : Except Error α) = raise e := rfl

/-- The result if there is one, or else an error. -/
def orRaise (e : Error) : Option α → Eval α
  | some a => pure a
  | none => raise e

/-- Runs `x` and gives its answer, so that an error in it does no harm. -/
def capture (x : Eval α) : Eval (Answer α) := fun w =>
  let run := x w
  match run.outcome with
  | .error .exhausted => { outcome := .error .exhausted, events := run.events, world := run.world }
  | _ => { outcome := .ok run.toAnswer, events := [], world := run.world }

/-! ## What the single steps do -/

theorem world_apply (w : World) :
    world w = { outcome := .ok w, events := [], world := w } := rfl

/-- Looking at the world leaves it as it is and shows nowhere. -/
theorem world_bind_apply (f : World → Eval β) (w : World) : (world >>= f) w = f w w := rfl

theorem words_apply (w : World) :
    words w = { outcome := .ok w.words, events := [], world := w } := rfl

theorem emit_apply (e : Event) (w : World) :
    emit e w = { outcome := .ok (), events := [e], world := w } := rfl

theorem raise_apply (e : Error) (w : World) :
    (raise e : Eval α) w = { outcome := .error (.raised e), events := [], world := w } := rfl

theorem allocate_apply (cell : Cell) (w : World) :
    allocate cell w = { outcome := .ok w.fresh, events := [], world := w.insert cell } := rfl

@[simp] theorem orRaise_some (e : Error) (a : α) : orRaise e (some a) = pure a := rfl

@[simp] theorem orRaise_none (e : Error) : orRaise e (none : Option α) = raise e := rfl

/-! ## Locks -/

/-- Takes note of one more lock held, or of one fewer. -/
def setHeld (f : Nat → Nat) : Eval Unit := fun w =>
  { outcome := .ok (), events := [], world := { w with held := f w.held } }

/--
Leaves a lock after `outcome`: an error of the lock's own comes before one in flight, and a lock
that suppresses swallows the one in flight. Without a result there is then `none`.
-/
def leave (l : Lock) (outcome : Except Fault α) : Eval (Option α) := do
  setHeld (· - 1)
  match outcome with
  | .ok a =>
    emit (.left l.name none)
    match l.exitError with
    | some e => raise e
    | none => pure (some a)
  | .error (.raised error) =>
    emit (.left l.name (some error.kind))
    match l.exitError with
    | some e => raise e
    | none => if l.suppresses then pure none else raise error
  | .error .exhausted =>
    emit (.left l.name none)
    exhausted

/-- Runs `x` and hands its outcome on as a result, with its events. -/
def settle (x : Eval α) : Eval (Except Fault α) := fun w =>
  let run := x w
  { outcome := .ok run.outcome, events := run.events, world := run.world }

/-- Enters the lock, runs `x` and leaves the lock however `x` ended. -/
def guarded (l : Lock) (x : Eval α) : Eval (Option α) := do
  emit (.entered l.name)
  match l.enterError with
  | some e => raise e
  | none =>
    setHeld (· + 1)
    leave l (← settle x)

end Eval

end Slicing
