import Slicing.Perform

/-!
# Sessions

Here the knot is tied. At depth zero nothing can be called any more; one level up, comparing,
performing and reading call back into the level below. A computation that comes to an end at all
does so at some depth, and then at every greater one.

A session performs its steps one after the other in one world. Each has an answer of its own, and
an error in one does not stop the next.
-/

namespace Slicing

/-- Callbacks that can be nested to the given depth. -/
def Callbacks.ofDepth : Nat → Callbacks
  | 0 =>
    { compare := fun _ _ _ => Eval.exhausted
      perform := fun _ => Eval.exhausted
      read := fun _ => Eval.exhausted
      patience := 0 }
  | depth + 1 =>
    { compare := fun op a b => compareValues (ofDepth depth) op a b
      perform := fun step => step.perform (ofDepth depth)
      read := fun term => term.read (ofDepth depth)
      patience := depth }

/-- Performs a step at the given depth and gives what can be seen of the result. -/
def Step.report (depth : Nat) (step : Step) : Eval Report := do
  (← step.perform (Callbacks.ofDepth depth)).toReport

/-- The answers to several steps, each in the world that the one before it left. -/
def answers (depth : Nat) : List Step → World → List (Answer Report)
  | [], _ => []
  | step :: steps, w =>
    let run := step.report depth w
    run.toAnswer :: answers depth steps run.world

/-- What is to be done: a single step, or a session of any number. -/
inductive Task where
  | step (step : Step)
  | session (steps : List Step)

/-- A task with the words it is done under and the names that values have from the beginning. -/
structure Request where
  words : WordUpdate
  names : List (String × Term)
  task : Task

/-- The answer to a request, of the same form as its task. -/
inductive Reply where
  | step (answer : Answer Report)
  | session (answers : List (Answer Report))

/-- Makes the values that are named from the beginning, in order. -/
def bindNames (c : Callbacks) : List (String × Term) → Eval Unit
  | [] => pure ()
  | (name, term) :: rest => do
    Eval.bindName name (← term.read c)
    bindNames c rest

/-- The answer to a request. Without its names a task is not begun. -/
def Request.reply (depth : Nat) (r : Request) : Reply :=
  let start := bindNames (Callbacks.ofDepth depth) r.names (World.initial (r.words.apply .host))
  match start.outcome with
  | .error fault => .step { outcome := .error fault, events := start.events }
  | .ok () =>
    match r.task with
    | .step step => .step (step.report depth start.world).toAnswer
    | .session steps => .session (answers depth steps start.world)

/-- How deeply calls may be nested before a computation is given up. -/
def callDepth : Nat :=
  10000

/-- The answer to a request at the usual depth. -/
def Request.answer (r : Request) : Reply :=
  r.reply callDepth

end Slicing
