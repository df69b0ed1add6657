import Slicing.Proofs.Locks.Performing
import Slicing.Session

/-!
# No call under a lock

The knot is tied by depth, so that callbacks are calm is an induction on the depth: at depth zero
nothing can be called any more, and one level up everything is calm because the level below is.
A session then goes from rest to rest with every step.

* `ofDepth_calm` — callbacks nested to any depth are calm
* `answers_orderly` — so are the steps of a session, one after the other
* `reply_lock_discipline` — what this says about all logs of a reply, and about the locks held
-/

namespace Slicing

/-- Callbacks that can be nested to any depth are calm. -/
theorem ofDepth_calm {locks : List Lock} (depth : Nat) : (Callbacks.ofDepth depth).Calm locks := by
  induction depth with
  | zero =>
    exact
      { compare := fun _ _ _ => Eval.Ensures.exhausted
        perform := fun _ _ => Eval.Ensures.exhausted
        read := fun _ _ => Eval.Ensures.exhausted }
  | succ depth ih =>
    exact
      { compare := fun op a b => compareValues_calm ih op a b
        perform := fun step h => (Step.perform_ensures ih h).calm
        read := fun t h => Term.read_calm ih t h }

/-! ## Logs and worlds -/

/-- The log of an answer, and those of the answers in it. -/
def Answer.logs (a : Answer Report) : List (List Event) :=
  a.events :: match a.outcome with
    | .ok report => report.logs
    | .error _ => []

/-- All logs of a reply. -/
def Reply.logs : Reply → List (List Event)
  | .step answer => answer.logs
  | .session answers => answers.flatMap Answer.logs

/-- The world in which the first step of a request is performed. -/
def Request.start (depth : Nat) (r : Request) : World :=
  (bindNames (Callbacks.ofDepth depth) r.names (World.initial (r.words.apply .host))).world

/-- The world that is left when some first steps of a request have been performed. -/
def Request.worldAfter (depth : Nat) (r : Request) (steps : List Step) : World :=
  steps.foldl (fun w step => (step.report depth w).world) (r.start depth)

/-! ## Steps -/

section

variable {locks : List Lock}

theorem report_ensures (depth : Nat) {step : Step} (h : step.locks ⊆ locks) :
    (step.report depth).Ensures locks fun r => ∀ log ∈ r.logs, Orderly locks log := by
  refine (Step.perform_ensures (ofDepth_calm depth) h).bind fun result orderly => ?_
  cases result with
  | value v => exact (Eval.Ensures.view v).andThen fun _ => Eval.Ensures.pure (by simp [Report.logs])
  | report r => exact Eval.Ensures.pure orderly

theorem bindNames_calm (depth : Nat) {named : List (String × Term)}
    (h : Term.locksOfNamed named ⊆ locks) :
    (bindNames (Callbacks.ofDepth depth) named).Calm locks := by
  induction named with
  | nil => exact Eval.Ensures.pure trivial
  | cons first rest ih =>
    obtain ⟨name, t⟩ := first
    obtain ⟨here, later⟩ := List.append_subset.mp h
    unfold bindNames
    refine (Term.read_calm (ofDepth_calm depth) t here).andThen fun v => ?_
    exact (Eval.Ensures.bindName name v).andThen fun _ => ih later

theorem answer_orderly {x : Eval Report} {w : World} (rest : w.AtRest locks)
    (h : x.Ensures locks fun r => ∀ log ∈ r.logs, Orderly locks log) :
    ∀ log ∈ (x w).toAnswer.logs, Orderly locks log := by
  obtain ⟨-, own, result⟩ := h w rest
  intro log mem
  rcases List.mem_cons.mp mem with rfl | mem
  · exact own
  · cases eq : (x w).outcome with
    | ok report =>
      rw [eq] at mem
      exact result report eq log mem
    | error fault =>
      rw [eq] at mem
      exact absurd mem List.not_mem_nil

theorem answers_orderly (depth : Nat) {steps : List Step} {w : World} (rest : w.AtRest locks)
    (h : ∀ step ∈ steps, step.locks ⊆ locks) :
    ∀ answer ∈ answers depth steps w, ∀ log ∈ answer.logs, Orderly locks log := by
  induction steps generalizing w with
  | nil => simp [answers]
  | cons step steps ih =>
    have first := report_ensures depth (h step List.mem_cons_self)
    intro answer mem
    rcases List.mem_cons.mp mem with rfl | mem
    · exact answer_orderly rest first
    · exact ih (first w rest).1 (fun s mem => h s (List.mem_cons_of_mem step mem)) answer mem

end

/-! ## Sessions -/

namespace Request

variable (depth : Nat) (r : Request)

theorem start_atRest : (r.start depth).AtRest r.locks :=
  (bindNames_calm depth (List.subset_append_left _ _) _ (World.AtRest.initial _)).1

theorem locks_subset_of_mem {step : Step} (h : step ∈ r.task.steps) : step.locks ⊆ r.locks :=
  fun _ mem => List.mem_append_right _ (List.mem_flatMap_of_mem h mem)

theorem worldAfter_atRest {steps : List Step} (h : ∀ step ∈ steps, step ∈ r.task.steps) :
    (r.worldAfter depth steps).AtRest r.locks := by
  have run {w : World} (rest : w.AtRest r.locks) :
      (steps.foldl (fun w step => (step.report depth w).world) w).AtRest r.locks := by
    induction steps generalizing w with
    | nil => exact rest
    -- each step starts at rest because the one before it ended there
    | cons step steps ih =>
      have first := report_ensures depth (r.locks_subset_of_mem (h step List.mem_cons_self))
      exact ih (fun s mem => h s (List.mem_cons_of_mem step mem)) (first w rest).1
  exact run (r.start_atRest depth)

theorem reply_orderly : ∀ log ∈ (r.reply depth).logs, Orderly r.locks log := by
  have names : (bindNames (Callbacks.ofDepth depth) r.names).Calm r.locks :=
    bindNames_calm depth (List.subset_append_left _ _)
  obtain ⟨-, naming, -⟩ := names _ (World.AtRest.initial (r.words.apply .host))
  have start := r.start_atRest depth
  unfold reply
  unfold Request.start at start
  dsimp only
  split
  -- a task that is not begun leaves nothing but the log of its names
  · intro log mem
    obtain rfl := List.mem_singleton.mp mem
    exact naming
  · split
    · next step eq =>
      have mem : step ∈ r.task.steps := by simp [eq, Task.steps]
      exact answer_orderly start (report_ensures depth (r.locks_subset_of_mem mem))
    · next steps eq =>
      intro log mem
      obtain ⟨answer, hanswer, mem⟩ := List.mem_flatMap.mp mem
      have known : ∀ step ∈ steps, step.locks ⊆ r.locks := by
        intro step mem
        exact r.locks_subset_of_mem (by simpa [eq, Task.steps] using mem)
      exact answers_orderly depth start known answer hanswer log mem

end Request

/-- A step that starts with no lock held ends with none, in whatever world it is performed. -/
theorem held_perform (depth : Nat) (step : Step) {w : World} (free : w.held = 0) :
    (step.perform (Callbacks.ofDepth depth) w).world.held = 0 := by
  have rest : w.AtRest (w.cells.toList.flatMap Cell.locks ++ step.locks) :=
    { held := free
      known := fun cell mem l hl =>
        List.mem_append_left _ (List.mem_flatMap_of_mem (Array.mem_toList_iff.mpr mem) hl) }
  exact (Step.perform_ensures (ofDepth_calm depth) (List.subset_append_right _ _) w rest).1.held

/--
In every log of a reply nothing is called under a lock, and what is entered is left again before
anything else is entered or called. No lock is held between the steps, nor after any step that is
performed within another, since such a one starts with none.
-/
theorem reply_lock_discipline (depth : Nat) (r : Request) :
    (∀ log ∈ (r.reply depth).logs, LockDiscipline r.locks log) ∧
      (∀ steps, steps <+: r.task.steps → (r.worldAfter depth steps).held = 0) ∧
      ∀ (step : Step) (w : World), w.held = 0 →
        (step.perform (Callbacks.ofDepth depth) w).world.held = 0 := by
  refine ⟨fun log mem => (r.reply_orderly depth log mem).discipline, fun steps initial => ?_,
    fun step w free => held_perform depth step free⟩
  exact (r.worldAfter_atRest depth fun step mem => initial.subset mem).held

/-- A lock that lets everything pass, unless it refuses to be entered. -/
def Lock.plain (name : String) (enterError : Option Error) : Lock :=
  { name, suppresses := false, enterError, exitError := none }

/-- The step that selects all of the sequence named `q`, or what a bound says, under a lock. -/
def Step.selectUnder (lock : Lock) (stop : Term) : Step :=
  .mk (.positionsFor (.slice .base [stop]) (.named "q") (.lock lock)) none

/-- A bound that selects from the sequence itself when asked, and a lock that refuses after that. -/
def Request.nested : Request :=
  { words := { isizeMax := none, isizeMin := none, usizeMax := none }
    names := [("q", .sequence "q" 3 none)]
    task := .session
      [ .selectUnder (.plain "outer" none) (.scripted (.mk "p" "Probe"
          (some [.performs (.selectUnder (.plain "inner" none) .null) (some 1)]) none [] none)),
        .selectUnder (.plain "refusing" (some .zeroStep)) .null ] }

/-- The bound is asked first, so its lock has been left before the other one is entered. -/
theorem reply_lock_discipline_nested :
    (Request.nested.reply 2).logs =
        [ [ .indexed "p" false, .entered "inner", .measured "q" true, .left "inner" none,
            .entered "outer", .measured "q" true, .left "outer" none ],
          [ .entered "refusing" ] ] ∧
      (∀ log ∈ (Request.nested.reply 2).logs, LockDiscipline Request.nested.locks log) ∧
      (Request.nested.worldAfter 2 Request.nested.task.steps).held = 0 ∧
      ((Step.selectUnder (.plain "inner" none) .null).perform (Callbacks.ofDepth 2)
        (Request.nested.worldAfter 2 [])).world.held = 0 := by
  obtain ⟨logs, between, within⟩ := reply_lock_discipline 2 Request.nested
  exact ⟨rfl, logs, between _ List.prefix_rfl,
    within _ _ (between _ List.nil_prefix)⟩

end Slicing
