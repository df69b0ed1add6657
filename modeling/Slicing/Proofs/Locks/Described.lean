import Slicing.Session

/-!
# The locks that a request describes

A lock comes into a session only through a term that describes it. Terms hold scripts, scripts hold
outcomes, and outcomes hold steps and terms again, so the locks are gathered from all of them
together.
-/

namespace Slicing

mutual

/-- The locks that a term describes. -/
def Term.locks : Term → List Lock
  | .list items | .tuple items => Term.locksOfAll items
  | .slice _ arguments | .saturated _ arguments => Term.locksOfAll arguments
  | .adjusted _ step _ => step.locks
  | .scripted script => script.locks
  | .lock l => [l]
  | _ => []

/-- The locks that several terms describe. -/
def Term.locksOfAll : List Term → List Lock
  | [] => []
  | t :: ts => t.locks ++ Term.locksOfAll ts

/-- The locks in the answers of a scripted object. -/
def Script.locks : Script → List Lock
  | .mk _ _ index _ methods truth =>
    Outcome.locksOfIndex index ++ Outcome.locksOfMethods methods ++ Outcome.locksOfTruth truth

/-- The locks in the answers to calls for an index. -/
def Outcome.locksOfIndex : Option (List Outcome) → List Lock
  | none => []
  | some outcomes => Outcome.locksOfAll outcomes

/-- The locks in the answer to being tested. -/
def Outcome.locksOfTruth : Option Outcome → List Lock
  | none => []
  | some outcome => outcome.locks

/-- The locks in the answers to comparisons. -/
def Outcome.locksOfMethods : List (Comparison × Outcome) → List Lock
  | [] => []
  | (_, outcome) :: methods => outcome.locks ++ Outcome.locksOfMethods methods

/-- The locks in several outcomes. -/
def Outcome.locksOfAll : List Outcome → List Lock
  | [] => []
  | outcome :: outcomes => outcome.locks ++ Outcome.locksOfAll outcomes

/-- The locks in one answer. -/
def Outcome.locks : Outcome → List Lock
  | .performs step _ => step.locks
  | .gives term => term.locks
  | _ => []

/-- The locks that a step describes. -/
def Step.locks : Step → List Lock
  | .mk operation _ => operation.locks

/-- The locks that an operation describes in its terms. -/
def Operation.locks : Operation → List Lock
  | .construct _ arguments named => Term.locksOfAll arguments ++ Term.locksOfNamed named
  | .reinitialise value arguments => value.locks ++ Term.locksOfAll arguments
  | .assign a _ b | .indices a b | .compare _ a b | .compareAll a b | .compareMethod _ a b
  | .identicalOrEqual a b | .compareField _ a b | .hashEqual a b | .same a b | .push a b =>
    a.locks ++ b.locks
  | .positionsFor a b c => a.locks ++ b.locks ++ c.locks
  | .sequenceEqual pairs | .lexicographic _ pairs => Term.locksOfPairs pairs
  | .describe t | .copy _ t | .bound t | .hasIndex t | .toIndex t _ | .toIndexOrNull t
  | .normalise t _ | .resolve t _ | .saturate t | .adjust t _ | .positions t | .ownPositions t
  | .count t | .iterate t | .next t _ | .select t _ | .hash t => t.locks
  | .absentFacts | .words | .setWords _ | .direction _ | .saturateIndex _ _ => []

/-- The locks that terms with names describe. -/
def Term.locksOfNamed : List (String × Term) → List Lock
  | [] => []
  | (_, t) :: named => t.locks ++ Term.locksOfNamed named

/-- The locks that pairs of terms describe. -/
def Term.locksOfPairs : List (Term × Term) → List Lock
  | [] => []
  | (s, t) :: pairs => s.locks ++ t.locks ++ Term.locksOfPairs pairs

end

/-! ## Requests -/

/-- The steps of a task, in order. -/
def Task.steps : Task → List Step
  | .step s => [s]
  | .session steps => steps

/-- All locks that a request describes. -/
def Request.locks (r : Request) : List Lock :=
  Term.locksOfNamed r.names ++ r.task.steps.flatMap Step.locks

/-! ## What a scripted object may answer -/

theorem Outcome.locks_subset_of_mem {outcomes : List Outcome} {o : Outcome} (h : o ∈ outcomes) :
    o.locks ⊆ locksOfAll outcomes := by
  induction outcomes with
  | nil => simp at h
  | cons first rest ih =>
    rw [locksOfAll]
    rcases List.mem_cons.mp h with rfl | h
    · exact List.subset_append_left _ _
    · exact List.Subset.trans (ih h) (List.subset_append_right _ _)

theorem Outcome.locks_subset_of_lookup {methods : List (Comparison × Outcome)} {op : Comparison}
    {o : Outcome} (h : methods.lookup op = some o) : o.locks ⊆ locksOfMethods methods := by
  induction methods with
  | nil => simp at h
  | cons first rest ih =>
    obtain ⟨op', first⟩ := first
    rw [locksOfMethods]
    rw [List.lookup_cons] at h
    split at h
    · obtain rfl := Option.some.inj h
      exact List.subset_append_left _ _
    · exact List.Subset.trans (ih h) (List.subset_append_right _ _)

namespace Script

theorem locks_outcome_subset (calls : Nat) (s : Script) : (s.outcome calls).locks ⊆ s.locks := by
  obtain ⟨_, _, index, _, methods, truth⟩ := s
  simp only [outcome, Script.index, locks]
  cases index with
  | none => simp [Outcome.locks, Term.locks]
  | some outcomes =>
    rw [Option.getD_some]
    -- the answer is one of those in the script, or the default, which describes no lock
    cases eq : (outcomes[calls]? <|> outcomes.getLast?) with
    | none => simp [Outcome.locks, Term.locks]
    | some o =>
      have mem : o ∈ outcomes := by
        rw [Option.orElse_eq_orElse, Option.orElse_eq_or, Option.or_eq_some_iff] at eq
        rcases eq with h | ⟨-, h⟩
        · exact List.mem_of_getElem? h
        · exact List.mem_of_getLast? h
      rw [Option.getD_some, List.append_assoc]
      exact List.Subset.trans (Outcome.locks_subset_of_mem mem) (List.subset_append_left _ _)

theorem locks_method_subset (op : Comparison) (s : Script) : (s.method op).locks ⊆ s.locks := by
  obtain ⟨_, _, index, _, methods, truth⟩ := s
  simp only [method, locks]
  cases eq : methods.lookup op with
  | none => simp [Outcome.locks]
  | some o =>
    intro l mem
    have mem := Outcome.locks_subset_of_lookup eq mem
    simp [mem]

theorem locks_truth_subset {s : Script} {o : Outcome} (h : s.truth = some o) :
    o.locks ⊆ s.locks := by
  obtain ⟨_, _, index, _, methods, truth⟩ := s
  obtain rfl : truth = some o := h
  exact List.subset_append_right _ _

end Script

end Slicing
