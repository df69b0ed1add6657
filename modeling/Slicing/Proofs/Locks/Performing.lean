import Slicing.Proofs.Locks.Copies
import Slicing.Proofs.Locks.Locking
import Slicing.Perform

/-!
# Operations without a lock

Operations are calm if the callbacks are. Running all comparisons keeps the log of each in the
report instead of in the log of the operation, so what is promised of a result is that the logs in
it are orderly as well.
-/

namespace Slicing

open Eval

variable {locks : List Lock} {c : Callbacks}

/-! ## Logs in results -/

/-- The logs of the answers that a report holds. -/
def Report.logs : Report → List (List Event)
  | .comparisons answers => answers.map fun answer => answer.2.events
  | _ => []

/-- The logs of the answers that a result holds. -/
def Result.logs : Result → List (List Event)
  | .value _ => []
  | .report r => r.logs

/-- The logs of the answers that a result holds are all in order. -/
def Result.Orderly (locks : List Lock) (r : Result) : Prop :=
  ∀ log ∈ r.logs, Slicing.Orderly locks log

theorem pure_ensures {r : Result} (h : r.logs = []) :
    (pure r : Eval Result).Ensures locks (Result.Orderly locks) :=
  Ensures.pure (by simp [Result.Orderly, h])

theorem object_ensures {cell : Cell} (h : cell.locks ⊆ locks) :
    (Eval.object cell).Ensures locks (Result.Orderly locks) :=
  (Ensures.allocate h).andThen fun _ => pure_ensures rfl

theorem Indices.result_ensures (i : Indices) :
    i.result.Ensures locks (Result.Orderly locks) :=
  object_ensures (List.nil_subset locks)

theorem Saturated.result_ensures (s : Saturated) :
    s.result.Ensures locks (Result.Orderly locks) :=
  (allocateMachine_calm s).andThen fun _ => pure_ensures rfl

/-! ## Operands -/

theorem expect_calm {α : Type} (find : Cell → Option α) (name : String) (v : Value) :
    (expect find name v).Calm locks :=
  Ensures.world.andThen fun _ => Ensures.orRaise fun _ _ => trivial

theorem membersOf_calm (v : Value) : (membersOf v).Calm locks :=
  Ensures.world.andThen fun _ => Ensures.pure trivial

/-- Two terms are read one after the other, the locks of both being known. -/
theorem readTwo_ensures {α : Type} (hc : c.Calm locks) {s t : Term}
    (h : s.locks ++ t.locks ⊆ locks) {f : Value → Value → Eval α} {Q : α → Prop}
    (hf : ∀ a b, (f a b).Ensures locks Q) :
    (do
      let a ← s.read c
      let b ← t.read c
      f a b).Ensures locks Q := by
  obtain ⟨first, second⟩ := List.append_subset.mp h
  refine (Term.read_calm hc s first).andThen fun a => ?_
  exact (Term.read_calm hc t second).andThen fun b => hf a b

theorem readPairs_calm (hc : c.Calm locks) {pairs : List (Term × Term)}
    (h : Term.locksOfPairs pairs ⊆ locks) : (readPairs c pairs).Calm locks := by
  induction pairs with
  | nil => exact Ensures.pure trivial
  | cons pair pairs ih =>
    obtain ⟨s, t⟩ := pair
    obtain ⟨here, later⟩ := List.append_subset.mp h
    unfold readPairs
    refine readTwo_ensures hc here fun a b => ?_
    exact (ih later).andThen fun _ => Ensures.pure trivial

theorem drawsOf_calm (pairs : List (Value × Value)) :
    ∀ draw ∈ drawsOf pairs, Eval.Calm locks draw := by
  intro draw mem
  obtain ⟨⟨pair, i⟩, -, rfl⟩ := List.mem_map.mp mem
  exact (Ensures.emit (e := .drawn i) trivial).andThen fun _ => Ensures.pure trivial

theorem locksOfAll_map_snd (named : List (String × Term)) :
    Term.locksOfAll (named.map Prod.snd) = Term.locksOfNamed named := by
  induction named with
  | nil => rfl
  | cons first rest ih =>
    obtain ⟨name, t⟩ := first
    rw [List.map_cons, Term.locksOfAll, Term.locksOfNamed, ih]

/-! ## Longer operations -/

theorem Constructor.build_calm (hc : c.Calm locks) (k : Constructor) (arguments : List Value) :
    (k.build c arguments).Calm locks := by
  cases k with
  | slice lineage => exact allocateSlice_calm lineage arguments
  | saturated lineage => exact allocateSaturated_calm hc lineage arguments

theorem absentReport_calm (hc : c.Calm locks) : (absentReport c).Calm locks := by
  have same (mode : CopyMode) :
      (do return (mode, (← copy c mode .absent) == .absent) : Eval (CopyMode × Bool)).Calm locks :=
    (copy_calm hc mode .absent).andThen fun _ => Ensures.pure trivial
  unfold absentReport
  refine (truth_calm hc .absent).andThen fun truth => ?_
  refine (Ensures.mapM fun mode _ => same mode).andThen fun same => ?_
  refine (Ensures.view .absent).andThen fun view => ?_
  exact Ensures.world.andThen fun w => Ensures.pure trivial

theorem select_calm (hc : c.Calm locks) (slice : Value) (length : Int) :
    (select c slice length).Calm locks := by
  unfold select
  refine (membersOf_calm slice).andThen fun fields => ?_
  refine (resolve_calm hc .base fields).andThen fun s => ?_
  refine (adjust_calm s length).andThen fun window => ?_
  refine (expect_calm _ _ slice).andThen fun bare => ?_
  refine (indices_calm hc bare.bounds _).andThen fun exact => ?_
  refine (Ensures.orRaise fun _ _ => trivial).andThen fun exactPositions => ?_
  refine (allocateAdjusted_calm _).andThen fun adjusted => ?_
  refine (Ensures.view adjusted).andThen fun view => ?_
  refine (positions_calm window).andThen fun positions => ?_
  exact (count_calm window).andThen fun count => Ensures.pure trivial

theorem drawNext_calm (v : Value) (take : Nat) : (drawNext v take).Calm locks := by
  unfold drawNext
  refine (takeElements_calm take v).andThen fun items => ?_
  split
  · exact Ensures.pure trivial
  · exact Ensures.world.andThen fun w => Ensures.raise _

theorem push_calm (list item : Value) : (push list item).Calm locks := by
  unfold push
  split
  · exact (expect_calm _ _ _).andThen fun items => Ensures.store _ (List.nil_subset locks)
  · exact (expect_calm _ _ _).andThen fun _ => Ensures.pure trivial

/-- Each of the six comparisons has a log of its own, and each log is in order. -/
theorem compareAll_ensures (hc : c.Calm locks) (a b : Value) :
    (compareAll c a b).Ensures locks fun answers =>
      Result.Orderly locks (.report (.comparisons answers)) := by
  have one (op : Comparison) : (do
      return (op, ← Eval.capture do Eval.view (← c.compare op a b)) :
        Eval (Comparison × Answer View)).Ensures locks fun answer =>
      Orderly locks answer.2.events := by
    refine (Ensures.capture ?_).bind fun answer orderly => Ensures.pure orderly
    exact (hc.compare op a b).andThen fun v => Ensures.view v
  -- the logs are not appended to each other, so each has to be in order by itself
  unfold compareAll
  refine (Ensures.mapM fun op _ => one op).mono fun answers orderly => ?_
  intro log mem
  obtain ⟨answer, mem', rfl⟩ := List.mem_map.mp mem
  exact orderly answer mem'

/-! ## All operations -/

theorem Operation.perform_ensures (hc : c.Calm locks) {op : Operation} (h : op.locks ⊆ locks) :
    (op.perform c).Ensures locks (Result.Orderly locks) := by
  cases op with
  | construct type arguments named =>
    obtain ⟨placed, rest⟩ := List.append_subset.mp h
    rw [← locksOfAll_map_snd] at rest
    refine (readAll_calm hc arguments placed).andThen fun arguments => ?_
    refine (readAll_calm hc _ rest).andThen fun _ => ?_
    split
    · exact Ensures.raise _
    · refine (type.build_calm hc arguments).andThen fun v => ?_
      exact (describe_calm v).andThen fun _ => pure_ensures rfl
  | describe value =>
    refine (Term.read_calm hc value h).andThen fun v => ?_
    exact (describe_calm v).andThen fun _ => pure_ensures rfl
  | reinitialise value arguments =>
    obtain ⟨first, rest⟩ := List.append_subset.mp h
    refine (Term.read_calm hc value first).andThen fun v => ?_
    refine (readAll_calm hc arguments rest).andThen fun _ => ?_
    exact (describe_calm v).andThen fun _ => pure_ensures rfl
  | assign value name given =>
    refine readTwo_ensures hc h fun value given => ?_
    refine Ensures.world.andThen fun w => ?_
    split
    · exact Ensures.raise _
    · exact pure_ensures rfl
  | copy mode value =>
    refine (Term.read_calm hc value h).andThen fun v => ?_
    exact (copyReport_calm hc mode v).andThen fun _ => pure_ensures rfl
  | absentFacts => exact (absentReport_calm hc).andThen fun _ => pure_ensures rfl
  | bound value =>
    refine (Term.read_calm hc value h).andThen fun v => ?_
    exact (Ensures.view v.given).andThen fun _ => pure_ensures rfl
  | words => exact pure_ensures rfl
  | setWords update =>
    refine Ensures.words.andThen fun words => ?_
    exact (Ensures.setWords _).andThen fun _ => pure_ensures rfl
  | direction value => exact (Ensures.ofExcept _).andThen fun _ => pure_ensures rfl
  | hasIndex value =>
    refine (Term.read_calm hc value h).andThen fun v => ?_
    exact Ensures.world.andThen fun w => pure_ensures rfl
  | toIndex value template =>
    refine (Term.read_calm hc value h).andThen fun v => ?_
    exact (toIndex_calm hc template v).andThen fun _ => pure_ensures rfl
  | toIndexOrNull value =>
    refine (Term.read_calm hc value h).andThen fun v => ?_
    exact (toIndex?_calm hc v).andThen fun _ => pure_ensures rfl
  | indices slice length =>
    obtain ⟨first, second⟩ := List.append_subset.mp h
    refine (Term.read_calm hc slice first).andThen fun v => ?_
    refine (expect_calm _ _ v).andThen fun slice => ?_
    refine (Term.read_calm hc length second).andThen fun length => ?_
    exact (indices_calm hc slice.bounds length).andThen fun i => i.result_ensures
  | normalise slice length =>
    refine (Term.read_calm hc slice h).andThen fun v => ?_
    refine (membersOf_calm v).andThen fun fields => ?_
    exact (normalise_calm hc fields length).andThen fun i => i.result_ensures
  | resolve slice lineage =>
    refine (Term.read_calm hc slice h).andThen fun v => ?_
    refine (membersOf_calm v).andThen fun fields => ?_
    exact (resolve_calm hc lineage fields).andThen fun s => s.result_ensures
  | saturate slice =>
    refine (Term.read_calm hc slice h).andThen fun v => ?_
    refine (expect_calm _ _ v).andThen fun slice => ?_
    exact (resolve_calm hc .base _).andThen fun s => s.result_ensures
  | adjust saturated length =>
    refine (Term.read_calm hc saturated h).andThen fun v => ?_
    refine (expect_calm _ _ v).andThen fun bounds => ?_
    refine (adjustBounds_calm hc bounds length).andThen fun adjusted => ?_
    exact (allocateAdjusted_calm adjusted).andThen fun _ => pure_ensures rfl
  | saturateIndex p length => exact Ensures.words.andThen fun _ => pure_ensures rfl
  | positions adjusted =>
    refine (Term.read_calm hc adjusted h).andThen fun v => ?_
    exact (positionsOf_calm hc v).andThen fun r => object_ensures (List.nil_subset locks)
  | ownPositions adjusted =>
    refine (Term.read_calm hc adjusted h).andThen fun v => ?_
    refine (expect_calm _ _ v).andThen fun v => ?_
    exact (positionsOf_calm hc v).andThen fun r => object_ensures (List.nil_subset locks)
  | count adjusted =>
    refine (Term.read_calm hc adjusted h).andThen fun v => ?_
    exact (countOf_calm hc v).andThen fun _ => pure_ensures rfl
  | iterate adjusted =>
    refine (Term.read_calm hc adjusted h).andThen fun v => ?_
    exact (positionsOf_calm hc v).andThen fun r => object_ensures (List.nil_subset locks)
  | next iterator take =>
    refine (Term.read_calm hc iterator h).andThen fun v => ?_
    exact (drawNext_calm v take).andThen fun _ => object_ensures (List.nil_subset locks)
  | select slice length =>
    refine (Term.read_calm hc slice h).andThen fun v => ?_
    exact (select_calm hc v length).andThen fun _ => pure_ensures rfl
  | positionsFor slice sequence lock =>
    obtain ⟨both, third⟩ := List.append_subset.mp h
    refine readTwo_ensures hc both fun slice sequence => ?_
    refine (Term.read_calm hc lock third).andThen fun lock => ?_
    refine (membersOf_calm slice).andThen fun fields => ?_
    refine (positionsFor_calm hc fields sequence lock).andThen fun positions => ?_
    cases positions with
    | some r => exact object_ensures (List.nil_subset locks)
    | none => exact pure_ensures rfl
  | compare op a b =>
    refine readTwo_ensures hc h fun a b => ?_
    exact (hc.compare op a b).andThen fun _ => pure_ensures rfl
  | compareAll a b =>
    refine readTwo_ensures hc h fun a b => ?_
    exact (compareAll_ensures hc a b).bind fun answers orderly => Ensures.pure orderly
  | compareMethod op a b =>
    refine readTwo_ensures hc h fun a b => ?_
    exact (compareMethod_calm hc op a b).andThen fun _ => pure_ensures rfl
  | identicalOrEqual a b =>
    refine readTwo_ensures hc h fun a b => ?_
    exact (identicalOrEqual_calm hc a b).andThen fun _ => pure_ensures rfl
  | compareField op a b =>
    refine readTwo_ensures hc h fun a b => ?_
    refine (compareField_calm hc op a b).andThen fun answer => ?_
    cases answer with
    | some answer => exact pure_ensures rfl
    | none => exact pure_ensures rfl
  | sequenceEqual pairs =>
    refine (readPairs_calm hc h).andThen fun pairs => ?_
    exact (sequenceEqual_calm hc (drawsOf_calm pairs)).andThen fun _ => pure_ensures rfl
  | lexicographic op pairs =>
    refine (readPairs_calm hc h).andThen fun pairs => ?_
    exact (lexicographic_calm hc op (drawsOf_calm pairs)).andThen fun _ => pure_ensures rfl
  | hash value =>
    refine (Term.read_calm hc value h).andThen fun v => ?_
    exact (hashKey_calm v).andThen fun _ => pure_ensures rfl
  | hashEqual a b =>
    obtain ⟨first, second⟩ := List.append_subset.mp h
    refine (Term.read_calm hc a first).andThen fun a => ?_
    refine (hashKey_calm a).andThen fun key => ?_
    refine (Term.read_calm hc b second).andThen fun b => ?_
    exact (hashKey_calm b).andThen fun _ => pure_ensures rfl
  | same a b =>
    exact readTwo_ensures hc h fun a b => pure_ensures rfl
  | push list item =>
    obtain ⟨first, second⟩ := List.append_subset.mp h
    refine (Term.read_calm hc list first).andThen fun list => ?_
    refine (expect_calm _ _ list).andThen fun _ => ?_
    refine (Term.read_calm hc item second).andThen fun item => ?_
    exact (push_calm list item).andThen fun _ => pure_ensures rfl

theorem Step.perform_ensures (hc : c.Calm locks) {step : Step} (h : step.locks ⊆ locks) :
    (step.perform c).Ensures locks (Result.Orderly locks) := by
  obtain ⟨operation, name⟩ := step
  refine (Operation.perform_ensures hc h).bind fun result orderly => ?_
  dsimp only
  split
  · exact (Ensures.bindName _ _).andThen fun _ => Ensures.pure orderly
  · exact Ensures.pure orderly

end Slicing
