import Slicing.Proofs.Inquiries

/-!
# One call a bound

Resolution and exact indices ask the bounds of a slice one after the other. What this comes to is
written down here as rules, without a word about how either of them is computed.

* `Converted` — what one value does when its integer is wanted, which is one call at most
* `Conducted` — what the bounds in some fields do one after the other, up to the first that fails
* `ConductedOver` — the same of the three bounds, with a length to be turned into an integer first
* `Answered` — what the bounds answer when none of them fails
* `answered_inOrder_iff` — asking the three bounds finds these answers and no others
* `resolve_indices_conducted` — resolution and exact indices do what the rules allow, and the rules
  allow nothing else

A callback may do anything, and may set other words as well. So an integer is held against the
words as they are when it has been found.
-/

namespace Slicing

/-! ## Runs -/

namespace Run

variable {α β : Type}

/-- The run with something that happened before it. -/
def after (before : List Event) (r : Run α) : Run α :=
  { r with events := before ++ r.events }

/-- The run with another outcome. -/
def ending (outcome : Except Fault β) (r : Run α) : Run β :=
  { outcome, events := r.events, world := r.world }

/-- The run without its result: what went wrong in it, if anything did, is still known. -/
def forget (r : Run α) : Run Unit :=
  r.ending (r.outcome.map fun _ => ())

theorem after_after (before first : List Event) (r : Run α) :
    (r.after first).after before = r.after (before ++ first) := by
  rw [after, after, after, List.append_assoc]

end Run

/-! ## One value -/

/-- The world in which an object makes up its answer. By then the call is counted. -/
def World.called (w : World) (a : Address) (s : Script) (calls : Nat) : World :=
  let counted := w.store a (.scripted s (calls + 1))
  match s.grows with
  | some (name, amount) => (lengthen name amount counted).world
  | none => counted

/-- A single call for an index. It shows first, and then whatever comes of making up the answer. -/
def callOnce (c : Callbacks) (a : Address) (s : Script) (calls : Nat) : Eval Value := fun w =>
  ((s.outcome calls).take c (w.called a s calls)).after [.indexed s.name w.isLocked]

/--
What comes of wanting the integer of a value in the world `w`. A value without an index is refused
with an error of the caller's.
-/
inductive Converted (c : Callbacks) (refusal : Kind → Error) (w : World) :
    Value → Run Int → Prop where
  /-- Integers stand for themselves, and so do truth values. -/
  | integer {v : Value} {n : Int} :
      v.toInt? = some n →
      Converted c refusal w v { outcome := .ok n, events := [], world := w }
  /-- What has no index is not called. -/
  | refused {v : Value} :
      w.hasIndex v = false →
      Converted c refusal w v
        { outcome := .error (.raised (refusal (w.kind v))), events := [], world := w }
  /-- What goes wrong in the call goes wrong. -/
  | failed {a : Address} {s : Script} {calls : Nat} {fault : Fault} :
      w.cell? (.object a) = some (.scripted s calls) → s.index.isSome →
      (callOnce c a s calls w).outcome = .error fault →
      Converted c refusal w (.object a) ((callOnce c a s calls w).ending (.error fault))
  /-- The call may answer with what is no integer. -/
  | unsuitable {a : Address} {s : Script} {calls : Nat} {answer : Value} :
      w.cell? (.object a) = some (.scripted s calls) → s.index.isSome →
      (callOnce c a s calls w).outcome = .ok answer → answer.toInt? = none →
      Converted c refusal w (.object a) ((callOnce c a s calls w).ending
        (.error (.raised (.indexNotInteger ((callOnce c a s calls w).world.kind answer)))))
  | answered {a : Address} {s : Script} {calls : Nat} {answer : Value} {n : Int} :
      w.cell? (.object a) = some (.scripted s calls) → s.index.isSome →
      (callOnce c a s calls w).outcome = .ok answer → answer.toInt? = some n →
      Converted c refusal w (.object a) ((callOnce c a s calls w).ending (.ok n))

section

variable {c : Callbacks} {refusal : Kind → Error} {w : World}

/-- Lengthening a sequence never fails and shows nowhere. -/
theorem lengthen_apply (name : String) (amount : Int) (w : World) :
    lengthen name amount w =
      { outcome := .ok (), events := [], world := (lengthen name amount w).world } := by
  unfold lengthen
  rw [Eval.world_bind_apply]
  cases w.lookup? name with
  | none => rfl
  | some v =>
    cases v with
    | object b =>
      dsimp only
      cases w.cells[b]? with
      | none => rfl
      | some cell => cases cell <;> rfl
    | _ => rfl

/-- An answer that is no integer is refused. -/
def checkIndex (answer : Value) : Eval Int := do
  Eval.orRaise (.indexNotInteger ((← Eval.world).kind answer)) answer.toInt?

theorem callIndex_apply (c : Callbacks) (a : Address) (s : Script) (calls : Nat) (w : World) :
    callIndex c a s calls w =
      (((s.outcome calls).take c >>= checkIndex) (w.called a s calls)).after
        [.indexed s.name w.isLocked] := by
  have emit {α : Type} (e : Event) (f : Unit → Eval α) :
      (Eval.emit e >>= f) w = (f () w).after [e] := rfl
  have store {α : Type} (cell : Cell) (f : Unit → Eval α) :
      (Eval.store a cell >>= f) w = f () (w.store a cell) := rfl
  unfold callIndex World.called
  rw [Eval.world_bind_apply, emit, store]
  cases s.grows with
  | none => rfl
  | some grown =>
    obtain ⟨name, amount⟩ := grown
    dsimp only
    rw [Eval.bind_apply, lengthen_apply]
    rfl

/-- Calling for an index is a single call, and then its answer has to be an integer. -/
theorem callIndex_eq (c : Callbacks) (a : Address) (s : Script) (calls : Nat) :
    callIndex c a s calls = callOnce c a s calls >>= checkIndex := by
  ext w
  rw [callIndex_apply, Eval.bind_apply, Eval.bind_apply]
  unfold callOnce
  cases h : ((s.outcome calls).take c (w.called a s calls)).outcome <;>
    simp [Run.after, h]

theorem callIndex_of_error {a : Address} {s : Script} {calls : Nat} {fault : Fault}
    (called : (callOnce c a s calls w).outcome = .error fault) :
    callIndex c a s calls w = (callOnce c a s calls w).ending (.error fault) := by
  rw [callIndex_eq, Eval.bind_apply_of_error called]
  rfl

theorem callIndex_of_toInt?_eq_none {a : Address} {s : Script} {calls : Nat} {answer : Value}
    (called : (callOnce c a s calls w).outcome = .ok answer) (other : answer.toInt? = none) :
    callIndex c a s calls w = (callOnce c a s calls w).ending
      (.error (.raised (.indexNotInteger ((callOnce c a s calls w).world.kind answer)))) := by
  rw [callIndex_eq, Eval.bind_apply_of_ok called, checkIndex, other, Eval.world_bind_apply,
    Eval.orRaise_none, Eval.raise_apply, List.append_nil]
  rfl

theorem callIndex_of_toInt?_eq_some {a : Address} {s : Script} {calls : Nat} {answer : Value}
    {n : Int} (called : (callOnce c a s calls w).outcome = .ok answer)
    (integer : answer.toInt? = some n) :
    callIndex c a s calls w = (callOnce c a s calls w).ending (.ok n) := by
  rw [callIndex_eq, Eval.bind_apply_of_ok called, checkIndex, integer, Eval.world_bind_apply,
    Eval.orRaise_some, Eval.pure_apply, List.append_nil]
  rfl

theorem indexOr_of_scripted {a : Address} {s : Script} {calls : Nat}
    (held : w.cell? (.object a) = some (.scripted s calls)) (index : s.index.isSome) :
    indexOr c refusal (.object a) w = callIndex c a s calls w := by
  unfold indexOr
  rw [Eval.world_bind_apply, held]
  exact congrFun (if_pos index) w

theorem indexOr_of_toInt? {v : Value} {n : Int} (h : v.toInt? = some n) :
    indexOr c refusal v w = { outcome := .ok n, events := [], world := w } := by
  cases v with
  | bool b => rw [← Option.some.inj h]; rfl
  | int m => rw [← Option.some.inj h]; rfl
  | _ => simp [Value.toInt?] at h

theorem indexOr_of_not_hasIndex {v : Value} (h : w.hasIndex v = false) :
    indexOr c refusal v w =
      { outcome := .error (.raised (refusal (w.kind v))), events := [], world := w } := by
  unfold World.hasIndex at h
  unfold indexOr
  rw [Eval.world_bind_apply]
  cases v with
  | object a =>
    cases held : w.cell? (.object a) with
    | none => rfl
    | some cell =>
      rw [held] at h
      cases cell with
      | scripted s calls => exact congrFun (if_neg (by simpa using h)) w
      | _ => rfl
  | bool b => simp [World.cell?, Value.toInt?] at h
  | int n => simp [World.cell?, Value.toInt?] at h
  | _ => rfl

/-- What has an index is an integer, or a scripted object that answers for one. -/
theorem World.hasIndex_cases {v : Value} (h : w.hasIndex v = true) :
    (∃ n, v.toInt? = some n) ∨
      ∃ a s calls, v = .object a ∧ w.cell? (.object a) = some (.scripted s calls) ∧
        s.index.isSome := by
  unfold hasIndex at h
  split at h
  · next s calls held =>
    cases v with
    | object a => exact .inr ⟨a, s, calls, rfl, held, h⟩
    | _ => simp [cell?] at held
  · exact .inl (Option.isSome_iff_exists.mp h)

/-- The rules allow what the program does with a value. -/
theorem converted_indexOr (c : Callbacks) (refusal : Kind → Error) (w : World) (v : Value) :
    Converted c refusal w v (indexOr c refusal v w) := by
  cases index : w.hasIndex v with
  | false =>
    rw [indexOr_of_not_hasIndex index]
    exact .refused index
  | true =>
    rcases World.hasIndex_cases index with ⟨n, h⟩ | ⟨a, s, calls, rfl, held, script⟩
    · rw [indexOr_of_toInt? h]
      exact .integer h
    · rw [indexOr_of_scripted held script]
      cases called : (callOnce c a s calls w).outcome with
      | error fault =>
        rw [callIndex_of_error called]
        exact .failed held script called
      | ok answer =>
        cases integer : answer.toInt? with
        | none =>
          rw [callIndex_of_toInt?_eq_none called integer]
          exact .unsuitable held script called integer
        | some n =>
          rw [callIndex_of_toInt?_eq_some called integer]
          exact .answered held script called integer

/-- The rules allow nothing else. -/
theorem Converted.eq_indexOr {v : Value} {run : Run Int} (h : Converted c refusal w v run) :
    run = indexOr c refusal v w := by
  cases h with
  | integer h => rw [indexOr_of_toInt? h]
  | refused h => rw [indexOr_of_not_hasIndex h]
  | failed held script called =>
    rw [indexOr_of_scripted held script, callIndex_of_error called]
  | unsuitable held script called other =>
    rw [indexOr_of_scripted held script, callIndex_of_toInt?_eq_none called other]
  | answered held script called integer =>
    rw [indexOr_of_scripted held script, callIndex_of_toInt?_eq_some called integer]

theorem Converted.unique {v : Value} {run other : Run Int} (h : Converted c refusal w v run)
    (h' : Converted c refusal w v other) : run = other :=
  h.eq_indexOr.trans h'.eq_indexOr.symm

end

/-! ## One bound after the other -/

/-- The record of an integer: there is one just when the integer is beyond the word. -/
def Words.record (words : Words) (field : Field) (n : Int) : List Event :=
  if words.isizeMin ≤ n ∧ n ≤ words.isizeMax then []
  else [.saturated field n (words.saturate n)]

/--
What the bounds in some fields do when their integers are wanted one after the other. An integer
may be recorded, and a step of zero ends the matter like a bound that fails.
-/
inductive Conducted (c : Callbacks) (record : Words → Field → Int → List Event) (b : Bounds) :
    List Field → World → Run Unit → Prop where
  | finished (w : World) :
      Conducted c record b [] w { outcome := .ok (), events := [], world := w }
  /-- Nothing is wanted of a bound that is not given. -/
  | skipped {field : Field} {fields : List Field} {w : World} {rest : Run Unit} :
      b.get field = .null → Conducted c record b fields w rest →
      Conducted c record b (field :: fields) w rest
  | failed {field : Field} {fields : List Field} {w : World} {run : Run Int} {fault : Fault} :
      b.get field ≠ .null → Converted c .notAnIndex w (b.get field) run →
      run.outcome = .error fault →
      Conducted c record b (field :: fields) w (run.ending (.error fault))
  | zeroStep {fields : List Field} {w : World} {run : Run Int} :
      b.get .step ≠ .null → Converted c .notAnIndex w (b.get .step) run →
      run.outcome = .ok 0 →
      Conducted c record b (.step :: fields) w (run.ending (.error (.raised .zeroStep)))
  | answered {field : Field} {fields : List Field} {w : World} {run : Run Int} {n : Int}
      {rest : Run Unit} :
      b.get field ≠ .null → Converted c .notAnIndex w (b.get field) run →
      run.outcome = .ok n → (field = .step → n ≠ 0) →
      Conducted c record b fields run.world rest →
      Conducted c record b (field :: fields) w
        (rest.after (run.events ++ record run.world.words field n))

section

variable {c : Callbacks} {record : Words → Field → Int → List Event} {b : Bounds} {w : World}

/-- The rules leave no choice. -/
theorem Conducted.unique {fields : List Field} {run other : Run Unit}
    (h : Conducted c record b fields w run) (h' : Conducted c record b fields w other) :
    run = other := by
  -- which rule applies is settled by the bound and, if it is given, by how asking it ended
  induction h generalizing other with
  | finished w => cases h'; rfl
  | skipped null _ ih =>
    cases h' with
    | skipped _ rest => exact ih rest
    | failed given _ _ => exact absurd null given
    | zeroStep given _ _ => exact absurd null given
    | answered given _ _ _ _ => exact absurd null given
  | failed given asked failed =>
    cases h' with
    | skipped null _ => exact absurd null given
    | failed _ asked' failed' =>
      rw [asked'.unique asked] at failed' ⊢
      rw [Except.error.inj (failed.symm.trans failed')]
    | zeroStep _ asked' zero =>
      rw [asked'.unique asked, failed] at zero
      contradiction
    | answered _ asked' integer _ _ =>
      rw [asked'.unique asked, failed] at integer
      contradiction
  | zeroStep given asked zero =>
    cases h' with
    | skipped null _ => exact absurd null given
    | failed _ asked' failed =>
      rw [asked'.unique asked, zero] at failed
      contradiction
    | zeroStep _ asked' _ => rw [asked'.unique asked]
    | answered _ asked' integer nonzero _ =>
      rw [asked'.unique asked, zero] at integer
      exact absurd (Except.ok.inj integer).symm (nonzero rfl)
  | answered given asked integer nonzero _ ih =>
    cases h' with
    | skipped null _ => exact absurd null given
    | failed _ asked' failed =>
      rw [asked'.unique asked, integer] at failed
      contradiction
    | zeroStep _ asked' zero =>
      rw [asked'.unique asked, integer] at zero
      exact absurd (Except.ok.inj zero) (nonzero rfl)
    | answered _ asked' integer' _ rest =>
      obtain rfl := asked'.unique asked
      obtain rfl := Except.ok.inj (integer.symm.trans integer')
      rw [ih rest]

section

variable {m : Members} {field : Field}

theorem askField_of_null (h : m field = .ok .null) : askField c m field = pure none := by
  unfold askField toIndex?
  rw [h, Eval.ofExcept_ok, pure_bind, if_pos rfl]

/-- A bound that is given is asked for its index. -/
theorem askField_of_given {v : Value} (h : m field = .ok v) (given : v ≠ .null) :
    askField c m field = some <$> indexOr c .notAnIndex v := by
  unfold askField toIndex?
  rw [h, Eval.ofExcept_ok, pure_bind, if_neg given]
  rfl

end

/--
To follow the rules, it is enough to follow them from the answer of the first bound on, where a
bound that is not given has no integer for an answer.
-/
theorem Conducted.ask {α : Type} {field : Field} {fields : List Field} {f : Option Int → Eval α}
    (zero : field = .step →
      (f (some 0) (askField c b.members field w).world).forget =
        { outcome := .error (.raised .zeroStep), events := []
          world := (askField c b.members field w).world })
    (answered : ∀ answer, (field = .step → answer ≠ some 0) →
      ∃ rest, Conducted c record b fields (askField c b.members field w).world rest ∧
        (f answer (askField c b.members field w).world).forget =
          rest.after (answer.elim [] (record (askField c b.members field w).world.words field))) :
    Conducted c record b (field :: fields) w ((askField c b.members field >>= f) w).forget := by
  by_cases given : b.get field = .null
  · have null : b.members field = .ok .null := by rw [Bounds.members_apply, given]
    rw [askField_of_null null] at answered ⊢
    obtain ⟨rest, conducted, follows⟩ := answered none (by simp)
    rw [pure_bind]
    exact .skipped given (follows ▸ conducted)
  · have asked := converted_indexOr c .notAnIndex w (b.get field)
    have world : (askField c b.members field w).world =
        (indexOr c .notAnIndex (b.get field) w).world := by
      rw [askField_of_given (b.members_apply field) given, Eval.map_apply]
    rw [world] at zero answered
    rw [Eval.bind_apply, askField_of_given (b.members_apply field) given, Eval.map_apply]
    cases outcome : (indexOr c .notAnIndex (b.get field) w).outcome with
    | error fault => exact .failed given asked outcome
    | ok n =>
      show Conducted c record b (field :: fields) w
        ((f (some n) (indexOr c .notAnIndex (b.get field) w).world).forget.after
          (indexOr c .notAnIndex (b.get field) w).events)
      by_cases last : field = .step ∧ n = 0
      · obtain ⟨rfl, rfl⟩ := last
        rw [zero rfl, Run.after, List.append_nil]
        exact .zeroStep given asked outcome
      · have nonzero : field = .step → n ≠ 0 := fun step zero => last ⟨step, zero⟩
        obtain ⟨rest, conducted, follows⟩ := answered (some n) (by simpa using nonzero)
        rw [follows, Run.after_after]
        exact .answered given asked outcome nonzero conducted

end

/-! ## What the bounds answer -/

/--
The bounds in some fields answer one after the other with these integers, or with none, and leave
the world `w'`. One that is not given has none, and of any other its integer is wanted once.
-/
inductive Answered (c : Callbacks) (m : Members) :
    List Field → World → List (Option Int) → World → Prop where
  | finished (w : World) : Answered c m [] w [] w
  | skipped {field : Field} {fields : List Field} {w w' : World} {answers : List (Option Int)} :
      m field = .ok .null → Answered c m fields w answers w' →
      Answered c m (field :: fields) w (none :: answers) w'
  | answered {field : Field} {fields : List Field} {w w' : World} {v : Value} {run : Run Int}
      {n : Int} {answers : List (Option Int)} :
      m field = .ok v → v ≠ .null → Converted c .notAnIndex w v run → run.outcome = .ok n →
      Answered c m fields run.world answers w' →
      Answered c m (field :: fields) w (some n :: answers) w'

section

variable {c : Callbacks} {m : Members} {field : Field} {fields : List Field} {w w' : World}
  {answer : Option Int} {answers : List (Option Int)}

/-- To ask a bound is to convert it, and nothing else, unless it is not given. -/
theorem yields_askField_iff :
    (askField c m field).Yields w answer w' ↔
      (m field = .ok .null ∧ answer = none ∧ w' = w) ∨
        ∃ v run n, m field = .ok v ∧ v ≠ .null ∧ Converted c .notAnIndex w v run ∧
          run.outcome = .ok n ∧ answer = some n ∧ w' = run.world := by
  cases held : m field with
  | error e => simp [askField, held, Eval.Yields, Eval.bind_apply, Eval.raise_apply]
  | ok v =>
    by_cases given : v = .null
    · subst given
      rw [askField_of_null held, Eval.yields_pure_iff]
      simp
    · rw [askField_of_given held given, Eval.yields_map_iff]
      constructor
      · rintro ⟨n, ⟨integer, rfl⟩, rfl⟩
        exact .inr ⟨v, _, n, rfl, given, converted_indexOr c _ w v, integer, rfl, rfl⟩
      · rintro (⟨null, -⟩ | ⟨_, run, n, same, -, asked, integer, rfl, rfl⟩)
        · exact absurd (Except.ok.inj null) given
        · obtain rfl := Except.ok.inj same
          rw [asked.eq_indexOr] at integer ⊢
          exact ⟨n, ⟨integer, rfl⟩, rfl⟩

theorem answered_nil_iff : Answered c m [] w [] w' ↔ w' = w := by
  constructor
  · rintro ⟨⟩
    rfl
  · rintro rfl
    exact .finished w'

/-- One bound more answers before the others. -/
theorem answered_cons_iff :
    Answered c m (field :: fields) w (answer :: answers) w' ↔
      ∃ w₁, (askField c m field).Yields w answer w₁ ∧ Answered c m fields w₁ answers w' := by
  constructor
  · intro h
    cases h with
    | skipped null rest => exact ⟨w, yields_askField_iff.mpr (.inl ⟨null, rfl, rfl⟩), rest⟩
    | answered held given asked integer rest =>
      exact ⟨_, yields_askField_iff.mpr (.inr ⟨_, _, _, held, given, asked, integer, rfl, rfl⟩),
        rest⟩
  · rintro ⟨w₁, yields, rest⟩
    obtain ⟨null, rfl, rfl⟩ | ⟨v, run, n, held, given, asked, integer, rfl, rfl⟩ :=
      yields_askField_iff.mp yields
    · exact .skipped null rest
    · exact .answered held given asked integer rest

/-- To ask the three bounds in order is to find what they answer, and the world they leave. -/
theorem answered_inOrder_iff {start stop step : Option Int} :
    Answered c m Field.inOrder w [step, start, stop] w' ↔
      Asked c m w start stop step ∧ w' = w.afterAsking c m Field.inOrder := by
  rw [Field.inOrder]
  simp only [answered_cons_iff, answered_nil_iff]
  constructor
  · rintro ⟨_, ⟨askedStep, rfl⟩, _, ⟨askedStart, rfl⟩, _, ⟨askedStop, rfl⟩, rfl⟩
    exact ⟨⟨askedStep, askedStart, askedStop⟩, rfl⟩
  · rintro ⟨⟨askedStep, askedStart, askedStop⟩, rfl⟩
    exact ⟨_, ⟨askedStep, rfl⟩, _, ⟨askedStart, rfl⟩, _, ⟨askedStop, rfl⟩, rfl⟩

end

/-! ## Resolution -/

theorem saturationLog_eq (words : Words) (field : Field) (answer : Option Int) :
    saturationLog words field answer = answer.elim [] (words.record field) := by
  cases answer with
  | none => rfl
  | some n =>
    show (if words.saturate n ≠ n then _ else []) = words.record field n
    unfold Words.record
    by_cases within : words.isizeMin ≤ n ∧ n ≤ words.isizeMax
    · rw [if_pos within, if_neg (not_not_intro (Words.saturate_eq_self within.1 within.2))]
    · have changed : words.saturate n ≠ n := by
        unfold Words.saturate
        split
        · omega
        · split <;> omega
      rw [if_neg within, if_pos changed]

/-- Saturating an answer leaves the record of it. -/
theorem forget_saturateAnswer_bind {α : Type} {field : Field} {answer : Option Int}
    (f : Option Int → Eval α) (w : World) :
    ((saturateAnswer field answer >>= f) w).forget =
      (f (answer.map w.words.saturate) w).forget.after
        (answer.elim [] (w.words.record field)) := by
  rw [Eval.bind_apply, saturateAnswer_apply, saturationLog_eq]
  rfl

theorem Words.Proper.record_zero {words : Words} (proper : words.Proper) (field : Field) :
    words.record field 0 = [] :=
  if_pos ⟨Int.le_of_lt proper.isizeMin_neg, Int.le_of_lt proper.isizeMax_pos⟩

/-- Three integers build a saturated slice as long as the step is not zero. -/
theorem forget_saturatedOf (lineage : Lineage) (start stop : Int) {step : Int}
    (nonzero : step ≠ 0) (w : World) :
    (Eval.saturatedOf lineage start stop step w).forget =
      { outcome := .ok (), events := [], world := w } := by
  unfold Eval.saturatedOf Saturated.of?
  rw [Eval.words_bind_apply, if_neg nonzero, Eval.orRaise_some]
  rfl

/-- Resolution follows the rules and records what is beyond the word. -/
theorem conducted_resolve (c : Callbacks) (b : Bounds) (lineage : Lineage) {w : World}
    (proper : (askField c b.members .step w).world.words.Proper) :
    Conducted c Words.record b Field.inOrder w (resolve c lineage b.members w).forget := by
  rw [resolve_eq]
  refine .ask (fun _ => ?zero) fun step nonzero => ⟨_, ?start, forget_saturateAnswer_bind _ _⟩
  case zero =>
    -- zero is within the word, so saturating it neither changes nor records it
    have saturated : (some 0).map (askField c b.members .step w).world.words.saturate = some 0 :=
      (Words.map_saturate_eq_zero_iff proper).mpr rfl
    rw [forget_saturateAnswer_bind, saturated, Option.elim_some, proper.record_zero]
    rfl
  case start =>
    have nonzero := mt (Words.map_saturate_eq_zero_iff proper).mp (nonzero rfl)
    rw [checkStep_of_ne nonzero, pure_bind]
    refine .ask nofun fun start _ => ⟨_, ?stop, forget_saturateAnswer_bind _ _⟩
    rw [Eval.words_bind_apply]
    refine .ask nofun fun stop _ => ⟨_, ?built, forget_saturateAnswer_bind _ _⟩
    rw [Eval.words_bind_apply, forget_saturatedOf lineage _ _ (getD_one_ne_zero nonzero)]
    exact .finished _

/-! ## Exact indices -/

/-- Exact indices follow the rules, without a record. -/
theorem conducted_normalise (c : Callbacks) (b : Bounds) (length : Int) (w : World) :
    Conducted c (fun _ _ _ => []) b Field.inOrder w (normalise c b.members length w).forget := by
  have unrecorded (answer : Option Int) (r : Run Unit) :
      r = r.after (answer.elim [] fun _ => []) := by
    cases answer <;> rfl
  rw [normalise_eq]
  refine .ask (fun _ => rfl) fun step nonzero => ⟨_, ?_, unrecorded _ _⟩
  rw [checkStep_of_ne (nonzero rfl), pure_bind]
  refine .ask nofun fun start _ => ⟨_, ?_, unrecorded _ _⟩
  refine .ask nofun fun stop _ => ⟨_, ?_, unrecorded _ _⟩
  exact .finished _

/-- The error for a length without an index. -/
def lengthRefusal (k : Kind) : Error :=
  .notConvertible (Text.quote k.name ++ " object cannot be interpreted as an integer")

/-- The template for a length has one gap, for the name of the kind between quote marks. -/
theorem fill_lengthTemplate (name : String) :
    Text.fill lengthTemplate name =
      .ok (Text.quote name ++ " object cannot be interpreted as an integer") := by
  have parts : Text.pieces .text lengthTemplate.toList =
      (.gap [] (some 'r') [] ::
        " object cannot be interpreted as an integer".toList.map .plain, none) := rfl
  simp only [Text.fill, Text.expand, parts, Text.fillAll, Text.Piece.fill_quoted,
    Text.fillAll_plain, bind, Except.bind, pure, Except.pure, String.ofList_append,
    String.ofList_toList]

theorem indexRefusal_length : indexRefusal (some lengthTemplate) = lengthRefusal := by
  funext k
  unfold indexRefusal lengthRefusal
  simp only [fill_lengthTemplate]

/--
What the bounds do over a length that is itself a value. Its integer is wanted first, and none of
the bounds is asked unless it has one that is not negative.
-/
inductive ConductedOver (c : Callbacks) (b : Bounds) (w : World) (length : Value) :
    Run Unit → Prop where
  | failed {run : Run Int} {fault : Fault} :
      Converted c lengthRefusal w length run → run.outcome = .error fault →
      ConductedOver c b w length (run.ending (.error fault))
  | negative {run : Run Int} {n : Int} :
      Converted c lengthRefusal w length run → run.outcome = .ok n → n < 0 →
      ConductedOver c b w length (run.ending (.error (.raised .negativeLength)))
  | answered {run : Run Int} {n : Int} {rest : Run Unit} :
      Converted c lengthRefusal w length run → run.outcome = .ok n → 0 ≤ n →
      Conducted c (fun _ _ _ => []) b Field.inOrder run.world rest →
      ConductedOver c b w length (rest.after run.events)

theorem conductedOver_indices (c : Callbacks) (b : Bounds) (w : World) (length : Value) :
    ConductedOver c b w length (indices c b length w).forget := by
  have asked := converted_indexOr c lengthRefusal w length
  unfold indices toIndex
  rw [indexRefusal_length]
  cases outcome : (indexOr c lengthRefusal length w).outcome with
  | error fault =>
    rw [Eval.bind_apply_of_error outcome]
    exact .failed asked outcome
  | ok n =>
    rw [Eval.bind_apply_of_ok outcome]
    by_cases negative : n < 0
    · rw [if_pos negative, Eval.raise_apply, List.append_nil]
      exact .negative asked outcome negative
    · rw [if_neg negative]
      exact .answered asked outcome (Int.not_lt.mp negative) (conducted_normalise c b n _)

/-- The rules for a length leave no choice either. -/
theorem ConductedOver.unique {c : Callbacks} {b : Bounds} {w : World} {length : Value}
    {run other : Run Unit} (h : ConductedOver c b w length run)
    (h' : ConductedOver c b w length other) : run = other := by
  cases h with
  | failed asked failed =>
    cases h' with
    | failed asked' failed' =>
      rw [asked'.unique asked] at failed' ⊢
      rw [Except.error.inj (failed.symm.trans failed')]
    | negative asked' integer _ =>
      rw [asked'.unique asked, failed] at integer
      contradiction
    | answered asked' integer _ _ =>
      rw [asked'.unique asked, failed] at integer
      contradiction
  | negative asked integer negative =>
    cases h' with
    | failed asked' failed =>
      rw [asked'.unique asked, integer] at failed
      contradiction
    | negative asked' _ _ => rw [asked'.unique asked]
    | answered asked' integer' nonneg _ =>
      rw [asked'.unique asked, integer] at integer'
      obtain rfl := Except.ok.inj integer'
      exact absurd negative (Int.not_lt.mpr nonneg)
  | answered asked integer nonneg rest =>
    cases h' with
    | failed asked' failed =>
      rw [asked'.unique asked, integer] at failed
      contradiction
    | negative asked' integer' negative =>
      rw [asked'.unique asked, integer] at integer'
      obtain rfl := Except.ok.inj integer'
      exact absurd negative (Int.not_lt.mpr nonneg)
    | answered asked' _ _ rest' =>
      obtain rfl := asked'.unique asked
      rw [rest.unique rest']

/-! ## Both ways -/

/--
Resolution does what the bounds do one after the other, with a record of each integer beyond the
word, and exact indices do the same without a record once the length has been turned into an
integer. The rules allow both of these and nothing else. Of the words nothing is asked but that
zero lies inside them when the step has answered.
-/
theorem resolve_indices_conducted (c : Callbacks) (s : Slice) (lineage : Lineage) {w : World}
    (proper : (w.afterAsking c s.bounds.members [.step]).words.Proper) :
    (∀ run, Conducted c Words.record s.bounds Field.inOrder w run ↔
      (resolve c lineage s.bounds.members w).forget = run) ∧
    ∀ length run, ConductedOver c s.bounds w length run ↔
      (indices c s.bounds length w).forget = run := by
  have resolved := conducted_resolve c s.bounds lineage proper
  refine ⟨fun run => ⟨resolved.unique, ?_⟩, fun length run => ?_⟩
  · rintro rfl
    exact resolved
  · have measured := conductedOver_indices c s.bounds w length
    refine ⟨measured.unique, ?_⟩
    rintro rfl
    exact measured

/-- An object that answers once and has nothing more to say, after so many calls. -/
def World.worn (calls : Nat) : World :=
  { cells := #[.tuple [],
      .scripted (.mk "p" "Probe" (some [.gives (.int 3), .raises (.scripted .value "spent")])
        none [] none) calls]
    words := .twosComplement 4
    held := 0
    names := [] }

/-- A slice with that object for both ends, and with a step beyond the word. -/
def Slice.worn : Slice :=
  { lineage := .base, start := .object 1, stop := .object 1, step := .int (-9) }

/-- The object is called once for each of the places where it stands, and the length comes first. -/
theorem resolve_indices_conducted_worn :
    ((World.worn 0).afterAsking (.ofDepth 1) Slice.worn.bounds.members [.step]).words.Proper ∧
      Conducted (.ofDepth 1) Words.record Slice.worn.bounds Field.inOrder (.worn 0)
        { outcome := .error (.raised (.scripted .value "spent"))
          events := [.saturated .step (-9) (-5), .indexed "p" false, .indexed "p" false]
          world := .worn 2 } ∧
      ConductedOver (.ofDepth 1) Slice.worn.bounds (.worn 0) (.object 1)
        { outcome := .error (.raised (.scripted .value "spent"))
          events := [.indexed "p" false, .indexed "p" false]
          world := .worn 2 } := by
  have proper : ((World.worn 0).afterAsking (.ofDepth 1) Slice.worn.bounds.members
      [.step]).words.Proper := ⟨by decide, by decide⟩
  obtain ⟨resolved, measured⟩ :=
    resolve_indices_conducted (.ofDepth 1) Slice.worn .base proper
  exact ⟨proper, (resolved _).mpr rfl, (measured _ _).mpr rfl⟩

end Slicing
