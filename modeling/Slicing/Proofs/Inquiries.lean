import Slicing.Proofs.Asking
import Slicing.Session

/-!
# Two ways to ask the bounds

Exact indices and resolution each ask the three bounds for their integers. They do so in the same
order, make the same of `null` and of a step of zero, and give up at the same bound. All that
resolution adds is a record of each answer that does not fit the word.

* `World.inquiries` — the log of asking, cut into what the bounds show and what is recorded
* `Alike.ask` — two runs that are alike after an answer are alike before the question
* `resolve_alike_normalise` — so the two leave the same world, fail alike and show the same
-/

namespace Slicing

/-! ## The log of asking -/

/-- What one bound adds to a log: what is seen of asking it, and the record of its answer. -/
structure Inquiry where
  asking : List Event
  record : List Event

/-- All that one bound adds to a log. The record comes when the bound has answered. -/
def Inquiry.log (i : Inquiry) : List Event :=
  i.asking ++ i.record

/--
The inquiries of the bounds in some fields, asked one after the other. The first bound that fails
is the last to be asked, and so is a step of zero.
-/
def World.inquiries (c : Callbacks) (m : Members) : List Field → World → List Inquiry
  | [], _ => []
  | field :: fields, w =>
    let run := askField c m field w
    match run.outcome with
    | .error _ => [{ asking := run.events, record := [] }]
    | .ok answer =>
      { asking := run.events, record := saturationLog run.world.words field answer } ::
        if field = .step ∧ answer = some 0 then [] else inquiries c m fields run.world

/-- A record tells of an integer in some field and of the limit that stands for it. -/
def Inquiry.Recorded (i : Inquiry) : Prop :=
  ∀ e ∈ i.record, ∃ field n limit, e = .saturated field n limit

theorem mem_saturationLog {words : Words} {field : Field} {answer : Option Int} {e : Event}
    (h : e ∈ saturationLog words field answer) :
    ∃ n, e = .saturated field n (words.saturate n) := by
  cases answer with
  | none => simp [saturationLog] at h
  | some n =>
    by_cases same : words.saturate n = n
    · simp [saturationLog, same] at h
    · exact ⟨n, by simpa [saturationLog, same] using h⟩

theorem World.inquiries_recorded (c : Callbacks) (m : Members) (fields : List Field) (w : World) :
    ∀ i ∈ w.inquiries c m fields, i.Recorded := by
  induction fields generalizing w with
  | nil => simp [inquiries]
  | cons field fields ih =>
    intro i mem
    unfold inquiries at mem
    dsimp only at mem
    split at mem
    · obtain rfl := List.mem_singleton.mp mem
      simp [Inquiry.Recorded]
    · rcases List.mem_cons.mp mem with rfl | mem
      · intro e he
        obtain ⟨n, rfl⟩ := mem_saturationLog he
        exact ⟨field, n, _, rfl⟩
      · split at mem
        · simp at mem
        · exact ih _ i mem

/-! ## Runs that are alike -/

/-- Looking up the words shows nowhere. -/
theorem Eval.words_bind_apply {α : Type} (f : Words → Eval α) (w : World) :
    (Eval.words >>= f) w = f w.words w := rfl

/--
Two runs that fail with the same fault or not at all and leave the same world. Without the records
in its log the first one shows what the second one shows.
-/
structure Alike {α β : Type} (inquiries : List Inquiry) (x : Run α) (y : Run β) : Prop where
  fault : ∀ fault, x.outcome = .error fault ↔ y.outcome = .error fault
  world : x.world = y.world
  logged : x.events = inquiries.flatMap Inquiry.log
  asked : y.events = inquiries.flatMap Inquiry.asking

namespace Alike

variable {α β : Type} {c : Callbacks} {m : Members} {w : World}

theorem pure (a : α) (b : β) (w : World) :
    Alike [] ((Pure.pure a : Eval α) w) ((Pure.pure b : Eval β) w) where
  fault fault := by simp [Eval.pure_apply]
  world := rfl
  logged := rfl
  asked := rfl

theorem raise (e : Error) (w : World) :
    Alike [] ((Eval.raise e : Eval α) w) ((Eval.raise e : Eval β) w) where
  fault fault := by simp [Eval.raise_apply]
  world := rfl
  logged := rfl
  asked := rfl

/-- Three integers build a saturated slice as long as the step is not zero. -/
theorem saturatedOf (lineage : Lineage) (start stop : Int) {step : Int} (nonzero : step ≠ 0)
    (b : β) (w : World) :
    Alike [] (Eval.saturatedOf lineage start stop step w) ((Pure.pure b : Eval β) w) := by
  unfold Eval.saturatedOf Saturated.of?
  rw [Eval.words_bind_apply, if_neg nonzero, Eval.orRaise_some]
  exact pure _ b w

/-- Asking one bound, of which one run records the answer, keeps two runs alike. -/
theorem ask {field : Field} {fields : List Field} {f : Option Int → Eval α}
    {g : Option Int → Eval β}
    (rest : ∀ answer, (askField c m field w).outcome = .ok answer →
      Alike
        (if field = .step ∧ answer = some 0 then []
          else (askField c m field w).world.inquiries c m fields)
        (f (answer.map (askField c m field w).world.words.saturate) (askField c m field w).world)
        (g answer (askField c m field w).world)) :
    Alike (w.inquiries c m (field :: fields))
      ((do f (← saturateAnswer field (← askField c m field))) w)
      ((do g (← askField c m field)) w) := by
  unfold World.inquiries
  rw [Eval.bind_apply, Eval.bind_apply]
  dsimp only
  cases answered : (askField c m field w).outcome with
  -- a bound that fails ends both runs, with nothing to record
  | error fault =>
    dsimp only
    exact ⟨fun _ => by simp, rfl, by simp [Inquiry.log], by simp⟩
  | ok answer =>
    obtain ⟨fault, world, logged, asked⟩ := rest answer answered
    dsimp only
    rw [Eval.bind_apply, saturateAnswer_apply]
    refine ⟨fault, world, ?_, ?_⟩
    · rw [List.flatMap_cons, ← logged, Inquiry.log, List.append_assoc]
    · rw [List.flatMap_cons, ← asked]

end Alike

/-! ## Both ways -/

/-- Exact indices ask one bound after the other. -/
theorem normalise_eq (c : Callbacks) (m : Members) (length : Int) :
    normalise c m length = (do
      let step ← checkStep (← askField c m .step)
      let start ← askField c m .start
      let stop ← askField c m .stop
      return Indices.ofBounds start stop step length) := by
  simp only [normalise, askField, bind_assoc]

/--
Whatever the bounds do when they are asked, resolution and exact indices over any length fail
alike, leave the same world and show the same but for the records of resolution. Nothing is asked
of the words but that zero lies inside them when the step has answered, so that a step which is
not zero is not saturated to zero.
-/
theorem resolve_alike_normalise (c : Callbacks) (m : Members) (lineage : Lineage) (length : Int)
    {w : World} (proper : (w.afterAsking c m [.step]).words.Proper) :
    Alike (w.inquiries c m Field.inOrder) (resolve c lineage m w) (normalise c m length w) ∧
      ∀ i ∈ w.inquiries c m Field.inOrder, i.Recorded := by
  refine ⟨?_, w.inquiries_recorded c m _⟩
  have proper : (askField c m .step w).world.words.Proper := proper
  rw [resolve_eq, normalise_eq]
  refine Alike.ask fun step _ => ?_
  by_cases zero : step = some 0
  · have saturated : step.map (askField c m .step w).world.words.saturate = some 0 :=
      (Words.map_saturate_eq_zero_iff proper).mpr zero
    rw [if_pos ⟨rfl, zero⟩, saturated, zero]
    exact Alike.raise .zeroStep _
  · have nonzero : step.map (askField c m .step w).world.words.saturate ≠ some 0 :=
      mt (Words.map_saturate_eq_zero_iff proper).mp zero
    rw [if_neg (fun h => zero h.2), checkStep_of_ne zero, checkStep_of_ne nonzero, pure_bind,
      pure_bind]
    refine Alike.ask fun start _ => ?_
    rw [if_neg (by simp), Eval.words_bind_apply]
    refine Alike.ask fun stop _ => ?_
    rw [if_neg (by simp), Eval.words_bind_apply]
    exact Alike.saturatedOf lineage _ _ (getD_one_ne_zero nonzero) _ _

/-- A step beyond the word, a start that selects from a sequence when asked, and a failing stop. -/
def World.inquired : World :=
  { cells := #[.tuple [], .sequence "q" 3 none,
      .scripted (.mk "k" "Probe" (some [.gives (.int 99)]) none [] none) 0,
      .scripted (.mk "p" "Probe" (some [.performs (.mk (.positionsFor
        (.slice .base [.int 9]) (.named "q") .null) none) (some 1)]) none [] none) 0,
      .scripted (.mk "r" "Probe" (some [.gives (.text "r")]) none [] none) 0]
    words := .twosComplement 4
    held := 0
    names := [("q", .object 1)] }

/-- The bounds that are asked in that world. -/
def Bounds.inquired : Bounds :=
  { start := .object 3, stop := .object 4, step := .object 2 }

/-- The record that is made while the start is asked belongs to the start, and stays. -/
theorem resolve_alike_normalise_nested :
    (World.inquired.afterAsking (.ofDepth 1) Bounds.inquired.members [.step]).words.Proper ∧
      (resolve (.ofDepth 1) .base Bounds.inquired.members .inquired).events =
        [.indexed "k" false, .saturated .step 99 4, .indexed "p" false, .saturated .stop 9 4,
          .measured "q" false, .indexed "r" false] ∧
      (normalise (.ofDepth 1) Bounds.inquired.members 3 .inquired).events =
        [.indexed "k" false, .indexed "p" false, .saturated .stop 9 4, .measured "q" false,
          .indexed "r" false] ∧
      (resolve (.ofDepth 1) .base Bounds.inquired.members .inquired).outcome =
        .error (.raised (.indexNotInteger .text)) := by
  have proper : (World.inquired.afterAsking (.ofDepth 1) Bounds.inquired.members
      [.step]).words.Proper := ⟨by decide, by decide⟩
  obtain ⟨⟨fault, -, logged, asked⟩, -⟩ :=
    resolve_alike_normalise (.ofDepth 1) Bounds.inquired.members .base 3 proper
  exact ⟨proper, logged.trans rfl, asked.trans rfl, (fault _).mpr rfl⟩

end Slicing
