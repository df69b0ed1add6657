import Slicing.Proofs.OneCall

/-!
# The pair that decides

Comparing field by field draws one pair after the other and tests whether it ties, until one does
not. What shows of this is the log of the pairs drawn so far, and what it comes to is settled by the
last of them. Later pairs are never drawn, so they may as well not be there.

A test may change the world, so each pair is tested in the world that the tests before it left.

* `firstUntied` — the search for that pair, which equality and order share
* `firstUntied_append` — pairs that tie are passed over, and leave nothing but their log
* `firstUntied_of_untied` — a pair that does not tie ends the search, whatever comes after it
* `lexicographic_stops_at_untied` — so no pair is drawn, tested or ordered that need not be
-/

namespace Slicing

/-- What follows from a run shows after the log of that run. -/
theorem Eval.bind_after {α β : Type} {x y : Eval α} {w w' : World} {log : List Event}
    (run : x w = (y w').after log) (f : α → Eval β) :
    (x >>= f) w = ((y >>= f) w').after log := by
  rw [bind_apply, bind_apply, run]
  unfold Run.after
  dsimp only
  cases (y w').outcome <;> simp

/-! ## Testing pairs in turn -/

namespace World

/-- The world that is left when pairs have been tested in turn, whatever the tests came to. -/
def afterTesting (c : Callbacks) : List (Value × Value) → World → World
  | [], w => w
  | (a, b) :: pairs, w => afterTesting c pairs (identicalOrEqual c a b w).world

/-- What shows of pairs that are drawn, the first from `place`, and each tested once when drawn. -/
def drawnLog (c : Callbacks) : Nat → List (Value × Value) → World → List Event
  | _, [], _ => []
  | place, (a, b) :: pairs, w =>
    let test := identicalOrEqual c a b w
    .drawn place :: test.events ++ drawnLog c (place + 1) pairs test.world

/-- Every pair ties when they are tested in turn. -/
def AllTie (c : Callbacks) : List (Value × Value) → World → Prop
  | [], _ => True
  | (a, b) :: pairs, w =>
    let test := identicalOrEqual c a b w
    test.outcome = .ok true ∧ AllTie c pairs test.world

/-- The pairs before this one tie, and then it does not: its test says no, or fails. -/
structure Unties (w : World) (c : Callbacks) (before : List (Value × Value)) (a b : Value) :
    Prop where
  ties : w.AllTie c before
  untied : (identicalOrEqual c a b (w.afterTesting c before)).outcome ≠ .ok true

variable {c : Callbacks} {w : World}

theorem afterTesting_append (xs ys : List (Value × Value)) :
    w.afterTesting c (xs ++ ys) = (w.afterTesting c xs).afterTesting c ys := by
  induction xs generalizing w with
  | nil => rfl
  | cons pair xs ih => exact ih

theorem drawnLog_append (place : Nat) (xs ys : List (Value × Value)) :
    w.drawnLog c place (xs ++ ys) =
      w.drawnLog c place xs ++ (w.afterTesting c xs).drawnLog c (place + xs.length) ys := by
  induction xs generalizing w place with
  | nil => rfl
  | cons pair xs ih =>
    simp only [List.cons_append, drawnLog, afterTesting, List.length_cons, ih, List.append_assoc,
      Nat.add_right_comm place 1, Nat.add_assoc]

theorem allTie_append_iff {xs ys : List (Value × Value)} :
    w.AllTie c (xs ++ ys) ↔ w.AllTie c xs ∧ (w.afterTesting c xs).AllTie c ys := by
  induction xs generalizing w with
  | nil => simp [AllTie, afterTesting]
  | cons pair xs ih => simp only [List.cons_append, AllTie, afterTesting, ih, and_assoc]

/-- Unless all pairs tie, there is a first one that does not. -/
theorem not_allTie_iff {pairs : List (Value × Value)} :
    ¬w.AllTie c pairs ↔
      ∃ before a b after, pairs = before ++ (a, b) :: after ∧ w.Unties c before a b := by
  constructor
  · intro untied
    induction pairs generalizing w with
    | nil => exact absurd trivial untied
    | cons pair pairs ih =>
      obtain ⟨a, b⟩ := pair
      by_cases tie : (identicalOrEqual c a b w).outcome = .ok true
      · obtain ⟨before, u, v, after, rfl, unties⟩ := ih fun ties => untied ⟨tie, ties⟩
        exact ⟨(a, b) :: before, u, v, after, rfl, ⟨tie, unties.ties⟩, unties.untied⟩
      · exact ⟨[], a, b, pairs, rfl, trivial, tie⟩
  · rintro ⟨before, a, b, after, rfl, unties⟩ ties
    exact unties.untied (allTie_append_iff.mp ties).2.1

end World

/-! ## Drawing pairs in turn -/

/-- Pairs that show when they are drawn, the first of them at `place`. -/
def drawsFrom (place : Nat) (pairs : List (Value × Value)) : List Draw :=
  (pairs.zipIdx place).map fun (pair, i) => do
    Eval.emit (.drawn i)
    return pair

/-- From place 0 on, these are the draws of an operation. -/
theorem drawsOf_eq (pairs : List (Value × Value)) : drawsOf pairs = drawsFrom 0 pairs := rfl

/-- Draws pairs in turn up to the first one that does not tie, and gives that one. -/
def firstUntied (c : Callbacks) : List Draw → Eval (Option (Value × Value))
  | [] => pure none
  | draw :: draws => do
    let (a, b) ← draw
    if ← identicalOrEqual c a b then firstUntied c draws
    else return some (a, b)

section

variable {c : Callbacks}

theorem sequenceEqual_eq_firstUntied (c : Callbacks) (draws : List Draw) :
    sequenceEqual c draws = (do return (← firstUntied c draws).isNone) := by
  induction draws with
  | nil => rfl
  | cons draw draws ih =>
    rw [sequenceEqual, firstUntied, bind_assoc]
    refine bind_congr fun pair => ?_
    rw [bind_assoc]
    refine bind_congr fun tie => ?_
    cases tie with
    | true => exact ih
    | false => rfl

theorem decideBy_eq_firstUntied (c : Callbacks) (op : Comparison) (draws : List Draw) :
    decideBy c op draws = (do
      match ← firstUntied c draws with
      | some (a, b) => truth c (← c.compare op a b)
      | none => pure op.onTie) := by
  induction draws with
  | nil => rfl
  | cons draw draws ih =>
    rw [decideBy, firstUntied, bind_assoc]
    refine bind_congr fun pair => ?_
    simp only [compareField, bind_assoc]
    refine bind_congr fun tie => ?_
    cases tie with
    | true => exact ih
    -- the answer of this pair is final, whatever the other pairs are
    | false => simp

variable {w : World}

/-- Drawing the next pair shows its place and nothing else. -/
theorem firstUntied_cons_apply (place : Nat) (a b : Value) (pairs : List (Value × Value)) :
    firstUntied c (drawsFrom place ((a, b) :: pairs)) w =
      ((do
        if ← identicalOrEqual c a b then firstUntied c (drawsFrom (place + 1) pairs)
        else return some (a, b)) w : Run (Option (Value × Value))).after [.drawn place] :=
  rfl

/-- Pairs that tie are passed over, and leave nothing but their log and what testing them did. -/
theorem firstUntied_append {xs : List (Value × Value)} (ties : w.AllTie c xs) (place : Nat)
    (ys : List (Value × Value)) :
    firstUntied c (drawsFrom place (xs ++ ys)) w =
      (firstUntied c (drawsFrom (place + xs.length) ys) (w.afterTesting c xs)).after
        (w.drawnLog c place xs) := by
  induction xs generalizing w place with
  | nil => rfl
  | cons pair xs ih =>
    obtain ⟨a, b⟩ := pair
    obtain ⟨tie, rest⟩ := ties
    have next : place + 1 + xs.length = place + (xs.length + 1) := by omega
    rw [List.cons_append, firstUntied_cons_apply, Eval.bind_apply_of_ok tie]
    simp only [if_true, ih rest, World.drawnLog, World.afterTesting, List.length_cons, next]
    simp [Run.after]

/-- A pair that does not tie ends the search, whatever comes after it. -/
theorem firstUntied_of_untied {before : List (Value × Value)} {a b : Value}
    (unties : w.Unties c before a b) (place : Nat) (after : List (Value × Value)) :
    firstUntied c (drawsFrom place (before ++ (a, b) :: after)) w =
      { outcome := (identicalOrEqual c a b (w.afterTesting c before)).outcome.map
          fun _ => some (a, b)
        events := w.drawnLog c place (before ++ [(a, b)])
        world := w.afterTesting c (before ++ [(a, b)]) } := by
  have untied := unties.untied
  rw [firstUntied_append unties.ties, firstUntied_cons_apply, World.drawnLog_append,
    World.afterTesting_append, Eval.bind_apply]
  cases test : (identicalOrEqual c a b (w.afterTesting c before)).outcome with
  | error fault => simp [Run.after, World.drawnLog, World.afterTesting, Except.map]
  | ok tie =>
    cases tie with
    | true => exact absurd test untied
    | false =>
      simp [Run.after, World.drawnLog, World.afterTesting, Except.map, Eval.pure_apply]

theorem firstUntied_of_allTie {pairs : List (Value × Value)} (ties : w.AllTie c pairs)
    (place : Nat) :
    firstUntied c (drawsFrom place pairs) w =
      { outcome := .ok none
        events := w.drawnLog c place pairs
        world := w.afterTesting c pairs } := by
  have found := firstUntied_append ties place []
  rw [List.append_nil] at found
  rw [found, drawsFrom, List.zipIdx_nil, List.map_nil, firstUntied, Eval.pure_apply, Run.after,
    List.append_nil]

/-! ## Equality -/

theorem sequenceEqual_of_allTie {pairs : List (Value × Value)} (ties : w.AllTie c pairs)
    (place : Nat) :
    sequenceEqual c (drawsFrom place pairs) w =
      { outcome := .ok true
        events := w.drawnLog c place pairs
        world := w.afterTesting c pairs } := by
  rw [sequenceEqual_eq_firstUntied, Eval.bind_apply, firstUntied_of_allTie ties]
  simp [Eval.pure_apply]

/-- A pair that does not tie is the whole answer, be it that its test says no or that it fails. -/
theorem sequenceEqual_of_untied {before : List (Value × Value)} {a b : Value}
    (unties : w.Unties c before a b) (place : Nat) (after : List (Value × Value)) :
    sequenceEqual c (drawsFrom place (before ++ (a, b) :: after)) w =
      { outcome := (identicalOrEqual c a b (w.afterTesting c before)).outcome
        events := w.drawnLog c place (before ++ [(a, b)])
        world := w.afterTesting c (before ++ [(a, b)]) } := by
  have untied := unties.untied
  rw [sequenceEqual_eq_firstUntied, Eval.bind_apply, firstUntied_of_untied unties]
  cases test : (identicalOrEqual c a b (w.afterTesting c before)).outcome with
  | error fault => rfl
  | ok tie =>
    cases tie with
    | true => exact absurd test untied
    | false => simp [Except.map, Eval.pure_apply]

/-! ## Order -/

section

variable {op : Comparison}

theorem Comparison.onTie_of_isOrder (order : op.isOrder = true) :
    op.onTie = decide (op = .le ∨ op = .ge) := by
  cases op <;> first | rfl | simp [isOrder] at order

theorem lexicographic_eq_firstUntied (order : op.isOrder = true) (c : Callbacks)
    (draws : List Draw) :
    lexicographic c op draws = (do
      match ← firstUntied c draws with
      | some (a, b) => truth c (← c.compare op a b)
      | none => pure (decide (op = .le ∨ op = .ge))) := by
  rw [lexicographic_of_isOrder order, decideBy_eq_firstUntied, Comparison.onTie_of_isOrder order]

theorem lexicographic_of_allTie (order : op.isOrder = true) {pairs : List (Value × Value)}
    (ties : w.AllTie c pairs) (place : Nat) :
    lexicographic c op (drawsFrom place pairs) w =
      { outcome := .ok (decide (op = .le ∨ op = .ge))
        events := w.drawnLog c place pairs
        world := w.afterTesting c pairs } := by
  rw [lexicographic_eq_firstUntied order, Eval.bind_apply, firstUntied_of_allTie ties]
  simp [Eval.pure_apply]

/-- A test that fails is the end of the comparison. -/
theorem lexicographic_of_fault (order : op.isOrder = true) {before : List (Value × Value)}
    {a b : Value} {fault : Fault} (unties : w.Unties c before a b)
    (test : (identicalOrEqual c a b (w.afterTesting c before)).outcome = .error fault)
    (place : Nat) (after : List (Value × Value)) :
    lexicographic c op (drawsFrom place (before ++ (a, b) :: after)) w =
      { outcome := .error fault
        events := w.drawnLog c place (before ++ [(a, b)])
        world := w.afterTesting c (before ++ [(a, b)]) } := by
  rw [lexicographic_eq_firstUntied order, Eval.bind_apply, firstUntied_of_untied unties, test]
  rfl

/-- A pair whose test says no is ordered, once, and the truth of that is the answer. -/
theorem lexicographic_of_no (order : op.isOrder = true) {before : List (Value × Value)}
    {a b : Value} (unties : w.Unties c before a b)
    (test : (identicalOrEqual c a b (w.afterTesting c before)).outcome = .ok false)
    (place : Nat) (after : List (Value × Value)) :
    lexicographic c op (drawsFrom place (before ++ (a, b) :: after)) w =
      ((do truth c (← c.compare op a b) : Eval Bool)
        (w.afterTesting c (before ++ [(a, b)]))).after
          (w.drawnLog c place (before ++ [(a, b)])) := by
  rw [lexicographic_eq_firstUntied order, Eval.bind_apply, firstUntied_of_untied unties, test]
  rfl

/-- Pairs that tie are tested, and then the others are compared as if they stood alone. -/
theorem lexicographic_append (order : op.isOrder = true) {xs : List (Value × Value)}
    (ties : w.AllTie c xs) (place : Nat) (ys : List (Value × Value)) :
    lexicographic c op (drawsFrom place (xs ++ ys)) w =
      (lexicographic c op (drawsFrom (place + xs.length) ys) (w.afterTesting c xs)).after
        (w.drawnLog c place xs) := by
  rw [lexicographic_eq_firstUntied order, lexicographic_eq_firstUntied order]
  exact Eval.bind_after (firstUntied_append ties place ys) _

/-- If a pair does not tie, there may as well be no others after it. -/
theorem lexicographic_append_of_untied (order : op.isOrder = true) {xs : List (Value × Value)}
    (untied : ¬w.AllTie c xs) (place : Nat) (ys : List (Value × Value)) :
    lexicographic c op (drawsFrom place (xs ++ ys)) w =
      lexicographic c op (drawsFrom place xs) w := by
  obtain ⟨before, a, b, after, rfl, unties⟩ := World.not_allTie_iff.mp untied
  rw [List.append_assoc, List.cons_append, lexicographic_eq_firstUntied order,
    lexicographic_eq_firstUntied order, Eval.bind_apply, Eval.bind_apply,
    firstUntied_of_untied unties, firstUntied_of_untied unties]

end

/--
Pairs are drawn in turn, each is tested once when it is drawn, and the first that does not tie is
the last to be drawn. If there is none, the sequences are equal, and an order holds if it admits
equality. If its test fails, so do equality and order, in the same way. If its test says no, the
sequences are unequal, and an order comes to the truth of what that pair alone answers to it. So
more pairs change nothing unless all pairs before them tie, and then they are compared as if they
stood alone in the world that testing the others left.
-/
theorem lexicographic_stops_at_untied (c : Callbacks) {op : Comparison}
    (order : op.isOrder = true) (place : Nat) (pairs : List (Value × Value)) (w : World) :
    (¬w.AllTie c pairs ↔
      ∃ before a b after, pairs = before ++ (a, b) :: after ∧ w.Unties c before a b) ∧
    (w.AllTie c pairs →
      sequenceEqual c (drawsFrom place pairs) w =
          { outcome := .ok true
            events := w.drawnLog c place pairs
            world := w.afterTesting c pairs } ∧
        lexicographic c op (drawsFrom place pairs) w =
          { outcome := .ok (decide (op = .le ∨ op = .ge))
            events := w.drawnLog c place pairs
            world := w.afterTesting c pairs }) ∧
    (∀ before a b after, pairs = before ++ (a, b) :: after → w.Unties c before a b →
      let test := (identicalOrEqual c a b (w.afterTesting c before)).outcome
      let log := w.drawnLog c place (before ++ [(a, b)])
      let world := w.afterTesting c (before ++ [(a, b)])
      (∀ fault, test = .error fault →
        sequenceEqual c (drawsFrom place pairs) w =
            { outcome := .error fault, events := log, world } ∧
          lexicographic c op (drawsFrom place pairs) w =
            { outcome := .error fault, events := log, world }) ∧
      (test = .ok false →
        sequenceEqual c (drawsFrom place pairs) w =
            { outcome := .ok false, events := log, world } ∧
          lexicographic c op (drawsFrom place pairs) w =
            ((do truth c (← c.compare op a b) : Eval Bool) world).after log)) ∧
    ∀ more,
      (w.AllTie c pairs →
        lexicographic c op (drawsFrom place (pairs ++ more)) w =
          (lexicographic c op (drawsFrom (place + pairs.length) more)
            (w.afterTesting c pairs)).after (w.drawnLog c place pairs)) ∧
      (¬w.AllTie c pairs →
        lexicographic c op (drawsFrom place (pairs ++ more)) w =
          lexicographic c op (drawsFrom place pairs) w) := by
  refine ⟨World.not_allTie_iff, fun ties => ?_, ?_, fun more => ⟨fun ties => ?_, ?_⟩⟩
  · exact ⟨sequenceEqual_of_allTie ties place, lexicographic_of_allTie order ties place⟩
  · rintro before a b after rfl unties
    have equality := sequenceEqual_of_untied unties place after
    refine ⟨fun fault test => ?_, fun test => ?_⟩
    · exact ⟨by rw [equality, test], lexicographic_of_fault order unties test place after⟩
    · exact ⟨by rw [equality, test], lexicographic_of_no order unties test place after⟩
  · exact lexicographic_append order ties place more
  · exact fun untied => lexicographic_append_of_untied order untied place more

end

/--
Scripted objects, of which `u` answers that it equals another one as much as `z` is true, which it
is not, and that it comes before it. The object `p` fails when it is asked whether it equals any.
-/
def World.drawing : World :=
  { World.initial .host with
    cells := #[.tuple [],
      .scripted (.mk "x" "Probe" none none [(.eq, .gives (.int 7))] none) 0,
      .scripted (.mk "y" "Probe" none none [] none) 0,
      .scripted (.mk "p" "Probe" none none [(.eq, .raises (.scripted .runtime "p"))] none) 0,
      .scripted (.mk "u" "Probe" none none
        [(.eq, .gives (.named "z")), (.lt, .gives (.text "yes"))] none) 0,
      .scripted (.mk "v" "Probe" none none [] none) 0,
      .scripted (.mk "z" "Probe" none none [] (some (.gives (.bool false)))) 0]
    names := [("z", .object 6)] }

/-- A pair that ties, one that ties as it is one object twice, one that does not, one that fails. -/
def World.drawingPairs : List (Value × Value) :=
  [(.object 1, .object 2), (.object 3, .object 3), (.object 4, .object 5), (.object 3, .object 2)]

/-- Three pairs are drawn, of which two are asked for equality and one for its order. -/
theorem lexicographic_stops_at_untied_scripted :
    Comparison.lt.isOrder = true ∧
      sequenceEqual (.ofDepth 2) (drawsOf World.drawingPairs) .drawing =
        { outcome := .ok false
          events := [.drawn 0, .compared .eq "x" (.scripted "y"), .drawn 1, .drawn 2,
            .compared .eq "u" (.scripted "v"), .tested "z"]
          world := .drawing } ∧
      lexicographic (.ofDepth 2) .lt (drawsOf World.drawingPairs) .drawing =
        { outcome := .ok true
          events := [.drawn 0, .compared .eq "x" (.scripted "y"), .drawn 1, .drawn 2,
            .compared .eq "u" (.scripted "v"), .tested "z", .compared .lt "u" (.scripted "v")]
          world := .drawing } := by
  have order : Comparison.lt.isOrder = true := rfl
  obtain ⟨-, -, stops, -⟩ :=
    lexicographic_stops_at_untied (.ofDepth 2) order 0 World.drawingPairs .drawing
  have ties : World.drawing.AllTie (.ofDepth 2) [(.object 1, .object 2), (.object 3, .object 3)] :=
    ⟨rfl, rfl, trivial⟩
  obtain ⟨-, no⟩ := stops _ (.object 4) (.object 5) _ rfl ⟨ties, nofun⟩
  obtain ⟨equality, decision⟩ := no rfl
  rw [drawsOf_eq, equality, decision]
  exact ⟨order, rfl, rfl⟩

end Slicing
