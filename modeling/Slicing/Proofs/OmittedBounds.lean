import Slicing.Proofs.Tuples

/-!
# Bounds left out and bounds that are null

A start or a step that was left out reads as null, so from outside it cannot be told from one that
was given as null. Only what rebuilds a slice looks at the bounds as they are held.

* `bounds_of_interchangeable` — the uniform triples of two such slices are one and the same
* `compareValues_slice_congr` — so are the answers to comparisons with any third slice
* `omitted_bound_indistinguishable` — and all that is done with the two comes to the same
-/

namespace Slicing

/-- The two bounds are one value, or one of them is left out and the other null. -/
inductive Interchangeable : Value → Value → Prop where
  | same (v : Value) : Interchangeable v v
  | omitted : Interchangeable .absent .null
  | explicit : Interchangeable .null .absent

theorem Interchangeable.given {x y : Value} (h : Interchangeable x y) : x.given = y.given := by
  cases h <;> rfl

/-- Two slices with one stop, whose starts and steps are interchangeable. -/
structure Slice.Interchangeable (s t : Slice) : Prop where
  lineage : s.lineage = t.lineage
  start : Slicing.Interchangeable s.start t.start
  stop : s.stop = t.stop
  step : Slicing.Interchangeable s.step t.step

theorem bounds_of_interchangeable {s t : Slice} (h : s.Interchangeable t) :
    s.bounds = t.bounds := by
  rw [Slice.bounds, Slice.bounds, h.start.given, h.stop, h.step.given]

/-! ## Descriptions -/

/-- A slice is written with the bounds that can be seen from outside. -/
theorem View.toText_slice (lineage : Lineage) (start stop step : View) :
    (View.slice lineage start stop step).toText =
      "slice(" ++ Text.commaSeparated
        [start.given.toText, stop.toText, step.given.toText] ++ ")" := by
  have shown (bound : View) : bound.givenText bound.toText = bound.given.toText := by
    cases bound <;> rfl
  rw [View.toText, shown, shown]

/-- Nothing that an object holds looks like a bound that was left out. -/
theorem World.given_viewTo_object (w : World) (depth : Nat) (a : Address) :
    (w.viewTo depth (.object a)).given = w.viewTo depth (.object a) := by
  cases depth with
  | zero => rfl
  | succ depth =>
    rw [World.viewTo]
    split
    case h_8 => split <;> rfl
    all_goals rfl

/-- What is seen of a bound from outside is what is seen of the bound that it reads as. -/
theorem World.given_view (w : World) (v : Value) : (w.view v).given = w.view v.given := by
  cases v with
  | object a => exact w.given_viewTo_object _ a
  | _ => simp [World.view, World.viewTo, View.given, Value.given]

theorem Slice.describe_text (w : World) (s : Slice) :
    (s.describe w).text =
      "slice(" ++ Text.commaSeparated (s.bounds.toList.map fun bound => (w.view bound).toText) ++
        ")" := by
  rw [describe, View.toText_slice, World.given_view, World.given_view]
  rfl

/-! ## Reading names -/

section

variable {c : Callbacks} {w : World} {name : String} {v : Value}

/-- Reading the name of a value changes nothing. -/
theorem read_named_bind {β : Type} (h : w.lookup? name = some v) (f : Value → Eval β) :
    ((Term.named name).read c >>= f) w = f v w := by
  have read : (Term.named name).read c w = { outcome := .ok v, events := [], world := w } := by
    rw [Term.read, Eval.bind_apply, Eval.world_apply]
    simp only [h, Eval.orRaise_some, Eval.pure_apply, List.nil_append]
  rw [Eval.bind_apply, read]
  rfl

/-- Whether or not a name is bound, what follows takes place in the same world. -/
theorem read_named_congr {β : Type} {f g : Value → Eval β} (h : ∀ v, f v w = g v w) :
    ((Term.named name).read c >>= f) w = ((Term.named name).read c >>= g) w := by
  cases bound : w.lookup? name with
  | some v => rw [read_named_bind bound, read_named_bind bound, h]
  | none =>
    have read : (Term.named name).read c w = Eval.raise (.unbound name) w := by
      rw [Term.read, Eval.bind_apply, Eval.world_apply]
      simp only [bound, Eval.orRaise_none, List.nil_append]
    rw [Eval.bind_apply, Eval.bind_apply, read]
    rfl

theorem membersOf_apply (v : Value) (w : World) :
    membersOf v w = { outcome := .ok (w.members v), events := [], world := w } :=
  rfl

theorem membersOf_bind {β : Type} (v : Value) (f : Members → Eval β) :
    (membersOf v >>= f) w = f (w.members v) w :=
  rfl

/-- What is looked for in an object is found there. -/
theorem expect_bind {α β : Type} {find : Cell → Option α} {field : String} {cell : Cell} {a : α}
    (held : w.cell? v = some cell) (f : α → Eval β) (found : find cell = some a) :
    (expect find field v >>= f) w = f a w := by
  have expected : expect find field v w = { outcome := .ok a, events := [], world := w } := by
    rw [expect, Eval.bind_apply, Eval.world_apply]
    simp only [held, Option.bind_some, found, Eval.orRaise_some, Eval.pure_apply, List.nil_append]
  rw [Eval.bind_apply, expected]
  rfl

end

/-! ## Comparisons with a third slice -/

section

variable {w : World} {p q x : Value} {s t r : Slice}

/-- The operator asks one of two slices, depending on their lineages, and never the other. -/
theorem compareValues_slices_apply (hp : w.cell? p = some (.slice s))
    (hx : w.cell? x = some (.slice r)) (c : Callbacks) (op : Comparison) :
    compareValues c op p x w =
      if r.kind.refines s.kind then compareMethod c op.swapped x p w
      else compareMethod c op p x w := by
  have kinds : (w.kind x).refines (w.kind p) = r.kind.refines s.kind := by
    rw [World.kind_of_cell? hp, World.kind_of_cell? hx]
    rfl
  cases refined : r.kind.refines s.kind with
  | true =>
    exact compareValues_apply_of_right (kinds.trans refined)
      (compareMethod_slice_known hx hp c op.swapped)
  | false =>
    exact compareValues_apply_of_left (kinds.trans refined) (compareMethod_slice_known hp hx c op)

theorem compareMethod_slice_congr (hp : w.cell? p = some (.slice s))
    (hq : w.cell? q = some (.slice t)) (hx : w.cell? x = some (.slice r))
    (bounds : s.bounds = t.bounds) (c : Callbacks) (op : Comparison) :
    compareMethod c op p x w = compareMethod c op q x w ∧
      compareMethod c op x p w = compareMethod c op x q w := by
  rw [compareMethod_slice_apply hp hx, compareMethod_slice_apply hq hx,
    compareMethod_slice_apply hx hp, compareMethod_slice_apply hx hq, bounds]
  exact ⟨rfl, rfl⟩

/-- Slices of one lineage with the same uniform triple compare alike with any third slice. -/
theorem compareValues_slice_congr (hp : w.cell? p = some (.slice s))
    (hq : w.cell? q = some (.slice t)) (hx : w.cell? x = some (.slice r))
    (lineage : s.lineage = t.lineage) (bounds : s.bounds = t.bounds) (c : Callbacks)
    (op : Comparison) :
    compareValues c op p x w = compareValues c op q x w ∧
      compareValues c op x p w = compareValues c op x q w := by
  have kind : s.kind = t.kind := congrArg Kind.slice lineage
  obtain ⟨left, right⟩ := compareMethod_slice_congr hp hq hx bounds c op
  obtain ⟨left', right'⟩ := compareMethod_slice_congr hp hq hx bounds c op.swapped
  rw [compareValues_slices_apply hp hx, compareValues_slices_apply hq hx,
    compareValues_slices_apply hx hp, compareValues_slices_apply hx hq, kind, left, right, left',
    right']
  exact ⟨rfl, rfl⟩

/-- The same of the operator that is called, at whatever depth. -/
theorem ofDepth_compare_slice_congr (hp : w.cell? p = some (.slice s))
    (hq : w.cell? q = some (.slice t)) (hx : w.cell? x = some (.slice r))
    (lineage : s.lineage = t.lineage) (bounds : s.bounds = t.bounds) (depth : Nat)
    (op : Comparison) :
    (Callbacks.ofDepth depth).compare op p x w = (Callbacks.ofDepth depth).compare op q x w ∧
      (Callbacks.ofDepth depth).compare op x p w = (Callbacks.ofDepth depth).compare op x q w := by
  cases depth with
  | zero => exact ⟨rfl, rfl⟩
  | succ depth => exact compareValues_slice_congr hp hq hx lineage bounds (.ofDepth depth) op

/-- Slices with the same uniform triple are equal, without a call to any bound. -/
theorem compareValues_slice_self (hp : w.cell? p = some (.slice s))
    (hq : w.cell? q = some (.slice t)) (lineage : s.lineage = t.lineage)
    (bounds : s.bounds = t.bounds) (c : Callbacks) (op : Comparison) :
    compareValues c op p q w = { outcome := .ok (.bool op.onTie), events := [], world := w } := by
  have kind : (Cell.slice t).kind = (Cell.slice s).kind := congrArg Kind.slice lineage.symm
  rw [compareValues_apply_of_known hp hq kind (compareMethod_slice_known hp hq c op),
    compareMethod_slice_apply hp hq, Bounds.compare_eq, bounds, compareTuples_self]
  rfl

end

/-! ## What is done with a slice -/

/-- What is done with a slice other than to rebuild it. Other operands are known by their names. -/
inductive Usage where
  | indices (length : String)
  | normalise (length : Int)
  | resolve (lineage : Lineage)
  | saturate
  | positionsFor (sequence lock : String)
  /-- A comparison with another slice on its right, or on its left. -/
  | compare (op : Comparison) (other : String)
  | compareFrom (op : Comparison) (other : String)
  /-- The same by asking the left operand alone. -/
  | ask (op : Comparison) (other : String)
  | askFrom (op : Comparison) (other : String)

namespace Usage

/-- The operation that makes this use of the slice with the given name. -/
def operation (slice : String) : Usage → Operation
  | indices length => .indices (.named slice) (.named length)
  | normalise length => .normalise (.named slice) length
  | resolve lineage => .resolve (.named slice) lineage
  | saturate => .saturate (.named slice)
  | positionsFor sequence lock => .positionsFor (.named slice) (.named sequence) (.named lock)
  | compare op other => .compare op (.named slice) (.named other)
  | compareFrom op other => .compare op (.named other) (.named slice)
  | ask op other => .compareMethod op (.named slice) (.named other)
  | askFrom op other => .compareMethod op (.named other) (.named slice)

/-- The names that have to be those of slices. -/
def slices : Usage → List String
  | compare _ other | compareFrom _ other | ask _ other | askFrom _ other => [other]
  | _ => []

end Usage

/-- The name is that of a slice. -/
def World.NamesSlice (w : World) (name : String) : Prop :=
  ∃ x r, w.lookup? name = some x ∧ w.cell? x = some (.slice r)

section

variable {w : World} {name name' : String} {p q : Value} {s t : Slice}

/-- Nothing that is done with a slice sees more of it than its lineage and its uniform triple. -/
theorem Usage.perform_congr (np : w.lookup? name = some p) (nq : w.lookup? name' = some q)
    (hp : w.cell? p = some (.slice s)) (hq : w.cell? q = some (.slice t))
    (lineage : s.lineage = t.lineage) (bounds : s.bounds = t.bounds) (depth : Nat) (usage : Usage)
    (others : ∀ other ∈ usage.slices, w.NamesSlice other) :
    (usage.operation name).perform (.ofDepth depth) w =
      (usage.operation name').perform (.ofDepth depth) w := by
  have members : w.members p = w.members q := by
    rw [World.members_slice hp, World.members_slice hq, bounds]
  cases usage with
  | indices length =>
    rw [operation, operation, Operation.perform, Operation.perform, read_named_bind np,
      read_named_bind nq, expectSlice, expect_bind (a := s) hp, expect_bind (a := t) hq, bounds]
    · rfl
    · rfl
  | normalise length =>
    simp only [operation, Operation.perform]
    rw [read_named_bind np, read_named_bind nq, membersOf_bind, membersOf_bind, members]
  | resolve lineage =>
    simp only [operation, Operation.perform]
    rw [read_named_bind np, read_named_bind nq, membersOf_bind, membersOf_bind, members]
  | saturate =>
    simp only [operation, Operation.perform]
    rw [read_named_bind np, read_named_bind nq, expect_bind (a := s) hp, expect_bind (a := t) hq,
      bounds]
    · rfl
    · rfl
  | positionsFor sequence lock =>
    simp only [operation, Operation.perform]
    rw [read_named_bind np, read_named_bind nq]
    refine read_named_congr fun v => read_named_congr fun l => ?_
    rw [membersOf_bind, membersOf_bind, members]
  | compare op other =>
    obtain ⟨x, r, nx, hx⟩ := others other List.mem_cons_self
    simp only [operation, Operation.perform]
    rw [read_named_bind np, read_named_bind nq, read_named_bind nx, read_named_bind nx,
      Eval.bind_apply, Eval.bind_apply,
      (ofDepth_compare_slice_congr hp hq hx lineage bounds depth op).1]
  | compareFrom op other =>
    obtain ⟨x, r, nx, hx⟩ := others other List.mem_cons_self
    simp only [operation, Operation.perform]
    rw [read_named_bind nx, read_named_bind nx, read_named_bind np, read_named_bind nq,
      Eval.bind_apply, Eval.bind_apply,
      (ofDepth_compare_slice_congr hp hq hx lineage bounds depth op).2]
  | ask op other =>
    obtain ⟨x, r, nx, hx⟩ := others other List.mem_cons_self
    simp only [operation, Operation.perform]
    rw [read_named_bind np, read_named_bind nq, read_named_bind nx, read_named_bind nx,
      Eval.bind_apply, Eval.bind_apply, (compareMethod_slice_congr hp hq hx bounds _ op).1]
  | askFrom op other =>
    obtain ⟨x, r, nx, hx⟩ := others other List.mem_cons_self
    simp only [operation, Operation.perform]
    rw [read_named_bind nx, read_named_bind nx, read_named_bind np, read_named_bind nq,
      Eval.bind_apply, Eval.bind_apply, (compareMethod_slice_congr hp hq hx bounds _ op).2]

/-- A slice is described without a call, with the bounds that can be seen from outside. -/
theorem describe_slice_apply (np : w.lookup? name = some p) (hp : w.cell? p = some (.slice s))
    (c : Callbacks) :
    (Operation.describe (.named name)).perform c w =
      { outcome := .ok (.report (.description (s.describe w))), events := [], world := w } := by
  rw [Operation.perform, read_named_bind np, Eval.bind_apply, describe, Eval.bind_apply,
    Eval.world_apply]
  simp only [hp]
  rfl

end

/--
Two slices of one class that hold the same stop, and starts and steps that are the same but that one
may be left out where the other is null. They have the same fields and are written alike, they are
equal without a call to any bound, and whatever else is done with them, short of rebuilding them,
comes to the same: the same result or error, the same events and the same world.
-/
theorem omitted_bound_indistinguishable (depth : Nat) {w : World} {name name' : String}
    {p q : Value} {s t : Slice} (np : w.lookup? name = some p) (nq : w.lookup? name' = some q)
    (hp : w.cell? p = some (.slice s)) (hq : w.cell? q = some (.slice t))
    (h : s.Interchangeable t) :
    membersOf p w = membersOf q w ∧
    (∃ d d' : Description,
      (Operation.describe (.named name)).perform (.ofDepth depth) w =
        { outcome := .ok (.report (.description d)), events := [], world := w } ∧
      (Operation.describe (.named name')).perform (.ofDepth depth) w =
        { outcome := .ok (.report (.description d')), events := [], world := w } ∧
      d.text = d'.text ∧ d.start = d'.start ∧ d.stop = d'.stop ∧ d.step = d'.step) ∧
    (∀ usage : Usage, (∀ other ∈ usage.slices, w.NamesSlice other) →
      (usage.operation name).perform (.ofDepth depth) w =
        (usage.operation name').perform (.ofDepth depth) w) ∧
    ∀ op : Comparison,
      compareValues (.ofDepth depth) op p q w =
        { outcome := .ok (.bool op.onTie), events := [], world := w } ∧
      compareValues (.ofDepth depth) op q p w =
        { outcome := .ok (.bool op.onTie), events := [], world := w } := by
  have bounds : s.bounds = t.bounds := bounds_of_interchangeable h
  refine ⟨?_, ⟨s.describe w, t.describe w, describe_slice_apply np hp _,
    describe_slice_apply nq hq _, ?_, ?_, ?_, ?_⟩, fun usage others => ?_, fun op => ⟨?_, ?_⟩⟩
  · rw [membersOf_apply, membersOf_apply, World.members_slice hp, World.members_slice hq, bounds]
  · rw [Slice.describe_text, Slice.describe_text, bounds]
  · show (w.view s.start).given = (w.view t.start).given
    rw [World.given_view, World.given_view, h.start.given]
  · exact congrArg w.view h.stop
  · show (w.view s.step).given = (w.view t.step).given
    rw [World.given_view, World.given_view, h.step.given]
  · exact usage.perform_congr np nq hp hq h.lineage bounds depth others
  · exact compareValues_slice_self hp hq h.lineage bounds _ op
  · exact compareValues_slice_self hq hp h.lineage.symm bounds.symm _ op

/--
Two slices that end at the object `x`, one with a start left out and a step of null, the other the
other way round, and a slice of the other class that ends at `y`.
-/
def World.omissions : World :=
  { World.initial .host with
    cells := #[.tuple [],
      .scripted (.mk "x" "Probe" (some [.gives (.int 4)]) none [] none) 0,
      .scripted (.mk "y" "Probe" none none [(.gt, .gives (.int 1))] none) 0,
      .slice { lineage := .base, start := .absent, stop := .object 1, step := .null },
      .slice { lineage := .base, start := .null, stop := .object 1, step := .absent },
      .slice { lineage := .derived, start := .absent, stop := .object 2, step := .int 2 }]
    names := [("s", .object 3), ("t", .object 4), ("other", .object 5), ("length", .int 7)] }

/-- The third slice is asked first, in both cases, and its stop decides. -/
theorem omitted_bound_indistinguishable_scripted :
    (Usage.operation "s" (.indices "length")).perform (.ofDepth 2) .omissions =
        (Usage.operation "t" (.indices "length")).perform (.ofDepth 2) .omissions ∧
      (Usage.operation "s" (.compare .lt "other")).perform (.ofDepth 2) .omissions =
        (Usage.operation "t" (.compare .lt "other")).perform (.ofDepth 2) .omissions ∧
      ((Usage.operation "t" (.compare .lt "other")).perform (.ofDepth 2) .omissions).events =
        [.compared .eq "y" (.scripted "x"), .compared .eq "x" (.scripted "y"),
          .compared .gt "y" (.scripted "x")] ∧
      compareValues (.ofDepth 2) .le (.object 3) (.object 4) .omissions =
        { outcome := .ok (.bool true), events := [], world := .omissions } := by
  have np : World.omissions.lookup? "s" = some (.object 3) := rfl
  have nq : World.omissions.lookup? "t" = some (.object 4) := rfl
  obtain ⟨-, -, usages, comparisons⟩ :=
    omitted_bound_indistinguishable 2 np nq rfl rfl ⟨rfl, .omitted, rfl, .explicit⟩
  have other : World.omissions.NamesSlice "other" := ⟨.object 5, _, rfl, rfl⟩
  refine ⟨usages (.indices "length") (fun _ mem => nomatch mem), ?_, rfl, (comparisons .le).1⟩
  exact usages (.compare .lt "other") fun name mem => List.mem_singleton.mp mem ▸ other

end Slicing
