import Slicing.Proofs.DecidingPair

/-!
# Slices compare like tuples

The methods of a slice draw pairs of bounds one at a time and turn the answer of the pair that
decides into a truth value. Tuples look for the first pair that does not tie, and hand on whatever
that pair answers. Both ask the same of the same bounds.

* `Bounds.compare_eq` — two slices compare as the tuples of their bounds do, but for the truth test
* `ofDepth_decided` — an operator comes to an answer, so the right one of two tuples is never asked
* `compareMethod_slice_eq_tuple` — so a method of a slice does what the operator does on tuples
-/

namespace Slicing

variable {c : Callbacks}

/-! ## The first pair that does not tie -/

/-- Pairs that are at hand already need not be drawn. -/
theorem firstUntied_map_pure (c : Callbacks) (pairs : List (Value × Value)) :
    firstUntied c (pairs.map pure) = firstDifference c pairs := by
  induction pairs with
  | nil => rfl
  | cons pair pairs ih =>
    rw [List.map_cons, firstUntied, firstDifference_eq_cons, pure_bind, ih]

theorem sequenceEqual_eq (c : Callbacks) (pairs : List (Value × Value)) :
    sequenceEqual c (pairs.map pure) = (do return (← firstDifference c pairs).isNone) := by
  rw [sequenceEqual_eq_firstUntied, firstUntied_map_pure]

theorem decideBy_eq (c : Callbacks) (op : Comparison) (pairs : List (Value × Value)) :
    decideBy c op (pairs.map pure) = (do
      match ← firstDifference c pairs with
      | some (a, b) => truth c (← c.compare op a b)
      | none => pure op.onTie) := by
  have drawn := decideBy_eq_firstUntied c op (pairs.map pure)
  rw [firstUntied_map_pure] at drawn
  exact drawn

/-- The first pair of bounds that does not tie decides between two tuples of bounds. -/
theorem compareTuples_bounds (c : Callbacks) (op : Comparison) (a b : Bounds) :
    compareTuples c op a.toList b.toList = (do
      match ← firstDifference c (a.pairs b) with
      | some (x, y) => decideOn c op x y
      | none => return .bool op.onTie) := by
  rw [← Comparison.holds_eq]
  rfl

/-- The pairs of a sequence with itself tie, each being one object twice. -/
theorem firstDifference_self (c : Callbacks) (xs : List Value) :
    firstDifference c (xs.zip xs) = pure none := by
  induction xs with
  | nil => rfl
  | cons x xs ih =>
    rw [List.zip_cons_cons, firstDifference_eq_cons, identicalOrEqual_self, pure_bind, if_pos rfl, ih]

theorem compareTuples_self (c : Callbacks) (op : Comparison) (xs : List Value) :
    compareTuples c op xs xs = pure (.bool op.onTie) := by
  have tie : compareOfLessAndEq xs.length xs.length = .eq := by simp [compareOfLessAndEq]
  rw [compareTuples, firstDifference_self, pure_bind, tie, Comparison.holds_eq]

/-- Only an order asks the pair that decides; it is known that the pair is unequal. -/
theorem decideOn_of_isOrder {op : Comparison} (h : op.isOrder = true) (c : Callbacks)
    (a b : Value) : decideOn c op a b = c.compare op a b := by
  cases op <;> first | rfl | simp [Comparison.isOrder] at h

/-- Slices compare as the tuples of their bounds do, and then test the answer. -/
theorem Bounds.compare_eq (c : Callbacks) (op : Comparison) (a b : Bounds) :
    a.compare c op b = (do truth c (← compareTuples c op a.toList b.toList)) := by
  -- both sides look for the same difference first, and then agree on what becomes of it
  have ordered (h : op.isOrder = true) :
      lexicographic c op ((a.pairs b).map pure) =
        (do truth c (← compareTuples c op a.toList b.toList)) := by
    rw [lexicographic_of_isOrder h, decideBy_eq, compareTuples_bounds, bind_assoc]
    refine bind_congr fun difference => ?_
    cases difference with
    | none => rfl
    | some pair => exact congrArg (· >>= truth c) (decideOn_of_isOrder h c pair.1 pair.2).symm
  cases op with
  | eq =>
    unfold Bounds.compare
    dsimp only
    rw [sequenceEqual_eq, compareTuples_bounds, bind_assoc]
    refine bind_congr fun difference => ?_
    cases difference <;> rfl
  | ne =>
    unfold Bounds.compare
    dsimp only
    rw [sequenceEqual_eq, compareTuples_bounds, bind_assoc, bind_assoc]
    refine bind_congr fun difference => ?_
    cases difference <;> rfl
  | _ => exact ordered rfl

/-! ## An operator comes to an answer -/

namespace Eval

variable {α : Type}

/-- The computation never comes to the answer that it knows none. -/
def Decided (x : Eval Value) : Prop :=
  ∀ w, (x w).outcome ≠ .ok .notImplemented

namespace Decided

theorem pure {v : Value} (h : v ≠ .notImplemented) : Decided (Pure.pure v) := by
  intro w
  simpa [pure_apply] using h

theorem bool (b : Bool) : Decided (Pure.pure (Value.bool b)) :=
  pure Value.noConfusion

theorem raise (e : Error) : Decided (Eval.raise e) := by
  intro w
  simp [raise_apply]

theorem bind {x : Eval α} {f : α → Eval Value} (h : ∀ a, (f a).Decided) :
    (x >>= f).Decided := by
  intro w
  rw [bind_apply]
  split
  · exact h _ _
  · simp

end Decided

end Eval

theorem orElseAsk_decided (first : Eval Value) {second : Eval Value} (h : second.Decided) :
    (orElseAsk first second).Decided := by
  refine Eval.Decided.bind fun answer => ?_
  by_cases unknown : answer = .notImplemented
  · rw [if_pos unknown]
    exact h
  · rw [if_neg unknown]
    exact Eval.Decided.pure unknown

theorem orElseAsk_apply {first : Eval Value} {w : World}
    (h : (first w).outcome ≠ .ok .notImplemented) (second : Eval Value) :
    orElseAsk first second w = first w := by
  unfold orElseAsk
  rw [Eval.bind_apply]
  cases answered : (first w).outcome with
  | error fault => simp [← answered]
  | ok answer =>
    have known : answer ≠ .notImplemented := fun unknown => h (by rw [answered, unknown])
    simp [known, Eval.pure_apply, ← answered]

/-- When neither operand knows an answer, two values are compared by identity or not at all. -/
theorem compareUnknown_decided (op : Comparison) (a b : Value) :
    (compareUnknown op a b).Decided := by
  cases op with
  | eq => exact Eval.Decided.bool _
  | ne => exact Eval.Decided.bool _
  | _ => exact Eval.Decided.bind fun _ => Eval.Decided.raise _

theorem compareValues_decided (c : Callbacks) (op : Comparison) (a b : Value) :
    (compareValues c op a b).Decided := by
  refine Eval.Decided.bind fun w => ?_
  have unknown := compareUnknown_decided op a b
  dsimp only
  split
  · exact orElseAsk_decided _ (orElseAsk_decided _ unknown)
  · exact orElseAsk_decided _ (orElseAsk_decided _ unknown)

/-- At every depth an operator comes to an answer, or fails. -/
theorem ofDepth_decided (depth : Nat) (op : Comparison) (a b : Value) :
    ((Callbacks.ofDepth depth).compare op a b).Decided := by
  cases depth with
  | zero => exact fun w => by simp [Callbacks.ofDepth, Eval.exhausted]
  | succ depth => exact compareValues_decided _ op a b

theorem compareTuples_decided (h : ∀ op a b, (c.compare op a b).Decided) (op : Comparison)
    (xs ys : List Value) : (compareTuples c op xs ys).Decided := by
  refine Eval.Decided.bind fun difference => ?_
  cases difference with
  | none => exact Eval.Decided.bool _
  | some pair =>
    cases op with
    | eq => exact Eval.Decided.bool _
    | ne => exact Eval.Decided.bool _
    | _ => exact h _ _ _

/-! ## Methods and operators -/

section

variable {w : World} {a b : Value}

theorem compareMethod_slice_apply {s t : Slice} (ha : w.cell? a = some (.slice s))
    (hb : w.cell? b = some (.slice t)) (c : Callbacks) (op : Comparison) :
    compareMethod c op a b w =
      (do return Value.bool (← s.bounds.compare c op t.bounds) : Eval Value) w := by
  unfold compareMethod
  rw [Eval.bind_apply, Eval.world_apply]
  simp only [ha, hb, List.nil_append]

/-- A slice knows how it compares with another one. -/
theorem compareMethod_slice_known {s t : Slice} (ha : w.cell? a = some (.slice s))
    (hb : w.cell? b = some (.slice t)) (c : Callbacks) (op : Comparison) :
    (compareMethod c op a b w).outcome ≠ .ok .notImplemented := by
  rw [compareMethod_slice_apply ha hb]
  exact Eval.Decided.bind (fun answer => Eval.Decided.bool answer) w

theorem compareMethod_tuple_apply {xs ys : List Value} (ha : w.cell? a = some (.tuple xs))
    (hb : w.cell? b = some (.tuple ys)) (c : Callbacks) (op : Comparison) :
    compareMethod c op a b w = compareTuples c op xs ys w := by
  unfold compareMethod
  rw [Eval.bind_apply, Eval.world_apply]
  simp only [ha, hb, List.nil_append]
  rfl

/-- A saturated slice has no order, and is compared with another one as a tuple is. -/
theorem compareMethod_saturated_apply {lineage lineage' : Lineage} {s t : Bounds}
    (ha : w.cell? a = some (.saturated lineage s)) (hb : w.cell? b = some (.saturated lineage' t))
    (c : Callbacks) : compareMethod c .eq a b w = compareTuples c .eq s.toList t.toList w := by
  unfold compareMethod
  rw [Eval.bind_apply, Eval.world_apply]
  simp only [ha, hb, List.nil_append]
  rfl

theorem World.kind_of_cell? {v : Value} {cell : Cell} (h : w.cell? v = some cell) :
    w.kind v = cell.kind := by
  cases v with
  | object address =>
    have held : w.cells[address]? = some cell := h
    simp [World.kind, held]
  | _ => simp [World.cell?] at h

/-- The left operand is asked first. If it knows an answer, that is final. -/
theorem compareValues_apply_of_left {op : Comparison}
    (unrefined : (w.kind b).refines (w.kind a) = false)
    (known : (compareMethod c op a b w).outcome ≠ .ok .notImplemented) :
    compareValues c op a b w = compareMethod c op a b w := by
  unfold compareValues
  rw [Eval.bind_apply, Eval.world_apply]
  dsimp only
  rw [if_neg (Bool.not_eq_true _ ▸ unrefined), orElseAsk_apply known]
  rfl

/-- A right operand whose kind refines that of the left one is asked before it. -/
theorem compareValues_apply_of_right {op : Comparison}
    (refined : (w.kind b).refines (w.kind a) = true)
    (known : (compareMethod c op.swapped b a w).outcome ≠ .ok .notImplemented) :
    compareValues c op a b w = compareMethod c op.swapped b a w := by
  unfold compareValues
  rw [Eval.bind_apply, Eval.world_apply]
  dsimp only
  rw [if_pos refined, orElseAsk_apply known]
  rfl

/-- Of two objects of one kind the left one is asked first. If it knows, its answer is final. -/
theorem compareValues_apply_of_known {op : Comparison} {cell other : Cell}
    (ha : w.cell? a = some cell) (hb : w.cell? b = some other) (alike : other.kind = cell.kind)
    (known : (compareMethod c op a b w).outcome ≠ .ok .notImplemented) :
    compareValues c op a b w = compareMethod c op a b w := by
  refine compareValues_apply_of_left ?_ known
  rw [World.kind_of_cell? ha, World.kind_of_cell? hb, alike, Kind.refines_irrefl]

/-- Saturated slices with the same bounds are equal whatever their types, and nothing is asked. -/
theorem compareValues_saturated_apply {lineage lineage' : Lineage} {s : Bounds}
    (ha : w.cell? a = some (.saturated lineage s)) (hb : w.cell? b = some (.saturated lineage' s)) :
    compareValues c .eq a b w = { outcome := .ok (.bool true), events := [], world := w } := by
  have left := compareMethod_saturated_apply ha hb c
  have right := compareMethod_saturated_apply hb ha c
  rw [compareTuples_self, Eval.pure_apply] at left right
  cases refined : (w.kind b).refines (w.kind a) with
  | true =>
    rw [compareValues_apply_of_right refined (by simp [Comparison.swapped, right])]
    exact right
  | false =>
    rw [compareValues_apply_of_left refined (by simp [left])]
    exact left

theorem compareValues_tuple_apply (h : ∀ op a b, (c.compare op a b).Decided) {xs ys : List Value}
    (ha : w.cell? a = some (.tuple xs)) (hb : w.cell? b = some (.tuple ys)) (op : Comparison) :
    compareValues c op a b w = compareTuples c op xs ys w := by
  have method := compareMethod_tuple_apply ha hb c op
  rw [← method]
  refine compareValues_apply_of_known ha hb rfl ?_
  rw [method]
  exact compareTuples_decided h op xs ys w

/-- Equality of tuples answers with a truth value, which there is no need to test. -/
theorem compareTuples_truth {op : Comparison} (h : op.isOrder = false) (c : Callbacks)
    (xs ys : List Value) :
    (do return Value.bool (← truth c (← compareTuples c op xs ys))) = compareTuples c op xs ys := by
  unfold compareTuples
  rw [bind_assoc]
  refine bind_congr fun difference => ?_
  cases difference with
  | none => rfl
  | some pair =>
    cases op with
    | eq => rfl
    | ne => rfl
    | _ => simp [Comparison.isOrder] at h

/--
A method of one slice, given another, does what the operator does on the tuples of their bounds:
it has the same calls made in the same order, fails with the same error and leaves the same world.
It tests the answer at the end, so that it comes to a truth value, which equality and inequality
come to anyway. The operator on two objects that hold those tuples does no more and no less.
-/
theorem compareMethod_slice_eq_tuple (depth : Nat) (op : Comparison) {s t : Slice}
    (ha : w.cell? a = some (.slice s)) (hb : w.cell? b = some (.slice t)) :
    compareMethod (.ofDepth depth) op a b w =
        (do
          let answer ← compareTuples (.ofDepth depth) op s.bounds.toList t.bounds.toList
          return Value.bool (← truth (.ofDepth depth) answer)) w ∧
      (op.isOrder = false →
        compareMethod (.ofDepth depth) op a b w =
          compareTuples (.ofDepth depth) op s.bounds.toList t.bounds.toList w) ∧
      ∀ p q : Value, w.cell? p = some (.tuple s.bounds.toList) →
        w.cell? q = some (.tuple t.bounds.toList) →
        compareValues (.ofDepth depth) op p q w =
          compareTuples (.ofDepth depth) op s.bounds.toList t.bounds.toList w := by
  have tested : compareMethod (.ofDepth depth) op a b w =
      (do
        let answer ← compareTuples (.ofDepth depth) op s.bounds.toList t.bounds.toList
        return Value.bool (← truth (.ofDepth depth) answer)) w := by
    rw [compareMethod_slice_apply ha hb, Bounds.compare_eq, bind_assoc]
  refine ⟨tested, fun equality => ?_, fun p q hp hq => ?_⟩
  · rw [tested, compareTuples_truth equality]
  · exact compareValues_tuple_apply (ofDepth_decided depth) hp hq op

end

/--
Two slices that have their start in common and differ in their stop and in their step, and the
tuples of their bounds. The start `p` fails when it is asked whether it equals any. The stop `x` of
the left one knows nothing of equality, and answers that its order is as true as `z` is.
-/
def World.compared : World :=
  { cells := #[.tuple [],
      .scripted (.mk "x" "Probe" none none [(.lt, .gives (.named "z"))] none) 0,
      .scripted (.mk "y" "Probe" none none [] none) 0,
      .scripted (.mk "z" "Probe" none none [] (some (.gives (.bool false)))) 0,
      .scripted (.mk "p" "Probe" none none [(.eq, .raises (.scripted .runtime "p"))] none) 0,
      .slice { lineage := .base, start := .object 4, stop := .object 1, step := .absent },
      .slice { lineage := .derived, start := .object 4, stop := .object 2, step := .object 3 },
      .tuple [.object 4, .object 1, .null],
      .tuple [.object 4, .object 2, .object 3]]
    words := .host
    held := 0
    names := [("z", .object 3)] }

/--
The start is one object and is not asked, which it would not survive. Both stops are asked whether
they are equal, and only the left one for its order.
-/
theorem compareMethod_slice_eq_tuple_scripted :
    (compareMethod (.ofDepth 2) .lt (.object 5) (.object 6) .compared).outcome =
        .ok (.bool false) ∧
      (compareMethod (.ofDepth 2) .lt (.object 5) (.object 6) .compared).events =
        [.compared .eq "x" (.scripted "y"), .compared .eq "y" (.scripted "x"),
          .compared .lt "x" (.scripted "y"), .tested "z"] ∧
      (compareValues (.ofDepth 2) .lt (.object 7) (.object 8) .compared).outcome =
        .ok (.object 3) ∧
      (compareValues (.ofDepth 2) .eq (.object 4) (.object 4) .compared).outcome =
        .error (.raised (.scripted .runtime "p")) := by
  obtain ⟨method, -, operator⟩ := compareMethod_slice_eq_tuple 2 .lt (w := .compared)
    (a := .object 5) (b := .object 6) rfl rfl
  rw [method, operator (.object 7) (.object 8) rfl rfl]
  exact ⟨rfl, rfl, rfl, rfl⟩

end Slicing
