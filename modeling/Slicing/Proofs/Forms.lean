import Slicing.Proofs.Rebuilding

/-!
# Forms of values

What a comparison sees of a value, down one level: a number, a text, the elements of a set, the
items of a list or a tuple, or a slice. Two values of one form know how they compare; of two values
of different forms neither knows the other.

Values hold each other, so what is said of all of them is said by how deep they are nested.

* `World.Nested` — values of such forms that are nested no deeper than some number of levels
* `compareValues_settles` — an operator comes to what both operands agree on, whoever is asked first
* `compareMethod_unlike_offers` — a value of another form offers nothing but identity
* `compareLists_apply` — lists that stay as they are compare as tuples do
-/

namespace Slicing

/-! ## Forms -/

/-- What a comparison sees of a value. -/
inductive Form where
  | nothing
  | number (n : Number)
  | text (s : String)
  | set (elements : List Int)
  | list (items : List Value)
  | tuple (items : List Value)
  | slice (s : Slice)

/-- The value has the form. -/
inductive World.HasForm (w : World) : Value → Form → Prop where
  | null : HasForm w .null .nothing
  | bool (b : Bool) : HasForm w (.bool b) (.number (.ofInt b.toInt))
  | int (n : Int) : HasForm w (.int n) (.number (.ofInt n))
  | float {a : Address} {written : String} (held : w.cell? (.object a) = some (.float written)) :
    HasForm w (.object a) (.number (.ofText written))
  | text (s : String) : HasForm w (.text s) (.text s)
  | set {a : Address} {xs : List Int} (held : w.cell? (.object a) = some (.set xs)) :
    HasForm w (.object a) (.set xs)
  | list {a : Address} {items : List Value} (held : w.cell? (.object a) = some (.list items)) :
    HasForm w (.object a) (.list items)
  | tuple {a : Address} {items : List Value} (held : w.cell? (.object a) = some (.tuple items)) :
    HasForm w (.object a) (.tuple items)
  | slice {a : Address} {s : Slice} (held : w.cell? (.object a) = some (.slice s)) :
    HasForm w (.object a) (.slice s)

/-- Whether two forms are of one sort, and of one that has a comparison of its own. -/
inductive Form.Alike : Form → Form → Prop where
  | number (m n : Number) : Alike (number m) (number n)
  | text (s t : String) : Alike (text s) (text t)
  | set (xs ys : List Int) : Alike (set xs) (set ys)
  | list (xs ys : List Value) : Alike (list xs) (list ys)
  | tuple (xs ys : List Value) : Alike (tuple xs) (tuple ys)
  | slice (s t : Slice) : Alike (slice s) (slice t)

theorem Form.Alike.symm {p q : Form} (h : p.Alike q) : q.Alike p := by
  cases h <;> constructor

/-! ## Nesting -/

/--
The value is nested at most `n` levels deep. At the bottom there are values that hold no others,
among them scripted objects if these are let in; above them lists, tuples and slices. No slice is
built from a bound that is marked as left out.
-/
inductive World.Nested (w : World) (scripts : Prop) : Nat → Value → Prop where
  | null {n : Nat} : Nested w scripts n .null
  | bool {n : Nat} (b : Bool) : Nested w scripts n (.bool b)
  | int {n : Nat} (m : Int) : Nested w scripts n (.int m)
  | text {n : Nat} (s : String) : Nested w scripts n (.text s)
  | float {n : Nat} {a : Address} {written : String}
    (held : w.cell? (.object a) = some (.float written)) : Nested w scripts n (.object a)
  | scripted {n : Nat} {a : Address} {s : Script} {calls : Nat} (admitted : scripts)
    (held : w.cell? (.object a) = some (.scripted s calls)) : Nested w scripts n (.object a)
  | set {n : Nat} {a : Address} {xs : List Int}
    (held : w.cell? (.object a) = some (.set xs)) : Nested w scripts n (.object a)
  | list {n : Nat} {a : Address} {items : List Value}
    (held : w.cell? (.object a) = some (.list items))
    (nested : ∀ x ∈ items, Nested w scripts n x) : Nested w scripts (n + 1) (.object a)
  | tuple {n : Nat} {a : Address} {items : List Value}
    (held : w.cell? (.object a) = some (.tuple items))
    (nested : ∀ x ∈ items, Nested w scripts n x) : Nested w scripts (n + 1) (.object a)
  | slice {n : Nat} {a : Address} {s : Slice} {arguments : List Value}
    (held : w.cell? (.object a) = some (.slice s))
    (built : Slice.ofArguments s.lineage arguments = .ok s)
    (nested : ∀ x ∈ arguments, Nested w scripts n x) : Nested w scripts (n + 1) (.object a)

/-- The values that are compared or copied with an object. -/
def Cell.parts : Cell → List Value
  | list items | tuple items => items
  | slice s => s.arguments
  | _ => []

namespace Slice

variable {lineage : Lineage} {arguments : List Value} {s : Slice}

/-- A slice that was built without the mark for a bound left out is rebuilt from the same bounds. -/
theorem arguments_of_ofArguments (built : ofArguments lineage arguments = .ok s)
    (given : .absent ∉ arguments) : s.arguments = arguments := by
  match arguments, built with
  | [stop], rfl => rfl
  | [start, stop], rfl =>
    have present : start ≠ .absent := by grind
    simp [Slice.arguments, Value.isPresent, present]
  | [start, stop, step], rfl =>
    have present : start ≠ .absent ∧ step ≠ .absent := by grind
    simp [Slice.arguments, Value.isPresent, present]

theorem given_of_mem {v : Value} (given : .absent ∉ arguments) (mem : v ∈ arguments) :
    v.given = v :=
  Value.given_of_isPresent (bne_iff_ne.mpr fun absent => given (absent ▸ mem))

/-- A slice reads as the bounds it was built from, with nothing in place of the others. -/
theorem mem_bounds_of_ofArguments (built : ofArguments lineage arguments = .ok s)
    (given : .absent ∉ arguments) {x : Value} (mem : x ∈ s.bounds.toList) :
    x = .null ∨ x ∈ arguments := by
  match arguments, built with
  | [stop], rfl =>
    simp only [bounds, Bounds.toList] at mem
    grind [Value.given]
  | [start, stop], rfl =>
    have hstart := given_of_mem (v := start) given (by simp)
    simp only [bounds, Bounds.toList, hstart] at mem
    grind [Value.given]
  | [start, stop, step], rfl =>
    have hstart := given_of_mem (v := start) given (by simp)
    have hstep := given_of_mem (v := step) given (by simp)
    simp only [bounds, Bounds.toList, hstart, hstep] at mem
    exact .inr mem

end Slice

namespace World.Nested

variable {w : World} {scripts : Prop} {n : Nat} {x : Value}

theorem ne_absent (h : w.Nested scripts n x) : x ≠ .absent := by
  cases h <;> exact Value.noConfusion

/-- What is nested in few levels is nested in more. -/
theorem succ (h : w.Nested scripts n x) : w.Nested scripts (n + 1) x := by
  induction h with
  | null => exact .null
  | bool b => exact .bool b
  | int m => exact .int m
  | text s => exact .text s
  | float held => exact .float held
  | scripted admitted held => exact .scripted admitted held
  | set held => exact .set held
  | list held _ ih => exact .list held ih
  | tuple held _ ih => exact .tuple held ih
  | slice held built _ ih => exact .slice held built ih

theorem absent_not_mem {arguments : List Value}
    (nested : ∀ x ∈ arguments, w.Nested scripts n x) : .absent ∉ arguments :=
  fun mem => (nested _ mem).ne_absent rfl

theorem immediate_or_held (h : w.Nested scripts n x) :
    x.isImmediate = true ∨ ∃ cell, w.cell? x = some cell := by
  cases h with
  | null | bool | int | text => exact .inl rfl
  | float held | scripted _ held | set held | list held | tuple held | slice held =>
    exact .inr ⟨_, held⟩

theorem form (h : w.Nested False n x) : ∃ p, w.HasForm x p := by
  cases h with
  | null => exact ⟨_, .null⟩
  | bool b => exact ⟨_, .bool b⟩
  | int m => exact ⟨_, .int m⟩
  | text s => exact ⟨_, .text s⟩
  | float held => exact ⟨_, .float held⟩
  | scripted admitted => exact admitted.elim
  | set held => exact ⟨_, .set held⟩
  | list held => exact ⟨_, .list held⟩
  | tuple held => exact ⟨_, .tuple held⟩
  | slice held => exact ⟨_, .slice held⟩

/-- What an object holds is nested one level less deep. -/
theorem parts (h : w.Nested scripts n x) {cell : Cell} (held : w.cell? x = some cell)
    {y : Value} (mem : y ∈ cell.parts) : ∃ m, n = m + 1 ∧ w.Nested scripts m y := by
  cases h with
  | null | bool | int | text => simp [World.cell?] at held
  | float held' | scripted _ held' | set held' =>
    obtain rfl := Option.some.inj (held'.symm.trans held)
    simp [Cell.parts] at mem
  | list held' nested | tuple held' nested =>
    obtain rfl := Option.some.inj (held'.symm.trans held)
    exact ⟨_, rfl, nested y mem⟩
  | slice held' built nested =>
    obtain rfl := Option.some.inj (held'.symm.trans held)
    rw [Cell.parts, Slice.arguments_of_ofArguments built (absent_not_mem nested)] at mem
    exact ⟨_, rfl, nested y mem⟩

/-- What a slice reads as is nested one level less deep, or nothing. -/
theorem bounds (h : w.Nested scripts n x) {s : Slice} (held : w.cell? x = some (.slice s))
    {y : Value} (mem : y ∈ s.bounds.toList) : ∃ m, n = m + 1 ∧ w.Nested scripts m y := by
  cases h with
  | null | bool | int | text => simp [World.cell?] at held
  | float held' | scripted _ held' | set held' | list held' | tuple held' =>
    exact absurd (held'.symm.trans held) (by simp)
  | slice held' built nested =>
    obtain rfl := Cell.slice.inj (Option.some.inj (held'.symm.trans held))
    rcases Slice.mem_bounds_of_ofArguments built (absent_not_mem nested) mem with rfl | mem
    · exact ⟨_, rfl, .null⟩
    · exact ⟨_, rfl, nested y mem⟩

end World.Nested

/-- The value is a slice, of one type or the other, that was built from the arguments. -/
def World.Builds (w : World) (arguments : List Value) (a : Value) : Prop :=
  ∃ s : Slice, w.cell? a = some (.slice s) ∧ Slice.ofArguments s.lineage arguments = .ok s

theorem World.Builds.cells_pos {w : World} {arguments : List Value} {a : Value}
    (h : w.Builds arguments a) : 0 < w.cells.size := by
  obtain ⟨s, held, -⟩ := h
  obtain ⟨a, rfl⟩ := object_of_cell? held
  exact Nat.zero_lt_of_lt (Array.getElem?_eq_some_iff.mp held).1

theorem World.Builds.nested {w : World} {scripts : Prop} {n : Nat} {arguments : List Value}
    {a : Value} (h : w.Builds arguments a) (nested : ∀ x ∈ arguments, w.Nested scripts n x) :
    w.Nested scripts (n + 1) a := by
  obtain ⟨s, held, built⟩ := h
  obtain ⟨a, rfl⟩ := object_of_cell? held
  exact .slice held built nested

/-! ## What a comparison comes to -/

namespace Eval

/--
The computation comes to a truth value, or to an error of the kind for wrong types if there is none,
and does nothing besides.
-/
def Settles (x : Eval Value) (w : World) : Option Bool → Prop
  | some answer => x w = { outcome := .ok (.bool answer), events := [], world := w }
  | none => ∃ error : Error, error.kind = .type ∧
      x w = { outcome := .error (.raised error), events := [], world := w }

/-- The computation comes to the answer that it knows none, and does nothing besides. -/
def Declines (x : Eval Value) (w : World) : Prop :=
  x w = { outcome := .ok .notImplemented, events := [], world := w }

/-- If the computation knows an answer, that is it. -/
def Offers (x : Eval Value) (w : World) (verdict : Option Bool) : Prop :=
  x.Settles w verdict ∨ x.Declines w

variable {x y : Eval Value} {w : World} {verdict : Option Bool}

theorem Settles.congr (h : x.Settles w verdict) (same : y w = x w) : y.Settles w verdict := by
  unfold Settles at h ⊢
  rwa [same]

theorem Settles.known (h : x.Settles w verdict) : (x w).outcome ≠ .ok .notImplemented := by
  cases verdict with
  | some answer =>
    rw [show x w = _ from h]
    simp
  | none =>
    obtain ⟨error, -, run⟩ := h
    simp [run]

theorem Settles.not_declines (h : x.Settles w verdict) : ¬x.Declines w := by
  intro declines
  exact h.known (congrArg (fun run : Run Value => run.outcome) declines)

theorem orElseAsk_settles (first : x.Offers w verdict)
    (second : x.Declines w → y.Settles w verdict) : (orElseAsk x y).Settles w verdict := by
  rcases first with settles | declines
  · exact settles.congr (orElseAsk_apply settles.known y)
  · refine (second declines).congr ?_
    unfold orElseAsk
    rw [bind_apply, show x w = _ from declines]
    rfl

end Eval

/-- What the operator comes to when neither operand knows an answer. -/
def unknownVerdict (op : Comparison) (x y : Value) : Option Bool :=
  match op with
  | .eq => some (x == y)
  | .ne => some (x != y)
  | _ => none

theorem unknownVerdict_swapped (op : Comparison) (x y : Value) :
    unknownVerdict op.swapped y x = unknownVerdict op x y := by
  cases op with
  | eq => exact congrArg some (BEq.comm)
  | ne => exact congrArg some (bne_comm)
  | _ => rfl

theorem unknownVerdict_isSome {op : Comparison} (equality : op.isOrder = false) (x y : Value) :
    (unknownVerdict op x y).isSome = true := by
  cases op <;> first | rfl | simp [Comparison.isOrder] at equality

section

variable {c : Callbacks} {w : World} {op : Comparison} {x y : Value} {verdict : Option Bool}

theorem compareUnknown_settles (op : Comparison) (x y : Value) (w : World) :
    (compareUnknown op x y).Settles w (unknownVerdict op x y) := by
  cases op with
  | eq => rfl
  | ne => rfl
  | _ => exact ⟨_, rfl, rfl⟩

/-- What both operands agree on is the verdict, whichever of them is asked first. -/
theorem compareValues_settles (left : (compareMethod c op x y).Offers w verdict)
    (right : (compareMethod c op.swapped y x).Offers w verdict)
    (neither : (compareMethod c op x y).Declines w → (compareMethod c op.swapped y x).Declines w →
      verdict = unknownVerdict op x y) :
    (compareValues c op x y).Settles w verdict := by
  have unknown (leftDeclines : (compareMethod c op x y).Declines w)
      (rightDeclines : (compareMethod c op.swapped y x).Declines w) :
      (compareUnknown op x y).Settles w verdict := by
    rw [neither leftDeclines rightDeclines]
    exact compareUnknown_settles op x y w
  cases refined : (w.kind y).refines (w.kind x) with
  | true =>
    have run : compareValues c op x y w =
        orElseAsk (compareMethod c op.swapped y x)
          (orElseAsk (compareMethod c op x y) (compareUnknown op x y)) w := by
      unfold compareValues
      rw [Eval.bind_apply, Eval.world_apply]
      dsimp only
      rw [if_pos refined]
      rfl
    refine Eval.Settles.congr ?_ run
    exact Eval.orElseAsk_settles right fun rightDeclines =>
      Eval.orElseAsk_settles left fun leftDeclines => unknown leftDeclines rightDeclines
  | false =>
    have run : compareValues c op x y w =
        orElseAsk (compareMethod c op x y)
          (orElseAsk (compareMethod c op.swapped y x) (compareUnknown op x y)) w := by
      unfold compareValues
      rw [Eval.bind_apply, Eval.world_apply]
      dsimp only
      rw [if_neg (Bool.not_eq_true _ ▸ refined)]
      rfl
    refine Eval.Settles.congr ?_ run
    exact Eval.orElseAsk_settles left fun leftDeclines =>
      Eval.orElseAsk_settles right fun rightDeclines => unknown leftDeclines rightDeclines

/-! ## Asking a value -/

theorem compareIdentity_offers (op : Comparison) (x y : Value) (w : World) :
    (pure (compareIdentity op x y) : Eval Value).Offers w (unknownVerdict op x y) := by
  cases op with
  | eq =>
    by_cases same : x = y
    · simp [compareIdentity, same, Eval.Offers, Eval.Settles, unknownVerdict, Eval.pure_apply]
    · simp [compareIdentity, same, Eval.Offers, Eval.Declines, Eval.pure_apply]
  | ne =>
    by_cases same : x = y
    · simp [compareIdentity, same, Eval.Offers, Eval.Settles, unknownVerdict, Eval.pure_apply]
    · simp [compareIdentity, same, Eval.Offers, Eval.Declines, Eval.pure_apply]
  | _ => exact .inr rfl

variable {p q : Form}

/-- Nothing knows no more than that it is nothing. -/
theorem compareMethod_null_offers (hy : w.HasForm y q) (c : Callbacks) (op : Comparison) :
    (compareMethod c op .null y).Offers w (unknownVerdict op .null y) := by
  have method : compareMethod c op .null y w =
      (pure (compareIdentity op .null y) : Eval Value) w := by
    cases hy <;> rfl
  have offers := compareIdentity_offers op .null y w
  unfold Eval.Offers Eval.Declines at offers ⊢
  rcases offers with settles | declines
  · exact .inl (settles.congr method)
  · exact .inr (method.trans declines)

/-- To a value of another form a value knows no answer. -/
theorem compareMethod_unlike_declines (hx : w.HasForm x p) (hy : w.HasForm y q)
    (something : p ≠ .nothing) (unlike : ¬p.Alike q) (c : Callbacks) (op : Comparison) :
    (compareMethod c op x y).Declines w := by
  show compareMethod c op x y w = _
  cases hx with
  | null => exact absurd rfl something
  | bool b => cases hy <;> first | exact absurd (.number _ _) unlike | rfl
  | int n => cases hy <;> first | exact absurd (.number _ _) unlike | rfl
  | text s => cases hy <;> first | exact absurd (.text _ _) unlike | rfl
  | float held =>
    have unnumbered : w.number? y = none := by
      cases hy with
      | bool | int | float => exact absurd (.number _ _) unlike
      | null | text => rfl
      | set held' | list held' | tuple held' | slice held' =>
        simp [World.number?, World.float?, held']
    unfold compareMethod
    rw [Eval.world_bind_apply, held]
    simp only [unnumbered]
    rfl
  | set held =>
    unfold compareMethod
    rw [Eval.world_bind_apply, held]
    cases hy with
    | set => exact absurd (.set _ _) unlike
    | null | bool | int | text => rfl
    | float held' | list held' | tuple held' | slice held' =>
      simp only [held']
      rfl
  | list held =>
    unfold compareMethod
    rw [Eval.world_bind_apply, held]
    cases hy with
    | list => exact absurd (.list _ _) unlike
    | null | bool | int | text => rfl
    | float held' | set held' | tuple held' | slice held' =>
      simp only [held']
      rfl
  | tuple held =>
    unfold compareMethod
    rw [Eval.world_bind_apply, held]
    cases hy with
    | tuple => exact absurd (.tuple _ _) unlike
    | null | bool | int | text => rfl
    | float held' | set held' | list held' | slice held' =>
      simp only [held']
      rfl
  | slice held =>
    unfold compareMethod
    rw [Eval.world_bind_apply, held]
    cases hy with
    | slice => exact absurd (.slice _ _) unlike
    | null | bool | int | text => rfl
    | float held' | set held' | list held' | tuple held' =>
      simp only [held']
      rfl

theorem compareMethod_unlike_offers (hx : w.HasForm x p) (hy : w.HasForm y q) (unlike : ¬p.Alike q)
    (c : Callbacks) (op : Comparison) :
    (compareMethod c op x y).Offers w (unknownVerdict op x y) := by
  by_cases something : p = .nothing
  · subst something
    cases hx with
    | null => exact compareMethod_null_offers hy c op
  · exact .inr (compareMethod_unlike_declines hx hy something unlike c op)

/-- Neither of two values of different forms knows the other, but they may be the same nothing. -/
theorem compareValues_unlike_settles (hx : w.HasForm x p) (hy : w.HasForm y q)
    (unlike : ¬p.Alike q) (c : Callbacks) (op : Comparison) :
    (compareValues c op x y).Settles w (unknownVerdict op x y) := by
  have right := compareMethod_unlike_offers hy hx (fun alike => unlike alike.symm) c op.swapped
  rw [unknownVerdict_swapped] at right
  exact compareValues_settles (compareMethod_unlike_offers hx hy unlike c op) right fun _ _ => rfl

/-! ## Values of one form -/

theorem World.HasForm.number? {m : Number} (h : w.HasForm x (.number m)) :
    w.number? x = some m := by
  cases h with
  | bool | int => rfl
  | float held => simp [World.number?, World.float?, held]

/-- A fraction knows all numbers. -/
theorem compareMethod_float_settles {a : Address} {written : String} {n : Number}
    (held : w.cell? (.object a) = some (.float written)) (hy : w.HasForm y (.number n))
    (c : Callbacks) (op : Comparison) :
    (compareMethod c op (.object a) y).Settles w (some ((Number.ofText written).holds op n)) := by
  show compareMethod c op _ y w = _
  unfold compareMethod
  rw [Eval.world_bind_apply, held]
  simp only [hy.number?]
  rfl

theorem compareMethod_number_offers {m n : Number} (hx : w.HasForm x (.number m))
    (hy : w.HasForm y (.number n)) (c : Callbacks) (op : Comparison) :
    (compareMethod c op x y).Offers w (some (m.holds op n)) := by
  cases hx with
  | float held => exact .inl (compareMethod_float_settles held hy c op)
  -- an integer knows no fractions, so it leaves the answer to them
  | bool b | int k =>
    cases hy with
    | bool | int => exact .inl rfl
    | float => exact .inr rfl

/-- Of two numbers at least one knows the other. -/
theorem compareValues_number_settles {m n : Number} (hx : w.HasForm x (.number m))
    (hy : w.HasForm y (.number n)) (c : Callbacks) (op : Comparison) :
    (compareValues c op x y).Settles w (some (m.holds op n)) := by
  have left := compareMethod_number_offers hx hy c op
  have right := compareMethod_number_offers hy hx c op.swapped
  rw [Number.holds_swapped] at right
  refine compareValues_settles left right fun leftDeclines rightDeclines => ?_
  exfalso
  cases hx with
  | float held => exact (compareMethod_float_settles held hy c op).not_declines leftDeclines
  | bool b =>
    cases hy with
    | bool | int => cases leftDeclines
    | float held =>
      exact (compareMethod_float_settles held (.bool b) c op.swapped).not_declines rightDeclines
  | int k =>
    cases hy with
    | bool | int => cases leftDeclines
    | float held =>
      exact (compareMethod_float_settles held (.int k) c op.swapped).not_declines rightDeclines

theorem compareMethod_text_settles (s t : String) (c : Callbacks) (op : Comparison) (w : World) :
    (compareMethod c op (.text s) (.text t)).Settles w
      (some (op.holds (compareOfLessAndEq s t))) :=
  rfl

theorem compareMethod_set_settles {xs ys : List Int} (hx : w.cell? x = some (.set xs))
    (hy : w.cell? y = some (.set ys)) (c : Callbacks) (op : Comparison) :
    (compareMethod c op x y).Settles w (some (compareSets op xs ys)) := by
  show compareMethod c op x y w = _
  unfold compareMethod
  rw [Eval.world_bind_apply, hx]
  simp only [hy]
  rfl

/-! ## Sequences -/

theorem compareMethod_list_apply {xs ys : List Value} (hx : w.cell? x = some (.list xs))
    (hy : w.cell? y = some (.list ys)) (c : Callbacks) (op : Comparison) :
    compareMethod c op x y w = compareLists c op x y w := by
  unfold compareMethod
  rw [Eval.world_bind_apply, hx]
  simp only [hy]

/-- If the world stays as it is, the second look at two lists finds nothing left in one of them. -/
theorem firstListDifference_apply {xs ys : List Value} {difference : Option (Value × Value)}
    (hx : w.cell? x = some (.list xs)) (hy : w.cell? y = some (.list ys))
    (found : firstDifference c (xs.zip ys) w =
      { outcome := .ok difference, events := [], world := w }) (rounds : Nat) :
    firstListDifference c x y (rounds + 1) 0 w =
      { outcome := .ok difference, events := [], world := w } := by
  have pairs (done : Nat) : w.pairsFrom x y done = (xs.zip ys).drop done := by
    simp [World.pairsFrom, World.listItems, hx, hy, List.zip, List.drop_zipWith]
  have rest : firstListDifference c x y rounds (xs.zip ys).length w =
      { outcome := .ok none, events := [], world := w } := by
    have empty : (w.pairsFrom x y (xs.zip ys).length).isEmpty = true := by
      rw [pairs, List.drop_length]
      rfl
    cases rounds with
    | zero =>
      rw [firstListDifference, Eval.world_bind_apply, if_pos empty]
      rfl
    | succ rounds =>
      rw [firstListDifference, Eval.world_bind_apply]
      simp only [empty, if_true]
      rfl
  rw [firstListDifference, Eval.world_bind_apply]
  simp only [pairs, List.drop_zero]
  by_cases empty : xs.zip ys = []
  · rw [empty] at found ⊢
    exact found
  · rw [if_neg (by simpa using empty), Eval.bind_apply, found]
    cases difference with
    | some pair => rfl
    | none =>
      simp only [Nat.zero_add, rest, List.nil_append]

/-- Lists that stay as they are compare as tuples do. -/
theorem compareLists_apply {xs ys : List Value} {difference : Option (Value × Value)}
    (hx : w.cell? x = some (.list xs)) (hy : w.cell? y = some (.list ys))
    (found : firstDifference c (xs.zip ys) w =
      { outcome := .ok difference, events := [], world := w }) (op : Comparison) :
    compareLists c op x y w = compareTuples c op xs ys w := by
  have listed : w.listItems x = xs ∧ w.listItems y = ys := by
    simp [World.listItems, hx, hy]
  unfold compareLists compareTuples
  rw [Eval.world_bind_apply, Eval.bind_apply, found, listed.1, listed.2]
  by_cases apart : (!op.isOrder && xs.length != ys.length) = true
  · -- unequal lengths are the answer to equality, whether or not a pair is unequal too
    rw [if_pos apart]
    obtain ⟨equality, lengths⟩ : op.isOrder = false ∧ xs.length ≠ ys.length := by
      simpa using apart
    have decided : op.holds (compareOfLessAndEq xs.length ys.length) = op.holds .lt := by
      unfold compareOfLessAndEq
      rw [if_neg lengths]
      cases op with
      | eq | ne => split <;> rfl
      | _ => simp [Comparison.isOrder] at equality
    cases difference with
    | none =>
      dsimp only
      rw [decided]
      rfl
    | some pair =>
      cases op with
      | eq | ne => rfl
      | _ => simp [Comparison.isOrder] at equality
  · rw [if_neg apart, Eval.bind_apply, firstListDifference_apply hx hy found]
    cases difference with
    | some pair => rfl
    | none =>
      dsimp only
      rw [Eval.world_bind_apply, listed.1, listed.2]

/-- A slice tests the answer of its bounds, which is a truth value already. -/
theorem compareMethod_slice_settles {s t : Slice} (hx : w.cell? x = some (.slice s))
    (hy : w.cell? y = some (.slice t)) {op : Comparison} {verdict : Option Bool}
    (bounds : (compareTuples c op s.bounds.toList t.bounds.toList).Settles w verdict) :
    (compareMethod c op x y).Settles w verdict := by
  have tested : compareMethod c op x y w =
      (do
        let answer ← compareTuples c op s.bounds.toList t.bounds.toList
        return Value.bool (← truth c answer) : Eval Value) w := by
    rw [compareMethod_slice_apply hx hy, Bounds.compare_eq, bind_assoc]
  cases verdict with
  | some answer =>
    show compareMethod c op x y w = _
    rw [tested, Eval.bind_apply, show compareTuples c op _ _ w = _ from bounds]
    rfl
  | none =>
    obtain ⟨error, kind, raised⟩ := bounds
    refine ⟨error, kind, ?_⟩
    rw [tested, Eval.bind_apply, raised]

theorem identicalOrEqual_of_settles (equal : (c.compare .eq x y).Settles w (some true)) :
    identicalOrEqual c x y w = { outcome := .ok true, events := [], world := w } := by
  unfold identicalOrEqual
  by_cases same : x = y
  · rw [if_pos same]
    rfl
  · rw [if_neg same, Eval.bind_apply, show c.compare .eq x y w = _ from equal]
    rfl

/-- If each pair ties, no pair decides. -/
theorem firstDifference_of_ties {pairs : List (Value × Value)}
    (ties : ∀ pair ∈ pairs, identicalOrEqual c pair.1 pair.2 w =
      { outcome := .ok true, events := [], world := w }) :
    firstDifference c pairs w = { outcome := .ok none, events := [], world := w } := by
  induction pairs with
  | nil => rfl
  | cons pair pairs ih =>
    obtain ⟨tie, rest⟩ := List.forall_mem_cons.mp ties
    rw [firstDifference_eq_cons, Eval.bind_apply, tie]
    exact ih rest

end

end Slicing
