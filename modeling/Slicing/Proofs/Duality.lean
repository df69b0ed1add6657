import Slicing.Proofs.Contents
import Slicing.Proofs.Forms

/-!
# Turning comparisons round

A comparison says the same as the one turned round, with the operands in the other order. This
holds of numbers, texts and sets, and it is handed up through lists, tuples and slices, since the
first pair that does not tie is found from either side. So it makes no difference which operand is
asked first, nor of what types the two slices are.

* `firstDifference_dual` — the pair that decides is the same from either side
* `compareValues_dual` — values of ordinary forms, nested to any depth, compare alike both ways
* `compareValues_built_dual` — so slices compare by what they are built from, and not by their type
-/

namespace Slicing

/--
Each comparison comes to the same verdict forth as it does back, turned round. Whether two values
are equal is always known.
-/
def World.Dual (w : World) (forth back : Comparison → Eval Value) : Prop :=
  ∀ op : Comparison, ∃ verdict : Option Bool,
    (forth op).Settles w verdict ∧ (back op.swapped).Settles w verdict ∧
      (op.isOrder = false → verdict.isSome = true)

/-- In a line it makes no difference from which end two places are looked at. -/
theorem Comparison.holds_compareOfLessAndEq_swapped {α : Type} [LinearOrder α] (op : Comparison)
    (x y : α) : op.swapped.holds (compareOfLessAndEq y x) = op.holds (compareOfLessAndEq x y) := by
  rw [Bool.eq_iff_iff, holds_compareOfLessAndEq, holds_compareOfLessAndEq, relates_swapped]

theorem compareSets_swapped (op : Comparison) (xs ys : List Int) :
    compareSets op.swapped ys xs = compareSets op xs ys := by
  rw [Bool.eq_iff_iff, compareSets_eq_true, compareSets_eq_true, Comparison.relates_swapped]

section

variable {c : Callbacks} {w : World} {x y : Value}

/-- If both operands know how they compare, the operator does not depend on who is asked first. -/
theorem compareValues_settles_of_methods {op : Comparison} {verdict : Option Bool}
    (left : (compareMethod c op x y).Settles w verdict)
    (right : (compareMethod c op.swapped y x).Settles w verdict) :
    (compareValues c op x y).Settles w verdict ∧
      (compareValues c op.swapped y x).Settles w verdict := by
  constructor
  · refine compareValues_settles (.inl left) (.inl right) fun declines => ?_
    exact absurd declines left.not_declines
  · have turned : (compareMethod c op.swapped.swapped x y).Settles w verdict := by
      rwa [Comparison.swapped_swapped]
    refine compareValues_settles (.inl right) (.inl turned) fun declines => ?_
    exact absurd declines right.not_declines

theorem compareValues_dual_of_methods
    (methods : w.Dual (compareMethod c · x y) (compareMethod c · y x)) :
    w.Dual (compareValues c · x y) (compareValues c · y x) := by
  intro op
  obtain ⟨verdict, left, right, known⟩ := methods op
  obtain ⟨forth, back⟩ := compareValues_settles_of_methods left right
  exact ⟨verdict, forth, back, known⟩

/-- Neither of two values of different forms knows the other, so they may only be the same one. -/
theorem compareValues_unlike_dual {p q : Form} (hx : w.HasForm x p) (hy : w.HasForm y q)
    (unlike : ¬p.Alike q) (c : Callbacks) :
    w.Dual (compareValues c · x y) (compareValues c · y x) := by
  intro op
  have forth := compareValues_unlike_settles hx hy unlike c op
  have back := compareValues_unlike_settles hy hx (fun alike => unlike alike.symm) c op.swapped
  rw [unknownVerdict_swapped] at back
  exact ⟨_, forth, back, fun equality => unknownVerdict_isSome equality x y⟩

/-! ## The pair that decides -/

/-- Whether two values tie does not depend on their order. -/
theorem identicalOrEqual_dual (dual : w.Dual (c.compare · x y) (c.compare · y x)) :
    ∃ tie : Bool,
      identicalOrEqual c x y w = { outcome := .ok tie, events := [], world := w } ∧
        identicalOrEqual c y x w = { outcome := .ok tie, events := [], world := w } := by
  by_cases same : x = y
  · subst same
    rw [identicalOrEqual_self]
    exact ⟨true, rfl, rfl⟩
  · obtain ⟨verdict, forth, back, known⟩ := dual .eq
    obtain ⟨tie, rfl⟩ := Option.isSome_iff_exists.mp (known rfl)
    refine ⟨tie, ?_, ?_⟩
    · rw [identicalOrEqual, if_neg same, Eval.bind_apply, show c.compare .eq x y w = _ from forth]
      rfl
    · rw [identicalOrEqual, if_neg (Ne.symm same), Eval.bind_apply,
        show c.compare .eq y x w = _ from back]
      rfl

/-- The first pair that does not tie is the same one, whichever sequence goes first. -/
theorem firstDifference_dual {xs ys : List Value}
    (dual : ∀ x ∈ xs, ∀ y ∈ ys, w.Dual (c.compare · x y) (c.compare · y x)) :
    ∃ difference : Option (Value × Value),
      firstDifference c (xs.zip ys) w =
          { outcome := .ok difference, events := [], world := w } ∧
        firstDifference c (ys.zip xs) w =
          { outcome := .ok (difference.map Prod.swap), events := [], world := w } ∧
        ∀ pair ∈ difference, pair.1 ∈ xs ∧ pair.2 ∈ ys := by
  induction xs generalizing ys with
  | nil => exact ⟨none, rfl, by rw [List.zip_nil_right]; rfl, nofun⟩
  | cons x xs ih =>
    cases ys with
    | nil => exact ⟨none, rfl, rfl, nofun⟩
    | cons y ys =>
      obtain ⟨tie, forth, back⟩ := identicalOrEqual_dual (dual x (by simp) y (by simp))
      have rest : ∀ u ∈ xs, ∀ v ∈ ys, w.Dual (c.compare · u v) (c.compare · v u) :=
        fun u hu v hv => dual u (List.mem_cons_of_mem x hu) v (List.mem_cons_of_mem y hv)
      obtain ⟨difference, found, found', mem⟩ := ih rest
      rw [List.zip_cons_cons, List.zip_cons_cons, firstDifference_eq_cons, firstDifference_eq_cons,
        Eval.bind_apply, Eval.bind_apply, forth, back]
      cases tie with
      | true =>
        refine ⟨difference, ?_, ?_, fun pair hpair => ?_⟩
        · simp [found]
        · simp [found']
        · exact ⟨by simp [(mem pair hpair).1], by simp [(mem pair hpair).2]⟩
      | false => exact ⟨some (x, y), rfl, rfl, by simp⟩

theorem decideOn_dual (dual : w.Dual (c.compare · x y) (c.compare · y x)) :
    w.Dual (decideOn c · x y) (decideOn c · y x) := by
  intro op
  cases op with
  | eq => exact ⟨some false, rfl, rfl, fun _ => rfl⟩
  | ne => exact ⟨some true, rfl, rfl, fun _ => rfl⟩
  | lt => exact dual .lt
  | le => exact dual .le
  | gt => exact dual .gt
  | ge => exact dual .ge

theorem compareTuples_dual {xs ys : List Value}
    (dual : ∀ x ∈ xs, ∀ y ∈ ys, w.Dual (c.compare · x y) (c.compare · y x)) :
    w.Dual (compareTuples c · xs ys) (compareTuples c · ys xs) := by
  obtain ⟨difference, found, found', mem⟩ := firstDifference_dual dual
  intro op
  cases difference with
  | none =>
    refine ⟨some (op.holds (compareOfLessAndEq xs.length ys.length)), ?_, ?_, fun _ => rfl⟩
    · show compareTuples c op xs ys w = _
      rw [compareTuples, Eval.bind_apply, found]
      rfl
    · show compareTuples c op.swapped ys xs w = _
      rw [compareTuples, Eval.bind_apply, found', ← op.holds_compareOfLessAndEq_swapped]
      rfl
  | some pair =>
    obtain ⟨hx, hy⟩ := mem pair rfl
    obtain ⟨verdict, forth, back, known⟩ := decideOn_dual (dual pair.1 hx pair.2 hy) op
    refine ⟨verdict, forth.congr ?_, back.congr ?_, known⟩
    · show compareTuples c op xs ys w = decideOn c op pair.1 pair.2 w
      rw [compareTuples, Eval.bind_apply, found]
      rfl
    · show compareTuples c op.swapped ys xs w = decideOn c op.swapped pair.2 pair.1 w
      rw [compareTuples, Eval.bind_apply, found']
      rfl

/-! ## Values nested to any depth -/

theorem compareMethod_list_dual {xs ys : List Value} (hx : w.cell? x = some (.list xs))
    (hy : w.cell? y = some (.list ys))
    (dual : ∀ u ∈ xs, ∀ v ∈ ys, w.Dual (c.compare · u v) (c.compare · v u)) :
    w.Dual (compareMethod c · x y) (compareMethod c · y x) := by
  obtain ⟨difference, found, found', -⟩ := firstDifference_dual dual
  intro op
  obtain ⟨verdict, forth, back, known⟩ := compareTuples_dual dual op
  have left := (compareMethod_list_apply hx hy c op).trans (compareLists_apply hx hy found op)
  have right := (compareMethod_list_apply hy hx c op.swapped).trans
    (compareLists_apply hy hx found' op.swapped)
  exact ⟨verdict, forth.congr left, back.congr right, known⟩

theorem compareMethod_tuple_dual {xs ys : List Value} (hx : w.cell? x = some (.tuple xs))
    (hy : w.cell? y = some (.tuple ys))
    (dual : ∀ u ∈ xs, ∀ v ∈ ys, w.Dual (c.compare · u v) (c.compare · v u)) :
    w.Dual (compareMethod c · x y) (compareMethod c · y x) := by
  intro op
  obtain ⟨verdict, forth, back, known⟩ := compareTuples_dual dual op
  exact ⟨verdict, forth.congr (compareMethod_tuple_apply hx hy c op),
    back.congr (compareMethod_tuple_apply hy hx c op.swapped), known⟩

theorem compareMethod_slice_dual {s t : Slice} (hx : w.cell? x = some (.slice s))
    (hy : w.cell? y = some (.slice t))
    (dual : ∀ u ∈ s.bounds.toList, ∀ v ∈ t.bounds.toList,
      w.Dual (c.compare · u v) (c.compare · v u)) :
    w.Dual (compareMethod c · x y) (compareMethod c · y x) := by
  intro op
  obtain ⟨verdict, forth, back, known⟩ := compareTuples_dual dual op
  exact ⟨verdict, compareMethod_slice_settles hx hy forth, compareMethod_slice_settles hy hx back,
    known⟩

/-- If what two values hold compares alike both ways, so do they. -/
theorem compareValues_dual_of_below {n : Nat} (hx : w.Nested False n x) (hy : w.Nested False n y)
    (below : ∀ m, n = m + 1 → ∀ u v, w.Nested False m u → w.Nested False m v →
      w.Dual (c.compare · u v) (c.compare · v u)) :
    w.Dual (compareValues c · x y) (compareValues c · y x) := by
  have both {u v : Value} (hu : ∃ m, n = m + 1 ∧ w.Nested False m u)
      (hv : ∃ m, n = m + 1 ∧ w.Nested False m v) : w.Dual (c.compare · u v) (c.compare · v u) := by
    obtain ⟨m, rfl, hu⟩ := hu
    obtain ⟨_, same, hv⟩ := hv
    obtain rfl := Nat.succ.inj same
    exact below m rfl u v hu hv
  obtain ⟨p, formx⟩ := hx.form
  obtain ⟨q, formy⟩ := hy.form
  by_cases alike : p.Alike q
  · cases alike with
    | number j k =>
      intro op
      have back := compareValues_number_settles formy formx c op.swapped
      rw [Number.holds_swapped] at back
      exact ⟨_, compareValues_number_settles formx formy c op, back, fun _ => rfl⟩
    | text s t =>
      cases formx
      cases formy
      refine compareValues_dual_of_methods fun op => ?_
      have back := compareMethod_text_settles t s c op.swapped w
      rw [op.holds_compareOfLessAndEq_swapped] at back
      exact ⟨_, compareMethod_text_settles s t c op w, back, fun _ => rfl⟩
    | set xs ys =>
      cases formx with
      | set held =>
      cases formy with
      | set held' =>
        refine compareValues_dual_of_methods fun op => ?_
        have back := compareMethod_set_settles held' held c op.swapped
        rw [compareSets_swapped] at back
        exact ⟨_, compareMethod_set_settles held held' c op, back, fun _ => rfl⟩
    | list xs ys =>
      cases formx with
      | list held =>
      cases formy with
      | list held' =>
        refine compareValues_dual_of_methods (compareMethod_list_dual held held' ?_)
        exact fun u hu v hv => both (hx.parts held hu) (hy.parts held' hv)
    | tuple xs ys =>
      cases formx with
      | tuple held =>
      cases formy with
      | tuple held' =>
        refine compareValues_dual_of_methods (compareMethod_tuple_dual held held' ?_)
        exact fun u hu v hv => both (hx.parts held hu) (hy.parts held' hv)
    | slice s t =>
      cases formx with
      | slice held =>
      cases formy with
      | slice held' =>
        refine compareValues_dual_of_methods (compareMethod_slice_dual held held' ?_)
        exact fun u hu v hv => both (hx.bounds held hu) (hy.bounds held' hv)
  · exact compareValues_unlike_dual formx formy alike c

/-- Values of ordinary forms compare alike both ways, however deep they are nested. -/
theorem compareValues_dual {n depth : Nat} (deep : n ≤ depth) (hx : w.Nested False n x)
    (hy : w.Nested False n y) :
    w.Dual (compareValues (.ofDepth depth) · x y) (compareValues (.ofDepth depth) · y x) := by
  induction n generalizing depth x y with
  | zero => exact compareValues_dual_of_below hx hy nofun
  | succ n ih =>
    cases depth with
    | zero => exact absurd deep (Nat.not_succ_le_zero n)
    | succ depth =>
      refine compareValues_dual_of_below hx hy fun m same u v hu hv => ?_
      obtain rfl := Nat.succ.inj same
      exact ih (Nat.le_of_succ_le_succ deep) hu hv

/-! ## Slices of any types -/

/-- What a slice reads as depends on what it was built from, and not on its type. -/
theorem Slice.bounds_eq_of_ofArguments {arguments : List Value} {s t : Slice}
    (hs : ofArguments s.lineage arguments = .ok s) (ht : ofArguments t.lineage arguments = .ok t) :
    t.bounds = s.bounds := by
  match arguments, hs, ht with
  | [_], hs, ht | [_, _], hs, ht | [_, _, _], hs, ht =>
    rw [← Except.ok.inj hs, ← Except.ok.inj ht]
    rfl

/--
Two lists of arguments, of ordinary forms nested to any depth, decide what a comparison of slices
built from them comes to: a truth value, or an error of the kind for wrong types, which it is never
for equality. The types of the two slices make no difference, and neither does it whether the
comparison is turned round.
-/
theorem compareValues_built_dual {n depth : Nat} (deep : n < depth) {xs ys : List Value}
    (hx : ∀ x ∈ xs, w.Nested False n x) (hy : ∀ y ∈ ys, w.Nested False n y) {a b : Value}
    (ha : w.Builds xs a) (hb : w.Builds ys b) (op : Comparison) :
    ∃ verdict : Option Bool,
      (op.isOrder = false → verdict.isSome = true) ∧
        ∀ a' b' : Value, w.Builds xs a' → w.Builds ys b' →
          (compareValues (.ofDepth depth) op a' b').Settles w verdict ∧
            (compareValues (.ofDepth depth) op.swapped b' a').Settles w verdict := by
  cases depth with
  | zero => exact absurd deep (Nat.not_lt_zero n)
  | succ depth =>
    obtain ⟨s, heldA, builtA⟩ := ha
    obtain ⟨t, heldB, builtB⟩ := hb
    have bounds : ∀ u ∈ s.bounds.toList, ∀ v ∈ t.bounds.toList,
        w.Dual ((Callbacks.ofDepth (depth + 1)).compare · u v)
          ((Callbacks.ofDepth (depth + 1)).compare · v u) := by
      intro u hu v hv
      obtain ⟨m, sameU, nestedU⟩ := (World.Builds.nested ⟨s, heldA, builtA⟩ hx).bounds heldA hu
      obtain ⟨m', sameV, nestedV⟩ := (World.Builds.nested ⟨t, heldB, builtB⟩ hy).bounds heldB hv
      obtain rfl := Nat.succ.inj sameU
      obtain rfl := Nat.succ.inj sameV
      exact compareValues_dual (Nat.le_of_lt_succ deep) nestedU nestedV
    obtain ⟨verdict, forth, back, known⟩ := compareTuples_dual bounds op
    refine ⟨verdict, known, ?_⟩
    rintro a' b' ⟨s', heldA', builtA'⟩ ⟨t', heldB', builtB'⟩
    rw [← Slice.bounds_eq_of_ofArguments builtA builtA',
      ← Slice.bounds_eq_of_ofArguments builtB builtB'] at forth back
    exact compareValues_settles_of_methods (compareMethod_slice_settles heldA' heldB' forth)
      (compareMethod_slice_settles heldB' heldA' back)

end

/--
Two tuples that hold the same float, which is not a number, and slices of both types that have one
of these as their start. Of the stops two are integers, and one has no order with the others.
-/
def World.mixed : World :=
  { World.initial .host with
    cells := #[.tuple [], .float "nan", .tuple [.object 1, .int 1], .tuple [.object 1, .int 1],
      .slice { lineage := .base, start := .object 2, stop := .int 5, step := .absent },
      .slice { lineage := .derived, start := .object 2, stop := .int 5, step := .absent },
      .slice { lineage := .base, start := .object 3, stop := .text "five", step := .absent },
      .slice { lineage := .derived, start := .object 3, stop := .text "five", step := .absent },
      .slice { lineage := .base, start := .object 3, stop := .int 9, step := .absent },
      .slice { lineage := .derived, start := .object 3, stop := .int 9, step := .absent }] }

/--
The starts tie, so the stops decide, whichever types the slices are of: two integers are ordered,
and an order of an integer and a text is refused.
-/
theorem compareValues_built_dual_mixed :
    (1 < 2) ∧ (∀ x ∈ [Value.object 2, .int 5], World.mixed.Nested False 1 x) ∧
      (∀ y ∈ [Value.object 3, .text "five"], World.mixed.Nested False 1 y) ∧
      (∀ z ∈ [Value.object 3, .int 9], World.mixed.Nested False 1 z) ∧
      World.mixed.Builds [.object 2, .int 5] (.object 4) ∧
      World.mixed.Builds [.object 3, .text "five"] (.object 6) ∧
      World.mixed.Builds [.object 3, .int 9] (.object 8) ∧
      (compareValues (.ofDepth 2) .lt (.object 4) (.object 7)).Settles .mixed none ∧
      (compareValues (.ofDepth 2) .gt (.object 7) (.object 4)).Settles .mixed none ∧
      (compareValues (.ofDepth 2) .lt (.object 5) (.object 6)).Settles .mixed none ∧
      (compareValues (.ofDepth 2) .lt (.object 4) (.object 9)).Settles .mixed (some true) ∧
      (compareValues (.ofDepth 2) .gt (.object 9) (.object 4)).Settles .mixed (some true) ∧
      (compareValues (.ofDepth 2) .lt (.object 5) (.object 8)).Settles .mixed (some true) := by
  have deep : 1 < 2 := by decide
  have items : ∀ x ∈ [Value.object 1, .int 1], World.mixed.Nested False 0 x := by
    rw [List.forall_mem_cons, List.forall_mem_singleton]
    exact ⟨.float rfl, .int 1⟩
  have hx : ∀ x ∈ [Value.object 2, .int 5], World.mixed.Nested False 1 x := by
    rw [List.forall_mem_cons, List.forall_mem_singleton]
    exact ⟨.tuple rfl items, .int 5⟩
  have hy : ∀ y ∈ [Value.object 3, .text "five"], World.mixed.Nested False 1 y := by
    rw [List.forall_mem_cons, List.forall_mem_singleton]
    exact ⟨.tuple rfl items, .text "five"⟩
  have hz : ∀ z ∈ [Value.object 3, .int 9], World.mixed.Nested False 1 z := by
    rw [List.forall_mem_cons, List.forall_mem_singleton]
    exact ⟨.tuple rfl items, .int 9⟩
  have baseA : World.mixed.Builds [.object 2, .int 5] (.object 4) := ⟨_, rfl, rfl⟩
  have derivedA : World.mixed.Builds [.object 2, .int 5] (.object 5) := ⟨_, rfl, rfl⟩
  have baseB : World.mixed.Builds [.object 3, .text "five"] (.object 6) := ⟨_, rfl, rfl⟩
  have derivedB : World.mixed.Builds [.object 3, .text "five"] (.object 7) := ⟨_, rfl, rfl⟩
  have baseC : World.mixed.Builds [.object 3, .int 9] (.object 8) := ⟨_, rfl, rfl⟩
  have derivedC : World.mixed.Builds [.object 3, .int 9] (.object 9) := ⟨_, rfl, rfl⟩
  obtain ⟨verdict, -, refused⟩ := compareValues_built_dual deep hx hy baseA baseB .lt
  obtain rfl : verdict = none := by
    cases verdict with
    | none => rfl
    | some answer => cases (refused _ _ baseA baseB).1
  obtain ⟨verdict, -, ordered⟩ := compareValues_built_dual deep hx hz baseA baseC .lt
  obtain rfl : verdict = some true := by
    cases verdict with
    | none => obtain ⟨error, -, run⟩ := (ordered _ _ baseA baseC).1; cases run
    | some answer => cases (ordered _ _ baseA baseC).1; rfl
  exact ⟨deep, hx, hy, hz, baseA, baseB, baseC,
    (refused _ _ baseA derivedB).1, (refused _ _ baseA derivedB).2, (refused _ _ derivedA baseB).1,
    (ordered _ _ baseA derivedC).1, (ordered _ _ baseA derivedC).2, (ordered _ _ derivedA baseC).1⟩

end Slicing
