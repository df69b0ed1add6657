import Mathlib.Data.Finset.Dedup
import Mathlib.Data.String.Basic
import Slicing.Proofs.Tuples

/-!
# What values stand for

A comparison of two ordinary values sees nothing of them but what they stand for: a truth value
stands for a number, and a set for its elements, in whatever order it lists them. What values stand
for is ordered, though only within a sort: numbers and texts in one line each, sets by inclusion.
What stands for nothing only equals itself.

* `compareValues_alike` — within a sort that has an order, a comparison says what the order says
* `compareValues_equality` — equality and inequality are known of any two ordinary values
* `compareValues_unlike` — an order is refused to values of two sorts, and to what is nothing
* `firstDifference_contents` — the first pair that does not tie stands for two different things
-/

namespace Slicing

/-! ## Comparisons in a partial order -/

namespace Comparison

variable {α : Type}

theorem relates_swapped [PartialOrder α] (op : Comparison) (x y : α) :
    op.swapped.Relates y x ↔ op.Relates x y := by
  cases op with
  | eq => exact eq_comm
  | ne => exact ne_comm
  | _ => exact Iff.rfl

theorem relates_self [PartialOrder α] (op : Comparison) (x : α) :
    op.Relates x x ↔ op.onTie = true := by
  cases op <;> simp [Relates, onTie]

/-- Two pairs that are ordered alike compare alike. -/
theorem relates_congr {β : Type} [PartialOrder α] [PartialOrder β] {x y : α} {u v : β}
    (below : x ≤ y ↔ u ≤ v) (above : y ≤ x ↔ v ≤ u) (op : Comparison) :
    op.Relates x y ↔ op.Relates u v := by
  have equal : x = y ↔ u = v := by rw [le_antisymm_iff, le_antisymm_iff, below, above]
  cases op with
  | lt => exact (lt_iff_le_not_ge.trans (by rw [below, above])).trans lt_iff_le_not_ge.symm
  | gt => exact (lt_iff_le_not_ge.trans (by rw [below, above])).trans lt_iff_le_not_ge.symm
  | le => exact below
  | ge => exact above
  | eq => exact equal
  | ne => exact not_congr equal

/-- What two things without any order between them are to each other: unequal. -/
theorem relates_of_not_le [PartialOrder α] {x y : α} (below : ¬x ≤ y) (above : ¬y ≤ x)
    (op : Comparison) : op.Relates x y ↔ op = ne := by
  have unequal : x ≠ y := fun equal => below equal.le
  cases op <;> simp [Relates, below, above, unequal, lt_iff_le_not_ge]

end Comparison

theorem Number.holds_ofInt (op : Comparison) (m n : Int) :
    (Number.ofInt m).holds op (Number.ofInt n) = op.holds (compareOfLessAndEq m n) := by
  have order : (Number.ofInt m).compare? (Number.ofInt n) = some (compareOfLessAndEq m n) := by
    simp only [Number.ofInt, Number.compare?, compareOfLessAndEq, Rat.intCast_lt_intCast,
      Option.some.injEq]
    grind
  rw [Number.holds, order]

/-- The elements of a set are listed in some order, which makes no difference. -/
theorem compareSets_eq_true (op : Comparison) (xs ys : List Int) :
    compareSets op xs ys = true ↔ op.Relates xs.toFinset ys.toFinset := by
  have inclusion (xs ys : List Int) :
      xs.all ys.contains = true ↔ xs.toFinset ≤ ys.toFinset := by
    simp [Finset.subset_iff]
  have below := inclusion xs ys
  have above := inclusion ys xs
  unfold compareSets
  generalize xs.all ys.contains = b at below ⊢
  generalize ys.all xs.contains = a at above ⊢
  have same : xs.toFinset = ys.toFinset ↔ b = true ∧ a = true :=
    le_antisymm_iff.trans (and_congr below.symm above.symm)
  cases op <;>
    simp [Comparison.Relates, lt_iff_le_not_ge, same, ← below, ← above, imp_iff_not_or]

/-! ## Contents -/

/-- What an ordinary value stands for. -/
inductive Content where
  | nothing
  | number (n : Int)
  | text (s : String)
  | set (elements : Finset Int)
  deriving DecidableEq

namespace Content

/-- The order within each sort. -/
protected def Le : Content → Content → Prop
  | nothing, nothing => True
  | number m, number n => m ≤ n
  | text s, text t => s ≤ t
  | set xs, set ys => xs ≤ ys
  | _, _ => False

instance : PartialOrder Content where
  le := Content.Le
  le_refl p := by cases p <;> simp [Content.Le]
  le_trans p q r pq qr := by
    cases p <;> cases q <;> cases r <;> first | exact le_trans pq qr | trivial
  le_antisymm p q pq qp := by
    cases p <;> cases q <;> first | exact congrArg _ (le_antisymm pq qp) | trivial

theorem number_le {m n : Int} : number m ≤ number n ↔ m ≤ n := Iff.rfl

theorem text_le {s t : String} : text s ≤ text t ↔ s ≤ t := Iff.rfl

theorem set_le {xs ys : Finset Int} : set xs ≤ set ys ↔ xs ≤ ys := Iff.rfl

/-- Whether two contents are of one sort, and of one in which there is an order. -/
inductive Alike : Content → Content → Prop where
  | number (m n : Int) : Alike (number m) (number n)
  | text (s t : String) : Alike (text s) (text t)
  | set (xs ys : Finset Int) : Alike (set xs) (set ys)

theorem Alike.symm {p q : Content} (h : p.Alike q) : q.Alike p := by
  cases h <;> constructor

/-- Different contents of which one is below the other are of one sort. -/
theorem alike_of_le {p q : Content} (ne : p ≠ q) (le : p ≤ q) : p.Alike q := by
  cases p <;> cases q <;> first | constructor | exact le.elim | exact absurd rfl ne

/-- Contents that are neither alike nor the same have no order between them. -/
theorem relates_of_unlike {p q : Content} (ne : p ≠ q) (unlike : ¬p.Alike q) (op : Comparison) :
    op.Relates p q ↔ op = .ne :=
  Comparison.relates_of_not_le (fun le => unlike (alike_of_le ne le))
    (fun le => unlike (alike_of_le ne.symm le).symm) op

/-- Two sets need not be comparable, but any other contents that are alike are. -/
theorem Alike.le_total {p q : Content} (h : p.Alike q)
    (sets : ¬∃ xs ys, p = Content.set xs ∧ q = Content.set ys) : p ≤ q ∨ q ≤ p := by
  cases h with
  | number m n => exact Int.le_total m n
  | text s t => exact String.le_total s t
  | set xs ys => exact absurd ⟨xs, ys, rfl, rfl⟩ sets

end Content

/-! ## Values and what they stand for -/

/-- The value is ordinary and stands for the content. -/
inductive World.StandsFor (w : World) : Value → Content → Prop where
  | null : StandsFor w .null .nothing
  | bool (b : Bool) : StandsFor w (.bool b) (.number b.toInt)
  | int (n : Int) : StandsFor w (.int n) (.number n)
  | text (s : String) : StandsFor w (.text s) (.text s)
  | set {a : Address} {xs : List Int} (held : w.cell? (.object a) = some (.set xs)) :
    StandsFor w (.object a) (.set xs.toFinset)

namespace World.StandsFor

variable {w : World} {x y : Value} {p q : Content}

theorem unique (hp : w.StandsFor x p) (hq : w.StandsFor x q) : p = q := by
  cases hp <;> cases hq <;> first | rfl | simp_all [World.cell?]

/-- Only one value stands for nothing. -/
theorem eq_null (h : w.StandsFor x .nothing) : x = .null := by
  cases h
  rfl

/-- Values of two sorts are not one value. -/
theorem eq_iff_of_unlike (hx : w.StandsFor x p) (hy : w.StandsFor y q) (unlike : ¬p.Alike q) :
    x = y ↔ p = q := by
  constructor
  · rintro rfl
    exact hx.unique hy
  · rintro rfl
    cases p with
    | nothing => rw [hx.eq_null, hy.eq_null]
    | number n => exact absurd (.number n n) unlike
    | text s => exact absurd (.text s s) unlike
    | set xs => exact absurd (.set xs xs) unlike

end World.StandsFor

/-! ## Asking a value -/

/-- The computation tells whether `P` holds, and does nothing besides. -/
def Eval.Tells (x : Eval Value) (w : World) (P : Prop) : Prop :=
  ∃ answer : Bool,
    x w = { outcome := .ok (.bool answer), events := [], world := w } ∧ (answer = true ↔ P)

section

variable {w : World} {x y : Value} {p q : Content}

/-- Within a sort that has an order, a value knows how it compares. -/
theorem compareMethod_alike (hx : w.StandsFor x p) (hy : w.StandsFor y q) (alike : p.Alike q)
    (c : Callbacks) (op : Comparison) : (compareMethod c op x y).Tells w (op.Relates p q) := by
  cases alike with
  | number m n =>
    have method : compareMethod c op x y w =
        { outcome := .ok (.bool (op.holds (compareOfLessAndEq m n))), events := []
          world := w } := by
      rw [← Number.holds_ofInt]
      cases hx <;> cases hy <;> rfl
    refine ⟨_, method, (Comparison.holds_compareOfLessAndEq op m n).trans ?_⟩
    exact (Comparison.relates_congr Content.number_le Content.number_le op).symm
  | text s t =>
    cases hx with
    | text =>
    cases hy with
    | text =>
    refine ⟨_, rfl, (Comparison.holds_compareOfLessAndEq op s t).trans ?_⟩
    exact (Comparison.relates_congr Content.text_le Content.text_le op).symm
  | set =>
    cases hx with
    | @set a xs heldx =>
    cases hy with
    | @set b ys heldy =>
    have method : compareMethod c op (.object a) (.object b) w =
        { outcome := .ok (.bool (compareSets op xs ys)), events := [], world := w } := by
      unfold compareMethod
      rw [Eval.bind_apply, Eval.world_apply]
      simp only [heldx, heldy]
      rfl
    refine ⟨_, method, (compareSets_eq_true op xs ys).trans ?_⟩
    exact (Comparison.relates_congr Content.set_le Content.set_le op).symm

/-- Of a value that is not of its sort, a value knows at most that it is the same one. -/
theorem compareMethod_unlike (hx : w.StandsFor x p) (hy : w.StandsFor y q) (unlike : ¬p.Alike q)
    (c : Callbacks) (op : Comparison) :
    compareMethod c op x y w =
      { outcome := .ok (compareIdentity op x y), events := [], world := w } := by
  cases hx with
  | null => cases hy <;> cases op <;> rfl
  | bool b => cases hy <;> first | exact absurd (.number _ _) unlike | (cases op <;> rfl)
  | int n => cases hy <;> first | exact absurd (.number _ _) unlike | (cases op <;> rfl)
  | text s => cases hy <;> first | exact absurd (.text _ _) unlike | (cases op <;> rfl)
  | set held =>
    unfold compareMethod
    rw [Eval.bind_apply, Eval.world_apply]
    simp only [held]
    cases hy <;> first | exact absurd (.set _ _) unlike | (cases op <;> rfl)

/-! ## Both operands -/

theorem compareIdentity_swapped (op : Comparison) (x y : Value) :
    compareIdentity op.swapped y x = compareIdentity op x y := by
  cases op with
  | eq => exact if_congr eq_comm rfl rfl
  | ne => exact if_congr eq_comm rfl rfl
  | _ => rfl

/-- Whatever a value knows by identity, the operator says when neither operand knows anything. -/
theorem compareUnknown_of_identity {op : Comparison}
    (known : compareIdentity op x y ≠ .notImplemented) :
    compareUnknown op x y = pure (compareIdentity op x y) := by
  unfold compareIdentity at known ⊢
  cases op with
  | eq =>
    by_cases same : x = y
    · simp [compareUnknown, same]
    · exact absurd (if_neg same) known
  | ne =>
    by_cases same : x = y
    · simp [compareUnknown, same]
    · exact absurd (if_neg same) known
  | _ => exact absurd rfl known

/-- A first answer need not be waited for if the second computation gives the same. -/
theorem orElseAsk_apply_of_pure {first second : Eval Value} {v : Value}
    (answers : first w = (pure v : Eval Value) w)
    (agree : v ≠ .notImplemented → second w = (pure v : Eval Value) w) :
    orElseAsk first second w = second w := by
  unfold orElseAsk
  rw [Eval.bind_apply, answers, Eval.pure_apply]
  dsimp only
  by_cases unknown : v = .notImplemented
  · rw [if_pos unknown, List.nil_append]
  · rw [if_neg unknown, agree unknown]
    rfl

/-- Within a sort that has an order, a comparison says what the order says. -/
theorem compareValues_alike (hx : w.StandsFor x p) (hy : w.StandsFor y q) (alike : p.Alike q)
    (c : Callbacks) (op : Comparison) : (compareValues c op x y).Tells w (op.Relates p q) := by
  obtain ⟨answer, left, means⟩ := compareMethod_alike hx hy alike c op
  obtain ⟨answer', right, means'⟩ := compareMethod_alike hy hx alike.symm c op.swapped
  have same : answer' = answer := by
    rw [Bool.eq_iff_iff, means', means, Comparison.relates_swapped]
  refine ⟨answer, ?_, means⟩
  -- it does not matter who is asked first, since both know
  cases refined : (w.kind y).refines (w.kind x) with
  | true => rw [compareValues_apply_of_right refined (by simp [right]), right, same]
  | false => rw [compareValues_apply_of_left refined (by simp [left]), left]

/-- Neither of two values of different sorts knows the other. -/
theorem compareValues_unlike (hx : w.StandsFor x p) (hy : w.StandsFor y q) (unlike : ¬p.Alike q)
    (c : Callbacks) (op : Comparison) : compareValues c op x y w = compareUnknown op x y w := by
  have left := compareMethod_unlike hx hy unlike c op
  have right := compareMethod_unlike hy hx (fun alike => unlike alike.symm) c op.swapped
  rw [compareIdentity_swapped] at right
  have unknown (known : compareIdentity op x y ≠ .notImplemented) :
      compareUnknown op x y w = (pure (compareIdentity op x y) : Eval Value) w := by
    rw [compareUnknown_of_identity known]
  have second {method : Eval Value} (method_apply : method w = _) :
      orElseAsk method (compareUnknown op x y) w = compareUnknown op x y w :=
    orElseAsk_apply_of_pure method_apply unknown
  unfold compareValues
  rw [Eval.bind_apply, Eval.world_apply]
  dsimp only
  split
  · rw [orElseAsk_apply_of_pure right, second left, List.nil_append]
    intro known
    rw [second left, unknown known]
  · rw [orElseAsk_apply_of_pure left, second right, List.nil_append]
    intro known
    rw [second right, unknown known]

/-- Equality and inequality are known of any two ordinary values. -/
theorem compareValues_equality (hx : w.StandsFor x p) (hy : w.StandsFor y q) (c : Callbacks)
    (op : Comparison) (equality : op.isOrder = false) :
    (compareValues c op x y).Tells w (op.Relates p q) := by
  by_cases alike : p.Alike q
  · exact compareValues_alike hx hy alike c op
  · have same := hx.eq_iff_of_unlike hy alike
    rw [Eval.Tells, compareValues_unlike hx hy alike]
    cases op with
    | eq => exact ⟨x == y, rfl, beq_iff_eq.trans same⟩
    | ne => exact ⟨x != y, rfl, bne_iff_ne.trans (not_congr same)⟩
    | _ => simp [Comparison.isOrder] at equality

/-- An order is refused to values of two sorts, and to what stands for nothing. -/
theorem compareValues_refused (hx : w.StandsFor x p) (hy : w.StandsFor y q) (unlike : ¬p.Alike q)
    (c : Callbacks) {op : Comparison} (order : op.isOrder = true) :
    compareValues c op x y w = Eval.raise (.unordered op (w.kind x) (w.kind y)) w := by
  rw [compareValues_unlike hx hy unlike]
  cases op with
  | eq => simp [Comparison.isOrder] at order
  | ne => simp [Comparison.isOrder] at order
  | _ => rfl

/-! ## Pairs -/

/-- Each comparison that is called is made by the operator, one level below. -/
theorem Callbacks.compare_ofDepth (depth : Nat) (op : Comparison) (x y : Value) :
    (Callbacks.ofDepth (depth + 1)).compare op x y = compareValues (.ofDepth depth) op x y :=
  rfl

/-- Two ordinary values tie if they stand for the same. -/
theorem identicalOrEqual_apply (hx : w.StandsFor x p) (hy : w.StandsFor y q) (depth : Nat) :
    identicalOrEqual (.ofDepth (depth + 1)) x y w =
      { outcome := .ok (decide (p = q)), events := [], world := w } := by
  unfold identicalOrEqual
  by_cases identical : x = y
  · subst identical
    rw [if_pos rfl, decide_eq_true (hx.unique hy), Eval.pure_apply]
  · obtain ⟨answer, run, means⟩ := compareValues_equality hx hy (.ofDepth depth) .eq rfl
    have equal : answer = decide (p = q) := by
      rw [Bool.eq_iff_iff, means, decide_eq_true_iff]
      exact Iff.rfl
    rw [if_neg identical, Callbacks.compare_ofDepth, Eval.bind_apply, run, equal]
    rfl

/-- Pairs that tie are passed over. -/
theorem firstDifference_append (depth : Nat) {tied : List (Value × Value)}
    (tie : ∀ pair ∈ tied, ∃ p, w.StandsFor pair.1 p ∧ w.StandsFor pair.2 p)
    (pairs : List (Value × Value)) :
    firstDifference (.ofDepth (depth + 1)) (tied ++ pairs) w =
      firstDifference (.ofDepth (depth + 1)) pairs w := by
  induction tied with
  | nil => rfl
  | cons pair tied ih =>
    obtain ⟨p, hx, hy⟩ := tie pair List.mem_cons_self
    rw [List.cons_append, firstDifference_eq_cons, Eval.bind_apply, identicalOrEqual_apply hx hy,
      decide_eq_true rfl]
    exact ih fun pair mem => tie pair (List.mem_cons_of_mem _ mem)

/-- A pair that does not tie is the one that is looked for. -/
theorem firstDifference_cons (depth : Nat) (hx : w.StandsFor x p) (hy : w.StandsFor y q)
    (ne : p ≠ q) (pairs : List (Value × Value)) :
    firstDifference (.ofDepth (depth + 1)) ((x, y) :: pairs) w =
      { outcome := .ok (some (x, y)), events := [], world := w } := by
  rw [firstDifference_eq_cons, Eval.bind_apply, identicalOrEqual_apply hx hy, decide_eq_false ne]
  rfl

end

end Slicing
