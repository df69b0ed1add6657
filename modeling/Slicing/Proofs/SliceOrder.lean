import Mathlib.Data.Prod.Lex
import Slicing.Proofs.Contents

/-!
# The order of slices

Slices with ordinary bounds are ordered by what their bounds stand for, field by field: they compare
as triples in a lexicographic order do. That order is partial, since its fields are, and where two
triples differ first in contents of different sorts they have no place in it. There, and only there,
a comparison by order is refused.

* `compareValues_slice_tells` — a comparison of slices says what that order says
* `compareValues_slice_refused` — unless the deciding field holds contents that are not alike
* `compareValues_slice_lawful` — so the comparisons obey the laws of an order
-/

namespace Slicing

/-! ## The deciding field -/

/-- The fields that are written before a field. -/
def Field.before : Field → List Field
  | .start => []
  | .stop => [.start]
  | .step => [.start, .stop]

/-- What the bounds of a slice stand for. -/
abbrev Contents : Type :=
  Field → Content

namespace Contents

variable {k l : Contents} {field : Field}

/-- Two triples differ in this field, and in no field before it. -/
structure DifferFirst (k l : Contents) (field : Field) : Prop where
  unequal : k field ≠ l field
  equal_before : ∀ earlier ∈ field.before, k earlier = l earlier

theorem eq_or_differFirst (k l : Contents) : k = l ∨ ∃ field, DifferFirst k l field := by
  by_cases start : k .start = l .start
  · by_cases stop : k .stop = l .stop
    · by_cases step : k .step = l .step
      · left
        funext field
        cases field <;> assumption
      · exact .inr ⟨.step, step, by simp [Field.before, start, stop]⟩
    · exact .inr ⟨.stop, stop, by simp [Field.before, start]⟩
  · exact .inr ⟨.start, start, by simp [Field.before]⟩

/-- The contents in the order in which they are written, ordered lexicographically. -/
def key (k : Contents) : Content ×ₗ Content ×ₗ Content :=
  toLex (k .start, toLex (k .stop, k .step))

end Contents

namespace Comparison

variable {α β : Type} [PartialOrder α] [PartialOrder β]

/-- Where the first components are the same, the others decide. -/
theorem relates_toLex_of_eq (op : Comparison) (x : α) (u v : β) :
    op.Relates (toLex (x, u)) (toLex (x, v)) ↔ op.Relates u v :=
  relates_congr (by simp [Prod.Lex.toLex_le_toLex]) (by simp [Prod.Lex.toLex_le_toLex]) op

/-- Where the first components differ, they decide. -/
theorem relates_toLex_of_ne (op : Comparison) {x y : α} (ne : x ≠ y) (u v : β) :
    op.Relates (toLex (x, u)) (toLex (y, v)) ↔ op.Relates x y :=
  relates_congr (by simp [Prod.Lex.toLex_le_toLex, ne, lt_iff_le_and_ne])
    (by simp [Prod.Lex.toLex_le_toLex, ne.symm, lt_iff_le_and_ne]) op

end Comparison

/-- The first field in which two triples differ decides between them. -/
theorem Contents.relates_key_iff {k l : Contents} {field : Field} (h : DifferFirst k l field)
    (op : Comparison) : op.Relates k.key l.key ↔ op.Relates (k field) (l field) := by
  unfold key
  cases field with
  | start => rw [Comparison.relates_toLex_of_ne op h.unequal]
  | stop =>
    have start := h.equal_before .start (by simp [Field.before])
    rw [start, Comparison.relates_toLex_of_eq, Comparison.relates_toLex_of_ne op h.unequal]
  | step =>
    have start := h.equal_before .start (by simp [Field.before])
    have stop := h.equal_before .stop (by simp [Field.before])
    rw [start, stop, Comparison.relates_toLex_of_eq, Comparison.relates_toLex_of_eq]

/-! ## Triples of bounds -/

/-- The bounds are ordinary and stand for the contents. -/
def World.StandFor (w : World) (b : Bounds) (k : Contents) : Prop :=
  ∀ field, w.StandsFor (b.get field) (k field)

section

variable {w : World} {b b' : Bounds} {k l : Contents}

theorem firstDifference_of_eq (depth : Nat) (hb : w.StandFor b k) (hb' : w.StandFor b' k) :
    firstDifference (.ofDepth (depth + 1)) (b.pairs b') w =
      { outcome := .ok none, events := [], world := w } := by
  have tie : ∀ pair ∈ b.pairs b', ∃ p, w.StandsFor pair.1 p ∧ w.StandsFor pair.2 p := by
    intro pair mem
    simp only [Bounds.pairs, Bounds.toList, List.zip_cons_cons, List.zip_nil_right, List.mem_cons,
      List.not_mem_nil, or_false] at mem
    obtain rfl | rfl | rfl := mem
    · exact ⟨_, hb .start, hb' .start⟩
    · exact ⟨_, hb .stop, hb' .stop⟩
    · exact ⟨_, hb .step, hb' .step⟩
  have pairs := firstDifference_append depth tie []
  rw [List.append_nil] at pairs
  rw [pairs]
  rfl

theorem firstDifference_of_differFirst (depth : Nat) (hb : w.StandFor b k) (hb' : w.StandFor b' l)
    {field : Field} (h : k.DifferFirst l field) :
    firstDifference (.ofDepth (depth + 1)) (b.pairs b') w =
      { outcome := .ok (some (b.get field, b'.get field)), events := [], world := w } := by
  have split : ∃ rest, b.pairs b' =
      (field.before.map fun earlier => (b.get earlier, b'.get earlier)) ++
        (b.get field, b'.get field) :: rest := by
    cases field <;> exact ⟨_, rfl⟩
  obtain ⟨rest, pairs⟩ := split
  have tie : ∀ pair ∈ field.before.map fun earlier => (b.get earlier, b'.get earlier),
      ∃ p, w.StandsFor pair.1 p ∧ w.StandsFor pair.2 p := by
    intro pair mem
    obtain ⟨earlier, before, rfl⟩ := List.mem_map.mp mem
    exact ⟨k earlier, hb earlier, h.equal_before earlier before ▸ hb' earlier⟩
  rw [pairs, firstDifference_append depth tie,
    firstDifference_cons depth (hb field) (hb' field) h.unequal]

theorem Bounds.compare_of_eq (depth : Nat) (hb : w.StandFor b k) (hb' : w.StandFor b' k)
    (op : Comparison) :
    b.compare (.ofDepth (depth + 1)) op b' w =
      { outcome := .ok op.onTie, events := [], world := w } := by
  rw [Bounds.compare_eq, compareTuples_bounds, bind_assoc, Eval.bind_apply,
    firstDifference_of_eq depth hb hb']
  rfl

/-- The answer of the deciding field is tested and handed on. -/
theorem Bounds.compare_of_differFirst (depth : Nat) (hb : w.StandFor b k) (hb' : w.StandFor b' l)
    {field : Field} (h : k.DifferFirst l field) (op : Comparison) :
    b.compare (.ofDepth (depth + 1)) op b' w =
      (do
        let answer ← decideOn (.ofDepth (depth + 1)) op (b.get field) (b'.get field)
        truth (.ofDepth (depth + 1)) answer) w := by
  rw [Bounds.compare_eq, compareTuples_bounds, bind_assoc, Eval.bind_apply,
    firstDifference_of_differFirst depth hb hb' h]
  rfl

/-- If the deciding field holds contents that are alike, the answer is that of the order. -/
theorem decideOn_tells (depth : Nat) {x y : Value} {p q : Content} (hx : w.StandsFor x p)
    (hy : w.StandsFor y q) (ne : p ≠ q) {op : Comparison}
    (answers : op.isOrder = true → p.Alike q) :
    (decideOn (.ofDepth (depth + 1)) op x y).Tells w (op.Relates p q) := by
  cases op with
  | eq => exact ⟨false, rfl, by simp [Comparison.Relates, ne]⟩
  | ne => exact ⟨true, rfl, by simp [Comparison.Relates, ne]⟩
  | _ => exact compareValues_alike hx hy (answers rfl) (.ofDepth depth) _

/-! ## Slices -/

variable {a b : Value} {s t : Slice}

/-- Of two slices of one lineage the left one is asked, and knows the answer. -/
theorem compareValues_slice_apply (ha : w.cell? a = some (.slice s))
    (hb : w.cell? b = some (.slice t)) (lineage : t.lineage = s.lineage) (c : Callbacks)
    (op : Comparison) :
    compareValues c op a b w =
      (do return Value.bool (← s.bounds.compare c op t.bounds) : Eval Value) w := by
  have alike : (Cell.slice t).kind = (Cell.slice s).kind := congrArg Kind.slice lineage
  rw [compareValues_apply_of_known ha hb alike (compareMethod_slice_known ha hb c op),
    compareMethod_slice_apply ha hb]

/-- The value holds a slice of the lineage, whose bounds are ordinary and stand for the contents. -/
structure World.HoldsOrdinary (w : World) (lineage : Lineage) (a : Value) (s : Slice)
    (k : Contents) : Prop where
  held : w.cell? a = some (.slice s)
  lineage : s.lineage = lineage
  bounds : w.StandFor s.bounds k

variable {lineage : Lineage}

/-- A comparison of slices says what the order of their contents says. -/
theorem compareValues_slice_tells (depth : Nat) (ha : w.HoldsOrdinary lineage a s k)
    (hb : w.HoldsOrdinary lineage b t l) (op : Comparison)
    (answers : ∀ field, k.DifferFirst l field → op.isOrder = true → (k field).Alike (l field)) :
    (compareValues (.ofDepth (depth + 1)) op a b).Tells w (op.Relates k.key l.key) := by
  rw [Eval.Tells, compareValues_slice_apply ha.held hb.held (hb.lineage.trans ha.lineage.symm),
    Eval.bind_apply]
  obtain rfl | ⟨field, differ⟩ := k.eq_or_differFirst l
  · rw [Bounds.compare_of_eq depth ha.bounds hb.bounds]
    exact ⟨op.onTie, rfl, (op.relates_self _).symm⟩
  · obtain ⟨answer, decided, means⟩ := decideOn_tells depth (ha.bounds field) (hb.bounds field)
      differ.unequal (answers field differ)
    rw [Bounds.compare_of_differFirst depth ha.bounds hb.bounds differ, Eval.bind_apply, decided]
    exact ⟨answer, rfl, means.trans (Contents.relates_key_iff differ op).symm⟩

/-- If the deciding field holds contents that are not alike, an order is refused. -/
theorem compareValues_slice_refused (depth : Nat) (ha : w.HoldsOrdinary lineage a s k)
    (hb : w.HoldsOrdinary lineage b t l) {field : Field} (differ : k.DifferFirst l field)
    (unlike : ¬(k field).Alike (l field)) {op : Comparison} (order : op.isOrder = true) :
    compareValues (.ofDepth (depth + 1)) op a b w =
      { outcome := .error (.raised
          (.unordered op (w.kind (s.bounds.get field)) (w.kind (t.bounds.get field))))
        events := []
        world := w } := by
  rw [compareValues_slice_apply ha.held hb.held (hb.lineage.trans ha.lineage.symm),
    Eval.bind_apply, Bounds.compare_of_differFirst depth ha.bounds hb.bounds differ,
    decideOn_of_isOrder order, Eval.bind_apply, Callbacks.compare_ofDepth,
    compareValues_refused (ha.bounds field) (hb.bounds field) unlike _ order]
  rfl

end

/-! ## The laws -/

/-- The comparison answers, without calling anything and without a change to the world. -/
def Answers (c : Callbacks) (w : World) (op : Comparison) (a b : Value) (answer : Bool) : Prop :=
  compareValues c op a b w = { outcome := .ok (.bool answer), events := [], world := w }

/-- The comparison raises an error of the kind for wrong types. -/
def Refuses (c : Callbacks) (w : World) (op : Comparison) (a b : Value) : Prop :=
  ∃ error, error.kind = .type ∧
    compareValues c op a b w = { outcome := .error (.raised error), events := [], world := w }

/-- The bounds in this field are the first of two triples that say they are unequal. -/
structure FirstUnequal (c : Callbacks) (w : World) (b b' : Bounds) (field : Field) : Prop where
  unequal : Answers c w .eq (b.get field) (b'.get field) false
  equal_before : ∀ earlier ∈ field.before, Answers c w .eq (b.get earlier) (b'.get earlier) true

/-- Both values are numbers, or both are texts, or both are sets. -/
def World.Alike (w : World) (x y : Value) : Prop :=
  (w.kind x ∈ [.bool, .int] ∧ w.kind y ∈ [.bool, .int]) ∨
    (w.kind x = .text ∧ w.kind y = .text) ∨ (w.kind x = .set ∧ w.kind y = .set)

section

variable {c : Callbacks} {w : World} {op : Comparison} {a b : Value}

theorem answers_iff_of_tells {P : Prop} (h : (compareValues c op a b).Tells w P) (answer : Bool) :
    Answers c w op a b answer ↔ (answer = true ↔ P) := by
  obtain ⟨given, run, means⟩ := h
  rw [Answers, run, ← means]
  cases answer <;> cases given <;> simp

theorem not_refuses_of_tells {P : Prop} (h : (compareValues c op a b).Tells w P) :
    ¬Refuses c w op a b := by
  obtain ⟨answer, run, -⟩ := h
  rintro ⟨error, -, refused⟩
  simp [run] at refused

end

section

variable {w : World} {x y : Value} {p q : Content}

/-- The kind of an ordinary value is that of what it stands for. -/
theorem World.StandsFor.kind_iff (h : w.StandsFor x p) :
    (w.kind x ∈ [.bool, .int] ↔ ∃ n, p = .number n) ∧
      (w.kind x = .text ↔ ∃ s, p = .text s) ∧ (w.kind x = .set ↔ ∃ xs, p = .set xs) := by
  cases h with
  | set held => simp [World.kind_of_cell? held, Cell.kind]
  | _ => simp [World.kind]

theorem World.alike_iff (hx : w.StandsFor x p) (hy : w.StandsFor y q) :
    w.Alike x y ↔ p.Alike q := by
  obtain ⟨numberx, textx, setx⟩ := hx.kind_iff
  obtain ⟨numbery, texty, sety⟩ := hy.kind_iff
  rw [World.Alike, numberx, numbery, textx, texty, setx, sety]
  constructor
  · rintro (⟨⟨m, rfl⟩, n, rfl⟩ | ⟨⟨s, rfl⟩, t, rfl⟩ | ⟨⟨xs, rfl⟩, ys, rfl⟩)
    · exact .number m n
    · exact .text s t
    · exact .set xs ys
  · rintro (⟨m, n⟩ | ⟨s, t⟩ | ⟨xs, ys⟩)
    · exact .inl ⟨⟨m, rfl⟩, n, rfl⟩
    · exact .inr (.inl ⟨⟨s, rfl⟩, t, rfl⟩)
    · exact .inr (.inr ⟨⟨xs, rfl⟩, ys, rfl⟩)

end

section

variable {w : World} {lineage : Lineage} {a b : Value} {s t : Slice} {k l : Contents}

theorem firstUnequal_iff (depth : Nat) {b b' : Bounds} (hb : w.StandFor b k)
    (hb' : w.StandFor b' l) (field : Field) :
    FirstUnequal (.ofDepth depth) w b b' field ↔ k.DifferFirst l field := by
  have equality (field : Field) (answer : Bool) :
      Answers (.ofDepth depth) w .eq (b.get field) (b'.get field) answer ↔
        (answer = true ↔ k field = l field) :=
    answers_iff_of_tells (compareValues_equality (hb field) (hb' field) _ .eq rfl) answer
  constructor
  · rintro ⟨unequal, before⟩
    exact ⟨by simpa using (equality field false).mp unequal,
      fun earlier mem => by simpa using (equality earlier true).mp (before earlier mem)⟩
  · rintro ⟨unequal, before⟩
    exact ⟨(equality field false).mpr (by simpa using unequal),
      fun earlier mem => (equality earlier true).mpr (by simpa using before earlier mem)⟩

/-- The order of the contents says which comparisons answer that they hold. -/
theorem answers_true_iff (depth : Nat) (ha : w.HoldsOrdinary lineage a s k)
    (hb : w.HoldsOrdinary lineage b t l) (op : Comparison) :
    Answers (.ofDepth (depth + 1)) w op a b true ↔ op.Relates k.key l.key := by
  by_cases answers :
      ∀ field, k.DifferFirst l field → op.isOrder = true → (k field).Alike (l field)
  · rw [answers_iff_of_tells (compareValues_slice_tells depth ha hb op answers)]
    simp
  · push Not at answers
    obtain ⟨field, differ, order, unlike⟩ := answers
    rw [Answers, compareValues_slice_refused depth ha hb differ unlike order,
      Contents.relates_key_iff differ, Content.relates_of_unlike differ.unequal unlike]
    constructor
    · simp
    · rintro rfl
      simp [Comparison.isOrder] at order

theorem refuses_iff (depth : Nat) (ha : w.HoldsOrdinary lineage a s k)
    (hb : w.HoldsOrdinary lineage b t l) {op : Comparison} (order : op.isOrder = true) :
    Refuses (.ofDepth (depth + 1)) w op a b ↔
      ∃ field, k.DifferFirst l field ∧ ¬(k field).Alike (l field) := by
  constructor
  · intro refused
    by_contra answers
    push Not at answers
    have tells := compareValues_slice_tells depth ha hb op
      fun field differ _ => answers field differ
    exact not_refuses_of_tells tells refused
  · rintro ⟨field, differ, unlike⟩
    exact ⟨_, rfl, compareValues_slice_refused depth ha hb differ unlike order⟩

/-- An order that is not refused comes to an answer. -/
theorem slice_order_answers (depth : Nat) (ha : w.HoldsOrdinary lineage a s k)
    (hb : w.HoldsOrdinary lineage b t l) {op : Comparison} (order : op.isOrder = true)
    (answered : ¬Refuses (.ofDepth (depth + 1)) w op a b) :
    ∃ answer, Answers (.ofDepth (depth + 1)) w op a b answer := by
  rw [refuses_iff depth ha hb order] at answered
  push Not at answered
  obtain ⟨answer, run, -⟩ :=
    compareValues_slice_tells depth ha hb op fun field differ _ => answered field differ
  exact ⟨answer, run⟩

/-- Equality is known of any two slices, and inequality says the opposite. -/
theorem slice_equality_answers (depth : Nat) (ha : w.HoldsOrdinary lineage a s k)
    (hb : w.HoldsOrdinary lineage b t l) :
    ∃ equal, Answers (.ofDepth (depth + 1)) w .eq a b equal ∧
      Answers (.ofDepth (depth + 1)) w .ne a b (!equal) := by
  have eq := compareValues_slice_tells depth ha hb .eq fun _ _ order => nomatch order
  have ne := compareValues_slice_tells depth ha hb .ne fun _ _ order => nomatch order
  refine ⟨decide (k.key = l.key), (answers_iff_of_tells eq _).mpr ?_,
    (answers_iff_of_tells ne _).mpr ?_⟩
  · simp [Comparison.Relates]
  · simp [Comparison.Relates]

/-- If an order is not refused, one of the two slices comes first unless two sets decide. -/
theorem slice_order_total (depth : Nat) (ha : w.HoldsOrdinary lineage a s k)
    (hb : w.HoldsOrdinary lineage b t l) {op : Comparison} (order : op.isOrder = true)
    (answered : ¬Refuses (.ofDepth (depth + 1)) w op a b)
    (sets : ∀ field, k.DifferFirst l field → ¬∃ xs ys, k field = .set xs ∧ l field = .set ys) :
    Answers (.ofDepth (depth + 1)) w .lt a b true ∨
      Answers (.ofDepth (depth + 1)) w .eq a b true ∨
      Answers (.ofDepth (depth + 1)) w .gt a b true := by
  rw [answers_true_iff depth ha hb, answers_true_iff depth ha hb, answers_true_iff depth ha hb]
  obtain rfl | ⟨field, differ⟩ := k.eq_or_differFirst l
  · exact .inr (.inl rfl)
  · have alike : (k field).Alike (l field) := by
      by_contra unlike
      exact answered ((refuses_iff depth ha hb order).mpr ⟨field, differ, unlike⟩)
    rw [Contents.relates_key_iff differ, Contents.relates_key_iff differ,
      Contents.relates_key_iff differ]
    obtain below | above := alike.le_total (sets field differ)
    · exact .inl (below.lt_of_ne differ.unequal)
    · exact .inr (.inr (above.lt_of_ne differ.unequal.symm))

end

/-- Every bound of the slice, as it reads from outside, is ordinary. -/
def World.Ordinary (w : World) (s : Slice) : Prop :=
  ∀ field, ∃ p, w.StandsFor (s.bounds.get field) p

/--
Slices of one lineage with ordinary bounds are compared lawfully. Equality is an equivalence, and
inequality its opposite. An order is refused, whichever it is, exactly if the first bounds that are
unequal are not both numbers, both texts or both sets. Otherwise the orders fit each other and
equality, and one of the slices comes first unless that field holds two sets. Of two orders in a
row, both strict or both not, the third is not refused and holds.
-/
theorem compareValues_slice_lawful (depth : Nat) {w : World} {lineage : Lineage} {a b d : Value}
    {s t u : Slice} (ha : w.cell? a = some (.slice s)) (hb : w.cell? b = some (.slice t))
    (hd : w.cell? d = some (.slice u)) (lineage_s : s.lineage = lineage)
    (lineage_t : t.lineage = lineage) (lineage_u : u.lineage = lineage)
    (ordinary_s : w.Ordinary s) (ordinary_t : w.Ordinary t) (ordinary_u : w.Ordinary u) :
    let answers := Answers (.ofDepth (depth + 1)) w
    let refuses := Refuses (.ofDepth (depth + 1)) w
    let decides := FirstUnequal (.ofDepth depth) w s.bounds t.bounds
    ((∃ equal, answers .eq a b equal ∧ answers .ne a b (!equal)) ∧
      answers .eq a a true ∧
      (answers .eq a b true → answers .eq b a true) ∧
      (answers .eq a b true → answers .eq b d true → answers .eq a d true)) ∧
    (∀ op, op.isOrder = true →
      (refuses op a b ↔
        ∃ field, decides field ∧ ¬w.Alike (s.bounds.get field) (t.bounds.get field)) ∧
      (¬refuses op a b → ∃ answer, answers op a b answer)) ∧
    ((answers .le a b true ↔ answers .lt a b true ∨ answers .eq a b true) ∧
      (answers .ge a b true ↔ answers .gt a b true ∨ answers .eq a b true) ∧
      ¬(answers .lt a b true ∧ answers .eq a b true) ∧
      ¬(answers .lt a b true ∧ answers .gt a b true) ∧
      ¬(answers .eq a b true ∧ answers .gt a b true) ∧
      (∀ op, op.isOrder = true → ¬refuses op a b →
        (∀ field, decides field →
          ¬(w.kind (s.bounds.get field) = .set ∧ w.kind (t.bounds.get field) = .set)) →
        answers .lt a b true ∨ answers .eq a b true ∨ answers .gt a b true)) ∧
    ((answers .lt a b true → answers .lt b d true → answers .lt a d true) ∧
      (answers .le a b true → answers .le b d true → answers .le a d true)) := by
  choose k hk using ordinary_s
  choose l hl using ordinary_t
  choose m hm using ordinary_u
  have holdsa : w.HoldsOrdinary lineage a s k := ⟨ha, lineage_s, hk⟩
  have holdsb : w.HoldsOrdinary lineage b t l := ⟨hb, lineage_t, hl⟩
  have holdsd : w.HoldsOrdinary lineage d u m := ⟨hd, lineage_u, hm⟩
  have ab := answers_true_iff depth holdsa holdsb
  have bd := answers_true_iff depth holdsb holdsd
  have ad := answers_true_iff depth holdsa holdsd
  have deciding := firstUnequal_iff depth hk hl
  intro answers refuses decides
  refine ⟨⟨slice_equality_answers depth holdsa holdsb, ?_, ?_, ?_⟩, fun op order => ⟨?_, ?_⟩,
    ⟨?_, ?_, ?_, ?_, ?_, ?_⟩, ?_, ?_⟩
  · exact (answers_true_iff depth holdsa holdsa .eq).mpr rfl
  · intro equal
    exact (answers_true_iff depth holdsb holdsa .eq).mpr ((ab .eq).mp equal).symm
  · intro equal equal'
    exact (ad .eq).mpr (((ab .eq).mp equal).trans ((bd .eq).mp equal'))
  · refine (refuses_iff depth holdsa holdsb order).trans (exists_congr fun field => ?_)
    rw [World.alike_iff (hk field) (hl field)]
    exact and_congr_left' (deciding field).symm
  · exact slice_order_answers depth holdsa holdsb order
  · exact ((ab .le).trans le_iff_lt_or_eq).trans (or_congr (ab .lt).symm (ab .eq).symm)
  · refine (ab .ge).trans (le_iff_lt_or_eq.trans (or_congr (ab .gt).symm ?_))
    exact eq_comm.trans (ab .eq).symm
  · rintro ⟨less, equal⟩
    exact ((ab .lt).mp less).ne ((ab .eq).mp equal)
  · rintro ⟨less, greater⟩
    exact ((ab .lt).mp less).asymm ((ab .gt).mp greater)
  · rintro ⟨equal, greater⟩
    exact ((ab .gt).mp greater).ne' ((ab .eq).mp equal)
  · intro op order answered sets
    refine slice_order_total depth holdsa holdsb order answered fun field differ => ?_
    rintro ⟨xs, ys, setx, sety⟩
    exact sets field ((deciding field).mpr differ)
      ⟨(hk field).kind_iff.2.2.mpr ⟨xs, setx⟩, (hl field).kind_iff.2.2.mpr ⟨ys, sety⟩⟩
  · intro less less'
    exact (ad .lt).mpr (((ab .lt).mp less).trans ((bd .lt).mp less'))
  · intro less less'
    exact (ad .le).mpr (le_trans ((ab .le).mp less) ((bd .le).mp less'))

/-- Three slices that tie in their start and their stop, and have larger and larger steps. -/
def World.inclusions : World :=
  { World.initial .host with
    cells := #[.tuple [], .set [1], .set [2, 1], .set [1, 3, 2],
      .slice { lineage := .base, start := .absent, stop := .int 1, step := .object 1 },
      .slice { lineage := .base, start := .null, stop := .bool true, step := .object 2 },
      .slice { lineage := .base, start := .absent, stop := .int 1, step := .object 3 }] }

/-- The steps decide: each is a proper part of the next one. -/
theorem compareValues_slice_lawful_inclusions :
    Answers (.ofDepth 1) .inclusions .lt (.object 4) (.object 5) true ∧
      Answers (.ofDepth 1) .inclusions .lt (.object 5) (.object 6) true ∧
      Answers (.ofDepth 1) .inclusions .lt (.object 4) (.object 6) true ∧
      Answers (.ofDepth 1) .inclusions .le (.object 4) (.object 5) true := by
  have ordinary_s : World.inclusions.Ordinary
      { lineage := .base, start := .absent, stop := .int 1, step := .object 1 }
    | .start => ⟨_, .null⟩
    | .stop => ⟨_, .int 1⟩
    | .step => ⟨_, .set rfl⟩
  have ordinary_t : World.inclusions.Ordinary
      { lineage := .base, start := .null, stop := .bool true, step := .object 2 }
    | .start => ⟨_, .null⟩
    | .stop => ⟨_, .bool true⟩
    | .step => ⟨_, .set rfl⟩
  have ordinary_u : World.inclusions.Ordinary
      { lineage := .base, start := .absent, stop := .int 1, step := .object 3 }
    | .start => ⟨_, .null⟩
    | .stop => ⟨_, .int 1⟩
    | .step => ⟨_, .set rfl⟩
  obtain ⟨-, -, ⟨orders, -⟩, trans, -⟩ :=
    compareValues_slice_lawful 0 (w := .inclusions) (a := .object 4) (b := .object 5)
      (d := .object 6) rfl rfl rfl rfl rfl rfl ordinary_s ordinary_t ordinary_u
  have first : Answers (.ofDepth 1) .inclusions .lt (.object 4) (.object 5) true := rfl
  have second : Answers (.ofDepth 1) .inclusions .lt (.object 5) (.object 6) true := rfl
  exact ⟨first, second, trans first second, orders.mpr (.inl first)⟩

end Slicing
