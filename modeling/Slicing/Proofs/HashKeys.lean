import Slicing.Hashing
import Slicing.Proofs.Forms
import Slicing.Proofs.Inquiries

/-!
# Keys of saturated slices

Two saturated slices are equal if their bounds are, whatever types the slices are of. The key of a
saturated slice names its type as well. So a table that looks keys up takes equal slices of
different types for different entries.

A bound is a number, or else a scripted object, which has no key. Numbers are told apart by their
values, but one that has none only by being another object. These marks decide both what is equal
and which key there is.

* `compareTuples_numbers` — sequences of numbers are equal just if their marks are
* `hashKey_saturated_numbers` — the key of a saturated slice consists of its type and its marks
* `exists_keyed_iff` — the slices that have a key are those without a scripted bound
* `saturated_equal_keys` — equality is an equivalence, and of equal slices those of one type have
  the same key
-/

namespace Slicing

/-! ## Numbers -/

/-- A number equals itself and no other, unless it has no value at all. -/
theorem Number.holds_eq_iff {m n : Number} : m.holds .eq n = true ↔ m = n ∧ m ≠ .nan := by
  cases m <;> cases n <;> simp [holds, compare?, Comparison.holds]
  grind

/-- What one number is told from another by: its value, or else the object itself. -/
inductive Mark where
  | number (n : Number)
  | object (v : Value)
  deriving DecidableEq

/-- What the value `v`, which is the number `n`, is told from other numbers by. -/
def Number.mark (v : Value) : Number → Mark
  | .nan => .object v
  | n => .number n

theorem Number.mark_eq_iff {x y : Value} (ne : x ≠ y) {m n : Number} :
    m.mark x = n.mark y ↔ m.holds .eq n = true := by
  rw [holds_eq_iff]
  cases m <;> cases n <;> simp [mark, ne]

namespace HashKey

/-- The key of what a number is told apart by. -/
def ofMark : Mark → HashKey
  | .number n => ofNumber .null n
  | .object v => object v

theorem ofNumber_eq (v : Value) (n : Number) : ofNumber v n = ofMark (n.mark v) := by
  cases n <;> rfl

/-- A fraction that is an integer leaves the same residue as the integer. -/
theorem fractionResidue_intCast (n : Int) : fractionResidue n = residue n := by
  have log : Nat.log2 1 = 0 := rfl
  simp [fractionResidue, log]

end HashKey

section

variable {w : World} {x y : Value} {m n : Number}

theorem World.hasForm_of_number? (h : w.number? x = some n) : w.HasForm x (.number n) := by
  cases x with
  | bool b => exact Option.some.inj h ▸ .bool b
  | int k => exact Option.some.inj h ▸ .int k
  | object a =>
    cases held : w.cell? (.object a) with
    | none => simp [number?, float?, held] at h
    | some cell =>
      cases cell with
      | float written =>
        obtain rfl : Number.ofText written = n := by simpa [number?, float?, held] using h
        exact .float held
      | _ => simp [number?, float?, held] at h
  | _ => cases h

/-- Two numbers tie if nothing tells them apart. -/
theorem identicalOrEqual_number (depth : Nat) (hx : w.number? x = some m)
    (hy : w.number? y = some n) :
    identicalOrEqual (.ofDepth (depth + 1)) x y w =
      { outcome := .ok (decide (m.mark x = n.mark y)), events := [], world := w } := by
  by_cases same : x = y
  · subst same
    obtain rfl := Option.some.inj (hx.symm.trans hy)
    rw [identicalOrEqual_self, decide_eq_true rfl]
    rfl
  · have equal := compareValues_number_settles (w.hasForm_of_number? hx) (w.hasForm_of_number? hy)
      (.ofDepth depth) .eq
    have answer : decide (m.mark x = n.mark y) = m.holds .eq n := by
      rw [Bool.eq_iff_iff, decide_eq_true_iff, Number.mark_eq_iff same]
    rw [identicalOrEqual, if_neg same, Eval.bind_apply, answer,
      show (Callbacks.ofDepth (depth + 1)).compare .eq x y w = _ from equal]
    rfl

/-- The key of a number depends on nothing but what tells it apart. -/
theorem hashKeyTo_number {depth : Nat} (hx : w.number? x = some n)
    (deep : x.isImmediate = true ∨ 0 < depth) :
    hashKeyTo depth x w =
      { outcome := .ok (.ofMark (n.mark x)), events := [], world := w } := by
  have form := w.hasForm_of_number? hx
  generalize shape : Form.number n = p at form
  cases form with
  | bool b =>
    cases shape
    cases b <;> cases depth <;> rfl
  | int k =>
    cases shape
    have key : HashKey.ofMark ((Number.ofInt k).mark (.int k)) = .number (HashKey.residue k) := by
      rw [← HashKey.fractionResidue_intCast]
      rfl
    rw [key]
    cases depth <;> rfl
  | float held =>
    cases shape
    obtain immediate | positive := deep
    · cases immediate
    · obtain ⟨depth, rfl⟩ := Nat.exists_eq_succ_of_ne_zero (Nat.ne_of_gt positive)
      rw [hashKeyTo, Eval.world_bind_apply, held, ← HashKey.ofNumber_eq]
      rfl
  | _ => cases shape

end

/-! ## Sequences of numbers -/

/-- What each of several numbers is told apart by. -/
def World.marks (w : World) (xs : List Value) : List Mark :=
  xs.filterMap fun x => (w.number? x).map (·.mark x)

section

variable {w : World} {xs ys : List Value}

theorem World.marks_cons {x : Value} {n : Number} (hx : w.number? x = some n) (xs : List Value) :
    w.marks (x :: xs) = n.mark x :: w.marks xs := by
  simp [marks, hx]

/-- Two sequences of numbers differ somewhere unless they are told apart by the same. -/
theorem firstDifference_numbers (depth : Nat) (numbersx : ∀ x ∈ xs, (w.number? x).isSome = true)
    (numbersy : ∀ y ∈ ys, (w.number? y).isSome = true) (lengths : xs.length = ys.length) :
    ∃ difference : Option (Value × Value),
      firstDifference (.ofDepth (depth + 1)) (xs.zip ys) w =
          { outcome := .ok difference, events := [], world := w } ∧
        (difference = none ↔ w.marks xs = w.marks ys) := by
  induction xs generalizing ys with
  | nil =>
    cases ys with
    | nil => exact ⟨none, rfl, by simp⟩
    | cons y ys => simp at lengths
  | cons x xs ih =>
    cases ys with
    | nil => simp at lengths
    | cons y ys =>
      obtain ⟨numberx, numbersx⟩ := List.forall_mem_cons.mp numbersx
      obtain ⟨numbery, numbersy⟩ := List.forall_mem_cons.mp numbersy
      obtain ⟨m, hx⟩ := Option.isSome_iff_exists.mp numberx
      obtain ⟨n, hy⟩ := Option.isSome_iff_exists.mp numbery
      obtain ⟨difference, found, same⟩ := ih numbersx numbersy (Nat.succ.inj lengths)
      rw [List.zip_cons_cons, firstDifference_eq_cons, Eval.bind_apply, identicalOrEqual_number depth hx hy,
        World.marks_cons hx, World.marks_cons hy]
      by_cases tie : m.mark x = n.mark y
      · rw [decide_eq_true tie]
        exact ⟨difference, by simp [found], by simp [same, tie]⟩
      · rw [decide_eq_false tie]
        exact ⟨some (x, y), rfl, by simp [tie]⟩

/-- Sequences of numbers are equal just if nothing tells them apart. -/
theorem compareTuples_numbers (depth : Nat) (numbersx : ∀ x ∈ xs, (w.number? x).isSome = true)
    (numbersy : ∀ y ∈ ys, (w.number? y).isSome = true) (lengths : xs.length = ys.length) :
    (compareTuples (.ofDepth (depth + 1)) .eq xs ys).Settles w
      (some (decide (w.marks xs = w.marks ys))) := by
  obtain ⟨difference, found, same⟩ := firstDifference_numbers depth numbersx numbersy lengths
  rw [Eval.Settles, compareTuples, Eval.bind_apply, found]
  cases difference with
  | none =>
    rw [decide_eq_true (same.mp rfl)]
    simp [lengths, compareOfLessAndEq, Comparison.holds, Eval.pure_apply]
  | some pair =>
    rw [decide_eq_false (mt same.mpr (Option.some_ne_none pair))]
    rfl

theorem mapM_hashKeyTo_numbers {depth : Nat} (numbers : ∀ x ∈ xs, (w.number? x).isSome = true)
    (deep : ∀ x ∈ xs, x.isImmediate = true ∨ 0 < depth) :
    xs.mapM (hashKeyTo depth) w =
      { outcome := .ok ((w.marks xs).map .ofMark), events := [], world := w } := by
  induction xs with
  | nil => rfl
  | cons x xs ih =>
    obtain ⟨number, numbers⟩ := List.forall_mem_cons.mp numbers
    obtain ⟨first, deep⟩ := List.forall_mem_cons.mp deep
    obtain ⟨n, hx⟩ := Option.isSome_iff_exists.mp number
    rw [List.mapM_cons, Eval.bind_apply, hashKeyTo_number hx first]
    dsimp only
    rw [Eval.bind_apply, ih numbers deep, World.marks_cons hx]
    rfl

end

/-! ## What the constructor lets in -/

/-- The constructor of saturated slices lets the value in as a bound. -/
def World.Admits (w : World) (v : Value) : Prop :=
  ∃ depth limited w', (saturateValue (.ofDepth depth) v).Yields w limited w'

section

variable {w : World} {v : Value}

/-- A number knows its order to every integer. -/
theorem holdsFor_number {n : Number} (hv : w.number? v = some n) (depth : Nat) (op : Comparison)
    (k : Int) :
    ∃ answer, holdsFor (.ofDepth (depth + 1)) op v k w =
      { outcome := .ok answer, events := [], world := w } := by
  unfold holdsFor
  cases v.toInt? with
  | some m => exact ⟨_, rfl⟩
  | none =>
    have settles := compareValues_number_settles (w.hasForm_of_number? hv) (.int k)
      (.ofDepth depth) op
    refine ⟨n.holds op (.ofInt k), ?_⟩
    dsimp only
    rw [Eval.bind_apply,
      show (Callbacks.ofDepth (depth + 1)).compare op v (.int k) w = _ from settles]
    rfl

theorem World.admits_of_number {n : Number} (hv : w.number? v = some n) : w.Admits v := by
  obtain ⟨above, greater⟩ := holdsFor_number hv 0 .gt w.words.isizeMax
  obtain ⟨below, less⟩ := holdsFor_number hv 0 .lt w.words.isizeMin
  have run : ∃ limited, saturateValue (.ofDepth 1) v w =
      { outcome := .ok limited, events := [], world := w } := by
    unfold saturateValue
    rw [Eval.words_bind_apply, Eval.bind_apply, greater]
    cases above with
    | true => exact ⟨_, rfl⟩
    | false =>
      simp only [Bool.false_eq_true, if_false]
      rw [Eval.words_bind_apply, Eval.bind_apply, less]
      cases below <;> exact ⟨_, rfl⟩
  obtain ⟨limited, run⟩ := run
  exact ⟨1, limited, w, by rw [run], by rw [run]⟩

/-- A value that is neither a number nor scripted knows no order to an integer. -/
theorem compareMethod_int_declines (unnumbered : w.number? v = none)
    (unscripted : ∀ s calls, w.cell? v ≠ some (.scripted s calls)) (c : Callbacks) (n : Int) :
    (compareMethod c .gt v (.int n)).Declines w := by
  show compareMethod c .gt v (.int n) w = _
  unfold compareMethod
  rw [Eval.world_bind_apply]
  cases held : w.cell? v with
  | none => cases v <;> first | rfl | simp [World.number?] at unnumbered
  | some cell =>
    cases cell with
    | scripted s calls => exact absurd held (unscripted s calls)
    | float written =>
      obtain ⟨a, rfl⟩ := World.object_of_cell? held
      simp [World.number?, World.float?, held] at unnumbered
    | _ => rfl

theorem holdsFor_int_refused (unnumbered : w.number? v = none)
    (unscripted : ∀ s calls, w.cell? v ≠ some (.scripted s calls)) (depth : Nat) (n : Int)
    (answer : Bool) : (holdsFor (.ofDepth depth) .gt v n w).outcome ≠ .ok answer := by
  have unindexed : v.toInt? = none := by
    cases v <;> first | rfl | simp [World.number?] at unnumbered
  rw [holdsFor, unindexed]
  dsimp only
  rw [Eval.bind_apply]
  cases depth with
  | zero => simp [Callbacks.ofDepth, Eval.exhausted]
  | succ depth =>
    have left := compareMethod_int_declines unnumbered unscripted (.ofDepth depth) n
    have right : (compareMethod (.ofDepth depth) .lt (.int n) v).Declines w := by
      cases v <;> first | rfl | simp [Value.toInt?] at unindexed
    obtain ⟨error, -, refused⟩ : (compareValues (.ofDepth depth) .gt v (.int n)).Settles w none :=
      compareValues_settles (.inr left) (.inr right) fun _ _ => rfl
    rw [show (Callbacks.ofDepth (depth + 1)).compare .gt v (.int n) w = _ from refused]
    simp

/-- Only numbers and scripted objects are let in. -/
theorem World.Admits.number_or_scripted (h : w.Admits v) :
    (w.number? v).isSome = true ∨ ∃ s calls, w.cell? v = some (.scripted s calls) := by
  obtain ⟨depth, limited, w', outcome, -⟩ := h
  cases numbered : w.number? v with
  | some n => exact .inl rfl
  | none =>
    by_cases scripted : ∃ s calls, w.cell? v = some (.scripted s calls)
    · exact .inr scripted
    · have unscripted : ∀ s calls, w.cell? v ≠ some (.scripted s calls) :=
        fun s calls held => scripted ⟨s, calls, held⟩
      exfalso
      obtain ⟨limits, _, looked, checked⟩ := Eval.bind_outcome_ok_iff.mp outcome
      obtain ⟨rfl, rfl⟩ := Eval.yields_words_iff.mp looked
      obtain ⟨answer, _, ⟨answered, -⟩, -⟩ := Eval.bind_outcome_ok_iff.mp checked
      exact holdsFor_int_refused numbered unscripted depth _ answer answered

/-- A scripted object has no key, and a floating point number has none at depth zero. -/
theorem number_of_key {depth : Nat} {key : HashKey} (admitted : w.Admits v)
    (keyed : (hashKeyTo depth v w).outcome = .ok key) :
    (w.number? v).isSome = true ∧ (v.isImmediate = true ∨ 0 < depth) := by
  have deep : v.isImmediate = true ∨ 0 < depth := by
    cases depth with
    | zero => cases v <;> first | exact .inl rfl | simp [hashKeyTo, Eval.exhausted] at keyed
    | succ depth => exact .inr (Nat.succ_pos depth)
  obtain number | ⟨s, calls, held⟩ := admitted.number_or_scripted
  · exact ⟨number, deep⟩
  · obtain ⟨a, rfl⟩ := World.object_of_cell? held
    exfalso
    cases depth with
    | zero => simp [hashKeyTo, Eval.exhausted] at keyed
    | succ depth =>
      rw [hashKeyTo, Eval.world_bind_apply, held] at keyed
      simp [Eval.raise_apply] at keyed

/-- Of all that is let in only numbers have a key. -/
theorem numbers_of_keys {depth : Nat} {xs : List Value} {keys : List HashKey}
    (admitted : ∀ x ∈ xs, w.Admits x)
    (keyed : (xs.mapM (hashKeyTo depth) w).outcome = .ok keys) :
    ∀ x ∈ xs, (w.number? x).isSome = true := by
  induction xs generalizing keys with
  | nil => exact nofun
  | cons x xs ih =>
    obtain ⟨admits, admitted⟩ := List.forall_mem_cons.mp admitted
    rw [List.mapM_cons] at keyed
    obtain ⟨key, w', ⟨first, rfl⟩, rest⟩ := Eval.bind_outcome_ok_iff.mp keyed
    obtain ⟨number, deep⟩ := number_of_key admits first
    obtain ⟨n, hx⟩ := Option.isSome_iff_exists.mp number
    rw [hashKeyTo_number hx deep] at rest
    obtain ⟨keys, w', ⟨others, -⟩, -⟩ := Eval.bind_outcome_ok_iff.mp rest
    exact List.forall_mem_cons.mpr ⟨number, ih admitted others⟩

end

/-! ## Saturated slices -/

section

variable {c : Callbacks} {w : World} {a b : Value} {lineage lineage' : Lineage} {s t : Bounds}

/-- Equality of saturated slices does not depend on which of the two is asked. -/
theorem compareValues_saturated_settles {equal : Bool}
    (ha : w.cell? a = some (.saturated lineage s)) (hb : w.cell? b = some (.saturated lineage' t))
    (forth : (compareTuples c .eq s.toList t.toList).Settles w (some equal))
    (back : (compareTuples c .eq t.toList s.toList).Settles w (some equal)) :
    (compareValues c .eq a b).Settles w (some equal) := by
  have left : (compareMethod c .eq a b).Settles w (some equal) :=
    forth.congr (compareMethod_saturated_apply ha hb c)
  have right : (compareMethod c .eq b a).Settles w (some equal) :=
    back.congr (compareMethod_saturated_apply hb ha c)
  exact compareValues_settles (.inl left) (.inl right) fun declines =>
    absurd declines left.not_declines

end

/-- The value is a saturated slice of numbers, which are told apart from others by these marks. -/
def World.Told (w : World) (lineage : Lineage) (a : Value) (marks : List Mark) : Prop :=
  ∃ s, w.cell? a = some (.saturated lineage s) ∧
    (∀ x ∈ s.toList, (w.number? x).isSome = true) ∧ marks = w.marks s.toList

/-- The value is a saturated slice of bounds that its constructor lets in, and this is its key. -/
structure World.Keyed (w : World) (lineage : Lineage) (a : Value) (key : HashKey) : Prop where
  admitted : ∃ s, w.cell? a = some (.saturated lineage s) ∧ ∀ x ∈ s.toList, w.Admits x
  key : (hashKey a w).outcome = .ok key

/-- The key of a saturated slice names its kind before what its bounds are told apart by. -/
def HashKey.ofMarks (lineage : Lineage) (marks : List Mark) : HashKey :=
  tuple (kind (.saturated lineage) :: marks.map ofMark)

section

variable {w : World} {a b : Value} {lineage lineage' : Lineage}

/-- Saturated slices of numbers are equal if their bounds are, and types make no difference. -/
theorem World.Told.equal {marks marks' : List Mark} (ha : w.Told lineage a marks)
    (hb : w.Told lineage' b marks') (depth : Nat) :
    (compareValues (.ofDepth (depth + 1)) .eq a b).Settles w (some (decide (marks = marks'))) := by
  obtain ⟨s, helda, numberss, rfl⟩ := ha
  obtain ⟨t, heldb, numberst, rfl⟩ := hb
  have back := compareTuples_numbers depth numberst numberss rfl
  rw [decide_eq_decide.mpr eq_comm] at back
  exact compareValues_saturated_settles helda heldb
    (compareTuples_numbers depth numberss numberst rfl) back

theorem World.Told.equal_iff {marks marks' : List Mark} (ha : w.Told lineage a marks)
    (hb : w.Told lineage' b marks') (depth : Nat) :
    (compareValues (.ofDepth (depth + 1)) .eq a b).Settles w (some true) ↔ marks = marks' := by
  have equal := ha.equal hb depth
  constructor
  · intro yes
    have same := congrArg (fun run : Run Value => run.outcome)
      ((show compareValues _ _ _ _ w = _ from equal).symm.trans yes)
    simpa using same
  · intro same
    rwa [decide_eq_true same] at equal

/-- The key of a saturated slice is made of those of its bounds, one level below. -/
theorem hashKey_saturated_apply {s : Bounds} (held : w.cell? a = some (.saturated lineage s)) :
    ∃ depth, w.cells.size = depth + 1 ∧
      hashKey a w = (do
        return HashKey.tuple
          (.kind (.saturated lineage) :: (← s.toList.mapM (hashKeyTo depth))) : Eval HashKey) w := by
  obtain ⟨address, rfl⟩ := World.object_of_cell? held
  have bound : address < w.cells.size := (Array.getElem?_eq_some_iff.mp held).1
  obtain ⟨depth, size⟩ := Nat.exists_eq_succ_of_ne_zero (Nat.ne_zero_of_lt bound)
  refine ⟨depth, size, ?_⟩
  rw [hashKey, Eval.world_bind_apply, size, hashKeyTo, Eval.world_bind_apply, held]

/-- A slice of numbers has a key, as it is none of its own bounds. -/
theorem hashKey_saturated_numbers {s : Bounds} (held : w.cell? a = some (.saturated lineage s))
    (numbers : ∀ x ∈ s.toList, (w.number? x).isSome = true) :
    hashKey a w =
      { outcome := .ok (.ofMarks lineage (w.marks s.toList)), events := [], world := w } := by
  obtain ⟨depth, size, run⟩ := hashKey_saturated_apply held
  have deep : ∀ x ∈ s.toList, x.isImmediate = true ∨ 0 < depth := by
    intro x mem
    cases x with
    | object other =>
      obtain ⟨address, rfl⟩ := World.object_of_cell? held
      obtain ⟨n, number⟩ := Option.isSome_iff_exists.mp (numbers _ mem)
      cases w.hasForm_of_number? number with
      | float held' =>
        have apart : other ≠ address := by
          rintro rfl
          simp [held] at held'
        have order := Nat.lt_or_gt_of_ne apart
        have bound := (Array.getElem?_eq_some_iff.mp held).1
        have bound' := (Array.getElem?_eq_some_iff.mp held').1
        exact .inr (by omega)
    | _ => exact .inl rfl
  rw [run, Eval.bind_apply, mapM_hashKeyTo_numbers numbers deep]
  rfl

/-- A key tells that the bounds are numbers, and what they are told apart by. -/
theorem World.Keyed.told {key : HashKey} (h : w.Keyed lineage a key) :
    ∃ marks, w.Told lineage a marks ∧ key = .ofMarks lineage marks := by
  obtain ⟨⟨s, held, admitted⟩, keyed⟩ := h
  have numbers : ∀ x ∈ s.toList, (w.number? x).isSome = true := by
    obtain ⟨depth, -, run⟩ := hashKey_saturated_apply held
    rw [run] at keyed
    obtain ⟨keys, w', ⟨items, -⟩, -⟩ := Eval.bind_outcome_ok_iff.mp keyed
    exact numbers_of_keys admitted items
  rw [hashKey_saturated_numbers held numbers] at keyed
  exact ⟨w.marks s.toList, ⟨s, held, numbers, rfl⟩, (Except.ok.inj keyed).symm⟩

theorem World.Told.keyed {marks : List Mark} (h : w.Told lineage a marks) :
    w.Keyed lineage a (.ofMarks lineage marks) := by
  obtain ⟨s, held, numbers, rfl⟩ := h
  refine ⟨⟨s, held, fun x mem => ?_⟩, by rw [hashKey_saturated_numbers held numbers]⟩
  obtain ⟨n, number⟩ := Option.isSome_iff_exists.mp (numbers x mem)
  exact World.admits_of_number number

/-- Of the slices that can be built just those have a key that have no scripted bound. -/
theorem exists_keyed_iff {s : Bounds} (held : w.cell? a = some (.saturated lineage s))
    (admitted : ∀ x ∈ s.toList, w.Admits x) :
    (∃ key, w.Keyed lineage a key) ↔
      ∀ x ∈ s.toList, ∀ script calls, w.cell? x ≠ some (.scripted script calls) := by
  constructor
  · rintro ⟨key, keyed⟩ x mem script calls scripted
    obtain ⟨marks, ⟨_, held', numbers, -⟩, -⟩ := keyed.told
    obtain ⟨-, rfl⟩ := Cell.saturated.inj (Option.some.inj (held.symm.trans held'))
    obtain ⟨address, rfl⟩ := World.object_of_cell? scripted
    simpa [World.number?, World.float?, scripted] using numbers _ mem
  · intro unscripted
    have numbers : ∀ x ∈ s.toList, (w.number? x).isSome = true := by
      intro x mem
      obtain number | ⟨script, calls, scripted⟩ := (admitted x mem).number_or_scripted
      · exact number
      · exact absurd scripted (unscripted x mem script calls)
    exact ⟨_, World.Told.keyed ⟨s, held, numbers, rfl⟩⟩

/-- The key tells the types of two slices apart, though equality does not. -/
theorem HashKey.ofMarks_eq_iff (marks : List Mark) :
    ofMarks lineage marks = ofMarks lineage' marks ↔ lineage = lineage' := by
  simp [ofMarks]

/--
Saturated slices with the same three objects as bounds are equal, of whatever types they are.
Those that the constructor can build have a key unless a bound is a scripted object. Among slices
that have a key equality is an equivalence, which is always known and takes no account of their
types. But the key does, so of two equal slices the keys are the same just if the types are.
-/
theorem saturated_equal_keys (depth : Nat) (w : World) :
    let equal (a b : Value) : Prop :=
      (compareValues (.ofDepth (depth + 1)) .eq a b).Settles w (some true)
    (∀ a b lineage lineage' s, w.cell? a = some (.saturated lineage s) →
      w.cell? b = some (.saturated lineage' s) → equal a b) ∧
    (∀ a lineage s, w.cell? a = some (.saturated lineage s) → (∀ x ∈ s.toList, w.Admits x) →
      ((∃ key, w.Keyed lineage a key) ↔
        ∀ x ∈ s.toList, ∀ script calls, w.cell? x ≠ some (.scripted script calls))) ∧
    Equivalence (fun a b : {v : Value // ∃ lineage key, w.Keyed lineage v key} => equal a b) ∧
    ∀ a b lineage lineage' key key', w.Keyed lineage a key → w.Keyed lineage' b key' →
      (∃ answer, (compareValues (.ofDepth (depth + 1)) .eq a b).Settles w (some answer)) ∧
      (equal a b → (key = key' ↔ lineage = lineage')) := by
  intro equal
  refine ⟨fun a b _ _ s ha hb => compareValues_saturated_apply ha hb,
    fun a _ s held admitted => exists_keyed_iff held admitted, ⟨?_, ?_, ?_⟩, ?_⟩
  · rintro ⟨a, lineage, key, keyed⟩
    obtain ⟨marks, told, -⟩ := keyed.told
    exact (told.equal_iff told depth).mpr rfl
  · rintro ⟨a, _, _, keyeda⟩ ⟨b, _, _, keyedb⟩ same
    obtain ⟨marksa, tolda, -⟩ := keyeda.told
    obtain ⟨marksb, toldb, -⟩ := keyedb.told
    exact (toldb.equal_iff tolda depth).mpr ((tolda.equal_iff toldb depth).mp same).symm
  · rintro ⟨a, _, _, keyeda⟩ ⟨b, _, _, keyedb⟩ ⟨d, _, _, keyedd⟩ first second
    obtain ⟨marksa, tolda, -⟩ := keyeda.told
    obtain ⟨marksb, toldb, -⟩ := keyedb.told
    obtain ⟨marksd, toldd, -⟩ := keyedd.told
    exact (tolda.equal_iff toldd depth).mpr
      (((tolda.equal_iff toldb depth).mp first).trans ((toldb.equal_iff toldd depth).mp second))
  · intro a b lineage lineage' key key' keyeda keyedb
    obtain ⟨marks, tolda, rfl⟩ := keyeda.told
    obtain ⟨marks', toldb, rfl⟩ := keyedb.told
    refine ⟨⟨_, tolda.equal toldb depth⟩, fun same => ?_⟩
    obtain rfl := (tolda.equal_iff toldb depth).mp same
    exact HashKey.ofMarks_eq_iff marks

end

/--
A float, one that is not a number, and saturated slices of both types. They have the same bounds,
of which a truth value stands for one number and the first float for another.
-/
def World.marked : World :=
  { World.initial .host with
    cells := #[.tuple [], .float "2.0", .float "nan",
      .saturated .base { start := .bool true, stop := .object 1, step := .object 2 },
      .saturated .base { start := .int 1, stop := .int 2, step := .object 2 },
      .saturated .derived { start := .int 1, stop := .int 2, step := .object 2 }] }

/-- All three slices are equal, and just the two of one type have the same key. -/
theorem saturated_equal_keys_mixed :
    ∃ key₃ key₄ key₅,
      World.marked.Keyed .base (.object 3) key₃ ∧ World.marked.Keyed .base (.object 4) key₄ ∧
        World.marked.Keyed .derived (.object 5) key₅ ∧
        (compareValues (.ofDepth 1) .eq (.object 3) (.object 4)).Settles .marked (some true) ∧
        (compareValues (.ofDepth 1) .eq (.object 3) (.object 5)).Settles .marked (some true) ∧
        key₃ = key₄ ∧ key₃ ≠ key₅ := by
  obtain ⟨-, -, -, same⟩ := saturated_equal_keys 0 .marked
  have two : World.marked.number? (.object 1) = some (.ofInt 2) :=
    congrArg some (show Number.ofText "2.0" = .ofInt 2 by decide +kernel)
  have marks : [.number (.ofInt 1), .number (.ofInt 2), .object (.object 2)] =
      World.marked.marks [.bool true, .object 1, .object 2] := by
    rw [World.marks_cons rfl, World.marks_cons two]
    rfl
  have told₃ : World.marked.Told .base (.object 3) _ := ⟨_, rfl, by decide, marks⟩
  have told₄ : World.marked.Told .base (.object 4) _ := ⟨_, rfl, by decide, rfl⟩
  have told₅ : World.marked.Told .derived (.object 5) _ := ⟨_, rfl, by decide, rfl⟩
  have equal₃₄ := (told₃.equal_iff told₄ 0).mpr rfl
  have equal₃₅ := (told₃.equal_iff told₅ 0).mpr rfl
  refine ⟨_, _, _, told₃.keyed, told₄.keyed, told₅.keyed, equal₃₄, equal₃₅, ?_, ?_⟩
  · exact ((same _ _ _ _ _ _ told₃.keyed told₄.keyed).2 equal₃₄).mpr rfl
  · intro keys
    cases ((same _ _ _ _ _ _ told₃.keyed told₅.keyed).2 equal₃₅).mp keys

/-- Two slices of different types, made of the same integers. -/
def World.twins : World :=
  { World.initial .host with
    cells := #[.tuple [],
      .saturated .base { start := .int 1, stop := .int 2, step := .int 3 },
      .saturated .derived { start := .int 1, stop := .int 2, step := .int 3 }] }

/-- Each of the two equals the other, and a table keeps them apart. -/
theorem saturated_twins_keyed_apart :
    (compareValues (.ofDepth 1) .eq (.object 1) (.object 2)).Settles .twins (some true) ∧
      (compareValues (.ofDepth 1) .eq (.object 2) (.object 1)).Settles .twins (some true) ∧
      ∃ key key', (hashKey (.object 1) .twins).outcome = .ok key ∧
        (hashKey (.object 2) .twins).outcome = .ok key' ∧ key ≠ key' ∧ key.beq key' = false :=
  ⟨rfl, rfl, _, _, rfl, rfl, nofun, rfl⟩

end Slicing
