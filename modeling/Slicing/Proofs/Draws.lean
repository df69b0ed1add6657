import Mathlib.Algebra.Order.BigOperators.Group.List
import Slicing.Proofs.Walks

/-!
# Drawing positions from iterators

Any number of iterators can be made of one adjusted slice, and they are drawn from in turns of any
size and in any order. Each of them counts on its own what it has given.

* `World.Iterating` — what is known of the iterators between two turns: each is an object of its
  own, which has given as many positions as were drawn from it
* `takeTurns_apply` — so what each gives over all its turns are the positions from there on
* `adjustBounds_visited` — an adjusted slice has as many positions as its window says, and that
  many come out of each iterator before it is exhausted
-/

namespace Slicing

/-! ## Turns -/

/-- One more iterator is made, or up to some number of elements is drawn from one made before. -/
inductive Turn where
  | iterate
  | draw (iterator take : Nat)

/-- The elements that one turn gave, the iterator they came from and how many were asked for. -/
structure Drawn where
  iterator : Nat
  asked : Nat
  items : List Value

/-- Takes the turns one after the other. An iterator that is yet to be made gives nothing. -/
def takeTurns (c : Callbacks) (adjusted : Value) :
    List Value → List Turn → Eval (List Drawn)
  | _, [] => pure []
  | iterators, .iterate :: turns => do
    let iterator ← Eval.allocate (.iterator (← positionsOf c adjusted) 0)
    takeTurns c adjusted (iterators ++ [iterator]) turns
  | iterators, .draw i take :: turns =>
    match iterators[i]? with
    | none => takeTurns c adjusted iterators turns
    | some iterator => do
      let items ← drawNext iterator take
      let later ← takeTurns c adjusted iterators turns
      return { iterator := i, asked := take, items } :: later

namespace Drawn

/-- All that came from one iterator, in the order in which it came. -/
def itemsOf (i : Nat) (drawn : List Drawn) : List Value :=
  (drawn.filter (·.iterator = i)).flatMap items

/-- How many elements one iterator was asked for. -/
def askedOf (i : Nat) (drawn : List Drawn) : Nat :=
  ((drawn.filter (·.iterator = i)).map asked).sum

theorem itemsOf_cons (i : Nat) (d : Drawn) (drawn : List Drawn) :
    itemsOf i (d :: drawn) = (if d.iterator = i then d.items else []) ++ itemsOf i drawn := by
  by_cases h : d.iterator = i <;> simp [itemsOf, h]

theorem askedOf_cons (i : Nat) (d : Drawn) (drawn : List Drawn) :
    askedOf i (d :: drawn) = (if d.iterator = i then d.asked else 0) + askedOf i drawn := by
  by_cases h : d.iterator = i <;> simp [askedOf, h]

/-- If no turn gives too much and one too little, they give too little together. -/
theorem length_itemsOf_lt {d : Drawn} {drawn : List Drawn}
    (within : ∀ d ∈ drawn, d.items.length ≤ d.asked) (mem : d ∈ drawn)
    (short : d.items.length < d.asked) :
    (itemsOf d.iterator drawn).length < askedOf d.iterator drawn := by
  have own : d ∈ drawn.filter (·.iterator = d.iterator) := by simp [mem]
  unfold itemsOf askedOf
  rw [List.length_flatMap]
  refine List.sum_lt_sum _ _ (fun e he => ?_) ⟨d, own, short⟩
  exact within e (List.mem_of_mem_filter he)

end Drawn

/-! ## Between two turns -/

/-- The object of each iterator is its own, and tells how many positions were drawn from it. -/
structure World.Iterating (w : World) (r : Range) (iterators : List Value) (given : Nat → Nat) :
    Prop where
  nodup : iterators.Nodup
  held : ∀ i v, iterators[i]? = some v → w.cell? v = some (.iterator r (given i))
  unmade : ∀ i, iterators.length ≤ i → given i = 0

section

variable {w : World} {r : Range} {iterators : List Value} {given : Nat → Nat}

theorem World.iterating_nil (w : World) (r : Range) : w.Iterating r [] fun _ => 0 :=
  ⟨List.nodup_nil, nofun, fun _ _ => rfl⟩

/-- An iterator that is made is a new object, and it has given nothing. -/
theorem World.Iterating.made (h : w.Iterating r iterators given) :
    (w.insert (.iterator r 0)).Iterating r (iterators ++ [w.fresh]) given := by
  have new : w.fresh ∉ iterators := by
    intro mem
    obtain ⟨i, place⟩ := List.mem_iff_getElem?.mp mem
    have old := h.held i w.fresh place
    simp [World.fresh, World.cell?] at old
  refine ⟨?_, ?_, ?_⟩
  · exact h.nodup.append (List.nodup_singleton _) (by simpa using new)
  · intro i v place
    rcases lt_trichotomy i iterators.length with before | rfl | after
    · rw [List.getElem?_append_left before] at place
      exact World.cell?_insert_of_some (h.held i v place) _
    · rw [List.getElem?_concat_length] at place
      rw [h.unmade _ le_rfl, ← Option.some.inj place]
      exact World.cell?_insert_fresh w _
    · rw [List.getElem?_eq_none (by simp; omega)] at place
      cases place
  · intro i beyond
    rw [List.length_append] at beyond
    exact h.unmade i (by omega)

/-- Drawing from one iterator changes what that one has given, and no other. -/
theorem World.Iterating.drawn (h : w.Iterating r iterators given) {i : Nat} {a : Address}
    (place : iterators[i]? = some (.object a)) (n : Nat) :
    (w.store a (.iterator r n)).Iterating r iterators (Function.update given i n) := by
  have made : i < iterators.length := (List.getElem?_eq_some_iff.mp place).1
  refine ⟨h.nodup, ?_, ?_⟩
  · intro j v other
    by_cases same : j = i
    · subst same
      have object : v = .object a := Option.some.inj (other.symm.trans place)
      rw [Function.update_self, object]
      exact World.cell?_store_self (h.held j (.object a) place) _
    · have apart : v ≠ .object a := by
        rintro rfl
        exact same ((List.getElem?_inj (List.getElem?_eq_some_iff.mp other).1 h.nodup).mp
          (other.trans place.symm))
      rw [Function.update_of_ne same, World.cell?_store_of_ne apart]
      exact h.held j v other
  · intro j beyond
    rw [Function.update_of_ne (by omega)]
    exact h.unmade j beyond

end

/-! ## The adjusted slice -/

section

variable {w : World} {x : Value} {a : Adjusted}

theorem World.HoldsAdjusted.insert (held : w.HoldsAdjusted x a) (cell : Cell) :
    (w.insert cell).HoldsAdjusted x a := by
  obtain ⟨stretch, adjusted, range⟩ := held
  exact ⟨stretch, World.cell?_insert_of_some adjusted cell, World.cell?_insert_of_some range cell⟩

/-- What an iterator holds is no part of an adjusted slice. -/
theorem World.HoldsAdjusted.store (held : w.HoldsAdjusted x a) {b : Address} {r : Range} {n : Nat}
    (iterator : w.cell? (.object b) = some (.iterator r n)) (cell : Cell) :
    (w.store b cell).HoldsAdjusted x a := by
  obtain ⟨stretch, adjusted, range⟩ := held
  refine ⟨stretch, ?_, ?_⟩
  · rw [World.cell?_store_of_ne, adjusted]
    rintro rfl
    simp [iterator] at adjusted
  · rw [World.cell?_store_of_ne, range]
    rintro rfl
    simp [iterator] at range

end

/-! ## Drawing -/

section

variable {c : Callbacks} {w : World} {x : Value} {a : Adjusted} {k : Option Int} {r : Range}

theorem drawNext_iterator_apply {b : Address} {n : Nat}
    (iterator : w.cell? (.object b) = some (.iterator r n)) (take : Nat) :
    drawNext (.object b) take w =
      { outcome := .ok ((r.extract n take).map .int)
        events := []
        world := w.store b (.iterator r (n + (r.extract n take).length)) } := by
  simp [drawNext, takeElements, Eval.bind_apply, Eval.map_apply, Eval.world_apply, iterator,
    Eval.store, Except.map, Eval.pure_apply]

theorem Range.length_extract_le (r : Range) (i n : Nat) : (r.extract i n).length ≤ n := by
  unfold extract
  rw [List.length_map, List.length_range']
  exact min_le_left _ _

/--
Whatever turns are taken, each iterator gives the positions that follow those it has given before:
as many as it is asked for, or all that are left.
-/
theorem takeTurns_apply (counts : a.step.StepIs k) (positions : (a.shown k).positions? = some r)
    (turns : List Turn) {iterators : List Value} {given : Nat → Nat}
    (held : w.HoldsAdjusted x a) (iterating : w.Iterating r iterators given) :
    ∃ (drawn : List Drawn) (w' : World),
      takeTurns c x iterators turns w = { outcome := .ok drawn, events := [], world := w' } ∧
        (∀ d ∈ drawn, d.items.length ≤ d.asked) ∧
        ∀ i, Drawn.itemsOf i drawn = (r.extract (given i) (Drawn.askedOf i drawn)).map .int := by
  -- the turns are told from the first on, so what is left of them meets changed iterators
  induction turns generalizing w iterators given with
  | nil => exact ⟨[], w, rfl, nofun, fun i => by simp [Drawn.itemsOf, Drawn.askedOf, Range.extract]⟩
  | cons turn turns ih =>
    cases turn with
    | iterate =>
      have walked := positionsOf_apply_of_some (c := c) held counts positions
      obtain ⟨drawn, w', run, within, items⟩ := ih (held.insert (.iterator r 0)) iterating.made
      refine ⟨drawn, w', ?_, within, items⟩
      simp only [takeTurns, Eval.bind_apply, walked, Eval.allocate_apply, run, List.nil_append]
    | draw i take =>
      cases place : iterators[i]? with
      | none =>
        obtain ⟨drawn, w', run, within, items⟩ := ih held iterating
        refine ⟨drawn, w', ?_, within, items⟩
        rw [takeTurns, place]
        exact run
      | some v =>
        have cell := iterating.held i v place
        obtain ⟨b, rfl⟩ := World.object_of_cell? cell
        obtain ⟨drawn, w', run, within, items⟩ :=
          ih (held.store cell (.iterator r (given i + (r.extract (given i) take).length)))
            (iterating.drawn place _)
        refine ⟨{ iterator := i, asked := take, items := (r.extract (given i) take).map .int } ::
          drawn, w', ?_, ?_, fun j => ?_⟩
        · simp only [takeTurns, place, Eval.bind_apply, drawNext_iterator_apply cell, run,
            Eval.pure_apply, List.nil_append]
        · rw [List.forall_mem_cons]
          refine ⟨?_, within⟩
          rw [List.length_map]
          exact r.length_extract_le _ _
        · rw [Drawn.itemsOf_cons, Drawn.askedOf_cons, items j]
          by_cases same : i = j
          · subst same
            rw [if_pos rfl, if_pos rfl, Function.update_self, ← List.map_append, r.extract_append]
          · rw [if_neg same, if_neg same, Function.update_of_ne (Ne.symm same), List.nil_append,
              Nat.zero_add]

end

/-! ## Visiting what a slice comes to -/

/--
A slice, of whatever bounds that count as integers, is adjusted to a length under words whose
signed part fits the host's. It then has no more positions than the length and the greatest index
allow, and how many follows from its window in closed form. That is what counting them gives. If
iterators are made of it and drawn from in any turns, each gives the first positions in order, as
many as it was asked for; and if it ever gives fewer than that, it has given all of them.
-/
theorem adjustBounds_visited (c : Callbacks) {w : World} {b : Bounds} {s : Saturated}
    (counts : b.CountAs s) (pos : 1 ≤ w.words.isizeMax)
    (fits : w.words.isizeMax ≤ Words.host.isizeMax) (nonzero : s.step ≠ 0) {length : Int}
    (nonneg : 0 ≤ length) :
    ∃ (a : Adjusted) (v : Window) (r : Range),
      adjustBounds c b length w = { outcome := .ok a, events := [], world := w } ∧
        a.Shows v ∧
        (r.size : Int) ≤ min length w.words.isizeMax ∧
        (r.size : Int) =
          (if v.stop ≤ v.start then 0 else (v.stop - v.start - 1) / v.step.getD 1 + 1) ∧
        ∀ (w' : World) (x : Value), w'.HoldsAdjusted x a →
          positionsOf c x w' = { outcome := .ok r, events := [], world := w' } ∧
            countOf c x w' = { outcome := .ok r.size, events := [], world := w' } ∧
            ∀ turns : List Turn, ∃ (drawn : List Drawn) (w'' : World),
              takeTurns c x [] turns w' = { outcome := .ok drawn, events := [], world := w'' } ∧
                ∀ i,
                  Drawn.itemsOf i drawn = (r.toList.take (Drawn.askedOf i drawn)).map .int ∧
                    ((∃ d ∈ drawn, d.iterator = i ∧ d.items.length < d.asked) →
                      Drawn.itemsOf i drawn = r.toList.map .int) := by
  obtain ⟨a, run, shows⟩ := adjustBounds_countAs c counts nonneg w
  have wellFormed := Saturated.window_wellFormed pos nonzero nonneg
  generalize s.window w.words length = v at shows wellFormed
  obtain ⟨r, positions, -⟩ := Window.walked_of_pos wellFormed.pos
  have size := Window.size_positions rfl wellFormed.pos positions
  have bounded : (r.size : Int) ≤ min length w.words.isizeMax := by
    refine le_trans ?_ wellFormed.stop_le
    rw [size]
    have start := wellFormed.start_nonneg
    split
    · have := wellFormed.start_le_stop
      omega
    · have := Int.ediv_le_self (v.step.getD 1) (a := v.stop - v.start - 1) (by omega)
      omega
  have shown : (a.shown v.step).positions? = some r := by rw [shows.parts, positions]
  refine ⟨a, v, r, run, shows, bounded, size, fun w' x held => ?_⟩
  have walked := positionsOf_apply_of_some (c := c) held shows.step shown
  have countable : ¬Words.host.isizeMax < r.size := by omega
  refine ⟨walked, ?_, fun turns => ?_⟩
  · rw [countOf, Eval.bind_apply, walked]
    simp only [countElements, countable, if_false, Eval.pure_apply, List.nil_append]
  · obtain ⟨drawn, w'', taken, within, items⟩ :=
      takeTurns_apply (c := c) shows.step shown turns held (w'.iterating_nil r)
    have first : ∀ i,
        Drawn.itemsOf i drawn = (r.toList.take (Drawn.askedOf i drawn)).map .int := by
      intro i
      rw [items i, r.extract_zero]
    refine ⟨drawn, w'', taken, fun i => ⟨first i, ?_⟩⟩
    rintro ⟨d, mem, rfl, short⟩
    have fewer := Drawn.length_itemsOf_lt within mem short
    rw [first d.iterator, List.length_map, List.length_take] at fewer
    rw [first d.iterator, List.take_of_length_le (by omega)]

/-- A world whose words have three bits, with what the slice below comes to in it. -/
def World.tiny : World :=
  { World.initial (.twosComplement 3) with
    cells := #[.tuple [], .range (.unit 0 3), .adjusted (.object 1) (.int 2) .backward] }

/-- A slice that walks down from the end in steps of two. -/
def Saturated.downFromEnd : Saturated :=
  { lineage := .base, start := 3, stop := -4, step := -2 }

/-- Two iterators drawn from in between each other give the same two positions, the last first. -/
theorem adjustBounds_visited_downFromEnd :
    1 ≤ World.tiny.words.isizeMax ∧ World.tiny.words.isizeMax ≤ Words.host.isizeMax ∧
      Saturated.downFromEnd.bounds.CountAs .downFromEnd ∧ Saturated.downFromEnd.step ≠ 0 ∧
      (0 : Int) ≤ 9 ∧
      World.tiny.HoldsAdjusted (.object 2)
        { stretch := .unit 0 3, step := .int 2, direction := .backward } ∧
      countOf (.ofDepth 0) (.object 2) .tiny =
        { outcome := .ok 2, events := [], world := .tiny } ∧
      ∃ (drawn : List Drawn) (w : World),
        takeTurns (.ofDepth 0) (.object 2) []
            [.iterate, .draw 0 1, .iterate, .draw 1 5, .draw 0 5] .tiny =
          { outcome := .ok drawn, events := [], world := w } ∧
          Drawn.itemsOf 0 drawn = [.int 2, .int 0] ∧ Drawn.itemsOf 1 drawn = [.int 2, .int 0] := by
  have pos : 1 ≤ World.tiny.words.isizeMax := by decide
  have fits : World.tiny.words.isizeMax ≤ Words.host.isizeMax := by decide
  have counts := Saturated.downFromEnd.bounds_countAs
  have nonzero : Saturated.downFromEnd.step ≠ 0 := by decide
  have nonneg : (0 : Int) ≤ 9 := by decide
  have held : World.tiny.HoldsAdjusted (.object 2)
      { stretch := .unit 0 3, step := .int 2, direction := .backward } := ⟨.object 1, rfl, rfl⟩
  obtain ⟨a, v, r, run, -, -, -, visited⟩ :=
    adjustBounds_visited (.ofDepth 0) (w := .tiny) counts pos fits nonzero nonneg
  have adjusted : a = { stretch := .unit 0 3, step := .int 2, direction := .backward } :=
    Except.ok.inj ((congrArg (fun run : Run Adjusted => run.outcome) run).symm.trans rfl)
  subst adjusted
  obtain ⟨walked, counted, draws⟩ := visited .tiny (.object 2) held
  have positions : r = { start := 2, stop := -1, step := -2, step_ne_zero := by decide } :=
    Except.ok.inj ((congrArg (fun run : Run Range => run.outcome) walked).symm.trans rfl)
  subst positions
  obtain ⟨drawn, w, taken, items⟩ := draws [.iterate, .draw 0 1, .iterate, .draw 1 5, .draw 0 5]
  have given : Except.ok drawn = (.ok _ : Except Fault (List Drawn)) :=
    (congrArg (fun run : Run (List Drawn) => run.outcome) taken).symm.trans rfl
  obtain rfl := Except.ok.inj given
  refine ⟨pos, fits, counts, nonzero, nonneg, held, counted, _, w, taken, ?_, ?_⟩
  · rw [(items 0).1]
    rfl
  · rw [(items 1).1]
    rfl

end Slicing
