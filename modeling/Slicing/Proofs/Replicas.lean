import Slicing.Proofs.Forms

/-!
# Replicas

One part of a world may be another part over again: each object has a counterpart that holds the
counterparts of what the object holds, and is new unless nothing in it could change. Such a replica
has the same shape as its original, shares within itself what the original shares, and shares
nothing with it that can change.

* `World.Replica.follow_counterpart` — the same places hold counterparts
* `World.Replica.constant_of_shared` — what both come to is constant
* `World.Replica.compareValues_settles` — a replica equals its original, and nothing is called
-/

namespace Slicing

/-! ## Places -/

namespace World

/-- Each object of the world holds in the other one what it holds in this; there may be new ones. -/
structure Extends (w w' : World) : Prop where
  kept : ∀ {v : Value} {cell : Cell}, w.cell? v = some cell → w'.cell? v = some cell
  words : w'.words = w.words
  held : w'.held = w.held
  names : w'.names = w.names

theorem Extends.refl (w : World) : w.Extends w :=
  ⟨id, rfl, rfl, rfl⟩

theorem Extends.trans {w w' w'' : World} (h : w.Extends w') (h' : w'.Extends w'') :
    w.Extends w'' :=
  ⟨fun held => h'.kept (h.kept held), h'.words.trans h.words, h'.held.trans h.held,
    h'.names.trans h.names⟩

theorem Extends.insert (w : World) (cell : Cell) : w.Extends (w.insert cell) :=
  ⟨fun held => cell?_insert_of_some held cell, rfl, rfl, rfl⟩

/--
The value is no object, or nothing in it can change: it is a number, an object of someone else's,
or a tuple of such values.
-/
inductive Constant (w : World) : Value → Prop where
  | immediate {v : Value} (h : v.isImmediate = true) : Constant w v
  | float {a : Address} {written : String} (held : w.cell? (.object a) = some (.float written)) :
    Constant w (.object a)
  | scripted {a : Address} {s : Script} {calls : Nat}
    (held : w.cell? (.object a) = some (.scripted s calls)) : Constant w (.object a)
  | tuple {a : Address} {items : List Value} (held : w.cell? (.object a) = some (.tuple items))
    (constant : ∀ x ∈ items, Constant w x) : Constant w (.object a)

theorem cell?_of_isImmediate {v : Value} (h : v.isImmediate = true) (w : World) :
    w.cell? v = none := by
  cases v with
  | object a => simp [Value.isImmediate] at h
  | _ => rfl

/-- The value that a path of places leads to. -/
def follow (w : World) : List Nat → Value → Option Value
  | [], v => some v
  | i :: path, v => (w.cell? v).bind fun cell => cell.parts[i]?.bind (w.follow path)

end World

namespace World.Constant

variable {w : World} {x y : Value} {cell : Cell}

theorem held (h : w.Constant x) (held : w.cell? x = some cell) :
    (∃ written, cell = .float written) ∨ (∃ s calls, cell = .scripted s calls) ∨
      ∃ items, cell = .tuple items ∧ ∀ y ∈ items, w.Constant y := by
  cases h with
  | immediate immediate => simp [cell?_of_isImmediate immediate w] at held
  | @float a written held' =>
    exact .inl ⟨written, Option.some.inj (held.symm.trans held')⟩
  | @scripted a s calls held' =>
    exact .inr (.inl ⟨s, calls, Option.some.inj (held.symm.trans held')⟩)
  | @tuple a items held' constant =>
    exact .inr (.inr ⟨items, Option.some.inj (held.symm.trans held'), constant⟩)

theorem parts (h : w.Constant x) (held : w.cell? x = some cell) (mem : y ∈ cell.parts) :
    w.Constant y := by
  rcases h.held held with ⟨written, rfl⟩ | ⟨s, calls, rfl⟩ | ⟨items, rfl, constant⟩
  · simp [Cell.parts] at mem
  · simp [Cell.parts] at mem
  · exact constant y mem

theorem grown {w' : World} (h : w.Constant x) (growth : w.Extends w') : w'.Constant x := by
  induction h with
  | immediate immediate => exact .immediate immediate
  | float held => exact .float (growth.kept held)
  | scripted held => exact .scripted (growth.kept held)
  | tuple held _ ih => exact .tuple (growth.kept held) ih

/-- No list, no set and no slice is constant. -/
theorem kind_ne (h : w.Constant x) :
    w.kind x ≠ .list ∧ w.kind x ≠ .set ∧ ∀ lineage, w.kind x ≠ .slice lineage := by
  cases h with
  | immediate immediate =>
    cases x with
    | object a => simp [Value.isImmediate] at immediate
    | _ => simp [kind]
  | float held | tuple held => simp [kind_of_cell? held, Cell.kind]
  | @scripted a s calls held =>
    cases s
    simp [kind_of_cell? held, Cell.kind, Script.kind]

end World.Constant

/-! ## Counterparts of what is held -/

/-- The slice with the counterparts of its bounds. -/
def Slice.map (f : Value → Value) (s : Slice) : Slice :=
  { s with start := f s.start, stop := f s.stop, step := f s.step }

/-- What an object holds, with counterparts in place of other values. -/
def Cell.map (f : Value → Value) : Cell → Cell
  | list items => list (items.map f)
  | tuple items => tuple (items.map f)
  | slice s => slice (s.map f)
  | cell => cell

theorem Slice.ofArguments_map {lineage : Lineage} {arguments : List Value} {s : Slice}
    (built : ofArguments lineage arguments = .ok s) {f : Value → Value}
    (absent : f .absent = .absent) :
    ofArguments lineage (arguments.map f) = .ok (s.map f) := by
  match arguments, built with
  | [stop], rfl => simp [ofArguments, map, absent]
  | [start, stop], rfl => simp [ofArguments, map, absent]
  | [start, stop, step], rfl => rfl

theorem Cell.kind_map (f : Value → Value) (cell : Cell) : (cell.map f).kind = cell.kind := by
  cases cell <;> rfl

theorem Value.isPresent_map {f : Value → Value} {v : Value} (absent : f .absent = .absent)
    (present : f v = .absent → v = .absent) : (f v).isPresent = v.isPresent := by
  rw [Bool.eq_iff_iff, isPresent, isPresent, bne_iff_ne, bne_iff_ne]
  exact not_congr ⟨present, fun same => same ▸ absent⟩

/-- The counterpart of a slice is rebuilt from the counterparts of what rebuilds the slice. -/
theorem Slice.arguments_map {f : Value → Value} {s : Slice} (absent : f .absent = .absent)
    (present : ∀ v ∈ s.arguments, f v = .absent → v = .absent) :
    (s.map f).arguments = s.arguments.map f := by
  have start : (f s.start).isPresent = s.start.isPresent := by
    refine Value.isPresent_map absent fun copy => ?_
    by_cases given : s.start = .absent
    · exact given
    · have mem : s.start ∈ s.arguments := by
        unfold arguments
        grind [Value.isPresent]
      exact present _ mem copy
  have step (h : s.start.isPresent = true) : (f s.step).isPresent = s.step.isPresent := by
    refine Value.isPresent_map absent fun copy => ?_
    by_cases given : s.step = .absent
    · exact given
    · have mem : s.step ∈ s.arguments := by
        unfold arguments
        grind [Value.isPresent]
      exact present _ mem copy
  unfold arguments map
  dsimp only
  rw [start]
  by_cases hstart : s.start.isPresent = true
  · rw [step hstart]
    by_cases hstep : s.step.isPresent = true <;> simp [hstart, hstep]
  · simp [hstart]

/--
The world `w'` has grown from `w`, and in it everything covered has a counterpart. What is constant
is its own; anything else has a new one, which holds the counterparts of what it holds itself.
-/
structure World.Replica (w w' : World) (f : Value → Value) (covered : Value → Prop) : Prop where
  grown : w.Extends w'
  covers : ∀ {x : Value}, w.Constant x → covered x
  constant : ∀ {x : Value}, w.Constant x → f x = x
  moved : ∀ {x : Value}, covered x → ¬w.Constant x → ∃ cell : Cell,
    w.cell? x = some cell ∧ w.cell? (f x) = none ∧ w'.cell? (f x) = some (cell.map f)
  closed : ∀ {x y : Value} {cell : Cell}, covered x → w.cell? x = some cell → y ∈ cell.parts →
    covered y
  injective : ∀ {x y : Value}, covered x → covered y → f x = f y → x = y

namespace World.Replica

variable {w w' : World} {f : Value → Value} {covered : Value → Prop} {x y : Value}

theorem absent (h : w.Replica w' f covered) : f .absent = .absent :=
  h.constant (.immediate rfl)

theorem eq_absent (h : w.Replica w' f covered) (mem : covered x) (copy : f x = .absent) :
    x = .absent :=
  h.injective mem (h.covers (.immediate rfl)) (copy.trans h.absent.symm)

/-- Whatever is covered is constant or an object of the old world. -/
theorem immediate_or_held (h : w.Replica w' f covered) (mem : covered x) :
    x.isImmediate = true ∨ ∃ cell, w.cell? x = some cell := by
  by_cases constant : w.Constant x
  · cases constant with
    | immediate immediate => exact .inl immediate
    | float held | scripted held | tuple held => exact .inr ⟨_, held⟩
  · obtain ⟨cell, held, -⟩ := h.moved mem constant
    exact .inr ⟨cell, held⟩

theorem parts_map (h : w.Replica w' f covered) (mem : covered x) {cell : Cell}
    (held : w.cell? x = some cell) : (cell.map f).parts = cell.parts.map f := by
  cases cell with
  | slice s =>
    refine Slice.arguments_map h.absent fun v hv copy => ?_
    exact h.eq_absent (h.closed mem held hv) copy
  | _ => rfl

/-! ## Places that hold counterparts -/

theorem parts_counterpart (h : w.Replica w' f covered) (mem : covered x) :
    (w'.cell? (f x)).map Cell.parts = (w.cell? x).map fun cell => cell.parts.map f := by
  by_cases constant : w.Constant x
  · rw [h.constant constant]
    cases held : w.cell? x with
    | none =>
      rcases h.immediate_or_held mem with immediate | ⟨cell, some⟩
      · rw [World.cell?_of_isImmediate immediate]
        rfl
      · exact absurd (held.symm.trans some) nofun
    | some cell =>
      have own (y : Value) (part : y ∈ cell.parts) : f y = y :=
        h.constant (constant.parts held part)
      have same : cell.parts.map f = cell.parts :=
        (List.map_congr_left own).trans (List.map_id cell.parts)
      rw [h.grown.kept held, Option.map_some, Option.map_some, same]
  · obtain ⟨cell, held, -, copied⟩ := h.moved mem constant
    rw [held, copied, Option.map_some, Option.map_some, h.parts_map mem held]

theorem covered_of_follow (h : w.Replica w' f covered) (mem : covered x) {path : List Nat}
    (follow : w.follow path x = some y) : covered y := by
  induction path generalizing x with
  | nil => exact Option.some.inj follow ▸ mem
  | cons i path ih =>
    obtain ⟨cell, held, place⟩ := Option.bind_eq_some_iff.mp follow
    obtain ⟨z, part, rest⟩ := Option.bind_eq_some_iff.mp place
    exact ih (h.closed mem held (List.mem_of_getElem? part)) rest

/-- The same places hold counterparts. -/
theorem follow_counterpart (h : w.Replica w' f covered) (mem : covered x) (path : List Nat) :
    w'.follow path (f x) = (w.follow path x).map f := by
  induction path generalizing x with
  | nil => rfl
  | cons i path ih =>
    have parts := h.parts_counterpart mem
    cases held : w.cell? x with
    | none =>
      rw [held, Option.map_none, Option.map_eq_none_iff] at parts
      rw [World.follow, World.follow, parts, held]
      rfl
    | some cell =>
      rw [held, Option.map_some, Option.map_eq_some_iff] at parts
      obtain ⟨copy, copied, same⟩ := parts
      rw [World.follow, World.follow, copied, held, Option.bind_some, Option.bind_some, same,
        List.getElem?_map]
      cases part : cell.parts[i]? with
      | none => rfl
      | some y => exact ih (h.closed mem held (List.mem_of_getElem? part))

/-- What the original comes to, it comes to after the world has grown. -/
theorem follow_grown (h : w.Replica w' f covered) (mem : covered x) (path : List Nat) :
    w'.follow path x = w.follow path x := by
  induction path generalizing x with
  | nil => rfl
  | cons i path ih =>
    rw [World.follow, World.follow]
    rcases h.immediate_or_held mem with immediate | ⟨cell, held⟩
    · rw [World.cell?_of_isImmediate immediate, World.cell?_of_isImmediate immediate]
      rfl
    · rw [h.grown.kept held, held, Option.bind_some, Option.bind_some]
      cases part : cell.parts[i]? with
      | none => rfl
      | some y => exact ih (h.closed mem held (List.mem_of_getElem? part))

/-- Two places of a replica hold the same object exactly if those of the original do. -/
theorem follow_eq_iff (h : w.Replica w' f covered) (mem : covered x) (p q : List Nat) :
    w'.follow p (f x) = w'.follow q (f x) ↔ w.follow p x = w.follow q x := by
  rw [h.follow_counterpart mem, h.follow_counterpart mem]
  constructor
  · intro same
    cases left : w.follow p x with
    | none =>
      rw [left, Option.map_none, eq_comm, Option.map_eq_none_iff] at same
      exact same.symm
    | some y =>
      rw [left, Option.map_some, eq_comm, Option.map_eq_some_iff] at same
      obtain ⟨z, right, copies⟩ := same
      rw [right, h.injective (h.covered_of_follow mem left) (h.covered_of_follow mem right)
        copies.symm]
  · intro same
    rw [same]

/-- What a replica and its original both come to is constant. -/
theorem constant_of_shared (h : w.Replica w' f covered) (mem : covered x) {p q : List Nat}
    {u : Value} (copy : w'.follow p (f x) = some u) (original : w'.follow q x = some u) :
    w.Constant u := by
  rw [h.follow_counterpart mem, Option.map_eq_some_iff] at copy
  obtain ⟨y, place, rfl⟩ := copy
  rw [h.follow_grown mem] at original
  have covered_y := h.covered_of_follow mem place
  have covered_u := h.covered_of_follow mem original
  by_cases constant : w.Constant y
  · rwa [h.constant constant]
  · -- the counterpart of `y` is new, so the original cannot come to it
    obtain ⟨cell, -, new, -⟩ := h.moved covered_y constant
    rcases h.immediate_or_held covered_u with immediate | ⟨cell, held⟩
    · exact .immediate immediate
    · exact absurd (new.symm.trans held) nofun

end World.Replica

/-! ## Comparing with the original -/

/-- A slice reads as the counterparts of what the original reads as. -/
theorem Slice.get_bounds_map {f : Value → Value} {s : Slice} (null : f .null = .null)
    (absent : f .absent = .absent)
    (present : ∀ field, f (s.held field) = .absent → s.held field = .absent) (field : Field) :
    (s.map f).bounds.get field = f (s.bounds.get field) := by
  have given : (f (s.held field)).given = f (s.held field).given := by
    by_cases left : s.held field = .absent
    · rw [left, absent, Value.given, null]
    · have copy : f (s.held field) ≠ .absent := fun copy => left (present field copy)
      rw [Value.given_of_isPresent (bne_iff_ne.mpr left),
        Value.given_of_isPresent (bne_iff_ne.mpr copy)]
  cases field with
  | start => exact given
  | stop => rfl
  | step => exact given

namespace World.Replica

variable {w w' : World} {f : Value → Value} {covered : Value → Prop} {c : Callbacks} {x : Value}

/-- The bounds of a slice, as they are read, are covered with it. -/
theorem covered_bounds (h : w.Replica w' f covered) (mem : covered x) {s : Slice}
    (held : w.cell? x = some (.slice s)) {arguments : List Value}
    (built : Slice.ofArguments s.lineage arguments = .ok s) (given : .absent ∉ arguments)
    (field : Field) : covered (s.bounds.get field) := by
  have bound : s.bounds.get field ∈ s.bounds.toList := by
    cases field <;> simp [Bounds.get, Bounds.toList]
  rcases Slice.mem_bounds_of_ofArguments built given bound with null | argument
  · rw [null]
    exact h.covers (.immediate rfl)
  · rw [← Slice.arguments_of_ofArguments built given] at argument
    exact h.closed mem held argument

theorem get_bounds (h : w.Replica w' f covered) (mem : covered x) {s : Slice}
    (held : w.cell? x = some (.slice s)) {arguments : List Value}
    (built : Slice.ofArguments s.lineage arguments = .ok s) (given : .absent ∉ arguments)
    (field : Field) : (s.map f).bounds.get field = f (s.bounds.get field) := by
  refine Slice.get_bounds_map (h.constant (.immediate rfl)) h.absent (fun field copy => ?_) field
  rcases Slice.held_of_ofArguments built field with absent | argument
  · exact absent
  · rw [← Slice.arguments_of_ofArguments built given] at argument
    exact h.eq_absent (h.closed mem held argument) copy

/-- The counterparts of some values tie with them. -/
theorem firstDifference_counterparts {xs : List Value}
    (ties : ∀ x ∈ xs, identicalOrEqual c (f x) x w' =
      { outcome := .ok true, events := [], world := w' }) :
    firstDifference c ((xs.map f).zip xs) w' =
      { outcome := .ok none, events := [], world := w' } := by
  have pairs : (xs.map f).zip xs = xs.map fun x => (f x, x) := by
    simpa using List.zip_map' (f := f) (g := id) (l := xs)
  refine firstDifference_of_ties fun pair mem => ?_
  rw [pairs, List.mem_map] at mem
  obtain ⟨x, item, rfl⟩ := mem
  exact ties x item

theorem compareTuples_counterparts {xs : List Value}
    (ties : ∀ x ∈ xs, identicalOrEqual c (f x) x w' =
      { outcome := .ok true, events := [], world := w' }) :
    (compareTuples c .eq (xs.map f) xs).Settles w' (some true) := by
  show compareTuples c .eq (xs.map f) xs w' = _
  rw [compareTuples, Eval.bind_apply, firstDifference_counterparts ties]
  simp [compareOfLessAndEq, Eval.pure_apply, Comparison.holds]

/-- If what a value holds ties with its counterparts, the value equals its own. -/
theorem compareValues_counterpart_of_below (h : w.Replica w' f covered) (mem : covered x) {n : Nat}
    (nested : w.Nested True n x) (moving : ¬w.Constant x)
    (below : ∀ m y, n = m + 1 → w.Nested True m y → covered y →
      identicalOrEqual c (f y) y w' = { outcome := .ok true, events := [], world := w' }) :
    (compareValues c .eq (f x) x).Settles w' (some true) := by
  obtain ⟨cell, held, new, copied⟩ := h.moved mem moving
  have kept := h.grown.kept held
  have ties (y : Value) (part : y ∈ cell.parts) :
      identicalOrEqual c (f y) y w' = { outcome := .ok true, events := [], world := w' } := by
    obtain ⟨m, same, inner⟩ := nested.parts held part
    exact below m y same inner (h.closed mem held part)
  suffices method : (compareMethod c .eq (f x) x).Settles w' (some true) from
    method.congr
      (compareValues_apply_of_known copied kept (Cell.kind_map f cell).symm method.known)
  cases nested with
  | null | bool | int | text => exact absurd (.immediate rfl) moving
  | float held' => exact absurd (.float held') moving
  | scripted _ held' => exact absurd (.scripted held') moving
  | @set n a xs held' =>
    obtain rfl := Option.some.inj (held'.symm.trans held)
    have method := compareMethod_set_settles copied kept c .eq
    have same : compareSets .eq xs xs = true := by simp [compareSets]
    rwa [same] at method
  | list held' =>
    obtain rfl := Option.some.inj (held'.symm.trans held)
    refine (compareTuples_counterparts ties).congr ?_
    rw [compareMethod_list_apply copied kept,
      compareLists_apply copied kept (firstDifference_counterparts ties)]
    rfl
  | tuple held' =>
    obtain rfl := Option.some.inj (held'.symm.trans held)
    refine (compareTuples_counterparts ties).congr ?_
    rw [compareMethod_tuple_apply copied kept]
    rfl
  | @slice n a s arguments held' built inner =>
    obtain rfl := Option.some.inj (held'.symm.trans held)
    have given := Nested.absent_not_mem inner
    have bounds : (s.map f).bounds.toList = s.bounds.toList.map f := by
      show [(s.map f).bounds.get .start, (s.map f).bounds.get .stop, (s.map f).bounds.get .step] = _
      rw [h.get_bounds mem held built given, h.get_bounds mem held built given,
        h.get_bounds mem held built given]
      rfl
    refine compareMethod_slice_settles copied kept ?_
    rw [bounds]
    refine compareTuples_counterparts fun y bound => ?_
    rcases Slice.mem_bounds_of_ofArguments built given bound with rfl | argument
    · rw [h.constant (.immediate rfl), identicalOrEqual_self]
      rfl
    · rw [← Slice.arguments_of_ofArguments built given] at argument
      exact ties y argument

/-- A value equals its counterpart, however deep both are nested, and nothing is called for it. -/
theorem compareValues_settles (h : w.Replica w' f covered) {n depth : Nat} (deep : n ≤ depth)
    (mem : covered x) (nested : w.Nested True n x) (moving : ¬w.Constant x) :
    (compareValues (.ofDepth depth) .eq (f x) x).Settles w' (some true) := by
  induction n generalizing depth x with
  | zero => exact h.compareValues_counterpart_of_below mem nested moving nofun
  | succ n ih =>
    cases depth with
    | zero => exact absurd deep (Nat.not_succ_le_zero n)
    | succ depth =>
      refine h.compareValues_counterpart_of_below mem nested moving fun m y same inner part => ?_
      obtain rfl := Nat.succ.inj same
      by_cases constant : w.Constant y
      -- what is constant is compared with itself, so it need not know that it equals itself
      · rw [h.constant constant, identicalOrEqual_self]
        rfl
      · exact identicalOrEqual_of_settles (ih (Nat.le_of_succ_le_succ deep) part inner constant)

end World.Replica

end Slicing
