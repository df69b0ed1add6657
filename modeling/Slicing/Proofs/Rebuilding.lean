import Slicing.Proofs.Tuples

/-!
# Rebuilding slices

A stored form and a deep copy keep the bounds of a slice as a list that the constructor takes. The
list is as short as it can be: where the start is absent it is the stop alone, and the constructor
takes a bound alone for the stop. So a step goes with the start that is left out.

* `Slice.ofArguments_arguments_eq` — the list rebuilds the slice, but for the step without a start
* `copy_slice_apply` — copying a slice with immediate bounds makes that slice and nothing else
* `copy_slice_kept_iff` — so a slice comes back as it was exactly if it has a start or no step
-/

namespace Slicing

/-! ## Bounds -/

namespace Value

/-- Whether a value is what it says, and no object. -/
def isImmediate : Value → Bool
  | object _ => false
  | _ => true

theorem isImmediate_given {v : Value} (h : v.isImmediate = true) : v.given.isImmediate = true := by
  cases v <;> first | rfl | simp [isImmediate] at h

/-- Two bounds that read the same and are both there or both left out are one bound. -/
theorem eq_of_given {a b : Value} (reads : a.given = b.given)
    (presence : a.isPresent = b.isPresent) : a = b := by
  by_cases present : b.isPresent = true
  · rw [given_of_isPresent present, given_of_isPresent (presence.trans present)] at reads
    exact reads
  · have absent (v : Value) (h : ¬v.isPresent = true) : v = .absent := by
      simpa [isPresent] using h
    rw [absent b present, absent a (by rwa [presence])]

end Value

/-! ## Through the list of bounds -/

namespace Slice

/-- What becomes of a slice that is rebuilt from its list of bounds. -/
def rebuilt (s : Slice) : Slice :=
  if s.start.isPresent then s else { s with step := .absent }

variable {s t : Slice} {lineage : Lineage} {arguments : List Value}

theorem ofArguments_arguments_eq (s : Slice) :
    ofArguments s.lineage s.arguments = .ok s.rebuilt := by
  unfold rebuilt
  by_cases start : s.start.isPresent = true
  · rw [if_pos start]
    exact ofArguments_arguments (.inl start)
  · rw [if_neg start]
    have absent : s.start = .absent := by simpa [Value.isPresent] using start
    have alone : s.arguments = [s.stop] := if_pos (by simp [start])
    rw [alone, ofArguments, absent]

theorem rebuilt_eq_iff : s.rebuilt = s ↔ s.start.isPresent = true ∨ s.step = .absent := by
  obtain ⟨lineage, start, stop, step⟩ := s
  unfold rebuilt
  by_cases present : start.isPresent = true
  · simp [present]
  · simp [present, eq_comm]

@[simp] theorem rebuilt_lineage : s.rebuilt.lineage = s.lineage := by
  unfold rebuilt
  split <;> rfl

/-- Rebuilding leaves all that a slice reads as, but perhaps its step. -/
theorem rebuilt_bounds : s.rebuilt.bounds = { s.bounds with step := s.rebuilt.step.given } := by
  unfold rebuilt
  split <;> rfl

theorem rebuilt_bounds_eq_iff :
    s.rebuilt.bounds = s.bounds ↔ s.rebuilt.step.given = s.step.given := by
  rw [rebuilt_bounds, Bounds.mk.injEq]
  exact ⟨fun same => same.2.2, fun same => ⟨rfl, rfl, same⟩⟩

theorem rebuilt_step_given :
    s.rebuilt.step.given = s.step.given ∨ s.rebuilt.step.given = .null := by
  unfold rebuilt
  split
  · exact .inl rfl
  · exact .inr rfl

/-- What a slice reads as and which bounds it has determine the slice. -/
theorem eq_of_bounds (kind : t.lineage = s.lineage) (reads : t.bounds = s.bounds)
    (presence : ∀ field, (t.held field).isPresent = (s.held field).isPresent) : t = s := by
  obtain ⟨lineage, start, stop, step⟩ := s
  obtain ⟨lineage', start', stop', step'⟩ := t
  obtain ⟨hstart, hstop, hstep⟩ := Bounds.mk.inj reads
  rw [mk.injEq]
  exact ⟨kind, Value.eq_of_given hstart (presence .start), hstop,
    Value.eq_of_given hstep (presence .step)⟩

/-- A slice holds nothing but what it was built from. -/
theorem held_of_ofArguments (h : ofArguments lineage arguments = .ok s) (field : Field) :
    s.held field = .absent ∨ s.held field ∈ arguments := by
  match arguments, h with
  | [_], rfl | [_, _], rfl | [_, _, _], rfl => cases field <;> simp [held]

theorem lineage_of_ofArguments (h : ofArguments lineage arguments = .ok s) :
    s.lineage = lineage := by
  match arguments, h with
  | [_], rfl | [_, _], rfl | [_, _, _], rfl => rfl

theorem mem_arguments {v : Value} (h : v ∈ s.arguments) : ∃ field, s.held field = v := by
  have places : v = s.start ∨ v = s.stop ∨ v = s.step := by
    unfold arguments at h
    grind
  obtain rfl | rfl | rfl := places
  · exact ⟨.start, rfl⟩
  · exact ⟨.stop, rfl⟩
  · exact ⟨.step, rfl⟩

end Slice

/-! ## Copying -/

section

variable {c : Callbacks} {source : CopySource} {fuel : Nat}

theorem copyValue_of_isImmediate {v : Value} (h : v.isImmediate = true) :
    copyValue c source fuel v = pure v := by
  cases v with
  | object => simp [Value.isImmediate] at h
  | _ => cases fuel <;> rfl

theorem mapM_copyValue_of_isImmediate {vs : List Value} (h : ∀ v ∈ vs, v.isImmediate = true) :
    vs.mapM (copyValue c source fuel) = pure vs := by
  induction vs with
  | nil => rfl
  | cons v vs ih =>
    rw [List.mapM_cons, copyValue_of_isImmediate (h v (by simp)), pure_bind,
      ih fun u hu => h u (by simp [hu]), pure_bind]

/-- Reached for the first time, a slice with immediate bounds is rebuilt and enters the table. -/
theorem copyValue_slice_apply {w u : World} {a : Address} {s : Slice}
    (found : source.world w = { outcome := .ok u, events := [], world := w })
    (held : u.cell? (.object a) = some (.slice s))
    (immediate : ∀ bound ∈ s.arguments, bound.isImmediate = true) :
    (copyValue c source (fuel + 1) (.object a)).run [] w =
      { outcome := .ok (w.fresh, [(a, w.fresh)])
        events := []
        world := w.insert (.slice s.rebuilt) } := by
  rw [copyValue]
  simp only [Copying.known?, bind_assoc, StateT.run_bind, StateT.run_get, pure_bind,
    List.lookup_nil, StateT.run_monadLift, monadLift_self]
  rw [Eval.bind_apply, found]
  simp only [held, mapM_copyValue_of_isImmediate immediate, pure_bind, Eval.allocateSlice,
    Slice.ofArguments_arguments_eq, Eval.ofExcept_ok]
  rfl

/-- What is copied at one level is copied with the levels there are. -/
theorem copyAll_object_apply {w w' : World} {a : Address} {u : Value} {table : CopyTable}
    (run : ∀ fuel, (copyValue c source (fuel + 1) (.object a)).run [] w =
      { outcome := .ok (u, table), events := [], world := w' }) :
    copyAll c source (.object a) w = { outcome := .ok u, events := [], world := w' } := by
  unfold copyAll
  rw [Eval.bind_apply, Eval.world_apply]
  dsimp only
  rw [Nat.add_right_comm, Eval.bind_apply, run]
  rfl

/-- A copy that is no shallow one goes into what an object holds, and finds it as it is now. -/
theorem copy_eq_copyAll {mode : CopyMode} (rebuilding : mode ≠ .shallow) (v : Value) (w : World) :
    ∃ source : CopySource,
      source.world w = { outcome := .ok w, events := [], world := w } ∧
        copy c mode v w = copyAll c source v w := by
  cases mode with
  | shallow => contradiction
  | deep => exact ⟨.live, Eval.world_apply w, rfl⟩
  | stored =>
    refine ⟨.stored w, Eval.pure_apply w w, ?_⟩
    unfold copy
    dsimp only
    rw [Eval.bind_apply, Eval.world_apply]
    rfl

/-- Copying a slice with immediate bounds makes the slice that its list of bounds builds. -/
theorem copy_slice_apply {mode : CopyMode} (rebuilding : mode ≠ .shallow) {w : World} {v : Value}
    {s : Slice} (held : w.cell? v = some (.slice s))
    (immediate : ∀ field, (s.held field).isImmediate = true) :
    copy c mode v w =
      { outcome := .ok w.fresh, events := [], world := w.insert (.slice s.rebuilt) } := by
  have arguments : ∀ bound ∈ s.arguments, bound.isImmediate = true := by
    intro bound mem
    obtain ⟨field, rfl⟩ := Slice.mem_arguments mem
    exact immediate field
  obtain ⟨source, found, copy⟩ := copy_eq_copyAll (c := c) rebuilding v w
  rw [copy]
  cases v with
  | object a => exact copyAll_object_apply fun fuel => copyValue_slice_apply found held arguments
  | _ => simp [World.cell?] at held

end

/-! ## Comparing a copy with what was copied -/

/-- Bounds that differ in nothing but perhaps their step are equal if their steps tie. -/
theorem Bounds.compare_step (c : Callbacks) (b : Bounds) (k l : Value) :
    ({ b with step := k } : Bounds).compare c .eq { b with step := l } =
      identicalOrEqual c k l := by
  simp only [Bounds.compare, Bounds.pairs, Bounds.toList, List.zip_cons_cons, List.zip_nil_left,
    List.map_cons, List.map_nil, sequenceEqual, pure_bind, identicalOrEqual_self, if_true]
  refine Eq.trans (bind_congr fun tie => ?_) (bind_pure (identicalOrEqual c k l))
  cases tie <;> rfl

section

variable {w : World} {v : Value}

/-- The missing is equal to no other immediate value, and none of them says otherwise. -/
theorem compareValues_null_apply (c : Callbacks) (immediate : v.isImmediate = true)
    (given : v ≠ .null) :
    compareValues c .eq .null v w = { outcome := .ok (.bool false), events := [], world := w } := by
  cases v with
  | null => contradiction
  | object => simp [Value.isImmediate] at immediate
  | _ => rfl

theorem identicalOrEqual_null_apply (depth : Nat) (immediate : v.isImmediate = true) :
    identicalOrEqual (.ofDepth (depth + 1)) .null v w =
      { outcome := .ok (decide (.null = v)), events := [], world := w } := by
  unfold identicalOrEqual
  by_cases null : Value.null = v
  · rw [if_pos null, Eval.pure_apply, decide_eq_true null]
  · rw [if_neg null, Eval.bind_apply]
    have answer := compareValues_null_apply (w := w) (.ofDepth depth) immediate (Ne.symm null)
    have compare : (Callbacks.ofDepth (depth + 1)).compare .eq .null v w = _ := answer
    rw [compare, decide_eq_false null]
    rfl

/-- A slice and what it is rebuilt as are equal exactly if they read the same. -/
theorem compareValues_rebuilt_apply (depth : Nat) {u : Value} {s : Slice}
    (hu : w.cell? u = some (.slice s.rebuilt)) (hv : w.cell? v = some (.slice s))
    (immediate : ∀ field, (s.held field).isImmediate = true) :
    (compareValues (.ofDepth (depth + 1)) .eq u v w).outcome =
      .ok (.bool (decide (s.rebuilt.bounds = s.bounds))) := by
  -- all that is left to compare is the step that was rebuilt, if it was, and the one that was not
  have compared : s.rebuilt.bounds.compare (.ofDepth (depth + 1)) .eq s.bounds w =
      { outcome := .ok (decide (s.rebuilt.bounds = s.bounds)), events := [], world := w } := by
    calc s.rebuilt.bounds.compare (.ofDepth (depth + 1)) .eq s.bounds w
      _ = identicalOrEqual (.ofDepth (depth + 1)) s.rebuilt.step.given s.step.given w := by
        rw [Slice.rebuilt_bounds]
        exact congrFun (Bounds.compare_step _ s.bounds _ _) w
      _ = { outcome := .ok (decide (s.rebuilt.step.given = s.step.given))
            events := []
            world := w } := by
        obtain same | null := s.rebuilt_step_given
        · rw [same, identicalOrEqual_self, Eval.pure_apply, decide_eq_true rfl]
        · rw [null]
          exact identicalOrEqual_null_apply depth (Value.isImmediate_given (immediate .step))
      _ = _ := by simp [Slice.rebuilt_bounds_eq_iff]
  have method : compareMethod (.ofDepth (depth + 1)) .eq u v w =
      { outcome := .ok (.bool (decide (s.rebuilt.bounds = s.bounds)))
        events := []
        world := w } := by
    rw [compareMethod_slice_apply hu hv, Eval.bind_apply, compared]
    rfl
  rw [compareValues_apply_of_known hu hv (by simp [Cell.kind, Slice.kind]) (by simp [method]),
    method]

end

/-! ## What comes back -/

/--
A slice that is built from one, two or three immediate values can always be rebuilt, by a deep
copy or through a stored form, and its copy is of the same kind. The copy is equal to the slice
exactly if they read the same. All three bounds come back as they were, those left out included,
exactly if the slice has a start or no step; a step without a start is lost.
-/
theorem copy_slice_kept_iff (depth : Nat) {mode : CopyMode} (rebuilding : mode ≠ .shallow)
    {lineage : Lineage} {arguments : List Value} {s : Slice}
    (immediate : ∀ bound ∈ arguments, bound.isImmediate = true)
    (built : Slice.ofArguments lineage arguments = .ok s) {w : World} {v : Value}
    (held : w.cell? v = some (.slice s)) :
    ∃ t : Slice,
      Slice.ofArguments s.lineage s.arguments = .ok t ∧
        copy (.ofDepth (depth + 1)) mode v w =
          { outcome := .ok w.fresh, events := [], world := w.insert (.slice t) } ∧
        t.lineage = lineage ∧
        (compareValues (.ofDepth (depth + 1)) .eq w.fresh v (w.insert (.slice t))).outcome =
          .ok (.bool (decide (t.bounds = s.bounds))) ∧
        ((t.bounds = s.bounds ∧
            ∀ field, (t.held field).isPresent = (s.held field).isPresent) ↔
          s.start.isPresent = true ∨ s.step = .absent) ∧
        (s.start = .absent → t = { s with step := .absent }) := by
  have inside : ∀ field, (s.held field).isImmediate = true := by
    intro field
    obtain absent | mem := Slice.held_of_ofArguments built field
    · rw [absent]
      rfl
    · exact immediate _ mem
  have kind : s.lineage = lineage := Slice.lineage_of_ofArguments built
  refine ⟨s.rebuilt, s.ofArguments_arguments_eq, ?_, s.rebuilt_lineage.trans kind, ?_, ?_, ?_⟩
  · exact copy_slice_apply rebuilding held inside
  · exact compareValues_rebuilt_apply depth (World.cell?_insert_fresh w _)
      (World.cell?_insert_of_some held _) inside
  · rw [← Slice.rebuilt_eq_iff]
    exact ⟨fun ⟨reads, presence⟩ => Slice.eq_of_bounds s.rebuilt_lineage reads presence,
      fun kept => by simp [kept]⟩
  · intro absent
    simp [Slice.rebuilt, absent, Value.isPresent]

/-- A slice with a step and a start, which is given as nothing in particular. -/
def Slice.started : Slice :=
  { lineage := .derived, start := .null, stop := .text "b", step := .bool true }

/-- A slice with a step and no start. -/
def Slice.startless : Slice :=
  { lineage := .base, start := .absent, stop := .int 5, step := .int 3 }

/-- A world with nothing but the two slices. -/
def World.copied : World :=
  { World.initial .host with cells := #[.tuple [], .slice .started, .slice .startless] }

/-- The start is there, so the step comes back. -/
theorem copy_slice_kept_iff_started :
    Slice.ofArguments .derived [.null, .text "b", .bool true] = .ok .started ∧
      ∃ t : Slice,
        copy (.ofDepth 1) .deep (.object 1) .copied =
            { outcome := .ok (.object 3), events := [], world := World.copied.insert (.slice t) } ∧
          t.bounds = Slice.started.bounds ∧
          ∀ field, (t.held field).isPresent = (Slice.started.held field).isPresent := by
  have built : Slice.ofArguments .derived [.null, .text "b", .bool true] = .ok .started := rfl
  have deep : CopyMode.deep ≠ .shallow := by decide
  have immediate : ∀ bound ∈ [Value.null, .text "b", .bool true], bound.isImmediate = true := by
    decide
  have held : World.copied.cell? (.object 1) = some (.slice .started) := rfl
  obtain ⟨t, -, run, -, -, kept, -⟩ := copy_slice_kept_iff 0 deep immediate built held
  exact ⟨built, t, run, kept.mpr (.inl rfl)⟩

/-- Without a start the list of bounds is the stop alone, and the step is lost. -/
theorem copy_slice_startless :
    Slice.ofArguments .base [.absent, .int 5, .int 3] = .ok .startless ∧
      Slice.startless.arguments = [.int 5] ∧
      ∃ t : Slice,
        Slice.ofArguments .base Slice.startless.arguments = .ok t ∧
          copy (.ofDepth 1) .stored (.object 2) .copied =
            { outcome := .ok (.object 3), events := [], world := World.copied.insert (.slice t) } ∧
          t.bounds.step = .null ∧
          Slice.startless.bounds.step = .int 3 ∧
          (compareValues (.ofDepth 1) .eq (.object 3) (.object 2)
            (World.copied.insert (.slice t))).outcome = .ok (.bool false) := by
  refine ⟨rfl, rfl, Slice.startless.rebuilt, rfl, ?_, rfl, rfl, rfl⟩
  exact copy_slice_apply (by decide) rfl fun field => by cases field <;> rfl

end Slicing
