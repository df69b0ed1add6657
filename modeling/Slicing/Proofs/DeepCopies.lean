import Slicing.Proofs.Replicas

/-!
# Deep copies

A deep copy goes down into what a value holds and keeps a table of what it has copied on the way.
Whatever it comes to is in the end a replica of what it set out from: an object that is met again is
found in the table, and a tuple of which nothing was replaced is kept as it is.

* `World.Tabled` — what is known of the table throughout: it leads from what can change to new
  objects, and no two to the same
* `World.Copied` — what one more copy adds: entries that are finished, and none is ever undone
* `copyValue_copies` — copying a value adds what it holds, level by level
* `copy_deep_faithful` — so a deep copy of a slice is a replica of it, and equal to it
-/

namespace Slicing

/-! ## The table -/

/-- The copy of a value by the table; a value without an entry is its own. -/
def Value.copyIn (table : CopyTable) : Value → Value
  | object a => (table.lookup a).getD (object a)
  | v => v

/-- Every entry of the one table is an entry of the other. -/
def CopyTable.Within (table table' : CopyTable) : Prop :=
  ∀ {a : Address} {copy : Value}, table.lookup a = some copy → table'.lookup a = some copy

namespace World

/-- The table says what the copy of the value is: either there is an entry or no need for one. -/
def Settled (w : World) (table : CopyTable) (x : Value) : Prop :=
  w.Constant x ∨ ∃ (a : Address) (copy : Value), x = .object a ∧ table.lookup a = some copy

/-- The table leads from objects that are not constant to new ones, each to another. -/
structure Tabled (w w' : World) (table : CopyTable) : Prop where
  grown : w.Extends w'
  moved : ∀ {a : Address} {copy : Value}, table.lookup a = some copy → ¬w.Constant (.object a)
  new : ∀ {a : Address} {copy : Value}, table.lookup a = some copy →
    w.cell? copy = none ∧ ∃ cell, w'.cell? copy = some cell
  injective : ∀ {a b : Address} {copy : Value}, table.lookup a = some copy →
    table.lookup b = some copy → a = b

/-- The copy of the object at `a` holds the copies of what the object holds, and none is missing. -/
structure Finished (w w' : World) (n : Nat) (table : CopyTable) (a : Address) (copy : Value) :
    Prop where
  nested : w.Nested True n (.object a)
  holds : ∃ cell : Cell, w.cell? (.object a) = some cell ∧
    w'.cell? copy = some (cell.map (Value.copyIn table)) ∧ ∀ y ∈ cell.parts, w.Settled table y

/-- Between the one table and the other, objects nested at most `n` levels deep were copied. -/
structure Copied (w : World) (n : Nat) (table : CopyTable) (u : World) (table' : CopyTable)
    (u' : World) : Prop where
  tabled : w.Tabled u' table'
  grown : u.Extends u'
  kept : table.Within table'
  finished : ∀ {a : Address} {copy : Value}, table'.lookup a = some copy → table.lookup a = none →
    w.Finished u' n table' a copy

variable {w u u' : World} {n : Nat} {table table' : CopyTable} {x : Value} {a : Address}
  {copy : Value}

theorem Tabled.nil (w : World) : w.Tabled w [] :=
  ⟨.refl w, nofun, nofun, nofun⟩

/-- What is constant is its own copy. -/
theorem Tabled.copyIn_constant (h : w.Tabled u table) (constant : w.Constant x) :
    x.copyIn table = x := by
  cases x with
  | object a =>
    cases found : table.lookup a with
    | none => rw [Value.copyIn, found, Option.getD_none]
    | some copy => exact absurd constant (h.moved found)
  | _ => rfl

/-- Nothing but what is constant is its own copy. -/
theorem Tabled.constant_of_copyIn_eq (h : w.Tabled u table) (settled : w.Settled table x)
    (old : x.isImmediate = true ∨ ∃ cell, w.cell? x = some cell) (same : x.copyIn table = x) :
    w.Constant x := by
  rcases settled with constant | ⟨a, copy, rfl, found⟩
  · exact constant
  · rw [Value.copyIn, found, Option.getD_some] at same
    subst same
    rcases old with immediate | ⟨cell, held⟩
    · exact .immediate immediate
    · exact absurd ((h.new found).1.symm.trans held) nofun

theorem copyIn_of_lookup (found : table.lookup a = some copy) :
    (Value.object a).copyIn table = copy := by
  rw [Value.copyIn, found, Option.getD_some]

/-- No two values have one copy. -/
theorem Tabled.copyIn_injective (h : w.Tabled u table) {y : Value} (hx : w.Settled table x)
    (hy : w.Settled table y) (same : x.copyIn table = y.copyIn table) : x = y := by
  -- a copy is a new object, so it is no value that is constant
  have other {z : Value} (constant : w.Constant z) {a : Address}
      (found : table.lookup a = some z) : False := by
    obtain ⟨new, cell, held⟩ := h.new found
    cases constant with
    | immediate immediate =>
      exact absurd (held.symm.trans (cell?_of_isImmediate immediate u)) nofun
    | float held' | scripted held' | tuple held' => exact absurd (new.symm.trans held') nofun
  rcases hx with constant | ⟨a, copy, rfl, found⟩
  · rw [h.copyIn_constant constant] at same
    rcases hy with constant' | ⟨b, copy', rfl, found'⟩
    · rw [same, h.copyIn_constant constant']
    · rw [copyIn_of_lookup found'] at same
      exact (other constant (same ▸ found')).elim
  · rw [copyIn_of_lookup found] at same
    rcases hy with constant' | ⟨b, copy', rfl, found'⟩
    · rw [h.copyIn_constant constant'] at same
      exact (other constant' (same ▸ found)).elim
    · rw [copyIn_of_lookup found'] at same
      rw [h.injective found (same ▸ found')]

theorem Settled.mono (h : w.Settled table x)
    (kept : table.Within table') : w.Settled table' x := by
  rcases h with constant | ⟨a, copy, rfl, found⟩
  · exact .inl constant
  · exact .inr ⟨a, copy, rfl, kept found⟩

/-- Once it is settled what the copy of a value is, it stays so. -/
theorem Settled.copyIn_eq (h : w.Settled table x) (tabled : w.Tabled u table)
    (tabled' : w.Tabled u' table')
    (kept : table.Within table') : x.copyIn table' = x.copyIn table := by
  rcases h with constant | ⟨a, copy, rfl, found⟩
  · rw [tabled.copyIn_constant constant, tabled'.copyIn_constant constant]
  · rw [copyIn_of_lookup found, copyIn_of_lookup (kept found)]

/-- What the copy of an object holds depends on the copies of its parts alone. -/
theorem Nested.map_congr {scripts : Prop} (h : w.Nested scripts n x) {cell : Cell}
    (held : w.cell? x = some cell) {f g : Value → Value} (absent : f .absent = g .absent)
    (same : ∀ y ∈ cell.parts, f y = g y) : cell.map f = cell.map g := by
  cases h with
  | null | bool | int | text => simp [cell?] at held
  | float held' | scripted _ held' | set held' =>
    obtain rfl := Option.some.inj (held'.symm.trans held)
    rfl
  | list held' | tuple held' =>
    obtain rfl := Option.some.inj (held'.symm.trans held)
    exact congrArg _ (List.map_congr_left same)
  | @slice n b s arguments held' built nested =>
    obtain rfl := Option.some.inj (held'.symm.trans held)
    have bound (field : Field) : f (s.held field) = g (s.held field) := by
      rcases Slice.held_of_ofArguments built field with missing | argument
      · rw [missing, absent]
      · rw [← Slice.arguments_of_ofArguments built (absent_not_mem nested)] at argument
        exact same _ argument
    have start := bound .start
    have stop := bound .stop
    have step := bound .step
    unfold Slice.held at start stop step
    simp only [Cell.map, Slice.map, start, stop, step]

theorem Finished.mono (h : w.Finished u n table a copy) (tabled : w.Tabled u table)
    (tabled' : w.Tabled u' table') (grown : u.Extends u')
    (kept : table.Within table') : w.Finished u' n table' a copy := by
  obtain ⟨nested, cell, held, copied, settled⟩ := h
  refine ⟨nested, cell, held, ?_, fun y part => (settled y part).mono kept⟩
  rw [grown.kept copied]
  refine congrArg some (nested.map_congr held rfl fun y part => ?_)
  exact ((settled y part).copyIn_eq tabled tabled' kept).symm

theorem Copied.refl (tabled : w.Tabled u table) : w.Copied n table u table u :=
  ⟨tabled, .refl u, id, fun found missing => absurd (found.symm.trans missing) nofun⟩

theorem Copied.trans {table'' : CopyTable} {u'' : World} (h : w.Copied n table u table' u')
    (h' : w.Copied n table' u' table'' u'') : w.Copied n table u table'' u'' := by
  refine ⟨h'.tabled, h.grown.trans h'.grown, fun found => h'.kept (h.kept found), ?_⟩
  intro a copy found missing
  cases earlier : table'.lookup a with
  | none => exact h'.finished found earlier
  | some first =>
    obtain rfl := Option.some.inj ((h'.kept earlier).symm.trans found)
    exact (h.finished earlier missing).mono h.tabled h'.tabled h'.grown h'.kept

theorem lookup_cons_cases {b : Address} {copy copy' : Value}
    (found : ((a, copy') :: table).lookup b = some copy) :
    (b = a ∧ copy = copy') ∨ table.lookup b = some copy := by
  by_cases same : b = a
  · subst same
    rw [List.lookup_cons_self] at found
    exact .inl ⟨rfl, (Option.some.inj found).symm⟩
  · have other : (b == a) = false := beq_false_of_ne same
    rw [List.lookup_cons, other] at found
    exact .inr found

/-- A new object that is entered as a copy. -/
theorem Tabled.record (h : w.Tabled u table) (missing : table.lookup a = none)
    (moving : ¬w.Constant (.object a)) (cell : Cell) :
    w.Tabled (u.insert cell) ((a, u.fresh) :: table) := by
  have grown : u.Extends (u.insert cell) := .insert u cell
  have unused : u.cell? u.fresh = none := by simp [cell?, fresh]
  have fresh {d : Address} (earlier : table.lookup d = some u.fresh) : False := by
    obtain ⟨-, cell', held⟩ := h.new earlier
    cases held.symm.trans unused
  refine ⟨h.grown.trans grown, ?_, ?_, ?_⟩
  · intro b copy found
    rcases lookup_cons_cases found with ⟨rfl, -⟩ | found
    · exact moving
    · exact h.moved found
  · intro b copy found
    rcases lookup_cons_cases found with ⟨rfl, rfl⟩ | found
    · refine ⟨?_, cell, cell?_insert_fresh u cell⟩
      cases old : w.cell? u.fresh with
      | none => rfl
      | some cell => cases (h.grown.kept old).symm.trans unused
    · obtain ⟨new, cell', held⟩ := h.new found
      exact ⟨new, cell', grown.kept held⟩
  · intro b b' copy found found'
    rcases lookup_cons_cases found with ⟨rfl, rfl⟩ | earlier
    · rcases lookup_cons_cases found' with ⟨rfl, -⟩ | earlier'
      · rfl
      · exact (fresh earlier').elim
    · rcases lookup_cons_cases found' with ⟨rfl, rfl⟩ | earlier'
      · exact (fresh earlier).elim
      · exact h.injective earlier earlier'

theorem within_cons (missing : table.lookup a = none) (copy : Value) :
    table.Within ((a, copy) :: table) := by
  intro b earlier found
  have other : (b == a) = false := by
    refine beq_false_of_ne ?_
    rintro rfl
    exact absurd (missing.symm.trans found) nofun
  rw [List.lookup_cons, other]
  exact found

theorem Finished.succ (h : w.Finished u n table a copy) : w.Finished u (n + 1) table a copy :=
  ⟨h.nested.succ, h.holds⟩

theorem Copied.succ (h : w.Copied n table u table' u') : w.Copied (n + 1) table u table' u' :=
  ⟨h.tabled, h.grown, h.kept, fun found missing => (h.finished found missing).succ⟩

/-- An object that is nested deeper is not among those that were copied. -/
theorem Copied.missing (h : w.Copied n table u table' u') (missing : table.lookup a = none)
    (deeper : ¬w.Nested True n (.object a)) : table'.lookup a = none := by
  cases found : table'.lookup a with
  | none => rfl
  | some copy => exact absurd (h.finished found missing).nested deeper

/-- An object is copied once what it holds is settled. -/
theorem Copied.record (tabled : w.Tabled u table) (missing : table.lookup a = none)
    (nested : w.Nested True n (.object a)) (moving : ¬w.Constant (.object a)) {cell : Cell}
    (held : w.cell? (.object a) = some cell) (settled : ∀ y ∈ cell.parts, w.Settled table y) :
    w.Copied n table u ((a, u.fresh) :: table) (u.insert (cell.map (Value.copyIn table))) := by
  have tabled' := tabled.record missing moving (cell.map (Value.copyIn table))
  have kept : table.Within ((a, u.fresh) :: table) := within_cons missing u.fresh
  refine ⟨tabled', .insert u _, kept, fun {b copy} found absent => ?_⟩
  obtain ⟨rfl, rfl⟩ : b = a ∧ copy = u.fresh := by
    rcases lookup_cons_cases found with entry | earlier
    · exact entry
    · exact absurd (absent.symm.trans earlier) nofun
  refine ⟨nested, cell, held, ?_, fun y part => (settled y part).mono kept⟩
  rw [cell?_insert_fresh]
  refine congrArg some (nested.map_congr held rfl fun y part => ?_)
  exact ((settled y part).copyIn_eq tabled tabled' kept).symm

/-- A list is copied once its items are settled and what was entered for it holds their copies. -/
theorem Copied.fill (tabled : w.Tabled u table) (missing : table.lookup a = none)
    (nested : w.Nested True n (.object a)) {items : List Value}
    (held : w.cell? (.object a) = some (.list items))
    (copied : w.Copied n ((a, u.fresh) :: table) (u.insert (.list [])) table' u')
    (settled : ∀ y ∈ items, w.Settled table' y) :
    w.Copied n table u table'
      (u'.store u.cells.size (.list (items.map (Value.copyIn table')))) := by
  have entry : table'.lookup a = some u.fresh := copied.kept List.lookup_cons_self
  have filled := cell?_store_self (copied.grown.kept (cell?_insert_fresh u (.list [])))
    (.list (items.map (Value.copyIn table')))
  have others {v : Value} (other : v ≠ u.fresh) :=
    cell?_store_of_ne (w := u') other (.list (items.map (Value.copyIn table')))
  have grown : u.Extends (u'.store u.cells.size (.list (items.map (Value.copyIn table')))) := by
    refine ⟨fun {v cell} old => ?_, copied.grown.words, copied.grown.held, copied.grown.names⟩
    have other : v ≠ u.fresh := by
      rintro rfl
      simp [cell?, fresh] at old
    rw [others other]
    exact copied.grown.kept (cell?_insert_of_some old _)
  refine ⟨⟨tabled.grown.trans grown, copied.tabled.moved, ?_, copied.tabled.injective⟩, grown,
    fun found => copied.kept (within_cons missing _ found), ?_⟩
  · intro b copy found
    obtain ⟨new, cell, made⟩ := copied.tabled.new found
    by_cases same : copy = u.fresh
    · rw [same]
      exact ⟨same ▸ new, _, filled⟩
    · exact ⟨new, cell, (others same).trans made⟩
  · intro b copy found absent
    by_cases own : b = a
    · subst own
      obtain rfl := Option.some.inj (entry.symm.trans found)
      exact ⟨nested, .list items, held, filled, settled⟩
    · have other : copy ≠ u.fresh := by
        rintro rfl
        exact own (copied.tabled.injective found entry)
      have absent' : ((a, u.fresh) :: table).lookup b = none := by
        rw [List.lookup_cons, beq_false_of_ne own]
        exact absent
      obtain ⟨nested', cell, held', holds, settled'⟩ := copied.finished found absent'
      exact ⟨nested', cell, held', (others other).trans holds, settled'⟩

end World

/-! ## Copying one value after the other -/

/--
The computation copies the value: it settles what the copy is, and gives it. All that was copied
before stays as it is.
-/
def World.CopiesTo (w : World) (n : Nat) (copyItem : Value → Copying Value) (x : Value) : Prop :=
  ∀ (table : CopyTable) (u : World), w.Tabled u table →
    ∃ (table' : CopyTable) (u' : World),
      (copyItem x).run table u =
          { outcome := .ok (x.copyIn table', table'), events := [], world := u' } ∧
        w.Copied n table u table' u' ∧ w.Settled table' x

section

variable {w u : World} {n : Nat} {table : CopyTable} {copyItem : Value → Copying Value}

theorem World.CopiesTo.succ {x : Value} (h : w.CopiesTo n copyItem x) :
    w.CopiesTo (n + 1) copyItem x := by
  intro table u tabled
  obtain ⟨table', u', run, copied, settled⟩ := h table u tabled
  exact ⟨table', u', run, copied.succ, settled⟩

/-- What is copied without a word is handed on. -/
theorem bind_run_of_run {α β : Type} {m : Copying α} {k : α → Copying β} {x : α}
    {table' : CopyTable} {u' : World}
    (run : m.run table u = { outcome := .ok (x, table'), events := [], world := u' }) :
    (m >>= k).run table u = (k x).run table' u' := by
  rw [StateT.run_bind, Eval.bind_apply, run]
  rfl

theorem mapM_copies {items : List Value} (each : ∀ x ∈ items, w.CopiesTo n copyItem x)
    (tabled : w.Tabled u table) :
    ∃ (table' : CopyTable) (u' : World),
      (items.mapM copyItem).run table u =
          { outcome := .ok (items.map (Value.copyIn table'), table'), events := [], world := u' } ∧
        w.Copied n table u table' u' ∧ ∀ x ∈ items, w.Settled table' x := by
  induction items generalizing table u with
  | nil => exact ⟨table, u, rfl, .refl tabled, nofun⟩
  | cons x items ih =>
    obtain ⟨hx, rest⟩ := List.forall_mem_cons.mp each
    obtain ⟨table₁, u₁, run₁, copied₁, settled₁⟩ := hx table u tabled
    obtain ⟨table₂, u₂, run₂, copied₂, settled₂⟩ := ih rest copied₁.tabled
    have same : x.copyIn table₂ = x.copyIn table₁ :=
      settled₁.copyIn_eq copied₁.tabled copied₂.tabled copied₂.kept
    refine ⟨table₂, u₂, ?_, copied₁.trans copied₂, ?_⟩
    · rw [List.mapM_cons, bind_run_of_run run₁, bind_run_of_run run₂, List.map_cons, same]
      rfl
    · rw [List.forall_mem_cons]
      exact ⟨settled₁.mono copied₂.kept, settled₂⟩

/-- An object is first looked for in the table. -/
theorem known?_bind_run {α : Type} {a : Address} (k : Option Value → Copying α) :
    (Copying.known? a >>= k).run table u = (k (table.lookup a)).run table u := by
  simp only [Copying.known?, bind_assoc, StateT.run_bind, StateT.run_get, pure_bind]

theorem world_bind_run {α : Type} (k : World → Copying α) :
    ((CopySource.live.world : Copying World) >>= k).run table u = (k u).run table u := by
  simp only [CopySource.world, StateT.run_bind, StateT.run_monadLift, monadLift_self, bind_assoc,
    pure_bind, Eval.world_bind_apply]

/-- A list that stays as it is while its items are copied is gone through once. -/
theorem copyItems_apply {items copies : List Value} {list : Value} {table' : CopyTable} {u' : World}
    (before : u.cell? list = some (.list items)) (after : u'.cell? list = some (.list items))
    (run : (items.mapM copyItem).run table u =
      { outcome := .ok (copies, table'), events := [], world := u' }) (rounds : Nat) :
    (copyItems .live copyItem list (rounds + 1) 0).run table u =
      { outcome := .ok (copies, table'), events := [], world := u' } := by
  have rest : (copyItems .live copyItem list rounds items.length).run table' u' =
      { outcome := .ok ([], table'), events := [], world := u' } := by
    have listed : u'.listItems list = items := by simp [World.listItems, after]
    cases rounds <;>
    · rw [copyItems, world_bind_run, listed, List.drop_length]
      rfl
  have listed : u.listItems list = items := by simp [World.listItems, before]
  rw [copyItems, world_bind_run, listed, List.drop_zero]
  cases items with
  | nil =>
    rw [← run]
    rfl
  | cons x items =>
    simp only [List.isEmpty_cons, Bool.false_eq_true, if_false, Nat.zero_add, bind_run_of_run run,
      bind_run_of_run rest, List.append_nil]
    rfl

end

/-! ## Copying a value -/

section

variable {c : Callbacks} {w u : World} {n fuel : Nat} {table : CopyTable} {a : Address}

/-- The copy of an object that has been met before is the one in the table. -/
theorem copyValue_known_apply {copy : Value} (found : table.lookup a = some copy) :
    (copyValue c .live (fuel + 1) (.object a)).run table u =
      { outcome := .ok (copy, table), events := [], world := u } := by
  rw [copyValue, known?_bind_run, found]
  rfl

theorem copyValue_leaf_apply {cell : Cell} (missing : table.lookup a = none)
    (held : u.cell? (.object a) = some cell)
    (leaf : (∃ written, cell = .float written) ∨ ∃ s calls, cell = .scripted s calls) :
    (copyValue c .live (fuel + 1) (.object a)).run table u =
      { outcome := .ok (.object a, table), events := [], world := u } := by
  rw [copyValue, known?_bind_run, missing]
  dsimp only
  rw [world_bind_run, held]
  rcases leaf with ⟨written, rfl⟩ | ⟨s, calls, rfl⟩ <;> rfl

theorem copyValue_set_apply {xs : List Int} (missing : table.lookup a = none)
    (held : u.cell? (.object a) = some (.set xs)) :
    (copyValue c .live (fuel + 1) (.object a)).run table u =
      { outcome := .ok (u.fresh, (a, u.fresh) :: table), events := []
        world := u.insert (.set xs) } := by
  rw [copyValue, known?_bind_run, missing]
  dsimp only
  rw [world_bind_run, held]
  rfl

theorem copyValue_list_apply {items copies : List Value} {table' : CopyTable} {u' : World}
    (missing : table.lookup a = none) (held : u.cell? (.object a) = some (.list items))
    (run : (items.mapM (copyValue c .live fuel)).run ((a, u.fresh) :: table) (u.insert (.list [])) =
      { outcome := .ok (copies, table'), events := [], world := u' })
    (kept : u'.cell? (.object a) = some (.list items)) :
    (copyValue c .live (fuel + 1) (.object a)).run table u =
      { outcome := .ok (u.fresh, table'), events := []
        world := u'.store u.cells.size (.list copies) } := by
  have before : (u.insert (.list [])).cell? (.object a) = some (.list items) :=
    World.cell?_insert_of_some held _
  have through := copyItems_apply before kept run c.patience
  rw [copyValue, known?_bind_run, missing]
  dsimp only
  rw [world_bind_run, held]
  simp only [Copying.record, StateT.run_bind, StateT.run_modify, StateT.run_monadLift,
    monadLift_self, bind_assoc, pure_bind, Eval.bind_apply, Eval.allocate_apply, Eval.pure_apply,
    through]
  rfl

/-- A tuple that comes to the items it holds is kept. -/
theorem copyValue_tuple_apply_of_eq {items : List Value} {table' : CopyTable} {u' : World}
    (missing : table.lookup a = none) (held : u.cell? (.object a) = some (.tuple items))
    (run : (items.mapM (copyValue c .live fuel)).run table u =
      { outcome := .ok (items, table'), events := [], world := u' })
    (missing' : table'.lookup a = none) :
    (copyValue c .live (fuel + 1) (.object a)).run table u =
      { outcome := .ok (.object a, table'), events := [], world := u' } := by
  rw [copyValue, known?_bind_run, missing]
  dsimp only
  rw [world_bind_run, held]
  dsimp only
  rw [bind_run_of_run run]
  have same : (!CopySource.live.isStored && items == items) = true := by
    simp [CopySource.isStored]
  simp only [known?_bind_run, missing', same]
  rfl

theorem copyValue_tuple_apply_of_ne {items copies : List Value} {table' : CopyTable} {u' : World}
    (missing : table.lookup a = none) (held : u.cell? (.object a) = some (.tuple items))
    (run : (items.mapM (copyValue c .live fuel)).run table u =
      { outcome := .ok (copies, table'), events := [], world := u' })
    (missing' : table'.lookup a = none) (unequal : copies ≠ items) (nonempty : copies ≠ []) :
    (copyValue c .live (fuel + 1) (.object a)).run table u =
      { outcome := .ok (u'.fresh, (a, u'.fresh) :: table'), events := []
        world := u'.insert (.tuple copies) } := by
  rw [copyValue, known?_bind_run, missing]
  dsimp only
  rw [world_bind_run, held]
  dsimp only
  rw [bind_run_of_run run]
  have other : (!CopySource.live.isStored && copies == items) = false := by
    simp [unequal]
  have some : copies.isEmpty = false := by simpa using nonempty
  simp only [known?_bind_run, missing', other, Eval.allocateTuple, some]
  rfl

theorem copyValue_slice_apply_of_run {s t : Slice} {copies : List Value} {table' : CopyTable}
    {u' : World} (missing : table.lookup a = none) (held : u.cell? (.object a) = some (.slice s))
    (run : (s.arguments.mapM (copyValue c .live fuel)).run table u =
      { outcome := .ok (copies, table'), events := [], world := u' })
    (built : Slice.ofArguments s.lineage copies = .ok t) :
    (copyValue c .live (fuel + 1) (.object a)).run table u =
      { outcome := .ok (u'.fresh, (a, u'.fresh) :: table'), events := []
        world := u'.insert (.slice t) } := by
  rw [copyValue, known?_bind_run, missing]
  dsimp only
  rw [world_bind_run, held]
  dsimp only
  rw [bind_run_of_run run]
  simp only [Eval.allocateSlice, built, Eval.ofExcept_ok, pure_bind]
  rfl

/-- What needs no copy is given back. -/
theorem copiesTo_of_constant {copyItem : Value → Copying Value} {x : Value}
    (constant : w.Constant x)
    (run : ∀ (table : CopyTable) (u : World), w.Tabled u table →
      (copyItem x).run table u = { outcome := .ok (x, table), events := [], world := u }) :
    w.CopiesTo n copyItem x := by
  intro table u tabled
  refine ⟨table, u, ?_, .refl tabled, .inl constant⟩
  rw [run table u tabled, tabled.copyIn_constant constant]

/-- A copy that has been entered is found. -/
theorem copiesTo_of_missing {a : Address}
    (missing : ∀ (table : CopyTable) (u : World), w.Tabled u table → table.lookup a = none →
      ∃ (table' : CopyTable) (u' : World),
        (copyValue c .live (fuel + 1) (.object a)).run table u =
            { outcome := .ok ((Value.object a).copyIn table', table'), events := [], world := u' } ∧
          w.Copied n table u table' u' ∧ w.Settled table' (.object a)) :
    w.CopiesTo n (copyValue c .live (fuel + 1)) (.object a) := by
  intro table u tabled
  cases found : table.lookup a with
  | none => exact missing table u tabled found
  | some copy =>
    refine ⟨table, u, ?_, .refl tabled, .inr ⟨a, copy, rfl, found⟩⟩
    rw [copyValue_known_apply found, World.copyIn_of_lookup found]

/-- At the bottom there are values that need no copy, and sets. -/
theorem copyValue_copies_bottom {x : Value} (nested : w.Nested True 0 x) :
    w.CopiesTo n (copyValue c .live (fuel + 1)) x := by
  have missing {a : Address} {table : CopyTable} {u : World} (tabled : w.Tabled u table)
      (constant : w.Constant (.object a)) : table.lookup a = none := by
    cases found : table.lookup a with
    | none => rfl
    | some copy => exact absurd constant (tabled.moved found)
  cases nested with
  | null | bool | int | text =>
    refine copiesTo_of_constant (.immediate rfl) fun table u _ => ?_
    rw [copyValue_of_isImmediate rfl]
    rfl
  | float held =>
    refine copiesTo_of_constant (.float held) fun table u tabled => ?_
    exact copyValue_leaf_apply (missing tabled (.float held)) (tabled.grown.kept held)
      (.inl ⟨_, rfl⟩)
  | scripted _ held =>
    refine copiesTo_of_constant (.scripted held) fun table u tabled => ?_
    exact copyValue_leaf_apply (missing tabled (.scripted held)) (tabled.grown.kept held)
      (.inr ⟨_, _, rfl⟩)
  | @set n a xs held =>
    refine copiesTo_of_missing fun table u tabled missing => ?_
    have moving : ¬w.Constant (.object a) := fun constant =>
      constant.kind_ne.2.1 (World.kind_of_cell? held)
    refine ⟨_, _, ?_, .record tabled missing (.set held) moving held nofun, ?_⟩
    · rw [copyValue_set_apply missing (tabled.grown.kept held),
        World.copyIn_of_lookup List.lookup_cons_self]
      rfl
    · exact .inr ⟨a, u.fresh, rfl, List.lookup_cons_self⟩

/-- The items of a list settle, and with them the list that was made before. -/
theorem copyValue_copies_list {items : List Value} (nested : w.Nested True n (.object a))
    (held : w.cell? (.object a) = some (.list items))
    (each : ∀ y ∈ items, w.CopiesTo n (copyValue c .live fuel) y) :
    w.CopiesTo n (copyValue c .live (fuel + 1)) (.object a) := by
  refine copiesTo_of_missing fun table u tabled missing => ?_
  have moving : ¬w.Constant (.object a) := fun constant =>
    constant.kind_ne.1 (World.kind_of_cell? held)
  obtain ⟨table', u', run, copied, settled⟩ :=
    mapM_copies each (tabled.record missing moving (.list []))
  have entry : table'.lookup a = some u.fresh := copied.kept List.lookup_cons_self
  refine ⟨table', _, ?_, copied.fill tabled missing nested held settled,
    .inr ⟨a, u.fresh, rfl, entry⟩⟩
  rw [copyValue_list_apply missing (tabled.grown.kept held) run (copied.tabled.grown.kept held),
    World.copyIn_of_lookup entry]

/-- The items of a tuple settle. If each of them is its own copy, so is the tuple. -/
theorem copyValue_copies_tuple {items : List Value} (deeper : ¬w.Nested True n (.object a))
    (nested : w.Nested True (n + 1) (.object a))
    (held : w.cell? (.object a) = some (.tuple items))
    (each : ∀ y ∈ items, w.CopiesTo n (copyValue c .live fuel) y) :
    w.CopiesTo (n + 1) (copyValue c .live (fuel + 1)) (.object a) := by
  refine copiesTo_of_missing fun table u tabled missing => ?_
  obtain ⟨table', u', run, copied, settled⟩ := mapM_copies each tabled
  have missing' := copied.missing missing deeper
  by_cases constant : w.Constant (.object a)
  · have same : items.map (Value.copyIn table') = items := by
      refine (List.map_congr_left fun y item => ?_).trans (List.map_id items)
      exact copied.tabled.copyIn_constant (constant.parts held item)
    rw [same] at run
    refine ⟨table', u', ?_, copied.succ, .inl constant⟩
    rw [copyValue_tuple_apply_of_eq missing (tabled.grown.kept held) run missing',
      copied.tabled.copyIn_constant constant]
  · have unequal : items.map (Value.copyIn table') ≠ items := by
      intro same
      refine constant (.tuple held fun y item => ?_)
      obtain ⟨m, -, inner⟩ := nested.parts held item
      refine copied.tabled.constant_of_copyIn_eq (settled y item) inner.immediate_or_held ?_
      exact List.map_inj_left.mp (same.trans (List.map_id items).symm) y item
    have nonempty : items.map (Value.copyIn table') ≠ [] := by
      intro empty
      obtain rfl := List.map_eq_nil_iff.mp empty
      exact unequal rfl
    have record := World.Copied.record copied.tabled missing' nested constant held settled
    refine ⟨_, _, ?_, copied.succ.trans record, .inr ⟨a, u'.fresh, rfl, List.lookup_cons_self⟩⟩
    rw [copyValue_tuple_apply_of_ne missing (tabled.grown.kept held) run missing' unequal nonempty,
      World.copyIn_of_lookup List.lookup_cons_self]
    rfl

/-- The bounds of a slice settle, and rebuild its copy. -/
theorem copyValue_copies_slice {s : Slice} {arguments : List Value}
    (deeper : ¬w.Nested True n (.object a)) (held : w.cell? (.object a) = some (.slice s))
    (built : Slice.ofArguments s.lineage arguments = .ok s)
    (nested : ∀ y ∈ arguments, w.Nested True n y)
    (each : ∀ y ∈ arguments, w.CopiesTo n (copyValue c .live fuel) y) :
    w.CopiesTo (n + 1) (copyValue c .live (fuel + 1)) (.object a) := by
  have same : s.arguments = arguments :=
    Slice.arguments_of_ofArguments built (World.Nested.absent_not_mem nested)
  refine copiesTo_of_missing fun table u tabled missing => ?_
  obtain ⟨table', u', run, copied, settled⟩ := mapM_copies each tabled
  have missing' := copied.missing missing deeper
  have moving : ¬w.Constant (.object a) := fun constant =>
    constant.kind_ne.2.2 s.lineage (World.kind_of_cell? held)
  have rebuilt := Slice.ofArguments_map built (f := Value.copyIn table') rfl
  rw [← same] at run settled rebuilt
  have record := World.Copied.record copied.tabled missing' (.slice held built nested) moving held
    settled
  refine ⟨_, _, ?_, copied.succ.trans record, .inr ⟨a, u'.fresh, rfl, List.lookup_cons_self⟩⟩
  rw [copyValue_slice_apply_of_run missing (tabled.grown.kept held) run rebuilt,
    World.copyIn_of_lookup List.lookup_cons_self]
  rfl

/-- Copying a value adds what it holds, level by level. -/
theorem copyValue_copies {x : Value} (nested : w.Nested True n x) (enough : n < fuel) :
    w.CopiesTo n (copyValue c .live fuel) x := by
  induction n generalizing fuel x with
  | zero =>
    cases fuel with
    | zero => exact absurd enough (Nat.not_lt_zero 0)
    | succ fuel => exact copyValue_copies_bottom nested
  | succ n ih =>
    cases fuel with
    | zero => exact absurd enough (Nat.not_lt_zero _)
    | succ fuel =>
      have less : n < fuel := Nat.lt_of_succ_lt_succ enough
      by_cases shallow : w.Nested True n x
      · exact (ih shallow (Nat.lt_succ_of_lt less)).succ
      · cases nested with
        | null => exact absurd .null shallow
        | bool b => exact absurd (.bool b) shallow
        | int m => exact absurd (.int m) shallow
        | text s => exact absurd (.text s) shallow
        | float held => exact absurd (.float held) shallow
        | scripted admitted held => exact absurd (.scripted admitted held) shallow
        | set held => exact absurd (.set held) shallow
        | list held items =>
          exact copyValue_copies_list (.list held items) held
            fun y item => (ih (items y item) less).succ
        | tuple held items =>
          exact copyValue_copies_tuple shallow (.tuple held items) held
            fun y item => ih (items y item) less
        | slice held built arguments =>
          exact copyValue_copies_slice shallow held built arguments
            fun y argument => ih (arguments y argument) less

/-! ## A deep copy -/

/-- From an empty table on, a value is replaced by a replica. -/
theorem copyValue_replica {x : Value} (nested : w.Nested True n x) (enough : n < fuel) :
    ∃ (table : CopyTable) (w' : World),
      (copyValue c .live fuel x).run [] w =
          { outcome := .ok (x.copyIn table, table), events := [], world := w' } ∧
        w.Settled table x ∧ w.Replica w' (Value.copyIn table) (w.Settled table) := by
  obtain ⟨table, w', run, copied, settled⟩ :=
    copyValue_copies (c := c) nested enough [] w (.nil w)
  refine ⟨table, w', run, settled, copied.grown, .inl, copied.tabled.copyIn_constant, ?_, ?_, ?_⟩
  · intro y covered moving
    rcases covered with constant | ⟨a, copy, rfl, found⟩
    · exact absurd constant moving
    · obtain ⟨-, cell, held, holds, -⟩ := copied.finished found List.lookup_nil
      rw [World.copyIn_of_lookup found]
      exact ⟨cell, held, (copied.tabled.new found).1, holds⟩
  · intro y z cell covered held part
    rcases covered with constant | ⟨a, copy, rfl, found⟩
    · exact .inl (constant.parts held part)
    · obtain ⟨-, cell', held', -, parts⟩ := copied.finished found List.lookup_nil
      obtain rfl := Option.some.inj (held'.symm.trans held)
      exact parts z part
  · exact fun hy hz same => copied.tabled.copyIn_injective hy hz same

theorem copy_deep_apply {v u : Value} {w' : World}
    (run : (copyValue c .live (w.cells.size + 1 + c.patience) v).run [] w =
      { outcome := .ok (u, table), events := [], world := w' }) :
    copy c .deep v w = { outcome := .ok u, events := [], world := w' } := by
  show copyAll c .live v w = _
  unfold copyAll
  rw [Eval.world_bind_apply]
  dsimp only
  rw [Eval.bind_apply, run]
  rfl

end

/--
The slice `u`, in a world that has grown, is a copy of the slice `v` in the old one. It is new, and
of the same type with as many bounds; what is constant is kept, wherever it is, and nothing else is
found both in the copy and in the original; and two places of the copy hold the same object exactly
if those of the original do, and so do two bounds.
-/
structure World.FaithfulCopy (w w' : World) (v u : Value) : Prop where
  grown : w.Extends w'
  new : w.cell? u = none
  slices : ∃ s t : Slice, w.cell? v = some (.slice s) ∧ w'.cell? u = some (.slice t) ∧
    t.lineage = s.lineage ∧ t.arguments.length = s.arguments.length ∧
    ∀ field field' : Field,
      t.bounds.get field = t.bounds.get field' ↔ s.bounds.get field = s.bounds.get field'
  kept : ∀ {path : List Nat} {x : Value}, w.follow path v = some x → w.Constant x →
    w'.follow path u = some x
  apart : ∀ {p q : List Nat} {x : Value}, w'.follow p u = some x → w'.follow q v = some x →
    w'.kind x ≠ .list ∧ w'.kind x ≠ .set ∧ ∀ lineage, w'.kind x ≠ .slice lineage
  sharing : ∀ p q : List Nat, w'.follow p u = w'.follow q u ↔ w.follow p v = w.follow q v

/-- The counterpart of a slice in a replica is a faithful copy of it. -/
theorem World.Replica.faithfulCopy {w w' : World} {f : Value → Value} {covered : Value → Prop}
    (h : w.Replica w' f covered) {v : Value} (mem : covered v) {s : Slice}
    (held : w.cell? v = some (.slice s)) {arguments : List Value}
    (built : Slice.ofArguments s.lineage arguments = .ok s) (given : .absent ∉ arguments) :
    w.FaithfulCopy w' v (f v) := by
  have moving : ¬w.Constant v := fun constant =>
    constant.kind_ne.2.2 s.lineage (kind_of_cell? held)
  obtain ⟨cell, held', new, copied⟩ := h.moved mem moving
  obtain rfl := Option.some.inj (held.symm.trans held')
  refine ⟨h.grown, new, ⟨s, s.map f, held, copied, rfl, ?_, fun field field' => ?_⟩, ?_, ?_,
    h.follow_eq_iff mem⟩
  · have parts : (s.map f).arguments = s.arguments.map f := h.parts_map mem held
    rw [parts, List.length_map]
  · rw [h.get_bounds mem held built given, h.get_bounds mem held built given]
    exact ⟨h.injective (h.covered_bounds mem held built given field)
      (h.covered_bounds mem held built given field'), congrArg f⟩
  · intro path x place constant
    rw [h.follow_counterpart mem, place, Option.map_some, h.constant constant]
  · intro p q x copy original
    exact ((h.constant_of_shared mem copy original).grown h.grown).kind_ne

/--
A deep copy of a slice, of either type, whose bounds hold each other to any depth and in any way
that goes round in no circle. The copy is faithful and equals the original, and nothing is called,
neither to make it nor to compare it.
-/
theorem copy_deep_faithful {w : World} {n depth : Nat} (deep : n < depth) {arguments : List Value}
    (nested : ∀ x ∈ arguments, w.Nested True n x) {v : Value} (built : w.Builds arguments v) :
    ∃ (u : Value) (w' : World),
      copy (.ofDepth depth) .deep v w = { outcome := .ok u, events := [], world := w' } ∧
        w.FaithfulCopy w' v u ∧
        compareValues (.ofDepth depth) .eq u v w' =
          { outcome := .ok (.bool true), events := [], world := w' } := by
  have enough : n + 1 < w.cells.size + 1 + (Callbacks.ofDepth depth).patience := by
    have some : 0 < w.cells.size := built.cells_pos
    cases depth with
    | zero => exact absurd deep (Nat.not_lt_zero n)
    | succ depth =>
      have patience : (Callbacks.ofDepth (depth + 1)).patience = depth := rfl
      omega
  obtain ⟨table, w', run, covered, replica⟩ := copyValue_replica (built.nested nested) enough
  have whole : w.Nested True (n + 1) v := built.nested nested
  obtain ⟨s, held, built⟩ := built
  have moving : ¬w.Constant v := fun constant =>
    constant.kind_ne.2.2 s.lineage (World.kind_of_cell? held)
  have faithful := replica.faithfulCopy covered held built (World.Nested.absent_not_mem nested)
  exact ⟨v.copyIn table, w', copy_deep_apply run, faithful,
    replica.compareValues_settles deep covered whole moving⟩

/--
A slice with a list, a slice that holds the same list and a tuple, and an object that knows nothing
of equality. In the list and in the tuple there is the same float, which is not a number.
-/
def World.entangled : World :=
  { World.initial .host with
    cells := #[.tuple [], .float "nan", .list [.int 1, .object 1],
      .tuple [.object 1, .text "t"], .scripted (.mk "x" "Probe" none none [] none) 0,
      .slice { lineage := .derived, start := .object 2, stop := .object 3, step := .absent },
      .slice { lineage := .base, start := .object 2, stop := .object 5, step := .object 4 }] }

/-- The copy holds one list in both places, another one than before, but the same float in it. -/
theorem copy_deep_faithful_entangled :
    (2 < 3) ∧ (∀ x ∈ [Value.object 2, .object 5, .object 4], World.entangled.Nested True 2 x) ∧
      World.entangled.Builds [.object 2, .object 5, .object 4] (.object 6) ∧
      ∃ (u : Value) (w' : World),
        copy (.ofDepth 3) .deep (.object 6) .entangled =
            { outcome := .ok u, events := [], world := w' } ∧
          w'.follow [0] u = w'.follow [1, 0] u ∧ w'.follow [0] u ≠ some (.object 2) ∧
          w'.follow [0, 1] u = some (.object 1) ∧ w'.follow [1, 1] u = some (.object 3) ∧
          compareValues (.ofDepth 3) .eq u (.object 6) w' =
            { outcome := .ok (.bool true), events := [], world := w' } := by
  have deep : 2 < 3 := by decide
  have float : World.entangled.Constant (.object 1) := .float rfl
  have tuple : World.entangled.Constant (.object 3) := by
    refine .tuple rfl ?_
    rw [List.forall_mem_cons, List.forall_mem_singleton]
    exact ⟨float, .immediate rfl⟩
  have list (n : Nat) : World.entangled.Nested True (n + 1) (.object 2) := by
    refine .list rfl ?_
    rw [List.forall_mem_cons, List.forall_mem_singleton]
    exact ⟨.int 1, .float rfl⟩
  have inner : World.entangled.Nested True 2 (.object 5) := by
    have pair : World.entangled.Nested True 1 (.object 3) := by
      refine .tuple rfl ?_
      rw [List.forall_mem_cons, List.forall_mem_singleton]
      exact ⟨.float rfl, .text "t"⟩
    have bounds : ∀ x ∈ [Value.object 2, .object 3], World.entangled.Nested True 1 x := by
      rw [List.forall_mem_cons, List.forall_mem_singleton]
      exact ⟨list 0, pair⟩
    exact .slice rfl rfl bounds
  have nested :
      ∀ x ∈ [Value.object 2, .object 5, .object 4], World.entangled.Nested True 2 x := by
    rw [List.forall_mem_cons, List.forall_mem_cons, List.forall_mem_singleton]
    exact ⟨list 1, inner, .scripted trivial rfl⟩
  have built : World.entangled.Builds [.object 2, .object 5, .object 4] (.object 6) :=
    ⟨_, rfl, rfl⟩
  obtain ⟨u, w', run, faithful, equal⟩ := copy_deep_faithful deep nested built
  refine ⟨deep, nested, built, u, w', run, (faithful.sharing [0] [1, 0]).mpr rfl, ?_,
    faithful.kept rfl float, faithful.kept rfl tuple, equal⟩
  intro same
  have original : w'.cell? (.object 6) = some (.slice
      { lineage := .base, start := .object 2, stop := .object 5, step := .object 4 }) :=
    faithful.grown.kept rfl
  have list : w'.cell? (.object 2) = some (.list [.int 1, .object 1]) := faithful.grown.kept rfl
  have old : w'.follow [0] (.object 6) = some (.object 2) := by
    rw [World.follow, original]
    rfl
  exact (faithful.apart same old).1 (World.kind_of_cell? list)

end Slicing
