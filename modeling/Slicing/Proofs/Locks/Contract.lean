import Slicing.Proofs.Locks.Described
import Slicing.Proofs.Locks.Discipline

/-!
# What a run started at rest keeps

The world is at rest when no lock is held and every lock in it is a known one. A computation is
calm if from any such world it comes back to one, however it ends, and leaves an orderly log.

* `Eval.Ensures` — calm, and every result is as promised
* `Eval.Ensures.bind` — the rule by which longer computations are put together
* one rule for each single step: making an object, letting an event happen, raising an error
-/

namespace Slicing

/-- The locks that an object holds, or that it may come to describe when it is called. -/
def Cell.locks : Cell → List Lock
  | .scripted script _ => script.locks
  | .lock l => [l]
  | _ => []

/-- No lock is held, and the objects hold no other locks than `locks`. -/
structure World.AtRest (locks : List Lock) (w : World) : Prop where
  held : w.held = 0
  known : ∀ cell ∈ w.cells, cell.locks ⊆ locks

namespace World.AtRest

variable {locks : List Lock} {w : World}

theorem initial (words : Words) : (World.initial words).AtRest locks where
  held := rfl
  known cell mem := by
    obtain rfl : cell = .tuple [] := by simpa [World.initial] using mem
    exact List.nil_subset locks

theorem isLocked (h : w.AtRest locks) : w.isLocked = false := by
  simp [World.isLocked, h.held]

theorem locks_of_cell? (h : w.AtRest locks) {v : Value} {cell : Cell}
    (eq : w.cell? v = some cell) : cell.locks ⊆ locks := by
  cases v with
  | object a => exact h.known cell (Array.mem_of_getElem? eq)
  | _ => simp [World.cell?] at eq

theorem insert (h : w.AtRest locks) {cell : Cell} (hcell : cell.locks ⊆ locks) :
    (w.insert cell).AtRest locks where
  held := h.held
  known old mem := by
    rcases Array.mem_push.mp mem with mem | rfl
    · exact h.known old mem
    · exact hcell

theorem store (h : w.AtRest locks) (a : Address) {cell : Cell} (hcell : cell.locks ⊆ locks) :
    (w.store a cell).AtRest locks where
  held := h.held
  known old mem := by
    rcases Array.mem_or_eq_of_mem_setIfInBounds mem with mem | rfl
    · exact h.known old mem
    · exact hcell

end World.AtRest

namespace Eval

variable {α β : Type} {locks : List Lock}

/-- From rest, `x` comes to rest again with an orderly log, and its result satisfies `Q`. -/
def Ensures (locks : List Lock) (x : Eval α) (Q : α → Prop) : Prop :=
  ∀ w : World, w.AtRest locks →
    (x w).world.AtRest locks ∧ Orderly locks (x w).events ∧ ∀ a, (x w).outcome = .ok a → Q a

/-- From rest, `x` comes to rest again with an orderly log. -/
abbrev Calm (locks : List Lock) (x : Eval α) : Prop :=
  x.Ensures locks fun _ => True

namespace Ensures

/-! ## Putting runs together -/

theorem pure {Q : α → Prop} {a : α} (h : Q a) : (pure a : Eval α).Ensures locks Q := by
  intro w rest
  refine ⟨rest, Orderly.nil, fun b eq => ?_⟩
  obtain rfl := Except.ok.inj eq
  exact h

theorem bind {x : Eval α} {f : α → Eval β} {P : α → Prop} {Q : β → Prop}
    (hx : x.Ensures locks P) (hf : ∀ a, P a → (f a).Ensures locks Q) :
    (x >>= f).Ensures locks Q := by
  intro w rest
  obtain ⟨rest₁, log₁, result₁⟩ := hx w rest
  rw [bind_apply]
  cases eq : (x w).outcome with
  -- a fault ends the run, with the log and the world as they are by then
  | error fault => exact ⟨rest₁, log₁, by simp⟩
  | ok a =>
    obtain ⟨rest₂, log₂, result₂⟩ := hf a (result₁ a eq) (x w).world rest₁
    exact ⟨rest₂, log₁.append log₂, result₂⟩

theorem mono {x : Eval α} {P Q : α → Prop} (hx : x.Ensures locks P) (h : ∀ a, P a → Q a) :
    x.Ensures locks Q := by
  intro w rest
  obtain ⟨rest', log, result⟩ := hx w rest
  exact ⟨rest', log, fun a eq => h a (result a eq)⟩

theorem calm {x : Eval α} {P : α → Prop} (hx : x.Ensures locks P) : x.Calm locks :=
  hx.mono fun _ _ => trivial

/-- Whatever the first result is, what follows is as promised. -/
theorem andThen {x : Eval α} {f : α → Eval β} {P : α → Prop} {Q : β → Prop}
    (hx : x.Ensures locks P) (hf : ∀ a, (f a).Ensures locks Q) : (x >>= f).Ensures locks Q :=
  hx.bind fun a _ => hf a

theorem mapM {f : α → Eval β} {Q : β → Prop} {as : List α}
    (h : ∀ a ∈ as, (f a).Ensures locks Q) :
    (as.mapM f).Ensures locks fun bs => ∀ b ∈ bs, Q b := by
  induction as with
  | nil =>
    rw [List.mapM_nil]
    exact Ensures.pure (by simp)
  | cons a as ih =>
    rw [List.mapM_cons]
    refine (h a List.mem_cons_self).bind fun b hb => ?_
    refine (ih fun a' mem => h a' (List.mem_cons_of_mem a mem)).bind fun bs hbs => ?_
    exact Ensures.pure (List.forall_mem_cons.mpr ⟨hb, hbs⟩)

/-! ## Single steps -/

theorem raise {Q : α → Prop} (e : Error) : (Eval.raise e : Eval α).Ensures locks Q := by
  intro w rest
  exact ⟨rest, Orderly.nil, by simp [raise_apply]⟩

theorem exhausted {Q : α → Prop} : (Eval.exhausted : Eval α).Ensures locks Q := by
  intro w rest
  exact ⟨rest, Orderly.nil, by simp [Eval.exhausted]⟩

theorem orRaise {Q : α → Prop} {e : Error} {o : Option α} (h : ∀ a ∈ o, Q a) :
    (Eval.orRaise e o).Ensures locks Q := by
  cases o with
  | none => exact Ensures.raise e
  | some a => exact Ensures.pure (h a rfl)

theorem ofExcept (r : Except Error α) : (Eval.ofExcept r).Calm locks := by
  cases r with
  | error e => exact Ensures.raise e
  | ok a => exact Ensures.pure trivial

theorem world : Eval.world.Ensures locks (World.AtRest locks) := by
  intro w rest
  refine ⟨rest, Orderly.nil, fun b eq => ?_⟩
  obtain rfl := Except.ok.inj eq
  exact rest

theorem words : Eval.words.Calm locks :=
  world.bind fun _ _ => Ensures.pure trivial

theorem view (v : Value) : (Eval.view v).Calm locks :=
  world.bind fun _ _ => Ensures.pure trivial

theorem allocate {cell : Cell} (h : cell.locks ⊆ locks) : (Eval.allocate cell).Calm locks := by
  intro w rest
  exact ⟨rest.insert h, Orderly.nil, fun _ _ => trivial⟩

theorem store (a : Address) {cell : Cell} (h : cell.locks ⊆ locks) :
    (Eval.store a cell).Calm locks := by
  intro w rest
  exact ⟨rest.store a h, Orderly.nil, fun _ _ => trivial⟩

theorem allocateTuple (items : List Value) : (Eval.allocateTuple items).Calm locks := by
  unfold Eval.allocateTuple
  split
  · exact Ensures.pure trivial
  · exact allocate (List.nil_subset locks)

theorem bindName (name : String) (v : Value) : (Eval.bindName name v).Calm locks := by
  intro w rest
  exact ⟨⟨rest.held, rest.known⟩, Orderly.nil, fun _ _ => trivial⟩

theorem setWords (words : Words) : (Eval.setWords words).Calm locks := by
  intro w rest
  exact ⟨⟨rest.held, rest.known⟩, Orderly.nil, fun _ _ => trivial⟩

theorem emit {e : Event} (h : e.Unheld) : (Eval.emit e).Calm locks := by
  intro w rest
  exact ⟨rest, Orderly.singleton h, fun _ _ => trivial⟩

/-- What is captured leaves no log of its own, so its log is in order by itself. -/
theorem capture {x : Eval α} (h : x.Calm locks) :
    (Eval.capture x).Ensures locks fun answer => Orderly locks answer.events := by
  intro w rest
  obtain ⟨rest', log, -⟩ := h w rest
  unfold Eval.capture
  dsimp only
  split
  · exact ⟨rest', log, by simp⟩
  · refine ⟨rest', Orderly.nil, fun answer eq => ?_⟩
    obtain rfl := Except.ok.inj eq
    exact log

end Ensures

end Eval

end Slicing
