import Slicing.Eval

/-!
# What may happen around a lock

A log is orderly if it is made of calls that find no lock held, of entries that a lock refused, and
of stretches under a lock: an entry, nothing but readings of a length, and the exit.

* `Orderly` — this grammar. It is closed under appending, so it is what a run preserves
* `LockDiscipline` — what it says about any single event of the log
* `Orderly.discipline` — the one implies the other
-/

namespace Slicing

/-- The event is a call, or shows none, and no lock was held at it. -/
def Event.Unheld : Event → Prop
  | .indexed _ held => held = false
  | .measured _ held => held = false
  | .entered _ => False
  | .left _ _ => False
  | _ => True

/-- The event shows that a lock is held, or has been until then. -/
def Event.UnderLock : Event → Prop
  | .indexed _ held => held = true
  | .measured _ held => held = true
  | .left _ _ => True
  | _ => False

/-- The event is the reading of a length under a lock. -/
def Event.Measures (e : Event) : Prop :=
  ∃ sequence, e = .measured sequence true

/-- The log of a run in which only `locks` are ever entered, and one at a time. -/
inductive Orderly (locks : List Lock) : List Event → Prop where
  | nil : Orderly locks []
  | call {e : Event} {log : List Event} : e.Unheld → Orderly locks log → Orderly locks (e :: log)
  /-- A lock that raises when it is entered is never held, and so has no exit. -/
  | refused {l : Lock} {log : List Event} : l ∈ locks → l.enterError ≠ none →
      Orderly locks log → Orderly locks (.entered l.name :: log)
  | held {l : Lock} {inside log : List Event} {error : Option ErrorKind} : l ∈ locks →
      l.enterError = none → (∀ e ∈ inside, e.Measures) → Orderly locks log →
      Orderly locks (.entered l.name :: (inside ++ .left l.name error :: log))

/-- An entry that a lock of this name refuses, so that nothing follows under it. -/
def RefusedEntry (locks : List Lock) (name : String) (after : List Event) : Prop :=
  ∃ l ∈ locks, l.name = name ∧ l.enterError ≠ none ∧ ∀ e ∈ after.head?, ¬ e.UnderLock

/-- An entry whose lock is left again, with nothing but readings of a length before that. -/
def PairedEntry (locks : List Lock) (name : String) (after : List Event) : Prop :=
  ∃ l ∈ locks, l.name = name ∧ l.enterError = none ∧
    ∃ inside error rest, after = inside ++ .left name error :: rest ∧ ∀ e ∈ inside, e.Measures

/-- No call is made under a lock, and every lock that is entered is left again before any other. -/
structure LockDiscipline (locks : List Lock) (log : List Event) : Prop where
  /-- An object that is asked for its index finds no lock held. -/
  unheld : ∀ name held, .indexed name held ∈ log → held = false
  /-- An entry that is not refused has its exit before anything else can happen. -/
  entered : ∀ before name after, log = before ++ .entered name :: after →
    RefusedEntry locks name after ∨ PairedEntry locks name after
  /-- A lock is left only after it has been entered, with nothing else in between. -/
  left : ∀ before name error after, log = before ++ .left name error :: after →
    ∃ earlier inside, before = earlier ++ .entered name :: inside ∧ ∀ e ∈ inside, e.Measures

namespace Orderly

variable {locks : List Lock} {log more : List Event}

theorem append (h : Orderly locks log) (h' : Orderly locks more) : Orderly locks (log ++ more) := by
  induction h with
  | nil => exact h'
  | call unheld _ ih => exact call unheld ih
  | refused mem refuses _ ih => exact refused mem refuses ih
  -- what is appended comes after the exit
  | held mem admits quiet _ ih =>
    rw [List.cons_append, List.append_assoc, List.cons_append]
    exact held mem admits quiet ih

theorem singleton {e : Event} (h : e.Unheld) : Orderly locks [e] :=
  call h nil

/-! ## Single events of an orderly log -/

/-- An event of a log that is not in its first stretch is the one that ends it, or comes later. -/
theorem split_cases {inside rest before after : List Event} {x y : Event}
    (h : inside ++ x :: rest = before ++ y :: after) (hy : y ∉ inside) :
    (before = inside ∧ y = x) ∨ ∃ b, before = inside ++ x :: b ∧ rest = b ++ y :: after := by
  induction inside generalizing before with
  | nil =>
    cases before with
    | nil =>
      rw [List.nil_append, List.nil_append, List.cons.injEq] at h
      exact Or.inl ⟨rfl, h.1.symm⟩
    | cons z b =>
      rw [List.nil_append, List.cons_append, List.cons.injEq] at h
      exact Or.inr ⟨b, by rw [h.1, List.nil_append], h.2⟩
  | cons z inside ih =>
    cases before with
    | nil =>
      rw [List.cons_append, List.nil_append, List.cons.injEq] at h
      exact absurd (by rw [h.1]; exact List.mem_cons_self) hy
    | cons z' b =>
      rw [List.cons_append, List.cons_append, List.cons.injEq] at h
      rcases ih h.2 (fun hmem => hy (List.mem_cons_of_mem z hmem)) with ⟨hb, hyx⟩ | ⟨b', hb, hr⟩
      · exact Or.inl ⟨by rw [h.1, hb], hyx⟩
      · exact Or.inr ⟨b', by rw [h.1, hb, List.cons_append], hr⟩

theorem unheld_of_indexed (h : Orderly locks log) {name : String} {held : Bool}
    (mem : .indexed name held ∈ log) : held = false := by
  induction h with
  | nil => simp at mem
  | call unheld _ ih =>
    rcases List.mem_cons.mp mem with rfl | mem
    · exact unheld
    · exact ih mem
  | refused _ _ _ ih => exact ih (by simpa using mem)
  | held _ _ quiet _ ih =>
    simp only [List.mem_cons, List.mem_append, reduceCtorEq, false_or] at mem
    rcases mem with mem | mem
    · obtain ⟨_, h⟩ := quiet _ mem
      simp at h
    · exact ih mem

theorem entered_not_mem {inside : List Event} (quiet : ∀ e ∈ inside, e.Measures) (name : String) :
    .entered name ∉ inside := by
  intro mem
  obtain ⟨_, h⟩ := quiet _ mem
  simp at h

theorem left_not_mem {inside : List Event} (quiet : ∀ e ∈ inside, e.Measures) (name : String)
    (error : Option ErrorKind) : .left name error ∉ inside := by
  intro mem
  obtain ⟨_, h⟩ := quiet _ mem
  simp at h

theorem not_underLock_of_unheld {e : Event} (h : e.Unheld) : ¬ e.UnderLock := by
  cases e <;> simp_all [Event.Unheld, Event.UnderLock]

theorem head_not_underLock (h : Orderly locks log) : ∀ e ∈ log.head?, ¬ e.UnderLock := by
  intro e mem
  cases h with
  | nil => simp at mem
  | call unheld _ =>
    obtain rfl : _ = e := by simpa using mem
    exact not_underLock_of_unheld unheld
  | refused _ _ _ =>
    obtain rfl : _ = e := by simpa using mem
    exact id
  | held _ _ _ _ =>
    obtain rfl : _ = e := by simpa using mem
    exact id

theorem entry_cases (h : Orderly locks log) {before after : List Event} {name : String}
    (eq : log = before ++ .entered name :: after) :
    RefusedEntry locks name after ∨ PairedEntry locks name after := by
  induction h generalizing before with
  | nil => simp at eq
  | call unheld _ ih =>
    cases before with
    | nil =>
      obtain ⟨rfl, -⟩ := List.cons.inj eq
      exact absurd unheld id
    | cons _ b => exact ih (List.cons.inj eq).2
  | @refused l _ mem refuses rest ih =>
    cases before with
    | nil =>
      obtain ⟨he, rfl⟩ := List.cons.inj eq
      exact Or.inl ⟨l, mem, Event.entered.inj he, refuses, rest.head_not_underLock⟩
    | cons _ b => exact ih (List.cons.inj eq).2
  | @held l inside rest error mem admits quiet _ ih =>
    cases before with
    | nil =>
      obtain ⟨he, rfl⟩ := List.cons.inj eq
      obtain rfl := Event.entered.inj he
      exact Or.inr ⟨l, mem, rfl, admits, inside, error, rest, rfl, quiet⟩
    | cons _ b =>
      have eq := (List.cons.inj eq).2
      -- no entry lies under the lock, so this one comes after the exit
      rcases split_cases eq (entered_not_mem quiet name) with ⟨-, h⟩ | ⟨b', -, hrest⟩
      · simp at h
      · exact ih hrest

theorem exit_cases (h : Orderly locks log) {before after : List Event} {name : String}
    {error : Option ErrorKind} (eq : log = before ++ .left name error :: after) :
    ∃ earlier inside, before = earlier ++ .entered name :: inside ∧ ∀ e ∈ inside, e.Measures := by
  induction h generalizing before with
  | nil => simp at eq
  | call unheld _ ih =>
    cases before with
    | nil =>
      obtain ⟨rfl, -⟩ := List.cons.inj eq
      exact absurd unheld id
    | cons e b =>
      obtain ⟨earlier, inside, rfl, quiet⟩ := ih (List.cons.inj eq).2
      exact ⟨e :: earlier, inside, rfl, quiet⟩
  | refused _ _ _ ih =>
    cases before with
    | nil => simp at eq
    | cons e b =>
      obtain ⟨earlier, inside, rfl, quiet⟩ := ih (List.cons.inj eq).2
      exact ⟨e :: earlier, inside, rfl, quiet⟩
  | @held l stretch rest error' _ _ quiet _ ih =>
    cases before with
    | nil => simp at eq
    | cons e b =>
      obtain ⟨rfl, eq'⟩ := List.cons.inj eq
      -- an exit is the one that ends this stretch, or it comes later
      rcases split_cases eq' (left_not_mem quiet name error) with ⟨rfl, h⟩ | ⟨b', rfl, hrest⟩
      · obtain ⟨rfl, -⟩ := Event.left.inj h
        exact ⟨[], b, rfl, quiet⟩
      · obtain ⟨earlier, inside, rfl, quiet'⟩ := ih hrest
        exact ⟨.entered l.name :: (stretch ++ .left l.name error' :: earlier), inside,
          by simp, quiet'⟩

theorem discipline (h : Orderly locks log) : LockDiscipline locks log where
  unheld _ _ mem := h.unheld_of_indexed mem
  entered _ _ _ eq := h.entry_cases eq
  left _ _ _ _ eq := h.exit_cases eq

end Orderly

end Slicing
