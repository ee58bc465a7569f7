/-
# Lkmpg.Theory.Rwlock -- a lock for readers and writers

A reader takes the lock when no writer has it, and a writer when nobody has it.  Who has it
is in the lock, and where a party is in its own program is its `Mode`; `Agrees` relates
the two.  Each operation keeps it.

* `Agrees.exclusive`: who writes is alone;
* `Agrees.read_or_held`, `Agrees.write_or_held`: who waits for the lock waits for somebody
  who has it.
-/
import Mathlib.Data.List.Nodup
import Mathlib.Logic.Function.Basic

namespace Lkmpg.Theory

set_option autoImplicit false

universe u

structure Rwlock (P : Type u) where
  writer : Option P
  readers : List P

namespace Rwlock

/-- What a party has of the lock. -/
inductive Mode where
  | out
  | reading
  | writing
  deriving DecidableEq

variable {P : Type u}

def free : Rwlock P := ⟨none, []⟩

def readLock (l : Rwlock P) (p : P) : Option (Rwlock P) :=
  if l.writer.isNone then some { l with readers := p :: l.readers } else none

def writeLock (l : Rwlock P) (p : P) : Option (Rwlock P) :=
  if l.writer.isNone ∧ l.readers.isEmpty then some { l with writer := some p } else none

def readUnlock [DecidableEq P] (l : Rwlock P) (p : P) : Rwlock P :=
  { l with readers := l.readers.erase p }

def writeUnlock (l : Rwlock P) : Rwlock P := { l with writer := none }

structure Agrees (l : Rwlock P) (mode : P → Mode) : Prop where
  writer : ∀ p, l.writer = some p ↔ mode p = .writing
  readers : ∀ p, p ∈ l.readers ↔ mode p = .reading
  nodup : l.readers.Nodup
  alone : l.writer.isSome → l.readers = []

theorem agrees_free : Agrees (free : Rwlock P) fun _ => .out where
  writer _ := by simp [free]
  readers _ := by simp [free]
  nodup := List.nodup_nil
  alone held := by cases held

namespace Agrees

variable {l l' : Rwlock P} {mode : P → Mode} {p q : P}

/-- Who writes is alone. -/
theorem exclusive (agrees : Agrees l mode) (writes : mode p = .writing)
    (inside : mode q ≠ .out) : p = q := by
  have held := (agrees.writer p).2 writes
  cases at_ : mode q with
  | out => exact absurd at_ inside
  | reading =>
      have member := (agrees.readers q).2 at_
      rw [agrees.alone (by rw [held]; rfl)] at member
      cases member
  | writing =>
      have held' := (agrees.writer q).2 at_
      rw [held] at held'
      exact Option.some.inj held'

/-- The lock can be had for reading, or a writer has it. -/
theorem read_or_held (agrees : Agrees l mode) (p : P) :
    (l.readLock p).isSome ∨ ∃ q, mode q = .writing := by
  cases held : l.writer with
  | none => exact .inl (by simp [readLock, held])
  | some q => exact .inr ⟨q, (agrees.writer q).1 held⟩

/-- The lock can be had for writing, or somebody has it. -/
theorem write_or_held (agrees : Agrees l mode) (p : P) :
    (l.writeLock p).isSome ∨ ∃ q, mode q ≠ .out := by
  cases held : l.writer with
  | some q =>
      refine .inr ⟨q, ?_⟩
      rw [(agrees.writer q).1 held]
      exact Mode.noConfusion
  | none =>
      cases readers : l.readers with
      | nil => exact .inl (by simp [writeLock, held, readers])
      | cons q rest =>
          refine .inr ⟨q, ?_⟩
          rw [(agrees.readers q).1 (by simp [readers])]
          exact Mode.noConfusion

variable [DecidableEq P]

/-- A party whose mode stays the same. -/
theorem stay (agrees : Agrees l mode) {m : Mode} (same : m = mode p) :
    Agrees l (Function.update mode p m) := by
  rw [same, Function.update_eq_self]
  exact agrees

theorem readLock (agrees : Agrees l mode) (out : mode p = .out)
    (locked : l.readLock p = some l') : Agrees l' (Function.update mode p .reading) := by
  unfold Rwlock.readLock at locked
  split at locked <;> cases locked
  rename_i none
  rw [Option.isNone_iff_eq_none] at none
  have absent : p ∉ l.readers := by
    rw [agrees.readers p, out]
    exact Mode.noConfusion
  refine ⟨?_, ?_, List.nodup_cons.2 ⟨absent, agrees.nodup⟩, ?_⟩
  · intro q
    by_cases same : q = p
    · subst same
      simp [none]
    · rw [Function.update_of_ne same]
      exact agrees.writer q
  · intro q
    by_cases same : q = p
    · subst same
      simp
    · rw [Function.update_of_ne same, ← agrees.readers q]
      simp [same]
  · intro held
    rw [none] at held
    cases held

theorem writeLock (agrees : Agrees l mode) (out : mode p = .out)
    (locked : l.writeLock p = some l') : Agrees l' (Function.update mode p .writing) := by
  unfold Rwlock.writeLock at locked
  split at locked <;> cases locked
  rename_i nobody
  rw [Option.isNone_iff_eq_none, List.isEmpty_iff] at nobody
  obtain ⟨none, empty⟩ := nobody
  refine ⟨?_, ?_, agrees.nodup, fun _ => empty⟩
  · intro q
    by_cases same : q = p
    · subst same
      simp
    · rw [Function.update_of_ne same, ← agrees.writer q, none]
      simp [Ne.symm same]
  · intro q
    by_cases same : q = p
    · subst same
      simp [empty]
    · rw [Function.update_of_ne same]
      exact agrees.readers q

theorem readUnlock (agrees : Agrees l mode) (reads : mode p = .reading) :
    Agrees (l.readUnlock p) (Function.update mode p .out) := by
  refine ⟨?_, ?_, agrees.nodup.erase p, ?_⟩
  · intro q
    by_cases same : q = p
    · subst same
      rw [Function.update_self]
      refine iff_of_false ?_ Mode.noConfusion
      have writes : l.writer = some q ↔ mode q = .writing := agrees.writer q
      rw [reads] at writes
      exact fun held => Mode.noConfusion (writes.1 held)
    · rw [Function.update_of_ne same]
      exact agrees.writer q
  · intro q
    rw [Rwlock.readUnlock, agrees.nodup.mem_erase_iff]
    by_cases same : q = p
    · subst same
      simp
    · rw [Function.update_of_ne same, ← agrees.readers q]
      simp [same]
  · intro held
    rw [Rwlock.readUnlock, agrees.alone held]
    rfl

theorem writeUnlock (agrees : Agrees l mode) (writes : mode p = .writing) :
    Agrees l.writeUnlock (Function.update mode p .out) := by
  have held := (agrees.writer p).2 writes
  have empty := agrees.alone (by rw [held]; rfl)
  refine ⟨?_, ?_, agrees.nodup, fun _ => empty⟩
  · intro q
    by_cases same : q = p
    · subst same
      simp [Rwlock.writeUnlock]
    · rw [Function.update_of_ne same, ← agrees.writer q, held]
      simp [Rwlock.writeUnlock, Ne.symm same]
  · intro q
    by_cases same : q = p
    · subst same
      simp [Rwlock.writeUnlock, empty]
    · rw [Function.update_of_ne same]
      exact agrees.readers q

end Agrees

end Rwlock

end Lkmpg.Theory
