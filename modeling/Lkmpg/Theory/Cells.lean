/-
# Lkmpg.Theory.Cells -- private cells behind pointers

Owners reach their values through a pointer each.  `Cells` says that the heap and the
pointers stand for one value per owner: no two owners point at the same address, and
what is found there is the owner's value.  An allocation, a store and a release then
act on that owner's value and on no other.
-/
import Mathlib.Logic.Function.Basic
import Mathlib.Tactic.Common

namespace Lkmpg.Theory

set_option autoImplicit false

universe u v w

/-- Each owner with a cell has one of its own, and its value is in it. -/
structure Cells {O : Type u} {A : Type v} {V : Type w} (cell : O → Option A)
    (heap : A → Option V) (value : O → V) : Prop where
  apart : ∀ x y a, cell x = some a → cell y = some a → x = y
  holds : ∀ x a, cell x = some a → heap a = some (value x)

namespace Cells

variable {O : Type u} {A : Type v} {V : Type w} [DecidableEq O] [DecidableEq A]
variable {cell : O → Option A} {heap : A → Option V} {value : O → V}

omit [DecidableEq O] [DecidableEq A] in
theorem empty : Cells (fun _ => none) heap value where
  apart := by simp
  holds := by simp

/-- A cell that nobody has. -/
theorem acquire (cells : Cells cell heap value) {x : O} {a : A} (free : heap a = none) (v : V) :
    Cells (Function.update cell x (some a)) (Function.update heap a (some v))
      (Function.update value x v) := by
  have unowned : ∀ y, cell y ≠ some a := by
    intro y owned
    have found := cells.holds y a owned
    rw [free] at found
    cases found
  refine ⟨?_, ?_⟩
  · intro y z b ownY ownZ
    by_cases sameY : y = x <;> by_cases sameZ : z = x
    · rw [sameY, sameZ]
    · subst sameY
      rw [Function.update_self] at ownY
      rw [Function.update_of_ne sameZ, ← ownY] at ownZ
      exact absurd ownZ (unowned z)
    · subst sameZ
      rw [Function.update_self] at ownZ
      rw [Function.update_of_ne sameY, ← ownZ] at ownY
      exact absurd ownY (unowned y)
    · rw [Function.update_of_ne sameY] at ownY
      rw [Function.update_of_ne sameZ] at ownZ
      exact cells.apart y z b ownY ownZ
  · intro y b own
    by_cases same : y = x
    · subst same
      rw [Function.update_self] at own
      cases own
      rw [Function.update_self, Function.update_self]
    · rw [Function.update_of_ne same] at own
      have other : b ≠ a := fun eq => unowned y (eq ▸ own)
      rw [Function.update_of_ne other, Function.update_of_ne same]
      exact cells.holds y b own

/-- A store through one owner's pointer is seen by that owner alone. -/
theorem store (cells : Cells cell heap value) {x : O} {a : A} (own : cell x = some a) (v : V) :
    Cells cell (Function.update heap a (some v)) (Function.update value x v) := by
  refine ⟨cells.apart, ?_⟩
  intro y b ownY
  by_cases same : y = x
  · subst same
    cases own.symm.trans ownY
    rw [Function.update_self, Function.update_self]
  · have other : b ≠ a := by
      rintro rfl
      exact same (cells.apart y x b ownY own)
    rw [Function.update_of_ne other, Function.update_of_ne same]
    exact cells.holds y b ownY

/-- An owner gives its cell back. -/
theorem release (cells : Cells cell heap value) {x : O} {a : A} (own : cell x = some a) :
    Cells (Function.update cell x none) (Function.update heap a none) value := by
  have kept : ∀ y b, Function.update cell x none y = some b → y ≠ x ∧ cell y = some b := by
    intro y b ownY
    by_cases same : y = x
    · subst same
      rw [Function.update_self] at ownY
      cases ownY
    · rw [Function.update_of_ne same] at ownY
      exact ⟨same, ownY⟩
  refine ⟨?_, ?_⟩
  · intro y z b ownY ownZ
    exact cells.apart y z b (kept y b ownY).2 (kept z b ownZ).2
  · intro y b ownY
    obtain ⟨ne, old⟩ := kept y b ownY
    have other : b ≠ a := by
      rintro rfl
      exact ne (cells.apart y x b old own)
    rw [Function.update_of_ne other]
    exact cells.holds y b old

end Cells

end Lkmpg.Theory
