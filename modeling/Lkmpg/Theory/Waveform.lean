/-
# Lkmpg.Theory.Waveform -- lines and their phases

A line has a level at each instant.  `Follows line t phases`: from the instant `t` on
the line has each of the levels for its number of instants, one phase after the other,
and is free after the last one.

`wave` is a line with given phases, so every list of phases is one of some line
(`follows_wave`).
-/
import Mathlib.Tactic.Common

namespace Lkmpg.Theory

set_option autoImplicit false

universe u

variable {α : Type u}

def Follows (line : Nat → α) : (t : Nat) → List (α × Nat) → Prop
  | _, [] => True
  | t, (level, n) :: rest => (∀ i, i < n → line (t + i) = level) ∧ Follows line (t + n) rest

namespace Follows

variable {line : Nat → α} {t n m : Nat} {level : α} {rest : List (α × Nat)}

theorem next (follows : Follows line t ((level, n) :: rest)) : Follows line (t + n) rest :=
  follows.2

theorem head (follows : Follows line t ((level, n) :: rest)) (positive : 0 < n) :
    line t = level :=
  follows.1 0 positive

/-- Inside a phase its remainder is left. -/
theorem skip (follows : Follows line t ((level, n) :: rest)) (within : m ≤ n) :
    Follows line (t + m) ((level, n - m) :: rest) := by
  refine ⟨fun i inside => ?_, ?_⟩
  · rw [Nat.add_assoc]
    exact follows.1 (m + i) (by omega)
  · rw [Nat.add_assoc, Nat.add_sub_cancel' within]
    exact follows.2

/-- A phase of no length may stand anywhere. -/
theorem insert (other : α) (follows : Follows line t rest) : Follows line t ((other, 0) :: rest) :=
  ⟨fun i less => absurd less (Nat.not_lt_zero i), follows⟩

end Follows

/-- The line with the phases, and the level `idle` after them. -/
def wave (idle : α) : List (α × Nat) → Nat → α
  | [], _ => idle
  | (level, n) :: rest, i => if i < n then level else wave idle rest (i - n)

theorem follows_of_eq (idle : α) {line : Nat → α} {phases : List (α × Nat)} :
    ∀ {t : Nat}, (∀ i, line (t + i) = wave idle phases i) → Follows line t phases := by
  induction phases with
  | nil => exact fun _ => trivial
  | cons phase rest ih =>
      intro t same
      refine ⟨fun i inside => ?_, ih fun i => ?_⟩
      · rw [same, wave, if_pos inside]
      · rw [Nat.add_assoc, same, wave, if_neg (by omega), Nat.add_sub_cancel_left]

theorem follows_wave (idle : α) (phases : List (α × Nat)) :
    Follows (wave idle phases) 0 phases :=
  follows_of_eq idle fun i => by rw [Nat.zero_add]

end Lkmpg.Theory
