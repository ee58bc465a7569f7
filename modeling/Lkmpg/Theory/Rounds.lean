/-
# Lkmpg.Theory.Rounds -- loops that may not end

One round of a loop either ends it with a result or goes on from another state.
`rounds` runs the loop for a number of rounds, and has no value when they are not
enough; `Ends` says that some number is.

* `ends_iff_of_goesOn`: rounds that go on do not matter for the result.
* `Ends.induct`: the result is one that a state of the invariant gives.
-/
import Mathlib.Tactic.Common

namespace Lkmpg.Theory

set_option autoImplicit false

universe u v

variable {σ : Type u} {ρ : Type v}

/-- The loop, for `fuel` rounds at most. -/
def rounds (round : σ → ρ ⊕ σ) : (fuel : Nat) → σ → Option ρ
  | 0, _ => none
  | fuel + 1, s =>
      match round s with
      | .inl r => some r
      | .inr t => rounds round fuel t

def Ends (round : σ → ρ ⊕ σ) (s : σ) (r : ρ) : Prop := ∃ fuel, rounds round fuel s = some r

section Ends

variable {round : σ → ρ ⊕ σ} {s t : σ} {r : ρ}

theorem rounds_inl (ends : round s = .inl r) (fuel : Nat) :
    rounds round (fuel + 1) s = some r := by
  rw [rounds, ends]

theorem rounds_inr (goesOn : round s = .inr t) (fuel : Nat) :
    rounds round (fuel + 1) s = rounds round fuel t := by
  rw [rounds, goesOn]

theorem ends_of_inl (ends : round s = .inl r) : Ends round s r :=
  ⟨1, rounds_inl ends 0⟩

theorem ends_iff_of_inr (goesOn : round s = .inr t) : Ends round s r ↔ Ends round t r := by
  constructor
  · rintro ⟨_ | fuel, ends⟩
    · cases ends
    · rw [rounds_inr goesOn] at ends
      exact ⟨fuel, ends⟩
  · rintro ⟨fuel, ends⟩
    exact ⟨fuel + 1, (rounds_inr goesOn fuel).trans ends⟩

/-- The rounds from `path 0` to `path n` go on. -/
theorem ends_iff_of_goesOn {path : Nat → σ} {n : Nat}
    (goesOn : ∀ k, k < n → round (path k) = .inr (path (k + 1))) :
    Ends round (path 0) r ↔ Ends round (path n) r := by
  induction n with
  | zero => exact Iff.rfl
  | succ n ih =>
      rw [ih fun k less => goesOn k (Nat.lt_succ_of_lt less)]
      exact ends_iff_of_inr (goesOn n (Nat.lt_succ_self n))

/-- What the rounds keep, the last state has. -/
theorem Ends.induct {I : σ → Prop} (keep : ∀ s t, I s → round s = .inr t → I t) (holds : I s)
    (ends : Ends round s r) : ∃ t, I t ∧ round t = .inl r := by
  obtain ⟨fuel, ends⟩ := ends
  induction fuel generalizing s with
  | zero => cases ends
  | succ fuel ih =>
      cases found : round s with
      | inl r' =>
          rw [rounds_inl found] at ends
          cases ends
          exact ⟨s, holds, found⟩
      | inr t =>
          rw [rounds_inr found] at ends
          exact ih (keep s t holds found) ends

end Ends

end Lkmpg.Theory
