/-
# Lkmpg.Theory.FirstMatch -- the first entry of a list that a test accepts

A lookup goes through a list and stops at the first entry its test `p` accepts, where
an entry of `q` was wanted and `p` accepts those.  The lookup is right exactly when
each entry that `p` takes by mistake comes after a wanted one (`first_iff`), and in
every order of the list exactly when there are no mistakes (`first_perm_iff`).
-/
import Mathlib.Data.List.Basic

namespace Lkmpg.Theory

set_option autoImplicit false

universe u

section FirstMatch

variable {α : Type u} {p : α → Bool} {q : α → Prop} {l : List α}

/-- Each entry that is accepted and not wanted comes after one that is wanted. -/
def Covered (p : α → Bool) (q : α → Prop) (l : List α) : Prop :=
  ∀ pre a post, l = pre ++ a :: post → p a = true → ¬ q a → ∃ b ∈ pre, q b

theorem covered_cons_of_wanted {a : α} (wanted : q a) : Covered p q (a :: l) := by
  intro pre b post split _ mistake
  cases pre with
  | nil =>
      cases split
      exact absurd wanted mistake
  | cons c pre =>
      cases split
      exact ⟨a, List.mem_cons_self, wanted⟩

theorem covered_cons_of_refused {a : α} (refused : p a = false) (unwanted : ¬ q a) :
    Covered p q (a :: l) ↔ Covered p q l := by
  constructor
  · rintro covered pre b post rfl accepted mistake
    obtain ⟨c, member, wanted⟩ := covered (a :: pre) b post rfl accepted mistake
    rcases List.mem_cons.1 member with rfl | member
    · exact absurd wanted unwanted
    · exact ⟨c, member, wanted⟩
  · intro covered pre b post split accepted mistake
    cases pre with
    | nil =>
        cases split
        rw [refused] at accepted
        cases accepted
    | cons c pre =>
        cases split
        obtain ⟨d, member, wanted⟩ := covered pre b post rfl accepted mistake
        exact ⟨d, List.mem_cons_of_mem _ member, wanted⟩

/-- What the lookup finds is wanted. -/
theorem first_iff (accepts : ∀ a, q a → p a = true) :
    (∀ a, l.find? p = some a → q a) ↔ Covered p q l := by
  induction l with
  | nil => exact ⟨fun _ pre a post split => by simp at split, fun _ a found => by cases found⟩
  | cons a l ih =>
      cases accepted : p a with
      | true =>
          rw [List.find?_cons_of_pos accepted]
          constructor
          · intro right
            exact covered_cons_of_wanted (right a rfl)
          · rintro covered b found
            cases found
            by_contra mistake
            obtain ⟨b, member, -⟩ := covered [] a l rfl accepted mistake
            cases member
      | false =>
          have unwanted : ¬ q a := by
            intro wanted
            rw [accepts a wanted] at accepted
            cases accepted
          rw [List.find?_cons_of_neg (by simp [accepted]), ih,
            covered_cons_of_refused accepted unwanted]

/-- In every order of the list. -/
theorem first_perm_iff :
    (∀ l' : List α, l'.Perm l → ∀ a, l'.find? p = some a → q a) ↔ ∀ a ∈ l, p a = true → q a := by
  constructor
  · intro right a member accepted
    obtain ⟨pre, post, rfl⟩ := List.append_of_mem member
    have front : (a :: (pre ++ post)).Perm (pre ++ a :: post) := List.perm_middle.symm
    exact right _ front a (List.find?_cons_of_pos accepted)
  · intro right l' perm a found
    exact right a (perm.mem_iff.1 (List.mem_of_find?_eq_some found)) (List.find?_some found)

end FirstMatch

end Lkmpg.Theory
