/-
# Lkmpg.Theory.Component -- a component that is started again and again

Each start has a state of its own, which only its own steps change.  A new one is
possible when the last one is over; what is left of an earlier one may still take
steps.

What every step of one start keeps, all of them keep (`all_keep`), and a condition
that is exact for one start is exact for the whole run (`always_iff_meets`).
-/
import Lkmpg.Theory.System
import Mathlib.Algebra.GroupWithZero.Nat

namespace Lkmpg.Theory

set_option autoImplicit false

universe u v

structure Component (L : Type u) (A : Type v) where
  start : L
  idle : L → Bool
  step : L → A → Option L

namespace Component

inductive Action (A : Type v) where
  | start
  /-- A step of the start that many starts ago. -/
  | step (ago : Nat) (a : A)

variable {L : Type u} {A : Type v} (M : Component L A)

/-- The state: the starts, the last one first. -/
def next : List L → Action A → Option (List L)
  | [], .start => some [M.start]
  | l :: ls, .start => if M.idle l then some (M.start :: l :: ls) else none
  | ls, .step ago a => ls[ago]?.bind fun l => (M.step l a).map (ls.set ago)

def system : System (List L) (Action A) where
  Start s := s = []
  step := M.next

/-- The condition on the steps of one start, as one on the whole. -/
def On (ok : L → A → Prop) (s : List L) : Action A → Prop
  | .start => True
  | .step ago a => ∀ l ∈ s[ago]?, ok l a

instance (ok : L → A → Prop) [∀ l a, Decidable (ok l a)] (s : List L) :
    ∀ a, Decidable (On ok s a)
  | .start => .isTrue trivial
  | .step ago a =>
      match found : s[ago]? with
      | none => .isTrue fun l member => by rw [found] at member; cases member
      | some l => decidable_of_iff (ok l a)
          ⟨fun holds m member => by rw [found] at member; cases member; exact holds,
            fun all => all l found⟩

variable {M}

/-- What a step does to the starts: it adds one, or replaces one. -/
theorem next_cases {s t : List L} {a : Action A} (next : M.next s a = some t) :
    (a = .start ∧ t = M.start :: s) ∨
    ∃ ago b l l', a = .step ago b ∧ s[ago]? = some l ∧ M.step l b = some l' ∧
      t = s.set ago l' := by
  cases a with
  | start =>
      cases s with
      | nil =>
          cases next
          exact .inl ⟨rfl, rfl⟩
      | cons l ls =>
          simp only [Component.next] at next
          split at next <;> cases next
          exact .inl ⟨rfl, rfl⟩
  | step ago b =>
      simp only [Component.next] at next
      obtain ⟨l, found, moves⟩ := Option.bind_eq_some_iff.1 next
      obtain ⟨l', moved, rfl⟩ := Option.map_eq_some_iff.1 moves
      exact .inr ⟨ago, b, l, l', rfl, found, moved, rfl⟩

/-- Replacing one start keeps what holds of all, if it holds of the new one. -/
theorem all_set {P : L → Prop} {s : List L} (all : ∀ l ∈ s, P l) {ago : Nat} {l' : L}
    (holds : P l') : ∀ l ∈ s.set ago l', P l := by
  intro l member
  rcases List.mem_or_eq_of_mem_set member with member | rfl
  · exact all l member
  · exact holds

/-- What each step of one start keeps, when it meets `ok`. -/
theorem next_keep {I : L → Prop} {ok : L → A → Prop} (start : I M.start)
    (keep : ∀ l a l', I l → ok l a → M.step l a = some l' → I l') {s t : List L}
    {a : Action A} (all : ∀ l ∈ s, I l) (met : On ok s a) (next : M.next s a = some t) :
    ∀ l ∈ t, I l := by
  rcases next_cases next with ⟨rfl, rfl⟩ | ⟨ago, b, l, l', rfl, found, moved, rfl⟩
  · exact List.forall_mem_cons.2 ⟨start, all⟩
  · exact all_set all (keep l b l' (all l (List.mem_of_getElem? found)) (met l found) moved)

/-- A run that meets `ok` keeps what each step of one start keeps. -/
theorem always_of_meets {I : L → Prop} {ok : L → A → Prop} (start : I M.start)
    (keep : ∀ l a l', I l → ok l a → M.step l a = some l' → I l') {as : List (Action A)}
    (meets : M.system.Meets (On ok) [] as) : M.system.Always (fun s => ∀ l ∈ s, I l) [] as := by
  refine System.always_of_meets (fun s a t all met next => next_keep start keep all met next)
    ?_ meets
  intro l member
  cases member

/-- **The condition is exact.**  One start stays in `P` with each of its steps if and
only if the step meets `ok`; so do all of them. -/
theorem always_iff_meets {I P : L → Prop} {ok : L → A → Prop} (start : I M.start ∧ P M.start)
    (keep : ∀ l a l', I l → M.step l a = some l' → I l')
    (sharp : ∀ l a l', I l → P l → M.step l a = some l' → (P l' ↔ ok l a))
    (as : List (Action A)) :
    M.system.Always (fun s => ∀ l ∈ s, P l) [] as ↔ M.system.Meets (On ok) [] as := by
  refine System.always_iff_meets (I := fun s => ∀ l ∈ s, I l) ?_ ?_ ?_ ?_
  · intro s a t all next
    have always : On (fun _ _ => True) s a := by
      cases a with
      | start => trivial
      | step ago b => exact fun _ _ => trivial
    exact next_keep start.1 (fun l b l' holds _ => keep l b l' holds) all always next
  · intro s a t allI allP next
    rcases next_cases next with ⟨rfl, rfl⟩ | ⟨ago, b, l, l', rfl, found, moved, rfl⟩
    · exact iff_of_true (List.forall_mem_cons.2 ⟨start.2, allP⟩) trivial
    · have member := List.mem_of_getElem? found
      have exact_ := sharp l b l' (allI l member) (allP l member) moved
      constructor
      · intro all m same
        rw [found] at same
        cases same
        have inside := List.getElem?_eq_some_iff.1 found
        exact exact_.1 (all l' (List.mem_set inside.1 l'))
      · intro met
        exact all_set allP (exact_.2 (met l found))
  · intro l member
    cases member
  · intro l member
    cases member

/-- What each step of one start keeps, all of them keep. -/
theorem all_keep {I : L → Prop} (start : I M.start)
    (keep : ∀ l a l', I l → M.step l a = some l' → I l') {s t : List L} {as : List (Action A)}
    (all : ∀ l ∈ s, I l) (ran : M.system.run s as = some t) : ∀ l ∈ t, I l := by
  refine System.run_induct (I := fun s => ∀ l ∈ s, I l) ?_ all ran
  intro s a t all next
  rcases next_cases next with ⟨rfl, rfl⟩ | ⟨ago, b, l, l', rfl, found, moved, rfl⟩
  · exact List.forall_mem_cons.2 ⟨start, all⟩
  · exact all_set all (keep l b l' (all l (List.mem_of_getElem? found)) moved)

/-! ## Runs that end -/

/-- What is left to do in all of the starts. -/
def total (rest : L → Nat) (s : List L) : Nat := (s.map rest).sum

theorem total_set {rest : L → Nat} {s : List L} {ago : Nat} {l l' : L} (found : s[ago]? = some l) :
    total rest (s.set ago l') + rest l = total rest s + rest l' := by
  induction s generalizing ago with
  | nil => cases found
  | cons m s ih =>
      cases ago with
      | zero =>
          cases found
          simp only [total, List.set_cons_zero, List.map_cons, List.sum_cons]
          omega
      | succ ago =>
          have later : total rest (s.set ago l') + rest l = total rest s + rest l' := ih found
          simp only [total, List.set_cons_succ, List.map_cons, List.sum_cons] at later ⊢
          omega

/-- Each step of a start lowers what is left of it, so a run is no longer than its starts
allow. -/
theorem run_length {I : L → Prop} (rest : L → Nat) (start : I M.start)
    (keep : ∀ l a l', I l → M.step l a = some l' → I l')
    (lowers : ∀ l a l', I l → M.step l a = some l' → rest l' < rest l) {s t : List L}
    {as : List (Action A)} (all : ∀ l ∈ s, I l) (ran : M.system.run s as = some t) :
    as.length + total rest t + (rest M.start + 1) * s.length ≤
      total rest s + (rest M.start + 1) * t.length := by
  induction as generalizing s with
  | nil =>
      cases ran
      simp
  | cons a as ih =>
      obtain ⟨m, first, later⟩ := System.run_cons.1 ran
      rcases next_cases first with ⟨rfl, rfl⟩ | ⟨ago, b, l, l', rfl, found, moved, rfl⟩
      · have bound := ih (List.forall_mem_cons.2 ⟨start, all⟩) later
        simp only [total, List.map_cons, List.sum_cons, List.length_cons, Nat.mul_add] at bound ⊢
        omega
      · have member := List.mem_of_getElem? found
        have bound := ih (all_set all (keep l b l' (all l member) moved)) later
        have less := lowers l b l' (all l member) moved
        have same : total rest (s.set ago l') + rest l = total rest s + rest l' :=
          total_set found
        rw [List.length_set] at bound
        simp only [List.length_cons]
        omega

end Component

end Lkmpg.Theory
