/-
# Lkmpg.Theory.System -- transition systems, their runs and forward simulation

A `System` is a set of start states and a partial step: `step s a = none` is an
action the state `s` does not allow.  Interleavings need nothing more, since an
action may name the party that takes it.

* `Reachable.induct`: what one step keeps, every reachable state has.
* `Always`, `Steps` and `Meets` speak about one run: a property of each state it
  passes through, of each step it takes, a condition on each action at the state it
  is taken from.
  `always_of_meets` carries an invariant through the runs that meet a condition;
  `always_iff_meets` says the condition is exact.
* `Simulation`: a relation to a more abstract system, where one concrete step is
  matched by any number of abstract ones.
-/
import Mathlib.Data.List.Induction
import Mathlib.Tactic.Common

namespace Lkmpg.Theory

set_option autoImplicit false

universe u v w x

/-- A transition system with a partial step. -/
structure System (σ : Type u) (α : Type v) where
  Start : σ → Prop
  step : σ → α → Option σ

namespace System

variable {σ : Type u} {α : Type v} (M : System σ α)

/-- The state after the actions, when each of them is allowed in turn. -/
def run : σ → List α → Option σ
  | s, [] => some s
  | s, a :: as => (M.step s a).bind fun t => run t as

/-- `P` holds in every state the run passes through. -/
def Always (P : σ → Prop) : σ → List α → Prop
  | s, [] => P s
  | s, a :: as => P s ∧ ∀ t, M.step s a = some t → Always P t as

/-- Every action of the run is taken from a state that satisfies `ok` with it. -/
def Meets (ok : σ → α → Prop) : σ → List α → Prop
  | _, [] => True
  | s, a :: as => ∀ t, M.step s a = some t → ok s a ∧ Meets ok t as

/-- Every step the run takes is one of `Q`. -/
def Steps (Q : σ → α → σ → Prop) : σ → List α → Prop
  | _, [] => True
  | s, a :: as => ∀ t, M.step s a = some t → Q s a t ∧ Steps Q t as

/-- The run passes through a state of `P`. -/
def Passes (P : σ → Prop) (s : σ) (as : List α) : Prop :=
  ∃ bs u, bs <+: as ∧ M.run s bs = some u ∧ P u

def Reachable (s : σ) : Prop :=
  ∃ s₀ as, M.Start s₀ ∧ M.run s₀ as = some s

variable {M}

theorem run_cons {s u : σ} {a : α} {as : List α} :
    M.run s (a :: as) = some u ↔ ∃ t, M.step s a = some t ∧ M.run t as = some u := by
  simp [run, Option.bind_eq_some_iff]

theorem run_append (s : σ) (as bs : List α) :
    M.run s (as ++ bs) = (M.run s as).bind fun t => M.run t bs := by
  induction as generalizing s with
  | nil => rfl
  | cons a as ih =>
      simp only [List.cons_append, run]
      cases M.step s a with
      | none => rfl
      | some t => exact ih t

theorem run_snoc {s u : σ} {as : List α} {a : α} :
    M.run s (as ++ [a]) = some u ↔ ∃ t, M.run s as = some t ∧ M.step t a = some u := by
  rw [run_append, Option.bind_eq_some_iff]
  simp [run]

/-- What is so of a run as far as it has come, when each step keeps it so. -/
theorem run_history {I : List α → σ → Prop} {s t : σ} {as : List α} (start : I [] s)
    (keep : ∀ as t a u, M.run s as = some t → I as t → M.step t a = some u → I (as ++ [a]) u)
    (ran : M.run s as = some t) : I as t := by
  induction as using List.reverseRecOn generalizing t with
  | nil => cases ran; exact start
  | append_singleton as a ih =>
      obtain ⟨m, before, next⟩ := run_snoc.1 ran
      exact keep as m a t before (ih before) next

theorem Passes.last {P : σ → Prop} {s t : σ} {as : List α} (ran : M.run s as = some t)
    (holds : P t) : M.Passes P s as :=
  ⟨as, t, List.prefix_refl as, ran, holds⟩

theorem Passes.append {P : σ → Prop} {s : σ} {as : List α} (passes : M.Passes P s as)
    (bs : List α) : M.Passes P s (as ++ bs) := by
  obtain ⟨cs, u, before, ran, holds⟩ := passes
  exact ⟨cs, u, before.trans (List.prefix_append as bs), ran, holds⟩

/-! ## Reachable states -/

theorem Reachable.start {s : σ} (start : M.Start s) : M.Reachable s :=
  ⟨s, [], start, rfl⟩

theorem Reachable.step {s t : σ} {a : α} (reached : M.Reachable s)
    (next : M.step s a = some t) : M.Reachable t := by
  obtain ⟨s₀, as, start, ran⟩ := reached
  exact ⟨s₀, as ++ [a], start, run_snoc.2 ⟨s, ran, next⟩⟩

/-- What a run keeps, when each of its steps keeps it. -/
theorem run_induct {I : σ → Prop} (keep : ∀ s a t, I s → M.step s a = some t → I t)
    {s t : σ} {as : List α} (holds : I s) (ran : M.run s as = some t) : I t := by
  induction as generalizing s with
  | nil => cases ran; exact holds
  | cons a as ih =>
      obtain ⟨m, first, rest⟩ := run_cons.1 ran
      exact ih (keep s a m holds first) rest

/-- The invariant rule. -/
theorem Reachable.induct {I : σ → Prop} (start : ∀ s, M.Start s → I s)
    (keep : ∀ s a t, I s → M.step s a = some t → I t) {s : σ} (reached : M.Reachable s) :
    I s := by
  obtain ⟨s₀, as, started, ran⟩ := reached
  exact run_induct keep (start s₀ started) ran

/-! ## Properties of one run -/

theorem Always.head {P : σ → Prop} {s : σ} {as : List α} (always : M.Always P s as) : P s := by
  cases as with
  | nil => exact always
  | cons a as => exact always.1

theorem Always.mono {P Q : σ → Prop} (imp : ∀ s, P s → Q s) {s : σ} {as : List α}
    (always : M.Always P s as) : M.Always Q s as := by
  induction as generalizing s with
  | nil => exact imp s always
  | cons a as ih => exact ⟨imp s always.1, fun t next => ih (always.2 t next)⟩

theorem Always.last {P : σ → Prop} {s t : σ} {as : List α} (always : M.Always P s as)
    (ran : M.run s as = some t) : P t := by
  induction as generalizing s with
  | nil => cases ran; exact always
  | cons a as ih =>
      obtain ⟨m, first, rest⟩ := run_cons.1 ran
      exact ih (always.2 m first) rest

/-- What one step keeps holds all along a run. -/
theorem always_induct {I : σ → Prop} (keep : ∀ s a t, I s → M.step s a = some t → I t) {s : σ}
    {as : List α} (holds : I s) : M.Always I s as := by
  induction as generalizing s with
  | nil => exact holds
  | cons a as ih => exact ⟨holds, fun t next => ih (keep s a t holds next)⟩

theorem Meets.mono {ok ok' : σ → α → Prop} (imp : ∀ s a, ok s a → ok' s a) {s : σ}
    {as : List α} (meets : M.Meets ok s as) : M.Meets ok' s as := by
  induction as generalizing s with
  | nil => exact trivial
  | cons a as ih =>
      intro t next
      exact ⟨imp s a (meets t next).1, ih (meets t next).2⟩

/-- A condition that can be decided at one step can be decided along a run. -/
instance decidableMeets {ok : σ → α → Prop} [∀ s a, Decidable (ok s a)] :
    ∀ (s : σ) (as : List α), Decidable (M.Meets ok s as)
  | _, [] => .isTrue trivial
  | s, a :: as =>
      match next : M.step s a with
      | none => .isTrue fun t step => by cases next.symm.trans step
      | some t =>
          have : Decidable (M.Meets ok t as) := decidableMeets t as
          decidable_of_iff (ok s a ∧ M.Meets ok t as)
            ⟨fun met u step => by cases next.symm.trans step; exact met, fun meets => meets t next⟩

/-- A property of a step that, in the states of an invariant, is a condition on the state
before it. -/
theorem steps_iff_meets_on {I : σ → Prop} {Q : σ → α → σ → Prop} {ok : σ → α → Prop}
    (keep : ∀ s a t, I s → M.step s a = some t → I t)
    (same : ∀ s a t, I s → M.step s a = some t → (Q s a t ↔ ok s a)) {s : σ} {as : List α}
    (inv : I s) : M.Steps Q s as ↔ M.Meets ok s as := by
  induction as generalizing s with
  | nil => exact Iff.rfl
  | cons a as ih =>
      constructor <;> intro all t next
      · exact ⟨(same s a t inv next).1 (all t next).1,
          (ih (keep s a t inv next)).1 (all t next).2⟩
      · exact ⟨(same s a t inv next).2 (all t next).1,
          (ih (keep s a t inv next)).2 (all t next).2⟩

/-- A property of a step that is a condition on the state before it. -/
theorem steps_iff_meets {Q : σ → α → σ → Prop} {ok : σ → α → Prop}
    (same : ∀ s a t, M.step s a = some t → (Q s a t ↔ ok s a)) {s : σ} {as : List α} :
    M.Steps Q s as ↔ M.Meets ok s as :=
  steps_iff_meets_on (I := fun _ => True) (fun _ _ _ _ _ => trivial)
    (fun s a t _ next => same s a t next) trivial

/-- A condition on the actions alone, where every action is allowed. -/
theorem meets_iff_forall {ok : α → Prop} (total : ∀ s a, (M.step s a).isSome) {s : σ}
    {as : List α} : M.Meets (fun _ a => ok a) s as ↔ ∀ a ∈ as, ok a := by
  induction as generalizing s with
  | nil => simp [Meets]
  | cons a as ih =>
      obtain ⟨t, next⟩ := Option.isSome_iff_exists.1 (total s a)
      rw [List.forall_mem_cons, ← ih (s := t)]
      constructor
      · exact fun meets => meets t next
      · intro met u next'
        cases next.symm.trans next'
        exact met

/-- An invariant that each step meeting `ok` keeps holds along every run that
meets `ok`. -/
theorem always_of_meets {I : σ → Prop} {ok : σ → α → Prop}
    (keep : ∀ s a t, I s → ok s a → M.step s a = some t → I t) {s : σ} {as : List α}
    (holds : I s) (meets : M.Meets ok s as) : M.Always I s as := by
  induction as generalizing s with
  | nil => exact holds
  | cons a as ih =>
      refine ⟨holds, ?_⟩
      intro t next
      obtain ⟨met, rest⟩ := meets t next
      exact ih (keep s a t holds met next) rest

/-- **The condition is exact.**  When, from a state of the invariant `I`, one
step keeps `P` if and only if it meets `ok`, a whole run stays in `P` if and only
if all its steps meet `ok`. -/
theorem always_iff_meets {I P : σ → Prop} {ok : σ → α → Prop}
    (keep : ∀ s a t, I s → M.step s a = some t → I t)
    (sharp : ∀ s a t, I s → P s → M.step s a = some t → (P t ↔ ok s a)) {s : σ} {as : List α}
    (inv : I s) (holds : P s) : M.Always P s as ↔ M.Meets ok s as := by
  induction as generalizing s with
  | nil => exact ⟨fun _ => trivial, fun _ => holds⟩
  | cons a as ih =>
      constructor
      · rintro ⟨_, rest⟩ t next
        have after : P t := (rest t next).head
        exact ⟨(sharp s a t inv holds next).1 after,
          (ih (keep s a t inv next) after).1 (rest t next)⟩
      · intro meets
        refine ⟨holds, ?_⟩
        intro t next
        obtain ⟨met, rest⟩ := meets t next
        have after : P t := (sharp s a t inv holds next).2 met
        exact (ih (keep s a t inv next) after).2 rest

end System

/-! ## Forward simulation -/

/-- A relation under which each concrete step is matched by abstract steps. -/
structure Simulation {σ : Type u} {α : Type v} {τ : Type w} {β : Type x}
    (M : System σ α) (N : System τ β) where
  Rel : σ → τ → Prop
  start : ∀ s, M.Start s → ∃ u, N.Start u ∧ Rel s u
  step : ∀ s u a t, Rel s u → M.step s a = some t → ∃ bs u', N.run u bs = some u' ∧ Rel t u'

namespace Simulation

variable {σ : Type u} {α : Type v} {τ : Type w} {β : Type x}
variable {M : System σ α} {N : System τ β} (R : Simulation M N)
include R

theorem run {s t : σ} {u : τ} {as : List α} (rel : R.Rel s u) (ran : M.run s as = some t) :
    ∃ bs u', N.run u bs = some u' ∧ R.Rel t u' := by
  induction as generalizing s u with
  | nil => cases ran; exact ⟨[], u, rfl, rel⟩
  | cons a as ih =>
      obtain ⟨m, first, rest⟩ := System.run_cons.1 ran
      obtain ⟨bs, v, ranB, relM⟩ := R.step s u a m rel first
      obtain ⟨cs, w, ranC, relT⟩ := ih relM rest
      refine ⟨bs ++ cs, w, ?_, relT⟩
      rw [System.run_append, ranB]
      exact ranC

/-- Every reachable concrete state is related to a reachable abstract one. -/
theorem reachable {s : σ} (reached : M.Reachable s) : ∃ u, N.Reachable u ∧ R.Rel s u := by
  obtain ⟨s₀, as, started, ran⟩ := reached
  obtain ⟨u₀, startedU, rel⟩ := R.start s₀ started
  obtain ⟨bs, u, ranU, relS⟩ := R.run rel ran
  exact ⟨u, ⟨u₀, bs, startedU, ranU⟩, relS⟩

end Simulation

end Lkmpg.Theory
