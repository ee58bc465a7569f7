/-
# Lkmpg.Theory.Traced -- a system with the events of its steps

`traced` keeps the events that the steps of a run show, in their order.  A simulation in
which the abstract steps show the events of the concrete one (`Refinement`) gives for
each concrete run an abstract run with the same events.
-/
import Lkmpg.Theory.System
import Mathlib.Data.List.Forall2

namespace Lkmpg.Theory

set_option autoImplicit false

universe u v w x y

namespace System

variable {σ : Type u} {α : Type v} {ε : Type w}

def traced (M : System σ α) (shown : σ → α → σ → List ε) : System (σ × List ε) α where
  Start s := M.Start s.1 ∧ s.2 = []
  step s a := (M.step s.1 a).map fun t => (t, s.2 ++ shown s.1 a t)

variable {M : System σ α} {shown : σ → α → σ → List ε}

theorem traced_step {s t : σ} {a : α} {es : List ε} (next : M.step s a = some t) :
    (M.traced shown).step (s, es) a = some (t, es ++ shown s a t) := by
  simp only [traced, next, Option.map_some]

/-- The system in which a step is taken only when it is `ok`. -/
def only (M : System σ α) (ok : σ → α → Prop) [∀ s a, Decidable (ok s a)] : System σ α where
  Start := M.Start
  step s a := if ok s a then M.step s a else none

theorem only_step {ok : σ → α → Prop} [∀ s a, Decidable (ok s a)] {s t : σ} {a : α} :
    (M.only ok).step s a = some t ↔ ok s a ∧ M.step s a = some t :=
  Option.ite_none_right_eq_some

end System

/-- A simulation in which the abstract steps show the events of the concrete one. -/
structure Refinement {σ : Type u} {α : Type v} {τ : Type w} {β : Type x} {ε : Type y}
    (M : System σ α) (shownM : σ → α → σ → List ε)
    (N : System τ β) (shownN : τ → β → τ → List ε) where
  Rel : σ → τ → Prop
  start : ∀ s, M.Start s → ∃ u, N.Start u ∧ Rel s u
  step : ∀ s u a t es, Rel s u → M.step s a = some t →
    ∃ bs u', (N.traced shownN).run (u, es) bs = some (u', es ++ shownM s a t) ∧ Rel t u'

namespace Refinement

variable {σ : Type u} {α : Type v} {τ : Type w} {β : Type x} {ε : Type y}
variable {M : System σ α} {shownM : σ → α → σ → List ε}
variable {N : System τ β} {shownN : τ → β → τ → List ε}

/-- Between the systems with their events it is a simulation. -/
def traced (R : Refinement M shownM N shownN) :
    Simulation (M.traced shownM) (N.traced shownN) where
  Rel s u := R.Rel s.1 u.1 ∧ s.2 = u.2
  start := by
    rintro s ⟨started, none⟩
    obtain ⟨u, startedU, rel⟩ := R.start s.1 started
    exact ⟨(u, []), ⟨startedU, rfl⟩, rel, none⟩
  step := by
    rintro ⟨s, es⟩ ⟨u, es'⟩ a t ⟨rel, same⟩ next
    cases same
    obtain ⟨t', moved, rfl⟩ := Option.map_eq_some_iff.1 next
    obtain ⟨bs, u', ran, rel'⟩ := R.step s u a t' es rel moved
    exact ⟨bs, _, ran, rel', rfl⟩

/-- **The same events.**  Whatever a concrete run shows, an abstract run shows too, and
they end in related states. -/
theorem reachable (R : Refinement M shownM N shownN) {s : σ} {es : List ε}
    (reached : (M.traced shownM).Reachable (s, es)) :
    ∃ u, (N.traced shownN).Reachable (u, es) ∧ R.Rel s u := by
  obtain ⟨⟨u, es'⟩, reachedU, rel, same⟩ := R.traced.reachable reached
  cases same
  exact ⟨u, reachedU, rel⟩

/-- An abstraction of the states, under which a step is one of the abstract system that
shows the same, or none that shows nothing. -/
def ofMap (abs : σ → τ) (I : σ → Prop) (start : ∀ s, M.Start s → N.Start (abs s) ∧ I s)
    (keep : ∀ s a t, I s → M.step s a = some t → I t)
    (matched : ∀ s a t, I s → M.step s a = some t → (abs t = abs s ∧ shownM s a t = []) ∨
      ∃ b, N.step (abs s) b = some (abs t) ∧ shownN (abs s) b (abs t) = shownM s a t) :
    Refinement M shownM N shownN where
  Rel s u := I s ∧ u = abs s
  start := by
    intro s started
    obtain ⟨startedN, inv⟩ := start s started
    exact ⟨abs s, startedN, inv, rfl⟩
  step := by
    rintro s u a t es ⟨inv, rfl⟩ next
    have inv' := keep s a t inv next
    rcases matched s a t inv next with ⟨same, silent⟩ | ⟨b, moved, shows⟩
    · refine ⟨[], abs s, ?_, inv', same.symm⟩
      rw [silent, List.append_nil]
      rfl
    · refine ⟨[b], abs t, ?_, inv', rfl⟩
      rw [← shows]
      simp only [System.run, System.traced_step moved, Option.bind_some]

/-- Two refinements, one after the other. -/
def trans {υ : Type*} {γ : Type*} {L : System υ γ} {shownL : υ → γ → υ → List ε}
    (R : Refinement M shownM N shownN) (S : Refinement N shownN L shownL) :
    Refinement M shownM L shownL where
  Rel s v := ∃ u, R.Rel s u ∧ S.Rel u v
  start := by
    intro s started
    obtain ⟨u, startedU, rel⟩ := R.start s started
    obtain ⟨v, startedV, relV⟩ := S.start u startedU
    exact ⟨v, startedV, u, rel, relV⟩
  step := by
    rintro s v a t es ⟨u, rel, relV⟩ next
    obtain ⟨bs, u', ran, rel'⟩ := R.step s u a t es rel next
    obtain ⟨cs, ⟨v', es'⟩, ranV, relV', same⟩ :=
      S.traced.run (u := (v, es)) ⟨relV, rfl⟩ ran
    cases same
    exact ⟨cs, v', ranV, u', rel', relV'⟩

end Refinement

/-! ## Pairs of lists -/

section

variable {α : Type u} {β : Type v} {R : α → β → Prop}

/-- What is at the place `k` of two related lists. -/
theorem forall₂_getElem? {xs : List α} {ys : List β} (all : List.Forall₂ R xs ys) {k : Nat}
    {x : α} (found : xs[k]? = some x) : ∃ y, ys[k]? = some y ∧ R x y := by
  induction all generalizing k with
  | nil => cases found
  | cons holds _ ih =>
      cases k with
      | zero =>
          cases found
          exact ⟨_, rfl, holds⟩
      | succ k => exact ih found

theorem forall₂_set {xs : List α} {ys : List β} (all : List.Forall₂ R xs ys) (k : Nat)
    {x : α} {y : β} (holds : R x y) : List.Forall₂ R (xs.set k x) (ys.set k y) := by
  induction all generalizing k with
  | nil => exact .nil
  | cons first rest ih =>
      cases k with
      | zero => exact .cons holds rest
      | succ k => exact .cons first (ih k)

theorem forall₂_eraseIdx {xs : List α} {ys : List β} (all : List.Forall₂ R xs ys) (k : Nat) :
    List.Forall₂ R (xs.eraseIdx k) (ys.eraseIdx k) := by
  induction all generalizing k with
  | nil => exact .nil
  | cons first rest ih =>
      cases k with
      | zero => exact rest
      | succ k => exact .cons first (ih k)

end

end Lkmpg.Theory
