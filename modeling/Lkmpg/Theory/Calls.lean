/-
# Lkmpg.Theory.Calls -- programs that make calls

A program returns, or makes a call and goes on with the answer.  What a call does is
not part of the program: `perform s c a` is the state after the call `c` is answered
with `a` in the state `s`, or `none` when that answer is not possible there.

`Ends ok Q p s`: from the state `s`, whatever the answers that `ok` admits, the program
`p` returns only with `Q`.  There is one rule for each way to build a program, and
`Ends.step` says that the rest of a program has the same `Q`.  `Safe ok pre p s`: `pre`
holds at every call on the way.  `Only few p`: the program makes no calls but those of
`few`.  `eval answer p s` is the run of the program when the state gives the answers.
-/
import Mathlib.Tactic.Common

namespace Lkmpg.Theory

set_option autoImplicit false

universe u v w x

inductive Calls (C : Type u) (A : Type v) (ρ : Type w) where
  | ret (r : ρ)
  | call (c : C) (next : A → Calls C A ρ)

namespace Calls

variable {C : Type u} {A : Type v} {ρ τ : Type w}

def bind : Calls C A ρ → (ρ → Calls C A τ) → Calls C A τ
  | .ret r, f => f r
  | .call c next, f => .call c fun a => (next a).bind f

instance : Monad (Calls C A) where
  pure := .ret
  bind := bind

theorem bind_ret (p : Calls C A ρ) : p >>= .ret = p := by
  induction p with
  | ret r => rfl
  | call c next ih => exact congrArg (Calls.call c) (funext ih)

theorem bind_bind {υ : Type w} (p : Calls C A ρ) (f : ρ → Calls C A τ) (g : τ → Calls C A υ) :
    p >>= f >>= g = p >>= fun r => f r >>= g := by
  induction p with
  | ret r => rfl
  | call c next ih => exact congrArg (Calls.call c) (funext ih)

/-- One call, which returns its answer. -/
def one {C : Type u} {A : Type w} (c : C) : Calls C A A := .call c .ret

/-- One call, which returns a part of its answer. -/
def ask (c : C) (part : A → ρ) : Calls C A ρ := .call c fun a => .ret (part a)

/-- The second program is run when the first has returned `true`. -/
def both {C : Type u} {A : Type v} (p q : Calls C A Bool) : Calls C A Bool := do
  if ← p then q else return false

variable {σ : Type x} (perform : σ → C → A → Option σ) (ok : C → A → Prop)

def Ends (Q : ρ → σ → Prop) : Calls C A ρ → σ → Prop
  | .ret r, s => Q r s
  | .call c next, s => ∀ a t, perform s c a = some t → ok c a → Ends Q (next a) t

variable {perform ok}

/-! ## Rules -/

@[simp] theorem ends_pure {Q : ρ → σ → Prop} {r : ρ} {s : σ} :
    Ends perform ok Q (pure r : Calls C A ρ) s ↔ Q r s := Iff.rfl

theorem ends_bind {Q : τ → σ → Prop} {p : Calls C A ρ} {f : ρ → Calls C A τ} {s : σ} :
    Ends perform ok Q (p >>= f) s ↔
      Ends perform ok (fun r t => Ends perform ok Q (f r) t) p s := by
  induction p generalizing s with
  | ret r => exact Iff.rfl
  | call c next ih =>
      constructor
      · intro ends a t done admitted
        exact (ih a).1 (ends a t done admitted)
      · intro ends a t done admitted
        exact (ih a).2 (ends a t done admitted)

/-- A call, and the rest of the program after it. -/
theorem ends_one {C : Type u} {A ρ : Type w} {perform : σ → C → A → Option σ}
    {ok : C → A → Prop} {Q : ρ → σ → Prop} {c : C} {f : A → Calls C A ρ} {s : σ} :
    Ends perform ok Q (one c >>= f) s ↔
      ∀ a t, perform s c a = some t → ok c a → Ends perform ok Q (f a) t := Iff.rfl

theorem Ends.mono {Q Q' : ρ → σ → Prop} (imp : ∀ r s, Q r s → Q' r s) {p : Calls C A ρ}
    {s : σ} (ends : Ends perform ok Q p s) : Ends perform ok Q' p s := by
  induction p generalizing s with
  | ret r => exact imp r s ends
  | call c next ih => exact fun a t done admitted => ih a (ends a t done admitted)

/-- With fewer answers to expect. -/
theorem Ends.fewer {ok' : C → A → Prop} (less : ∀ c a, ok' c a → ok c a) {Q : ρ → σ → Prop}
    {p : Calls C A ρ} {s : σ} (ends : Ends perform ok Q p s) : Ends perform ok' Q p s := by
  induction p generalizing s with
  | ret r => exact ends
  | call c next ih => exact fun a t done admitted => ih a (ends a t done (less c a admitted))

/-- **One step** of the program. -/
theorem Ends.step {Q : ρ → σ → Prop} {c : C} {next : A → Calls C A ρ} {s t : σ} {a : A}
    (ends : Ends perform ok Q (.call c next) s) (done : perform s c a = some t)
    (admitted : ok c a) : Ends perform ok Q (next a) t :=
  ends a t done admitted

/-! ## Programs that make only some of the calls -/

def Only (few : C → Prop) : Calls C A ρ → Prop
  | .ret _ => True
  | .call c next => few c ∧ ∀ a, Only few (next a)

theorem only_bind {few : C → Prop} {p : Calls C A ρ} {f : ρ → Calls C A τ} (first : Only few p)
    (rest : ∀ r, Only few (f r)) : Only few (p >>= f) := by
  induction p with
  | ret r => exact rest r
  | call c next ih => exact ⟨first.1, fun a => ih a (first.2 a)⟩

theorem only_ask {few : C → Prop} {c : C} {part : A → ρ} (made : few c) :
    Only few (ask c part) :=
  ⟨made, fun _ => trivial⟩

theorem only_both {C : Type u} {A : Type v} {few : C → Prop} {p q : Calls C A Bool}
    (first : Only few p) (second : Only few q) : Only few (both p q) := by
  refine only_bind first fun passed => ?_
  split
  · exact second
  · trivial

/-- What each of the calls keeps, the program keeps. -/
theorem Only.ends {few : C → Prop} {I : σ → Prop}
    (keep : ∀ s c a t, few c → I s → perform s c a = some t → I t) {p : Calls C A ρ}
    (only : Only few p) {s : σ} (holds : I s) : Ends perform ok (fun _ t => I t) p s := by
  induction p generalizing s with
  | ret r => exact holds
  | call c next ih =>
      intro a t done _
      exact ih a (only.2 a) (keep s c a t only.1 holds done)

/-! ## What holds at each call -/

/-- `pre` holds at every call the program comes to with answers that `ok` admits. -/
def Safe (perform : σ → C → A → Option σ) (ok : C → A → Prop) (pre : σ → C → Prop) :
    Calls C A ρ → σ → Prop
  | .ret _, _ => True
  | .call c next, s =>
      pre s c ∧ ∀ a t, perform s c a = some t → ok c a → Safe perform ok pre (next a) t

theorem Safe.step {pre : σ → C → Prop} {c : C} {next : A → Calls C A ρ} {s t : σ} {a : A}
    (safe : Safe perform ok pre (.call c next) s) (done : perform s c a = some t)
    (admitted : ok c a) : Safe perform ok pre (next a) t :=
  safe.2 a t done admitted

/-- A call, and the rest of the program after it. -/
theorem safe_one {C : Type u} {A ρ : Type w} {perform : σ → C → A → Option σ}
    {ok : C → A → Prop} {pre : σ → C → Prop} {c : C} {f : A → Calls C A ρ} {s : σ} :
    Safe perform ok pre (one c >>= f) s ↔
      pre s c ∧ ∀ a t, perform s c a = some t → ok c a → Safe perform ok pre (f a) t := Iff.rfl

/-- The first program is safe, and so is the rest from wherever the first returns. -/
theorem safe_bind {pre : σ → C → Prop} {p : Calls C A ρ} {f : ρ → Calls C A τ} {s : σ}
    (first : Safe perform ok pre p s)
    (rest : Ends perform ok (fun r t => Safe perform ok pre (f r) t) p s) :
    Safe perform ok pre (p >>= f) s := by
  induction p generalizing s with
  | ret r => exact rest
  | call c next ih =>
      refine ⟨first.1, ?_⟩
      intro a t done admitted
      exact ih a (first.2 a t done admitted) (rest a t done admitted)

/-- A program is safe when each of its calls is, whatever the state. -/
theorem Only.safe {few : C → Prop} {pre : σ → C → Prop} (fine : ∀ s c, few c → pre s c)
    {p : Calls C A ρ} (only : Only few p) (s : σ) : Safe perform ok pre p s := by
  induction p generalizing s with
  | ret r => trivial
  | call c next ih => exact ⟨fine s c only.1, fun a t _ _ => ih a (only.2 a) t⟩

/-! ## Calls that the state answers -/

section Eval

variable {answer : σ → C → A × σ}

/-- The run of a program, when there is one answer to each call. -/
def eval (answer : σ → C → A × σ) : Calls C A ρ → σ → ρ × σ
  | .ret r, s => (r, s)
  | .call c next, s => eval answer (next (answer s c).1) (answer s c).2

@[simp] theorem eval_pure (r : ρ) (s : σ) : (pure r : Calls C A ρ).eval answer s = (r, s) := rfl

@[simp] theorem eval_ask (c : C) (part : A → ρ) (s : σ) :
    (ask c part).eval answer s = (part (answer s c).1, (answer s c).2) := rfl

theorem eval_bind (p : Calls C A ρ) (f : ρ → Calls C A τ) (s : σ) :
    (p >>= f).eval answer s = (f (p.eval answer s).1).eval answer (p.eval answer s).2 := by
  induction p generalizing s with
  | ret r => rfl
  | call c next ih => exact ih (answer s c).1 (answer s c).2

theorem eval_both {C : Type u} {A : Type v} {answer : σ → C → A × σ} (p q : Calls C A Bool)
    (s : σ) : (both p q).eval answer s =
      if (p.eval answer s).1 then q.eval answer (p.eval answer s).2
      else (false, (p.eval answer s).2) := by
  rw [both, eval_bind]
  cases (p.eval answer s).1 <;> rfl

end Eval

end Calls

end Lkmpg.Theory
