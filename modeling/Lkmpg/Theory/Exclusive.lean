/-
# Lkmpg.Theory.Exclusive -- sections guarded by one flag

Any number of parties try to set a flag.  Who finds it clear is inside and works
on a shared state with its own moves; who finds it set is refused and changes
nothing; leaving clears the flag.  What is done inside is a parameter, `Body`.

Since all work on the shared state is inside, an interleaved run is a serial one:
`Ordered` splits the history into sessions, each run `Alone` from the state the one
before it left, and every step keeps it (`ordered_step`).  Mutual exclusion
(`Ordered.exclusive`) and the meaning of the flag (`Ordered.flag_iff`) are read
off from it.
-/
import Lkmpg.Theory.System
import Mathlib.Logic.Function.Basic

namespace Lkmpg.Theory.Exclusive

set_option autoImplicit false

universe u v w x y

/-- What a party does between setting the flag and clearing it. -/
structure Body (σ : Type u) (ε : Type v) (l : Type w) (μ : Type x) where
  enter : ε → l
  move : l → σ → μ → Option (l × σ)
  mayLeave : l → Bool

/-- A finished stay inside: who, how it entered, and its local state at the end. -/
structure Session (P : Type y) (ε : Type v) (l : Type w) where
  who : P
  entry : ε
  final : l

structure State (P : Type y) (σ : Type u) (ε : Type v) (l : Type w) where
  flag : Bool
  shared : σ
  inside : P → Option (ε × l)
  /-- The finished sessions, oldest first. -/
  past : List (Session P ε l)

inductive Action (P : Type y) (ε : Type v) (μ : Type x) where
  | attempt (p : P) (e : ε)
  | move (p : P) (m : μ)
  | leave (p : P)

section History

variable {P : Type y} {σ : Type u} {ε : Type v} {l : Type w} {μ : Type x} (B : Body σ ε l μ)

/-- The moves of one party with nobody else inside. -/
def solo : l × σ → List μ → Option (l × σ)
  | here, [] => some here
  | here, m :: ms => (B.move here.1 here.2 m).bind fun next => solo next ms

/-- Entering with `e` at the shared state `s` and moving alone leads to the local
state `here` and the shared state `t`. -/
def Alone (e : ε) (s : σ) (here : l) (t : σ) : Prop :=
  ∃ ms, solo B (B.enter e, s) ms = some (here, t)

/-- The sessions run one after the other, each from the state the last one left. -/
inductive Serial : σ → List (Session P ε l) → σ → Prop where
  | nil (s : σ) : Serial s [] s
  | snoc {s m t : σ} {past : List (Session P ε l)} {x : Session P ε l}
      (before : Serial s past m) (alone : Alone B x.entry m x.final t)
      (left : B.mayLeave x.final) : Serial s (past ++ [x]) t

variable {B}

theorem solo_snoc {here next : l × σ} {ms : List μ} {m : μ} :
    solo B here (ms ++ [m]) = some next ↔
      ∃ mid, solo B here ms = some mid ∧ B.move mid.1 mid.2 m = some next := by
  induction ms generalizing here with
  | nil => simp [solo]
  | cons a ms ih =>
      simp only [List.cons_append, solo, Option.bind_eq_some_iff, ih]
      constructor
      · rintro ⟨mid, first, last, rest, final⟩
        exact ⟨last, ⟨mid, first, rest⟩, final⟩
      · rintro ⟨last, ⟨mid, first, rest⟩, final⟩
        exact ⟨mid, first, last, rest, final⟩

theorem Alone.enter (e : ε) (s : σ) : Alone B e s (B.enter e) s :=
  ⟨[], rfl⟩

theorem Alone.move {e : ε} {s t t' : σ} {here next : l} {m : μ} (alone : Alone B e s here t)
    (moved : B.move here t m = some (next, t')) : Alone B e s next t' := by
  obtain ⟨ms, ran⟩ := alone
  exact ⟨ms ++ [m], solo_snoc.2 ⟨(here, t), ran, moved⟩⟩

/-- What entering establishes and every move keeps, holds of a party alone. -/
theorem Alone.induct {I : l → σ → Prop} {e : ε} {s t : σ} {here : l}
    (alone : Alone B e s here t) (enter : I (B.enter e) s)
    (keep : ∀ here t m next t', I here t → B.move here t m = some (next, t') → I next t') :
    I here t := by
  obtain ⟨ms, ran⟩ := alone
  suffices ∀ (start : l × σ), I start.1 start.2 → solo B start ms = some (here, t) → I here t from
    this _ enter ran
  clear ran enter
  induction ms with
  | nil =>
      intro start holds ran
      cases ran
      exact holds
  | cons m ms ih =>
      intro start holds ran
      simp only [solo, Option.bind_eq_some_iff] at ran
      obtain ⟨next, moved, rest⟩ := ran
      exact ih next (keep _ _ m _ _ holds moved) rest

/-- What every session keeps alone, a serial history keeps. -/
theorem Serial.induct {I : List (Session P ε l) → σ → Prop} {s t : σ}
    {past : List (Session P ε l)} (serial : Serial B s past t) (start : I [] s)
    (keep : ∀ past m x t, I past m → Alone B x.entry m x.final t → B.mayLeave x.final →
      I (past ++ [x]) t) : I past t := by
  induction serial with
  | nil => exact start
  | snoc before alone left ih => exact keep _ _ _ _ ih alone left

/-- The last session of a serial history. -/
theorem Serial.last {s t : σ} {past : List (Session P ε l)} {x : Session P ε l}
    (serial : Serial B s (past ++ [x]) t) :
    ∃ m, Serial B s past m ∧ Alone B x.entry m x.final t ∧ B.mayLeave x.final := by
  generalize whole : past ++ [x] = sessions at serial
  cases serial with
  | nil => simp at whole
  | snoc before alone left =>
      obtain ⟨rfl, same⟩ := List.append_inj' whole rfl
      cases same
      exact ⟨_, before, alone, left⟩

variable (B)

/-- **The run so far is serial.**  With the flag clear nobody is inside and the
shared state is what the finished sessions left; with the flag set exactly one
party is inside, and has moved alone since the last session. -/
structure Ordered (σ₀ : σ) (s : State P σ ε l) : Prop where
  free : s.flag = false → (∀ p, s.inside p = none) ∧ Serial B σ₀ s.past s.shared
  held : s.flag = true → ∃ p e here m, s.inside p = some (e, here) ∧
    (∀ q, q ≠ p → s.inside q = none) ∧ Serial B σ₀ s.past m ∧ Alone B e m here s.shared

variable {B}

theorem Ordered.flag_of_inside {σ₀ : σ} {s : State P σ ε l} (ordered : Ordered B σ₀ s) {p : P}
    (inside : (s.inside p).isSome) : s.flag = true := by
  cases flag : s.flag with
  | true => rfl
  | false =>
      have out := (ordered.free flag).1 p
      simp [out] at inside

/-- At most one party is inside. -/
theorem Ordered.exclusive {σ₀ : σ} {s : State P σ ε l} (ordered : Ordered B σ₀ s) {p q : P}
    (insideP : (s.inside p).isSome) (insideQ : (s.inside q).isSome) : p = q := by
  obtain ⟨r, _, _, _, _, others, _⟩ := ordered.held (ordered.flag_of_inside insideP)
  have here : ∀ {x : P}, (s.inside x).isSome → x = r := by
    intro x inside
    by_contra ne
    rw [others x ne] at inside
    cases inside
  rw [here insideP, here insideQ]

/-- The flag is set exactly when somebody is inside. -/
theorem Ordered.flag_iff {σ₀ : σ} {s : State P σ ε l} (ordered : Ordered B σ₀ s) :
    s.flag = true ↔ ∃ p, (s.inside p).isSome := by
  constructor
  · intro flag
    obtain ⟨p, e, here, _, inside, _⟩ := ordered.held flag
    exact ⟨p, by simp [inside]⟩
  · rintro ⟨p, inside⟩
    exact ordered.flag_of_inside inside

/-- The one inside has moved alone since the last finished session. -/
theorem Ordered.alone {σ₀ : σ} {s : State P σ ε l} (ordered : Ordered B σ₀ s) {p : P} {e : ε}
    {here : l} (inside : s.inside p = some (e, here)) :
    ∃ m, Serial B σ₀ s.past m ∧ Alone B e m here s.shared := by
  have isInside : (s.inside p).isSome := by simp [inside]
  obtain ⟨r, e', here', m, insideR, others, serial, alone⟩ :=
    ordered.held (ordered.flag_of_inside isInside)
  have same : p = r := by
    by_contra ne
    simp [others p ne] at inside
  subst same
  rw [insideR] at inside
  cases inside
  exact ⟨m, serial, alone⟩

theorem ordered_start (σ₀ : σ) :
    Ordered B σ₀ (⟨false, σ₀, fun _ => none, []⟩ : State P σ ε l) where
  free _ := ⟨fun _ => rfl, .nil σ₀⟩
  held flag := by cases flag

end History

section Steps

variable {P : Type y} {σ : Type u} {ε : Type v} {l : Type w} {μ : Type x}
variable [DecidableEq P] (B : Body σ ε l μ)

def step (s : State P σ ε l) : Action P ε μ → Option (State P σ ε l)
  | .attempt p e =>
      if (s.inside p).isSome then none
      else if s.flag then some s
      else some { s with flag := true, inside := Function.update s.inside p (some (e, B.enter e)) }
  | .move p m =>
      match s.inside p with
      | none => none
      | some (e, here) =>
          (B.move here s.shared m).map fun next =>
            { s with shared := next.2, inside := Function.update s.inside p (some (e, next.1)) }
  | .leave p =>
      match s.inside p with
      | none => none
      | some (e, here) =>
          if B.mayLeave here then
            some { s with
              flag := false
              inside := Function.update s.inside p none
              past := s.past ++ [⟨p, e, here⟩] }
          else none

/-- Nobody is inside, the flag is clear, and nothing has happened yet. -/
def system (σ₀ : σ) : System (State P σ ε l) (Action P ε μ) where
  Start s := s = ⟨false, σ₀, fun _ => none, []⟩
  step := step B

variable {B}

section Taken

variable {s : State P σ ε l} {p : P} {e : ε} {here : l}

theorem step_enter (out : s.inside p = none) (clear : s.flag = false) :
    step B s (.attempt p e) = some { s with
      flag := true
      inside := Function.update s.inside p (some (e, B.enter e)) } := by
  simp [step, out, clear]

theorem step_refuse (out : s.inside p = none) (taken : s.flag = true) :
    step B s (.attempt p e) = some s := by
  simp [step, out, taken]

theorem step_move {m : μ} {next : l × σ} (inside : s.inside p = some (e, here))
    (moved : B.move here s.shared m = some next) : step B s (.move p m) = some { s with
      shared := next.2
      inside := Function.update s.inside p (some (e, next.1)) } := by
  simp [step, inside, moved]

theorem step_leave (inside : s.inside p = some (e, here)) (may : B.mayLeave here = true) :
    step B s (.leave p) = some { s with
      flag := false
      inside := Function.update s.inside p none
      past := s.past ++ [⟨p, e, here⟩] } := by
  simp [step, inside, may]

end Taken

/-- **Every interleaving is serial.**  One step keeps the history so. -/
theorem ordered_step {σ₀ : σ} {s t : State P σ ε l} {a : Action P ε μ}
    (ordered : Ordered B σ₀ s) (next : step B s a = some t) : Ordered B σ₀ t := by
  cases a with
  | attempt p e =>
      simp only [step] at next
      split at next
      · cases next
      · split at next
        · cases next
          exact ordered
        · rename_i flag
          obtain ⟨out, serial⟩ := ordered.free (by simpa using flag)
          cases next
          refine ⟨fun clear => absurd clear (by simp), ?_⟩
          intro _
          refine ⟨p, e, B.enter e, s.shared, by simp, ?_, serial, .enter e _⟩
          intro q ne
          simp [Function.update_of_ne ne, out q]
  | move p m =>
      simp only [step] at next
      split at next
      · cases next
      · rename_i e here inside
        simp only [Option.map_eq_some_iff] at next
        obtain ⟨moved, move, rfl⟩ := next
        have isInside : (s.inside p).isSome := by simp [inside]
        have flag := ordered.flag_of_inside isInside
        obtain ⟨start, serial, alone⟩ := ordered.alone inside
        constructor
        · intro clear
          simp [flag] at clear
        · intro _
          refine ⟨p, e, moved.1, start, by simp, ?_, serial, alone.move move⟩
          intro q ne
          simp only [Function.update_of_ne ne]
          by_contra inQ
          exact ne (ordered.exclusive (Option.isSome_iff_ne_none.2 inQ) isInside)
  | leave p =>
      simp only [step] at next
      split at next
      · cases next
      · rename_i e here inside
        split at next
        · rename_i left
          cases next
          have isInside : (s.inside p).isSome := by simp [inside]
          obtain ⟨start, serial, alone⟩ := ordered.alone inside
          refine ⟨fun _ => ⟨?_, .snoc serial alone left⟩, fun flag => by cases flag⟩
          intro q
          by_cases same : q = p
          · simp [same]
          · simp only [Function.update_of_ne same]
            by_contra inQ
            exact same (ordered.exclusive (Option.isSome_iff_ne_none.2 inQ) isInside)
        · cases next

end Steps

end Lkmpg.Theory.Exclusive
