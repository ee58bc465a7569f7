/-
# Lkmpg.Theory.Lifecycle -- what a module takes when it is loaded, and gives back

A module is an init function and an exit function, which take resources and release
them.  A resource may need others: it is taken after them, and none of them is released
while it is there.  Each call may fail.

`Returns Q p s`: from `s`, whatever the calls answer, the program `p` returns only with
`Q`.  There is one rule for each kind of call.  A module whose init function leaves
nothing when it fails, and whose exit function leaves nothing at all, is `Clean`; no
run of it misuses a resource, and none is held while it is not loaded (`balanced`).

`Fills Q p s` is the same where no call fails.  A call that fails need not make the init
function fail, so a loaded module may have less than when none did (`Full`).
-/
import Lkmpg.Theory.Calls
import Lkmpg.Theory.System

namespace Lkmpg.Theory.Lifecycle

set_option autoImplicit false

universe u

inductive Call (R : Type u) where
  /-- Answers 0 and takes the resource, or a negative error. -/
  | acquire (r : R)
  /-- As `acquire`, and it does not fail. -/
  | take (r : R)
  /-- Takes a resource that was free and answers its number, or a negative error. -/
  | allot (r : Int → R)
  /-- As `acquire`; it fails by itself without what it needs. -/
  | attempt (r : R)
  /-- Answers 0, or a negative error. -/
  | use (r : R)
  | release (r : R)
  /-- As `release`, when it is there. -/
  | drop (r : R)
  /-- Releases what needs it. -/
  | shed (r : R)

structure Holding (R : Type u) where
  held : List R
  /-- Something was used or released that was not held, was released while needed, or
  was taken twice or without what it needs. -/
  misused : Bool

variable {R : Type u} [DecidableEq R] (needs : R → List R)

/-- It can be taken. -/
def Ready (held : List R) (r : R) : Prop := r ∉ held ∧ ∀ q ∈ needs r, q ∈ held

/-- Nothing that is held needs it. -/
def Spare (held : List R) (r : R) : Prop := ∀ q ∈ held, r ∉ needs q

instance (held : List R) (r : R) : Decidable (Ready needs held r) :=
  inferInstanceAs (Decidable (_ ∧ _))

instance (held : List R) (r : R) : Decidable (Spare needs held r) :=
  inferInstanceAs (Decidable (∀ q ∈ held, _))

omit [DecidableEq R] in
@[simp] theorem ready_iff (held : List R) (r : R) :
    Ready needs held r ↔ r ∉ held ∧ ∀ q ∈ needs r, q ∈ held := Iff.rfl

omit [DecidableEq R] in
@[simp] theorem spare_nil (r : R) : Spare needs [] r := fun _ member => by cases member

omit [DecidableEq R] in
@[simp] theorem spare_cons (held : List R) (q r : R) :
    Spare needs (q :: held) r ↔ r ∉ needs q ∧ Spare needs held r :=
  List.forall_mem_cons

/-- What needs `r`. -/
def dependents (r : R) (held : List R) : List R := held.filter fun q => r ∈ needs q

/-- What does not need `r`. -/
def others (r : R) (held : List R) : List R := held.filter fun q => r ∉ needs q

namespace Holding

def none_ : Holding R := ⟨[], false⟩

def check (s : Holding R) (fine : Prop) [Decidable fine] : Holding R :=
  { s with misused := s.misused || !fine }

def take (s : Holding R) (r : R) : Holding R :=
  { s.check (Ready needs s.held r) with held := r :: s.held }

def release (s : Holding R) (r : R) : Holding R :=
  { s.check (r ∈ s.held ∧ Spare needs (s.held.erase r) r) with held := s.held.erase r }

def shed (s : Holding R) (r : R) : Holding R :=
  { s.check (∀ q ∈ dependents needs r s.held, Spare needs (others needs r s.held) q) with
    held := others needs r s.held }

/-- The holding after the call is answered with `a`. -/
def perform (s : Holding R) : Call R → Int → Option (Holding R)
  | .acquire r, a =>
      if 0 < a then none
      else if a = 0 then some (s.take needs r)
      else some (s.check (Ready needs s.held r))
  | .take r, a => if a = 0 then some (s.take needs r) else none
  | .allot r, a =>
      if a < 0 then some s
      else if r a ∈ s.held then none
      else some (s.take needs (r a))
  | .attempt r, a =>
      if 0 < a then none
      else if a < 0 then some s
      else if Ready needs s.held r then some (s.take needs r) else none
  | .use r, a => if 0 < a then none else some (s.check (r ∈ s.held))
  | .release r, a => if a = 0 then some (s.release needs r) else none
  | .drop r, a =>
      if a = 0 then some (if r ∈ s.held then s.release needs r else s) else none
  | .shed r, a => if a = 0 then some (s.shed needs r) else none

omit [DecidableEq R] in
theorem check_misused {s : Holding R} {fine : Prop} [Decidable fine] (misused : s.misused = true) :
    (s.check fine).misused = true := by
  simp [check, misused]

omit [DecidableEq R] in
theorem check_fine {s : Holding R} {fine : Prop} [Decidable fine] (holds : fine) :
    s.check fine = s := by
  simp [check, holds]

/-- A misuse stays one. -/
theorem perform_misused {s t : Holding R} {c : Call R} {a : Int}
    (performed : s.perform needs c a = some t) (misused : s.misused = true) :
    t.misused = true := by
  cases c <;> simp only [perform] at performed <;> repeat' split at performed
  all_goals cases performed
  all_goals first
    | exact misused
    | exact check_misused misused

end Holding

/-! ## Programs -/

abbrev Code (R : Type u) : Type → Type u := Calls (Call R) Int

def call (c : Call R) : Code R Int := .one c

/-- A call whose answer is not looked at. -/
def run (c : Call R) : Code R Unit := .ask c fun _ => ()

variable {ρ : Type}

def Returns (Q : ρ → Holding R → Prop) (p : Code R ρ) (s : Holding R) : Prop :=
  Calls.Ends (Holding.perform needs) (fun _ _ => True) Q p s

/-- Each call can be answered. -/
theorem exists_answer (s : Holding R) (c : Call R) : ∃ a t, s.perform needs c a = some t := by
  cases c with
  | allot r | attempt r => exact ⟨-1, s, rfl⟩
  | acquire r | take r | use r | release r | drop r | shed r => exact ⟨0, _, rfl⟩

variable {needs}

/-- A program that returns without a misuse has made none. -/
theorem returns_misused {Q : ρ → Holding R → Prop} (clean : ∀ x s, Q x s → s.misused = false)
    {p : Code R ρ} {s : Holding R} (returns : Returns needs Q p s) : s.misused = false := by
  induction p generalizing s with
  | ret x => exact clean x s returns
  | call c next ih =>
      obtain ⟨a, t, performed⟩ := exists_answer needs s c
      have later := ih a (Calls.Ends.step returns performed trivial)
      by_contra wrong
      rw [Bool.not_eq_false] at wrong
      rw [Holding.perform_misused needs performed wrong] at later
      cases later

/-! ## Rules -/

section

variable {Q : ρ → Holding R → Prop} {held : List R} {r : R}

@[simp] theorem returns_pure {s : Holding R} {x : ρ} :
    Returns needs Q (pure x : Code R ρ) s ↔ Q x s := Iff.rfl

/-- A program, and the rest after it. -/
theorem returns_bind {τ : Type} {Q : τ → Holding R → Prop} {p : Code R ρ} {f : ρ → Code R τ}
    {s : Holding R} :
    Returns needs Q (p >>= f) s ↔ Returns needs (fun x t => Returns needs Q (f x) t) p s :=
  Calls.ends_bind

theorem take_ready (ready : Ready needs held r) :
    Holding.take needs ⟨held, false⟩ r = ⟨r :: held, false⟩ := by
  simp only [Holding.take, Holding.check_fine ready]

/-- A call that may fail. -/
theorem returns_call {next : Int → Code R ρ} (ready : Ready needs held r)
    (fails : ∀ a < 0, Returns needs Q (next a) ⟨held, false⟩)
    (succeeds : Returns needs Q (next 0) ⟨r :: held, false⟩) :
    Returns needs Q (call (.acquire r) >>= next) ⟨held, false⟩ := by
  apply Calls.ends_one.2
  intro a t performed _
  simp only [Holding.perform, take_ready ready, Holding.check_fine ready] at performed
  split at performed
  · cases performed
  split at performed
  · rename_i zero
    cases performed
    rw [zero]
    exact succeeds
  · cases performed
    exact fails a (by omega)

/-- A call that may fail, and a test of its answer. -/
theorem returns_acquire {test : Int → Prop} [DecidablePred test] {failed next : Int → Code R ρ}
    (tested : ∀ a ≤ 0, test a ↔ a < 0) (ready : Ready needs held r)
    (fails : ∀ a < 0, Returns needs Q (failed a) ⟨held, false⟩)
    (succeeds : Returns needs Q (next 0) ⟨r :: held, false⟩) :
    Returns needs Q (do
      let ret ← call (.acquire r)
      if test ret then failed ret else next ret) ⟨held, false⟩ := by
  refine returns_call ready ?_ ?_
  · intro a negative
    rw [if_pos ((tested a (Int.le_of_lt negative)).2 negative)]
    exact fails a negative
  · rw [if_neg fun holds => absurd ((tested 0 (Int.le_refl 0)).1 holds) (Int.lt_irrefl 0)]
    exact succeeds

/-- `if (ret)` -/
theorem nonzero_iff {a : Int} (small : a ≤ 0) : a ≠ 0 ↔ a < 0 := by omega

/-- `if (ret < 0)` -/
theorem negative_iff {a : Int} (_ : a ≤ 0) : a < 0 ↔ a < 0 := Iff.rfl

theorem returns_take {next : Unit → Code R ρ} (ready : Ready needs held r)
    (succeeds : Returns needs Q (next ()) ⟨r :: held, false⟩) :
    Returns needs Q (run (.take r) >>= next) ⟨held, false⟩ := by
  intro a t performed _
  simp only [Holding.perform, take_ready ready] at performed
  split at performed <;> cases performed
  exact succeeds

/-- The resource is that of the number answered. -/
theorem returns_allot {of : Int → R} {failed next : Int → Code R ρ}
    (ready : ∀ a, of a ∉ held → Ready needs held (of a))
    (fails : ∀ a < 0, Returns needs Q (failed a) ⟨held, false⟩)
    (succeeds : ∀ a ≥ 0, Returns needs Q (next a) ⟨of a :: held, false⟩) :
    Returns needs Q (do
      let ret ← call (.allot of)
      if ret < 0 then failed ret else next ret) ⟨held, false⟩ := by
  apply Calls.ends_one.2
  intro a t performed _
  simp only [Holding.perform] at performed
  split at performed
  · rename_i negative
    cases performed
    rw [if_pos negative]
    exact fails a negative
  · rename_i positive
    split at performed
    · cases performed
    · rename_i free
      rw [take_ready (ready a free)] at performed
      cases performed
      rw [if_neg positive]
      exact succeeds a (by omega)

/-- A call whose answer is not looked at: the resource is there after it, or not. -/
theorem returns_attempt {next : Unit → Code R ρ}
    (fails : Returns needs Q (next ()) ⟨held, false⟩)
    (succeeds : Ready needs held r → Returns needs Q (next ()) ⟨r :: held, false⟩) :
    Returns needs Q (run (.attempt r) >>= next) ⟨held, false⟩ := by
  intro a t performed _
  simp only [Holding.perform] at performed
  split at performed
  · cases performed
  split at performed
  · cases performed
    exact fails
  split at performed
  · rename_i ready
    rw [take_ready ready] at performed
    cases performed
    exact succeeds ready
  · cases performed

/-- A use that may fail, and a test of its answer. -/
theorem returns_use {test : Int → Prop} [DecidablePred test] {failed next : Int → Code R ρ}
    (tested : ∀ a ≤ 0, test a ↔ a < 0) (member : r ∈ held)
    (fails : ∀ a < 0, Returns needs Q (failed a) ⟨held, false⟩)
    (succeeds : Returns needs Q (next 0) ⟨held, false⟩) :
    Returns needs Q (do
      let ret ← call (.use r)
      if test ret then failed ret else next ret) ⟨held, false⟩ := by
  apply Calls.ends_one.2
  intro a t performed _
  simp only [Holding.perform, Holding.check_fine member] at performed
  split at performed <;> cases performed
  by_cases negative : a < 0
  · rw [if_pos ((tested a (Int.le_of_lt negative)).2 negative)]
    exact fails a negative
  · obtain rfl : a = 0 := by omega
    rw [if_neg fun holds => negative ((tested 0 (Int.le_refl 0)).1 holds)]
    exact succeeds

@[simp] theorem returns_run_use {next : Unit → Code R ρ} (member : r ∈ held) :
    Returns needs Q (run (.use r) >>= next) ⟨held, false⟩ ↔
      Returns needs Q (next ()) ⟨held, false⟩ := by
  constructor
  · exact fun returns => returns 0 _ (by simp [Holding.perform, Holding.check_fine member]) trivial
  · intro returns a t performed _
    simp only [Holding.perform, Holding.check_fine member] at performed
    split at performed <;> cases performed
    exact returns

theorem release_spare (member : r ∈ held) (spare : Spare needs (held.erase r) r) :
    Holding.release needs ⟨held, false⟩ r = ⟨held.erase r, false⟩ := by
  simp [Holding.release, Holding.check, member, spare]

@[simp] theorem returns_release {next : Unit → Code R ρ} (member : r ∈ held)
    (spare : Spare needs (held.erase r) r) :
    Returns needs Q (run (.release r) >>= next) ⟨held, false⟩ ↔
      Returns needs Q (next ()) ⟨held.erase r, false⟩ := by
  constructor
  · exact fun returns => returns 0 _ (by simp [Holding.perform, release_spare member spare]) trivial
  · intro returns a t performed _
    simp only [Holding.perform, release_spare member spare] at performed
    split at performed <;> cases performed
    exact returns

/-- It is released if it is there. -/
@[simp] theorem returns_drop {next : Unit → Code R ρ} (spare : Spare needs (held.erase r) r) :
    Returns needs Q (run (.drop r) >>= next) ⟨held, false⟩ ↔
      Returns needs Q (next ()) ⟨held.erase r, false⟩ := by
  have released : (if r ∈ held then Holding.release needs ⟨held, false⟩ r else ⟨held, false⟩) =
      ⟨held.erase r, false⟩ := by
    split
    · exact release_spare ‹_› spare
    · rw [List.erase_of_not_mem ‹_›]
  constructor
  · exact fun returns => returns 0 _ (by simp [Holding.perform, released]) trivial
  · intro returns a t performed _
    simp only [Holding.perform, released] at performed
    split at performed <;> cases performed
    exact returns

@[simp] theorem returns_drop_absent {next : Unit → Code R ρ} (absent : r ∉ held) :
    Returns needs Q (run (.drop r) >>= next) ⟨held, false⟩ ↔
      Returns needs Q (next ()) ⟨held, false⟩ := by
  constructor
  · exact fun returns => returns 0 _ (by simp [Holding.perform, absent]) trivial
  · intro returns a t performed _
    simp only [Holding.perform, if_neg absent] at performed
    split at performed <;> cases performed
    exact returns

theorem returns_shed {next : Unit → Code R ρ}
    (spare : ∀ q ∈ dependents needs r held, Spare needs (others needs r held) q) :
    Returns needs Q (run (.shed r) >>= next) ⟨held, false⟩ ↔
      Returns needs Q (next ()) ⟨others needs r held, false⟩ := by
  have released : Holding.shed needs ⟨held, false⟩ r = ⟨others needs r held, false⟩ := by
    simp only [Holding.shed, Holding.check_fine spare]
  constructor
  · exact fun returns => returns 0 _ (by simp [Holding.perform, released]) trivial
  · intro returns a t performed _
    simp only [Holding.perform, released] at performed
    split at performed <;> cases performed
    exact returns

/-- All that needs it is above it. -/
theorem returns_shed_over {next : Unit → Code R ρ} {above base : List R}
    (upper : ∀ q ∈ above, r ∈ needs q) (under : ∀ q ∈ base, r ∉ needs q)
    (spare : ∀ q ∈ above, Spare needs base q) :
    Returns needs Q (run (.shed r) >>= next) ⟨above ++ base, false⟩ ↔
      Returns needs Q (next ()) ⟨base, false⟩ := by
  have gone : dependents needs r (above ++ base) = above := by
    rw [dependents, List.filter_append,
      List.filter_eq_self.2 fun q member => decide_eq_true (upper q member),
      List.filter_eq_nil_iff.2 fun q member => by simp [under q member], List.append_nil]
  have left : others needs r (above ++ base) = base := by
    rw [others, List.filter_append,
      List.filter_eq_nil_iff.2 fun q member => by simp [upper q member],
      List.filter_eq_self.2 fun q member => by simp [under q member], List.nil_append]
  rw [returns_shed, left]
  rw [gone, left]
  exact spare

end

/-! ## Where no call fails -/

variable (needs) in
def Fills (Q : ρ → Holding R → Prop) (p : Code R ρ) (s : Holding R) : Prop :=
  Calls.Ends (Holding.perform needs) (fun _ a => 0 ≤ a) Q p s

variable (needs) in
/-- What is held after a call that has not failed. -/
def Call.after (held : List R) (a : Int) : Call R → List R
  | .acquire r | .take r | .attempt r => r :: held
  | .allot of => of a :: held
  | .use _ => held
  | .release r | .drop r => held.erase r
  | .shed r => others needs r held

/-- It answers 0 then. -/
def Call.plain : Call R → Bool
  | .allot _ => false
  | _ => true

theorem perform_fine {s t : Holding R} {c : Call R} {a : Int} (fine : 0 ≤ a)
    (performed : s.perform needs c a = some t) :
    t.held = c.after needs s.held a ∧ (c.plain = true → a = 0) := by
  cases c with
  | acquire r | attempt r =>
      simp only [Holding.perform] at performed
      repeat' split at performed
      all_goals cases performed
      all_goals exact ⟨by first | rfl | omega, fun _ => by omega⟩
  | use r =>
      simp only [Holding.perform] at performed
      split at performed <;> cases performed
      exact ⟨rfl, fun _ => by omega⟩
  | allot of =>
      simp only [Holding.perform] at performed
      split at performed
      · omega
      · split at performed <;> cases performed
        exact ⟨rfl, nofun⟩
  | take r | release r | shed r =>
      simp only [Holding.perform] at performed
      split at performed <;> cases performed
      exact ⟨rfl, fun _ => ‹_›⟩
  | drop r =>
      simp only [Holding.perform] at performed
      split at performed <;> cases performed
      refine ⟨?_, fun _ => ‹_›⟩
      split
      · rfl
      · exact (List.erase_of_not_mem ‹_›).symm

section

variable {Q : ρ → Holding R → Prop} {s : Holding R} {c : Call R}

theorem fills_bind {τ : Type} {Q : τ → Holding R → Prop} {p : Code R ρ} {f : ρ → Code R τ} :
    Fills needs Q (p >>= f) s ↔
      Fills needs (fun x t => Fills needs Q (f x) t) p s :=
  Calls.ends_bind

theorem fills_call {next : Int → Code R ρ} (plain : c.plain = true)
    (rest : ∀ t, t.held = c.after needs s.held 0 → Fills needs Q (next 0) t) :
    Fills needs Q (call c >>= next) s := by
  apply Calls.ends_one.2
  intro a t performed fine
  obtain ⟨held, zero⟩ := perform_fine fine performed
  obtain rfl := zero plain
  exact rest t held

theorem fills_run {next : Unit → Code R ρ} (plain : c.plain = true)
    (rest : ∀ t, t.held = c.after needs s.held 0 → Fills needs Q (next ()) t) :
    Fills needs Q (run c >>= next) s := by
  intro a t performed fine
  obtain ⟨held, zero⟩ := perform_fine fine performed
  obtain rfl := zero plain
  exact rest t held

theorem fills_allot {of : Int → R} {next : Int → Code R ρ}
    (rest : ∀ a ≥ 0, ∀ t, t.held = of a :: s.held → Fills needs Q (next a) t) :
    Fills needs Q (call (.allot of) >>= next) s := by
  apply Calls.ends_one.2
  intro a t performed fine
  exact rest a fine t (perform_fine fine performed).1

end

/-! ## Modules -/

structure Driver (R : Type u) where
  /-- What the init function leaves for the exit function. -/
  Globals : Type
  init : Code R (Int × Globals)
  exit : Globals → Code R Unit

inductive Phase (d : Driver R) where
  | unloaded
  | loading (rest : Code R (Int × d.Globals))
  | loaded (g : d.Globals)
  | unloading (rest : Code R Unit)

variable {d : Driver R}

/-- A module whose init function returns an error is not loaded. -/
def Phase.ofInit : Code R (Int × d.Globals) → Phase d
  | .ret (ret, g) => if ret < 0 then .unloaded else .loaded g
  | .call c next => .loading (.call c next)

def Phase.ofExit : Code R Unit → Phase d
  | .ret () => .unloaded
  | .call c next => .unloading (.call c next)

structure State (d : Driver R) where
  res : Holding R
  phase : Phase d
  /-- A call of the init function has failed. -/
  failed : Bool

inductive Act where
  | insmod
  | rmmod
  /-- The next call of the module's code is answered. -/
  | answer (a : Int)

variable (needs d)

def step (s : State d) : Act → Option (State d)
  | .insmod =>
      match s.phase with
      | .unloaded => some { s with phase := .ofInit d.init, failed := false }
      | _ => none
  | .rmmod =>
      match s.phase with
      | .loaded g => some { s with phase := .ofExit (d.exit g) }
      | _ => none
  | .answer a =>
      match s.phase with
      | .loading (.call c next) =>
          (s.res.perform needs c a).map fun res =>
            ⟨res, .ofInit (next a), s.failed || decide (a < 0)⟩
      | .unloading (.call c next) =>
          (s.res.perform needs c a).map fun res => ⟨res, .ofExit (next a), s.failed⟩
      | _ => none

def start : State d := ⟨.none_, .unloaded, false⟩

def system : System (State d) Act where
  Start s := s = start d
  step := step needs d

variable (works whole : d.Globals → Holding R → Prop)

def Nothing (_ : Unit) (s : Holding R) : Prop := s = .none_

/-- The init function failed and nothing is left, or the module has what it works with
and the exit function leaves nothing. -/
def Settled (result : Int × d.Globals) (s : Holding R) : Prop :=
  if result.1 < 0 then s = .none_
  else s.misused = false ∧ works result.2 s ∧ Returns needs Nothing (d.exit result.2) s

def Clean : Prop := Returns needs (Settled needs d works) d.init .none_

/-- The init function has it all when it succeeds. -/
def Whole (result : Int × d.Globals) (s : Holding R) : Prop :=
  ¬ result.1 < 0 → whole result.2 s

def Full : Prop := Fills needs (Whole d whole) d.init .none_

/-- No resource is misused, none is held while the module is not loaded, and a loaded
module has what it works with, and all of it when no call has failed. -/
structure Balanced (s : State d) : Prop where
  misused : s.res.misused = false
  unloaded : s.phase = .unloaded → s.res.held = []
  loaded : ∀ g, s.phase = .loaded g → works g s.res
  full : ∀ g, s.phase = .loaded g → s.failed = false → whole g s.res

/-- What is left of the module's code keeps the promise. -/
def Sound (s : State d) : Prop :=
  match s.phase with
  | .unloaded => s.res = .none_
  | .loading rest => Returns needs (Settled needs d works) rest s.res
  | .loaded g => s.res.misused = false ∧ works g s.res ∧ Returns needs Nothing (d.exit g) s.res
  | .unloading rest => Returns needs Nothing rest s.res

/-- What is left of the init function goes on to have it all. -/
def Filling (s : State d) : Prop :=
  s.failed = false → match s.phase with
    | .loading rest => Fills needs (Whole d whole) rest s.res
    | .loaded g => whole g s.res
    | .unloaded | .unloading _ => True

variable {needs d works whole}

theorem settled_failed {ret : Int} {g : d.Globals} (failed : ret < 0) :
    Settled needs d works (ret, g) ⟨[], false⟩ := by
  rw [Settled, if_pos failed]
  rfl

/-- The init function returns its error, and holds nothing. -/
theorem returns_failed {ret : Int} {g : d.Globals} (failed : ret < 0) :
    Returns needs (Settled needs d works) (pure (ret, g)) ⟨[], false⟩ :=
  settled_failed failed

theorem returns_loaded {g : d.Globals} {held : List R} (has : works g ⟨held, false⟩)
    (returns : Returns needs Nothing (d.exit g) ⟨held, false⟩) :
    Returns needs (Settled needs d works) (pure (0, g)) ⟨held, false⟩ := by
  rw [returns_pure, Settled, if_neg (Int.lt_irrefl 0)]
  exact ⟨rfl, has, returns⟩

omit [DecidableEq R] in
@[simp] theorem nothing_iff {held : List R} {misused : Bool} :
    Nothing () (⟨held, misused⟩ : Holding R) ↔ held = [] ∧ misused = false := by
  simp [Nothing, Holding.none_]

theorem sound_ofInit {p : Code R (Int × d.Globals)} {res : Holding R} {failed : Bool}
    (returns : Returns needs (Settled needs d works) p res) :
    Sound needs d works ⟨res, .ofInit p, failed⟩ := by
  cases p with
  | call c next => exact returns
  | ret result =>
      obtain ⟨ret, g⟩ := result
      have settled : Settled needs d works (ret, g) res := returns
      by_cases failed : ret < 0
      · have unloaded : Phase.ofInit (.ret (ret, g)) = (Phase.unloaded : Phase d) := if_pos failed
        rw [Settled, if_pos failed] at settled
        rw [unloaded]
        exact settled
      · have loaded : Phase.ofInit (.ret (ret, g)) = Phase.loaded g := if_neg failed
        rw [Settled, if_neg failed] at settled
        rw [loaded]
        exact settled

theorem sound_ofExit {p : Code R Unit} {res : Holding R} {failed : Bool}
    (returns : Returns needs Nothing p res) : Sound needs d works ⟨res, .ofExit p, failed⟩ := by
  cases p with
  | call c next => exact returns
  | ret _ => exact returns

theorem step_sound (clean : Clean needs d works) {s t : State d} {a : Act}
    (sound : Sound needs d works s) (next : step needs d s a = some t) :
    Sound needs d works t := by
  obtain ⟨res, phase, failed⟩ := s
  cases a with
  | insmod =>
      cases phase <;> simp only [step] at next <;> cases next
      cases show res = .none_ from sound
      exact sound_ofInit clean
  | rmmod =>
      cases phase <;> simp only [step] at next <;> cases next
      exact sound_ofExit sound.2.2
  | answer a =>
      cases phase with
      | unloaded | loaded g => cases next
      | loading rest =>
          cases rest with
          | ret _ => cases next
          | call c rest =>
              obtain ⟨res', performed, rfl⟩ := Option.map_eq_some_iff.1 next
              exact sound_ofInit (Calls.Ends.step sound performed trivial)
      | unloading rest =>
          cases rest with
          | ret _ => cases next
          | call c rest =>
              obtain ⟨res', performed, rfl⟩ := Option.map_eq_some_iff.1 next
              exact sound_ofExit (Calls.Ends.step sound performed trivial)

/-- It has all it works with, whatever fails. -/
theorem Clean.full (clean : Clean needs d works) : Full needs d works := by
  refine Calls.Ends.mono ?_ (Calls.Ends.fewer (fun _ _ _ => trivial) clean)
  intro result s settled succeeded
  rw [Settled, if_neg succeeded] at settled
  exact settled.2.1

theorem filling_ofInit {p : Code R (Int × d.Globals)} {res : Holding R} {failed : Bool}
    (fills : failed = false → Fills needs (Whole d whole) p res) :
    Filling needs d whole ⟨res, .ofInit p, failed⟩ := by
  intro fine
  have fills := fills fine
  cases p with
  | call c next => exact fills
  | ret result =>
      obtain ⟨ret, g⟩ := result
      have all : ¬ ret < 0 → whole g res := fills
      by_cases wrong : ret < 0
      · have unloaded : Phase.ofInit (.ret (ret, g)) = (Phase.unloaded : Phase d) := if_pos wrong
        rw [unloaded]
        trivial
      · have loaded : Phase.ofInit (.ret (ret, g)) = (Phase.loaded g : Phase d) := if_neg wrong
        rw [loaded]
        exact all wrong

theorem filling_ofExit {p : Code R Unit} {res : Holding R} {failed : Bool} :
    Filling needs d whole ⟨res, .ofExit p, failed⟩ := by
  intro _
  cases p <;> trivial

theorem step_filling (full : Full needs d whole) {s t : State d} {a : Act}
    (sound : Sound needs d works s) (filling : Filling needs d whole s)
    (next : step needs d s a = some t) : Filling needs d whole t := by
  obtain ⟨res, phase, failed⟩ := s
  cases a with
  | insmod =>
      cases phase <;> simp only [step] at next <;> cases next
      cases show res = .none_ from sound
      exact filling_ofInit fun _ => full
  | rmmod =>
      cases phase <;> simp only [step] at next <;> cases next
      exact filling_ofExit
  | answer a =>
      cases phase with
      | unloaded | loaded g => cases next
      | loading rest =>
          cases rest with
          | ret _ => cases next
          | call c rest =>
              obtain ⟨res', performed, rfl⟩ := Option.map_eq_some_iff.1 next
              refine filling_ofInit fun fine => ?_
              simp only [Bool.or_eq_false_iff, decide_eq_false_iff_not, Int.not_lt] at fine
              exact Calls.Ends.step (filling fine.1) performed fine.2
      | unloading rest =>
          cases rest with
          | ret _ => cases next
          | call c rest =>
              obtain ⟨res', performed, rfl⟩ := Option.map_eq_some_iff.1 next
              exact filling_ofExit

theorem Sound.balanced {s : State d} (sound : Sound needs d works s)
    (filling : Filling needs d whole s) : Balanced d works whole s := by
  obtain ⟨res, phase, failed⟩ := s
  cases phase with
  | unloaded =>
      cases show res = .none_ from sound
      exact ⟨rfl, fun _ => rfl, nofun, nofun⟩
  | loading rest =>
      refine ⟨returns_misused ?_ sound, nofun, nofun, nofun⟩
      intro result s settled
      unfold Settled at settled
      split at settled
      · rw [settled]
        rfl
      · exact settled.1
  | loaded g =>
      refine ⟨sound.1, nofun, fun g' same => ?_, fun g' same fine => ?_⟩
      · cases same
        exact sound.2.1
      · cases same
        exact filling fine
  | unloading rest =>
      refine ⟨returns_misused ?_ sound, nofun, nofun, nofun⟩
      intro _ s empty
      rw [show s = .none_ from empty]
      rfl

/-- **Balanced loads.**  Every run of a clean module is balanced. -/
theorem balanced (clean : Clean needs d works) (full : Full needs d whole) (as : List Act) :
    (system needs d).Always (Balanced d works whole) (start d) as := by
  have both : (system needs d).Always
      (fun s => Sound needs d works s ∧ Filling needs d whole s) (start d) as := by
    refine System.always_induct ?_ ⟨rfl, fun _ => trivial⟩
    rintro s a t ⟨sound, filling⟩ next
    exact ⟨step_sound clean sound next, step_filling full sound filling next⟩
  exact both.mono fun _ both => Sound.balanced both.1 both.2

end Lkmpg.Theory.Lifecycle
