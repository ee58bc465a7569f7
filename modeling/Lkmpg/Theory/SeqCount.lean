/-
# Lkmpg.Theory.SeqCount -- reading a record while it is being written

One writer takes a record from version to version, a field at a time, and readers read
it a field at a time.  `Sound` says where a value can come from: a reader that began
after `since` versions were complete has values of versions from `since` on, up to the
one that has begun (`Sound.step`).

A sequence number that goes up when a version begins and when it is complete tells a
reader that none has begun in between (`begun_eq`), and then its values are one
version (`Sound.whole`).
-/
import Mathlib.Logic.Function.Basic
import Mathlib.Tactic.Common

namespace Lkmpg.Theory.SeqCount

set_option autoImplicit false

universe u v w

structure State (F : Type u) (V : Type v) (R : Type w) where
  /-- The versions, those from `begun` on all alike. -/
  version : Nat → F → V
  /-- The number of the version that has begun last. -/
  begun : Nat
  /-- The number of the version that is complete. -/
  completed : Nat
  current : F → V
  /-- What was complete when a reader began, and the values it has read since. -/
  reader : R → Option (Nat × (F → Option V))

variable {F : Type u} {V : Type v} {R : Type w} [DecidableEq F] [DecidableEq R]

inductive Step (s : State F V R) : State F V R → Prop where
  | begin (new : F → V) (idle : s.completed = s.begun) : Step s { s with
      version := fun k => if k ≤ s.begun then s.version k else new
      begun := s.begun + 1 }
  | write (f : F) : Step s { s with
      current := Function.update s.current f (s.version s.begun f) }
  | complete (done : s.current = s.version s.begun) : Step s { s with completed := s.begun }
  | enter (r : R) : Step s { s with
      reader := Function.update s.reader r (some (s.completed, fun _ => none)) }
  | read (r : R) (f : F) (since : Nat) (seen : F → Option V)
      (inside : s.reader r = some (since, seen)) : Step s { s with
        reader := Function.update s.reader r
          (some (since, Function.update seen f (some (s.current f)))) }
  | leave (r : R) : Step s { s with reader := Function.update s.reader r none }

/-- The value is that of a version from `since` on. -/
def State.From (s : State F V R) (since : Nat) (f : F) (x : V) : Prop :=
  ∃ k, since ≤ k ∧ k ≤ s.begun ∧ x = s.version k f

structure Sound (s : State F V R) : Prop where
  order : s.completed ≤ s.begun
  next : s.begun ≤ s.completed + 1
  current : ∀ f, s.From s.completed f (s.current f)
  since : ∀ r since seen, s.reader r = some (since, seen) → since ≤ s.completed
  seen : ∀ r since seen, s.reader r = some (since, seen) → ∀ f x, seen f = some x →
    s.From since f x

omit [DecidableEq F] [DecidableEq R] in
theorem State.From.mono {s : State F V R} {since before : Nat} {f : F} {x : V}
    (origin : s.From since f x) (earlier : before ≤ since) : s.From before f x := by
  obtain ⟨k, after, upTo, same⟩ := origin
  exact ⟨k, Nat.le_trans earlier after, upTo, same⟩

omit [DecidableEq F] in
theorem reader_update {h : R → Option (Nat × (F → Option V))} {r q : R}
    {x : Option (Nat × (F → Option V))} {since : Nat} {seen : F → Option V} :
    Function.update h r x q = some (since, seen) ↔
      (q = r ∧ x = some (since, seen)) ∨ (q ≠ r ∧ h q = some (since, seen)) := by
  by_cases same : q = r
  · subst same
    simp
  · simp [same]

namespace Sound

variable {s t : State F V R}

omit [DecidableEq F] [DecidableEq R] in
theorem start (x : F → V) : Sound (⟨fun _ => x, 0, 0, x, fun _ => none⟩ : State F V R) where
  order := Nat.le_refl _
  next := Nat.zero_le _
  current f := ⟨0, Nat.le_refl _, Nat.le_refl _, rfl⟩
  since := by simp
  seen := by simp

omit [DecidableEq F] [DecidableEq R] in
/-- A version begins.  What has been read is still of a version. -/
theorem begin (sound : Sound s) {new : F → V} (idle : s.completed = s.begun) : Sound { s with
    version := fun k => if k ≤ s.begun then s.version k else new
    begun := s.begun + 1 } := by
  have kept : ∀ since f x, s.From since f x → State.From { s with
      version := fun k => if k ≤ s.begun then s.version k else new
      begun := s.begun + 1 } since f x := by
    rintro since f x ⟨k, after, upTo, same⟩
    refine ⟨k, after, Nat.le_succ_of_le upTo, ?_⟩
    simp only [if_pos upTo]
    exact same
  exact
    { order := Nat.le_succ_of_le sound.order
      next := Nat.succ_le_succ (Nat.le_of_eq idle.symm)
      current := fun f => kept _ f _ (sound.current f)
      since := sound.since
      seen := fun r since seen inside f x read =>
        kept since f x (sound.seen r since seen inside f x read) }

omit [DecidableEq R] in
theorem write (sound : Sound s) (f : F) : Sound { s with
    current := Function.update s.current f (s.version s.begun f) } :=
  { sound with
    current := fun g => by
      by_cases same : g = f
      · subst same
        exact ⟨s.begun, sound.order, Nat.le_refl _, Function.update_self ..⟩
      · obtain ⟨k, after, upTo, eq⟩ := sound.current g
        exact ⟨k, after, upTo, (Function.update_of_ne same ..).trans eq⟩ }

omit [DecidableEq F] [DecidableEq R] in
theorem complete (sound : Sound s) (done : s.current = s.version s.begun) :
    Sound { s with completed := s.begun } :=
  { sound with
    order := Nat.le_refl _
    next := Nat.le_succ _
    current := fun f => ⟨s.begun, Nat.le_refl _, Nat.le_refl _, congrFun done f⟩
    since := fun r since seen inside => Nat.le_trans (sound.since r since seen inside) sound.order }

omit [DecidableEq F] in
theorem enter (sound : Sound s) (r : R) : Sound { s with
    reader := Function.update s.reader r (some (s.completed, fun _ => none)) } :=
  { sound with
    since := fun q since seen inside => by
      rcases reader_update.1 inside with ⟨-, new⟩ | ⟨-, old⟩
      · cases new
        exact Nat.le_refl _
      · exact sound.since q since seen old
    seen := fun q since seen inside f x read => by
      rcases reader_update.1 inside with ⟨-, new⟩ | ⟨-, old⟩
      · cases new
        cases read
      · exact sound.seen q since seen old f x read }

theorem read (sound : Sound s) {r : R} (f : F) {since : Nat} {seen : F → Option V}
    (inside : s.reader r = some (since, seen)) : Sound { s with
      reader := Function.update s.reader r
        (some (since, Function.update seen f (some (s.current f)))) } :=
  { sound with
    since := fun q since' seen' insideQ => by
      rcases reader_update.1 insideQ with ⟨-, new⟩ | ⟨-, old⟩
      · cases new
        exact sound.since r since seen inside
      · exact sound.since q since' seen' old
    seen := fun q since' seen' insideQ g x readG => by
      rcases reader_update.1 insideQ with ⟨-, new⟩ | ⟨-, old⟩
      · cases new
        by_cases same : g = f
        · subst same
          rw [Function.update_self] at readG
          cases readG
          exact (sound.current g).mono (sound.since r since seen inside)
        · rw [Function.update_of_ne same] at readG
          exact sound.seen r since seen inside g x readG
      · exact sound.seen q since' seen' old g x readG }

omit [DecidableEq F] in
theorem leave (sound : Sound s) (r : R) :
    Sound { s with reader := Function.update s.reader r none } :=
  { sound with
    since := fun q since seen inside => by
      rcases reader_update.1 inside with ⟨-, new⟩ | ⟨-, old⟩
      · cases new
      · exact sound.since q since seen old
    seen := fun q since seen inside => by
      rcases reader_update.1 inside with ⟨-, new⟩ | ⟨-, old⟩
      · cases new
      · exact sound.seen q since seen old }

/-- **One step.** -/
theorem step (sound : Sound s) (step : Step s t) : Sound t := by
  cases step with
  | begin new idle => exact sound.begin idle
  | write f => exact sound.write f
  | complete done => exact sound.complete done
  | enter r => exact sound.enter r
  | read r f since seen inside => exact sound.read f inside
  | leave r => exact sound.leave r

omit [DecidableEq F] [DecidableEq R] in
/-- **One version.**  When none has begun since, all values are of the same. -/
theorem whole (sound : Sound s) {r : R} {since : Nat} {seen : F → Option V}
    (inside : s.reader r = some (since, seen)) (none_begun : s.begun = since) {f : F} {x : V}
    (read : seen f = some x) : x = s.version since f := by
  obtain ⟨k, after, upTo, same⟩ := sound.seen r since seen inside f x read
  have only : k = since := Nat.le_antisymm (none_begun ▸ upTo) after
  rw [same, only]

end Sound

/-! ## The sequence number

It is the number of versions begun and completed, modulo `2 * m`. -/

/-- A reader that finds the number it began with, before `m` versions have begun, knows
that none has. -/
theorem begun_eq {since completed begun m : Nat} (after : since ≤ completed)
    (order : completed ≤ begun) (same : (completed + begun) % (2 * m) = (2 * since) % (2 * m))
    (few : begun < since + m) : begun = since := by
  have divides : 2 * m ∣ completed + begun - 2 * since :=
    Nat.dvd_of_mod_eq_zero (Nat.sub_mod_eq_zero_of_mod_eq same)
  have zero := Nat.eq_zero_of_dvd_of_lt divides (by omega)
  omega

end Lkmpg.Theory.SeqCount
