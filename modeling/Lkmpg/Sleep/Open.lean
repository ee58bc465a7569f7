/-
# Lkmpg.Sleep.Open -- one process at a time has /proc/sleep

A step takes the file, gives it back, works on the message with the file open, or
does none of these (`StepKind`).  So `already_open` is the flag of an exclusive
section (`simulation`), and everything a failed `module_open` did was of the last
kind (`failed_unchanged`).
-/
import Lkmpg.Sleep.Driver
import Lkmpg.Theory.Exclusive

namespace Lkmpg.Sleep

open Lkmpg.Kernel Lkmpg.Theory

set_option autoImplicit false

/-- Between the successful `atomic_cmpxchg` of `module_open` and the `atomic_set` of
`module_close`. -/
def Pc.holds : Pc → Bool
  | .opened | .closing => true
  | _ => false

/-- In a `module_open` that has not taken the file, or after one that failed. -/
def Pc.trying : Pc → Bool
  | .tryOpen _ | .flags _ | .retry | .join | .test | .sleep | .asleep | .signals | .failed _ => true
  | _ => false

inductive Move where
  | output (len : Nat)
  | input (buf : List UInt8)

def work (d : Data) : Move → Data
  | .output len => (moduleOutput d len).1
  | .input buf => (moduleInput d buf).1

def body : Exclusive.Body Data Unit Unit Move where
  enter _ := ()
  move _ d m := some ((), work d m)
  mayLeave _ := true

section

variable {P : Type} [DecidableEq P]

/-- What a step of `p` from `s` to `t` is for the file. -/
inductive StepKind (s t : State P) (p : P) : Prop where
  | enter (free : s.alreadyOpen = 0) (outside : (s.pc p).holds = false)
      (next : t = { s with alreadyOpen := 1 }.goto p .opened)
  | leave (closing : s.pc p = .closing) (next : t = { s with alreadyOpen := 0 }.goto p .waking)
  | work (m : Move) (opened : s.pc p = .opened) (next : t = { s with data := work s.data m })
  | quiet (flag : t.alreadyOpen = s.alreadyOpen) (data : t.data = s.data)
      (holds : (t.pc p).holds = (s.pc p).holds)

theorem take_kind {s : State P} {p : P} {next : Pc} (outside : (s.pc p).holds = false)
    (still : next.holds = false) : StepKind s (s.take p next) p := by
  by_cases free : s.alreadyOpen = 0
  · exact .enter free outside (take_free free p next)
  · rw [take_busy free]
    exact .quiet rfl rfl (by simp [still, outside])

theorem step_kind {s t : State P} {a : Action P} (next : step s a = some t) :
    StepKind s t a.who := by
  cases a with
  | moduleOpen p nonblock =>
      simp only [step] at next
      split at next <;> cases next <;>
        exact .quiet rfl rfl (by simp_all [Action.who, Pc.holds])
  | run p =>
      simp only [step, runStep] at next
      split at next
      case h_1 nonblock pc => cases next; exact take_kind (by simp [Pc.holds, pc]) rfl
      case h_2 nonblock pc =>
        cases next
        exact .quiet rfl rfl (by cases nonblock <;> simp [Action.who, Pc.holds, pc])
      case h_3 pc => cases next; exact take_kind (by simp [Pc.holds, pc]) rfl
      case h_4 pc => cases next; exact .quiet rfl rfl (by simp [Action.who, Pc.holds, pc])
      case h_5 pc =>
        split at next <;> cases next <;>
          exact .quiet rfl rfl (by simp [Action.who, Pc.holds, pc])
      case h_6 pc =>
        cases next
        exact .quiet rfl rfl (by cases s.waitq p <;> simp [Action.who, Pc.holds, pc])
      case h_7 pc =>
        split at next <;> cases next
        exact .quiet rfl rfl (by simp [Action.who, Pc.holds, pc])
      case h_8 pc => cases next; exact .leave pc rfl
      case h_9 pc => cases next; exact .quiet rfl rfl (by simp [Action.who, Pc.holds, pc])
      all_goals cases next
  | signal p =>
      simp only [step] at next
      split at next <;> cases next <;>
        exact .quiet rfl rfl (by simp_all [Action.who, Pc.holds])
  | checkSignals p pending blocked =>
      simp only [step] at next
      split at next <;> cases next
      rename_i pc
      exact .quiet rfl rfl (by simp only [Action.who, goto_pc_self, pc]; split <;> rfl)
  | moduleOutput p len =>
      simp only [step] at next
      split at next <;> cases next
      rename_i opened
      exact .work (.output len) opened rfl
  | moduleInput p buf =>
      simp only [step] at next
      split at next <;> cases next
      rename_i opened
      exact .work (.input buf) opened rfl
  | moduleClose p =>
      simp only [step] at next
      split at next <;> cases next
      exact .quiet rfl rfl (by simp_all [Action.who, Pc.holds])

/-! ## The exclusive section -/

structure Rel (s : State P) (u : Exclusive.State P Data Unit Unit) : Prop where
  ordered : Exclusive.Ordered body Data.init u
  flag : s.alreadyOpen = if u.flag then 1 else 0
  data : s.data = u.shared
  inside : ∀ p, u.inside p = if (s.pc p).holds then some ((), ()) else none

omit [DecidableEq P] in
theorem Rel.isSome_iff {s : State P} {u : Exclusive.State P Data Unit Unit} (rel : Rel s u)
    (p : P) : (u.inside p).isSome ↔ (s.pc p).holds = true := by
  rw [rel.inside]
  split <;> simp_all

/-- Only the process that takes the action comes in or goes out. -/
theorem Rel.inside_update {s t : State P} {u : Exclusive.State P Data Unit Unit} {p : P}
    (rel : Rel s u) (others : ∀ q, q ≠ p → t.pc q = s.pc q) {state : Option (Unit × Unit)}
    (mine : state = if (t.pc p).holds then some ((), ()) else none) (q : P) :
    Function.update u.inside p state q = if (t.pc q).holds then some ((), ()) else none := by
  by_cases same : q = p
  · subst same
    rw [Function.update_self, mine]
  · rw [Function.update_of_ne same, rel.inside, others q same]

/-- Each step is a step of the section, or none. -/
theorem rel_step {s t : State P} {u : Exclusive.State P Data Unit Unit} {a : Action P}
    (rel : Rel s u) (next : step s a = some t) :
    ∃ bs u', (Exclusive.system body Data.init).run u bs = some u' ∧ Rel t u' := by
  have others := fun q => step_pc_of_ne (q := q) next
  cases step_kind next with
  | enter free outside eq =>
      have flag : u.flag = false := by
        cases h : u.flag with
        | false => rfl
        | true =>
            have taken := rel.flag
            rw [h, free] at taken
            cases taken
      have out : u.inside a.who = none := by
        rw [rel.inside, outside]
        rfl
      have taken := Exclusive.step_enter (B := body) (e := ()) out flag
      subst eq
      refine ⟨[.attempt a.who ()], _, by simp [System.run, Exclusive.system, taken],
        Exclusive.ordered_step rel.ordered taken, rfl, rel.data, ?_⟩
      exact rel.inside_update others (by simp [Pc.holds])
  | leave closing eq =>
      have inside : u.inside a.who = some ((), ()) := by
        rw [rel.inside, closing]
        rfl
      have taken := Exclusive.step_leave (B := body) inside rfl
      subst eq
      refine ⟨[.leave a.who], _, by simp [System.run, Exclusive.system, taken],
        Exclusive.ordered_step rel.ordered taken, rfl, rel.data, ?_⟩
      exact rel.inside_update others (by simp [Pc.holds])
  | work m opened eq =>
      have inside : u.inside a.who = some ((), ()) := by
        rw [rel.inside, opened]
        rfl
      have taken := Exclusive.step_move (B := body) (m := m) inside rfl
      have same : Function.update u.inside a.who (some ((), ())) = u.inside := by
        rw [← inside, Function.update_eq_self]
      subst eq
      refine ⟨[.move a.who m], _, by simp [System.run, Exclusive.system, taken],
        Exclusive.ordered_step rel.ordered taken, rel.flag, by rw [rel.data], ?_⟩
      intro q
      rw [← rel.inside q]
      exact congrFun same q
  | quiet flag data holds =>
      refine ⟨[], u, rfl, rel.ordered, flag.trans rel.flag, data.trans rel.data, ?_⟩
      intro q
      by_cases same : q = a.who
      · subst same
        rw [rel.inside, holds]
      · rw [rel.inside, others q same]

/-- `sleep.c` refines the exclusive section. -/
def simulation : Simulation (system P) (Exclusive.system (P := P) body Data.init) where
  Rel := Rel
  start := by
    rintro s rfl
    exact ⟨_, rfl, Exclusive.ordered_start Data.init, rfl, rfl, fun _ => rfl⟩
  step _ _ _ _ rel next := rel_step rel next

theorem reachable_rel {s : State P} (reached : (system P).Reachable s) : ∃ u, Rel s u := by
  obtain ⟨u, -, rel⟩ := simulation.reachable reached
  exact ⟨u, rel⟩

theorem reachable_exclusive {s : State P} (reached : (system P).Reachable s) {p q : P}
    (holdsP : (s.pc p).holds = true) (holdsQ : (s.pc q).holds = true) : p = q := by
  obtain ⟨u, rel⟩ := reachable_rel reached
  exact rel.ordered.exclusive ((rel.isSome_iff p).2 holdsP) ((rel.isSome_iff q).2 holdsQ)

theorem reachable_flag_iff {s : State P} (reached : (system P).Reachable s) :
    s.alreadyOpen = 1 ↔ ∃ p, (s.pc p).holds = true := by
  obtain ⟨u, rel⟩ := reachable_rel reached
  simp only [← rel.isSome_iff]
  rw [← rel.ordered.flag_iff, rel.flag]
  cases u.flag <;> simp

/-! ## What a failed open changed -/

variable (P) in
/-- The driver with a history: whether the last `module_open` of a process, and what
it called since, changed `already_open` or `message`. -/
structure Traced where
  now : State P
  changed : P → Bool

/-- The history compares the two shared variables before and after each step. -/
def tracedStep (s : Traced P) (a : Action P) : Option (Traced P) :=
  (step s.now a).map fun t =>
    ⟨t, Function.update s.changed a.who
      (match a with
      | .moduleOpen _ _ => false
      | _ => s.changed a.who || decide (t.alreadyOpen ≠ s.now.alreadyOpen) ||
          decide (t.data.message ≠ s.now.data.message))⟩

def tracedSystem (P : Type) [DecidableEq P] : System (Traced P) (Action P) where
  Start s := s = ⟨start, fun _ => false⟩
  step := tracedStep

theorem traced_reachable {s : Traced P} (reached : (tracedSystem P).Reachable s) :
    (system P).Reachable s.now := by
  refine reached.induct (I := fun s => (system P).Reachable s.now) ?_ ?_
  · rintro s rfl
    exact .start rfl
  · intro s a t reached next
    obtain ⟨t', move, rfl⟩ := Option.map_eq_some_iff.1 next
    exact reached.step move

/-- A process that is still trying after its step has taken a quiet one. -/
theorem quiet_of_trying {s t : State P} {p : P} (kind : StepKind s t p)
    (trying : (t.pc p).trying = true) : t.alreadyOpen = s.alreadyOpen ∧ t.data = s.data := by
  cases kind with
  | enter free outside eq => subst eq; simp [Pc.trying] at trying
  | leave closing eq => subst eq; simp [Pc.trying] at trying
  | work m opened eq => subst eq; simp [Pc.trying, opened] at trying
  | quiet flag data holds => exact ⟨flag, data⟩

/-- A process gets to trying from trying, or by calling `module_open`. -/
theorem trying_before {s t : State P} {a : Action P} (next : step s a = some t)
    (trying : (t.pc a.who).trying = true) :
    (s.pc a.who).trying = true ∨ ∃ nonblock, a = .moduleOpen a.who nonblock := by
  cases a with
  | moduleOpen p nonblock => exact .inr ⟨nonblock, rfl⟩
  | run p =>
      simp only [step, runStep] at next
      split at next <;> (try split at next) <;> cases next <;> simp_all [Action.who, Pc.trying]
  | _ =>
      simp only [step] at next
      split at next <;> cases next <;> simp_all [Action.who, Pc.trying]

theorem trying_unchanged {s : Traced P} (reached : (tracedSystem P).Reachable s) :
    ∀ p, (s.now.pc p).trying = true → s.changed p = false := by
  refine reached.induct (I := fun s => ∀ p, (s.now.pc p).trying = true → s.changed p = false) ?_ ?_
  · rintro s rfl p trying
    cases trying
  · intro s a t ih next p trying
    obtain ⟨t', move, rfl⟩ := Option.map_eq_some_iff.1 next
    dsimp only at trying ⊢
    by_cases same : p = a.who
    · subst same
      obtain ⟨flag, data⟩ := quiet_of_trying (step_kind move) trying
      rcases trying_before move trying with before | ⟨nonblock, call⟩
      · rw [Function.update_self, flag, data, ih a.who before]
        cases a <;> simp
      · rw [call, Function.update_self]
    · rw [Function.update_of_ne same]
      rw [step_pc_of_ne move same] at trying
      exact ih p trying

/-- **Mutual exclusion of `/proc/sleep`.**  At most one process holds the file;
`already_open` is 1 exactly when one does; and a `module_open` that failed has
changed neither `already_open` nor `message`. -/
theorem sleep_exclusive {s : Traced P} (reached : (tracedSystem P).Reachable s) :
    (∀ p q, (s.now.pc p).holds = true → (s.now.pc q).holds = true → p = q) ∧
      (s.now.alreadyOpen = 1 ↔ ∃ p, (s.now.pc p).holds = true) ∧
      ∀ p ret, s.now.pc p = .failed ret → s.changed p = false := by
  have plain := traced_reachable reached
  refine ⟨fun p q => reachable_exclusive plain, reachable_flag_iff plain, ?_⟩
  intro p ret failed
  exact trying_unchanged reached p (by rw [failed]; rfl)

end

/-- While one process has the file open, a second is refused without blocking and a
third is interrupted in its wait. -/
theorem sleep_exclusive_contended :
    ∃ s : Traced (Fin 3), (tracedSystem (Fin 3)).Reachable s ∧
      (s.now.pc 0 = .opened ∧ s.now.pc 1 = .failed (-EAGAIN) ∧ s.now.pc 2 = .failed (-EINTR)) ∧
      s.now.alreadyOpen = 1 ∧ s.changed 1 = false ∧ s.changed 2 = false := by
  have ends : ((tracedSystem (Fin 3)).run ⟨start, fun _ => false⟩
      [.moduleOpen 0 false, .run 0, .moduleOpen 1 true, .run 1, .run 1, .moduleInput 0 [104, 105],
        .moduleOpen 2 false, .run 2, .run 2, .run 2, .run 2, .run 2, .run 2, .signal 2,
        .checkSignals 2 2 0]).map (fun s => (s.now.pc 0, s.now.pc 1, s.now.pc 2)) =
      some (.opened, .failed (-EAGAIN), .failed (-EINTR)) := by decide
  obtain ⟨s, ran, pcs⟩ := Option.map_eq_some_iff.1 ends
  simp only [Prod.mk.injEq] at pcs
  have reached : (tracedSystem (Fin 3)).Reachable s := ⟨_, _, rfl, ran⟩
  obtain ⟨-, flag, unchanged⟩ := sleep_exclusive reached
  exact ⟨s, reached, pcs, flag.2 ⟨0, by rw [pcs.1]; rfl⟩, unchanged 1 _ pcs.2.1,
    unchanged 2 _ pcs.2.2⟩

end Lkmpg.Sleep
