/-
# Lkmpg.Rcu.Leaks -- what is left of the objects when the module is gone

A module is loaded once: `example_rcu_init` runs, then any calls of `update_data`, then
`example_rcu_exit`, which ends its life, as does an `example_rcu_init` that fails.

* `idle_count`: between the calls, what has been allocated and not freed is what is
  published, and nothing else.
* `rcu_no_leak`: nothing is left at the end, unless `example_rcu_init` fails after
  its first object has been published, or an object is published after the end.
-/
import Lkmpg.Rcu.Reclaim

namespace Lkmpg.Rcu

open Lkmpg.Theory

set_option autoImplicit false

/-! ## The life of the module -/

inductive Phase (P : Type) where
  | new
  /-- `p` is in `example_rcu_init`. -/
  | coming (p : P)
  | live
  /-- `p` is in `example_rcu_exit`. -/
  | going (p : P)
  /-- `example_rcu_init` has returned an error, or `example_rcu_exit` has returned. -/
  | unloaded
  deriving DecidableEq

/-- The phase in which an action is taken, when the module's code is there. -/
def Phase.take {P R : Type} : Phase P → Action P R → Option (Phase P)
  | .new, .exampleRcuInit p => some (.coming p)
  | _, .exampleRcuInit _ => none
  | .live, .exampleRcuExit p => some (.going p)
  | _, .exampleRcuExit _ => none
  | .new, .updateData _ _ => none
  | .unloaded, .updateData _ _ => none
  | phase, _ => some phase

section

variable {P R : Type}

/-- The phase once the call has returned that it waits for. -/
def Phase.settle (s : State P R) : Phase P → Phase P
  | .coming p =>
      match s.pc p with
      | .outside => .live
      | .failed _ => .unloaded
      | _ => .coming p
  | .going p => if s.pc p = .outside then .unloaded else .going p
  | phase => phase

end

structure Module (P R : Type) where
  core : State P R
  phase : Phase P

variable {P R : Type} [DecidableEq P] [DecidableEq R]

def lifeStep (m : Module P R) (a : Action P R) : Option (Module P R) :=
  (m.phase.take a).bind fun phase =>
    (step m.core a).map fun s => ⟨s, phase.settle s⟩

def Module.start : Module P R := ⟨Rcu.start, .new⟩

def lifecycle (P R : Type) [DecidableEq P] [DecidableEq R] : System (Module P R) (Action P R) where
  Start m := m = .start
  step := lifeStep

theorem lifeStep_eq_some {m n : Module P R} {a : Action P R} :
    lifeStep m a = some n ↔ ∃ phase, m.phase.take a = some phase ∧
      step m.core a = some n.core ∧ n.phase = phase.settle n.core := by
  obtain ⟨core, phase⟩ := n
  simp only [lifeStep, Option.bind_eq_some_iff, Option.map_eq_some_iff, Module.mk.injEq]
  constructor
  · rintro ⟨phase, taken, s, next, rfl, rfl⟩
    exact ⟨phase, taken, next, rfl⟩
  · rintro ⟨phase, taken, next, rfl⟩
    exact ⟨phase, taken, core, next, rfl, rfl⟩

/-! ## Between the calls -/

/-- In no call of `update_data` or `example_rcu_exit`, or at the beginning of an
`update_data` that has done nothing yet. -/
def Pc.idle : Pc → Bool
  | .outside | .failed _ | .kthreadRun | .kmalloc _ _ => true
  | _ => false

theorem Pc.object_of_idle {pc : Pc} (idle : pc.idle) : pc.object = none := by
  cases pc <;> first | rfl | cases idle

theorem reachable_accounted {s : State P R} (reached : (system P R).Reachable s) :
    GracePeriod.Accounted s.view := by
  have start : ∀ s : State P R, s = Rcu.start → Held s ∧ GracePeriod.Accounted s.view := by
    rintro s rfl
    exact ⟨held_start, GracePeriod.Accounted.start⟩
  refine (reached.induct start ?_).2
  intro s a t both next
  refine ⟨step_held both.1 next, ?_⟩
  rcases step_view both.1 next with same | moved
  · rw [same]
    exact both.2
  · exact both.2.step moved

/-- **Nothing is lost on the way.**  Whatever has failed, only the published object is
left between the calls. -/
theorem idle_count {s : State P R} (reached : (system P R).Reachable s)
    (idle : ∀ p, (s.pc p).idle) :
    s.next = s.freed.length + if s.sharedData.isSome then 1 else 0 := by
  have counted : s.next = s.freed.length + s.sharedData.toList.length :=
    (reachable_accounted reached).count (reachable_sound reached) fun p => Pc.object_of_idle (idle p)
  rw [counted]
  cases s.sharedData <;> rfl

/-! ## The end -/

/-- In `example_rcu_exit`, before its `RCU_INIT_POINTER`. -/
def Pc.clearing : Pc → Bool
  | .stop | .join => true
  | .lock new back | .deref new back | .assign new _ back => decide (new = none ∧ back = .exit)
  | _ => false

/-- In `example_rcu_exit`, after its `RCU_INIT_POINTER`. -/
def Pc.cleared : Pc → Bool
  | .unlock _ back | .test _ back | .sync _ back | .grace _ _ back | .free _ back =>
      decide (back = .exit)
  | _ => false

theorem Pc.not_cleared {pc : Pc} (clearing : pc.clearing) : pc.cleared = false := by
  cases pc <;> first | rfl | cases clearing

/-- Who takes the action, when it is a step of a call. -/
def Action.caller : Action P R → Option P
  | .updateData p _ | .exampleRcuInit p | .exampleRcuExit p | .kmalloc p _ | .kthreadRun p _
  | .run p => some p
  | .startReader _ | .read _ => none

section Step

variable {s t : State P R} {a : Action P R}

theorem next_ne_failed (back : From) (ret : Int) : back.next ≠ .failed ret := by
  cases back <;> nofun

/-- A step of a call moves that call, and writes `shared_data` at its assignment only. -/
theorem runStep_frame {p : P} (next : runStep s p = some t) :
    (∃ pc, t.pc = Function.update s.pc p pc ∧ ∀ ret, pc ≠ .failed ret) ∧
      (t.sharedData = s.sharedData ∨
        ∃ new old back, s.pc p = .assign new old back ∧ t.sharedData = new) := by
  unfold runStep at next
  cases at_ : s.pc p with
  | assign new old back =>
      simp only [at_] at next
      cases next
      exact ⟨⟨_, rfl, nofun⟩, .inr ⟨new, old, back, rfl, rfl⟩⟩
  | join =>
      simp only [at_] at next
      split at next
      · split at next <;> cases next
        exact ⟨⟨_, rfl, nofun⟩, .inl rfl⟩
      · cases next
  | test old back =>
      cases old <;> simp only [at_] at next <;> cases next
      · exact ⟨⟨_, rfl, next_ne_failed back⟩, .inl rfl⟩
      · exact ⟨⟨_, rfl, nofun⟩, .inl rfl⟩
  | free old back =>
      simp only [at_] at next
      cases next
      exact ⟨⟨_, rfl, next_ne_failed back⟩, .inl rfl⟩
  | lock new back | grace old limit back | stop =>
      simp only [at_] at next
      split at next <;> cases next
      exact ⟨⟨_, rfl, nofun⟩, .inl rfl⟩
  | _ =>
      simp only [at_] at next
      cases next <;> exact ⟨⟨_, rfl, nofun⟩, .inl rfl⟩

theorem step_pc_other (next : step s a = some t) {p : P} (other : a.caller ≠ some p) :
    t.pc p = s.pc p := by
  have ne : ∀ q, a.caller = some q → p ≠ q := by
    rintro q caller rfl
    exact other caller
  cases a with
  | run q =>
      obtain ⟨⟨pc, pcs, -⟩, -⟩ := runStep_frame next
      rw [pcs, Function.update_of_ne (ne q rfl)]
  | read r =>
      simp only [step, readStep] at next
      split at next <;> cases next <;> rfl
  | startReader r =>
      simp only [step] at next
      split at next <;> cases next
      rfl
  | kthreadRun q got =>
      simp only [step] at next
      split at next
      · split at next <;> cases next
        exact Function.update_of_ne (ne q rfl) _ _
      · cases next
        exact Function.update_of_ne (ne q rfl) _ _
      · cases next
  | updateData q _ | exampleRcuInit q | exampleRcuExit q | kmalloc q _ =>
      simp only [step] at next
      split at next <;> cases next <;> exact Function.update_of_ne (ne q rfl) _ _

/-- `shared_data` is written by `rcu_assign_pointer` and `RCU_INIT_POINTER` only. -/
theorem step_sharedData (next : step s a = some t) : t.sharedData = s.sharedData ∨
    ∃ p new old back, a = .run p ∧ s.pc p = .assign new old back ∧ t.sharedData = new := by
  cases a with
  | run p =>
      rcases (runStep_frame next).2 with kept | ⟨new, old, back, at_, assigned⟩
      · exact .inl kept
      · exact .inr ⟨p, new, old, back, rfl, at_, assigned⟩
  | read r =>
      simp only [step, readStep] at next
      split at next <;> cases next <;> exact .inl rfl
  | startReader r =>
      simp only [step] at next
      split at next <;> cases next
      exact .inl rfl
  | kthreadRun p got =>
      simp only [step] at next
      split at next
      · split at next <;> cases next
        exact .inl rfl
      · cases next
        exact .inl rfl
      · cases next
  | _ =>
      simp only [step] at next
      split at next <;> cases next <;> exact .inl rfl

/-- In the middle of a call its caller only goes on. -/
theorem eq_run_of_inside (next : step s a = some t) {p : P} (caller : a.caller = some p)
    (inside : (s.pc p).idle = false) : a = .run p := by
  cases a with
  | run q =>
      cases caller
      rfl
  | read r => cases caller
  | startReader r => cases caller
  | updateData q _ | exampleRcuInit q | exampleRcuExit q | kmalloc q _ | kthreadRun q _ =>
      cases caller
      have began : (s.pc p).idle := by
        simp only [step] at next
        split at next
        all_goals first
          | (rename_i at_; rw [at_]; rfl)
          | cases next
      rw [inside] at began
      cases began

theorem step_init {p : P} (next : step s (.exampleRcuInit p) = some t) :
    t.pc p = .kmalloc 42 .init42 := by
  simp only [step] at next
  split at next <;> cases next <;> simp [State.goto]

theorem step_error {p : P} {ret : Int} (next : step s (.kthreadRun p (.error ret)) = some t) :
    t = s.goto p (.failed ret) := by
  simp only [step] at next
  cases pc : s.pc p <;> rw [pc] at next <;> cases next
  rfl

theorem step_exit {p : P} (next : step s (.exampleRcuExit p) = some t) :
    (t.pc p).clearing := by
  simp only [step] at next
  split at next <;> cases next <;> simp [State.goto, Pc.clearing]

/-- `example_rcu_exit` goes on to its `RCU_INIT_POINTER`, and past it. -/
theorem step_clearing (next : step s a = some t) {p : P} (at_ : (s.pc p).clearing) :
    (t.pc p).clearing ∨ (t.pc p).cleared ∧ t.sharedData = none := by
  by_cases caller : a.caller = some p
  · have inside : (s.pc p).idle = false := by
      cases pc : s.pc p <;> rw [pc] at at_ <;> first | rfl | cases at_
    obtain rfl := eq_run_of_inside next caller inside
    simp only [step, runStep] at next
    cases pc : s.pc p with
    | stop =>
        simp only [pc] at next
        split at next <;> cases next
        simp [State.goto, Pc.clearing]
    | join =>
        simp only [pc] at next
        split at next
        · split at next <;> cases next
          simp [State.goto, Pc.clearing]
        · cases next
    | lock new back =>
        simp only [pc, Pc.clearing, decide_eq_true_eq] at next at_
        split at next <;> cases next
        simp [State.goto, Pc.clearing, at_]
    | deref new back =>
        simp only [pc, Pc.clearing, decide_eq_true_eq] at next at_
        cases next
        simp [State.goto, Pc.clearing, at_]
    | assign new old back =>
        simp only [pc, Pc.clearing, decide_eq_true_eq] at next at_
        cases next
        simp [State.goto, Pc.cleared, at_]
    | _ =>
        rw [pc] at at_
        cases at_
  · rw [step_pc_other next caller]
    exact .inl at_

theorem step_cleared (next : step s a = some t) {p : P} (at_ : (s.pc p).cleared) :
    (t.pc p).cleared ∨ t.pc p = .outside := by
  by_cases caller : a.caller = some p
  · have inside : (s.pc p).idle = false := by
      cases pc : s.pc p <;> rw [pc] at at_ <;> first | rfl | cases at_
    obtain rfl := eq_run_of_inside next caller inside
    simp only [step, runStep] at next
    cases pc : s.pc p with
    | unlock old back =>
        simp only [pc, Pc.cleared, decide_eq_true_eq] at next at_
        cases next
        simp [State.goto, Pc.cleared, at_]
    | test old back =>
        cases old <;> simp only [pc, Pc.cleared, decide_eq_true_eq] at next at_ <;> cases next
        · simp [State.goto, From.next, at_]
        · simp [State.goto, Pc.cleared, at_]
    | sync old back =>
        simp only [pc, Pc.cleared, decide_eq_true_eq] at next at_
        cases next
        simp [State.goto, Pc.cleared, at_]
    | grace old limit back =>
        simp only [pc, Pc.cleared, decide_eq_true_eq] at next at_
        split at next <;> cases next
        simp [State.goto, Pc.cleared, at_]
    | free old back =>
        simp only [pc, Pc.cleared, decide_eq_true_eq] at next at_
        cases next
        simp [State.goto, From.next, at_]
    | _ =>
        rw [pc] at at_
        cases at_
  · rw [step_pc_other next caller]
    exact .inl at_

/-- A call fails in `kthread_run` only. -/
theorem step_failed (next : step s a = some t) {p : P} {ret : Int} (failed : t.pc p = .failed ret)
    (before : s.pc p ≠ .failed ret) : a = .kthreadRun p (.error ret) := by
  by_cases caller : a.caller = some p
  · cases a with
    | run q =>
        cases caller
        obtain ⟨⟨pc, pcs, ne⟩, -⟩ := runStep_frame next
        rw [pcs, Function.update_self] at failed
        exact absurd failed (ne ret)
    | read r => cases caller
    | startReader r => cases caller
    | kthreadRun q got =>
        cases caller
        simp only [step] at next
        split at next
        · split at next <;> cases next
          simp [State.goto] at failed
        · cases next
          simp only [State.goto, Function.update_self, Pc.failed.injEq] at failed
          rw [failed]
        · cases next
    | kmalloc q got =>
        cases caller
        simp only [step] at next
        split at next <;> cases next
        · simp [State.goto] at failed
        · simp only [State.goto, Function.update_self] at failed
          exact absurd failed (next_ne_failed _ ret)
    | updateData q _ | exampleRcuInit q | exampleRcuExit q =>
        cases caller
        simp only [step] at next
        split at next <;> cases next <;> simp [State.goto] at failed
  · rw [step_pc_other next caller] at failed
    exact absurd failed before

end Step

omit [DecidableEq P] [DecidableEq R] in
theorem take_cases {phase taken : Phase P} {a : Action P R} (took : phase.take a = some taken) :
    taken = phase ∨ (∃ p, a = .exampleRcuInit p ∧ taken = .coming p) ∨
      ∃ p, a = .exampleRcuExit p ∧ taken = .going p := by
  unfold Phase.take at took
  split at took <;> cases took
  · exact .inr (.inl ⟨_, rfl, rfl⟩)
  · exact .inr (.inr ⟨_, rfl, rfl⟩)
  · exact .inl rfl

omit [DecidableEq P] [DecidableEq R] in
theorem settle_coming {s : State P R} {phase : Phase P} {p : P}
    (settled : phase.settle s = .coming p) : ∀ ret, s.pc p ≠ .failed ret := by
  intro ret failed
  cases phase with
  | coming q =>
      simp only [Phase.settle] at settled
      split at settled <;> cases settled
      rename_i other
      exact other ret failed
  | going q =>
      simp only [Phase.settle] at settled
      split at settled <;> cases settled
  | _ => cases settled

omit [DecidableEq P] [DecidableEq R] in
theorem settle_going {s : State P R} {phase : Phase P} {p : P}
    (settled : phase.settle s = .going p) : phase = .going p ∧ s.pc p ≠ .outside := by
  cases phase with
  | coming q =>
      simp only [Phase.settle] at settled
      split at settled <;> cases settled
  | going q =>
      simp only [Phase.settle] at settled
      split at settled <;> cases settled
      exact ⟨rfl, ‹_›⟩
  | _ => cases settled

omit [DecidableEq P] [DecidableEq R] in
theorem settle_unloaded {s : State P R} {phase : Phase P} (settled : phase.settle s = .unloaded) :
    phase = .unloaded ∨ (∃ p ret, phase = .coming p ∧ s.pc p = .failed ret) ∨
      ∃ p, phase = .going p ∧ s.pc p = .outside := by
  cases phase with
  | coming p =>
      simp only [Phase.settle] at settled
      split at settled <;> cases settled
      exact .inr (.inl ⟨p, _, rfl, ‹_›⟩)
  | going p =>
      simp only [Phase.settle] at settled
      split at settled <;> cases settled
      exact .inr (.inr ⟨p, rfl, ‹_›⟩)
  | _ =>
      cases settled <;> exact .inl rfl

/-- `example_rcu_exit` has set `shared_data` to `NULL`, or the module is gone. -/
def Module.cleared (m : Module P R) : Bool :=
  match m.phase with
  | .unloaded => true
  | .going p => (m.core.pc p).cleared
  | .new | .coming _ | .live => false

/-- `kthread_run` fails only when nothing has been published, and nothing is published
after the end. -/
def Kept (m : Module P R) : Action P R → Prop
  | .kthreadRun _ (.error _) => m.core.sharedData = none
  | .run p =>
      match m.core.pc p with
      | .assign (some _) _ _ => m.cleared = false
      | _ => True
  | _ => True

instance (m : Module P R) (a : Action P R) : Decidable (Kept m a) := by
  unfold Kept
  split
  · infer_instance
  · split <;> infer_instance
  · infer_instance

structure Ending (m : Module P R) : Prop where
  reached : (system P R).Reachable m.core
  coming : ∀ p ret, m.phase = .coming p → m.core.pc p ≠ .failed ret
  going : ∀ p, m.phase = .going p → (m.core.pc p).clearing ∨ (m.core.pc p).cleared
  cleared : m.cleared → m.core.sharedData = none

namespace Ending

theorem start : Ending (.start : Module P R) where
  reached := .start rfl
  coming p ret coming := by cases coming
  going p going := by cases going
  cleared cleared := by cases cleared

variable {m n : Module P R} {a : Action P R}

/-- After the end nothing is published any more. -/
theorem stays_cleared (ending : Ending m) (kept : Kept m a) (next : step m.core a = some n.core)
    (cleared : m.cleared) : n.core.sharedData = none := by
  rcases step_sharedData next with same | ⟨p, new, old, back, rfl, at_, assigned⟩
  · rw [same]
    exact ending.cleared cleared
  · cases new with
    | none => exact assigned
    | some b =>
        simp only [Kept, at_] at kept
        rw [kept] at cleared
        cases cleared

theorem step_going (ending : Ending m) {taken : Phase P} (took : m.phase.take a = some taken)
    (next : step m.core a = some n.core) {p : P} (going : taken = .going p)
    (inside : n.core.pc p ≠ .outside) :
    (n.core.pc p).clearing ∨ (n.core.pc p).cleared := by
  rcases take_cases took with same | ⟨q, -, coming⟩ | ⟨q, rfl, exits⟩
  · rcases ending.going p (same ▸ going) with clearing | cleared
    · exact (step_clearing next clearing).imp_right And.left
    · exact .inr ((step_cleared next cleared).resolve_right inside)
  · rw [coming] at going
    cases going
  · rw [exits] at going
    cases going
    exact .inl (step_exit next)

/-- `example_rcu_init` returns an error with nothing published. -/
theorem fails (ending : Ending m) (kept : Kept m a) {p : P} {ret : Int}
    (took : m.phase.take a = some (.coming p)) (next : step m.core a = some n.core)
    (failed : n.core.pc p = .failed ret) : n.core.sharedData = none := by
  rcases take_cases took with same | ⟨q, rfl, coming⟩ | ⟨q, -, going⟩
  · obtain rfl := step_failed next failed (ending.coming p ret same.symm)
    rcases step_sharedData next with unchanged | ⟨q, new, old, back, run, -⟩
    · exact unchanged.trans kept
    · cases run
  · cases coming
    rw [step_init next] at failed
    cases failed
  · cases going

/-- The step of `example_rcu_exit` after which the module is cleared. -/
theorem clears (ending : Ending m) {p : P} (took : m.phase.take a = some (.going p))
    (next : step m.core a = some n.core) (uncleared : m.cleared = false)
    (after : (n.core.pc p).clearing = false) : n.core.sharedData = none := by
  rcases take_cases took with same | ⟨q, -, coming⟩ | ⟨q, rfl, going⟩
  · rw [Module.cleared, ← same] at uncleared
    rcases ending.going p same.symm with clearing | cleared
    · rcases step_clearing next clearing with still | ⟨-, null⟩
      · rw [after] at still
        cases still
      · exact null
    · cases uncleared.symm.trans cleared
  · cases coming
  · cases going
    cases after.symm.trans (step_exit next)

/-- The step that clears the module, or ends its life, leaves nothing published. -/
theorem becomes_cleared (ending : Ending m) (kept : Kept m a) {taken : Phase P}
    (took : m.phase.take a = some taken) (next : step m.core a = some n.core)
    (settled : n.phase = taken.settle n.core) (uncleared : m.cleared = false)
    (cleared : n.cleared) : n.core.sharedData = none := by
  rw [Module.cleared] at cleared
  split at cleared
  · rename_i unloaded
    rcases settle_unloaded (settled ▸ unloaded) with rfl | ⟨p, ret, rfl, failed⟩ | ⟨p, rfl, outside⟩
    · rcases take_cases took with same | ⟨p, -, coming⟩ | ⟨p, -, going⟩
      · rw [Module.cleared, ← same] at uncleared
        cases uncleared
      · cases coming
      · cases going
    · exact ending.fails kept took next failed
    · exact ending.clears took next uncleared (by rw [outside]; rfl)
  · rename_i p going
    obtain ⟨rfl, -⟩ := settle_going (settled ▸ going)
    refine ending.clears took next uncleared ?_
    by_contra clearing
    rw [Bool.not_eq_false] at clearing
    cases cleared.symm.trans (Pc.not_cleared clearing)
  · cases cleared
  · cases cleared
  · cases cleared

theorem step (ending : Ending m) (kept : Kept m a) (next : lifeStep m a = some n) :
    Ending n := by
  obtain ⟨taken, took, stepped, settled⟩ := lifeStep_eq_some.1 next
  refine ⟨ending.reached.step stepped, ?_, ?_, ?_⟩
  · intro p ret coming
    exact settle_coming (settled ▸ coming) ret
  · intro p going
    obtain ⟨taking, inside⟩ := settle_going (settled ▸ going)
    exact ending.step_going took stepped taking inside
  · intro cleared
    by_cases before : m.cleared
    · exact ending.stays_cleared kept stepped before
    · exact ending.becomes_cleared kept took stepped settled (by simpa using before) cleared

end Ending

/-- Between the calls what is left is what is published, and nothing when the module is
not loaded any more. -/
def Balanced (m : Module P R) : Prop :=
  (∀ p, (m.core.pc p).idle) →
    m.core.next = m.core.freed.length + (if m.core.sharedData.isSome then 1 else 0) ∧
    (m.phase = .unloaded → m.core.next = m.core.freed.length)

theorem Ending.balanced {m : Module P R} (ending : Ending m) : Balanced m := by
  intro idle
  have counted := idle_count ending.reached idle
  refine ⟨counted, ?_⟩
  intro unloaded
  have null : m.core.sharedData = none := ending.cleared (by rw [Module.cleared, unloaded])
  rw [counted, null]
  rfl

/-- An `example_rcu_init` that fails with an object published leaves it behind. -/
theorem leaks_of_fails {m n : Module P R} {p : P} {ret : Int}
    (reached : (system P R).Reachable m.core) (coming : m.phase = .coming p)
    (idle : ∀ q, (m.core.pc q).idle) (published : m.core.sharedData ≠ none)
    (next : lifeStep m (.kthreadRun p (.error ret)) = some n) : ¬ Balanced n := by
  obtain ⟨taken, took, stepped, settled⟩ := lifeStep_eq_some.1 next
  have failed := step_error stepped
  have idleAfter : ∀ q, (n.core.pc q).idle := by
    intro q
    rw [failed]
    by_cases same : q = p
    · subst same
      simp [State.goto, Pc.idle]
    · simpa [State.goto, same] using idle q
  have unloaded : n.phase = .unloaded := by
    rw [coming] at took
    cases took
    rw [settled, failed]
    simp [Phase.settle, State.goto]
  have counted := idle_count reached idle
  intro balanced
  have none_left := (balanced idleAfter).2 unloaded
  rw [failed] at none_left
  obtain ⟨a, some⟩ := Option.ne_none_iff_exists'.1 published
  rw [some] at counted
  simp only [State.goto, Option.isSome_some, if_true] at counted none_left
  omega

/-- **No leak.**  Every state of the life of the module is balanced when each of its
steps keeps the end empty. -/
theorem rcu_no_leak {as : List (Action P R)}
    (kept : (lifecycle P R).Meets Kept .start as) :
    (lifecycle P R).Always Balanced .start as := by
  have keep : ∀ m a n, Ending m → Kept m a → (lifecycle P R).step m a = some n → Ending n :=
    fun m a n ending kept next => ending.step kept next
  exact (System.always_of_meets keep Ending.start kept).mono fun m ending => ending.balanced

/-- A whole life, with two objects published and a third not to be had. -/
def life : List (Action Unit Bool) :=
  [.exampleRcuInit (), .kmalloc () (some 7), .run (), .run (), .run (), .run (), .run (), .run (),
    .kthreadRun () (.ok false), .kmalloc () (some 7), .run (), .run (), .run (), .run (), .run (),
    .run (), .run (), .run (), .run (), .updateData () 5, .kmalloc () none, .exampleRcuExit (),
    .run (), .read false, .run (), .run (), .run (), .run (), .run (), .run (), .run (), .run (),
    .run ()]

theorem rcu_no_leak_life :
    ((lifecycle Unit Bool).run .start life).map (fun m => (m.phase, m.core.next, m.core.freed)) =
        some (.unloaded, 2, [1, 0]) ∧
      (lifecycle Unit Bool).Always Balanced .start life :=
  ⟨by decide, rcu_no_leak (by decide)⟩

/-- An `example_rcu_init` whose `kthread_run` fails. -/
def failing : List (Action Unit Bool) :=
  [.exampleRcuInit (), .kmalloc () (some 7), .run (), .run (), .run (), .run (), .run (), .run (),
    .kthreadRun () (.error (-12))]

/-- The object of `update_data(42)` is never freed. -/
theorem rcu_leak : ¬ (lifecycle Unit Bool).Always Balanced .start failing := by
  intro always
  have ends : ((lifecycle Unit Bool).run .start failing).map
      (fun m => (m.phase, m.core.next, m.core.freed, m.core.pc ())) =
      some (.unloaded, 1, [], .failed (-12)) := by decide
  obtain ⟨m, ran, same⟩ := Option.map_eq_some_iff.1 ends
  simp only [Prod.mk.injEq] at same
  obtain ⟨unloaded, allocated, freed, failed⟩ := same
  have idle : ∀ p, (m.core.pc p).idle := by
    intro p
    rw [failed]
    rfl
  have balanced := (always.last ran idle).2 unloaded
  rw [allocated, freed] at balanced
  cases balanced

end Lkmpg.Rcu
