/-
# Lkmpg.Sleep.Wakeup -- no wake-up is lost

A process that found the file taken and is still on `waitq` relies on a `wake_up`
to come.  The invariant (`Relied`) is that the file is then taken, or some
`module_close` is between its `atomic_set` and its `wake_up`: the test and the join
come in an order that leaves no third case, and a newcomer that takes the file in
between only makes the first case true again.
-/
import Lkmpg.Sleep.Driver

namespace Lkmpg.Sleep

open Lkmpg.Kernel Lkmpg.Theory

set_option autoImplicit false

/-- Past a false test of the condition: about to sleep, or asleep. -/
def Pc.dozing : Pc → Bool
  | .sleep | .asleep => true
  | _ => false

section

variable {P : Type} [DecidableEq P]

/-- Nobody is put on the queue but by itself, where it joins it. -/
theorem step_queued {s t : State P} {a : Action P} (next : step s a = some t) {q : P}
    (queued : t.waitq q = true) : s.waitq q = true ∨ (a = .run q ∧ s.pc q = .join) := by
  have joins : ∀ {p on} {u : State P}, (u.queue p on).waitq q = true →
      u.waitq q = true ∨ (q = p ∧ on = true) := by
    intro p on u queued
    by_cases same : q = p
    · subst same
      rw [queue_waitq_self] at queued
      exact .inr ⟨rfl, queued⟩
    · rw [queue_waitq_of_ne u on same] at queued
      exact .inl queued
  have leaves : ∀ {p} {u : State P}, (u.queue p false).waitq q = true → u.waitq q = true := by
    intro p u queued
    rcases joins queued with before | ⟨-, on⟩
    · exact before
    · cases on
  cases a with
  | run p =>
      simp only [step, runStep] at next
      split at next
      case h_4 pc =>
        cases next
        rcases joins queued with before | ⟨rfl, -⟩
        · exact .inl before
        · exact .inr ⟨rfl, pc⟩
      case h_5 pc =>
        split at next <;> cases next
        · exact .inl (leaves queued)
        · exact .inl queued
      case h_7 pc =>
        split at next <;> cases next
        exact .inl queued
      case h_9 pc =>
        cases next
        cases queued
      all_goals cases next
      all_goals exact .inl queued
  | signal p =>
      simp only [step] at next
      split at next <;> cases next <;> exact .inl (leaves queued)
  | moduleOpen | checkSignals | moduleOutput | moduleInput | moduleClose =>
      simp only [step] at next
      split at next <;> cases next <;> exact .inl queued

/-- `p` has found the file taken and has not been woken since. -/
def Waits (s : State P) (p : P) : Prop :=
  (s.pc p).dozing = true ∧ s.waitq p = true

/-- What a waiting process relies on. -/
def Relied (s : State P) : Prop :=
  s.alreadyOpen ≠ 0 ∨ ∃ q, s.pc q = .waking

/-- What a step does to the waiting processes and to what they rely on: it wakes
them all, or it keeps the reliance and adds a waiting process only when the file
is taken. -/
inductive WakeKind (s t : State P) : Prop where
  | wake (empty : ∀ q, t.waitq q = false)
  | keep (waits : ∀ q, Waits t q → Waits s q ∨ t.alreadyOpen ≠ 0) (relied : Relied s → Relied t)

/-- A step of `p` that leaves the others, the queue of the others and `already_open`
alone, from a place other than `wake_up` to one where `p` does not wait. -/
theorem WakeKind.of_frame {s t : State P} {p : P} (pcs : ∀ q, q ≠ p → t.pc q = s.pc q)
    (queues : ∀ q, q ≠ p → t.waitq q = s.waitq q) (flag : t.alreadyOpen = s.alreadyOpen)
    (before : s.pc p ≠ .waking) (still : Waits t p → Waits s p ∨ t.alreadyOpen ≠ 0) :
    WakeKind s t := by
  refine .keep ?_ ?_
  · intro q waits
    by_cases same : q = p
    · subst same
      exact still waits
    · rw [Waits, pcs q same, queues q same] at waits
      exact .inl waits
  · rintro (taken | ⟨q, waking⟩)
    · exact .inl (by rwa [flag])
    · have ne : q ≠ p := by
        rintro rfl
        exact before waking
      exact .inr ⟨q, (pcs q ne).trans waking⟩

/-- The process only goes on to `next`. -/
theorem WakeKind.of_goto {s : State P} {p : P} {next : Pc} (before : s.pc p ≠ .waking)
    (still : next.dozing = true → s.waitq p = true →
      (s.pc p).dozing = true ∨ s.alreadyOpen ≠ 0) : WakeKind s (s.goto p next) := by
  refine .of_frame (fun q ne => goto_pc_of_ne s next ne) (fun _ _ => rfl) rfl before ?_
  rintro ⟨dozing, queued⟩
  rw [goto_pc_self] at dozing
  exact (still dozing queued).imp (fun d => ⟨d, queued⟩) id

/-- The process changes its entry on the queue and goes on to a place where it does
not wait. -/
theorem WakeKind.of_queue {s : State P} {p : P} {on : Bool} {next : Pc}
    (before : s.pc p ≠ .waking) (awake : next.dozing = false) :
    WakeKind s ((s.queue p on).goto p next) := by
  refine .of_frame (fun q ne => goto_pc_of_ne _ next ne) (fun q ne => queue_waitq_of_ne s on ne)
    rfl before ?_
  rintro ⟨dozing, -⟩
  rw [goto_pc_self, awake] at dozing
  cases dozing

/-- Taking the file: a taken file is something to rely on. -/
theorem WakeKind.of_take {s : State P} {p : P} {next : Pc} (before : s.pc p ≠ .waking)
    (awake : next.dozing = false) : WakeKind s (s.take p next) := by
  by_cases free : s.alreadyOpen = 0
  · rw [take_free free]
    refine .keep (fun q _ => .inr ?_) fun _ => .inl ?_ <;> simp
  · rw [take_busy free]
    exact .of_goto before fun dozing => by simp [awake] at dozing

theorem step_wakeKind {s t : State P} {a : Action P} (next : step s a = some t) :
    WakeKind s t := by
  cases a with
  | moduleOpen p nonblock =>
      simp only [step] at next
      split at next <;> cases next <;> rename_i pc <;>
        exact .of_goto (by simp [pc]) (by simp [Pc.dozing])
  | run p =>
      simp only [step, runStep] at next
      split at next
      case h_1 nonblock pc => cases next; exact .of_take (by simp [pc]) rfl
      case h_2 nonblock pc =>
        cases next
        exact .of_goto (by simp [pc]) (by cases nonblock <;> simp [Pc.dozing])
      case h_3 pc => cases next; exact .of_take (by simp [pc]) rfl
      case h_4 pc => cases next; exact .of_queue (by simp [pc]) rfl
      case h_5 pc =>
        split at next
        · cases next
          exact .of_queue (by simp [pc]) rfl
        · rename_i taken
          cases next
          exact .of_goto (by simp [pc]) fun _ _ => .inr taken
      case h_6 pc => cases next; exact .of_goto (by simp [pc]) fun _ _ => .inl (by rw [pc]; rfl)
      case h_7 pc =>
        split at next <;> cases next
        exact .of_goto (by simp [pc]) (by simp [Pc.dozing])
      case h_8 pc =>
        -- the `atomic_set` of a close: its own `wake_up` is now to come
        cases next
        refine .keep ?_ fun _ => .inr ⟨p, by simp⟩
        intro q waits
        by_cases same : q = p
        · subst same
          simp [Waits, Pc.dozing] at waits
        · rw [Waits, goto_pc_of_ne _ _ same] at waits
          exact .inl waits
      case h_9 pc => cases next; exact .wake fun _ => rfl
      all_goals cases next
  | signal p =>
      simp only [step] at next
      split at next <;> cases next <;> rename_i pc <;> exact .of_queue (by simp [pc]) rfl
  | checkSignals p pending blocked =>
      simp only [step] at next
      split at next <;> cases next
      rename_i pc
      refine .of_goto (by simp [pc]) ?_
      intro dozing
      split at dozing <;> cases dozing
  | moduleOutput p len =>
      simp only [step] at next
      split at next <;> cases next
      exact .keep (fun q waits => .inl waits) id
  | moduleInput p buf =>
      simp only [step] at next
      split at next <;> cases next
      exact .keep (fun q waits => .inl waits) id
  | moduleClose p =>
      simp only [step] at next
      split at next <;> cases next
      rename_i pc
      exact .of_goto (by simp [pc]) (by simp [Pc.dozing])

/-- Whoever waits has something to rely on. -/
theorem reachable_relied {s : State P} (reached : (system P).Reachable s) :
    ∀ p, Waits s p → Relied s := by
  refine reached.induct (I := fun s => ∀ p, Waits s p → Relied s) ?_ ?_
  · rintro s rfl p ⟨dozing, -⟩
    cases dozing
  · intro s a t ih next p waits
    cases step_wakeKind next with
    | wake empty =>
        rw [Waits, empty p] at waits
        cases waits.2
    | keep kept relied =>
        rcases kept p waits with before | taken
        · exact relied (ih p before)
        · exact .inl taken

/-- **No lost wake-up.**  The file is never free, with no `module_close` about to wake
the queue, while a process sleeps on the queue unwoken. -/
theorem sleep_no_lost_wakeup {s : State P} (reached : (system P).Reachable s) :
    ¬ (s.alreadyOpen = 0 ∧ (∀ q, s.pc q ≠ .waking) ∧
      ∃ p, s.pc p = .asleep ∧ s.waitq p = true) := by
  rintro ⟨free, noWaker, p, asleep, queued⟩
  rcases reachable_relied reached p ⟨by rw [asleep]; rfl, queued⟩ with taken | ⟨q, waking⟩
  · exact taken free
  · exact noWaker q waking

end

/-- A process sleeps on the queue while the file is taken: the state that a lost
wake-up would leave is one `wake_up` short of this one. -/
theorem sleep_no_lost_wakeup_waiting :
    ∃ s : State Bool, (system Bool).Reachable s ∧ (s.pc true = .asleep ∧ s.waitq true = true) ∧
      ¬ (s.alreadyOpen = 0 ∧ (∀ q, s.pc q ≠ .waking) ∧
        ∃ p, s.pc p = .asleep ∧ s.waitq p = true) := by
  have ends : ((system Bool).run start
      [.moduleOpen false false, .run false, .moduleOpen true false, .run true, .run true, .run true,
        .run true, .run true, .run true]).map (fun s => (s.pc true, s.waitq true)) =
      some (.asleep, true) := by decide
  obtain ⟨s, ran, waits⟩ := Option.map_eq_some_iff.1 ends
  simp only [Prod.mk.injEq] at waits
  have reached : (system Bool).Reachable s := ⟨_, _, rfl, ran⟩
  exact ⟨s, reached, waits, sleep_no_lost_wakeup reached⟩

end Lkmpg.Sleep
