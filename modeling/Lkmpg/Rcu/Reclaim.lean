/-
# Lkmpg.Rcu.Reclaim -- no object is freed while it can be read

`State.view` forgets everything but who has which object: the callers are the
writers of a grace period, and what `update_data` does between its accesses is no
step there (`step_view`).

* `step_held`: `data_lock` is held between `rcu_dereference_protected` and
  `rcu_assign_pointer`, so the old pointer is still the published one;
* `rcu_reclaim`: nothing is freed twice, while published, or while a reader that
  has it is in its section.
-/
import Lkmpg.Rcu.Driver
import Lkmpg.Theory.GracePeriod

namespace Lkmpg.Rcu

open Lkmpg.Theory

set_option autoImplicit false

/-- The object a caller has, and how far it is with it. -/
def Pc.object : Pc → Option (Nat × GracePeriod.Stage)
  | .fill _ new _ => some (new, .fresh)
  | .lock new _ | .deref new _ | .assign new _ _ => new.map fun a => (a, .fresh)
  | .unlock old _ | .test old _ => old.map fun a => (a, .retired)
  | .sync old _ => some (old, .retired)
  | .grace old limit _ => some (old, .waiting limit)
  | .free old _ => some (old, .over)
  | .outside | .failed _ | .kmalloc _ _ | .kthreadRun | .stop | .join => none

/-- The caller holds `data_lock`. -/
def Pc.locked : Pc → Bool
  | .deref _ _ | .assign _ _ _ | .unlock _ _ => true
  | _ => false

@[simp] theorem next_object (back : From) : back.next.object = none := by
  cases back <;> rfl

@[simp] theorem next_locked (back : From) : back.next.locked = false := by
  cases back <;> rfl

section

variable {P R : Type} [DecidableEq P] [DecidableEq R]

/-- Who has which object. -/
def State.view (s : State P R) : GracePeriod.State P R where
  published := s.sharedData
  next := s.next
  released := s.freed
  clock := s.rcu.clock
  reader := ReaderPc.section ∘ s.reader
  writer := Pc.object ∘ s.pc

structure Held (s : State P R) : Prop where
  lock : ∀ p, (s.pc p).locked → s.dataLock = some p
  old : ∀ p new old back, s.pc p = .assign new old back → old = s.sharedData
  inside : ∀ r n got, (s.reader r).section = some (n, got) → (r, n) ∈ s.rcu.inside

omit [DecidableEq P] [DecidableEq R] in
theorem held_start : Held (start : State P R) where
  lock p locked := by cases locked
  old p new old back at_ := by cases at_
  inside r n got inside := by cases inside

/-! ## Who has `data_lock` -/

omit [DecidableEq P] [DecidableEq R] in
/-- Nobody else has it while a caller is in the locked part. -/
theorem Held.alone {s : State P R} (held : Held s) {p q : P} (locked : (s.pc p).locked)
    (other : q ≠ p) : s.dataLock ≠ some q := by
  rw [held.lock p locked]
  intro same
  cases same
  exact other rfl

omit [DecidableEq R] in
/-- A caller goes on.  The others still hold what they hold, and who holds `data_lock`
finds `shared_data` as it was. -/
theorem Held.goto {s t : State P R} (held : Held s) {p : P} {pc : Pc}
    (pcs : t.pc = Function.update s.pc p pc) (reader : t.reader = s.reader) (rcu : t.rcu = s.rcu)
    (lock : pc.locked → t.dataLock = some p)
    (old : ∀ new old back, pc = .assign new old back → old = t.sharedData)
    (others : ∀ q, q ≠ p → s.dataLock = some q →
      t.dataLock = some q ∧ t.sharedData = s.sharedData) : Held t where
  lock q locked := by
    rw [pcs] at locked
    by_cases same : q = p
    · subst same
      rw [Function.update_self] at locked
      exact lock locked
    · rw [Function.update_of_ne same] at locked
      exact (others q same (held.lock q locked)).1
  old q new old' back at_ := by
    rw [pcs] at at_
    by_cases same : q = p
    · subst same
      rw [Function.update_self] at at_
      exact old new old' back at_
    · rw [Function.update_of_ne same] at at_
      have holds := held.lock q (by rw [at_]; rfl)
      rw [(others q same holds).2]
      exact held.old q new old' back at_
  inside r n got inside := by
    rw [reader] at inside
    rw [rcu]
    exact held.inside r n got inside

omit [DecidableEq R] in
/-- A caller that does not touch `data_lock` and `shared_data` goes on outside the
locked part. -/
theorem Held.pass {s t : State P R} (held : Held s) {p : P} {pc : Pc}
    (pcs : t.pc = Function.update s.pc p pc) (reader : t.reader = s.reader) (rcu : t.rcu = s.rcu)
    (dataLock : t.dataLock = s.dataLock) (sharedData : t.sharedData = s.sharedData)
    (free : pc.locked = false) : Held t := by
  refine held.goto pcs reader rcu ?_ ?_ ?_
  · intro locked
    rw [free] at locked
    cases locked
  · rintro new old back rfl
    cases free
  · intro q _ holds
    exact ⟨dataLock.trans holds, sharedData⟩

omit [DecidableEq P] in
/-- A reader goes on, and is in the section it says it is in. -/
theorem Held.readerGoto {s t : State P R} (held : Held s) {r : R} {pc : ReaderPc}
    (readers : t.reader = Function.update s.reader r pc) (pcs : t.pc = s.pc)
    (dataLock : t.dataLock = s.dataLock) (sharedData : t.sharedData = s.sharedData)
    (mine : ∀ n got, pc.section = some (n, got) → (r, n) ∈ t.rcu.inside)
    (others : ∀ q n, q ≠ r → (q, n) ∈ s.rcu.inside → (q, n) ∈ t.rcu.inside) : Held t where
  lock q locked := by
    rw [pcs] at locked
    exact dataLock.trans (held.lock q locked)
  old q new old back at_ := by
    rw [pcs] at at_
    rw [sharedData]
    exact held.old q new old back at_
  inside q n got inside := by
    rw [readers] at inside
    by_cases same : q = r
    · subst same
      rw [Function.update_self] at inside
      exact mine n got inside
    · rw [Function.update_of_ne same] at inside
      exact others q n same (held.inside q n got inside)

theorem runStep_held {s t : State P R} {p : P} (held : Held s) (next : runStep s p = some t) :
    Held t := by
  unfold runStep at next
  cases at_ : s.pc p with
  | lock new back =>
      simp only [at_] at next
      split at next <;> cases next
      rename_i free
      refine held.goto rfl rfl rfl (fun _ => rfl) (by simp) ?_
      intro q _ holds
      rw [free] at holds
      cases holds
  | deref new back =>
      simp only [at_] at next
      cases next
      have holds := held.lock p (by rw [at_]; rfl)
      refine held.goto rfl rfl rfl (fun _ => holds) ?_ (fun q _ holdsQ => ⟨holdsQ, rfl⟩)
      intro new' old back' same
      cases same
      rfl
  | assign new old back =>
      simp only [at_] at next
      cases next
      have holds := held.lock p (by rw [at_]; rfl)
      refine held.goto rfl rfl rfl (fun _ => holds) (by simp) ?_
      exact fun q ne holdsQ => absurd holdsQ (held.alone (by rw [at_]; rfl) ne)
  | unlock old back =>
      simp only [at_] at next
      cases next
      refine held.goto rfl rfl rfl (fun locked => by cases locked) (by simp) ?_
      exact fun q ne holdsQ => absurd holdsQ (held.alone (by rw [at_]; rfl) ne)
  | test old back =>
      cases old <;> simp only [at_] at next <;> cases next
      · exact held.pass rfl rfl rfl rfl rfl (next_locked back)
      · exact held.pass rfl rfl rfl rfl rfl rfl
  | free old back =>
      simp only [at_] at next
      cases next
      exact held.pass rfl rfl rfl rfl rfl (next_locked back)
  | fill value new back =>
      simp only [at_] at next
      cases next
      exact held.pass rfl rfl rfl rfl rfl rfl
  | sync old back =>
      simp only [at_] at next
      cases next
      exact held.pass rfl rfl rfl rfl rfl rfl
  | grace old limit back =>
      simp only [at_] at next
      split at next <;> cases next
      exact held.pass rfl rfl rfl rfl rfl rfl
  | stop =>
      simp only [at_] at next
      split at next <;> cases next
      exact held.pass rfl rfl rfl rfl rfl rfl
  | join =>
      simp only [at_] at next
      split at next
      · split at next <;> cases next
        exact held.pass rfl rfl rfl rfl rfl rfl
      · cases next
  | _ =>
      simp only [at_] at next
      cases next

omit [DecidableEq P] in
theorem readStep_held {s t : State P R} {r : R} (held : Held s) (next : readStep s r = some t) :
    Held t := by
  have keep : ∀ q n, q ≠ r → (q, n) ∈ s.rcu.inside → (q, n) ∈ s.rcu.inside :=
    fun q n _ inside => inside
  unfold readStep at next
  cases at_ : s.reader r with
  | loop =>
      simp only [at_] at next
      cases next
      refine held.readerGoto rfl rfl rfl rfl ?_ keep
      intro n got inside
      split at inside <;> cases inside
  | lock =>
      simp only [at_] at next
      cases next
      refine held.readerGoto rfl rfl rfl rfl ?_ ?_
      · intro n got inside
        cases inside
        exact Sections.mem_readLock s.rcu |>.2 (.inl ⟨rfl, rfl⟩)
      · intro q n _ inside
        exact Sections.mem_readLock s.rcu |>.2 (.inr inside)
  | deref n =>
      simp only [at_] at next
      cases next
      refine held.readerGoto rfl rfl rfl rfl ?_ keep
      intro m got inside
      cases inside
      exact held.inside r n none (by rw [at_]; rfl)
  | value n p =>
      simp only [at_] at next
      cases next
      refine held.readerGoto rfl rfl rfl rfl ?_ keep
      intro m got inside
      cases inside
      exact held.inside r n p (by rw [at_]; rfl)
  | unlock n p val =>
      simp only [at_] at next
      cases next
      refine held.readerGoto rfl rfl rfl rfl (fun m got inside => by cases inside) ?_
      intro q m ne inside
      exact Sections.mem_readUnlock s.rcu |>.2 ⟨inside, ne⟩
  | report val =>
      simp only [at_] at next
      cases next
      exact held.readerGoto rfl rfl rfl rfl (fun m got inside => by cases inside) keep
  | msleep =>
      simp only [at_] at next
      cases next
      exact held.readerGoto rfl rfl rfl rfl (fun m got inside => by cases inside) keep
  | gone =>
      simp only [at_] at next
      cases next

omit [DecidableEq P] in
theorem kthread_held {s : State P R} (held : Held s) (r : R) : Held (s.kthread r) :=
  held.readerGoto rfl rfl rfl rfl (fun _ _ inside => by cases inside) (fun _ _ _ inside => inside)

/-- **The locked part is exclusive.** -/
theorem step_held {s t : State P R} {a : Action P R} (held : Held s) (next : step s a = some t) :
    Held t := by
  cases a with
  | run p => exact runStep_held held next
  | read r => exact readStep_held held next
  | startReader r =>
      simp only [step] at next
      split at next <;> cases next
      exact kthread_held held r
  | kmalloc p got =>
      simp only [step] at next
      split at next <;> cases next
      · exact held.pass rfl rfl rfl rfl rfl rfl
      · exact held.pass rfl rfl rfl rfl rfl (next_locked _)
  | kthreadRun p got =>
      simp only [step] at next
      split at next
      · split at next <;> cases next
        rename_i r _ _
        have started : Held { s with readerThread := some r } :=
          ⟨held.lock, held.old, held.inside⟩
        exact (kthread_held started r).pass rfl rfl rfl rfl rfl rfl
      · cases next
        exact held.pass rfl rfl rfl rfl rfl rfl
      · cases next
  | _ =>
      simp only [step] at next
      split at next <;> cases next <;> exact held.pass rfl rfl rfl rfl rfl rfl

/-! ## The steps of the grace period -/

omit [DecidableEq R] in
theorem view_goto (s : State P R) (p : P) (pc : Pc) : (s.goto p pc).view =
    { s.view with writer := Function.update s.view.writer p pc.object } := by
  simp only [State.view, State.goto, Function.comp_update]

omit [DecidableEq P] in
theorem view_readerGoto (s : State P R) (r : R) (pc : ReaderPc) : (s.readerGoto r pc).view =
    { s.view with reader := Function.update s.view.reader r pc.section } := by
  simp only [State.view, State.readerGoto, Function.comp_update]

omit [DecidableEq R] in
/-- A caller goes on with the object it has, as far as it is. -/
theorem view_goto_stay {s : State P R} {p : P} {pc : Pc} (same : pc.object = (s.pc p).object) :
    (s.goto p pc).view = s.view := by
  rw [view_goto, same]
  simp only [State.view, ← Function.comp_apply (f := Pc.object), Function.update_eq_self]

omit [DecidableEq P] in
theorem view_readerGoto_stay {s : State P R} {r : R} {pc : ReaderPc}
    (same : pc.section = (s.reader r).section) : (s.readerGoto r pc).view = s.view := by
  rw [view_readerGoto, same]
  simp only [State.view, ← Function.comp_apply (f := ReaderPc.section), Function.update_eq_self]

/-- Nothing happens to the objects, or one step of the grace period. -/
def Moves (s t : State P R) : Prop := t.view = s.view ∨ GracePeriod.Step s.view t.view

theorem runStep_view {s t : State P R} {p : P} (held : Held s) (next : runStep s p = some t) :
    Moves s t := by
  have has {pc : Pc} (at_ : s.pc p = pc) : s.view.writer p = pc.object :=
    congrArg Pc.object at_
  unfold runStep at next
  cases at_ : s.pc p with
  | assign new old back =>
      simp only [at_] at next
      cases next
      obtain rfl := held.old p new old back at_
      refine .inr ?_
      rw [view_goto]
      exact .swap p new (has at_)
  | sync old back =>
      simp only [at_] at next
      cases next
      refine .inr ?_
      rw [view_goto]
      exact .wait p old (has at_)
  | grace old limit back =>
      simp only [at_] at next
      split at next <;> cases next
      rename_i quiet
      refine .inr ?_
      rw [view_goto]
      refine .pass p old limit (has at_) ?_
      intro r n got inside
      exact s.rcu.le_of_quiet quiet (held.inside r n got inside)
  | free old back =>
      simp only [at_] at next
      cases next
      refine .inr ?_
      rw [view_goto, next_object]
      exact .release p old (has at_)
  | fill value new back =>
      simp only [at_] at next
      cases next
      exact .inl (view_goto_stay (by rw [at_]; rfl))
  | lock new back =>
      simp only [at_] at next
      split at next <;> cases next
      exact .inl (view_goto_stay (by rw [at_]; rfl))
  | deref new back =>
      simp only [at_] at next
      cases next
      exact .inl (view_goto_stay (by rw [at_]; rfl))
  | unlock old back =>
      simp only [at_] at next
      cases next
      exact .inl (view_goto_stay (by rw [at_]; rfl))
  | test old back =>
      cases old <;> simp only [at_] at next <;> cases next
      · exact .inl (view_goto_stay (by rw [at_, next_object]; rfl))
      · exact .inl (view_goto_stay (by rw [at_]; rfl))
  | stop =>
      simp only [at_] at next
      split at next <;> cases next
      exact .inl (view_goto_stay (by rw [at_]; rfl))
  | join =>
      simp only [at_] at next
      split at next
      · split at next <;> cases next
        exact .inl (view_goto_stay (by rw [at_]; rfl))
      · cases next
  | _ =>
      simp only [at_] at next
      cases next

theorem readStep_view {s t : State P R} {r : R} (next : readStep s r = some t) :
    Moves s t := by
  have has {pc : ReaderPc} (at_ : s.reader r = pc) : s.view.reader r = pc.section :=
    congrArg ReaderPc.section at_
  unfold readStep at next
  cases at_ : s.reader r with
  | lock =>
      simp only [at_] at next
      cases next
      refine .inr ?_
      rw [view_readerGoto]
      exact .enter r (has at_)
  | deref n =>
      simp only [at_] at next
      cases next
      refine .inr ?_
      rw [view_readerGoto]
      exact .get r n (has at_)
  | unlock n p val =>
      simp only [at_] at next
      cases next
      refine .inr ?_
      rw [view_readerGoto]
      exact .leave r
  | loop =>
      simp only [at_] at next
      cases next
      refine .inl (view_readerGoto_stay ?_)
      rw [at_]
      split <;> rfl
  | value n p =>
      simp only [at_] at next
      cases next
      exact .inl (view_readerGoto_stay (by rw [at_]; rfl))
  | report val =>
      simp only [at_] at next
      cases next
      exact .inl (view_readerGoto_stay (by rw [at_]; rfl))
  | msleep =>
      simp only [at_] at next
      cases next
      exact .inl (view_readerGoto_stay (by rw [at_]; rfl))
  | gone =>
      simp only [at_] at next
      cases next

omit [DecidableEq P] in
theorem kthread_view {s : State P R} {r : R} (gone : s.reader r = .gone) :
    (s.kthread r).view = s.view := by
  have same : ReaderPc.loop.section = (s.reader r).section := by
    rw [gone]
    rfl
  exact view_readerGoto_stay (s := { s with shouldStop := Function.update s.shouldStop r false })
    same

/-- **One step.** -/
theorem step_view {s t : State P R} {a : Action P R} (held : Held s) (next : step s a = some t) :
    Moves s t := by
  cases a with
  | run p => exact runStep_view held next
  | read r => exact readStep_view next
  | startReader r =>
      simp only [step] at next
      split at next <;> cases next
      exact .inl (kthread_view ‹_›)
  | kmalloc p got =>
      simp only [step] at next
      split at next <;> cases next
      · rename_i value back garbage at_
        refine .inr ?_
        rw [view_goto]
        exact .create p (congrArg Pc.object at_)
      · rename_i value back at_
        exact .inl (view_goto_stay (by rw [at_, next_object]; rfl))
  | kthreadRun p got =>
      simp only [step] at next
      split at next
      · rename_i r at_
        split at next <;> cases next
        rename_i gone
        left
        rw [view_goto_stay (by exact (congrArg Pc.object at_).symm)]
        exact kthread_view (s := { s with readerThread := some r }) gone
      · rename_i ret at_
        cases next
        exact .inl (view_goto_stay (by rw [at_]; rfl))
      · cases next
  | updateData p value | exampleRcuInit p | exampleRcuExit p =>
      simp only [step] at next
      split at next <;> cases next <;> rename_i at_ <;>
        exact .inl (view_goto_stay (by rw [at_]; rfl))

/-- In every reachable state the grace period is sound. -/
theorem reachable_sound {s : State P R} (reached : (system P R).Reachable s) :
    GracePeriod.Sound s.view := by
  refine (System.Reachable.induct (I := fun s => Held s ∧ GracePeriod.Sound s.view) ?_ ?_ reached).2
  · rintro s rfl
    exact ⟨held_start, GracePeriod.Sound.start⟩
  · intro s a t both next
    refine ⟨step_held both.1 next, ?_⟩
    rcases step_view both.1 next with same | moved
    · rw [same]
      exact both.2
    · exact both.2.step moved

/-- **Reclamation is safe.**  No object is freed twice, while it is published, or
while a reader that has it is between `rcu_read_lock` and `rcu_read_unlock`. -/
theorem rcu_reclaim {s : State P R} (reached : (system P R).Reachable s) :
    s.freed.Nodup ∧
    (∀ a, s.sharedData = some a → a ∉ s.freed) ∧
    (∀ r n a, (s.reader r).section = some (n, some a) → a ∉ s.freed) := by
  have sound := reachable_sound reached
  exact ⟨sound.once, sound.publishedLive, fun r n a reads => sound.readerLive reads⟩

end

/-- `example_rcu_init`, up to the `kfree` of its second `update_data`.  One reader has
the first object when the second is published, and another comes after that. -/
def replaced : List (Action Unit Bool) :=
  [.exampleRcuInit (), .kmalloc () (some 7), .run (), .run (), .run (), .run (), .run (), .run (),
    .kthreadRun () (.ok false), .read false, .read false, .read false, .startReader true,
    .kmalloc () (some 7), .run (), .run (), .run (), .run (), .run (), .run (), .run (),
    .read true, .read true, .read true, .read false, .read false, .run (), .run ()]

/-- The first object is freed, and the later reader has the second one. -/
theorem rcu_reclaim_replaced : ∃ s : State Unit Bool, (system Unit Bool).Reachable s ∧
    (s.freed = [0] ∧ s.sharedData = some 1 ∧ (s.reader true).section = some (1, some 1)) ∧
    (s.freed.Nodup ∧ (∀ a, s.sharedData = some a → a ∉ s.freed) ∧
      ∀ r n a, (s.reader r).section = some (n, some a) → a ∉ s.freed) := by
  have ends : ((system Unit Bool).run start replaced).map
      (fun s => (s.freed, s.sharedData, (s.reader true).section)) =
      some ([0], some 1, some (1, some 1)) := by decide
  obtain ⟨s, ran, same⟩ := Option.map_eq_some_iff.1 ends
  simp only [Prod.mk.injEq] at same
  have reached : (system Unit Bool).Reachable s := ⟨_, _, rfl, ran⟩
  exact ⟨s, reached, same, rcu_reclaim reached⟩

end Lkmpg.Rcu
