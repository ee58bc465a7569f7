/-
# Lkmpg.Rcu.Register -- shared_data as a register

`State.register` is what the callers and the readers of `shared_data` can know of it: the
value of the published object, and how far each call and each read is.  A call of
`update_data` takes effect with its `rcu_assign_pointer`, and what a reader reports is
the value at its `rcu_dereference`, although it reads the memory later, and the object may
have been replaced by then.

* `step_matched`: a step is one of a `Register`, or none;
* `rcu_linearizable`: the run.
-/
import Lkmpg.Rcu.Reclaim
import Lkmpg.Theory.Register

namespace Lkmpg.Rcu

open Lkmpg.Theory

set_option autoImplicit false

/-- The call of `update_data`, or of `example_rcu_exit` with `none`. -/
def Pc.writing (memory : Nat → Int) : Pc → Register.Writing (Option Int)
  | .kmalloc value _ | .fill value _ _ => .pending (some value)
  | .lock new _ | .deref new _ | .assign new _ _ => .pending (new.map memory)
  | .unlock _ _ | .test _ _ | .sync _ _ | .grace _ _ _ | .free _ _ => .done
  | .outside | .failed _ | .kthreadRun | .stop | .join => .idle

def ReaderPc.reading (memory : Nat → Int) : ReaderPc → Register.Reading (Option Int)
  | .deref _ => .pending
  | .value _ p => .got (p.map memory)
  | .unlock _ _ val | .report val => .got val
  | .gone | .loop | .lock | .msleep => .idle

variable {P R : Type} [DecidableEq P] [DecidableEq R]

omit [DecidableEq P] [DecidableEq R] in
def State.register (s : State P R) : Register.State P R (Option Int) where
  value := s.sharedData.map s.memory
  writing := Pc.writing s.memory ∘ s.pc
  reading := ReaderPc.reading s.memory ∘ s.reader

omit [DecidableEq P] [DecidableEq R] in
/-- The calls with their returns, and the reports of the readers. -/
def shown (s : State P R) (a : Action P R) (_ : State P R) : List (Register.Event P R (Option Int)) :=
  match a with
  | .updateData p value => [.called p (some value)]
  | .exampleRcuInit p => [.called p (some 42)]
  | .kthreadRun p (.ok _) => [.called p (some 100)]
  | .kmalloc p none => [.failed p]
  | .run p =>
      match s.pc p with
      | .join => [.called p none]
      | .test none _ | .free _ _ => [.returned p]
      | _ => []
  | .read r =>
      match s.reader r with
      | .lock => [.began r]
      | .report val => [.reported r val]
      | _ => []
  | .exampleRcuExit _ | .kthreadRun _ (.error _) | .kmalloc _ (some _) | .startReader _ => []

@[simp] theorem next_writing (memory : Nat → Int) (back : From) :
    back.next.writing memory = .idle := by
  cases back <;> rfl

/-! ## What the steps do to the register -/

omit [DecidableEq R] in
theorem register_goto (s : State P R) (p : P) (pc : Pc) :
    (s.goto p pc).register = s.register.setWriting p (pc.writing s.memory) := by
  simp only [State.register, State.goto, Register.State.setWriting, Function.comp_update]

omit [DecidableEq P] in
theorem register_readerGoto (s : State P R) (r : R) (pc : ReaderPc) :
    (s.readerGoto r pc).register = s.register.setReading r (pc.reading s.memory) := by
  simp only [State.register, State.readerGoto, Register.State.setReading, Function.comp_update]

omit [DecidableEq R] in
theorem register_goto_stay {s : State P R} {p : P} {pc : Pc}
    (same : pc.writing s.memory = (s.pc p).writing s.memory) :
    (s.goto p pc).register = s.register := by
  rw [register_goto, same]
  exact Register.setWriting_stay rfl

omit [DecidableEq P] in
theorem register_readerGoto_stay {s : State P R} {r : R} {pc : ReaderPc}
    (same : pc.reading s.memory = (s.reader r).reading s.memory) :
    (s.readerGoto r pc).register = s.register := by
  rw [register_readerGoto, same]
  exact Register.setReading_stay rfl

theorem map_update {x : Option Nat} {a : Nat} (other : x ≠ some a) (memory : Nat → Int) (v : Int) :
    x.map (Function.update memory a v) = x.map memory := by
  cases x with
  | none => rfl
  | some b =>
      have differs : b ≠ a := fun same => other (congrArg some same)
      simp only [Option.map_some, Function.update_of_ne differs]

/-- What a caller would publish, and what a reader has not read yet, lie elsewhere. -/
theorem writing_update {pc : Pc} {a : Nat} (other : pc.object ≠ some (a, .fresh))
    (memory : Nat → Int) (v : Int) :
    pc.writing (Function.update memory a v) = pc.writing memory := by
  cases pc with
  | lock new _ | deref new _ | assign new _ _ =>
      refine congrArg Register.Writing.pending (map_update ?_ memory v)
      rintro rfl
      exact other rfl
  | _ => rfl

theorem reading_update {pc : ReaderPc} {a : Nat} (other : ∀ n, pc.section ≠ some (n, some a))
    (memory : Nat → Int) (v : Int) :
    pc.reading (Function.update memory a v) = pc.reading memory := by
  cases pc with
  | value n p =>
      refine congrArg Register.Reading.got (map_update ?_ memory v)
      rintro rfl
      exact other n rfl
  | _ => rfl

omit [DecidableEq R] in
/-- The memory of an object that only `p` knows, and has not published, is not part of
the register. -/
theorem register_memory {s : State P R} {p : P} {a : Nat} (unpublished : s.sharedData ≠ some a)
    (unread : ∀ r n, (s.reader r).section ≠ some (n, some a))
    (others : ∀ q, q ≠ p → ∀ stage, (s.pc q).object ≠ some (a, stage)) {v : Int} {pc : Pc}
    (mine : pc.writing (Function.update s.memory a v) = (s.pc p).writing s.memory) :
    ({ s with memory := Function.update s.memory a v }.goto p pc).register = s.register := by
  simp only [State.register, State.goto, Register.State.mk.injEq]
  refine ⟨map_update unpublished s.memory v, ?_, ?_⟩
  · funext q
    rw [Function.comp_apply, Function.comp_apply]
    by_cases same : q = p
    · subst same
      rw [Function.update_self]
      exact mine
    · rw [Function.update_of_ne same]
      exact writing_update (others q same .fresh) s.memory v
  · funext r
    exact reading_update (unread r) s.memory v

/-! ## Each step -/

/-- The steps of the register from `s` to `t`, and what they show. -/
def Matched (s t : State P R) (shown : List (Register.Event P R (Option Int))) : Prop :=
  ∃ acts, ∀ es, ((Register.system none).traced Register.shown).run (s.register, es) acts =
    some (t.register, es ++ shown)

theorem matched_stay {s t : State P R} (same : t.register = s.register) : Matched s t [] := by
  refine ⟨[], fun es => ?_⟩
  rw [same, List.append_nil]
  rfl

theorem matched_act {s t : State P R} (act : Register.Act P R (Option Int))
    (next : Register.step s.register act = some t.register) :
    Matched s t (Register.shown s.register act t.register) := by
  refine ⟨[act], fun es => ?_⟩
  have moved : (Register.system none).step s.register act = some t.register := next
  simp only [System.run, System.traced_step moved, Option.bind_some]

/-- A call returns. -/
theorem matched_return {s : State P R} {p : P} {back : From}
    (done : (s.pc p).writing s.memory = .done) : Matched s (s.goto p back.next) [.returned p] := by
  refine matched_act (.ret p) ?_
  have at_ : s.register.writing p = .done := done
  simp only [Register.step, at_, register_goto, next_writing]

/-- A call begins. -/
theorem matched_call {s : State P R} {p : P} {pc : Pc} {v : Option Int}
    (idle : (s.pc p).writing s.memory = .idle) (begins : pc.writing s.memory = .pending v) :
    Matched s (s.goto p pc) [.called p v] := by
  refine matched_act (.call p v) ?_
  have at_ : s.register.writing p = .idle := idle
  simp only [Register.step, at_, register_goto, begins]

/-- The new object is filled while nobody else has it. -/
theorem fill_matched {s t : State P R} {p : P} {value : Int} {new : Nat} {back : From}
    (sound : GracePeriod.Sound s.view) (at_ : s.pc p = .fill value new back)
    (next : runStep s p = some t) : Matched s t [] := by
  simp only [runStep, at_] at next
  cases next
  have has : s.view.writer p = some (new, .fresh) := congrArg Pc.object at_
  refine matched_stay (register_memory ?_ ?_ ?_ ?_)
  · exact fun published => sound.withdrawn p new .fresh has published
  · intro r n reads
    rcases sound.reads_stage has reads with early | ⟨limit, early, -⟩ <;> cases early
  · intro q ne stage hasQ
    exact ne (sound.unique q p new stage .fresh hasQ has)
  · rw [at_]
    exact congrArg (fun x => Register.Writing.pending (some x)) (Function.update_self ..)

/-- `rcu_assign_pointer` is the moment of the write. -/
theorem assign_matched {s t : State P R} {p : P} {new old : Option Nat} {back : From}
    (at_ : s.pc p = .assign new old back) (next : runStep s p = some t) : Matched s t [] := by
  simp only [runStep, at_] at next
  cases next
  refine matched_act (.write p) ?_
  have pending : s.register.writing p = .pending (new.map s.memory) :=
    congrArg (Pc.writing s.memory) at_
  simp only [Register.step, pending, register_goto]
  rfl

theorem runStep_matched {s t : State P R} {p : P} (sound : GracePeriod.Sound s.view)
    (next : runStep s p = some t) : Matched s t (shown s (.run p) t) := by
  cases at_ : s.pc p with
  | fill value new back =>
      simp only [shown, at_]
      exact fill_matched sound at_ next
  | lock new back =>
      simp only [runStep, at_] at next
      split at next <;> cases next
      simp only [shown, at_]
      exact matched_stay (register_goto_stay (by rw [at_]; rfl))
  | deref new back =>
      simp only [runStep, at_] at next
      cases next
      simp only [shown, at_]
      exact matched_stay (register_goto_stay (by rw [at_]; rfl))
  | assign new old back =>
      simp only [shown, at_]
      exact assign_matched at_ next
  | unlock old back =>
      simp only [runStep, at_] at next
      cases next
      simp only [shown, at_]
      exact matched_stay (register_goto_stay (by rw [at_]; rfl))
  | test old back =>
      cases old with
      | none =>
          simp only [runStep, at_] at next
          cases next
          simp only [shown, at_]
          exact matched_return (by rw [at_]; rfl)
      | some old =>
          simp only [runStep, at_] at next
          cases next
          simp only [shown, at_]
          exact matched_stay (register_goto_stay (by rw [at_]; rfl))
  | sync old back =>
      simp only [runStep, at_] at next
      cases next
      simp only [shown, at_]
      exact matched_stay (register_goto_stay (by rw [at_]; rfl))
  | grace old limit back =>
      simp only [runStep, at_] at next
      split at next <;> cases next
      simp only [shown, at_]
      exact matched_stay (register_goto_stay (by rw [at_]; rfl))
  | free old back =>
      simp only [runStep, at_] at next
      cases next
      simp only [shown, at_]
      exact matched_return (by rw [at_]; rfl)
  | stop =>
      simp only [runStep, at_] at next
      split at next <;> cases next
      simp only [shown, at_]
      exact matched_stay (register_goto_stay (by rw [at_]; rfl))
  | join =>
      simp only [runStep, at_] at next
      split at next
      · split at next <;> cases next
        simp only [shown, at_]
        exact matched_call (by rw [at_]; rfl) rfl
      · cases next
  | _ =>
      simp only [runStep, at_] at next
      cases next

theorem readStep_matched {s t : State P R} {r : R} (next : readStep s r = some t) :
    Matched s t (shown s (.read r) t) := by
  have has {pc : ReaderPc} (at_ : s.reader r = pc) :
      s.register.reading r = pc.reading s.memory := congrArg (ReaderPc.reading s.memory) at_
  unfold readStep at next
  cases at_ : s.reader r with
  | loop =>
      simp only [at_] at next
      cases next
      simp only [shown, at_]
      refine matched_stay (register_readerGoto_stay ?_)
      rw [at_]
      split <;> rfl
  | lock =>
      simp only [at_] at next
      cases next
      simp only [shown, at_]
      refine matched_act (.begin r) ?_
      simp only [Register.step, has at_, ReaderPc.reading, register_readerGoto]
      rfl
  | deref n =>
      simp only [at_] at next
      cases next
      simp only [shown, at_]
      refine matched_act (.read r) ?_
      simp only [Register.step, has at_, ReaderPc.reading, register_readerGoto]
      rfl
  | value n p =>
      simp only [at_] at next
      cases next
      simp only [shown, at_]
      exact matched_stay (register_readerGoto_stay (by rw [at_]; rfl))
  | unlock n p val =>
      simp only [at_] at next
      cases next
      simp only [shown, at_]
      exact matched_stay (register_readerGoto_stay (s := { s with rcu := s.rcu.readUnlock r })
        (congrArg (ReaderPc.reading s.memory) at_).symm)
  | report val =>
      simp only [at_] at next
      cases next
      have got : s.register.reading r = .got val := has at_
      have reports : Matched s (s.readerGoto r .msleep)
          (Register.shown s.register (.report r) (s.readerGoto r .msleep).register) := by
        refine matched_act (.report r) ?_
        simp only [Register.step, got, register_readerGoto]
        rfl
      simp only [Register.shown, got] at reports
      simp only [shown, at_]
      exact reports
  | msleep =>
      simp only [at_] at next
      cases next
      simp only [shown, at_]
      exact matched_stay (register_readerGoto_stay (by rw [at_]; rfl))
  | gone =>
      simp only [at_] at next
      cases next

omit [DecidableEq P] in
theorem kthread_register {s : State P R} {r : R} (gone : s.reader r = .gone) :
    (s.kthread r).register = s.register := by
  have same : ReaderPc.loop.reading s.memory = (s.reader r).reading s.memory := by
    rw [gone]
    rfl
  exact register_readerGoto_stay
    (s := { s with shouldStop := Function.update s.shouldStop r false }) same

/-- **One step.** -/
theorem step_matched {s t : State P R} {a : Action P R} (sound : GracePeriod.Sound s.view)
    (next : step s a = some t) : Matched s t (shown s a t) := by
  cases a with
  | run p => exact runStep_matched sound next
  | read r => exact readStep_matched next
  | startReader r =>
      simp only [step] at next
      split at next <;> cases next
      exact matched_stay (kthread_register ‹_›)
  | kmalloc p got =>
      simp only [step] at next
      split at next <;> cases next
      · -- the new object is not known to anybody
        rename_i value back garbage at_
        refine matched_stay (register_memory (s := { s with next := s.next + 1 }) ?_ ?_ ?_ ?_)
        · exact fun published => Nat.lt_irrefl _ (sound.publishedKnown _ published)
        · intro r n reads
          rcases sound.reads r n _ reads with published | ⟨w, has | ⟨limit, has, -⟩⟩
          · exact Nat.lt_irrefl _ (sound.publishedKnown _ published)
          · exact Nat.lt_irrefl _ (sound.writerKnown w _ _ has)
          · exact Nat.lt_irrefl _ (sound.writerKnown w _ _ has)
        · exact fun q _ stage has => Nat.lt_irrefl _ (sound.writerKnown q _ stage has)
        · rw [at_]
          rfl
      · rename_i value back at_
        refine matched_act (.fail p) ?_
        have pending : s.register.writing p = .pending (some value) :=
          congrArg (Pc.writing s.memory) at_
        simp only [Register.step, pending, register_goto, next_writing]
  | kthreadRun p got =>
      simp only [step] at next
      split at next
      · rename_i r at_
        split at next <;> cases next
        rename_i gone
        have called : Matched s (s.goto p (.kmalloc 100 .init100)) [.called p (some 100)] :=
          matched_call (by rw [at_]; rfl) rfl
        have same : ((({ s with readerThread := some r }).kthread r).goto p
            (.kmalloc 100 .init100)).register = (s.goto p (.kmalloc 100 .init100)).register := by
          rw [register_goto, register_goto,
            kthread_register (s := { s with readerThread := some r }) gone]
          rfl
        unfold Matched
        rw [same]
        exact called
      · rename_i ret at_
        cases next
        exact matched_stay (register_goto_stay (by rw [at_]; rfl))
      · cases next
  | updateData p value | exampleRcuInit p =>
      simp only [step] at next
      split at next <;> cases next <;> rename_i at_ <;>
        exact matched_call (by rw [at_]; rfl) rfl
  | exampleRcuExit p =>
      simp only [step] at next
      split at next <;> cases next <;> rename_i at_ <;>
        exact matched_stay (register_goto_stay (by rw [at_]; rfl))

/-! ## The refinement -/

def refinement : Refinement (system P R) shown (Register.system none) Register.shown where
  Rel s u := Held s ∧ GracePeriod.Sound s.view ∧ u = s.register
  start := by
    rintro s rfl
    exact ⟨_, rfl, held_start, GracePeriod.Sound.start, rfl⟩
  step := by
    rintro s u a t es ⟨held, sound, rfl⟩ next
    obtain ⟨acts, ran⟩ := step_matched sound next
    refine ⟨acts, t.register, ran es, step_held held next, ?_, rfl⟩
    rcases step_view held next with same | moved
    · rw [same]
      exact sound
    · exact sound.step moved

/-- **Linearizable.**  Whatever the callers and the readers of `shared_data` see, the calls,
their returns and the values reported in their order, those of a register see too that is
written and read at one moment. -/
theorem rcu_linearizable {s : State P R} {es : List (Register.Event P R (Option Int))}
    (reached : ((system P R).traced shown).Reachable (s, es)) :
    ∃ u : Register.State P R (Option Int),
      ((Register.system none).traced Register.shown).Reachable (u, es) ∧
      u.value = s.sharedData.map s.memory := by
  obtain ⟨u, reachedU, _, _, rfl⟩ := refinement.reachable reached
  exact ⟨s.register, reachedU, rfl⟩

/-- Both readers of `replaced` go on to their `pr_info`.  The first one got the first
object, and reports it after the second is published. -/
def reported : List (Action Unit Bool) :=
  replaced ++ [.read false, .read true, .read true, .read true]

theorem rcu_linearizable_reported :
    ∃ s : State Unit Bool, ((system Unit Bool).traced shown).Reachable (s,
        [.called () (some 42), .returned (), .called () (some 100), .began false, .began true,
          .returned (), .reported false (some 42), .reported true (some 100)]) ∧
      ∃ u : Register.State Unit Bool (Option Int),
        ((Register.system none).traced Register.shown).Reachable (u,
          [.called () (some 42), .returned (), .called () (some 100), .began false, .began true,
            .returned (), .reported false (some 42), .reported true (some 100)]) ∧
        u.value = s.sharedData.map s.memory := by
  have ends : (((system Unit Bool).traced shown).run (start, []) reported).map Prod.snd = some
      [.called () (some 42), .returned (), .called () (some 100), .began false, .began true,
        .returned (), .reported false (some 42), .reported true (some 100)] := by decide
  obtain ⟨⟨s, es⟩, ran, same⟩ := Option.map_eq_some_iff.1 ends
  obtain rfl : es = _ := same
  have reached : ((system Unit Bool).traced shown).Reachable (s,
      [.called () (some 42), .returned (), .called () (some 100), .began false, .began true,
        .returned (), .reported false (some 42), .reported true (some 100)]) :=
    ⟨(start, []), reported, ⟨rfl, rfl⟩, ran⟩
  exact ⟨s, reached, rcu_linearizable reached⟩

end Lkmpg.Rcu
