/-
# Lkmpg.Completions.Ends -- every load of completions.c comes to its end

Whatever the order in which the module and the threads take their steps, a load takes no
more than nineteen of them (`step_lowers`), and where none of them can take one it is over
(`Load.Ready.stuck`): neither the waits of `completions_exit` nor that of the flywheel
thread wait for ever.

A completion keeps the `UINT_MAX` of `complete_all`, which no wait takes down, so that
more than one can wait for the crank.
-/
import Lkmpg.Completions.Unload

namespace Lkmpg.Completions

open Lkmpg.Kernel Lkmpg.Theory

set_option autoImplicit false

/-! ## What is left to do -/

def ThreadPc.rest (w : Who) : ThreadPc → Nat
  | .absent | .created => match w with
      | .crank => 4
      | .flywheel => 5
  | .wait => 5
  | .print => 4
  | .completeAll => 3
  | .completeAndExit => 2
  | .leaving => 1
  | .gone => 0

def ModulePc.rest : ModulePc → Nat
  | .initCrankComp => 10
  | .initFlywheelComp => 9
  | .createCrank => 8
  | .createFlywheel => 7
  | .wakeFlywheel => 6
  | .wakeCrank => 5
  | .loaded => 4
  | .waitCrank => 3
  | .waitFlywheel => 2
  | .leave | .stopCrank => 1
  | .failed _ | .unloaded => 0

def Load.rest (l : Load) : Nat :=
  l.pc.rest + (l.thread .crank).rest .crank + (l.thread .flywheel).rest .flywheel

/-! ## What a load keeps -/

/-- `completions_init` has woken the thread. -/
def ModulePc.woke : ModulePc → Who → Bool
  | .wakeCrank, .flywheel => true
  | .loaded, _ | .waitCrank, _ | .waitFlywheel, _ | .leave, _ | .unloaded, _ => true
  | _, _ => false

def ThreadPc.woken : ThreadPc → Bool
  | .absent | .created => false
  | _ => true

/-- The flywheel thread is past its wait. -/
def ThreadPc.spun : ThreadPc → Bool
  | .absent | .created | .wait => false
  | _ => true

def ModulePc.isFailed : ModulePc → Bool
  | .failed _ => true
  | _ => false

structure Load.Ready (l : Load) : Prop where
  woken : ∀ w, l.pc.woke w → (l.thread w).woken
  failed : l.pc.isFailed → ∀ w, l.thread w = .absent ∨ l.thread w = .gone
  /-- No thread has been ended by `kthread_stop`, so each has signalled its completion. -/
  done : ¬ l.pc.isFailed → ∀ w, (l.thread w).signalled → l.comp w = UINT_MAX
  crank : l.thread .crank ≠ .wait
  order : (l.thread .flywheel).spun → (l.thread .crank).signalled

theorem Load.setThread_self (l : Load) (w : Who) (pc : ThreadPc) : (l.setThread w pc).thread w = pc :=
  Function.update_self ..

theorem Load.setThread_other (l : Load) {v w : Who} (other : v ≠ w) (pc : ThreadPc) :
    (l.setThread w pc).thread v = l.thread v :=
  Function.update_of_ne other ..

namespace Load.Ready

theorem start : Load.start.Ready where
  woken w woke := by cases w <;> cases woke
  failed failed := by cases failed
  done _ w signalled := by cases signalled
  crank same := by cases same
  order spun := by cases spun

variable {l l' : Load}

/-- A thread goes on. -/
theorem move (ready : l.Ready) {w : Who} {pc : ThreadPc} {comp : Who → Nat}
    (running : ¬ l.pc.isFailed) (woken : pc.woken) (crank : w = .crank → pc ≠ .wait)
    (done : ∀ v, (Function.update l.thread w pc v).signalled → comp v = UINT_MAX)
    (order : (Function.update l.thread w pc .flywheel).spun →
      (Function.update l.thread w pc .crank).signalled) :
    ({ l with comp := comp }.setThread w pc).Ready where
  woken v woke := by
    by_cases same : v = w
    · subst same
      simpa [Load.setThread] using woken
    · simpa [Load.setThread, same] using ready.woken v woke
  failed failed := absurd failed running
  done _ v signalled := done v signalled
  crank same := by
    by_cases mine : Who.crank = w
    · subst mine
      exact crank rfl (by simpa [Load.setThread] using same)
    · exact ready.crank (by simpa [Load.setThread, mine] using same)
  order spun := order spun

/-- The completions that were signalled stay at `UINT_MAX`, but for that of `w`. -/
theorem keepDone (ready : l.Ready) (running : ¬ l.pc.isFailed) {w : Who} {pc : ThreadPc}
    {comp : Who → Nat} (own : pc.signalled → comp w = UINT_MAX)
    (others : ∀ v, v ≠ w → l.comp v = UINT_MAX → comp v = UINT_MAX) (v : Who)
    (signalled : (Function.update l.thread w pc v).signalled) : comp v = UINT_MAX := by
  by_cases same : v = w
  · subst same
    rw [Function.update_self] at signalled
    exact own signalled
  · rw [Function.update_of_ne same] at signalled
    exact others v same (ready.done running v signalled)

/-- A thread that goes on keeps its place in the order. -/
theorem keepOrder (ready : l.Ready) {w : Who} {pc : ThreadPc}
    (spun : pc.spun → (l.thread w).spun ∨ (l.thread .crank).signalled)
    (signalled : (l.thread w).signalled → pc.signalled)
    (after : (Function.update l.thread w pc .flywheel).spun) :
    (Function.update l.thread w pc .crank).signalled := by
  cases w with
  | crank =>
      rw [Function.update_of_ne (by decide)] at after
      rw [Function.update_self]
      exact signalled (ready.order after)
  | flywheel =>
      rw [Function.update_self] at after
      rw [Function.update_of_ne (by decide)]
      rcases spun after with before | turned
      · exact ready.order before
      · exact turned

theorem threadStep (good : l.Good) (ready : l.Ready) {w : Who}
    (next : l.threadStep w = some l') : l'.Ready := by
  have running : ¬ l.pc.isFailed := by
    intro failed
    rcases ready.failed failed w with at_ | at_ <;> simp [Load.threadStep, at_] at next
  have keep : ∀ v, v ≠ w → l.comp v = UINT_MAX → l.comp v = UINT_MAX := fun _ _ same => same
  unfold Load.threadStep at next
  cases at_ : l.thread w with
  | wait =>
      simp only [at_] at next
      obtain ⟨left, passed, rfl⟩ := Option.map_eq_some_iff.1 next
      have turned := good.signal .crank (Kernel.waited passed)
      have full := ready.done running .crank turned
      obtain rfl : left = UINT_MAX := by
        rw [full] at passed
        cases passed
        rfl
      refine ready.move running rfl (fun _ same => by cases same) ?_ ?_
      · refine ready.keepDone running (fun signalled => by cases signalled) ?_
        intro v _ same
        by_cases crank : v = .crank
        · subst crank
          exact Function.update_self ..
        · exact (Function.update_of_ne crank ..).trans same
      · exact ready.keepOrder (fun _ => .inr turned) (by rw [at_]; exact fun same => by cases same)
  | print =>
      simp only [at_] at next
      cases next
      refine ready.move running rfl (fun _ same => by cases same) ?_ ?_
      · exact ready.keepDone running (fun signalled => by cases signalled) keep
      · exact ready.keepOrder (fun _ => .inl (by rw [at_]; rfl))
          (by rw [at_]; exact fun same => by cases same)
  | completeAll =>
      simp only [at_] at next
      cases next
      refine ready.move running rfl (fun _ same => by cases same) ?_ ?_
      · refine ready.keepDone running (fun _ => Function.update_self ..) ?_
        exact fun v ne same => (Function.update_of_ne ne ..).trans same
      · exact ready.keepOrder (fun _ => .inl (by rw [at_]; rfl)) (fun _ => rfl)
  | completeAndExit =>
      simp only [at_] at next
      cases next
      refine ready.move running rfl (fun _ same => by cases same) ?_ ?_
      · exact ready.keepDone running (fun _ => ready.done running w (by rw [at_]; rfl)) keep
      · exact ready.keepOrder (fun _ => .inl (by rw [at_]; rfl)) (fun _ => rfl)
  | leaving =>
      simp only [at_] at next
      cases next
      refine ready.move running rfl (fun _ same => by cases same) ?_ ?_
      · refine ready.keepDone running ?_ ?_
        · intro _
          rw [Function.update_self, ready.done running w (by rw [at_]; rfl)]
          rfl
        · exact fun v ne same => (Function.update_of_ne ne ..).trans same
      · exact ready.keepOrder (fun _ => .inl (by rw [at_]; rfl)) (fun _ => rfl)
  | _ =>
      simp only [at_] at next
      cases next

/-- No thread has been woken. -/
theorem asleep {comp : Who → Nat} {thread : Who → ThreadPc} {pc : ModulePc}
    (woke : ∀ w, pc.woke w = false) (sleeps : ∀ w, thread w = .absent ∨ thread w = .created)
    (failed : pc.isFailed → ∀ w, thread w = .absent) : Load.Ready ⟨pc, comp, thread⟩ where
  woken w woken := by
    rw [woke w] at woken
    cases woken
  failed isFailed w := .inl (failed isFailed w)
  done _ w signalled := by
    rcases sleeps w with at_ | at_ <;> simp [at_, ThreadPc.signalled] at signalled
  crank same := by
    rcases sleeps .crank with at_ | at_ <;> simp [at_] at same
  order spun := by
    rcases sleeps .flywheel with at_ | at_ <;> simp [at_, ThreadPc.spun] at spun

/-- The flywheel thread waits as long as the crank has not been turned. -/
theorem waiting (ready : l.Ready) (woke : l.pc.woke .flywheel)
    (unsignalled : ¬ (l.thread .crank).signalled) : l.thread .flywheel = .wait := by
  have woken := ready.woken .flywheel woke
  have order := mt ready.order unsignalled
  cases at_ : l.thread .flywheel with
  | wait => rfl
  | absent | created =>
      rw [at_] at woken
      cases woken
  | _ =>
      rw [at_] at order
      exact absurd rfl order

/-- A thread is woken. -/
theorem woke {comp : Who → Nat} {thread : Who → ThreadPc} {pc : ModulePc}
    (woken : ∀ w, pc.woke w → (thread w).woken)
    (crank : thread .crank = .created ∨ thread .crank = .print) (flywheel : thread .flywheel = .wait)
    (running : ¬ pc.isFailed) : Load.Ready ⟨pc, comp, thread⟩ where
  woken := woken
  failed failed := absurd failed running
  done _ w signalled := by
    cases w with
    | crank => rcases crank with at_ | at_ <;> simp [at_, ThreadPc.signalled] at signalled
    | flywheel => simp [flywheel, ThreadPc.signalled] at signalled
  crank same := by rcases crank with at_ | at_ <;> simp [at_] at same
  order spun := by simp [flywheel, ThreadPc.spun] at spun

/-- `completions_exit` goes on. -/
theorem goto (ready : l.Ready) {pc : ModulePc} {comp : Who → Nat} (running : ¬ l.pc.isFailed)
    (runs : ¬ pc.isFailed) (woke : ∀ w, l.pc.woke w)
    (stays : ∀ w, l.comp w = UINT_MAX → comp w = UINT_MAX) :
    ({ l with comp := comp }.goto pc).Ready where
  woken w _ := ready.woken w (woke w)
  failed failed := absurd failed runs
  done _ w signalled := stays w (ready.done running w signalled)
  crank := ready.crank
  order := ready.order

/-- A wait of `completions_exit` leaves its completion as it is. -/
theorem waits (good : l.Good) (ready : l.Ready) (running : ¬ l.pc.isFailed) {w : Who} {left : Nat}
    (passed : waitForCompletion (l.comp w) = some left) (v : Who) (full : l.comp v = UINT_MAX) :
    Function.update l.comp w left v = UINT_MAX := by
  by_cases same : v = w
  · subst same
    rw [ready.done running v (good.signal v (Kernel.waited passed))] at passed
    cases passed
    exact Function.update_self ..
  · exact (Function.update_of_ne same ..).trans full

/-! The arms of `Load.moduleStep` at which a thread is made, woken or stopped. -/

theorem createCrank {created : Bool} (good : l.Good) (at_ : l.pc = .createCrank)
    (next : l.moduleStep created = some l') : l'.Ready := by
  have absent : ∀ w, l.thread w = .absent := by
    intro w
    exact good.asleep w _ (by rw [at_]; cases w <;> rfl)
  simp only [Load.moduleStep, at_] at next
  split at next <;> cases next
  · refine asleep (fun w => by cases w <;> rfl) ?_ (fun failed => by cases failed)
    intro w
    cases w with
    | crank => exact .inr (l.setThread_self ..)
    | flywheel => exact .inl ((l.setThread_other (by decide) _).trans (absent .flywheel))
  · exact asleep (fun w => by cases w <;> rfl) (fun w => .inl (absent w)) (fun _ => absent)

theorem createFlywheel {created : Bool} (good : l.Good) (at_ : l.pc = .createFlywheel)
    (next : l.moduleStep created = some l') : l'.Ready := by
  have crank := good.asleep .crank _ (by rw [at_]; rfl)
  have flywheel := good.asleep .flywheel _ (by rw [at_]; rfl)
  simp only [Load.moduleStep, at_] at next
  split at next <;> cases next
  · refine asleep (fun w => by cases w <;> rfl) ?_ (fun failed => by cases failed)
    intro w
    cases w with
    | crank => exact .inr ((l.setThread_other (by decide) _).trans crank)
    | flywheel => exact .inr (l.setThread_self ..)
  · refine asleep (fun w => by cases w <;> rfl) ?_ (fun failed => by cases failed)
    intro w
    cases w with
    | crank => exact .inr crank
    | flywheel => exact .inl flywheel

theorem wakeFlywheel {created : Bool} (good : l.Good) (at_ : l.pc = .wakeFlywheel)
    (next : l.moduleStep created = some l') : l'.Ready := by
  have created_ := good.asleep .flywheel _ (by rw [at_]; rfl)
  simp only [Load.moduleStep, at_, Load.wakeUpProcess, created_, if_true] at next
  cases next
  have crank : (l.setThread .flywheel .wait).thread .crank = .created :=
    (l.setThread_other (by decide) _).trans (good.asleep .crank _ (by rw [at_]; rfl))
  have flywheel : (l.setThread .flywheel .wait).thread .flywheel = .wait := l.setThread_self ..
  refine woke ?_ (.inl crank) flywheel (by decide)
  intro w woke
  cases w with
  | crank => cases woke
  | flywheel => exact congrArg ThreadPc.woken flywheel

theorem wakeCrank {created : Bool} (good : l.Good) (ready : l.Ready) (at_ : l.pc = .wakeCrank)
    (next : l.moduleStep created = some l') : l'.Ready := by
  have created_ := good.asleep .crank _ (by rw [at_]; rfl)
  simp only [Load.moduleStep, at_, Load.wakeUpProcess, created_, if_true] at next
  cases next
  have crank : (l.setThread .crank .print).thread .crank = .print := l.setThread_self ..
  have flywheel : (l.setThread .crank .print).thread .flywheel = .wait :=
    (l.setThread_other (by decide) _).trans
      (ready.waiting (by rw [at_]; rfl) (by rw [created_]; decide))
  refine woke ?_ (.inr crank) flywheel (by decide)
  intro w _
  cases w with
  | crank => exact congrArg ThreadPc.woken crank
  | flywheel => exact congrArg ThreadPc.woken flywheel

/-- A crank thread that was never woken ends in `kthread_stop`. -/
theorem stopCrank {created : Bool} (good : l.Good) (at_ : l.pc = .stopCrank)
    (next : l.moduleStep created = some l') : l'.Ready := by
  simp only [Load.moduleStep, at_] at next
  cases next
  have crank : (l.setThread .crank .gone).thread .crank = .gone := l.setThread_self ..
  have flywheel : (l.setThread .crank .gone).thread .flywheel = .absent :=
    (l.setThread_other (by decide) _).trans (good.asleep .flywheel _ (by rw [at_]; rfl))
  refine ⟨?_, ?_, fun running => absurd rfl running, ?_, ?_⟩
  · intro w woke
    cases w <;> cases woke
  · intro _ w
    cases w with
    | crank => exact .inr crank
    | flywheel => exact .inl flywheel
  · intro same
    cases crank.symm.trans same
  · intro _
    exact congrArg ThreadPc.signalled crank

theorem moduleStep {created : Bool} (good : l.Good) (ready : l.Ready)
    (next : l.moduleStep created = some l') : l'.Ready := by
  cases at_ : l.pc with
  | initCrankComp | initFlywheelComp =>
      have absent : ∀ w, l.thread w = .absent := by
        intro w
        exact good.asleep w _ (by rw [at_]; cases w <;> rfl)
      simp only [Load.moduleStep, at_] at next
      cases next
      exact asleep (fun w => by cases w <;> rfl) (fun w => .inl (absent w))
        (fun failed => by cases failed)
  | createCrank => exact createCrank good at_ next
  | createFlywheel => exact createFlywheel good at_ next
  | wakeFlywheel => exact wakeFlywheel good at_ next
  | wakeCrank => exact wakeCrank good ready at_ next
  | stopCrank => exact stopCrank good at_ next
  | loaded | leave =>
      simp only [Load.moduleStep, at_] at next
      cases next
      exact ready.goto (by rw [at_]; decide) (by decide) (fun w => by rw [at_]; rfl)
        (fun _ same => same)
  | waitCrank | waitFlywheel =>
      simp only [Load.moduleStep, at_] at next
      obtain ⟨left, passed, rfl⟩ := Option.map_eq_some_iff.1 next
      have running : ¬ l.pc.isFailed := by rw [at_]; decide
      refine ready.goto running (by decide) (fun w => by rw [at_]; rfl) ?_
      exact ready.waits good running passed
  | failed _ | unloaded =>
      simp only [Load.moduleStep, at_] at next
      cases next

end Load.Ready

/-! ## One step -/

variable {l l' : Load}

/-- What is left once a thread is at `pc`. -/
theorem rest_setThread (l : Load) (w : Who) (pc : ThreadPc) :
    (l.setThread w pc).rest + (l.thread w).rest w = l.rest + pc.rest w := by
  cases w with
  | crank =>
      simp only [Load.rest, l.setThread_self, l.setThread_other (by decide : Who.flywheel ≠ .crank)]
      simp only [Load.setThread]
      omega
  | flywheel =>
      simp only [Load.rest, l.setThread_self, l.setThread_other (by decide : Who.crank ≠ .flywheel)]
      simp only [Load.setThread]
      omega

theorem rest_goto (l : Load) (pc : ModulePc) : (l.goto pc).rest + l.pc.rest = l.rest + pc.rest := by
  simp only [Load.rest, Load.goto]
  omega

/-- A thread that is woken has as much to do as before. -/
theorem rest_wakeUpProcess (l : Load) (w : Who) :
    (l.wakeUpProcess w).rest = l.rest ∧ (l.wakeUpProcess w).pc = l.pc := by
  unfold Load.wakeUpProcess
  split
  · rename_i created
    have rest := rest_setThread l w w.entry
    have same : w.entry.rest w = ThreadPc.created.rest w := by cases w <;> rfl
    rw [created, same] at rest
    exact ⟨Nat.add_right_cancel rest, rfl⟩
  · exact ⟨rfl, rfl⟩

theorem threadStep_lowers {w : Who} (next : l.threadStep w = some l') : l'.rest < l.rest := by
  have moves {later : ThreadPc} {comp : Who → Nat} (less : later.rest w < (l.thread w).rest w) :
      ({ l with comp := comp }.setThread w later).rest < l.rest := by
    have rest : ({ l with comp := comp }.setThread w later).rest + (l.thread w).rest w =
        l.rest + later.rest w := rest_setThread { l with comp := comp } w later
    omega
  unfold Load.threadStep at next
  cases at_ : l.thread w with
  | wait =>
      simp only [at_] at next
      obtain ⟨left, _, rfl⟩ := Option.map_eq_some_iff.1 next
      exact moves (by rw [at_]; exact Nat.lt_succ_self _)
  | print | completeAll | completeAndExit | leaving =>
      simp only [at_] at next
      cases next
      exact moves (by rw [at_]; exact Nat.lt_succ_self _)
  | _ =>
      simp only [at_] at next
      cases next

theorem moduleStep_lowers {created : Bool} (good : l.Good)
    (next : l.moduleStep created = some l') : l'.rest < l.rest := by
  have goes {m : Load} {pc : ModulePc} (rest : m.rest ≤ l.rest) (same : m.pc = l.pc)
      (less : pc.rest < l.pc.rest) : (m.goto pc).rest < l.rest := by
    have moved := rest_goto m pc
    rw [same] at moved
    omega
  have creates {w : Who} (absent : l.thread w = .absent) :
      (l.setThread w .created).rest ≤ l.rest := by
    have rest := rest_setThread l w .created
    rw [absent] at rest
    exact Nat.le_of_eq (Nat.add_right_cancel rest)
  unfold Load.moduleStep at next
  cases at_ : l.pc with
  | initCrankComp | initFlywheelComp =>
      simp only [at_] at next
      cases next
      exact goes (Nat.le_refl l.rest) rfl (by rw [at_]; decide)
  | createCrank =>
      simp only [at_] at next
      split at next <;> cases next
      · exact goes (creates (good.asleep .crank _ (by rw [at_]; rfl))) rfl (by rw [at_]; decide)
      · exact goes (Nat.le_refl l.rest) rfl (by rw [at_]; decide)
  | createFlywheel =>
      simp only [at_] at next
      split at next <;> cases next
      · exact goes (creates (good.asleep .flywheel _ (by rw [at_]; rfl))) rfl (by rw [at_]; decide)
      · exact goes (Nat.le_refl l.rest) rfl (by rw [at_]; decide)
  | wakeFlywheel =>
      simp only [at_] at next
      cases next
      obtain ⟨rest, same⟩ := rest_wakeUpProcess l .flywheel
      exact goes (Nat.le_of_eq rest) same (by rw [at_]; decide)
  | wakeCrank =>
      simp only [at_] at next
      cases next
      obtain ⟨rest, same⟩ := rest_wakeUpProcess l .crank
      exact goes (Nat.le_of_eq rest) same (by rw [at_]; decide)
  | stopCrank =>
      simp only [at_] at next
      cases next
      have rest : (l.setThread .crank .gone).rest + (l.thread .crank).rest .crank = l.rest :=
        rest_setThread l .crank .gone
      exact goes (by omega) rfl (by rw [at_]; decide)
  | loaded | leave =>
      simp only [at_] at next
      cases next
      exact goes (Nat.le_refl l.rest) rfl (by rw [at_]; decide)
  | waitCrank | waitFlywheel =>
      simp only [at_] at next
      obtain ⟨left, _, rfl⟩ := Option.map_eq_some_iff.1 next
      exact goes (Nat.le_refl l.rest) rfl (by rw [at_]; decide)
  | _ =>
      simp only [at_] at next
      cases next

/-- **One step** leaves less to do. -/
theorem step_lowers {a : Action} (good : l.Good) (next : l.step a = some l') :
    l'.rest < l.rest := by
  cases a with
  | module created => exact moduleStep_lowers good next
  | thread w => exact threadStep_lowers next

theorem step_ready {a : Action} (good : l.Good) (ready : l.Ready) (next : l.step a = some l') :
    l'.Ready := by
  cases a with
  | module created => exact ready.moduleStep good next
  | thread w => exact ready.threadStep good next

/-- A thread that is woken and can take no step is over, but for the flywheel thread in its
wait. -/
theorem threadStep_stuck {w : Who} (woken : (l.thread w).woken)
    (stuck : l.threadStep w = none) :
    l.thread w = .gone ∨ (l.thread w = .wait ∧ l.comp .crank = 0) := by
  unfold Load.threadStep at stuck
  cases at_ : l.thread w with
  | gone => exact .inl rfl
  | wait =>
      simp only [at_, Option.map_eq_none_iff, waitForCompletion] at stuck
      refine .inr ⟨rfl, ?_⟩
      by_contra nonzero
      rw [if_neg nonzero] at stuck
      cases stuck
  | absent | created =>
      rw [at_] at woken
      cases woken
  | _ =>
      simp only [at_] at stuck
      cases stuck

/-- Once both threads are woken they end, and so do the waits for them. -/
theorem Load.Ready.ends (ready : l.Ready) (running : ¬ l.pc.isFailed) (woke : ∀ w, l.pc.woke w)
    (stuck : ∀ w, l.threadStep w = none) (w : Who) : l.thread w = .gone ∧ l.comp w = UINT_MAX := by
  have crank : l.thread .crank = .gone := by
    rcases threadStep_stuck (ready.woken .crank (woke .crank)) (stuck .crank) with ended | ⟨waits, _⟩
    · exact ended
    · exact absurd waits ready.crank
  have turned : l.comp .crank = UINT_MAX := ready.done running .crank (by rw [crank]; rfl)
  cases w with
  | crank => exact ⟨crank, turned⟩
  | flywheel =>
      rcases threadStep_stuck (ready.woken .flywheel (woke .flywheel)) (stuck .flywheel) with
        ended | ⟨_, unsignalled⟩
      · exact ⟨ended, ready.done running .flywheel (by rw [ended]; rfl)⟩
      · rw [turned] at unsignalled
        cases unsignalled

/-- **No deadlock.**  Where no step can be taken, the load is over. -/
theorem Load.Ready.stuck (ready : l.Ready) (stuck : ∀ a, l.step a = none) :
    l.pc.idle ∧ ∀ w, l.thread w = .absent ∨ l.thread w = .gone := by
  have threads : ∀ w, l.threadStep w = none := fun w => stuck (.thread w)
  have module_ : l.moduleStep true = none := stuck (.module true)
  unfold Load.moduleStep at module_
  cases at_ : l.pc with
  | failed ret => exact ⟨rfl, ready.failed (by rw [at_]; rfl)⟩
  | unloaded =>
      refine ⟨rfl, fun w => .inr ?_⟩
      exact (ready.ends (by rw [at_]; decide) (fun w => by rw [at_]; rfl) threads w).1
  | waitCrank =>
      have full := (ready.ends (by rw [at_]; decide) (fun w => by rw [at_]; rfl) threads .crank).2
      simp only [at_, full] at module_
      cases module_
  | waitFlywheel =>
      have full := (ready.ends (by rw [at_]; decide) (fun w => by rw [at_]; rfl) threads .flywheel).2
      simp only [at_, full] at module_
      cases module_
  | _ =>
      simp only [at_] at module_
      cases module_

/-! ## Runs -/

/-- **Every load comes to its end.**  A run takes no more than twenty actions for each
load, the start included; a load that can take no step is over, with its threads; and the
flywheel thread is past its wait only when the crank thread has signalled. -/
theorem completions_ends {as : List (Component.Action Action)} {s : List Load}
    (ran : completions.system.run [] as = some s) :
    as.length ≤ 20 * s.length ∧
    ∀ l ∈ s, ((∀ a, l.step a = none) → l.pc.idle ∧ ∀ w, l.thread w = .absent ∨ l.thread w = .gone) ∧
      ((l.thread .flywheel).spun → (l.thread .crank).signalled) := by
  have start : Load.start.Good ∧ Load.start.Ready := ⟨.start, .start⟩
  have keep (l : Load) (a : Action) (l' : Load) (both : l.Good ∧ l.Ready)
      (next : l.step a = some l') : l'.Good ∧ l'.Ready :=
    ⟨step_good both.1 next, step_ready both.1 both.2 next⟩
  refine ⟨?_, ?_⟩
  · have bound := Component.run_length Load.rest start keep
      (fun l a l' both next => step_lowers both.1 next) (fun l member => by cases member) ran
    have all : completions.start.rest = 19 := rfl
    rw [all] at bound
    simp only [Component.total, List.map_nil, List.sum_nil, List.length_nil] at bound
    omega
  · intro l member
    obtain ⟨good, ready⟩ :=
      Component.all_keep start keep (fun l member => by cases member) ran l member
    exact ⟨ready.stuck, ready.order⟩

/-- Two loads of the module, the first one unloaded. -/
def loadedTwice : List (Component.Action Action) := leftBehind ++ [.step 0 (.thread .crank),
  .step 0 (.thread .crank), .start]

theorem completions_ends_twice : ∃ s, completions.system.run [] loadedTwice = some s ∧
    s.map (fun l => (l.pc, l.thread .crank, l.thread .flywheel)) =
      [(.initCrankComp, .absent, .absent), (.unloaded, .gone, .gone)] ∧
    loadedTwice.length ≤ 20 * s.length ∧
    ∀ l ∈ s, ((∀ a, l.step a = none) → l.pc.idle ∧ ∀ w, l.thread w = .absent ∨ l.thread w = .gone) ∧
      ((l.thread .flywheel).spun → (l.thread .crank).signalled) := by
  have ends : (completions.system.run [] loadedTwice).map
      (fun s => s.map fun l => (l.pc, l.thread .crank, l.thread .flywheel)) =
      some [(.initCrankComp, .absent, .absent), (.unloaded, .gone, .gone)] := by decide
  obtain ⟨s, ran, same⟩ := Option.map_eq_some_iff.1 ends
  exact ⟨s, ran, same, completions_ends ran⟩

end Lkmpg.Completions
