/-
# Lkmpg.Completions.Unload -- when completions_exit leaves no thread behind

A completion is signalled twice by its thread: by `complete_all`, still in the module,
and by `kthread_complete_and_exit`, which is the call that lets a module be unloaded.
`completions_exit` is let through by the first of them.

`Load.Good` ties the counters to the threads: a thread whose completion is signalled
is past its `complete_all`, so the one point where `completions_exit` can leave it is
the call of `kthread_complete_and_exit`.
-/
import Lkmpg.Completions.Driver

namespace Lkmpg.Completions

open Lkmpg.Kernel Lkmpg.Theory

set_option autoImplicit false

/-- The thread is past its `complete_all`, or was ended by `kthread_stop`. -/
def ThreadPc.signalled : ThreadPc → Bool
  | .completeAndExit | .leaving | .gone => true
  | .absent | .created | .wait | .print | .completeAll => false

/-- `completions_exit` has passed its wait for the thread. -/
def ModulePc.waited : ModulePc → Who → Bool
  | .waitFlywheel, .crank => true
  | .leave, _ | .unloaded, _ => true
  | _, _ => false

/-- Which threads there are while `completions_init` has not woken them. -/
def ModulePc.asleep : ModulePc → Who → Option ThreadPc
  | .initCrankComp, _ | .initFlywheelComp, _ | .createCrank, _ => some .absent
  | .createFlywheel, .crank | .stopCrank, .crank | .wakeCrank, .crank => some .created
  | .createFlywheel, .flywheel | .stopCrank, .flywheel => some .absent
  | .wakeFlywheel, _ => some .created
  | _, _ => none

structure Load.Good (l : Load) : Prop where
  signal : ∀ w, l.comp w ≠ 0 → (l.thread w).signalled
  waited : ∀ w, l.pc.waited w → (l.thread w).signalled
  asleep : ∀ w pc, l.pc.asleep w = some pc → l.thread w = pc

namespace Load.Good

theorem start : Load.start.Good where
  signal w signal := absurd rfl signal
  waited w waited := by cases w <;> cases waited
  asleep w pc asleep := by
    cases w <;> cases asleep <;> rfl

variable {l l' : Load}

/-- The completion of a thread that has not reached its `complete_all` is not
signalled. -/
theorem unsignalled (good : l.Good) {w : Who} (before : (l.thread w).signalled = false) :
    l.comp w = 0 := by
  by_contra signal
  rw [good.signal w signal] at before
  cases before

/-- A thread goes on, past its `complete_all` if it was, or if its completion is
signalled now. -/
theorem setThread (good : l.Good) {w : Who} {pc : ThreadPc} {comp : Who → Nat}
    (moves : l.pc.asleep w = none) (stays : (l.thread w).signalled → pc.signalled)
    (signal : ∀ v, comp v ≠ 0 → l.comp v ≠ 0 ∨ (v = w ∧ pc.signalled)) :
    ({ l with comp := comp }.setThread w pc).Good where
  signal v signalled := by
    rcases signal v signalled with before | ⟨rfl, now⟩
    · have was := good.signal v before
      by_cases same : v = w
      · subst same
        simpa [Load.setThread] using stays was
      · simpa [Load.setThread, same] using was
    · simpa [Load.setThread] using now
  waited v waited := by
    have was := good.waited v waited
    by_cases same : v = w
    · subst same
      simpa [Load.setThread] using stays was
    · simpa [Load.setThread, same] using was
  asleep v pc' asleep := by
    have ne : v ≠ w := by
      rintro rfl
      exact absurd (moves.symm.trans asleep) (by simp)
    simpa [Load.setThread, ne] using good.asleep v pc' asleep

/-- A thread that is past its `complete_all` may signal its own completion. -/
theorem update_signal {w : Who} {done : Nat} {pc : ThreadPc} (past : pc.signalled) (v : Who)
    (signalled : Function.update l.comp w done v ≠ 0) : l.comp v ≠ 0 ∨ (v = w ∧ pc.signalled) := by
  by_cases same : v = w
  · exact .inr ⟨same, past⟩
  · rw [Function.update_of_ne same] at signalled
    exact .inl signalled

/-- The module goes on, with no thread woken. -/
theorem goto (good : l.Good) {pc : ModulePc} {comp : Who → Nat}
    (signal : ∀ v, comp v ≠ 0 → l.comp v ≠ 0)
    (waited : ∀ v, pc.waited v → (l.thread v).signalled)
    (asleep : ∀ v later, pc.asleep v = some later → l.pc.asleep v = some later) :
    ({ l with comp := comp }.goto pc).Good where
  signal v signalled := good.signal v (signal v signalled)
  waited := waited
  asleep v later sleeps := good.asleep v later (asleep v later sleeps)

/-- `completions_init` moves a thread that has not run. -/
theorem init (good : l.Good) {w : Who} {later : ThreadPc} {pc : ModulePc}
    (before : (l.thread w).signalled = false) (free : ∀ v, pc.waited v = false)
    (asleep : ∀ v x, pc.asleep v = some x → x = Function.update l.thread w later v) :
    ((l.setThread w later).goto pc).Good where
  signal v signalled := by
    have ne : v ≠ w := by
      rintro rfl
      exact signalled (good.unsignalled before)
    simpa [Load.goto, Load.setThread, ne] using good.signal v signalled
  waited v waited := by
    rw [show ((l.setThread w later).goto pc).pc = pc from rfl, free v] at waited
    cases waited
  asleep v x sleeps := (asleep v x sleeps).symm

theorem threadStep {w : Who} (good : l.Good) (next : l.threadStep w = some l') : l'.Good := by
  -- a thread that moves has been woken
  have moves {pc : ThreadPc} (at_ : l.thread w = pc) (woken : pc ≠ .absent ∧ pc ≠ .created) :
      l.pc.asleep w = none := by
    by_contra some
    obtain ⟨pc', asleep⟩ := Option.ne_none_iff_exists'.1 some
    have same := good.asleep w pc' asleep
    rw [at_] at same
    subst same
    unfold ModulePc.asleep at asleep
    split at asleep <;> cases asleep
    all_goals first | exact woken.1 rfl | exact woken.2 rfl
  unfold Load.threadStep at next
  cases at_ : l.thread w with
  | wait =>
      simp only [at_] at next
      obtain ⟨left, passed, rfl⟩ := Option.map_eq_some_iff.1 next
      apply good.setThread (moves at_ (by simp)) (by simp [at_, ThreadPc.signalled])
      intro v signalled
      left
      by_cases crank : v = .crank
      · subst crank
        exact Kernel.waited passed
      · rwa [Function.update_of_ne crank] at signalled
  | print =>
      simp only [at_] at next
      cases next
      exact good.setThread (moves at_ (by simp)) (by simp [at_, ThreadPc.signalled])
        (fun v signalled => .inl signalled)
  | completeAll =>
      simp only [at_] at next
      cases next
      exact good.setThread (moves at_ (by simp)) (fun _ => rfl) (update_signal rfl)
  | completeAndExit =>
      simp only [at_] at next
      cases next
      exact good.setThread (moves at_ (by simp)) (fun _ => rfl)
        (fun v signalled => .inl signalled)
  | leaving =>
      simp only [at_] at next
      cases next
      exact good.setThread (moves at_ (by simp)) (fun _ => rfl) (update_signal rfl)
  | _ =>
      simp only [at_] at next
      cases next

/-- A counter that is set to 0, or taken down by a wait, signals no more than before. -/
theorem setComp_signal {w : Who} {done : Nat} (was : done ≠ 0 → l.comp w ≠ 0) (v : Who)
    (signalled : Function.update l.comp w done v ≠ 0) : l.comp v ≠ 0 := by
  by_cases same : v = w
  · subst same
    rw [Function.update_self] at signalled
    exact was signalled
  · rwa [Function.update_of_ne same] at signalled

/-! The arms of `Load.moduleStep` at which there are threads to look at. -/

theorem createCrank {created : Bool} (good : l.Good) (at_ : l.pc = .createCrank)
    (next : l.moduleStep created = some l') : l'.Good := by
  have flywheel := good.asleep .flywheel _ (by rw [at_]; rfl)
  have crank := good.asleep .crank _ (by rw [at_]; rfl)
  simp only [Load.moduleStep, at_] at next
  split at next <;> cases next
  · apply good.init (by rw [crank]; rfl) (fun v => by cases v <;> rfl)
    intro v x sleeps
    cases v with
    | crank =>
        cases sleeps
        rfl
    | flywheel =>
        cases sleeps
        exact flywheel.symm
  · exact good.goto (fun _ signalled => signalled) (fun v waited => by cases v <;> cases waited)
      (fun v later sleeps => by cases v <;> cases sleeps)

theorem createFlywheel {created : Bool} (good : l.Good) (at_ : l.pc = .createFlywheel)
    (next : l.moduleStep created = some l') : l'.Good := by
  have crank := good.asleep .crank _ (by rw [at_]; rfl)
  have flywheel := good.asleep .flywheel _ (by rw [at_]; rfl)
  simp only [Load.moduleStep, at_] at next
  split at next <;> cases next
  · apply good.init (by rw [flywheel]; rfl) (fun v => by cases v <;> rfl)
    intro v x sleeps
    cases v with
    | crank =>
        cases sleeps
        exact crank.symm
    | flywheel =>
        cases sleeps
        rfl
  · refine good.goto (fun _ signalled => signalled)
      (fun v waited => by cases v <;> cases waited) ?_
    rw [at_]
    intro v later sleeps
    cases v <;> exact sleeps

theorem wakeFlywheel {created : Bool} (good : l.Good) (at_ : l.pc = .wakeFlywheel)
    (next : l.moduleStep created = some l') : l'.Good := by
  have crank := good.asleep .crank _ (by rw [at_]; rfl)
  have flywheel := good.asleep .flywheel _ (by rw [at_]; rfl)
  simp only [Load.moduleStep, at_, Load.wakeUpProcess, flywheel, if_true] at next
  cases next
  apply good.init (by rw [flywheel]; rfl) (fun v => by cases v <;> rfl)
  intro v x sleeps
  cases v <;> cases sleeps
  exact crank.symm

theorem waitCrank {created : Bool} (good : l.Good) (at_ : l.pc = .waitCrank)
    (next : l.moduleStep created = some l') : l'.Good := by
  simp only [Load.moduleStep, at_] at next
  obtain ⟨left, passed, rfl⟩ := Option.map_eq_some_iff.1 next
  refine good.goto (setComp_signal (fun _ => Kernel.waited passed)) ?_
    (fun v later sleeps => by cases v <;> cases sleeps)
  intro v waited
  cases v with
  | crank => exact good.signal .crank (Kernel.waited passed)
  | flywheel => cases waited

theorem waitFlywheel {created : Bool} (good : l.Good) (at_ : l.pc = .waitFlywheel)
    (next : l.moduleStep created = some l') : l'.Good := by
  simp only [Load.moduleStep, at_] at next
  obtain ⟨left, passed, rfl⟩ := Option.map_eq_some_iff.1 next
  refine good.goto (setComp_signal (fun _ => Kernel.waited passed)) ?_
    (fun v later sleeps => by cases v <;> cases sleeps)
  intro v _
  cases v with
  | crank => exact good.waited .crank (by rw [at_]; rfl)
  | flywheel => exact good.signal .flywheel (Kernel.waited passed)

theorem moduleStep {created : Bool} (good : l.Good) (next : l.moduleStep created = some l') :
    l'.Good := by
  cases at_ : l.pc with
  | initCrankComp | initFlywheelComp =>
      simp only [Load.moduleStep, at_] at next
      cases next
      apply good.goto (setComp_signal (by simp)) (fun v waited => by cases v <;> cases waited)
      rw [at_]
      exact fun v later sleeps => sleeps
  | createCrank => exact good.createCrank at_ next
  | createFlywheel => exact good.createFlywheel at_ next
  | wakeFlywheel => exact good.wakeFlywheel at_ next
  | wakeCrank =>
      have crank := good.asleep .crank _ (by rw [at_]; rfl)
      simp only [Load.moduleStep, at_, Load.wakeUpProcess, crank, if_true] at next
      cases next
      exact good.init (by rw [crank]; rfl) (fun v => by cases v <;> rfl)
        (fun v x sleeps => by cases v <;> cases sleeps)
  | stopCrank =>
      have crank := good.asleep .crank _ (by rw [at_]; rfl)
      simp only [Load.moduleStep, at_] at next
      cases next
      exact good.init (by rw [crank]; rfl) (fun v => by cases v <;> rfl)
        (fun v x sleeps => by cases v <;> cases sleeps)
  | loaded =>
      simp only [Load.moduleStep, at_] at next
      cases next
      exact good.goto (fun _ signalled => signalled) (fun v waited => by cases v <;> cases waited)
        (fun v later sleeps => by cases v <;> cases sleeps)
  | waitCrank => exact good.waitCrank at_ next
  | waitFlywheel => exact good.waitFlywheel at_ next
  | leave =>
      simp only [Load.moduleStep, at_] at next
      cases next
      exact good.goto (fun _ signalled => signalled)
        (fun v _ => good.waited v (by rw [at_]; rfl))
        (fun v later sleeps => by cases v <;> cases sleeps)
  | failed ret =>
      simp only [Load.moduleStep, at_] at next
      cases next
  | unloaded =>
      simp only [Load.moduleStep, at_] at next
      cases next

end Load.Good

/-! ## Runs -/

/-- After `completions_exit` has returned no thread of the load is in the module. -/
def Load.Left (l : Load) : Prop := l.pc = .unloaded → ∀ w, (l.thread w).inside = false

/-- When `completions_exit` returns, no thread is between its `complete_all` and its
`kthread_complete_and_exit`. -/
def Load.ReturnsInTime (l : Load) : Action → Prop
  | .module _ => l.pc = .leave → ∀ w, l.thread w ≠ .completeAndExit
  | .thread _ => True

theorem threadStep_pc {l l' : Load} {w : Who} (next : l.threadStep w = some l') :
    l'.pc = l.pc := by
  unfold Load.threadStep at next
  split at next
  case h_1 =>
    obtain ⟨left, -, rfl⟩ := Option.map_eq_some_iff.1 next
    rfl
  all_goals cases next <;> rfl

/-- A thread outside the module does not come back. -/
theorem threadStep_left {l l' : Load} {w : Who} (left : l.Left)
    (next : l.threadStep w = some l') : l'.Left := by
  intro unloaded v
  rw [threadStep_pc next] at unloaded
  have outside := left unloaded
  have outsideW := outside w
  unfold Load.threadStep at next
  cases at_ : l.thread w with
  | leaving =>
      simp only [at_] at next
      cases next
      by_cases same : v = w
      · subst same
        simp [Load.setThread, ThreadPc.inside]
      · simpa [Load.setThread, Load.setComp, same] using outside v
  | absent | created | gone =>
      simp only [at_] at next
      cases next
  | _ =>
      rw [at_] at outsideW
      cases outsideW

/-- The module's code ends only with the return of `completions_exit`, which moves no
thread. -/
theorem moduleStep_unloaded {l l' : Load} {created : Bool}
    (next : l.moduleStep created = some l') (unloaded : l'.pc = .unloaded) :
    l.pc = .leave ∧ l'.thread = l.thread := by
  unfold Load.moduleStep at next
  cases at_ : l.pc with
  | leave =>
      simp only [at_] at next
      cases next
      exact ⟨rfl, rfl⟩
  | createCrank | createFlywheel =>
      simp only [at_] at next
      split at next <;> cases next <;> cases unloaded
  | waitCrank | waitFlywheel =>
      simp only [at_] at next
      obtain ⟨left, -, rfl⟩ := Option.map_eq_some_iff.1 next
      cases unloaded
  | _ =>
      simp only [at_] at next
      cases next <;> cases unloaded

/-- A thread that is past its `complete_all` and inside is at the next call. -/
theorem inside_signalled {pc : ThreadPc} (signalled : pc.signalled) :
    pc.inside = false ↔ pc ≠ .completeAndExit := by
  cases pc <;> cases signalled <;> simp [ThreadPc.inside]

/-- The return of `completions_exit`. -/
theorem moduleStep_left {l l' : Load} {created : Bool} (good : l.Good)
    (next : l.moduleStep created = some l') :
    l'.Left ↔ (l.pc = .leave → ∀ w, l.thread w ≠ .completeAndExit) := by
  constructor
  · intro left leave w
    unfold Load.moduleStep at next
    simp only [leave] at next
    cases next
    exact (inside_signalled (good.waited w (by rw [leave]; rfl))).1 (left rfl w)
  · intro inTime unloaded w
    obtain ⟨leave, same⟩ := moduleStep_unloaded next unloaded
    rw [same]
    exact (inside_signalled (good.waited w (by rw [leave]; rfl))).2 (inTime leave w)

theorem step_good {l l' : Load} {a : Action} (good : l.Good) (next : l.step a = some l') :
    l'.Good := by
  cases a with
  | module created => exact good.moduleStep next
  | thread w => exact good.threadStep next

/-- **One step.**  Only the return of `completions_exit` can leave a thread behind. -/
theorem step_left {l l' : Load} {a : Action} (good : l.Good) (left : l.Left)
    (next : l.step a = some l') : l'.Left ↔ l.ReturnsInTime a := by
  cases a with
  | module created => exact moduleStep_left good next
  | thread w => exact iff_of_true (threadStep_left left next) trivial

/-- **When unloading leaves no thread behind.**  Along every run no thread is in the
module after `completions_exit` has returned, if and only if each return finds no thread
between its `complete_all` and its `kthread_complete_and_exit`. -/
theorem completions_unload_iff (as : List (Component.Action Action)) :
    completions.system.Always (fun s => ∀ l ∈ s, l.Left) [] as ↔
      completions.system.Meets (Component.On Load.ReturnsInTime) [] as := by
  refine Component.always_iff_meets (I := Load.Good) ⟨.start, ?_⟩ (fun l a l' => step_good)
    (fun l a l' => step_left) as
  intro unloaded
  cases unloaded

/-- The crank thread has signalled its completion and is about to leave when
`completions_exit` returns. -/
def leftBehind : List (Component.Action Action) :=
  [.start, .step 0 (.module true), .step 0 (.module true), .step 0 (.module true),
    .step 0 (.module true), .step 0 (.module true), .step 0 (.module true),
    .step 0 (.thread .crank), .step 0 (.thread .crank),
    .step 0 (.thread .flywheel), .step 0 (.thread .flywheel), .step 0 (.thread .flywheel),
    .step 0 (.thread .flywheel), .step 0 (.thread .flywheel),
    .step 0 (.module true), .step 0 (.module true), .step 0 (.module true), .step 0 (.module true)]

theorem completions_thread_left :
    ∃ s, completions.system.Reachable s ∧ ¬ ∀ l ∈ s, l.Left := by
  have ends : (completions.system.run [] leftBehind).map
      (fun s => s.map fun l => (l.pc, l.thread .crank, l.thread .flywheel)) =
      some [(.unloaded, .completeAndExit, .gone)] := by decide
  obtain ⟨s, ran, same⟩ := Option.map_eq_some_iff.1 ends
  refine ⟨s, ⟨[], leftBehind, rfl, ran⟩, ?_⟩
  intro left
  obtain ⟨l, rfl, at_⟩ := List.map_eq_singleton_iff.1 same
  simp only [Prod.mk.injEq] at at_
  obtain ⟨unloaded, crank, -⟩ := at_
  have outside := left l List.mem_cons_self unloaded .crank
  rw [crank] at outside
  cases outside

end Lkmpg.Completions
