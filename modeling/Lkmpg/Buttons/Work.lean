/-
# Lkmpg.Buttons.Work -- the deferred work of bottomhalf.c

Only a handler queues `bottomhalf_work`, and a handler runs only while it is registered.
So the work can be queued or running without a handler only if it was when the last
handler was freed: nothing in the driver waits for it there.

* `step_calm`: what the handlers and the work keep;
* `bottomhalf_work_done`: the run, with what `Lkmpg.Buttons.Balance` says about the
  handlers of a driver that is not loaded.
-/
import Lkmpg.Buttons.Balance

namespace Lkmpg.Buttons

open Lkmpg.Theory

set_option autoImplicit false

/-- The next call of the module's code is `free_irq`, and it frees the last handler. -/
def Load.FreesLast (l : Load) : Prop :=
  match l.phase.next with
  | some (.freeIrq irq dev) => (l.res.freeIrq (irq, dev)).handlers = []
  | _ => False

instance (l : Load) : Decidable l.FreesLast := by
  unfold Load.FreesLast
  split <;> infer_instance

/-- The last handler is freed when `bottomhalf_work` is neither queued nor running, and
`gpio_to_irq` is answered as the build admits. -/
def Load.WaitsForWork (build : Build) (l : Load) : Action → Prop
  | .call a => l.Admits build (.call a) ∧ (l.FreesLast → l.work.idle)
  | _ => True

instance (build : Build) (l : Load) : ∀ a, Decidable (l.WaitsForWork build a)
  | .call a => inferInstanceAs (Decidable (l.Admits build (.call a) ∧ (l.FreesLast → l.work.idle)))
  | .unload | .interrupt _ | .isr _ _ | .workStart | .workEnd => .isTrue trivial

theorem Load.WaitsForWork.admits {build : Build} {l : Load} {a : Action}
    (waits : l.WaitsForWork build a) : l.Admits build a := by
  cases a with
  | call a => exact waits.1
  | _ => trivial

/-- No deferred work while the module is not loaded. -/
def Load.WorkDone (l : Load) : Prop :=
  l.phase.idle → l.work.queued = false ∧ l.work.running = false

/-- The handlers that run are registered, and without one there is no work. -/
structure Load.Calm (l : Load) : Prop where
  registered : ∀ i ∈ l.isrs, i.1 ∈ l.res.handlers
  work : l.res.handlers = [] → l.work.idle

variable {build : Build} {l l' : Load}

/-! ## The handlers that are registered -/

/-- A call keeps the handlers that run, and only a `free_irq` leaves none. -/
theorem perform_handlers {r t : Resources} {running : List Handler} {c : Call} {a : Int}
    (performed : r.perform running c a = some t) :
    (∀ h ∈ running, h ∈ r.handlers → h ∈ t.handlers) ∧
    (t.handlers = [] → r.handlers = [] ∨
      ∃ irq dev, c = .freeIrq irq dev ∧ (r.freeIrq (irq, dev)).handlers = []) := by
  have same {t : Resources} (handlers : t.handlers = r.handlers) :
      (∀ h ∈ running, h ∈ r.handlers → h ∈ t.handlers) ∧
      (t.handlers = [] → r.handlers = [] ∨
        ∃ irq dev, c = .freeIrq irq dev ∧ (r.freeIrq (irq, dev)).handlers = []) := by
    rw [handlers]
    exact ⟨fun h _ member => member, .inl⟩
  cases c with
  | requestIrq irq dev =>
      rcases Resources.outcome_cases performed with rfl | rfl
      · exact ⟨fun h _ member => List.mem_cons_of_mem _ member, fun empty => by cases empty⟩
      · exact same rfl
  | freeIrq irq dev =>
      simp only [Resources.perform] at performed
      split at performed <;> cases performed
      rename_i idle
      refine ⟨?_, fun empty => .inr ⟨irq, dev, rfl, empty⟩⟩
      intro h runs member
      unfold Resources.freeIrq
      split
      · refine (List.mem_erase_of_ne ?_).2 member
        rintro rfl
        exact idle runs
      · exact member
  | gpioRequest _ | gpioRequestArray _ | gpioDirectionOutput _ _ | gpioDirectionInput _ =>
      rcases Resources.outcome_cases performed with rfl | rfl <;> exact same rfl
  | gpioGetValue _ | gpioSetValue _ _ | gpioToIrq _ | storeIrq _ _ | scheduleWork =>
      cases performed
      exact same rfl
  | loadIrq i =>
      simp only [Resources.perform] at performed
      split at performed <;> cases performed
      exact same rfl
  | gpioFree gpio =>
      cases performed
      exact same (r.gpioFree_handlers gpio)
  | gpioFreeArray array =>
      cases performed
      exact same (r.gpioFreeArray_handlers array)

/-! ## One load -/

theorem callStep_calm {a : Int} (calm : l.Calm) (waits : l.FreesLast → l.work.idle)
    (next : l.callStep a = some l') : l'.Calm := by
  rcases Load.callStep_cases next with ⟨ret, _, rfl⟩ | ⟨_, rfl⟩ | ⟨c, r, at_, performed, rfl⟩
  · exact ⟨calm.registered, calm.work⟩
  · exact ⟨calm.registered, calm.work⟩
  · obtain ⟨keeps, last⟩ := perform_handlers performed
    refine ⟨?_, ?_⟩
    · intro i member
      exact keeps i.1 (List.mem_map_of_mem member) (calm.registered i member)
    · intro empty
      rcases last empty with before | ⟨irq, dev, rfl, frees⟩
      · exact calm.work before
      · apply waits
        rw [Load.FreesLast, at_]
        exact frees

/-- A handler that runs is registered, so it may queue the work. -/
theorem isrStep_calm {file : File} {k : Nat} {a : Int} (sound : l.Sound file build) (calm : l.Calm)
    (next : l.isrStep k a = some l') : l'.Calm := by
  have registered := isrStep_handlers sound next calm.registered
  rcases isrStep_cases sound next with rfl | ⟨h, c, rest, member, rfl⟩
  · exact ⟨registered, calm.work⟩
  · refine ⟨registered, ?_⟩
    intro empty
    exact absurd (calm.registered _ member) (empty ▸ List.not_mem_nil)

/-- **One step.** -/
theorem step_calm {file : File} {a : Action} (sound : l.Sound file build) (calm : l.Calm)
    (waits : l.WaitsForWork build a) (next : l.step (driver file build) a = some l') :
    l'.Calm := by
  cases a with
  | call a => exact callStep_calm calm waits.2 next
  | isr k a => exact isrStep_calm sound calm next
  | unload =>
      simp only [Load.step] at next
      split at next <;> cases next
      exact ⟨calm.registered, calm.work⟩
  | interrupt h =>
      simp only [Load.step] at next
      split at next <;> cases next
      rename_i registered
      exact ⟨List.forall_mem_cons.2 ⟨registered, calm.registered⟩, calm.work⟩
  | workStart =>
      simp only [Load.step] at next
      split at next <;> cases next
      rename_i starts
      refine ⟨calm.registered, ?_⟩
      intro empty
      have idle := calm.work empty
      simp [Work.idle, starts.1] at idle
  | workEnd =>
      simp only [Load.step] at next
      split at next <;> cases next
      rename_i runs
      refine ⟨calm.registered, ?_⟩
      intro empty
      have idle := calm.work empty
      simp [Work.idle, runs] at idle

/-- A driver that is not loaded has no handler, and so no work. -/
theorem Load.Calm.workDone {file : File} (sound : l.Sound file build) (calm : l.Calm) :
    l.WorkDone := by
  intro idle
  have done := calm.work (sound.balanced.held idle).2
  simpa [Work.idle] using done

/-- **No deferred work survives.**  In every run of bottomhalf.c in which the last handler
of each load is freed when the work is neither queued nor running, and in which, in the
build without `NO_GPIO_REQUEST_ARRAY`, no `gpio_to_irq(buttons[1].gpio)` fails, the work
is neither queued nor running while the module is not loaded. -/
theorem bottomhalf_work_done (build : Build) (as : List (Component.Action Action))
    (meets : (driver .bottomhalf build).component.system.Meets
      (Component.On (Load.WaitsForWork build)) [] as) :
    (driver .bottomhalf build).component.system.Always (fun s => ∀ l ∈ s, l.WorkDone) [] as := by
  have both : (driver .bottomhalf build).component.system.Always
      (fun s => ∀ l ∈ s, l.Sound .bottomhalf build ∧ l.Calm) [] as := by
    refine Component.always_of_meets (I := fun l => l.Sound .bottomhalf build ∧ l.Calm) ?_ ?_ meets
    · refine ⟨start_sound .bottomhalf build, ?_, fun _ => rfl⟩
      intro i member
      cases member
    · rintro l a l' ⟨sound, calm⟩ waits next
      exact ⟨step_sound sound waits.admits next, step_calm sound calm waits next⟩
  exact both.mono fun s all l member => (all l member).2.workDone (all l member).1

/-- A load of the build without the arrays, and its unload; the work that the interrupt
queues is done when the second handler is freed. -/
def workInTime : List (Component.Action Action) :=
  [.start, .step 0 (.call 0), .step 0 (.call 0), .step 0 (.call 0), .step 0 (.call 0),
    .step 0 (.call 0), .step 0 (.call 0), .step 0 (.call 1), .step 0 (.call 49),
    .step 0 (.call 0), .step 0 (.call 49), .step 0 (.call 0), .step 0 (.call 50),
    .step 0 (.call 0), .step 0 (.call 50), .step 0 (.call 0), .step 0 (.call 0),
    .step 0 (.interrupt (49, .null)), .step 0 (.isr 0 49), .step 0 (.isr 0 0),
    .step 0 (.isr 0 0), .step 0 (.isr 0 0), .step 0 (.isr 0 0),
    .step 0 .unload, .step 0 (.call 49), .step 0 (.call 0), .step 0 .workStart,
    .step 0 (.call 50), .step 0 .workEnd, .step 0 (.call 0),
    .step 0 (.call 0), .step 0 (.call 0), .step 0 (.call 0), .step 0 (.call 0),
    .step 0 (.call 0)]

theorem bottomhalf_work_done_in_time :
    ((driver .bottomhalf .noRequestArray).component.system.run [] workInTime).map
      (fun s => s.map fun l => l.phase.idle) = some [true] ∧
    (driver .bottomhalf .noRequestArray).component.system.Always (fun s => ∀ l ∈ s, l.WorkDone)
      [] workInTime :=
  ⟨by decide, bottomhalf_work_done .noRequestArray workInTime (by decide)⟩

/-- The same, with the work not yet run when `bottomhalf_exit` returns. -/
def workLeft : List (Component.Action Action) :=
  workInTime.filter fun a =>
    match a with
    | .step _ .workStart | .step _ .workEnd => false
    | _ => true

theorem bottomhalf_work_left :
    ∃ s, (driver .bottomhalf .noRequestArray).component.system.Reachable s ∧
      ¬ ∀ l ∈ s, l.WorkDone := by
  have ends : ((driver .bottomhalf .noRequestArray).component.system.run [] workLeft).map
      (fun s => s.map fun l => (l.phase.idle, l.work)) =
      some [(true, ⟨true, false⟩)] := by decide
  obtain ⟨s, ran, same⟩ := Option.map_eq_some_iff.1 ends
  refine ⟨s, ⟨[], workLeft, rfl, ran⟩, ?_⟩
  intro done
  obtain ⟨l, rfl, at_⟩ := List.map_eq_singleton_iff.1 same
  simp only [Prod.mk.injEq] at at_
  obtain ⟨idle, work⟩ := at_
  have none := done l List.mem_cons_self idle
  rw [work] at none
  cases none.1

end Lkmpg.Buttons
