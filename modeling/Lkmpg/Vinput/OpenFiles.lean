/-
# Lkmpg.Vinput.OpenFiles -- when an open file outlives its device

`vinput_open` stores the device in `private_data` and takes no reference to it, so a
removal does not wait for the file.  `vinput_open_files_iff`: a run keeps the devices
of its open files exactly when it removes none of them.
-/
import Lkmpg.Vinput.Ownership

namespace Lkmpg.Vinput

open Lkmpg.Kernel Lkmpg.Theory

set_option autoImplicit false
set_option linter.unusedSectionVars false

variable {D F : Type} [DecidableEq D] [DecidableEq F] {types : D → VinputDevice}

/-- The device of every open file is in `vinput_vdevices`, and not freed. -/
def FilesLive (s : State D F) : Prop :=
  ∀ f x, s.files f = some x →
    x.privateData ∈ s.vinputVdevices ∧ s.vinputs.Live x.privateData

/-- A removal is not of a device some file has open. -/
def RemovesNoOpen (s : State D F) : Action D F → Prop
  | .unexportStore buf => ∀ id, kstrtol buf = .ok id →
      ∀ f x, s.files f = some x → ((s.vinput x.privateData).id : Int) ≠ id
  | .vinputUnregister dev =>
      ∀ f x, s.files f = some x → (s.vinput x.privateData).type ≠ some dev
  | _ => True

theorem filesLive_iff {s : State D F} (wf : Wf s) :
    FilesLive s ↔ ∀ f x, s.files f = some x → x.privateData ∈ s.vinputVdevices :=
  ⟨fun live f x opened => (live f x opened).1, fun listed f x opened =>
    ⟨listed f x opened, wf.vinputs.live_of (listed f x opened) rfl⟩⟩

/-- A file gets a device from the list, and keeps it. -/
theorem fileStep_files {s t : State D F} {f : F} {a : FileAction}
    (next : fileStep types s f a = some t) {g : F} {x : File} (opened : t.files g = some x) :
    (∃ y, s.files g = some y ∧ y.privateData = x.privateData) ∨
      x.privateData ∈ s.vinputVdevices := by
  cases a with
  | vinputOpen minor =>
      simp only [fileStep, vinputOpen] at next
      split at next
      · cases next
      · split at next
        · cases next
          exact .inl ⟨x, opened, rfl⟩
        · rename_i v found
          cases next
          by_cases same : g = f
          · subst same
            simp only [Function.update_self, Option.some.injEq] at opened
            subst opened
            exact .inr (vinputGetVdeviceById_mem found).1
          · simp only [ne_eq, same, not_false_eq_true, Function.update_of_ne] at opened
            exact .inl ⟨x, opened, rfl⟩
  | vinputRead count copied =>
      simp only [fileStep, vinputRead, Option.map_eq_some_iff, Option.bind_eq_some_iff] at next
      obtain ⟨done, ⟨y, before, d, -, returned⟩, rfl⟩ := next
      split at returned
      · cases returned
        exact .inl ⟨x, opened, rfl⟩
      · cases returned
        by_cases same : g = f
        · subst same
          simp only [Function.update_self, Option.some.injEq] at opened
          subst opened
          exact .inl ⟨y, before, rfl⟩
        · simp only [ne_eq, same, not_false_eq_true, Function.update_of_ne] at opened
          exact .inl ⟨x, opened, rfl⟩
  | vinputWrite buffer copied =>
      simp only [fileStep, vinputWrite, Option.map_eq_some_iff, Option.bind_eq_some_iff] at next
      obtain ⟨done, ⟨y, -, returned⟩, rfl⟩ := next
      split at returned
      · cases returned
        exact .inl ⟨x, opened, rfl⟩
      · split at returned
        · cases returned
          exact .inl ⟨x, opened, rfl⟩
        · simp only [Option.map_eq_some_iff] at returned
          obtain ⟨d, -, rfl⟩ := returned
          exact .inl ⟨x, opened, rfl⟩
  | vinputRelease =>
      simp only [fileStep] at next
      split at next <;> cases next
      by_cases same : g = f
      · simp [vinputRelease, same] at opened
      · simp only [vinputRelease, ne_eq, same, not_false_eq_true,
          Function.update_of_ne] at opened
        exact .inl ⟨x, opened, rfl⟩

theorem vinputGetVdeviceById_isOk {s : State D F} {v : Nat} (member : v ∈ s.vinputVdevices) :
    ∃ w, vinputGetVdeviceById s (s.vinput v).id = .ok w := by
  unfold vinputGetVdeviceById
  split
  · exact ⟨_, rfl⟩
  · rename_i search
    have other := List.find?_eq_none.1 search v member
    simp at other

/-- **`unexport_store`.**  The open files keep their devices when none has the id. -/
theorem unexportStore_files {s t : State D F} {buf : List UInt8} {ret : Int} (wf : Wf s)
    (live : FilesLive s) (returned : unexportStore types s buf = some (t, ret)) :
    (∀ f x, t.files f = some x → x.privateData ∈ t.vinputVdevices) ↔
      RemovesNoOpen s (.unexportStore buf) := by
  rcases unexportStore_cases wf returned with ⟨failed, rfl⟩ | ⟨v, i, d, found, -, -, rfl, -⟩
  · apply iff_of_true (fun f x opened => (live f x opened).1)
    intro id number f x opened same
    obtain ⟨w, found⟩ := vinputGetVdeviceById_isOk (live f x opened).1
    rw [same] at found
    simp [unexportFind, number, found] at failed
  · unfold unexportFind at found
    split at found
    · cases found
    · rename_i number
      obtain ⟨member, id⟩ := vinputGetVdeviceById_mem found
      constructor
      · intro kept id' number' f x opened same
        rw [number] at number'
        cases number'
        have left := kept f x opened
        apply (wf.nodup.mem_erase_iff.1 left).1
        exact wf.apart _ (live f x opened).1 v member (by rw [← id] at same; exact_mod_cast same)
      · intro noOpen f x opened
        refine wf.nodup.mem_erase_iff.2 ⟨?_, (live f x opened).1⟩
        intro same
        exact noOpen _ number f x opened (by rw [same, id])

/-- **`vinput_unregister`.**  The open files keep their devices when none has the
type. -/
theorem vinputUnregister_files {s t : State D F} {dev : D} (wf : Wf s) (live : FilesLive s)
    (returned : vinputUnregister types s dev = some t) :
    (∀ f x, t.files f = some x → x.privateData ∈ t.vinputVdevices) ↔
      RemovesNoOpen s (.vinputUnregister dev) := by
  obtain ⟨u, ran, -, files, -, list⟩ := vinputUnregister_spec types dev
    (I := fun u => u.files = s.files) (fun _ _ _ _ same _ _ => same) wf rfl
  rw [ran] at returned
  cases returned
  have kept : ∀ x, x ∈ t.vinputVdevices ↔
      x ∈ s.vinputVdevices ∧ (s.vinput x).type ≠ some dev := by
    intro x
    rw [list, List.mem_filter, decide_eq_true_iff]
  simp only [RemovesNoOpen, files, kept]
  exact ⟨fun all f x opened => (all f x opened).2,
    fun all f x opened => ⟨(live f x opened).1, all f x opened⟩⟩

theorem step_files {s t : State D F} {a : Action D F} (wf : Wf s) (live : FilesLive s)
    (next : step types s a = some t) : FilesLive t ↔ RemovesNoOpen s a := by
  rw [filesLive_iff (step_wf wf next)]
  cases a with
  | vinputRegister dev =>
      simp only [step] at next
      split at next <;> cases next
      exact iff_of_true (fun f x opened => (live f x opened).1) trivial
  | vinputUnregister dev =>
      simp only [step] at next
      split at next
      · exact vinputUnregister_files wf live next
      · cases next
  | exportStore buf o =>
      cases next
      refine iff_of_true ?_ trivial
      intro f x opened
      have exported := exportStore_exported types s buf o
      generalize exportStore types s buf o = r at exported opened
      cases exported with
      | done type memory id input =>
          exact List.mem_cons_of_mem _ (live f x opened).1
      | _ => exact (live f x opened).1
  | unexportStore buf =>
      simp only [step, Option.map_eq_some_iff] at next
      obtain ⟨⟨u, ret⟩, returned, rfl⟩ := next
      exact unexportStore_files wf live returned
  | file f a =>
      refine iff_of_true ?_ trivial
      intro g x opened
      rw [(fileStep_same next).list]
      rcases fileStep_files next opened with ⟨y, before, same⟩ | listed
      · rw [← same]
        exact (live g y before).1
      · exact listed

/-- **When open files keep their devices.**  Along every run the device of every open
file is in the list and alive if and only if no removal is of a device some file has
open. -/
theorem vinput_open_files_iff (as : List (Action D F)) :
    (system types).Always FilesLive .init as ↔ (system types).Meets RemovesNoOpen .init as :=
  System.always_iff_meets (I := Wf) (fun s a t => step_wf) (fun s a t => step_files) .init
    fun f x opened => by simp [State.init] at opened

/-- A keyboard is exported, opened, and removed while it is open. -/
def removedWhileOpen : List (Action Unit Unit) :=
  [.vinputRegister (), .exportStore (text "vkbd\n") granted, .file () (.vinputOpen 0),
    .unexportStore (text "0\n")]

/-- The file is open on a device that is destroyed, and a read of it goes ahead. -/
theorem vinput_open_files_stale : ∃ s,
    (system fun _ => vkbdDev).run .init removedWhileOpen = some s ∧ s.files () = some ⟨0, 0⟩ ∧
      s.vinputVdevices = [] ∧ s.destroyed = [0] ∧
      (vinputRead (fun _ => vkbdDev) s () 4 true).isSome ∧ ¬ FilesLive s := by
  have ends : ((system fun _ => vkbdDev).run .init removedWhileOpen).map (fun s =>
      (s.files (), s.vinputVdevices, s.destroyed,
        (vinputRead (fun _ => vkbdDev) s () 4 true).isSome)) =
      some (some ⟨0, 0⟩, [], [0], true) := by decide
  obtain ⟨s, ran, same⟩ := Option.map_eq_some_iff.1 ends
  simp only [Prod.mk.injEq] at same
  obtain ⟨opened, list, destroyed, read⟩ := same
  refine ⟨s, ran, opened, list, destroyed, read, ?_⟩
  intro live
  have listed := (live () _ opened).1
  rw [list] at listed
  cases listed

end Lkmpg.Vinput
