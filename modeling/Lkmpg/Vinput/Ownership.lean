/-
# Lkmpg.Vinput.Ownership -- every vinput and input device has one owner

What `Wf` says about the two arenas, in the words of the driver: nothing is freed
twice, nothing live is off the list, and a failed `export_store` leaves nothing
behind (`exported_clean`).
-/
import Lkmpg.Vinput.Vkbd
import Lkmpg.Vinput.Wellformed

namespace Lkmpg.Vinput

open Lkmpg.Kernel Lkmpg.Theory

set_option autoImplicit false
set_option linter.unusedSectionVars false

variable {D F : Type} [DecidableEq D] [DecidableEq F] {types : D → VinputDevice}

/-- The objects of the driver and their owners, the entries of `vinput_vdevices`. -/
structure Ownership (s : State D F) : Prop where
  distinct : (s.vinputVdevices.map fun v => (s.vinput v).id).Nodup
  minor : ∀ v ∈ s.vinputVdevices,
    (s.vinput v).id < VINPUT_MINORS ∧ s.vinputIds (s.vinput v).id = true
  input : ∀ v ∈ s.vinputVdevices, ∃ i, (s.vinput v).input = some i ∧ s.inputs.Live i
  inputOwner : ∀ i, s.inputs.Live i → ∃! v, v ∈ s.vinputVdevices ∧ (s.vinput v).input = some i
  vinputOwner : ∀ v, s.vinputs.Live v ↔ s.vinputVdevices.count v = 1
  /-- The last argument of `kfree` is never one before. -/
  vinputOnce : s.vinputs.released.Nodup
  /-- The same of `input_free_device` and `input_unregister_device` together. -/
  inputOnce : s.inputs.released.Nodup

theorem Wf.ownership {s : State D F} (wf : Wf s) : Ownership s where
  distinct := wf.nodup.map_on wf.apart
  minor v member := ⟨wf.minor v member, wf.taken v member⟩
  input := wf.inputs.live
  inputOwner i live := by
    obtain ⟨v, member, holds⟩ := wf.inputs.owned i live
    refine ⟨v, ⟨member, holds⟩, ?_⟩
    intro w owner
    exact wf.inputs.apart w owner.1 v member (by rw [owner.2, holds])
  vinputOwner v := by
    constructor
    · intro live
      obtain ⟨w, member, holds⟩ := wf.vinputs.owned v live
      cases holds
      exact List.count_eq_one_of_mem wf.nodup member
    · intro once
      exact wf.vinputs.live_of (List.count_pos_iff.1 (by omega)) rfl
  vinputOnce := wf.vinputs.sound.once
  inputOnce := wf.inputs.sound.once

/-- A failed `export_store` leaves no device, no `vinput` and no input device. -/
theorem exported_clean {s : State D F} (wf : Wf s) {buf : List UInt8} {o : Answers}
    {r : State D F × Int} (exported : Exported types s buf o r) (failed : r.2 < 0) :
    r.1.vinputVdevices = s.vinputVdevices ∧ (∀ v, r.1.vinputs.Live v ↔ s.vinputs.Live v) ∧
      ∀ i, r.1.inputs.Live i ↔ s.inputs.Live i := by
  have vinputs : ∀ v, s.vinputs.spend.Live v ↔ s.vinputs.Live v :=
    fun v => wf.vinputs.sound.live_spend
  have inputs : ∀ i, s.inputs.spend.Live i ↔ s.inputs.Live i :=
    fun i => wf.inputs.sound.live_spend
  cases exported with
  | noType absent => exact ⟨rfl, fun _ => .rfl, fun _ => .rfl⟩
  | noMemory type memory => exact ⟨rfl, fun _ => .rfl, fun _ => .rfl⟩
  | noId type memory full => exact ⟨rfl, vinputs, fun _ => .rfl⟩
  | noInput type memory id input => exact ⟨rfl, vinputs, fun _ => .rfl⟩
  | failed type memory id input negative refused => exact ⟨rfl, vinputs, inputs⟩
  | done type memory id input => exact absurd failed (by simp)

/-- No call stops at a NULL or poisoned pointer. -/
theorem calls_return {s : State D F} (reached : (system types).Reachable s) :
    (∀ buf, (unexportStore types s buf).isSome) ∧ ∀ dev, (vinputUnregister types s dev).isSome := by
  have wf := reachable_wf reached
  constructor
  · intro buf
    unfold unexportStore
    split
    · rfl
    · rename_i v found
      obtain ⟨i, d, -, -, torn, -⟩ := wf.teardown types (unexportFind_mem found)
      obtain ⟨u, unregistered, -⟩ := Option.map_eq_some_iff.1 torn
      simp [unregistered]
  · intro dev
    obtain ⟨t, returned, -⟩ := vinputUnregister_spec types dev (I := fun _ => True)
      (fun _ _ _ _ _ _ _ => trivial) wf trivial
    simp [returned]

/-- **Every object has its owner.**  In every reachable state the ownership is in
order, and an `export_store` that fails there leaves nothing new alive. -/
theorem vinput_ownership {s : State D F} (reached : (system types).Reachable s) :
    Ownership s ∧ ∀ buf o, (exportStore types s buf o).2 < 0 →
      (exportStore types s buf o).1.vinputVdevices = s.vinputVdevices ∧
        (∀ v, (exportStore types s buf o).1.vinputs.Live v ↔ s.vinputs.Live v) ∧
        ∀ i, (exportStore types s buf o).1.inputs.Live i ↔ s.inputs.Live i := by
  have wf := reachable_wf reached
  refine ⟨wf.ownership, ?_⟩
  intro buf o failed
  exact exported_clean wf (exportStore_exported types s buf o) failed

/-- What the kernel answers when nothing fails. -/
def granted : Answers := ⟨true, true, 0, 0⟩

/-- One keyboard is exported, and a second export fails. -/
def oneKeyboard : List (Action Unit Unit) :=
  [.vinputRegister (), .exportStore (text "vkbd\n") granted,
    .exportStore (text "vkbd\n") { granted with init := -ENOMEM }]

theorem vinput_ownership_keyboard : ∃ s : State Unit Unit,
    (system fun _ => vkbdDev).Reachable s ∧ s.vinputVdevices = [0] ∧ Ownership s := by
  have ends : ((system fun _ => vkbdDev).run (.init : State Unit Unit) oneKeyboard).map
      (fun s => s.vinputVdevices) = some [0] := by decide
  obtain ⟨s, ran, list⟩ := Option.map_eq_some_iff.1 ends
  have reached : (system fun _ => vkbdDev).Reachable s := ⟨_, oneKeyboard, rfl, ran⟩
  exact ⟨s, reached, list, (vinput_ownership reached).1⟩

end Lkmpg.Vinput
