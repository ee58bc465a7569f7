/-
# Lkmpg.Vinput.Ids -- when the ids of vinput.c come back

Every way out of a call gives its id back but one: `fail_input_dev` takes the
`vinput` off the list and does not clear its bit, as `vinput_destroy_vdevice` does.
No later call can, since no device has the id, so a run keeps its ids in order
exactly when no `export_store` takes that way out (`vinput_ids_iff`).
-/
import Lkmpg.Vinput.Ownership

namespace Lkmpg.Vinput

open Lkmpg.Kernel Lkmpg.Theory

set_option autoImplicit false
set_option linter.unusedSectionVars false

variable {D F : Type} [DecidableEq D] [DecidableEq F] {types : D → VinputDevice}

/-- Every id taken is the id of a device. -/
def NoLeak (s : State D F) : Prop :=
  ∀ i, s.vinputIds i = true → ∃ v ∈ s.vinputVdevices, (s.vinput v).id = i

/-- No id is lost, so `export_store` runs out of ids only with `VINPUT_MINORS` devices.
The kernel and `ops->init` may also answer `-ENOBUFS`; those answers are not meant. -/
def IdsInOrder (types : D → VinputDevice) (s : State D F) : Prop :=
  NoLeak s ∧ ∀ buf o, o.deviceRegister ≠ -ENOBUFS → o.init ≠ -ENOBUFS →
    (exportStore types s buf o).2 = -ENOBUFS → s.vinputVdevices.length = VINPUT_MINORS

/-- With every id taken and none lost there are as many devices as ids. -/
theorem full_length {s : State D F} (wf : Wf s) (kept : NoLeak s)
    (full : VINPUT_MINORS ≤ nextId s) : s.vinputVdevices.length = VINPUT_MINORS := by
  have distinct := wf.ownership.distinct
  have below : (s.vinputVdevices.map fun v => (s.vinput v).id) ⊆ List.range VINPUT_MINORS := by
    intro i member
    obtain ⟨v, inList, rfl⟩ := List.mem_map.1 member
    exact List.mem_range.2 (wf.minor v inList)
  have above : List.range VINPUT_MINORS ⊆ s.vinputVdevices.map fun v => (s.vinput v).id := by
    intro i member
    have taken := findFirstZeroBit_full full (List.mem_range.1 member)
    obtain ⟨v, inList, id⟩ := kept i taken
    exact List.mem_map.2 ⟨v, inList, id⟩
  have most := distinct.length_le_of_subset below
  have least := List.nodup_range.length_le_of_subset above
  rw [List.length_map, List.length_range] at most least
  omega

theorem idsInOrder_iff {s : State D F} (wf : Wf s) : IdsInOrder types s ↔ NoLeak s := by
  refine ⟨fun order => order.1, fun kept => ⟨kept, ?_⟩⟩
  intro buf o register init ret
  have exported := exportStore_exported types s buf o
  generalize exportStore types s buf o = r at exported ret
  cases exported with
  | noType absent => cases ret
  | noMemory type memory => cases ret
  | noId type memory full => exact full_length wf kept full
  | noInput type memory id input => cases ret
  | failed type memory id input negative refused =>
      rcases refused with rfl | rfl
      · exact absurd ret register
      · exact absurd ret init
  | done type memory id input =>
      simp only [ENOBUFS] at ret
      omega

/-- `input_allocate_device` does not fail in an `export_store` that gets to it. -/
def InputGranted (types : D → VinputDevice) (s : State D F) : Action D F → Prop
  | .exportStore buf o => (∃ d, vinputGetDeviceByType types s buf = .ok d) →
      o.kzalloc = true → nextId s < VINPUT_MINORS → o.inputAllocateDevice = true
  | _ => True

theorem NoLeak.removed {s : State D F} {v i : Nat} {d : D} (wf : Wf s) (kept : NoLeak s) :
    NoLeak (removed types s v i d) := by
  intro j set
  by_cases same : j = (s.vinput v).id
  · simp [Vinput.removed, same] at set
  · simp only [Vinput.removed, ne_eq, same, not_false_eq_true, Function.update_of_ne] at set
    obtain ⟨w, member, id⟩ := kept j set
    refine ⟨w, wf.nodup.mem_erase_iff.2 ⟨fun eq => same ?_, member⟩, id⟩
    rw [← id, eq]

/-- **One `export_store`.**  It loses an id when `input_allocate_device` fails in it,
and only then. -/
theorem exported_noLeak {s : State D F} {buf : List UInt8} {o : Answers} (wf : Wf s)
    (kept : NoLeak s) :
    NoLeak (exportStore types s buf o).1 ↔ InputGranted types s (.exportStore buf o) := by
  have fresh : ∀ v ∈ s.vinputVdevices, v ≠ s.vinputs.next :=
    fun v member same => wf.next_not_mem (same ▸ member)
  have same : ∀ t : State D F, t.vinputIds = s.vinputIds → t.vinputVdevices = s.vinputVdevices →
      (∀ v ∈ s.vinputVdevices, t.vinput v = s.vinput v) → NoLeak t := by
    intro t ids list contents i set
    rw [ids] at set
    obtain ⟨v, member, id⟩ := kept i set
    exact ⟨v, by rwa [list], by rwa [contents v member]⟩
  have exported := exportStore_exported types s buf o
  generalize exportStore types s buf o = r at exported
  cases exported with
  | noType absent =>
      apply iff_of_true kept
      rintro ⟨d, found⟩
      rw [absent] at found
      cases found
  | noMemory type memory =>
      apply iff_of_true kept
      intro _ granted
      rw [memory] at granted
      cases granted
  | noId type memory full =>
      refine iff_of_true (same _ rfl rfl ?_) ?_
      · intro v member
        simp [spent, fresh v member]
      · intro _ _ below
        exact absurd below (Nat.not_lt_of_le full)
  | noInput type memory id input =>
      refine iff_of_false ?_ ?_
      · intro kept'
        obtain ⟨v, member, eq⟩ := kept' (nextId s) (by simp)
        have taken := wf.taken v member
        simp only [spent, ne_eq, fresh v member, not_false_eq_true, Function.update_of_ne] at eq
        rw [eq] at taken
        exact absurd (findFirstZeroBit_clear id) (by rw [nextId] at taken; simp [taken])
      · intro granted
        have asked := granted ⟨_, type⟩ memory id
        rw [input] at asked
        cases asked
  | failed type memory id input negative refused =>
      refine iff_of_true (same _ rfl rfl ?_) fun _ _ _ => input
      intro v member
      simp [undone, spent, fresh v member]
  | done type memory id input =>
      refine iff_of_true ?_ fun _ _ _ => input
      intro i set
      by_cases new : i = nextId s
      · exact ⟨s.vinputs.next, List.mem_cons_self, by simp [added, Vinput.fresh, new]⟩
      · simp only [added, ne_eq, new, not_false_eq_true, Function.update_of_ne] at set
        obtain ⟨v, member, eq⟩ := kept i set
        exact ⟨v, List.mem_cons_of_mem _ member, by simp [added, fresh v member, eq]⟩

theorem step_noLeak {s t : State D F} {a : Action D F} (wf : Wf s) (kept : NoLeak s)
    (next : step types s a = some t) : NoLeak t ↔ InputGranted types s a := by
  cases a with
  | vinputRegister dev =>
      simp only [step] at next
      split at next <;> cases next
      exact iff_of_true kept trivial
  | vinputUnregister dev =>
      simp only [step] at next
      split at next
      · obtain ⟨u, ran, -, keptU, -⟩ := vinputUnregister_spec types dev (I := NoLeak)
          (fun _ _ _ wf kept _ _ => kept.removed wf) wf kept
        rw [ran] at next
        cases next
        exact iff_of_true keptU trivial
      · cases next
  | exportStore buf o =>
      cases next
      exact exported_noLeak wf kept
  | unexportStore buf =>
      simp only [step, Option.map_eq_some_iff] at next
      obtain ⟨⟨u, ret⟩, returned, rfl⟩ := next
      refine iff_of_true ?_ trivial
      rcases unexportStore_cases wf returned with ⟨-, rfl⟩ | ⟨v, i, d, -, -, -, rfl, -⟩
      · exact kept
      · exact kept.removed wf
  | file f a =>
      obtain ⟨ids, -, list, -, -, contents⟩ := fileStep_same next
      refine iff_of_true ?_ trivial
      intro i set
      rw [ids] at set
      obtain ⟨v, member, id⟩ := kept i set
      exact ⟨v, by rwa [list], by rw [(contents v).1, id]⟩

/-- **When ids are lost.**  Along every run the ids stay in order if and only if
`input_allocate_device` fails in no `export_store`. -/
theorem vinput_ids_iff (as : List (Action D F)) :
    (system types).Always (IdsInOrder types) .init as ↔
      (system types).Meets (InputGranted types) .init as := by
  refine System.always_iff_meets (I := Wf) (fun s a t => step_wf) ?_
    .init ((idsInOrder_iff .init).2 fun i set => by simp [State.init] at set)
  intro s a t wf order next
  rw [idsInOrder_iff (step_wf wf next)]
  exact step_noLeak wf order.1 next

/-- `VINPUT_MINORS` exports for which there is no input device. -/
def refused : List (Action Unit Unit) :=
  .vinputRegister () :: List.replicate VINPUT_MINORS
    (.exportStore (text "vkbd\n") { granted with inputAllocateDevice := false })

set_option maxRecDepth 4000 in
/-- Every id is gone without a device to show for it. -/
theorem vinput_ids_lost : ∃ s, (system fun _ => vkbdDev).run .init refused = some s ∧
    s.vinputVdevices = [] ∧ s.vinputIds 0 = true ∧
      (exportStore (fun _ => vkbdDev) s (text "vkbd\n") granted).2 = -ENOBUFS ∧
      ¬ IdsInOrder (fun _ => vkbdDev) s := by
  have ends : ((system fun _ => vkbdDev).run .init refused).map (fun s =>
      (s.vinputVdevices, s.vinputIds 0,
        (exportStore (fun _ => vkbdDev) s (text "vkbd\n") granted).2)) =
      some ([], true, -ENOBUFS) := by decide
  obtain ⟨s, ran, same⟩ := Option.map_eq_some_iff.1 ends
  simp only [Prod.mk.injEq] at same
  obtain ⟨list, taken, ret⟩ := same
  refine ⟨s, ran, list, taken, ret, ?_⟩
  intro order
  obtain ⟨v, member, -⟩ := order.1 0 taken
  rw [list] at member
  cases member

end Lkmpg.Vinput
