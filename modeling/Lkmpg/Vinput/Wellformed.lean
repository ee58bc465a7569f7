/-
# Lkmpg.Vinput.Wellformed -- the invariant of the calls, and their sequences

`Wf`: the devices in `vinput_vdevices` own the live `vinput`s and input devices, have
a type, and have ids of their own.  With it the loop of `vinput_unregister` finds
each of its next pointers in place (`unregisterLoop_spec`), and every sequence of
calls keeps it (`reachable_wf`).
-/
import Lkmpg.Vinput.Calls
import Lkmpg.Theory.System

namespace Lkmpg.Vinput

open Lkmpg.Kernel Lkmpg.Theory

set_option autoImplicit false
set_option linter.unusedSectionVars false

variable {D F : Type} [DecidableEq D] [DecidableEq F] {types : D → VinputDevice}

structure Wf (s : State D F) : Prop where
  nodup : s.vinputVdevices.Nodup
  vinputs : Owns s.vinputs s.vinputVdevices some
  inputs : Owns s.inputs s.vinputVdevices fun v => (s.vinput v).input
  minor : ∀ v ∈ s.vinputVdevices, (s.vinput v).id < VINPUT_MINORS
  taken : ∀ v ∈ s.vinputVdevices, s.vinputIds (s.vinput v).id = true
  apart : ∀ v ∈ s.vinputVdevices, ∀ w ∈ s.vinputVdevices,
    (s.vinput v).id = (s.vinput w).id → v = w
  typed : ∀ v ∈ s.vinputVdevices, (s.vinput v).type.isSome

namespace Wf

variable {s : State D F}

theorem init : Wf (State.init : State D F) where
  nodup := List.nodup_nil
  vinputs := .nil
  inputs := .nil
  minor := by simp [State.init]
  taken := by simp [State.init]
  apart := by simp [State.init]
  typed := by simp [State.init]

theorem below (wf : Wf s) {v : Nat} (member : v ∈ s.vinputVdevices) : v < s.vinputs.next :=
  (wf.vinputs.live_of member rfl).1

theorem next_not_mem (wf : Wf s) : s.vinputs.next ∉ s.vinputVdevices :=
  fun member => Nat.lt_irrefl _ (wf.below member)

/-- The invariant reads the list, the arenas, the bitmap and, of the devices in the
list, what they are set up with. -/
theorem frame (wf : Wf s) {t : State D F} (list : t.vinputVdevices = s.vinputVdevices)
    (vinputs : t.vinputs = s.vinputs ∨ t.vinputs = s.vinputs.spend)
    (inputs : t.inputs = s.inputs ∨ t.inputs = s.inputs.spend)
    (ids : ∀ i, s.vinputIds i = true → t.vinputIds i = true)
    (same : ∀ v ∈ s.vinputVdevices, (t.vinput v).id = (s.vinput v).id ∧
      (t.vinput v).input = (s.vinput v).input ∧ (t.vinput v).type = (s.vinput v).type) :
    Wf t where
  nodup := by
    rw [list]
    exact wf.nodup
  vinputs := by
    rw [list]
    rcases vinputs with eq | eq <;> rw [eq]
    · exact wf.vinputs
    · exact wf.vinputs.spend
  inputs := by
    rw [list]
    have owns : Owns s.inputs s.vinputVdevices fun v => (t.vinput v).input :=
      wf.inputs.congr fun v member => (same v member).2.1
    rcases inputs with eq | eq <;> rw [eq]
    · exact owns
    · exact owns.spend
  minor v member := by
    rw [list] at member
    rw [(same v member).1]
    exact wf.minor v member
  taken v member := by
    rw [list] at member
    rw [(same v member).1]
    exact ids _ (wf.taken v member)
  apart v memberV w memberW eq := by
    rw [list] at memberV memberW
    rw [(same v memberV).1, (same w memberW).1] at eq
    exact wf.apart v memberV w memberW eq
  typed v member := by
    rw [list] at member
    rw [(same v member).2.2]
    exact wf.typed v member

theorem added (wf : Wf s) (id : nextId s < VINPUT_MINORS) (device : D) :
    Wf (added s (some device)) := by
  have clear : s.vinputIds (nextId s) = false := findFirstZeroBit_clear id
  have old : ∀ v ∈ s.vinputVdevices, v ≠ s.vinputs.next :=
    fun v member same => wf.next_not_mem (same ▸ member)
  have other : ∀ v ∈ s.vinputVdevices, (s.vinput v).id ≠ nextId s := by
    intro v member same
    have taken := wf.taken v member
    rw [same, clear] at taken
    cases taken
  refine ⟨List.nodup_cons.2 ⟨wf.next_not_mem, wf.nodup⟩, wf.vinputs.cons rfl, ?_, ?_, ?_, ?_, ?_⟩
  · refine Owns.cons (wf.inputs.congr ?_) ?_
    · intro v member
      simp [Vinput.added, old v member]
    · simp [Vinput.added, fresh]
  · intro v member
    rcases List.mem_cons.1 member with rfl | member
    · simpa [Vinput.added, fresh] using id
    · simpa [Vinput.added, old v member] using wf.minor v member
  · intro v member
    rcases List.mem_cons.1 member with rfl | member
    · simp [Vinput.added, fresh]
    · simpa [Vinput.added, old v member, other v member] using wf.taken v member
  · intro v memberV w memberW same
    rcases List.mem_cons.1 memberV with rfl | memberV <;>
      rcases List.mem_cons.1 memberW with rfl | memberW
    · rfl
    · simp only [Vinput.added, fresh, Function.update_self, ne_eq, old w memberW,
        not_false_eq_true, Function.update_of_ne] at same
      exact absurd same.symm (other w memberW)
    · simp only [Vinput.added, fresh, Function.update_self, ne_eq, old v memberV,
        not_false_eq_true, Function.update_of_ne] at same
      exact absurd same (other v memberV)
    · simp only [Vinput.added, ne_eq, old v memberV, old w memberW, not_false_eq_true,
        Function.update_of_ne] at same
      exact wf.apart v memberV w memberW same
  · intro v member
    rcases List.mem_cons.1 member with rfl | member
    · simp [Vinput.added, fresh]
    · simpa [Vinput.added, old v member] using wf.typed v member

theorem removed (wf : Wf s) {v i : Nat} {d : D} (member : v ∈ s.vinputVdevices)
    (input : (s.vinput v).input = some i) : Wf (removed types s v i d) where
  nodup := wf.nodup.erase v
  vinputs := wf.vinputs.erase wf.nodup member rfl
  inputs := wf.inputs.erase wf.nodup member input
  minor w kept := wf.minor w (List.mem_of_mem_erase kept)
  taken w kept := by
    obtain ⟨ne, old⟩ := wf.nodup.mem_erase_iff.1 kept
    have other : (s.vinput w).id ≠ (s.vinput v).id := fun same => ne (wf.apart w old v member same)
    simpa [Vinput.removed, other] using wf.taken w old
  apart w keptW x keptX same :=
    wf.apart w (List.mem_of_mem_erase keptW) x (List.mem_of_mem_erase keptX) same
  typed w kept := wf.typed w (List.mem_of_mem_erase kept)

/-- A device in the list can be torn down. -/
theorem teardown (types : D → VinputDevice) (wf : Wf s) {v : Nat} (member : v ∈ s.vinputVdevices) :
    ∃ i d, (s.vinput v).input = some i ∧ (s.vinput v).type = some d ∧
      teardown types s v = some (Vinput.removed types s v i d) ∧
      Wf (Vinput.removed types s v i d) := by
  obtain ⟨i, input, -⟩ := wf.inputs.live v member
  obtain ⟨d, type⟩ := Option.isSome_iff_exists.1 (wf.typed v member)
  exact ⟨i, d, input, type, teardown_eq input type, wf.removed member input⟩

end Wf

/-! ## The loop of vinput_unregister -/

/-- From the node after `pre` the loop goes through `rest`: it tears down the devices
of the type and passes by the others. -/
theorem unregisterLoop_spec (types : D → VinputDevice) (dev : D) {I : State D F → Prop}
    (keep : ∀ s v i, Wf s → I s → v ∈ s.vinputVdevices → (s.vinput v).type = some dev →
      I (removed types s v i dev)) :
    ∀ (rest pre : List Nat) (fuel : Nat) (s : State D F), rest.length ≤ fuel → Wf s → I s →
      s.vinputVdevices = pre ++ rest →
      ∃ t, unregisterLoop types dev fuel (firstLink rest) s = some t ∧ Wf t ∧ I t ∧
        t.vinput = s.vinput ∧ t.vinputVdevices =
          pre ++ rest.filter fun v => decide ((s.vinput v).type ≠ some dev) := by
  intro rest
  induction rest with
  | nil =>
      intro pre fuel s _ wf holds list
      exact ⟨s, by simp [firstLink, unregisterLoop], wf, holds, rfl, by simpa using list⟩
  | cons v rest ih =>
      intro pre fuel s enough wf holds list
      obtain ⟨fuel, rfl⟩ : ∃ n, fuel = n + 1 := ⟨fuel - 1, by simp at enough; omega⟩
      have member : v ∈ s.vinputVdevices := by simp [list]
      have nodup := wf.nodup
      rw [list] at nodup
      have absent : v ∉ pre := fun inPre =>
        (List.nodup_append.1 nodup).2.2 v inPre v List.mem_cons_self rfl
      have next : nextLink s.vinputVdevices v = firstLink rest := by
        rw [list, nextLink_append absent]
      have enough' : rest.length ≤ fuel := by simpa using enough
      by_cases type : (s.vinput v).type = some dev
      · obtain ⟨i, d, -, type', torn, wf'⟩ := wf.teardown types member
        obtain rfl : dev = d := Option.some.inj (type.symm.trans type')
        have list' : (removed types s v i dev).vinputVdevices = pre ++ rest := by
          simp [removed, list, List.erase_append_right _ absent]
        obtain ⟨t, ran, wfT, holdsT, same, listT⟩ :=
          ih pre fuel (removed types s v i dev) enough' wf'
            (keep s v i wf holds member type) list'
        refine ⟨t, ?_, wfT, holdsT, same, ?_⟩
        · obtain ⟨s', unregistered, left⟩ := Option.map_eq_some_iff.1 torn
          simp only [firstLink, unregisterLoop, next, type, if_true, unregistered,
            Option.bind_some, left]
          exact ran
        · rw [listT, List.filter_cons_of_neg (by simp [type])]
          rfl
      · have list' : s.vinputVdevices = (pre ++ [v]) ++ rest := by simp [list]
        obtain ⟨t, ran, wfT, holdsT, same, listT⟩ := ih (pre ++ [v]) fuel s enough' wf holds list'
        refine ⟨t, ?_, wfT, holdsT, same, ?_⟩
        · simp only [firstLink, unregisterLoop, next, type, if_false]
          exact ran
        · rw [listT, List.filter_cons_of_pos (by simp [type]), List.append_assoc]
          rfl

/-- `vinput_unregister` returns, with the devices of the type taken off the list and
nothing done to the others. -/
theorem vinputUnregister_spec (types : D → VinputDevice) (dev : D) {I : State D F → Prop}
    (keep : ∀ s v i, Wf s → I s → v ∈ s.vinputVdevices → (s.vinput v).type = some dev →
      I (removed types s v i dev)) {s : State D F} (wf : Wf s)
    (holds : I (removeType s dev)) :
    ∃ t, vinputUnregister types s dev = some t ∧ Wf t ∧ I t ∧ t.vinput = s.vinput ∧
      t.vinputVdevices =
        s.vinputVdevices.filter fun v => decide ((s.vinput v).type ≠ some dev) := by
  have wf' : Wf (removeType s dev) :=
    wf.frame rfl (.inl rfl) (.inl rfl) (fun _ set => set) fun _ _ => ⟨rfl, rfl, rfl⟩
  exact unregisterLoop_spec types dev keep s.vinputVdevices [] _ _ (Nat.le_refl _) wf' holds rfl

/-! ## Sequences of calls -/

inductive FileAction where
  | vinputOpen (minor : Nat)
  | vinputRead (count : Nat) (copied : Bool)
  | vinputWrite (buffer : List UInt8) (copied : Bool)
  | vinputRelease

inductive Action (D F : Type) where
  | vinputRegister (dev : D)
  | vinputUnregister (dev : D)
  | exportStore (buf : List UInt8) (o : Answers)
  | unexportStore (buf : List UInt8)
  | file (f : F) (a : FileAction)

/-- The calls on a file are made while it is open, and `vinput_release` once. -/
def fileStep (types : D → VinputDevice) (s : State D F) (f : F) :
    FileAction → Option (State D F)
  | .vinputOpen minor => if (s.files f).isSome then none else some (vinputOpen s f minor).1
  | .vinputRead count copied => (vinputRead types s f count copied).map fun done => done.1
  | .vinputWrite buffer copied => (vinputWrite types s f buffer copied).map fun done => done.1
  | .vinputRelease => if (s.files f).isSome then some (vinputRelease s f) else none

/-- A module registers its type once, and unregisters it when it is registered. -/
def step (types : D → VinputDevice) (s : State D F) : Action D F → Option (State D F)
  | .vinputRegister dev => if dev ∈ s.vinputDevices then none else some (vinputRegister s dev)
  | .vinputUnregister dev => if dev ∈ s.vinputDevices then vinputUnregister types s dev else none
  | .exportStore buf o => some (exportStore types s buf o).1
  | .unexportStore buf => (unexportStore types s buf).map fun done => done.1
  | .file f a => fileStep types s f a

def system (types : D → VinputDevice) : System (State D F) (Action D F) where
  Start s := s = .init
  step := step types

/-- What the calls on files leave alone. -/
structure SameDevices (s t : State D F) : Prop where
  ids : t.vinputIds = s.vinputIds
  devices : t.vinputDevices = s.vinputDevices
  list : t.vinputVdevices = s.vinputVdevices
  vinputs : t.vinputs = s.vinputs
  inputs : t.inputs = s.inputs
  contents : ∀ v, (t.vinput v).id = (s.vinput v).id ∧
    (t.vinput v).input = (s.vinput v).input ∧ (t.vinput v).type = (s.vinput v).type

theorem SameDevices.refl (s : State D F) : SameDevices s s :=
  ⟨rfl, rfl, rfl, rfl, rfl, fun _ => ⟨rfl, rfl, rfl⟩⟩

theorem fileStep_same {s t : State D F} {f : F} {a : FileAction}
    (next : fileStep types s f a = some t) : SameDevices s t := by
  cases a with
  | vinputOpen minor =>
      simp only [fileStep, vinputOpen] at next
      split at next
      · cases next
      · split at next <;> cases next <;> exact ⟨rfl, rfl, rfl, rfl, rfl, fun _ => ⟨rfl, rfl, rfl⟩⟩
  | vinputRead count copied =>
      simp only [fileStep, vinputRead, Option.map_eq_some_iff, Option.bind_eq_some_iff] at next
      obtain ⟨done, ⟨file, -, d, -, returned⟩, rfl⟩ := next
      split at returned <;> cases returned <;>
        exact ⟨rfl, rfl, rfl, rfl, rfl, fun _ => ⟨rfl, rfl, rfl⟩⟩
  | vinputWrite buffer copied =>
      simp only [fileStep, vinputWrite, Option.map_eq_some_iff, Option.bind_eq_some_iff] at next
      obtain ⟨done, ⟨file, -, returned⟩, rfl⟩ := next
      split at returned
      · cases returned
        exact .refl s
      · split at returned
        · cases returned
          exact .refl s
        · simp only [Option.map_eq_some_iff] at returned
          obtain ⟨d, -, rfl⟩ := returned
          refine ⟨rfl, rfl, rfl, rfl, rfl, ?_⟩
          intro v
          by_cases same : v = file.privateData
          · subst same
            simp [State.modify]
          · simp [State.modify, same]
  | vinputRelease =>
      simp only [fileStep] at next
      split at next <;> cases next
      exact ⟨rfl, rfl, rfl, rfl, rfl, fun _ => ⟨rfl, rfl, rfl⟩⟩

theorem Wf.same {s t : State D F} (wf : Wf s) (same : SameDevices s t) : Wf t :=
  wf.frame same.list (.inl same.vinputs) (.inl same.inputs)
    (fun i set => by rw [same.ids]; exact set) fun v _ => same.contents v

theorem vinputGetVdeviceById_mem {s : State D F} {id : Int} {v : Nat}
    (found : vinputGetVdeviceById s id = .ok v) :
    v ∈ s.vinputVdevices ∧ ((s.vinput v).id : Int) = id := by
  unfold vinputGetVdeviceById at found
  split at found
  · rename_i w search
    cases found
    exact ⟨List.mem_of_find?_eq_some search, by simpa using List.find?_some search⟩
  · cases found

theorem unexportFind_mem {s : State D F} {buf : List UInt8} {v : Nat}
    (found : unexportFind s buf = .ok v) : v ∈ s.vinputVdevices := by
  unfold unexportFind at found
  split at found
  · cases found
  · exact (vinputGetVdeviceById_mem found).1

/-- `unexport_store` returns an error and changes nothing, or tears down the device
its lookup finds. -/
theorem unexportStore_cases {s t : State D F} {buf : List UInt8} {ret : Int} (wf : Wf s)
    (returned : unexportStore types s buf = some (t, ret)) :
    (unexportFind s buf = .error ret ∧ t = s) ∨
      ∃ v i d, unexportFind s buf = .ok v ∧ v ∈ s.vinputVdevices ∧
        (s.vinput v).input = some i ∧ t = removed types s v i d ∧ ret = buf.length := by
  unfold unexportStore at returned
  split at returned
  · rename_i err failed
    cases returned
    exact .inl ⟨failed, rfl⟩
  · rename_i v found
    have member := unexportFind_mem found
    obtain ⟨i, d, input, -, torn, -⟩ := wf.teardown types member
    obtain ⟨u, unregistered, done⟩ := Option.map_eq_some_iff.1 returned
    cases done
    rw [teardown, unregistered] at torn
    exact .inr ⟨v, i, d, found, member, input, Option.some.inj torn, rfl⟩

theorem exported_wf {s : State D F} {buf : List UInt8} {o : Answers} {r : State D F × Int}
    (wf : Wf s) (exported : Exported types s buf o r) : Wf r.1 := by
  have fresh : ∀ v ∈ s.vinputVdevices, v ≠ s.vinputs.next :=
    fun v member same => wf.next_not_mem (same ▸ member)
  cases exported with
  | noType absent => exact wf
  | noMemory type memory => exact wf
  | noId type memory full =>
      refine wf.frame rfl (.inr rfl) (.inl rfl) (fun _ set => set) ?_
      intro v member
      simp [spent, fresh v member]
  | noInput type memory id input =>
      refine wf.frame rfl (.inr rfl) (.inl rfl) ?_ ?_
      · intro i set
        by_cases same : i = nextId s
        · simp [same]
        · simpa [same] using set
      · intro v member
        simp [spent, fresh v member]
  | failed type memory id input negative refused =>
      refine wf.frame rfl (.inr rfl) (.inr rfl) (fun _ set => set) ?_
      intro v member
      simp [undone, spent, fresh v member]
  | done type memory id input => exact wf.added id _

theorem step_wf {s t : State D F} {a : Action D F} (wf : Wf s)
    (next : step types s a = some t) : Wf t := by
  cases a with
  | vinputRegister dev =>
      simp only [step] at next
      split at next <;> cases next
      exact wf.frame rfl (.inl rfl) (.inl rfl) (fun _ set => set) fun _ _ => ⟨rfl, rfl, rfl⟩
  | vinputUnregister dev =>
      simp only [step] at next
      split at next
      · obtain ⟨u, ran, wfU, -⟩ := vinputUnregister_spec types dev (I := fun _ => True)
          (fun _ _ _ _ _ _ _ => trivial) wf trivial
        rw [ran] at next
        cases next
        exact wfU
      · cases next
  | exportStore buf o =>
      cases next
      exact exported_wf wf (exportStore_exported types s buf o)
  | unexportStore buf =>
      simp only [step, Option.map_eq_some_iff] at next
      obtain ⟨⟨u, ret⟩, returned, rfl⟩ := next
      rcases unexportStore_cases wf returned with ⟨-, rfl⟩ | ⟨v, i, d, -, member, input, rfl, -⟩
      · exact wf
      · exact wf.removed member input
  | file f a => exact wf.same (fileStep_same next)

/-- **Every sequence of calls keeps the driver well formed.** -/
theorem reachable_wf {s : State D F} (reached : (system types).Reachable s) : Wf s := by
  refine reached.induct ?_ fun s a t => step_wf
  rintro s rfl
  exact .init

end Lkmpg.Vinput
