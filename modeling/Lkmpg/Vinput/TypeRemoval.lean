/-
# Lkmpg.Vinput.TypeRemoval -- when a device outlives its type

`export_store` puts its `vinput` in the list before it writes its type, and
`vinput_unregister` takes the type off its list before it looks through the devices.
The loop removes a device of the type that it has not passed yet (`Pc.Pending`), so
what is left behind are the devices whose type is written after the loop has passed
them: `vinput_no_orphan`.
-/
import Lkmpg.Vinput.Ownership
import Lkmpg.Vinput.Threads
import Mathlib.Data.Fintype.Defs

namespace Lkmpg.Vinput

open Lkmpg.Kernel Lkmpg.Theory

set_option autoImplicit false
set_option linter.unusedSectionVars false

variable {P D F : Type} [DecidableEq P] [DecidableEq D] [DecidableEq F]
variable {types : D → VinputDevice}

namespace Pc

/-- A `vinput_unregister` of the type. -/
def Unregisters (dev : D) : Pc D → Prop
  | .begin d | .visit d _ => d = dev
  | .teardown _ (.unregister d _) | .release _ (.unregister d _)
  | .oops _ (.unregister d _) => d = dev
  | _ => False

/-- A `vinput_unregister` of the type that has not passed the device, or stops before
it returns. -/
def Pending (list : List Nat) (dev : D) (v : Nat) : Pc D → Prop
  | .begin d => d = dev
  | .visit d curr => d = dev ∧ Ahead list curr v
  | .teardown w (.unregister d next) | .release w (.unregister d next) =>
      d = dev ∧ (v = w ∨ Ahead list next v)
  | .oops _ (.unregister d _) => d = dev
  | _ => False

/-- The node the loop has read ahead. -/
def link : Pc D → Link
  | .visit _ curr => curr
  | .teardown _ (.unregister _ next) | .release _ (.unregister _ next)
  | .oops _ (.unregister _ next) => next
  | _ => .head

theorem Pending.unregisters {list : List Nat} {dev : D} {v : Nat} {pc : Pc D}
    (pending : pc.Pending list dev v) : pc.Unregisters dev := by
  cases pc with
  | begin d => exact pending
  | visit d curr => exact pending.1
  | teardown w after =>
      cases after with
      | unexport => exact pending
      | unregister d next => exact pending.1
  | release w after =>
      cases after with
      | unexport => exact pending
      | unregister d next => exact pending.1
  | oops w after =>
      cases after with
      | unexport => exact pending
      | unregister d next => exact pending
  | _ => exact pending

end Pc

/-- Once `vinput_unregister` of a type has returned, no device has the type, whatever
`export_store` calls are running. -/
def NoOrphan (t : Threads P D F) : Prop :=
  ∀ dev, dev ∉ t.mem.vinputDevices →
    (∀ q len pc, t.call q = some (len, pc) → ¬ pc.Unregisters dev) →
    ∀ v ∈ t.mem.vinputVdevices, (t.mem.vinput v).type ≠ some dev

/-- Some `vinput_unregister` of the type has still to come to the device. -/
def Swept (t : Threads P D F) (dev : D) (v : Nat) : Prop :=
  ∃ q len pc, t.call q = some (len, pc) ∧ pc.Pending t.mem.vinputVdevices dev v

/-- `vinput->type = device` is executed while the type is registered, or before the
loop of its `vinput_unregister` has passed the device. -/
def TypesInTime (t : Threads P D F) : Act P D → Prop
  | .run p _ => ∀ len dev v, t.call p = some (len, .allocated dev v) →
      dev ∈ t.mem.vinputDevices ∨ Swept t dev v
  | _ => True

/-! ## What one step does to the list -/

/-- The list stays, gets the new `vinput`, or loses one. -/
inductive ListStep (s s' : State D F) : Prop where
  | same (list : s'.vinputVdevices = s.vinputVdevices)
  | insert (list : s'.vinputVdevices = s.vinputs.next :: s.vinputVdevices)
      (next : s'.vinputs.next = s.vinputs.next + 1)
      (type : (s'.vinput s.vinputs.next).type = none)
  | remove (v : Nat) (list : s'.vinputVdevices = s.vinputVdevices.erase v)

/-- A step that writes no type. -/
structure Change (s s' : State D F) : Prop where
  list : ListStep s s'
  devices : s'.vinputDevices = s.vinputDevices
  next : s.vinputs.next ≤ s'.vinputs.next
  types : ∀ v, v < s.vinputs.next → (s'.vinput v).type = (s.vinput v).type

theorem Change.refl (s : State D F) : Change s s :=
  ⟨.same rfl, rfl, Nat.le_refl _, fun _ _ => rfl⟩

theorem change_inputFreeDevice (s : State D F) (v : Nat) :
    (s.inputFreeDevice v).vinputVdevices = s.vinputVdevices ∧
      (s.inputFreeDevice v).vinputDevices = s.vinputDevices ∧
      (s.inputFreeDevice v).vinputs = s.vinputs ∧ (s.inputFreeDevice v).vinput = s.vinput := by
  unfold State.inputFreeDevice
  split <;> exact ⟨rfl, rfl, rfl, rfl⟩

theorem change_destroy (s : State D F) (v : Nat) :
    Change s (vinputDestroyVdevice (s.inputFreeDevice v) v) := by
  obtain ⟨list, devices, vinputs, vinput⟩ := change_inputFreeDevice s v
  refine ⟨.remove v ?_, devices, ?_, ?_⟩
  · simp [vinputDestroyVdevice, State.listDel, State.kfree, list]
  · simp [vinputDestroyVdevice, State.listDel, State.kfree, Arena.release, vinputs]
  · intro w _
    simp [vinputDestroyVdevice, State.listDel, State.kfree, vinput]

theorem change_inputUnregisterDevice (s : State D F) (v : Nat) :
    Change s (s.inputUnregisterDevice v) := by
  obtain ⟨list, devices, vinputs, vinput⟩ := change_inputFreeDevice s v
  refine ⟨.same list, devices, ?_, ?_⟩
  · simp [State.inputUnregisterDevice, vinputs]
  · intro w _
    simp [State.inputUnregisterDevice, vinput]

theorem change_unregisterVdevice {s s' : State D F} {v : Nat}
    (unregistered : vinputUnregisterVdevice types s v = some s') :
    Change s s' ∧ s'.vinputVdevices = s.vinputVdevices := by
  simp only [vinputUnregisterVdevice, Option.map_eq_some_iff] at unregistered
  obtain ⟨d, -, rfl⟩ := unregistered
  obtain ⟨list, devices, vinputs, vinput⟩ := change_inputFreeDevice s v
  have change := change_inputUnregisterDevice s v
  split <;> exact ⟨⟨.same list, devices, change.next, change.types⟩, list⟩

theorem change_takeId {s s' : State D F} {r : Except Int Nat}
    (taken : takeId s.kzalloc s.vinputs.next = (s', r)) : Change s s' := by
  have types : ∀ (x : Vdevice D) v, v < s.vinputs.next →
      (Function.update s.vinput s.vinputs.next x v).type = (s.vinput v).type := by
    intro x v below
    rw [Function.update_of_ne (Nat.ne_of_lt below)]
  unfold takeId at taken
  dsimp only at taken
  split at taken
  · cases taken
    refine ⟨.same rfl, rfl, Nat.le_succ _, ?_⟩
    intro v below
    simp [State.kfree, State.modify, State.kzalloc, types _ v below]
  · cases taken
    refine ⟨.insert rfl rfl ?_, rfl, Nat.le_succ _, ?_⟩
    · simp [State.modify, State.kzalloc, Vdevice.zero]
    · intro v below
      simp [State.modify, State.kzalloc, types _ v below]

theorem pcStep_change {o : Answers} {len : Nat} {s : State D F} {pc : Pc D} {next : Next D F}
    (stepped : pcStep types o len s pc = some next) (untyped : ∀ dev v, pc ≠ .allocated dev v) :
    Change s next.mem := by
  cases pc with
  | found dev =>
      simp only [pcStep] at stepped
      split at stepped
      · cases stepped
        exact .refl s
      · split at stepped <;> cases stepped <;> rename_i taken <;> exact change_takeId taken
  | inserted dev v =>
      simp only [pcStep] at stepped
      split at stepped <;> cases stepped
      · exact .refl s
      · refine ⟨.same rfl, rfl, Nat.le_refl _, ?_⟩
        intro w _
        by_cases same : w = v
        · subst same
          simp [Next.mem, State.inputAllocateDevice, State.modify]
        · simp [Next.mem, State.inputAllocateDevice, State.modify, same]
  | failInputDev v =>
      cases stepped
      exact ⟨.remove v rfl, rfl, Nat.le_refl _, fun _ _ => rfl⟩
  | allocated dev v => exact absurd rfl (untyped dev v)
  | typed v =>
      simp only [pcStep] at stepped
      split at stepped <;> cases stepped <;> exact .refl s
  | failRegister v err =>
      cases stepped
      exact change_destroy s v
  | registered v =>
      simp only [pcStep] at stepped
      split at stepped <;> cases stepped <;> exact .refl s
  | failRegisterVinput v err =>
      cases stepped
      exact change_destroy s v
  | teardown v after =>
      simp only [pcStep] at stepped
      split at stepped <;> cases stepped
      · rename_i unregistered
        exact (change_unregisterVdevice unregistered).1
      · exact change_inputUnregisterDevice s v
  | release v after =>
      cases after <;> cases stepped <;>
        exact ⟨.remove v rfl, rfl, Nat.le_refl _, fun _ _ => rfl⟩
  | oops v after => cases stepped
  | begin dev =>
      cases stepped
      exact .refl s
  | visit dev curr =>
      cases curr with
      | head =>
          cases stepped
          exact .refl s
      | node v =>
          simp only [pcStep] at stepped
          split at stepped <;> cases stepped <;> exact .refl s
      | poison => cases stepped

/-! ## What one step does to the loops -/

/-- A device that stays in the list stays ahead of a walk. -/
theorem ahead_listStep {s s' : State D F} (step : ListStep s s')
    (nodup : s.vinputVdevices.Nodup) {link : Link} (old : link ≠ .node s.vinputs.next) {v : Nat}
    (kept : v ∈ s'.vinputVdevices) (ahead : Ahead s.vinputVdevices link v) :
    Ahead s'.vinputVdevices link v := by
  cases step with
  | same list => rwa [list]
  | insert list next type =>
      rw [list]
      exact ahead_cons old ahead
  | remove w list =>
      rw [list] at kept ⊢
      exact ahead_erase nodup (nodup.mem_erase_iff.1 kept).1 ahead

/-- The loops of the other callers. -/
theorem pending_listStep {s s' : State D F} (step : ListStep s s')
    (nodup : s.vinputVdevices.Nodup) {pc : Pc D} (old : pc.link ≠ .node s.vinputs.next)
    {dev : D} {v : Nat} (kept : v ∈ s'.vinputVdevices)
    (pending : pc.Pending s.vinputVdevices dev v) : pc.Pending s'.vinputVdevices dev v := by
  cases pc with
  | begin d => exact pending
  | visit d curr => exact ⟨pending.1, ahead_listStep step nodup old kept pending.2⟩
  | teardown w after =>
      cases after with
      | unexport => exact pending
      | unregister d next =>
          exact ⟨pending.1, pending.2.imp_right (ahead_listStep step nodup old kept)⟩
  | release w after =>
      cases after with
      | unexport => exact pending
      | unregister d next =>
          exact ⟨pending.1, pending.2.imp_right (ahead_listStep step nodup old kept)⟩
  | oops w after =>
      cases after with
      | unexport => exact pending
      | unregister d next => exact pending
  | _ => exact pending

/-- **The loop itself.**  A step does not pass a device of its type that it leaves in
the list, and does not return before one. -/
theorem pcStep_pending {o : Answers} {len : Nat} {s : State D F} {pc : Pc D} {next : Next D F}
    (stepped : pcStep types o len s pc = some next) (nodup : s.vinputVdevices.Nodup)
    {dev : D} {v : Nat} (member : v ∈ s.vinputVdevices) (type : (s.vinput v).type = some dev)
    (kept : v ∈ next.mem.vinputVdevices) (pending : pc.Pending s.vinputVdevices dev v) :
    ∃ mem pc', next = .goto mem pc' ∧ pc'.Pending mem.vinputVdevices dev v := by
  cases pc with
  | begin d =>
      cases stepped
      exact ⟨_, _, rfl, pending, ahead_first member⟩
  | visit d curr =>
      obtain ⟨rfl, ahead⟩ := pending
      cases curr with
      | head => exact ahead.elim
      | node w =>
          simp only [pcStep] at stepped
          split at stepped
          · cases stepped
            refine ⟨_, _, rfl, rfl, ?_⟩
            by_cases same : v = w
            · exact .inl same
            · exact .inr (ahead_next nodup ahead same)
          · rename_i other
            cases stepped
            refine ⟨_, _, rfl, rfl, ahead_next nodup ahead ?_⟩
            rintro rfl
            exact other type
      | poison => cases stepped
  | teardown w after =>
      cases after with
      | unexport => exact pending.elim
      | unregister d curr =>
          simp only [pcStep] at stepped
          split at stepped <;> cases stepped
          · rename_i s' unregistered
            refine ⟨_, _, rfl, ?_⟩
            rw [(change_unregisterVdevice unregistered).2]
            exact pending
          · exact ⟨_, _, rfl, pending.1⟩
  | release w after =>
      cases after with
      | unexport => exact pending.elim
      | unregister d curr =>
          cases stepped
          have other : v ≠ w := (nodup.mem_erase_iff.1 kept).1
          refine ⟨_, _, rfl, pending.1, ahead_erase nodup other ?_⟩
          exact pending.2.resolve_left other
  | oops w after => cases stepped
  | _ => exact pending.elim

/-- The nodes a loop reads are in the list when it reads them. -/
theorem pcStep_link {o : Answers} {len : Nat} {s mem : State D F} {pc pc' : Pc D}
    (stepped : pcStep types o len s pc = some (.goto mem pc'))
    (known : ∀ v ∈ s.vinputVdevices, v < s.vinputs.next)
    (old : ∀ w, pc.link = .node w → w < s.vinputs.next) {w : Nat} (link : pc'.link = .node w) :
    w < s.vinputs.next := by
  cases pc with
  | found dev =>
      simp only [pcStep] at stepped
      split at stepped
      · cases stepped
      · split at stepped <;> cases stepped
        cases link
  | inserted dev v =>
      simp only [pcStep] at stepped
      split at stepped <;> cases stepped <;> cases link
  | failInputDev v => cases stepped
  | allocated dev v =>
      cases stepped
      cases link
  | typed v =>
      simp only [pcStep] at stepped
      split at stepped <;> cases stepped <;> cases link
  | failRegister v err => cases stepped
  | registered v =>
      simp only [pcStep] at stepped
      split at stepped <;> cases stepped
      cases link
  | failRegisterVinput v err => cases stepped
  | teardown v after =>
      simp only [pcStep] at stepped
      cases after <;> split at stepped <;> cases stepped <;> exact old w link
  | release v after =>
      cases after <;> cases stepped
      exact old w link
  | oops v after => cases stepped
  | begin dev =>
      cases stepped
      exact known w (firstLink_mem link)
  | visit dev curr =>
      cases curr with
      | head => cases stepped
      | node v =>
          simp only [pcStep] at stepped
          split at stepped <;> cases stepped <;> exact known w (nextLink_mem link)
      | poison => cases stepped

/-! ## The invariant -/

structure Sweeping (t : Threads P D F) : Prop where
  nodup : t.mem.vinputVdevices.Nodup
  known : ∀ v ∈ t.mem.vinputVdevices, v < t.mem.vinputs.next
  links : ∀ q len pc w, t.call q = some (len, pc) → pc.link = .node w → w < t.mem.vinputs.next
  swept : ∀ v ∈ t.mem.vinputVdevices, ∀ dev, (t.mem.vinput v).type = some dev →
    dev ∈ t.mem.vinputDevices ∨ Swept t dev v

namespace Sweeping

variable {t : Threads P D F}

theorem start : Sweeping (.init : Threads P D F) where
  nodup := List.nodup_nil
  known := by simp [Threads.init, State.init]
  links := by simp [Threads.init]
  swept := by simp [Threads.init, State.init]

theorem listStep (sweeping : Sweeping t) {s : State D F} (change : Change t.mem s) :
    s.vinputVdevices.Nodup ∧ (∀ v ∈ s.vinputVdevices, v < s.vinputs.next) ∧
      ∀ v ∈ s.vinputVdevices, ∀ dev, (s.vinput v).type = some dev →
        v ∈ t.mem.vinputVdevices ∧ (t.mem.vinput v).type = some dev := by
  have old : ∀ v ∈ t.mem.vinputVdevices, ∀ dev, (s.vinput v).type = some dev →
      v ∈ t.mem.vinputVdevices ∧ (t.mem.vinput v).type = some dev := by
    intro v member dev type
    exact ⟨member, by rw [← change.types v (sweeping.known v member), type]⟩
  have below : ∀ v ∈ t.mem.vinputVdevices, v < s.vinputs.next :=
    fun v member => Nat.lt_of_lt_of_le (sweeping.known v member) change.next
  cases change.list with
  | same list =>
      rw [list]
      exact ⟨sweeping.nodup, below, old⟩
  | insert list next type =>
      rw [list]
      have fresh : t.mem.vinputs.next ∉ t.mem.vinputVdevices :=
        fun member => Nat.lt_irrefl _ (sweeping.known _ member)
      refine ⟨List.nodup_cons.2 ⟨fresh, sweeping.nodup⟩, ?_, ?_⟩
      · intro v member
        rcases List.mem_cons.1 member with rfl | member
        · rw [next]
          exact Nat.lt_succ_self _
        · exact below v member
      · intro v member dev
        rcases List.mem_cons.1 member with rfl | member
        · rw [type]
          intro eq
          cases eq
        · exact old v member dev
  | remove w list =>
      rw [list]
      exact ⟨sweeping.nodup.erase w, fun v kept => below v (List.mem_of_mem_erase kept),
        fun v kept => old v (List.mem_of_mem_erase kept)⟩

/-- A step of a call that writes no type. -/
theorem run (sweeping : Sweeping t) {p : P} {o : Answers} {len : Nat} {pc : Pc D}
    {next : Next D F} (found : t.call p = some (len, pc))
    (stepped : pcStep types o len t.mem pc = some next) (untyped : ∀ dev v, pc ≠ .allocated dev v) :
    Sweeping (t.advance p len next) := by
  have change := pcStep_change stepped untyped
  obtain ⟨nodup, known, old⟩ := sweeping.listStep change
  rw [← Threads.advance_mem t p len next] at change nodup known old
  refine ⟨nodup, known, ?_, ?_⟩
  · intro q len' pc' w found' link
    by_cases same : q = p
    · subst same
      refine Nat.lt_of_lt_of_le ?_ change.next
      cases next with
      | goto mem pc'' =>
          rw [Threads.advance_goto] at found'
          cases found'
          exact pcStep_link stepped sweeping.known (fun w => sweeping.links q len pc w found) link
      | done mem ret =>
          rw [Threads.advance_done] at found'
          cases found'
    · rw [Threads.advance_other t same] at found'
      exact Nat.lt_of_lt_of_le (sweeping.links q len' pc' w found' link) change.next
  · intro v kept dev type
    obtain ⟨member, typed⟩ := old v kept dev type
    rcases sweeping.swept v member dev typed with registered | ⟨q, len', pc', found', pending⟩
    · exact .inl (by rwa [change.devices])
    · apply Or.inr
      by_cases same : q = p
      · subst same
        rw [found] at found'
        cases found'
        rw [Threads.advance_mem] at kept
        obtain ⟨mem, pc'', made, pending'⟩ :=
          pcStep_pending stepped sweeping.nodup member typed kept pending
        subst made
        exact ⟨q, len, pc'', Threads.advance_goto t q len mem pc'', pending'⟩
      · refine ⟨q, len', pc', by rw [Threads.advance_other t same, found'], ?_⟩
        refine pending_listStep change.list sweeping.nodup ?_ kept pending
        intro link
        exact Nat.lt_irrefl _ (sweeping.links q len' pc' _ found' link)

/-- The assignment of a type, in time. -/
theorem type (sweeping : Sweeping t) {p : P} {len : Nat} {dev : D} {v : Nat}
    (found : t.call p = some (len, .allocated dev v))
    (inTime : dev ∈ t.mem.vinputDevices ∨ Swept t dev v) :
    Sweeping (t.begin p (t.mem.modify v fun x => { x with type := some dev }) len (.typed v)) := by
  have others : ∀ dev' w, Swept t dev' w →
      Swept (t.begin p (t.mem.modify v fun x => { x with type := some dev }) len (.typed v))
        dev' w := by
    rintro dev' w ⟨q, len', pc, found', pending⟩
    refine ⟨q, len', pc, ?_, pending⟩
    have other : q ≠ p := by
      rintro rfl
      rw [found] at found'
      cases found'
      exact pending
    simp [Threads.begin, other, found']
  refine ⟨sweeping.nodup, sweeping.known, ?_,
    ?_⟩
  · intro q len' pc w found' link
    by_cases same : q = p
    · subst same
      simp only [Threads.begin, Function.update_self, Option.some.injEq, Prod.mk.injEq] at found'
      rw [← found'.2] at link
      cases link
    · simp only [Threads.begin, ne_eq, same, not_false_eq_true, Function.update_of_ne] at found'
      exact sweeping.links q len' pc w found' link
  · intro w member dev' type
    by_cases same : w = v
    · subst same
      simp only [Threads.begin, State.modify, Function.update_self, Option.some.injEq] at type
      subst type
      exact inTime.imp_right (others dev w)
    · simp only [Threads.begin, State.modify, ne_eq, same, not_false_eq_true,
        Function.update_of_ne] at type
      exact (sweeping.swept w member dev' type).imp_right (others dev' w)

/-- A call begins. -/
theorem enter (sweeping : Sweeping t) {p : P} {mem : State D F} {len : Nat} {pc : Pc D}
    (idle : t.call p = none) (list : mem.vinputVdevices = t.mem.vinputVdevices)
    (vinputs : mem.vinputs = t.mem.vinputs) (vinput : mem.vinput = t.mem.vinput)
    (devices : ∀ dev ∈ t.mem.vinputDevices, dev ∈ mem.vinputDevices ∨
      ∀ v, pc.Pending mem.vinputVdevices dev v) (link : pc.link = .head) :
    Sweeping (t.begin p mem len pc) := by
  refine ⟨by rw [Threads.begin, list]; exact sweeping.nodup, ?_,
    ?_, ?_⟩
  · intro v member
    replace member : v ∈ mem.vinputVdevices := member
    rw [list] at member
    show v < mem.vinputs.next
    rw [vinputs]
    exact sweeping.known v member
  · intro q len' pc' w found' node
    show w < mem.vinputs.next
    rw [vinputs]
    by_cases same : q = p
    · subst same
      simp only [Threads.begin, Function.update_self, Option.some.injEq, Prod.mk.injEq] at found'
      rw [← found'.2, link] at node
      cases node
    · simp only [Threads.begin, ne_eq, same, not_false_eq_true, Function.update_of_ne] at found'
      exact sweeping.links q len' pc' w found' node
  · intro v member dev type
    have here : (t.begin p mem len pc).call p = some (len, pc) := Function.update_self _ _ _
    simp only [Threads.begin, list, vinput] at member type
    rcases sweeping.swept v member dev type with registered | ⟨q, len', pc', found', pending⟩
    · rcases devices dev registered with still | begun
      · exact .inl still
      · exact .inr ⟨p, len, pc, here, begun v⟩
    · refine .inr ⟨q, len', pc', ?_, by rwa [Threads.begin, list]⟩
      have other : q ≠ p := by
        rintro rfl
        rw [idle] at found'
        cases found'
      simp [Threads.begin, other, found']

/-- A call returns at once. -/
theorem refuse (sweeping : Sweeping t) {p : P} {ret : Option Int} (idle : t.call p = none) :
    Sweeping (t.done p t.mem ret) := by
  have same : (t.done p t.mem ret).call = t.call := by
    rw [Threads.done, ← idle, Function.update_eq_self]
  refine ⟨sweeping.nodup, sweeping.known, ?_, ?_⟩
  · intro q len pc w found
    rw [same] at found
    exact sweeping.links q len pc w found
  · intro v member dev type
    apply (sweeping.swept v member dev type).imp_right
    rintro ⟨q, len, pc, found, pending⟩
    exact ⟨q, len, pc, by rw [same, found], pending⟩

/-- **One step.**  What is typed in the list is registered or still to be removed. -/
theorem step {u : Threads P D F} {a : Act P D} (sweeping : Sweeping t) (inTime : TypesInTime t a)
    (next : threadStep types t a = some u) : Sweeping u := by
  cases a with
  | vinputRegister dev =>
      simp only [threadStep] at next
      split at next <;> cases next
      exact ⟨sweeping.nodup, sweeping.known, sweeping.links, fun v member dev type =>
        (sweeping.swept v member dev type).imp_left (List.mem_cons_of_mem _)⟩
  | exportStore p buf =>
      simp only [threadStep] at next
      split at next
      · cases next
      · rename_i idle
        rw [Option.not_isSome_iff_eq_none] at idle
        split at next <;> cases next
        · exact sweeping.refuse idle
        · exact sweeping.enter idle rfl rfl rfl (fun _ registered => .inl registered) rfl
  | unexportStore p buf =>
      simp only [threadStep] at next
      split at next
      · cases next
      · rename_i idle
        rw [Option.not_isSome_iff_eq_none] at idle
        split at next <;> cases next
        · exact sweeping.refuse idle
        · exact sweeping.enter idle rfl rfl rfl (fun _ registered => .inl registered) rfl
  | vinputUnregister p dev =>
      simp only [threadStep] at next
      split at next
      · cases next
      · rename_i may
        rw [not_or, Option.not_isSome_iff_eq_none] at may
        cases next
        refine sweeping.enter may.1 rfl rfl rfl ?_ rfl
        intro dev' registered
        by_cases same : dev' = dev
        · exact .inr fun v => same.symm
        · exact .inl ((List.mem_erase_of_ne same).2 registered)
  | run p o =>
      simp only [threadStep, Option.bind_eq_some_iff, Option.map_eq_some_iff] at next
      obtain ⟨⟨len, pc⟩, found, step, stepped, rfl⟩ := next
      by_cases writes : ∃ dev v, pc = .allocated dev v
      · obtain ⟨dev, v, rfl⟩ := writes
        cases stepped
        exact sweeping.type found (inTime len dev v found)
      · exact sweeping.run found stepped fun dev v same => writes ⟨dev, v, same⟩

theorem noOrphan (sweeping : Sweeping t) : NoOrphan t := by
  intro dev gone idle v member type
  rcases sweeping.swept v member dev type with registered | ⟨q, len, pc, found, pending⟩
  · exact gone registered
  · exact idle q len pc found pending.unregisters

end Sweeping

/-- **No device outlives its type** in a run that writes every type in time. -/
theorem vinput_no_orphan (as : List (Act P D))
    (meets : (threads (F := F) types).Meets TypesInTime .init as) :
    (threads (F := F) types).Always NoOrphan .init as := by
  have sweeping : (threads (F := F) types).Always Sweeping .init as :=
    System.always_of_meets (fun t a u sweeping inTime next => sweeping.step inTime next)
      .start meets
  exact sweeping.mono fun t sweeping => sweeping.noOrphan

/-! ## Deciding the condition -/

instance (list : List Nat) (dev : D) (v : Nat) : ∀ pc : Pc D, Decidable (pc.Pending list dev v)
  | .begin d => inferInstanceAs (Decidable (d = dev))
  | .visit d curr => inferInstanceAs (Decidable (d = dev ∧ Ahead list curr v))
  | .teardown w (.unregister d next) | .release w (.unregister d next) =>
      inferInstanceAs (Decidable (d = dev ∧ (v = w ∨ Ahead list next v)))
  | .oops _ (.unregister d _) => inferInstanceAs (Decidable (d = dev))
  | .teardown _ .unexport | .release _ .unexport | .oops _ .unexport
  | .found _ | .inserted _ _ | .failInputDev _ | .allocated _ _ | .typed _
  | .failRegister _ _ | .registered _ | .failRegisterVinput _ _ => .isFalse id

instance [Fintype P] (t : Threads P D F) (dev : D) (v : Nat) : Decidable (Swept t dev v) :=
  decidable_of_iff (∃ q, ∃ c ∈ t.call q, c.2.Pending t.mem.vinputVdevices dev v) (by
    simp [Swept])

/-- The type and the `vinput` of an assignment that is the next step. -/
def Pc.assigns : Pc D → Option (D × Nat)
  | .allocated dev v => some (dev, v)
  | _ => none

instance [Fintype P] (t : Threads P D F) : ∀ a, Decidable (TypesInTime t a)
  | .vinputRegister _ | .exportStore _ _ | .unexportStore _ _ | .vinputUnregister _ _ =>
      .isTrue trivial
  | .run p _ =>
      decidable_of_iff (∀ c ∈ t.call p, ∀ x ∈ c.2.assigns,
        x.1 ∈ t.mem.vinputDevices ∨ Swept t x.1 x.2) <| by
        constructor
        · exact fun all len dev v found => all _ found (dev, v) rfl
        · rintro all ⟨len, pc⟩ found ⟨dev, v⟩ assigns
          cases pc with
          | allocated dev' w =>
              cases assigns
              exact all len dev v found
          | _ => cases assigns

/-- A keyboard gets its type after its removal has begun, and before the loop. -/
def typedInTime : List (Act Bool Unit) :=
  [.vinputRegister (), .exportStore true (text "vkbd\n"), .run true granted, .run true granted,
    .vinputUnregister false (), .run true granted, .run true granted] ++
  List.replicate 5 (.run false granted) ++ [.run true granted]

theorem vinput_no_orphan_typed :
    ((threads (F := Unit) fun _ => vkbdDev).run .init typedInTime).map (fun t =>
      (t.mem.vinputVdevices, t.mem.destroyed)) = some ([], [0]) ∧
      (threads (F := Unit) fun _ => vkbdDev).Always NoOrphan .init typedInTime :=
  ⟨by decide, vinput_no_orphan _ (by decide)⟩

/-- The type is found, unregistered, and then written. -/
def typedLate : List (Act Bool Unit) :=
  [.vinputRegister (), .exportStore true (text "vkbd\n"), .vinputUnregister false (),
    .run false granted, .run false granted] ++ List.replicate 5 (.run true granted)

theorem vinput_orphan : ∃ t,
    (threads (F := Unit) fun _ => vkbdDev).run .init typedLate = some t ∧
      (∀ q, t.call q = none) ∧ t.mem.vinputDevices = [] ∧ t.mem.vinputVdevices = [0] ∧
      (t.mem.vinput 0).type = some () ∧ ¬ NoOrphan t := by
  have ends : ((threads (F := Unit) fun _ => vkbdDev).run .init typedLate).map (fun t =>
      (t.mem.vinputDevices, t.mem.vinputVdevices, (t.mem.vinput 0).type,
        (t.call true).isSome || (t.call false).isSome)) = some ([], [0], some (), false) := by
    decide
  obtain ⟨t, ran, same⟩ := Option.map_eq_some_iff.1 ends
  simp only [Prod.mk.injEq, Bool.or_eq_false_iff, Option.isSome_eq_false_iff,
    Option.isNone_iff_eq_none] at same
  obtain ⟨devices, list, type, idle⟩ := same
  have returned : ∀ q, t.call q = none := by
    intro q
    cases q with
    | true => exact idle.1
    | false => exact idle.2
  refine ⟨t, ran, returned, devices, list, type, ?_⟩
  intro noOrphan
  refine noOrphan () (by simp [devices]) ?_ 0 (by simp [list]) type
  intro q len pc found
  rw [returned] at found
  cases found

end Lkmpg.Vinput
