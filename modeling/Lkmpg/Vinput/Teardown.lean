/-
# Lkmpg.Vinput.Teardown -- when a device is torn down once

A call in progress has at most one `vinput` in its hands (`Pc.custody`): the one its
`export_store` sets up, or the one it removes.  The lookup of a removal does not see
what others have in theirs, and the removal from the list comes only with
`device_unregister`, so two removals can find the same device.

Where that does not happen the calls keep the discipline of `Custody`
(`step_custody`), and no device is torn down twice (`vinput_torn_down_once`).
-/
import Lkmpg.Vinput.Ownership
import Lkmpg.Vinput.Threads
import Lkmpg.Theory.Custody
import Mathlib.Data.Fintype.Defs

namespace Lkmpg.Vinput

open Lkmpg.Kernel Lkmpg.Theory

set_option autoImplicit false
set_option linter.unusedSectionVars false

variable {P D F : Type} [DecidableEq P] [DecidableEq D] [DecidableEq F]
variable {types : D → VinputDevice}

/-- The `vinput` a call has in its hands, and whether it has passed it to
`input_unregister_device`. -/
def Pc.custody : Pc D → Option (Nat × Bool)
  | .found _ | .begin _ | .visit _ _ => none
  | .inserted _ v | .failInputDev v | .allocated _ v | .typed v | .failRegister v _
  | .registered v | .failRegisterVinput v _ | .teardown v _ => some (v, false)
  | .release v _ | .oops v _ => some (v, true)

/-- The type and the node a step of the loop looks at. -/
def Pc.visited : Pc D → Option (D × Nat)
  | .visit dev (.node v) => some (dev, v)
  | _ => none

/-- Some call in progress has `v` in its hands. -/
def InHand (t : Threads P D F) (v : Nat) : Prop :=
  ∃ q len pc b, t.call q = some (len, pc) ∧ pc.custody = some (v, b)

/-- A removal takes no device another call has in its hands, and none that is off the
list: the lookup of `unexport_store` does not find one, and the loop of
`vinput_unregister` does not match one. -/
def TakesFree (t : Threads P D F) : Act P D → Prop
  | .unexportStore _ buf => ∀ v, unexportFind t.mem buf = .ok v → ¬ InHand t v
  | .run p _ => ∀ len dev v, t.call p = some (len, .visit dev (.node v)) →
      (t.mem.vinput v).type = some dev → v ∈ t.mem.vinputVdevices ∧ ¬ InHand t v
  | _ => True

/-- No `vinput` was passed to `input_unregister_device` twice, and none to
`vinput_destroy_vdevice`. -/
def TornDownOnce (t : Threads P D F) : Prop :=
  t.mem.unregistered.Nodup ∧ t.mem.destroyed.Nodup

/-! ## The driver as a custody -/

def custody (t : Threads P D F) : Custody.State P where
  next := t.mem.vinputs.next
  items := t.mem.vinputVdevices
  holder p := (t.call p).bind fun c => c.2.custody
  closed := t.mem.unregistered
  removed := t.mem.destroyed

theorem custody_holder {t : Threads P D F} {p : P} {len : Nat} {pc : Pc D}
    (found : t.call p = some (len, pc)) : (custody t).holder p = pc.custody := by
  simp [custody, found]

theorem custody_idle {t : Threads P D F} {p : P} (idle : ¬ (t.call p).isSome) :
    (custody t).holder p = none := by
  rw [Option.not_isSome_iff_eq_none] at idle
  simp [custody, idle]

theorem inHand_iff {t : Threads P D F} {v : Nat} :
    InHand t v ↔ ∃ q b, (custody t).holder q = some (v, b) := by
  constructor
  · rintro ⟨q, len, pc, b, found, holds⟩
    exact ⟨q, b, by rw [custody_holder found, holds]⟩
  · rintro ⟨q, b, holds⟩
    obtain ⟨⟨len, pc⟩, found, inPc⟩ := Option.bind_eq_some_iff.1 holds
    exact ⟨q, len, pc, b, found, inPc⟩

instance [Fintype P] (t : Threads P D F) (v : Nat) : Decidable (InHand t v) :=
  decidable_of_iff (∃ q, ((custody t).holder q).map Prod.fst = some v) (by simp [inHand_iff])

instance [Fintype P] (t : Threads P D F) : ∀ a, Decidable (TakesFree t a)
  | .vinputRegister _ | .exportStore _ _ | .vinputUnregister _ _ => .isTrue trivial
  | .unexportStore _ buf =>
      match found : unexportFind t.mem buf with
      | .error _ => .isTrue (by simp [TakesFree, found])
      | .ok v => decidable_of_iff (¬ InHand t v) (by simp [TakesFree, found])
  | .run p _ =>
      decidable_of_iff (∀ c ∈ t.call p, ∀ x ∈ c.2.visited,
        (t.mem.vinput x.2).type = some x.1 → x.2 ∈ t.mem.vinputVdevices ∧ ¬ InHand t x.2) <| by
        constructor
        · exact fun all len dev v found type => all _ found (dev, v) rfl type
        · rintro all ⟨len, pc⟩ found ⟨dev, v⟩ visits type
          cases pc with
          | visit dev' curr =>
              cases curr with
              | node w =>
                  cases visits
                  exact all len dev v found type
              | _ => cases visits
          | _ => cases visits

/-- The fields of the memory that `custody` reads. -/
def ledger (s : State D F) : Nat × List Nat × List Nat × List Nat :=
  (s.vinputs.next, s.vinputVdevices, s.unregistered, s.destroyed)

theorem custody_begin {t : Threads P D F} {p : P} {mem : State D F} {len n : Nat} {pc : Pc D}
    {items closed removed : List Nat} (is : ledger mem = (n, items, closed, removed)) :
    custody (t.begin p mem len pc) =
      ⟨n, items, Function.update (custody t).holder p pc.custody, closed, removed⟩ := by
  cases is
  simp only [custody, Threads.begin, Custody.State.mk.injEq, true_and, and_true]
  funext q
  by_cases same : q = p
  · subst same
    simp
  · simp [same]

theorem custody_done {t : Threads P D F} {p : P} {mem : State D F} {ret : Option Int} {n : Nat}
    {items closed removed : List Nat} (is : ledger mem = (n, items, closed, removed)) :
    custody (t.done p mem ret) =
      ⟨n, items, Function.update (custody t).holder p none, closed, removed⟩ := by
  cases is
  simp only [custody, Threads.done, Custody.State.mk.injEq, true_and, and_true]
  funext q
  by_cases same : q = p
  · subst same
    simp
  · simp [same]

/-- A step that leaves the ledger alone and what the call has in its hands. -/
theorem custody_goto {t : Threads P D F} {p : P} {mem : State D F} {len : Nat} {pc pc' : Pc D}
    (found : t.call p = some (len, pc)) (same : ledger mem = ledger t.mem)
    (keeps : pc'.custody = pc.custody) : custody (t.begin p mem len pc') = custody t := by
  rw [custody_begin (same.trans rfl), keeps, ← custody_holder found, Function.update_eq_self]
  rfl

theorem custody_return {t : Threads P D F} {p : P} {mem : State D F} {ret : Option Int}
    (empty : (custody t).holder p = none) (same : ledger mem = ledger t.mem) :
    custody (t.done p mem ret) = custody t := by
  rw [custody_done (same.trans rfl), ← empty, Function.update_eq_self]
  rfl

/-- A call begins with nothing in hand. -/
theorem custody_enter {t : Threads P D F} {p : P} {mem : State D F} {len : Nat} {pc : Pc D}
    (empty : (custody t).holder p = none) (same : ledger mem = ledger t.mem)
    (holds : pc.custody = none) : custody (t.begin p mem len pc) = custody t := by
  rw [custody_begin (same.trans rfl), holds, ← empty, Function.update_eq_self]
  rfl

/-! ## The steps -/

theorem ledger_inputFreeDevice (s : State D F) (v : Nat) :
    ledger (s.inputFreeDevice v) = ledger s := by
  unfold State.inputFreeDevice
  split <;> rfl

theorem ledger_inputUnregisterDevice (s : State D F) (v : Nat) :
    ledger (s.inputUnregisterDevice v) =
      (s.vinputs.next, s.vinputVdevices, v :: s.unregistered, s.destroyed) := by
  have same := ledger_inputFreeDevice s v
  simp only [ledger, Prod.mk.injEq] at same
  simp [ledger, State.inputUnregisterDevice, same]

theorem ledger_unregisterVdevice {s s' : State D F} {v : Nat}
    (unregistered : vinputUnregisterVdevice types s v = some s') : ledger s' =
      (s.vinputs.next, s.vinputVdevices, v :: s.unregistered, s.destroyed) := by
  simp only [vinputUnregisterVdevice, Option.map_eq_some_iff] at unregistered
  obtain ⟨d, -, rfl⟩ := unregistered
  rw [← ledger_inputUnregisterDevice]
  split <;> rfl

/-- Both failure labels destroy the `vinput`. -/
theorem ledger_destroy (s : State D F) (v : Nat) :
    ledger (vinputDestroyVdevice (s.inputFreeDevice v) v) =
      (s.vinputs.next, s.vinputVdevices.erase v, s.unregistered, v :: s.destroyed) := by
  have same := ledger_inputFreeDevice s v
  simp only [ledger, Prod.mk.injEq] at same
  simp [ledger, vinputDestroyVdevice, State.listDel, State.kfree, Arena.release, same]

theorem ledger_takeId {s s' : State D F} {r : Except Int Nat}
    (taken : takeId s.kzalloc s.vinputs.next = (s', r)) :
    (∃ err, r = .error err ∧
      ledger s' = (s.vinputs.next + 1, s.vinputVdevices, s.unregistered, s.destroyed)) ∨
    (r = .ok s.vinputs.next ∧ ledger s' = (s.vinputs.next + 1,
      s.vinputs.next :: s.vinputVdevices, s.unregistered, s.destroyed)) := by
  unfold takeId at taken
  dsimp only at taken
  split at taken
  · cases taken
    exact .inl ⟨_, rfl, rfl⟩
  · cases taken
    exact .inr ⟨rfl, rfl⟩

section Arms

variable {t : Threads P D F} {p : P} {o : Answers} {len : Nat} {next : Next D F}

/-- `vinput_alloc_vdevice` gives up with nothing in hand, or has a new `vinput`. -/
theorem found_custody {dev : D} (found : t.call p = some (len, .found dev))
    (stepped : pcStep types o len t.mem (.found dev) = some next) :
    custody (t.advance p len next) = custody t ∨
      Custody.Step (custody t) (custody (t.advance p len next)) := by
  have holder := custody_holder found
  simp only [pcStep] at stepped
  split at stepped
  · cases stepped
    exact .inl (custody_return holder rfl)
  · split at stepped
    · rename_i s' err taken
      cases stepped
      rcases ledger_takeId taken with ⟨err', -, is⟩ | ⟨made, -⟩
      · have idle : (custody t).holder p = none := holder
        have same : Function.update (custody t).holder p none = (custody t).holder := by
          rw [← idle, Function.update_eq_self]
        apply Or.inr
        rw [Threads.advance, custody_done is, same]
        exact .skip
      · cases made
    · rename_i s' v taken
      cases stepped
      rcases ledger_takeId taken with ⟨err', made, -⟩ | ⟨made, is⟩
      · cases made
      · cases made
        apply Or.inr
        rw [Threads.advance, custody_begin is]
        exact .create p holder

/-- `device_unregister` begins with the input device of what the call has in hand. -/
theorem teardown_custody {v : Nat} {after : After D}
    (found : t.call p = some (len, .teardown v after))
    (stepped : pcStep types o len t.mem (.teardown v after) = some next) :
    Custody.Step (custody t) (custody (t.advance p len next)) := by
  have holder := custody_holder found
  simp only [pcStep] at stepped
  split at stepped <;> cases stepped
  · rename_i unregistered
    rw [Threads.advance, custody_begin (ledger_unregisterVdevice unregistered)]
    exact .close p v holder
  · rw [Threads.advance, custody_begin (ledger_inputUnregisterDevice _ v)]
    exact .close p v holder

/-- `vinput_release_dev` takes it out of the list. -/
theorem release_custody {v : Nat} {after : After D}
    (found : t.call p = some (len, .release v after))
    (stepped : pcStep types o len t.mem (.release v after) = some next) :
    Custody.Step (custody t) (custody (t.advance p len next)) := by
  have holder := custody_holder found
  cases after with
  | unexport =>
      cases stepped
      rw [Threads.advance, custody_done rfl]
      exact .remove p v true holder
  | unregister dev link =>
      cases stepped
      rw [Threads.advance, custody_begin rfl]
      exact .remove p v true holder

/-- The loop looks at a node, and takes what matches when that is free. -/
theorem visit_custody {dev : D} {curr : Link} (found : t.call p = some (len, .visit dev curr))
    (free : ∀ v, curr = .node v → (t.mem.vinput v).type = some dev →
      v ∈ t.mem.vinputVdevices ∧ ¬ InHand t v)
    (stepped : pcStep types o len t.mem (.visit dev curr) = some next) :
    custody (t.advance p len next) = custody t ∨
      Custody.Step (custody t) (custody (t.advance p len next)) := by
  have holder := custody_holder found
  cases curr with
  | head =>
      cases stepped
      exact .inl (custody_return holder rfl)
  | node v =>
      simp only [pcStep] at stepped
      split at stepped <;> cases stepped
      · rename_i type
        obtain ⟨there, idle⟩ := free v rfl type
        apply Or.inr
        rw [Threads.advance, custody_begin rfl]
        exact .take p v holder there fun q b held => idle (inHand_iff.2 ⟨q, b, held⟩)
      · exact .inl (custody_goto found rfl rfl)
  | poison => cases stepped

end Arms

/-- A step of a call that keeps the discipline, when a match of the loop does. -/
theorem run_custody {t : Threads P D F} {p : P} {o : Answers} {len : Nat} {pc : Pc D}
    {next : Next D F} (found : t.call p = some (len, pc))
    (free : ∀ dev v, pc = .visit dev (.node v) → (t.mem.vinput v).type = some dev →
      v ∈ t.mem.vinputVdevices ∧ ¬ InHand t v)
    (stepped : pcStep types o len t.mem pc = some next) :
    custody (t.advance p len next) = custody t ∨
      Custody.Step (custody t) (custody (t.advance p len next)) := by
  have holder := custody_holder found
  cases pc with
  | found dev => exact found_custody found stepped
  | inserted dev v =>
      simp only [pcStep] at stepped
      split at stepped <;> cases stepped
      · exact .inl (custody_goto found rfl rfl)
      · exact .inl (custody_goto found rfl rfl)
  | failInputDev v =>
      cases stepped
      apply Or.inr
      rw [Threads.advance, custody_done rfl]
      exact .discard p v holder
  | allocated dev v =>
      cases stepped
      exact .inl (custody_goto found rfl rfl)
  | typed v =>
      simp only [pcStep] at stepped
      split at stepped <;> cases stepped
      · exact .inl (custody_goto found rfl rfl)
      · exact .inl (custody_goto found rfl rfl)
  | failRegister v err =>
      cases stepped
      apply Or.inr
      rw [Threads.advance, failRegister, custody_done (ledger_destroy _ v)]
      exact .remove p v false holder
  | registered v =>
      simp only [pcStep] at stepped
      split at stepped <;> cases stepped
      · exact .inl (custody_goto found rfl rfl)
      · apply Or.inr
        rw [Threads.advance, custody_done rfl]
        exact .release p v holder
  | failRegisterVinput v err =>
      cases stepped
      apply Or.inr
      rw [Threads.advance, failRegisterVinput, deviceUnregister, custody_done (ledger_destroy _ v)]
      exact .remove p v false holder
  | teardown v after => exact .inr (teardown_custody found stepped)
  | release v after => exact .inr (release_custody found stepped)
  | oops v after => cases stepped
  | begin dev =>
      cases stepped
      exact .inl (custody_goto found rfl rfl)
  | visit dev curr =>
      refine visit_custody found (fun v node type => ?_) stepped
      subst node
      exact free dev v rfl type

/-- **The calls are a custody**, as long as removals take only what is free. -/
theorem step_custody {t u : Threads P D F} {a : Act P D} (free : TakesFree t a)
    (next : threadStep types t a = some u) :
    custody u = custody t ∨ Custody.Step (custody t) (custody u) := by
  cases a with
  | vinputRegister dev =>
      simp only [threadStep] at next
      split at next <;> cases next
      exact .inl rfl
  | exportStore p buf =>
      simp only [threadStep] at next
      split at next
      · cases next
      · rename_i idle
        have empty := custody_idle idle
        split at next <;> cases next
        · exact .inl (custody_return empty rfl)
        · exact .inl (custody_enter empty rfl rfl)
  | unexportStore p buf =>
      simp only [threadStep] at next
      split at next
      · cases next
      · rename_i idle
        have empty := custody_idle idle
        split at next
        · cases next
          exact .inl (custody_return empty rfl)
        · rename_i v found
          cases next
          apply Or.inr
          rw [custody_begin rfl]
          exact .take p v empty (unexportFind_mem found) fun q b held =>
            free v found (inHand_iff.2 ⟨q, b, held⟩)
  | vinputUnregister p dev =>
      simp only [threadStep] at next
      split at next
      · cases next
      · rename_i may
        rw [not_or] at may
        cases next
        exact .inl (custody_enter (custody_idle may.1) rfl rfl)
  | run p o =>
      simp only [threadStep, Option.bind_eq_some_iff, Option.map_eq_some_iff] at next
      obtain ⟨⟨len, pc⟩, found, step, stepped, rfl⟩ := next
      refine run_custody found ?_ stepped
      intro dev v visits type
      exact free len dev v (by rw [found, visits]) type

/-! ## Torn down once -/

/-- **No device is torn down twice** in a run whose removals take only devices that
are free. -/
theorem vinput_torn_down_once (as : List (Act P D))
    (meets : (threads (F := F) types).Meets TakesFree .init as) :
    (threads (F := F) types).Always TornDownOnce .init as := by
  have sound : (threads (F := F) types).Always (fun t => Custody.Sound (custody t)) .init as := by
    refine System.always_of_meets ?_ ?_ meets
    · intro t a u sound free next
      rcases step_custody free next with same | step
      · rw [same]
        exact sound
      · exact sound.step step
    · exact Custody.Sound.start
  exact sound.mono fun t sound => ⟨sound.closedOnce, sound.removedOnce⟩

/-- One caller exports a keyboard, and removes it. -/
def exportedKeyboard : List (Act Bool Unit) :=
  [.vinputRegister (), .exportStore true (text "vkbd\n")] ++ List.replicate 5 (.run true granted)

def removedKeyboard : List (Act Bool Unit) :=
  exportedKeyboard ++
    [.unexportStore true (text "0\n"), .run true granted, .run true granted]

theorem vinput_torn_down_once_keyboard :
    ((threads (F := Unit) fun _ => vkbdDev).run .init removedKeyboard).map (fun t =>
      (t.mem.unregistered, t.mem.destroyed)) = some ([0], [0]) ∧
      (threads (F := Unit) fun _ => vkbdDev).Always TornDownOnce .init removedKeyboard :=
  ⟨by decide, vinput_torn_down_once _ (by decide)⟩

/-- Two callers remove the same keyboard: both find it before either takes it off the
list. -/
def removedTwice : List (Act Bool Unit) :=
  exportedKeyboard ++ [.unexportStore true (text "0\n"), .unexportStore false (text "0\n"),
    .run true granted, .run false granted, .run true granted, .run false granted]

theorem vinput_torn_down_twice : ∃ t,
    (threads (F := Unit) fun _ => vkbdDev).run .init removedTwice = some t ∧
      t.mem.unregistered = [0, 0] ∧ t.mem.destroyed = [0, 0] ∧ ¬ TornDownOnce t := by
  have ends : ((threads (F := Unit) fun _ => vkbdDev).run .init removedTwice).map (fun t =>
      (t.mem.unregistered, t.mem.destroyed)) = some ([0, 0], [0, 0]) := by decide
  obtain ⟨t, ran, same⟩ := Option.map_eq_some_iff.1 ends
  simp only [Prod.mk.injEq] at same
  obtain ⟨unregistered, destroyed⟩ := same
  refine ⟨t, ran, unregistered, destroyed, ?_⟩
  intro once
  rw [TornDownOnce, unregistered] at once
  exact absurd once.1 (by decide)

end Lkmpg.Vinput
