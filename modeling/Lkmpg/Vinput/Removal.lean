/-
# Lkmpg.Vinput.Removal -- what a removal takes away, and what it leaves

`Removes types s t gone`: `t` is `s` without the devices `gone`, each torn down once
and nothing done to another.  One teardown adds one device (`Removes.teardown`); the
loop of `vinput_unregister` goes through all devices of its type
(`vinputUnregister_removes`), and `unexport_store` takes the one that was asked for
(`unexportStore_removes`).
-/
import Lkmpg.Kernel.Numerals
import Lkmpg.Vinput.Vkbd
import Lkmpg.Vinput.Wellformed

namespace Lkmpg.Vinput

open Lkmpg.Kernel Lkmpg.Theory

set_option autoImplicit false
set_option linter.unusedSectionVars false

variable {D F : Type} [DecidableEq D] [DecidableEq F] {types : D → VinputDevice}

/-- Whether `ops->kill` is set for the type of `v`. -/
def killSet (types : D → VinputDevice) (s : State D F) (v : Nat) : Bool :=
  (s.vinput v).type.any fun d => (types d).ops.kill

/-- The devices `gone` are removed, in this order. -/
structure Removes (types : D → VinputDevice) (s t : State D F) (gone : List Nat) : Prop where
  once : gone.Nodup
  member : ∀ v ∈ gone, v ∈ s.vinputVdevices
  list : t.vinputVdevices = s.vinputVdevices.filter fun v => decide (v ∉ gone)
  ids : ∀ i, t.vinputIds i = true ↔ s.vinputIds i = true ∧ ∀ v ∈ gone, (s.vinput v).id ≠ i
  unregistered : t.unregistered = gone.reverse ++ s.unregistered
  killed : t.killed = (gone.filter (killSet types s)).reverse ++ s.killed
  destroyed : t.destroyed = gone.reverse ++ s.destroyed
  vinput : t.vinput = s.vinput
  files : t.files = s.files
  reported : t.reported = s.reported

namespace Removes

variable {s t : State D F} {gone : List Nat}

theorem refl (s : State D F) : Removes types s s [] where
  once := List.nodup_nil
  member := by simp
  list := by simp
  ids := by simp
  unregistered := rfl
  killed := rfl
  destroyed := rfl
  vinput := rfl
  files := rfl
  reported := rfl

/-- A device is gone when it is no longer in the list. -/
theorem mem_gone (removes : Removes types s t gone) {v : Nat} :
    v ∈ gone ↔ v ∈ s.vinputVdevices ∧ v ∉ t.vinputVdevices := by
  rw [removes.list, List.mem_filter, decide_eq_true_iff]
  constructor
  · exact fun isGone => ⟨removes.member v isGone, fun kept => kept.2 isGone⟩
  · rintro ⟨member, taken⟩
    by_contra kept
    exact taken ⟨member, kept⟩

/-- One more device is torn down. -/
theorem teardown (removes : Removes types s t gone) (wf : Wf s) {v i : Nat} {d : D}
    (inList : v ∈ t.vinputVdevices) (type : (t.vinput v).type = some d) :
    Removes types s (removed types t v i d) (gone ++ [v]) := by
  obtain ⟨member, kept⟩ := List.mem_filter.1 (removes.list ▸ inList)
  have fresh : v ∉ gone := by simpa using kept
  have type' : (s.vinput v).type = some d := by rw [← removes.vinput, type]
  have nodup : (s.vinputVdevices.filter fun v => decide (v ∉ gone)).Nodup := wf.nodup.filter _
  constructor
  case once => exact List.nodup_append.2 ⟨removes.once, by simp, by
    rintro w inGone x isV rfl
    exact fresh (List.mem_singleton.1 isV ▸ inGone)⟩
  case member =>
    intro w inGone
    rcases List.mem_append.1 inGone with old | new
    · exact removes.member w old
    · exact List.mem_singleton.1 new ▸ member
  case list =>
    show t.vinputVdevices.erase v = _
    rw [removes.list, nodup.erase_eq_filter, List.filter_filter]
    refine List.filter_congr fun w _ => ?_
    rw [Bool.eq_iff_iff]
    simp [and_comm]
  case ids =>
    intro j
    have cleared : (removed types t v i d).vinputIds =
        Function.update t.vinputIds (s.vinput v).id false := by
      rw [← removes.vinput]
      rfl
    rw [cleared]
    by_cases own : j = (s.vinput v).id
    · simp [own]
    · rw [Function.update_of_ne own, removes.ids]
      simp only [List.mem_append, List.mem_singleton, or_imp, forall_and, forall_eq]
      exact ⟨fun set => ⟨set.1, set.2, Ne.symm own⟩, fun set => ⟨set.1, set.2.1⟩⟩
  case unregistered =>
    show v :: t.unregistered = _
    rw [removes.unregistered, List.reverse_append]
    rfl
  case killed =>
    show (if (types d).ops.kill then v :: t.killed else t.killed) = _
    have set : killSet types s v = (types d).ops.kill := by rw [killSet, type', Option.any_some]
    rw [removes.killed, List.filter_append, List.reverse_append, List.filter_singleton, set]
    cases (types d).ops.kill <;> rfl
  case destroyed =>
    show v :: t.destroyed = _
    rw [removes.destroyed, List.reverse_append]
    rfl
  case vinput => exact removes.vinput
  case files => exact removes.files
  case reported => exact removes.reported

end Removes

/-! ## vinput_unregister -/

/-- The loop removes all devices of the type. -/
theorem vinputUnregister_removes {s : State D F} (wf : Wf s) (dev : D) :
    ∃ t gone, vinputUnregister types s dev = some t ∧ Removes types s t gone ∧
      (∀ v, v ∈ gone ↔ v ∈ s.vinputVdevices ∧ (s.vinput v).type = some dev) ∧
      t.vinputVdevices =
        s.vinputVdevices.filter (fun v => decide ((s.vinput v).type ≠ some dev)) ∧
      t.vinputDevices = s.vinputDevices.erase dev := by
  have start : Removes types s (removeType s dev) [] := { Removes.refl s with }
  obtain ⟨t, ran, -, ⟨devices, gone, removes⟩, -, list⟩ := vinputUnregister_spec types dev
    (I := fun u => u.vinputDevices = s.vinputDevices.erase dev ∧ ∃ gone, Removes types s u gone)
    (by
      rintro u v i - ⟨devices, gone, removes⟩ member type
      exact ⟨devices, gone ++ [v], removes.teardown wf member type⟩)
    wf ⟨rfl, [], start⟩
  refine ⟨t, gone, ran, removes, ?_, list, devices⟩
  intro v
  rw [removes.mem_gone, list, List.mem_filter, decide_eq_true_iff]
  tauto

/-! ## unexport_store -/

/-- The ids in the list are different, so the lookup finds the one device. -/
theorem vinputGetVdeviceById_eq {s : State D F} (wf : Wf s) {v : Nat}
    (member : v ∈ s.vinputVdevices) : vinputGetVdeviceById s (s.vinput v).id = .ok v := by
  unfold vinputGetVdeviceById
  cases found : s.vinputVdevices.find? fun w =>
      decide (((s.vinput w).id : Int) = (s.vinput v).id) with
  | none =>
      have missed := List.find?_eq_none.1 found v member
      simp at missed
  | some w =>
      have same : ((s.vinput w).id : Int) = (s.vinput v).id := by
        simpa using List.find?_some found
      have own : w = v :=
        wf.apart w (List.mem_of_find?_eq_some found) v member (Int.ofNat_inj.1 same)
      rw [own]

/-- The device whose id was written is removed. -/
theorem unexportStore_removes {s : State D F} (wf : Wf s) {v : Nat}
    (member : v ∈ s.vinputVdevices) (newline : Bool) :
    ∃ t, unexportStore types s (decimal (s.vinput v).id ++ Numeral.ending newline) =
        some (t, ((decimal (s.vinput v).id ++ Numeral.ending newline).length : Int)) ∧
      Removes types s t [v] ∧ t.vinputDevices = s.vinputDevices := by
  have small := wf.minor v member
  have found : unexportFind s (decimal (s.vinput v).id ++ Numeral.ending newline) = .ok v := by
    rw [unexportFind, kstrtol_decimal (by rw [VINPUT_MINORS, MAX_VINPUT] at small; omega)]
    exact vinputGetVdeviceById_eq wf member
  obtain ⟨i, d, -, type, torn, -⟩ := wf.teardown types member
  obtain ⟨u, unregistered, left⟩ := Option.map_eq_some_iff.1 torn
  refine ⟨removed types s v i d, ?_, (Removes.refl s).teardown wf member type, rfl⟩
  rw [unexportStore, found, ← left]
  simp only [unregistered, Option.map_some]

/-- A text that is not the number of a device changes nothing. -/
theorem unexportStore_refused {s : State D F} {buf : List UInt8}
    (noDevice : ∀ n : Numeral, cstr buf = n.bytes →
      ∀ v ∈ s.vinputVdevices, ((s.vinput v).id : Int) ≠ n.value) :
    ∃ err < 0, unexportStore types s buf = some (s, err) := by
  have failed : ∃ err < 0, unexportFind s buf = .error err := by
    cases parsed : kstrtol buf with
    | error e => exact ⟨-EINVAL, by decide, by rw [unexportFind, parsed]⟩
    | ok id =>
        obtain ⟨n, text, rfl, -⟩ := kstrtol_ok_iff.1 parsed
        refine ⟨-ENODEV, by decide, ?_⟩
        rw [unexportFind, parsed]
        simp only [vinputGetVdeviceById]
        rw [List.find?_eq_none.2 fun v member => by simpa using noDevice n text v member]
  obtain ⟨err, negative, failed⟩ := failed
  exact ⟨err, negative, by rw [unexportStore, failed]⟩

/-- **Removal touches exactly the chosen devices.** -/
theorem removal_exact {s : State D F} (reached : (system types).Reachable s) :
    (∀ dev ∈ s.vinputDevices, ∃ t gone, vinputUnregister types s dev = some t ∧
      Removes types s t gone ∧
      (∀ v, v ∈ gone ↔ v ∈ s.vinputVdevices ∧ (s.vinput v).type = some dev) ∧
      t.vinputVdevices =
        s.vinputVdevices.filter (fun v => decide ((s.vinput v).type ≠ some dev)) ∧
      t.vinputDevices = s.vinputDevices.erase dev) ∧
    (∀ v ∈ s.vinputVdevices, ∀ newline, ∃ t,
      unexportStore types s (decimal (s.vinput v).id ++ Numeral.ending newline) =
        some (t, ((decimal (s.vinput v).id ++ Numeral.ending newline).length : Int)) ∧
      Removes types s t [v] ∧ t.vinputDevices = s.vinputDevices) ∧
    ∀ buf, (∀ n : Numeral, cstr buf = n.bytes →
        ∀ v ∈ s.vinputVdevices, ((s.vinput v).id : Int) ≠ n.value) →
      ∃ err < 0, unexportStore types s buf = some (s, err) := by
  have wf := reachable_wf reached
  exact ⟨fun dev _ => vinputUnregister_removes wf dev,
    fun v member newline => unexportStore_removes wf member newline,
    fun buf noDevice => unexportStore_refused noDevice⟩

/-- Two keyboards have been exported. -/
def twoKeyboards : State Unit Unit :=
  let types : Unit → VinputDevice := fun _ => vkbdDev
  let granted : Answers := ⟨true, true, 0, 0⟩
  let s := (exportStore types (vinputRegister .init ()) (text "vkbd\n") granted).1
  (exportStore types s (text "vkbd\n") granted).1

theorem removal_exact_twoKeyboards : twoKeyboards.vinputVdevices = [1, 0] ∧ ∃ t,
    unexportStore (fun _ => vkbdDev) twoKeyboards (decimal 1 ++ Numeral.ending true) =
        some (t, 2) ∧
      Removes (fun _ => vkbdDev) twoKeyboards t [1] ∧
      t.vinputDevices = twoKeyboards.vinputDevices := by
  have reached : (system fun _ => vkbdDev).Reachable twoKeyboards :=
    ⟨.init, [.vinputRegister (), .exportStore (text "vkbd\n") ⟨true, true, 0, 0⟩,
      .exportStore (text "vkbd\n") ⟨true, true, 0, 0⟩], rfl, rfl⟩
  exact ⟨by decide, (removal_exact reached).2.1 1 (by decide) true⟩

end Lkmpg.Vinput
