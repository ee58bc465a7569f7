/-
# Lkmpg.Vinput.Export -- which type export_store makes a device of

`vinput_get_device_by_type` takes the first type in `vinput_devices` whose name the
text starts with (`vinputGetDeviceByType_eq`), and the last one registered is the
first in the list.  So the type whose name was written is found exactly when no
other name at the start of the text is found before it (`export_exact_iff`).
-/
import Lkmpg.Kernel.CString
import Lkmpg.Theory.FirstMatch
import Lkmpg.Vinput.Vkbd
import Lkmpg.Vinput.Calls

namespace Lkmpg.Vinput

open Lkmpg.Kernel Lkmpg.Theory

set_option autoImplicit false

/-! ## The lookup -/

section Export

variable {D F : Type} [DecidableEq D] [DecidableEq F] {types : D → VinputDevice}

/-- The text starts with the name of the type. -/
def startsWith (types : D → VinputDevice) (buf : List UInt8) (d : D) : Bool :=
  (types d).name.isPrefixOf buf

omit [DecidableEq D] [DecidableEq F] in
theorem vinputGetDeviceByType_eq (s : State D F) (buf : List UInt8) :
    vinputGetDeviceByType types s buf =
      match s.vinputDevices.find? (startsWith types buf) with
      | some d => .ok d
      | none => .error (-ENODEV) := by
  have test : (fun d => decide (strncmp buf (types d).name (types d).name.length = 0)) =
      startsWith types buf := by
    funext d
    rw [startsWith, Bool.eq_iff_iff, decide_eq_true_iff, List.isPrefixOf_iff_prefix]
    exact strncmp_eq_zero_iff (types d).name_ne_zero buf
  unfold vinputGetDeviceByType
  cases found : s.vinputDevices.find? (startsWith types buf) with
  | some d => rw [← test] at found; simp only [found]
  | none => rw [← test] at found; simp only [found]

/-! ## What is exported -/

/-- The kernel refuses nothing, and `ops->init` succeeds. -/
structure Granted (o : Answers) : Prop where
  memory : o.kzalloc = true
  input : o.inputAllocateDevice = true
  device : 0 ≤ o.deviceRegister
  init : 0 ≤ o.init

variable {s : State D F} {buf : List UInt8} {o : Answers}

theorem exportStore_granted (granted : Granted o) (free : nextId s < VINPUT_MINORS) :
    exportStore types s buf o =
      match s.vinputDevices.find? (startsWith types buf) with
      | some d => (added s (some d), buf.length)
      | none => (s, -ENODEV) := by
  rw [exportStore, vinputGetDeviceByType_eq]
  cases s.vinputDevices.find? (startsWith types buf) with
  | none => rfl
  | some d =>
      have device := granted.device
      have init := granted.init
      simp only [vinputAllocVdevice_ok granted.memory free granted.input, added_type]
      rw [if_neg (by omega), if_neg (by omega)]

/-- The text makes a device of the type with the name `name`, and fails with
`-ENODEV` when there is none. -/
def ExportsByName (types : D → VinputDevice) (name : List UInt8) (s : State D F)
    (buf : List UInt8) (o : Answers) : Prop :=
  (∃ d ∈ s.vinputDevices, (types d).name = name ∧
      exportStore types s buf o = (added s (some d), (buf.length : Int))) ∨
    ((∀ d ∈ s.vinputDevices, (types d).name ≠ name) ∧
      exportStore types s buf o = (s, -ENODEV))

theorem exportsByName_iff {name : List UInt8} (granted : Granted o)
    (free : nextId s < VINPUT_MINORS) (start : name <+: buf) :
    ExportsByName types name s buf o ↔
      ∀ d, s.vinputDevices.find? (startsWith types buf) = some d → (types d).name = name := by
  rw [ExportsByName, exportStore_granted granted free]
  constructor
  · rintro (⟨d, -, named, exported⟩ | ⟨-, exported⟩) e found
    · rw [found] at exported
      have type := congrArg (fun r : State D F × Int => (r.1.vinput s.vinputs.next).type) exported
      simp only [added, Function.update_self, fresh, Option.some.injEq] at type
      rw [type, named]
    · rw [found] at exported
      have ret := congrArg Prod.snd exported
      simp only [ENODEV] at ret
      omega
  · intro right
    cases found : s.vinputDevices.find? (startsWith types buf) with
    | some d => exact .inl ⟨d, List.mem_of_find?_eq_some found, right d found, rfl⟩
    | none =>
        refine .inr ⟨?_, rfl⟩
        rintro d member rfl
        refine List.find?_eq_none.1 found d member ?_
        exact List.isPrefixOf_iff_prefix.2 start

/-- **Exporting by name.**  The device is of the type that was named exactly when each
other type the text starts with comes after one of that name, that is, was registered
before it; and this does not depend on the order when there are no such types. -/
theorem export_exact_iff {name : List UInt8} (line : buf = name ∨ buf = name ++ text "\n")
    (granted : Granted o) (free : nextId s < VINPUT_MINORS) :
    (ExportsByName types name s buf o ↔
        Covered (startsWith types buf) (fun d => (types d).name = name) s.vinputDevices) ∧
      ((∀ devices : List D, devices.Perm s.vinputDevices →
          ExportsByName types name { s with vinputDevices := devices } buf o) ↔
        ∀ d ∈ s.vinputDevices, (types d).name <+: buf → (types d).name = name) := by
  have start : name <+: buf := by
    rcases line with rfl | rfl
    · exact List.prefix_rfl
    · exact List.prefix_append name _
  constructor
  · rw [exportsByName_iff granted free start]
    refine first_iff ?_
    rintro d rfl
    exact List.isPrefixOf_iff_prefix.2 start
  · have each : ∀ devices : List D,
        ExportsByName types name { s with vinputDevices := devices } buf o ↔
          ∀ d, devices.find? (startsWith types buf) = some d → (types d).name = name :=
      fun devices => exportsByName_iff (s := { s with vinputDevices := devices }) granted free start
    simp only [each]
    rw [first_perm_iff]
    simp only [startsWith, List.isPrefixOf_iff_prefix]

end Export

/-- Two types, the second with the first one's name at the start of its own. -/
def pairTypes : Bool → VinputDevice
  | false => vkbdDev
  | true => ⟨text "vkbd2", vkbdOps, by decide, ne_zero_of_all (by decide)⟩

/-- `vkbd` is registered, and then `vkbd2`, or the other way around. -/
def pairState (first : Bool) : State Bool Unit :=
  vinputRegister (vinputRegister .init first) !first

theorem export_exact_iff_vkbd2 : Granted ⟨true, true, 0, 0⟩ ∧
    ExportsByName pairTypes (text "vkbd2") (pairState false) (text "vkbd2\n")
      ⟨true, true, 0, 0⟩ := by
  have granted : Granted ⟨true, true, 0, 0⟩ := ⟨rfl, rfl, by decide, by decide⟩
  refine ⟨granted, (export_exact_iff (.inr (by decide)) granted (by decide)).1.2 ?_⟩
  exact covered_cons_of_wanted rfl

/-- With `vkbd` registered last, `vkbd2` makes a device of the type `vkbd`. -/
theorem export_vkbd2_makes_vkbd : ∃ t,
    exportStore pairTypes (pairState true) (text "vkbd2\n") ⟨true, true, 0, 0⟩ = (t, 6) ∧
      t.vinputVdevices = [0] ∧ (t.vinput 0).type = some false ∧
      ¬ ExportsByName pairTypes (text "vkbd2") (pairState true) (text "vkbd2\n")
        ⟨true, true, 0, 0⟩ := by
  refine ⟨_, rfl, rfl, rfl, ?_⟩
  rintro (⟨d, -, named, exported⟩ | ⟨absent, -⟩)
  · have type := congrArg (fun r : State Bool Unit × Int => (r.1.vinput 0).type) exported
    cases d with
    | false => exact absurd named (by decide)
    | true => cases type
  · exact absent true (by decide) rfl

end Lkmpg.Vinput
