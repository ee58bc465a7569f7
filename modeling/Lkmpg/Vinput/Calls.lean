/-
# Lkmpg.Vinput.Calls -- what each call of vinput.c does

`exportStore_exported` lists the outcomes of `export_store` as whole states, one for
each of its exits, and `teardown_eq` is the one outcome of a removal; what follows
about the driver is read off from them.
-/
import Lkmpg.Vinput.Driver

namespace Lkmpg.Vinput

open Lkmpg.Kernel Lkmpg.Theory

set_option autoImplicit false
set_option linter.unusedSectionVars false

variable {D F : Type} [DecidableEq D] [DecidableEq F] {types : D → VinputDevice}

/-! ## The id bitmap -/

theorem findFirstZeroBit_clear {bits : Nat → Bool} {size : Nat}
    (found : findFirstZeroBit bits size < size) : bits (findFirstZeroBit bits size) = false := by
  unfold findFirstZeroBit at found ⊢
  cases search : (List.range size).find? fun i => !bits i with
  | none => simp [search] at found
  | some i =>
      have clear := List.find?_some search
      simpa using clear

theorem findFirstZeroBit_full {bits : Nat → Bool} {size : Nat}
    (full : size ≤ findFirstZeroBit bits size) {i : Nat} (below : i < size) : bits i = true := by
  unfold findFirstZeroBit at full
  cases search : (List.range size).find? fun i => !bits i with
  | none =>
      have set := List.find?_eq_none.1 search i (List.mem_range.2 below)
      simpa using set
  | some j =>
      have member := List.mem_of_find?_eq_some search
      rw [List.mem_range] at member
      simp only [search, Option.getD_some] at full
      omega

/-! ## The exits of export_store -/

section Export

variable (types) (s : State D F) (buf : List UInt8) (o : Answers)

/-- The id the next `vinput` gets. -/
def nextId : Nat := findFirstZeroBit s.vinputIds VINPUT_MINORS

/-- A `vinput` was allocated, held `x`, and is freed. -/
def spent (x : Vdevice D) : State D F :=
  { s with
    vinputs := s.vinputs.spend
    vinput := Function.update s.vinput s.vinputs.next x }

/-- The `vinput` once it is set up, before or after it gets its type. -/
def fresh (type : Option D) : Vdevice D := ⟨nextId s, 0, some s.inputs.next, type⟩

/-- A `vinput` and its input device were set up and are gone again. -/
def undone (type : Option D) : State D F :=
  { spent s (fresh s type) with
    inputs := s.inputs.spend
    destroyed := s.vinputs.next :: s.destroyed }

/-- A device is added. -/
def added (type : Option D) : State D F :=
  { s with
    vinputIds := Function.update s.vinputIds (nextId s) true
    vinputVdevices := s.vinputs.next :: s.vinputVdevices
    vinput := Function.update s.vinput s.vinputs.next (fresh s type)
    vinputs := s.vinputs.alloc
    inputs := s.inputs.alloc }

/-- The state and the return value at each exit of `export_store`. -/
inductive Exported : State D F × Int → Prop where
  | noType (absent : vinputGetDeviceByType types s buf = .error (-ENODEV)) :
      Exported (s, -ENODEV)
  | noMemory {device : D} (type : vinputGetDeviceByType types s buf = .ok device)
      (memory : o.kzalloc = false) : Exported (s, -ENOMEM)
  | noId {device : D} (type : vinputGetDeviceByType types s buf = .ok device)
      (memory : o.kzalloc = true) (full : VINPUT_MINORS ≤ nextId s) :
      Exported (spent s ⟨nextId s, 0, none, none⟩, -ENOBUFS)
  | noInput {device : D} (type : vinputGetDeviceByType types s buf = .ok device)
      (memory : o.kzalloc = true) (id : nextId s < VINPUT_MINORS)
      (input : o.inputAllocateDevice = false) :
      Exported ({ spent s ⟨nextId s, 0, none, none⟩ with
        vinputIds := Function.update s.vinputIds (nextId s) true }, -ENOMEM)
  | failed {device : D} {err : Int} (type : vinputGetDeviceByType types s buf = .ok device)
      (memory : o.kzalloc = true) (id : nextId s < VINPUT_MINORS)
      (input : o.inputAllocateDevice = true) (negative : err < 0)
      (refused : err = o.deviceRegister ∨ err = o.init) : Exported (undone s (some device), err)
  | done {device : D} (type : vinputGetDeviceByType types s buf = .ok device)
      (memory : o.kzalloc = true) (id : nextId s < VINPUT_MINORS)
      (input : o.inputAllocateDevice = true) : Exported (added s (some device), buf.length)

variable {s o}

theorem vinputAllocVdevice_ok (memory : o.kzalloc = true) (id : nextId s < VINPUT_MINORS)
    (input : o.inputAllocateDevice = true) :
    vinputAllocVdevice o s = (added s none, .ok s.vinputs.next) := by
  unfold nextId at id
  simp [vinputAllocVdevice, takeId, memory, State.modify, State.kzalloc, Nat.not_le_of_lt id,
    Vdevice.zero, nextId, input, State.inputAllocateDevice, added, fresh]

theorem added_type (device : D) :
    (added s none).modify s.vinputs.next (fun x => { x with type := some device }) =
      added s (some device) := by
  simp [added, State.modify, fresh]

/-- Both failure labels of `export_store` take back what the allocator did. -/
theorem added_undone (id : nextId s < VINPUT_MINORS) (type : Option D) :
    vinputDestroyVdevice ((added s type).inputFreeDevice s.vinputs.next) s.vinputs.next =
      undone s type := by
  have clear : s.vinputIds (nextId s) = false := findFirstZeroBit_clear id
  have back : Function.update (Function.update s.vinputIds (nextId s) true) (nextId s) false =
      s.vinputIds := by
    rw [Function.update_idem, ← clear, Function.update_eq_self]
  simp [vinputDestroyVdevice, State.inputFreeDevice, State.listDel, State.kfree,
    added, undone, spent, fresh, back, Arena.spend]

variable (s o)

theorem exportStore_exported : Exported types s buf o (exportStore types s buf o) := by
  unfold exportStore
  cases type : vinputGetDeviceByType types s buf with
  | error err =>
      have same : err = -ENODEV := by
        simp only [vinputGetDeviceByType] at type
        split at type <;> simp_all
      subst same
      exact .noType type
  | ok device =>
      cases memory : o.kzalloc with
      | false => simpa [vinputAllocVdevice, memory] using Exported.noMemory type memory
      | true =>
          by_cases full : VINPUT_MINORS ≤ nextId s
          · have exit := Exported.noId type memory full
            unfold nextId at full
            simpa [vinputAllocVdevice, takeId, memory, State.modify, State.kzalloc, State.kfree,
              full, spent, Arena.spend, Vdevice.zero, nextId] using exit
          · have id := Nat.lt_of_not_le full
            cases input : o.inputAllocateDevice with
            | false =>
                have exit := Exported.noInput type memory id input
                unfold nextId at full
                simpa [vinputAllocVdevice, takeId, memory, State.modify, State.kzalloc,
                  State.kfree, full, spent, Arena.spend, Vdevice.zero, nextId, input,
                  failInputDev, State.listDel] using exit
            | true =>
                simp only [vinputAllocVdevice_ok memory id input, added_type]
                split
                · rename_i refused
                  rw [failRegister, added_undone id]
                  exact .failed type memory id input refused (.inl rfl)
                · split
                  · rename_i refused
                    rw [failRegisterVinput, deviceUnregister, added_undone id]
                    exact .failed type memory id input refused (.inr rfl)
                  · exact .done type memory id input

end Export

/-! ## Removal -/

/-- `vinput_unregister_vdevice` and `device_unregister` of one `vinput`. -/
def teardown (types : D → VinputDevice) (s : State D F) (v : Nat) : Option (State D F) :=
  (vinputUnregisterVdevice types s v).map fun s => deviceUnregister s v

/-- What a teardown leaves of a `vinput` with the input device `i` and the type `d`. -/
def removed (types : D → VinputDevice) (s : State D F) (v i : Nat) (d : D) : State D F :=
  { s with
    vinputIds := Function.update s.vinputIds (s.vinput v).id false
    vinputVdevices := s.vinputVdevices.erase v
    vinputs := s.vinputs.release v
    inputs := s.inputs.release i
    unregistered := v :: s.unregistered
    killed := if (types d).ops.kill then v :: s.killed else s.killed
    destroyed := v :: s.destroyed }

theorem teardown_eq {s : State D F} {v i : Nat} {d : D} (input : (s.vinput v).input = some i)
    (type : (s.vinput v).type = some d) : teardown types s v = some (removed types s v i d) := by
  simp only [teardown, vinputUnregisterVdevice, State.inputUnregisterDevice,
    State.inputFreeDevice, input, type, Option.map_some, Option.some.injEq]
  split <;> rename_i kill <;>
    simp [deviceUnregister, vinputDestroyVdevice, State.listDel, State.kfree, removed, kill]

end Lkmpg.Vinput
