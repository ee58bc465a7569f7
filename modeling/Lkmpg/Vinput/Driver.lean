/-
# Lkmpg.Vinput.Driver -- vinput.c, one call at a time

The functions of `vinput.c` on the driver's static data, the `struct vinput`s they
allocate and the open files.  Addresses stand for objects: a freed one is not given
out again, and keeps what it held.  What the kernel may refuse (`kzalloc`,
`input_allocate_device`, `device_register`, a copy from or to the user) and what
`ops->init` returns are arguments.  `device_unregister` drops the last reference,
so it runs `vinput_release_dev`.

A `struct vinput_device` is static data of the module of its type: `types` says
what is at its address.  Dereferencing a NULL or poisoned pointer has no value.
-/
import Lkmpg.Kernel.Library
import Lkmpg.Kernel.ListHead
import Lkmpg.Theory.Arena
import Lkmpg.Theory.Bytes
import Mathlib.Logic.Function.Basic

namespace Lkmpg.Vinput

open Lkmpg.Kernel Lkmpg.Theory

set_option autoImplicit false

def VINPUT_MAX_LEN : Nat := 128
def MAX_VINPUT : Nat := 32
def VINPUT_MINORS : Nat := MAX_VINPUT

/-! ## Types of devices -/

/-- What `ops->send` leaves in `last_entry`, reports with `input_report_key` as
codes and values, and returns. -/
structure Sent where
  lastEntry : Int64
  reported : List (Nat × Int)
  ret : Int

/-- `struct vinput_ops`, as functions of `last_entry`: `read` puts its bytes at the
start of the buffer. -/
structure VinputOps where
  /-- Whether `ops->kill` is set. -/
  kill : Bool
  send : (lastEntry : Int64) → (buff : List UInt8) → (len : Int) → Sent
  read : (lastEntry : Int64) → (len : Int) → List UInt8 × Int
  read_fits : ∀ lastEntry len, (read lastEntry len).1.length ≤ VINPUT_MAX_LEN + 1

structure VinputDevice where
  name : List UInt8
  ops : VinputOps
  name_fits : name.length < 16
  name_ne_zero : ∀ b ∈ name, b ≠ 0

/-! ## The state -/

/-- `struct vinput`. -/
structure Vdevice (D : Type) where
  id : Nat
  lastEntry : Int64
  input : Option Nat
  type : Option D

/-- What `kzalloc` returns. -/
def Vdevice.zero {D : Type} : Vdevice D := ⟨0, 0, none, none⟩

structure File where
  privateData : Nat
  fPos : Nat
  deriving DecidableEq

/-- `D` are the addresses of `struct vinput_device`s, `F` the files. -/
structure State (D F : Type) where
  vinputIds : Nat → Bool
  vinputDevices : List D
  vinputVdevices : List Nat
  /-- What is, or was before it was freed, at each address. -/
  vinput : Nat → Vdevice D
  vinputs : Arena
  inputs : Arena
  /-- The files open on the character device. -/
  files : F → Option File
  /-- The calls made with each `vinput`, the last one first: its input device passed
  to `input_unregister_device`, `ops->kill`, `vinput_destroy_vdevice`. -/
  unregistered : List Nat
  killed : List Nat
  destroyed : List Nat
  /-- The events reported for each `vinput`, oldest first. -/
  reported : List (Nat × Nat × Int)

/-- After `vinput_init`. -/
def State.init {D F : Type} : State D F where
  vinputIds _ := false
  vinputDevices := []
  vinputVdevices := []
  vinput _ := .zero
  vinputs := .empty
  inputs := .empty
  files _ := none
  unregistered := []
  killed := []
  destroyed := []
  reported := []

section Driver

variable {D F : Type} [DecidableEq D] [DecidableEq F] (types : D → VinputDevice)

/-! ## The kernel's part -/

def findFirstZeroBit (bits : Nat → Bool) (size : Nat) : Nat :=
  ((List.range size).find? fun i => !bits i).getD size

namespace State

def modify (s : State D F) (v : Nat) (f : Vdevice D → Vdevice D) : State D F :=
  { s with vinput := Function.update s.vinput v (f (s.vinput v)) }

def kzalloc (s : State D F) : State D F :=
  { s with
    vinputs := s.vinputs.alloc
    vinput := Function.update s.vinput s.vinputs.next .zero }

def kfree (s : State D F) (v : Nat) : State D F :=
  { s with vinputs := s.vinputs.release v }

/-- `list_del(&vinput->list)`. -/
def listDel (s : State D F) (v : Nat) : State D F :=
  { s with vinputVdevices := s.vinputVdevices.erase v }

/-- `vinput->input = input_allocate_device()`, when it does not fail. -/
def inputAllocateDevice (s : State D F) (v : Nat) : State D F :=
  { s.modify v fun x => { x with input := some s.inputs.next } with inputs := s.inputs.alloc }

/-- `input_free_device(vinput->input)`. -/
def inputFreeDevice (s : State D F) (v : Nat) : State D F :=
  match (s.vinput v).input with
  | none => s
  | some i => { s with inputs := s.inputs.release i }

/-- `input_unregister_device(vinput->input)`. -/
def inputUnregisterDevice (s : State D F) (v : Nat) : State D F :=
  { s.inputFreeDevice v with unregistered := v :: s.unregistered }

end State

/-! ## Lookups -/

def vinputGetDeviceByType (s : State D F) (type : List UInt8) : Except Int D :=
  match s.vinputDevices.find? fun d =>
      decide (strncmp type (types d).name (types d).name.length = 0) with
  | some d => .ok d
  | none => .error (-ENODEV)

def vinputGetVdeviceById (s : State D F) (id : Int) : Except Int Nat :=
  match s.vinputVdevices.find? fun v => decide (((s.vinput v).id : Int) = id) with
  | some v => .ok v
  | none => .error (-ENODEV)

/-! ## Removal -/

/-- `vinput_unregister_vdevice`, up to its dereference of `vinput->type`. -/
def vinputUnregisterVdevice (s : State D F) (v : Nat) : Option (State D F) :=
  let s := s.inputUnregisterDevice v
  (s.vinput v).type.map fun d =>
    if (types d).ops.kill then { s with killed := v :: s.killed } else s

def vinputDestroyVdevice (s : State D F) (v : Nat) : State D F :=
  { (s.listDel v).kfree v with
    vinputIds := Function.update s.vinputIds (s.vinput v).id false
    destroyed := v :: s.destroyed }

/-- `device_unregister(&vinput->dev)`, which runs `vinput_release_dev`. -/
def deviceUnregister (s : State D F) (v : Nat) : State D F := vinputDestroyVdevice s v

/-! ## export_store -/

/-- What the kernel and `ops->init` answer in one `export_store`. -/
structure Answers where
  kzalloc : Bool
  inputAllocateDevice : Bool
  deviceRegister : Int
  init : Int

/-- The critical section of `vinput_alloc_vdevice`: `vinput` gets an id, and without
one it is freed. -/
def takeId (s : State D F) (v : Nat) : State D F × Except Int Nat :=
  let s := s.modify v fun x => { x with id := findFirstZeroBit s.vinputIds VINPUT_MINORS }
  if VINPUT_MINORS ≤ (s.vinput v).id then (s.kfree v, .error (-ENOBUFS))
  else
    ({ s with
      vinputIds := Function.update s.vinputIds (s.vinput v).id true
      vinputVdevices := v :: s.vinputVdevices }, .ok v)

/-- `fail_input_dev`. -/
def failInputDev (s : State D F) (v : Nat) : State D F := (s.listDel v).kfree v

def vinputAllocVdevice (o : Answers) (s : State D F) : State D F × Except Int Nat :=
  if !o.kzalloc then (s, .error (-ENOMEM))
  else
    match takeId s.kzalloc s.vinputs.next with
    | (s, .error err) => (s, .error err)
    | (s, .ok v) =>
        if !o.inputAllocateDevice then (failInputDev s v, .error (-ENOMEM))
        else (s.inputAllocateDevice v, .ok v)

/-- `fail_register`. -/
def failRegister (s : State D F) (v : Nat) : State D F :=
  vinputDestroyVdevice (s.inputFreeDevice v) v

/-- `fail_register_vinput`. -/
def failRegisterVinput (s : State D F) (v : Nat) : State D F :=
  deviceUnregister (s.inputFreeDevice v) v

def exportStore (s : State D F) (buf : List UInt8) (o : Answers) : State D F × Int :=
  match vinputGetDeviceByType types s buf with
  | .error err => (s, err)
  | .ok device =>
      match vinputAllocVdevice o s with
      | (s, .error err) => (s, err)
      | (s, .ok v) =>
          let s := s.modify v fun x => { x with type := some device }
          if o.deviceRegister < 0 then (failRegister s v, o.deviceRegister)
          else if o.init < 0 then (failRegisterVinput s v, o.init)
          else (s, buf.length)

/-! ## unexport_store -/

/-- `kstrtol` and the lookup. -/
def unexportFind (s : State D F) (buf : List UInt8) : Except Int Nat :=
  match kstrtol buf with
  | .error _ => .error (-EINVAL)
  | .ok id => vinputGetVdeviceById s id

def unexportStore (s : State D F) (buf : List UInt8) : Option (State D F × Int) :=
  match unexportFind s buf with
  | .error err => some (s, err)
  | .ok v =>
      (vinputUnregisterVdevice types s v).map fun s => (deviceUnregister s v, buf.length)

/-! ## vinput_register and vinput_unregister -/

def vinputRegister (s : State D F) (dev : D) : State D F :=
  { s with vinputDevices := dev :: s.vinputDevices }

/-- `list_for_each_safe (curr, next, &vinput_vdevices)` of `vinput_unregister`. -/
def unregisterLoop (dev : D) : (fuel : Nat) → (curr : Link) → State D F → Option (State D F)
  | _, .head, s => some s
  | fuel + 1, .node v, s =>
      let next := nextLink s.vinputVdevices v
      if (s.vinput v).type = some dev then
        (vinputUnregisterVdevice types s v).bind fun s =>
          unregisterLoop dev fuel next (deviceUnregister s v)
      else unregisterLoop dev fuel next s
  | _, _, _ => none

/-- `list_del(&dev->list)`. -/
def removeType (s : State D F) (dev : D) : State D F :=
  { s with vinputDevices := s.vinputDevices.erase dev }

def vinputUnregister (s : State D F) (dev : D) : Option (State D F) :=
  unregisterLoop types dev s.vinputVdevices.length (firstLink s.vinputVdevices)
    (removeType s dev)

/-! ## File operations -/

def vinputOpen (s : State D F) (file : F) (minor : Nat) : State D F × Int :=
  match vinputGetVdeviceById s minor with
  | .error err => (s, err)
  | .ok v => ({ s with files := Function.update s.files file (some ⟨v, 0⟩) }, 0)

/-- `vinput_release`, after which the file is gone. -/
def vinputRelease (s : State D F) (file : F) : State D F :=
  { s with files := Function.update s.files file none }

/-- The `count` of `vinput_read` that is copied, on machine integers. -/
def readCount (count offset : Nat) (len : Int) : Nat :=
  if len < offset then 0
  else if VINPUT_MAX_LEN < ulong (count + offset) then (len - offset).toNat
  else count

/-- `vinput_read`: what it returns, and what is then in the user buffer.  A byte of
`buff` that `ops->read` has not written is `none`. -/
def vinputRead (s : State D F) (file : F) (count : Nat) (copied : Bool) :
    Option (State D F × Int × List (Option UInt8)) :=
  (s.files file).bind fun f =>
    let vinput := s.vinput f.privateData
    vinput.type.map fun d =>
      let (bytes, len) := (types d).ops.read vinput.lastEntry (int32 count)
      let buff := splice (List.replicate (VINPUT_MAX_LEN + 1) none) 0 (bytes.map some)
      let count := readCount count f.fPos len
      if !copied then (s, -EFAULT, [])
      else
        ({ s with files := Function.update s.files file (some ⟨f.privateData, f.fPos + count⟩) },
          count, (List.range count).map fun i => (buff[f.fPos + i]?).join)

/-- `vinput_write` of the bytes `buffer`. -/
def vinputWrite (s : State D F) (file : F) (buffer : List UInt8) (copied : Bool) :
    Option (State D F × Int) :=
  (s.files file).bind fun f =>
    if VINPUT_MAX_LEN < buffer.length then some (s, -EINVAL)
    else if !copied then some (s, -EFAULT)
    else
      let vinput := s.vinput f.privateData
      vinput.type.map fun d =>
        let buff := splice (List.replicate (VINPUT_MAX_LEN + 1) 0) 0 buffer
        let sent := (types d).ops.send vinput.lastEntry buff buffer.length
        ({ s.modify f.privateData fun x => { x with lastEntry := sent.lastEntry } with
          reported := s.reported ++ sent.reported.map fun e => (f.privateData, e) }, sent.ret)

end Driver

end Lkmpg.Vinput
