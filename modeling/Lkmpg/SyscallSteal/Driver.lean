/-
# Lkmpg.SyscallSteal.Driver -- modules built from syscall-steal.c

Any number of modules built from the table variant are loaded and unloaded, one call
at a time.  `acquire_sys_call_table` gives each of them `NULL` or some address; the
entry `t` is the word `__NR_openat` of the table at the address `t`, so modules with
different tables do not meet.

A function a table entry may point to is one of the kernel, or the `our_sys_openat` of
a module, told by where the module was put in memory.  Two loaded modules are not at the
same place.
-/
import Lkmpg.Kernel.Library
import Lkmpg.Theory.System
import Mathlib.Logic.Function.Basic

namespace Lkmpg.SyscallSteal

open Lkmpg.Kernel Lkmpg.Theory

set_option autoImplicit false

inductive Code where
  /-- What the entry `t` points to before any module is loaded. -/
  | original (t : Nat)
  /-- The `our_sys_openat` of the module at that place. -/
  | ourSysOpenat (place : Nat)
  deriving DecidableEq

/-- A loaded module. -/
structure Module (M : Type) where
  name : M
  place : Nat
  uid : Nat
  /-- `sys_call_table_stolen`. -/
  sysCallTableStolen : Option Nat
  /-- `original_call`. -/
  originalCall : Code
  deriving DecidableEq

/-! ## The replaced system call -/

/-- The loop over the file name: every byte is printed, up to and with the first NUL.
After the bytes that can be read `get_user` gives 0. -/
def report : List UInt8 → List UInt8
  | [] => [0]
  | ch :: filename => if ch = 0 then [0] else ch :: report filename

/-- What `our_sys_openat` prints of the name, and the function it calls with its own
arguments. -/
def Module.ourSysOpenat {M : Type} (m : Module M) (currentUid : Nat) (filename : List UInt8) :
    List UInt8 × Code :=
  (if currentUid ≠ m.uid then [] else report filename, m.originalCall)

/-! ## Loading and unloading -/

variable (M : Type)

structure State where
  entry : Nat → Code
  /-- The modules that are loaded, the last one first. -/
  loaded : List (Module M)
  /-- `syscall_steal_end` has printed its alert. -/
  alert : Bool

inductive Action where
  /-- `syscall_steal_start` of a module put at a place; `acquired` is the answer of
  `acquire_sys_call_table`. -/
  | start (name : M) (place uid : Nat) (acquired : Option Nat)
  /-- `syscall_steal_end`. -/
  | finish (name : M)

variable {M} [DecidableEq M]

/-- `syscall_steal_start`, where it returns 0 or -1. -/
def State.syscallStealStart (s : State M) (name : M) (place uid : Nat) : Option Nat → State M
  | none => s
  | some t => { s with
      entry := Function.update s.entry t (.ourSysOpenat place)
      loaded := ⟨name, place, uid, some t, s.entry t⟩ :: s.loaded }

/-- `syscall_steal_end`, with the module gone afterwards. -/
def State.syscallStealEnd (s : State M) (m : Module M) : State M :=
  match m.sysCallTableStolen with
  | none => { s with loaded := s.loaded.erase m }
  | some t => {
      entry := Function.update s.entry t m.originalCall
      loaded := s.loaded.erase m
      alert := s.alert || s.entry t ≠ .ourSysOpenat m.place }

def step (s : State M) : Action M → Option (State M)
  | .start name place uid acquired =>
      if s.loaded.any fun m => m.name = name ∨ m.place = place then none
      else some (s.syscallStealStart name place uid acquired)
  | .finish name => (s.loaded.find? fun m => m.name = name).map s.syscallStealEnd

def start : State M := ⟨.original, [], false⟩

def system (M : Type) [DecidableEq M] : System (State M) (Action M) where
  Start s := s = start
  step := step

/-! ## Calling through an entry -/

/-- A call of a function, followed through `original_call`: the modules it goes through,
what they print, and the function of the kernel it ends in.  A call into a module that is
not loaded ends nowhere, and so does one that takes more than `fuel` modules. -/
def State.call (s : State M) (currentUid : Nat) (filename : List UInt8) :
    Nat → Code → Option (List (Module M) × List UInt8 × Nat)
  | _, .original t => some ([], [], t)
  | 0, .ourSysOpenat _ => none
  | fuel + 1, .ourSysOpenat place =>
      (s.loaded.find? fun m => m.place = place).bind fun m =>
        let (printed, next) := m.ourSysOpenat currentUid filename
        (s.call currentUid filename fuel next).map fun (path, rest, t) =>
          (m :: path, printed ++ rest, t)

end Lkmpg.SyscallSteal
