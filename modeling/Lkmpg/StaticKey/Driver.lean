/-
# Lkmpg.StaticKey.Driver -- static_key.c, one call at a time

`device_open` prints the state of the static key into `msg`, and `device_write` takes
a command that changes it.  Only one process has the file open, so a call finds `msg`
as the last `device_open` left it.  What is in the local array `command` before it is
written is an argument.
-/
import Lkmpg.Kernel.MsgBuffer
import Lkmpg.Theory.System
import Mathlib.Logic.Function.Basic

namespace Lkmpg.StaticKey

open Lkmpg.Kernel Lkmpg.Theory

set_option autoImplicit false

def BUF_LEN : Nat := 10

def CDEV_NOT_USED : Int := 0
def CDEV_EXCLUSIVE_OPEN : Int := 1

/-- The static data of the driver: `msg` and the key. -/
structure Data where
  msg : List UInt8
  fkey : Bool
  msg_len : msg.length = BUF_LEN + 1

def Data.init : Data := ⟨List.replicate (BUF_LEN + 1) 0, false, List.length_replicate⟩

/-- The text `device_open` prints for a key. -/
def keyText (fkey : Bool) : List UInt8 := if fkey then text "enabled\n" else text "disabled\n"

theorem length_keyText_lt (fkey : Bool) : (keyText fkey).length < BUF_LEN := by
  cases fkey <;> decide

/-- `sprintf(msg, static_key_enabled(&fkey) ? "enabled\n" : "disabled\n")`. -/
def Data.sprintf (d : Data) : Data where
  msg := splice d.msg 0 (keyText d.fkey ++ [0])
  fkey := d.fkey
  msg_len := by
    have fits := length_keyText_lt d.fkey
    rw [length_splice, d.msg_len]
    rw [d.msg_len, List.length_append, List.length_singleton]
    omega

def deviceRead (d : Data) (length offset : Nat) : Option (List UInt8 × Nat) :=
  readMsg d.msg length offset

/-- The key and the return value after `device_write` of `buffer`. -/
def deviceWrite (command : List UInt8) (fkey : Bool) (buffer : List UInt8) (copied : Bool) :
    Bool × Int :=
  if 10 < buffer.length then (fkey, -EINVAL)
  else if !copied then (fkey, -EFAULT)
  else
    let command := splice command 0 buffer
    if strncmp command (text "enable") (text "enable").length = 0 then (true, buffer.length)
    else if strncmp command (text "disable") (text "disable").length = 0 then
      (false, buffer.length)
    else (fkey, -EINVAL)

variable (P : Type)

structure State where
  alreadyOpen : Int
  data : Data
  /-- The processes that have the file open. -/
  opened : P → Bool

inductive Action where
  | deviceOpen (p : P)
  | deviceWrite (p : P) (command buffer : List UInt8) (copied : Bool)
  | deviceRelease (p : P)

variable {P} [DecidableEq P]

def deviceOpen (s : State P) (p : P) : State P × Int :=
  let (found, left) := atomicCmpxchg s.alreadyOpen CDEV_NOT_USED CDEV_EXCLUSIVE_OPEN
  if found ≠ 0 then ({ s with alreadyOpen := left }, -EBUSY)
  else
    ({ s with
      alreadyOpen := left
      data := s.data.sprintf
      opened := Function.update s.opened p true }, 0)

def deviceRelease (s : State P) (p : P) : State P :=
  { s with alreadyOpen := CDEV_NOT_USED, opened := Function.update s.opened p false }

/-- The calls on the file are made while it is open. -/
def step (s : State P) : Action P → Option (State P)
  | .deviceOpen p => if s.opened p then none else some (deviceOpen s p).1
  | .deviceWrite p command buffer copied =>
      if s.opened p then
        some { s with
          data := { s.data with fkey := (deviceWrite command s.data.fkey buffer copied).1 } }
      else none
  | .deviceRelease p => if s.opened p then some (deviceRelease s p) else none

def system (P : Type) [DecidableEq P] : System (State P) (Action P) where
  Start s := s = ⟨CDEV_NOT_USED, Data.init, fun _ => false⟩
  step := step

/-! ## The last byte of msg -/

theorem step_last {s t : State P} {a : Action P} (last : s.data.msg[BUF_LEN]? = some 0)
    (next : step s a = some t) : t.data.msg[BUF_LEN]? = some 0 := by
  cases a with
  | deviceOpen p =>
      simp only [step, deviceOpen] at next
      split at next
      · cases next
      · split at next <;> cases next
        · exact last
        · exact splice_last s.data.msg_len last (Nat.le_of_lt (length_keyText_lt _))
  | deviceWrite p command buffer copied =>
      simp only [step] at next
      split at next <;> cases next
      exact last
  | deviceRelease p =>
      simp only [step] at next
      split at next <;> cases next
      exact last

/-- No call writes anything but a NUL to the last byte. -/
theorem reachable_last {s : State P} (reached : (system P).Reachable s) :
    s.data.msg[BUF_LEN]? = some 0 := by
  refine reached.induct ?_ fun s a t => step_last
  rintro s rfl
  show Data.init.msg[BUF_LEN]? = some 0
  decide

end Lkmpg.StaticKey
