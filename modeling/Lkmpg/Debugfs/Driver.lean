/-
# Lkmpg.Debugfs.Driver -- hello-debugfs-file.c, the debugfs message file

`message_read` and `message_write` on the message and its length, each as one step
under `message_lock`, with any `*ppos` and a user buffer that may end anywhere.
-/
import Lkmpg.Kernel.UserCopy
import Lkmpg.Theory.System

namespace Lkmpg.Debugfs

open Lkmpg.Kernel Lkmpg.Theory

set_option autoImplicit false

def MESSAGE_MAX_LEN : Nat := 128

/-- `message` and `message_len`. -/
structure Message where
  bytes : List UInt8
  len : Nat
  bytes_len : bytes.length = MESSAGE_MAX_LEN

def hello : List UInt8 := text "debugfs says hello\n"

def Message.init : Message where
  bytes := hello ++ List.replicate (MESSAGE_MAX_LEN - hello.length) 0
  len := hello.length
  bytes_len := by
    have small : hello.length ≤ MESSAGE_MAX_LEN := by decide
    rw [List.length_append, List.length_replicate]
    omega

def messageRead (m : Message) (len : Nat) (ppos : Int) (reach : Nat) : Transfer :=
  simpleReadFromBuffer len ppos m.bytes m.len reach

/-- `message_write` of the bytes `buffer`: the message, `*ppos` and the return value. -/
def messageWrite (m : Message) (buffer : List UInt8) (ppos : Int) (reach : Nat) :
    Message × Int × Int :=
  if ppos ≠ 0 then (m, ppos, -EINVAL)
  else
    let copied := simpleWriteToBuffer m.bytes (MESSAGE_MAX_LEN - 1) ppos buffer reach
    have bytes_len : copied.bytes.length = MESSAGE_MAX_LEN := by
      rw [length_simpleWriteToBuffer (by rw [m.bytes_len]; exact Nat.sub_le _ _), m.bytes_len]
    if 0 < copied.ret then
      ({ bytes := copied.bytes.set copied.ppos.toNat 0
         len := copied.ppos.toNat
         bytes_len := by rw [List.length_set, bytes_len] }, copied.ppos, copied.ret)
    else ({ m with bytes := copied.bytes, bytes_len := bytes_len }, copied.ppos, copied.ret)

structure State where
  message : Message
  /-- What the last write that returned a positive count took from the user. -/
  accepted : List UInt8

def State.init : State := ⟨Message.init, hello⟩

inductive Action where
  | messageRead (len : Nat) (ppos : Int) (reach : Nat)
  | messageWrite (buffer : List UInt8) (ppos : Int) (reach : Nat)

/-- A copy that faults has copied at least one byte. -/
def step (s : State) : Action → Option State
  | .messageRead _ _ reach => if 0 < reach then some s else none
  | .messageWrite buffer ppos reach =>
      if 0 < reach then
        let (message, _, ret) := messageWrite s.message buffer ppos reach
        some ⟨message, if 0 < ret then buffer.take ret.toNat else s.accepted⟩
      else none

def system : System State Action where
  Start s := s = .init
  step := step

/-- What a reader gets that starts at position 0, call by call: each has a length and
reaches some byte of its buffer. -/
def readFrom (m : Message) : (ppos : Int) → List (Nat × Nat) → List (List UInt8)
  | _, [] => []
  | ppos, (len, reach) :: calls =>
      let done := messageRead m len ppos reach
      done.bytes :: readFrom m done.ppos calls

end Lkmpg.Debugfs
