/-
# Lkmpg.Procfs3.Driver -- procfs3.c, the stored buffer of /proc/buffer2k

`procfs_read` and `procfs_write` on the static data they share, with a user buffer
that may end anywhere, and the calls of any number of open files one at a time.

A file carries what each of its reads delivered; the state carries the content the
last write put there.
-/
import Lkmpg.Kernel.UserCopy
import Lkmpg.Theory.System
import Mathlib.Logic.Function.Basic

namespace Lkmpg.Procfs3

open Lkmpg.Kernel Lkmpg.Theory

set_option autoImplicit false

def PROCFS_MAX_SIZE : Nat := 2048

/-- `procfs_buffer` and `procfs_buffer_size`. -/
structure Store where
  buffer : List UInt8
  size : Nat
  buffer_len : buffer.length = PROCFS_MAX_SIZE
  size_le : size ≤ PROCFS_MAX_SIZE

namespace Store

def init : Store := ⟨List.replicate PROCFS_MAX_SIZE 0, 0, List.length_replicate, Nat.zero_le _⟩

/-- What a reader is to see. -/
def content (s : Store) : List UInt8 := s.buffer.take s.size

theorem length_content (s : Store) : s.content.length = s.size := by
  have le := s.size_le
  rw [content, List.length_take, s.buffer_len]
  omega

/-- `procfs_buffer_size = min(procfs_buffer_size, length)`. -/
def shrink (s : Store) (length : Nat) : Store where
  buffer := s.buffer
  size := min s.size length
  buffer_len := s.buffer_len
  size_le := Nat.le_trans (Nat.min_le_left _ _) s.size_le

theorem shrink_eq_iff (s : Store) (length : Nat) : s.shrink length = s ↔ s.size ≤ length := by
  constructor
  · intro same
    have sizes := congrArg Store.size same
    simp only [shrink] at sizes
    omega
  · intro le
    cases s
    simp only [shrink, mk.injEq, true_and]
    exact Nat.min_eq_left le

end Store

/-- What a call leaves and returns. -/
structure Outcome where
  store : Store
  offset : Nat
  ret : Int
  /-- What it put in the user buffer. -/
  bytes : List UInt8

def procfsRead (s : Store) (length offset reach : Nat) : Outcome :=
  if offset ≠ 0 ∨ s.size = 0 then ⟨s, 0, 0, []⟩
  else
    let s := s.shrink length
    let (bytes, missed) := copyToUser s.content reach
    if missed ≠ 0 then ⟨s, offset, -EFAULT, bytes⟩
    else ⟨s, offset + s.size, s.size, bytes⟩

/-- `procfs_write` of the bytes `buffer`. -/
def procfsWrite (s : Store) (buffer : List UInt8) (offset reach : Nat) : Outcome :=
  let taken := buffer.take PROCFS_MAX_SIZE
  let stored : Store :=
    { buffer := (copyFromUser s.buffer 0 taken reach).1
      size := taken.length
      buffer_len := by
        have fits : 0 + (copied taken reach).length ≤ s.buffer.length := by
          rw [length_copied, s.buffer_len, Nat.zero_add]
          exact List.length_take_le _ _
        rw [copyFromUser, length_splice fits, s.buffer_len]
      size_le := List.length_take_le _ _ }
  if (copyFromUser s.buffer 0 taken reach).2 ≠ 0 then ⟨stored, offset, -EFAULT, []⟩
  else ⟨stored, offset + stored.size, stored.size, []⟩

/-! ## Without faults -/

theorem procfsRead_end {s : Store} {length offset reach : Nat} (stop : offset ≠ 0 ∨ s.size = 0) :
    procfsRead s length offset reach = ⟨s, 0, 0, []⟩ := by
  rw [procfsRead, if_pos stop]

theorem procfsRead_first {s : Store} {length reach : Nat} (nonempty : s.size ≠ 0)
    (all : length ≤ reach) : procfsRead s length 0 reach =
      ⟨s.shrink length, (s.shrink length).size, (s.shrink length).size,
        (s.shrink length).content⟩ := by
  have short : (s.shrink length).content.length ≤ reach := by
    rw [Store.length_content]
    exact Nat.le_trans (Nat.min_le_right _ _) all
  rw [procfsRead, if_neg (by simpa using nonempty)]
  simp only [copyToUser, List.take_of_length_le short, Nat.sub_eq_zero_of_le short]
  simp

theorem procfsWrite_content {s : Store} {buffer : List UInt8} {offset reach : Nat}
    (all : buffer.length ≤ reach) :
    (procfsWrite s buffer offset reach).store.content = buffer.take PROCFS_MAX_SIZE := by
  have reached : (buffer.take PROCFS_MAX_SIZE).length ≤ reach :=
    Nat.le_trans (List.length_take_le' _ _) all
  have missed : (copyFromUser s.buffer 0 (buffer.take PROCFS_MAX_SIZE) reach).2 = 0 :=
    Nat.sub_eq_zero_of_le reached
  rw [procfsWrite, if_neg (by simp [missed])]
  simp [Store.content, copyFromUser, copied_all reached, splice]

/-! ## Calls on files -/

structure File where
  fPos : Nat
  /-- What each read delivered, oldest first. -/
  reads : List (List UInt8)
  /-- The reads so far had positive lengths, and nothing was written since the first of
  them, nor through the file before it. -/
  fresh : Bool
  deriving DecidableEq

def File.new : File := ⟨0, [], true⟩

variable (F : Type)

structure State where
  store : Store
  file : F → Option File
  /-- What the last write wrote. -/
  last : List UInt8

inductive Action where
  | procfsOpen (f : F)
  | procfsRead (f : F) (length : Nat)
  | procfsWrite (f : F) (buffer : List UInt8)
  /-- A read at a position of its own. -/
  | pread (f : F) (length offset : Nat)
  | pwrite (f : F) (buffer : List UInt8) (offset : Nat)
  | procfsClose (f : F)

variable {F}

/-- A write through another file, or at a position of its own. -/
def File.overwritten (x : File) : File :=
  { x with fresh := x.fresh && x.reads.isEmpty }

variable [DecidableEq F]

/-- The user buffers are accessible. -/
def step (s : State F) : Action F → Option (State F)
  | .procfsOpen f =>
      if (s.file f).isSome then none
      else some { s with file := Function.update s.file f (some File.new) }
  | .procfsRead f length =>
      (s.file f).map fun x =>
        let done := Procfs3.procfsRead s.store length x.fPos length
        { s with
          store := done.store
          file := Function.update s.file f
            (some ⟨done.offset, x.reads ++ [done.bytes], x.fresh && decide (0 < length)⟩) }
  | .procfsWrite f buffer =>
      (s.file f).map fun x =>
        let done := Procfs3.procfsWrite s.store buffer x.fPos buffer.length
        { store := done.store
          file := Function.update (fun g => (s.file g).map File.overwritten) f
            (some ⟨done.offset, x.reads, false⟩)
          last := buffer.take PROCFS_MAX_SIZE }
  | .pread f length offset =>
      (s.file f).map fun _ =>
        { s with store := (Procfs3.procfsRead s.store length offset length).store }
  | .pwrite f buffer offset =>
      (s.file f).map fun _ =>
        { store := (Procfs3.procfsWrite s.store buffer offset buffer.length).store
          file := fun g => (s.file g).map File.overwritten
          last := buffer.take PROCFS_MAX_SIZE }
  | .procfsClose f =>
      if (s.file f).isSome then some { s with file := Function.update s.file f none } else none

/-- Nothing has been written, and no file is open. -/
def State.init : State F := ⟨Store.init, fun _ => none, []⟩

def system (F : Type) [DecidableEq F] : System (State F) (Action F) where
  Start s := s = .init
  step := step

end Lkmpg.Procfs3
