/-
# Lkmpg.Kernel.UserCopy -- copying between the kernel and a user buffer

A user buffer is accessible up to some byte.  `copy_from_user` and `copy_to_user`
copy what they can reach and return the number of bytes they could not copy; the
first fills the rest of its destination with zeros.  Over them stand the two
functions of `fs/libfs.c` that read from and write to a kernel buffer at a file
position.
-/
import Lkmpg.Kernel.Library
import Lkmpg.Theory.Bytes

namespace Lkmpg.Kernel

open Lkmpg.Theory

set_option autoImplicit false

/-- What `copy_from_user` of the bytes `src` leaves in its destination, when the first
`reach` of them are accessible. -/
def copied (src : List UInt8) (reach : Nat) : List UInt8 :=
  src.take reach ++ List.replicate (src.length - reach) 0

@[simp] theorem length_copied (src : List UInt8) (reach : Nat) :
    (copied src reach).length = src.length := by
  rw [copied, List.length_append, List.length_take, List.length_replicate]
  omega

theorem copied_all {src : List UInt8} {reach : Nat} (all : src.length ≤ reach) :
    copied src reach = src := by
  rw [copied, List.take_of_length_le all, Nat.sub_eq_zero_of_le all]
  simp

theorem take_copied (src : List UInt8) {reach n : Nat} (reached : n ≤ reach)
    (fits : n ≤ src.length) : (copied src reach).take n = src.take n := by
  have front : n ≤ (src.take reach).length := by
    rw [List.length_take]
    omega
  rw [copied, List.take_append_of_le_length front, List.take_take, Nat.min_eq_left reached]

/-- What leaves a text as it was: the bytes reached are in it, and zeros after them. -/
theorem copied_eq_iff {c src : List UInt8} {reach : Nat} (partly : reach ≤ src.length) :
    copied src reach = c ↔
      c.length = src.length ∧ c.take reach = src.take reach ∧ ∀ b ∈ c.drop reach, b = 0 := by
  have front : (src.take reach).length = reach := List.length_take_of_le partly
  constructor
  · rintro rfl
    rw [length_copied]
    refine ⟨rfl, ?_, ?_⟩
    · rw [copied, List.take_left' front]
    · rw [copied, List.drop_left' front]
      exact fun b member => List.eq_of_mem_replicate member
  · rintro ⟨length, same, zeros⟩
    have rest : c.drop reach = List.replicate (src.length - reach) 0 := by
      rw [List.eq_replicate_iff, List.length_drop, length]
      exact ⟨rfl, zeros⟩
    rw [copied, ← same, ← rest, List.take_append_drop]

/-- `copy_from_user(dst + off, src, n)`: the destination, and the number of bytes not
copied. -/
def copyFromUser (dst : List UInt8) (off : Nat) (src : List UInt8) (reach : Nat) :
    List UInt8 × Nat :=
  (splice dst off (copied src reach), src.length - reach)

/-- `copy_to_user` of the bytes `src`: what is then in the user buffer, and the number
of bytes not copied. -/
def copyToUser (src : List UInt8) (reach : Nat) : List UInt8 × Nat :=
  (src.take reach, src.length - reach)

/-! ## Reading and writing at a file position -/

/-- What a read or a write at a position returns. -/
structure Transfer where
  /-- What it put in the user buffer, or left in the kernel buffer. -/
  bytes : List UInt8
  ppos : Int
  ret : Int

/-- `simple_read_from_buffer(to, count, ppos, src, available)`. -/
def simpleReadFromBuffer (count : Nat) (ppos : Int) (src : List UInt8) (available reach : Nat) :
    Transfer :=
  if ppos < 0 then ⟨[], ppos, -EINVAL⟩
  else if (available : Int) ≤ ppos ∨ count = 0 then ⟨[], ppos, 0⟩
  else
    let count := min count (available - ppos.toNat)
    let (bytes, missed) := copyToUser (slice src ppos.toNat count) reach
    if missed = count then ⟨bytes, ppos, -EFAULT⟩
    else ⟨bytes, ppos + (count - missed : Nat), (count - missed : Nat)⟩

/-- `simple_write_to_buffer(dst, available, ppos, src, count)`. -/
def simpleWriteToBuffer (dst : List UInt8) (available : Nat) (ppos : Int) (src : List UInt8)
    (reach : Nat) : Transfer :=
  if ppos < 0 then ⟨dst, ppos, -EINVAL⟩
  else if (available : Int) ≤ ppos ∨ src.length = 0 then ⟨dst, ppos, 0⟩
  else
    let src := src.take (available - ppos.toNat)
    let (dst, missed) := copyFromUser dst ppos.toNat src reach
    if missed = src.length then ⟨dst, ppos, -EFAULT⟩
    else ⟨dst, ppos + (src.length - missed : Nat), (src.length - missed : Nat)⟩

/-- A read that has something to deliver delivers the next bytes. -/
theorem simpleReadFromBuffer_within {count off available reach : Nat} {src : List UInt8}
    (within : off < available) (fits : available ≤ src.length) (positive : 0 < count)
    (reachable : 0 < reach) {n : Nat} (delivered : n = min reach (min count (available - off))) :
    simpleReadFromBuffer count off src available reach = ⟨slice src off n, off + n, n⟩ := by
  have length : (slice src off (min count (available - off))).length =
      min count (available - off) := length_slice (by omega)
  have bytes : (slice src off (min count (available - off))).take reach = slice src off n := by
    rw [slice, slice, List.take_take, delivered]
  have inside : ¬ ((available : Int) ≤ off ∨ count = 0) := by omega
  simp only [simpleReadFromBuffer, copyToUser, Int.toNat_natCast, length, bytes]
  rw [if_neg (by omega), if_neg inside, if_neg (by omega)]
  simp only [Transfer.mk.injEq, true_and]
  omega

/-- A read at the end delivers nothing. -/
theorem simpleReadFromBuffer_end (count : Nat) (src : List UInt8) (available reach : Nat) :
    simpleReadFromBuffer count available src available reach = ⟨[], available, 0⟩ := by
  rw [simpleReadFromBuffer, if_neg (by omega), if_pos (.inl (Int.le_refl _))]

/-- A write leaves a kernel buffer of the same length. -/
theorem length_simpleWriteToBuffer {dst src : List UInt8} {available reach : Nat} {ppos : Int}
    (fits : available ≤ dst.length) :
    (simpleWriteToBuffer dst available ppos src reach).bytes.length = dst.length := by
  unfold simpleWriteToBuffer
  split
  · rfl
  · split
    · rfl
    · rename_i inside
      have room : ppos.toNat + (copied (src.take (available - ppos.toNat)) reach).length ≤
          dst.length := by
        rw [length_copied, List.length_take]
        omega
      dsimp only [copyFromUser]
      split <;> exact length_splice room

/-- A write at the start that takes something takes the first bytes. -/
theorem simpleWriteToBuffer_start {dst src : List UInt8} {available reach : Nat}
    (room : 0 < available) (nonempty : src ≠ []) (reachable : 0 < reach) {n : Nat}
    (taken : n = min reach (min available src.length)) :
    simpleWriteToBuffer dst available 0 src reach =
      ⟨splice dst 0 (copied (src.take available) reach), n, n⟩ := by
  have positive := List.length_pos_iff.2 nonempty
  have inside : ¬ ((available : Int) ≤ 0 ∨ src.length = 0) := by omega
  simp only [simpleWriteToBuffer, copyFromUser, Int.toNat_zero, Nat.sub_zero, List.length_take]
  rw [if_neg (by omega), if_neg inside, if_neg (by omega)]
  simp only [Transfer.mk.injEq, true_and]
  omega

/-- A write of nothing does nothing. -/
theorem simpleWriteToBuffer_nil (dst : List UInt8) {available : Nat} (reach : Nat) :
    simpleWriteToBuffer dst available 0 [] reach = ⟨dst, 0, 0⟩ := by
  simp [simpleWriteToBuffer]

end Lkmpg.Kernel
