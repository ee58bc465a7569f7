/-
# Lkmpg.Debugfs.Faults -- what a failed write to the debugfs message file leaves

`message_write` stores the length and the terminator only when something was copied,
but `simple_write_to_buffer` hands `message` itself to `copy_from_user`, which fills
with zeros what it could not copy (`messageWrite_fault`).  So a write that fails is
invisible only where the message had zeros already (`debugfs_failed_write_iff`).
-/
import Lkmpg.Debugfs.Driver

namespace Lkmpg.Debugfs

open Lkmpg.Kernel Lkmpg.Theory

set_option autoImplicit false

/-- Every read of `m'`, from any position and of any length, is the one of `m`. -/
def SameReads (m m' : Message) : Prop :=
  ∀ len ppos reach, messageRead m' len ppos reach = messageRead m len ppos reach

/-- A read depends on the bytes before the length. -/
theorem simpleReadFromBuffer_take (count : Nat) (ppos : Int) (src : List UInt8)
    (available reach : Nat) :
    simpleReadFromBuffer count ppos src available reach =
      simpleReadFromBuffer count ppos (src.take available) available reach := by
  unfold simpleReadFromBuffer
  split
  · rfl
  · split
    · rfl
    · rename_i inside
      have cells : slice (src.take available) ppos.toNat (min count (available - ppos.toNat)) =
          slice src ppos.toNat (min count (available - ppos.toNat)) := slice_take src (by omega)
      simp only [cells]

/-- A read of the whole message delivers the bytes before the length. -/
theorem messageRead_whole (m : Message) :
    (messageRead m m.len 0 m.len).bytes = m.bytes.take m.len := by
  rw [messageRead, simpleReadFromBuffer, if_neg (by omega)]
  by_cases empty : m.len = 0
  · rw [if_pos (.inr empty), empty, List.take_zero]
  · have bytes : (slice m.bytes 0 m.len).take m.len = m.bytes.take m.len := by
      rw [slice, List.drop_zero, List.take_take, Nat.min_self]
    rw [if_neg (by omega)]
    simp only [copyToUser, Int.toNat_zero, Nat.sub_zero, Nat.min_self, bytes]
    split <;> rfl

theorem sameReads_iff {m m' : Message} (len : m'.len = m.len) :
    SameReads m m' ↔ m'.bytes.take m.len = m.bytes.take m.len := by
  constructor
  · intro same
    have whole := congrArg Transfer.bytes (same m.len 0 m.len)
    rwa [messageRead_whole m, ← len, messageRead_whole m', len] at whole
  · intro same n ppos reach
    rw [messageRead, simpleReadFromBuffer_take, len, same, ← simpleReadFromBuffer_take]
    rfl

/-- Zeros at the start of an array change nothing before `L` when it has zeros there. -/
theorem zeros_take_iff {l : List UInt8} {n : Nat} (fits : n ≤ l.length) (L : Nat) :
    (List.replicate n 0 ++ l.drop n).take L = l.take L ↔ ∀ b ∈ l.take (min L n), b = 0 := by
  have front : (l.take n).length = n := List.length_take_of_le fits
  have split : l.take L = (l.take n).take L ++ (l.drop n).take (L - n) := by
    conv_lhs => rw [← List.take_append_drop n l, List.take_append, front]
  have zeros : l.take (min L n) = List.replicate (min L n) 0 ↔ ∀ b ∈ l.take (min L n), b = 0 := by
    rw [List.eq_replicate_iff, List.length_take]
    exact ⟨And.right, fun all => ⟨by omega, all⟩⟩
  rw [split, List.take_append, List.length_replicate, List.append_left_inj, List.take_replicate,
    List.take_take, ← zeros]
  exact eq_comm

/-- A write at the start that copies nothing fills what it was to write with zeros. -/
theorem messageWrite_fault {m : Message} {buffer : List UInt8} {reach : Nat}
    (failed : (messageWrite m buffer 0 reach).2.2 < 0) :
    (messageWrite m buffer 0 reach).1.len = m.len ∧
      (messageWrite m buffer 0 reach).1.bytes =
        List.replicate (min (MESSAGE_MAX_LEN - 1) buffer.length) 0 ++
          m.bytes.drop (min (MESSAGE_MAX_LEN - 1) buffer.length) := by
  have length : (buffer.take (MESSAGE_MAX_LEN - 1)).length =
      min (MESSAGE_MAX_LEN - 1) buffer.length := List.length_take
  by_cases empty : buffer.length = 0
  · -- A write of nothing does not fail.
    have none : simpleWriteToBuffer m.bytes (MESSAGE_MAX_LEN - 1) 0 buffer reach =
        ⟨m.bytes, 0, 0⟩ := by
      rw [simpleWriteToBuffer, if_neg (by omega), if_pos (.inr empty)]
    simp [messageWrite, none] at failed
  · have room : ¬ (((MESSAGE_MAX_LEN - 1 : Nat) : Int) ≤ 0 ∨ buffer.length = 0) := by
      rw [MESSAGE_MAX_LEN]
      omega
    by_cases missed : (buffer.take (MESSAGE_MAX_LEN - 1)).length - reach =
        (buffer.take (MESSAGE_MAX_LEN - 1)).length
    · have nothing : copied (buffer.take (MESSAGE_MAX_LEN - 1)) reach =
          List.replicate (min (MESSAGE_MAX_LEN - 1) buffer.length) 0 := by
        have unreached : reach = 0 := by
          rw [MESSAGE_MAX_LEN] at missed length
          omega
        rw [copied, unreached, List.take_zero, List.nil_append, Nat.sub_zero, length]
      have fault : simpleWriteToBuffer m.bytes (MESSAGE_MAX_LEN - 1) 0 buffer reach =
          ⟨splice m.bytes 0 (List.replicate (min (MESSAGE_MAX_LEN - 1) buffer.length) 0), 0,
            -EFAULT⟩ := by
        rw [simpleWriteToBuffer, if_neg (by omega), if_neg room]
        simp only [copyFromUser, Int.toNat_zero, Nat.sub_zero, missed, if_true, nothing]
      have negative : ¬ (0 : Int) < -EFAULT := by decide
      simp only [messageWrite, fault, negative, ne_eq, not_true_eq_false, if_false, splice,
        List.take_zero, List.nil_append, Nat.zero_add, List.length_replicate, and_self]
    · have accepted : 0 ≤ (messageWrite m buffer 0 reach).2.2 := by
        simp only [messageWrite, simpleWriteToBuffer, copyFromUser, Int.toNat_zero, Nat.sub_zero,
          ne_eq, not_true_eq_false, if_false, room, missed, Int.lt_irrefl]
        split <;> exact Int.natCast_nonneg _
      omega

/-- **A failed write is invisible** exactly when it is one at a position other than 0, or
the message has zeros where both a reader and the write come to. -/
theorem debugfs_failed_write_iff {m : Message} {buffer : List UInt8} {ppos : Int} {reach : Nat}
    (failed : (messageWrite m buffer ppos reach).2.2 < 0) :
    SameReads m (messageWrite m buffer ppos reach).1 ↔
      ppos ≠ 0 ∨
        ∀ b ∈ m.bytes.take (min m.len (min (MESSAGE_MAX_LEN - 1) buffer.length)), b = 0 := by
  by_cases start : ppos = 0
  · subst start
    obtain ⟨len, bytes⟩ := messageWrite_fault failed
    have fits : min (MESSAGE_MAX_LEN - 1) buffer.length ≤ m.bytes.length := by
      rw [m.bytes_len, MESSAGE_MAX_LEN]
      omega
    rw [sameReads_iff len, bytes, zeros_take_iff fits]
    simp
  · have same : (messageWrite m buffer ppos reach).1 = m := by rw [messageWrite, if_pos start]
    rw [same]
    exact iff_of_true (fun _ _ _ => rfl) (.inl start)

theorem debugfs_failed_write_iff_position :
    SameReads Message.init (messageWrite Message.init (text "x") 7 1).1 :=
  (debugfs_failed_write_iff (by decide)).2 (.inl (by decide))

/-- After a write of three bytes that copies nothing, the greeting starts with NULs. -/
theorem debugfs_failed_write_seen :
    (messageWrite Message.init (text "abc") 0 0).2.2 = -EFAULT ∧
      (messageRead Message.init 5 0 5).bytes = text "debug" ∧
      (messageRead (messageWrite Message.init (text "abc") 0 0).1 5 0 5).bytes =
        [0, 0, 0, 117, 103] ∧
      ¬ SameReads Message.init (messageWrite Message.init (text "abc") 0 0).1 := by
  have before : (messageRead Message.init 5 0 5).bytes = text "debug" := by decide
  have after : (messageRead (messageWrite Message.init (text "abc") 0 0).1 5 0 5).bytes =
      [0, 0, 0, 117, 103] := by decide
  refine ⟨by decide, before, after, ?_⟩
  intro same
  rw [same, before] at after
  exact absurd after (by decide)

end Lkmpg.Debugfs
