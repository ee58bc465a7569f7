/-
# Lkmpg.MessageDevices -- the indices into the messages of the character devices

`device_read` of `chardev.c`, `chardev2.c` and `static_key.c` adds `*offset` to the
message and dereferences it, and `IOCTL_GET_NTH_BYTE` takes its parameter as an index.
The last byte of each message is a NUL in every reachable state, so a loop that starts
in the message stays there (`indices_in_bounds_iff`); nothing makes it start there.
-/
import Lkmpg.Chardev.Reads
import Lkmpg.Chardev2.Messages
import Lkmpg.StaticKey.Driver

namespace Lkmpg

open Lkmpg.Kernel Lkmpg.Theory

set_option autoImplicit false

theorem forall_lt_succ_iff {indices : List Nat} {n N : Nat} (length : n = N + 1) :
    (∀ i ∈ indices, i < n) ↔ ∀ i ∈ indices, i ≤ N := by
  simp only [length, Nat.lt_succ_iff]

/-! ## The calls and their indices

A call has a value in the model when every index it uses is in the message. -/

theorem Chardev.deviceRead_isSome_iff (d : Chardev.Data) (length offset : Nat) :
    (Chardev.deviceRead d length offset).isSome ↔
      ∀ i ∈ readIndices d.msg length offset, i ≤ Chardev.BUF_LEN :=
  readMsg_isSome_iff.trans (forall_lt_succ_iff d.msg_len)

theorem Chardev2.deviceRead_isSome_iff (m : Chardev2.Message) (u : Chardev2.User)
    (mm buffer length offset : Nat) :
    (Chardev2.deviceRead m u mm buffer length offset).isSome ↔
      ∀ i ∈ readIndices m.bytes length offset, i ≤ Chardev2.BUF_LEN := by
  rw [Chardev2.deviceRead_eq, Option.isSome_map]
  exact readMsg_isSome_iff.trans (forall_lt_succ_iff m.bytes_len)

theorem StaticKey.deviceRead_isSome_iff (d : StaticKey.Data) (length offset : Nat) :
    (StaticKey.deviceRead d length offset).isSome ↔
      ∀ i ∈ readIndices d.msg length offset, i ≤ StaticKey.BUF_LEN :=
  readMsg_isSome_iff.trans (forall_lt_succ_iff d.msg_len)

/-- `IOCTL_GET_NTH_BYTE` uses one index. -/
theorem Chardev2.nthByte_isSome_iff (signed : Bool) (s : Chardev2.Shared) (mm param : Nat) :
    (Chardev2.ioctlBody signed ⟨mm, Chardev2.IOCTL_GET_NTH_BYTE, param⟩ s).isSome ↔
      param ≤ Chardev2.BUF_LEN := by
  have length := s.1.bytes_len
  rw [Chardev2.ioctlBody_getNthByte, Option.isSome_map, Chardev2.Message.get, isSome_getElem?]
  omega

/-- **Indices in bounds.**  In every reachable state a call uses only indices in the
message exactly when its offset, or parameter, is one. -/
theorem indices_in_bounds_iff {P Q : Type} [DecidableEq P] [DecidableEq Q] {s : Chardev.State P}
    {k : StaticKey.State Q} (reached : (Chardev.system P).Reachable s)
    (reachedKey : (StaticKey.system Q).Reachable k) (c : Chardev2.Shared) (signed : Bool)
    (mm length offset param : Nat) :
    ((∀ i ∈ readIndices s.data.msg length offset, i ≤ Chardev.BUF_LEN) ↔
        offset ≤ Chardev.BUF_LEN) ∧
      ((∀ i ∈ readIndices c.1.bytes length offset, i ≤ Chardev2.BUF_LEN) ↔
        offset ≤ Chardev2.BUF_LEN) ∧
      ((∀ i ∈ readIndices k.data.msg length offset, i ≤ StaticKey.BUF_LEN) ↔
        offset ≤ StaticKey.BUF_LEN) ∧
      ((Chardev2.ioctlBody signed ⟨mm, Chardev2.IOCTL_GET_NTH_BYTE, param⟩ c).isSome ↔
        param ≤ Chardev2.BUF_LEN) := by
  refine ⟨?_, ?_, ?_, ?_⟩
  · exact readIndices_within_iff (Chardev.reachable_last reached)
  · exact readIndices_within_iff c.1.last
  · exact readIndices_within_iff (StaticKey.reachable_last reachedKey)
  · exact Chardev2.nthByte_isSome_iff signed c mm param

theorem indices_in_bounds_iff_start :
    (∀ i ∈ readIndices Chardev.Data.init.msg 1 10, i ≤ Chardev.BUF_LEN) ∧
      ∀ i ∈ readIndices StaticKey.Data.init.msg 1 10, i ≤ StaticKey.BUF_LEN := by
  have inBounds := indices_in_bounds_iff (P := Unit) (Q := Unit) (.start rfl) (.start rfl)
    (Chardev2.Message.zero, fun _ _ => none) true 0 1 10 10
  exact ⟨inBounds.1.2 (by decide), inBounds.2.2.1.2 (by decide)⟩

/-- A `pread` of one byte at the offset 4096, and the byte 1000 of the message. -/
theorem index_out_of_bounds :
    (¬ ∀ i ∈ readIndices Chardev.Data.init.msg 1 4096, i ≤ Chardev.BUF_LEN) ∧
      (¬ ∀ i ∈ readIndices Chardev2.Message.zero.bytes 1 4096, i ≤ Chardev2.BUF_LEN) ∧
      (¬ ∀ i ∈ readIndices StaticKey.Data.init.msg 1 4096, i ≤ StaticKey.BUF_LEN) ∧
      Chardev2.ioctlBody true ⟨0, Chardev2.IOCTL_GET_NTH_BYTE, 1000⟩
        (Chardev2.Message.zero, fun _ _ => none) = none := by
  refine ⟨?_, ?_, ?_, rfl⟩ <;> intro within <;>
    exact absurd (within 4096 (List.mem_singleton_self _)) (by decide)

end Lkmpg
