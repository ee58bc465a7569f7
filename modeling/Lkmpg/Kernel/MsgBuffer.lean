/-
# Lkmpg.Kernel.MsgBuffer -- the device_read of a message in an array

`chardev.c`, `chardev2.c` and `static_key.c` have one `device_read`: it tests the
byte at `*offset`, and then copies bytes until one is a NUL or the length is used
up.  `readMsg` is that function on the array, without a value when an index is
outside; `readIndices` are the indices it uses.

* `readIndices_within_iff`: on an array that ends with a NUL, the first index
  decides whether all are inside.
* `readMsg_text`, `readMsg_end`: from an offset in the C string the array starts
  with, the call gets the next bytes of the string.
* `readMsgs_transcript`: what many calls get, one after the other.
-/
import Lkmpg.Kernel.CString
import Lkmpg.Theory.Chunks

namespace Lkmpg.Kernel

open Lkmpg.Theory

set_option autoImplicit false

/-- `while (length && *ptr)`: the bytes it copies. -/
def copyLoop (msg : List UInt8) : (length ptr : Nat) → Option (List UInt8)
  | 0, _ => some []
  | length + 1, ptr =>
      (msg[ptr]?).bind fun c =>
        if c = 0 then some []
        else (copyLoop msg length (ptr + 1)).map fun bytes => c :: bytes

/-- The bytes put in the user buffer, whose number is returned, and `*offset`. -/
def readMsg (msg : List UInt8) (length offset : Nat) : Option (List UInt8 × Nat) :=
  (msg[offset]?).bind fun c =>
    if c = 0 then some ([], 0)
    else (copyLoop msg length offset).map fun bytes => (bytes, offset + bytes.length)

theorem copyLoop_length_le {msg : List UInt8} {length ptr : Nat} {bytes : List UInt8}
    (copied : copyLoop msg length ptr = some bytes) : bytes.length ≤ length := by
  induction length generalizing ptr bytes with
  | zero =>
      cases copied
      exact Nat.le_refl 0
  | succ length ih =>
      obtain ⟨c, -, copied⟩ := Option.bind_eq_some_iff.1 copied
      split at copied
      · cases copied
        exact Nat.zero_le _
      · obtain ⟨rest, others, rfl⟩ := Option.map_eq_some_iff.1 copied
        exact Nat.succ_le_succ (ih others)

theorem readMsg_length_le {msg : List UInt8} {length offset : Nat} {got : List UInt8 × Nat}
    (read : readMsg msg length offset = some got) : got.1.length ≤ length := by
  obtain ⟨c, -, read⟩ := Option.bind_eq_some_iff.1 read
  split at read
  · cases read
    exact Nat.zero_le _
  · obtain ⟨bytes, copied, rfl⟩ := Option.map_eq_some_iff.1 read
    exact copyLoop_length_le copied

/-! ## Indices -/

/-- The indices the loop uses, up to the first one outside. -/
def copyIndices (msg : List UInt8) : (length ptr : Nat) → List Nat
  | 0, _ => []
  | length + 1, ptr =>
      match msg[ptr]? with
      | none => [ptr]
      | some c => if c = 0 then [ptr] else ptr :: copyIndices msg length (ptr + 1)

def readIndices (msg : List UInt8) (length offset : Nat) : List Nat :=
  match msg[offset]? with
  | none => [offset]
  | some c => if c = 0 then [offset] else offset :: copyIndices msg length offset

section Indices

variable {msg : List UInt8}

theorem copyLoop_isSome_iff {length ptr : Nat} :
    (copyLoop msg length ptr).isSome ↔ ∀ i ∈ copyIndices msg length ptr, i < msg.length := by
  induction length generalizing ptr with
  | zero => simp [copyLoop, copyIndices]
  | succ length ih =>
      rw [copyLoop, copyIndices]
      cases found : msg[ptr]? with
      | none =>
          have outside := List.getElem?_eq_none_iff.1 found
          simp [outside]
      | some c =>
          obtain ⟨inside, -⟩ := List.getElem?_eq_some_iff.1 found
          by_cases stop : c = 0
          · simp [stop, inside]
          · simp [stop, inside, ih]

/-- `readMsg` has a value when every index it uses is in the array. -/
theorem readMsg_isSome_iff {length offset : Nat} :
    (readMsg msg length offset).isSome ↔ ∀ i ∈ readIndices msg length offset, i < msg.length := by
  rw [readMsg, readIndices]
  cases found : msg[offset]? with
  | none =>
      have outside := List.getElem?_eq_none_iff.1 found
      simp [outside]
  | some c =>
      obtain ⟨inside, -⟩ := List.getElem?_eq_some_iff.1 found
      by_cases stop : c = 0
      · simp [stop, inside]
      · simp [stop, inside, copyLoop_isSome_iff]

/-- The loop does not get past a NUL at the end of the array. -/
theorem copyIndices_le {N : Nat} (stop : msg[N]? = some 0) {length ptr : Nat} (within : ptr ≤ N) :
    ∀ i ∈ copyIndices msg length ptr, i ≤ N := by
  induction length generalizing ptr with
  | zero => simp [copyIndices]
  | succ length ih =>
      rw [copyIndices]
      cases found : msg[ptr]? with
      | none => simpa using within
      | some c =>
          by_cases zero : c = 0
          · simpa [zero] using within
          · have before : ptr < N := by
              rcases Nat.lt_or_eq_of_le within with before | rfl
              · exact before
              · rw [stop] at found
                cases found
                exact absurd rfl zero
            simpa [zero, within] using ih before

/-- **Indices in bounds.** -/
theorem readIndices_within_iff {N : Nat} (stop : msg[N]? = some 0) {length offset : Nat} :
    (∀ i ∈ readIndices msg length offset, i ≤ N) ↔ offset ≤ N := by
  constructor
  · intro within
    refine within offset ?_
    rw [readIndices]
    split
    · exact List.mem_singleton_self _
    · split <;> exact List.mem_cons_self
  · intro within
    rw [readIndices]
    split
    · simpa using within
    · split
      · simpa using within
      · simpa [within] using copyIndices_le stop within

end Indices

/-! ## The text of the message -/

section Text

variable {msg : List UInt8} (terminated : (0 : UInt8) ∈ msg)
include terminated

theorem copyLoop_text {length ptr : Nat} (within : ptr ≤ (cstr msg).length) :
    copyLoop msg length ptr = some (slice (cstr msg) ptr length) := by
  induction length generalizing ptr with
  | zero => rw [copyLoop, slice_zero]
  | succ length ih =>
      rw [copyLoop]
      rcases Nat.lt_or_eq_of_le within with before | rfl
      · have cell : (cstr msg)[ptr]? = some (cstr msg)[ptr] := List.getElem?_eq_getElem before
        have nonzero : (cstr msg)[ptr] ≠ 0 := cstr_ne_zero _ (List.getElem_mem before)
        rw [getElem?_cstr before, cell, Option.bind_some, if_neg nonzero, ih before,
          Option.map_some, slice, slice, List.drop_eq_getElem_cons before, List.take_succ_cons]
      · rw [cstr_end terminated, Option.bind_some, if_pos rfl, slice, List.drop_length,
          List.take_nil]

/-- A call in the text gets the next bytes of it. -/
theorem readMsg_text {length off : Nat} (before : off < (cstr msg).length) :
    readMsg msg length off =
      some (slice (cstr msg) off length, off + (slice (cstr msg) off length).length) := by
  have cell : (cstr msg)[off]? = some (cstr msg)[off] := List.getElem?_eq_getElem before
  have nonzero : (cstr msg)[off] ≠ 0 := cstr_ne_zero _ (List.getElem_mem before)
  rw [readMsg, getElem?_cstr before, cell, Option.bind_some, if_neg nonzero,
    copyLoop_text terminated (Nat.le_of_lt before), Option.map_some]

/-- At the end of the text the offset starts over. -/
theorem readMsg_end (length : Nat) : readMsg msg length (cstr msg).length = some ([], 0) := by
  rw [readMsg, cstr_end terminated, Option.bind_some, if_pos rfl]

/-- A call from the start gets the text up to its length. -/
theorem readMsg_start (length : Nat) :
    ∃ off, readMsg msg length 0 = some ((cstr msg).take length, off) := by
  rcases Nat.eq_zero_or_pos (cstr msg).length with empty | some
  · have start := readMsg_end terminated length
    rw [empty] at start
    rw [List.eq_nil_of_length_eq_zero empty, List.take_nil]
    exact ⟨0, start⟩
  · exact ⟨_, readMsg_text terminated some⟩

end Text

/-! ## Many calls -/

/-- The bytes each of the calls with these lengths gets. -/
def readMsgs (msg : List UInt8) : (offset : Nat) → List Nat → Option (List (List UInt8))
  | _, [] => some []
  | offset, length :: lengths =>
      (readMsg msg length offset).bind fun got =>
        (readMsgs msg got.2 lengths).map fun rest => got.1 :: rest

/-- A call that is long enough gets the whole text, and the next one nothing. -/
theorem readMsgs_twice {msg : List UInt8} (terminated : (0 : UInt8) ∈ msg)
    (some : cstr msg ≠ []) {length : Nat} (enough : (cstr msg).length ≤ length) :
    readMsgs msg 0 [length, length] = .some [cstr msg, []] := by
  have whole : slice (cstr msg) 0 length = cstr msg := by
    rw [slice, List.drop_zero, List.take_of_length_le enough]
  simp only [readMsgs, readMsg_text terminated (List.length_pos_iff.2 some), whole, Nat.zero_add,
    readMsg_end terminated, Option.bind_some, Option.map_some]

/-- A call of a positive length. -/
theorem readMsg_transcript {msg : List UInt8} (terminated : (0 : UInt8) ∈ msg) {length off : Nat}
    (positive : 0 < length) {reads : List (List UInt8)}
    (transcript : Transcript (cstr msg) off reads) :
    ∃ got, readMsg msg length off = some got ∧
      Transcript (cstr msg) got.2 (reads ++ [got.1]) := by
  rcases Nat.lt_or_eq_of_le transcript.within with before | rfl
  · have piece : slice (cstr msg) off length =
        slice (cstr msg) off (slice (cstr msg) off length).length := by
      simp only [slice, List.length_take]
      rw [List.take_eq_take_iff]
      omega
    have fits : off + (slice (cstr msg) off length).length ≤ (cstr msg).length := by
      simp only [slice, List.length_take, List.length_drop]
      omega
    have some : 0 < (slice (cstr msg) off length).length := by
      simp only [slice, List.length_take, List.length_drop]
      omega
    have next := transcript.chunk some fits
    rw [← piece] at next
    exact ⟨_, readMsg_text terminated before, next⟩
  · exact ⟨_, readMsg_end terminated length, transcript.eof (Nat.zero_le _)⟩

/-- **Reading in chunks.** -/
theorem readMsgs_transcript {msg : List UInt8} (terminated : (0 : UInt8) ∈ msg)
    {lengths : List Nat} (positive : ∀ length ∈ lengths, 0 < length) :
    ∀ {off : Nat} {reads : List (List UInt8)}, Transcript (cstr msg) off reads →
      ∃ rest off', readMsgs msg off lengths = some rest ∧
        Transcript (cstr msg) off' (reads ++ rest) := by
  induction lengths with
  | nil =>
      intro off reads transcript
      exact ⟨[], off, rfl, by simpa using transcript⟩
  | cons length lengths ih =>
      intro off reads transcript
      obtain ⟨pos, positive⟩ := List.forall_mem_cons.1 positive
      obtain ⟨got, first, next⟩ := readMsg_transcript terminated pos transcript
      obtain ⟨rest, off', read, whole⟩ := ih positive next
      refine ⟨got.1 :: rest, off', ?_, by simpa using whole⟩
      rw [readMsgs, first, Option.bind_some, read]
      rfl

end Lkmpg.Kernel
