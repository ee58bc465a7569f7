/-
# Lkmpg.Chardev2.Faults -- chardev2.c on a user buffer with inaccessible bytes

Neither loop looks at what `get_user` and `put_user` return, so a fault stops neither
the copy nor the count.  `write_honest_iff` and `read_honest_iff` say what is left of
the promise that the calls report what they transferred: it is kept when no byte that
they come to is inaccessible.
-/
import Lkmpg.Chardev2.Messages

namespace Lkmpg.Chardev2

open Lkmpg.Kernel Lkmpg.Theory

set_option autoImplicit false

/-! ## Writing -/

/-- The count and the message of a write stop at the first inaccessible byte. -/
def WriteHonest (m : Message) (u : User) (mm buffer length : Nat) : Prop :=
  ∀ p, u mm (buffer + p) = none →
    (deviceWrite m u mm buffer length).2 ≤ p ∧
      ∀ i, p ≤ i → (deviceWrite m u mm buffer length).1.get i = m.get i

/-- The bytes after the ones a write copies are left. -/
theorem deviceWrite_get (m : Message) (u : User) (mm buffer : Nat) {length i : Nat}
    (after : min length BUF_LEN ≤ i) : (deviceWrite m u mm buffer length).1.get i = m.get i := by
  have count : (getBytes u mm buffer (min length BUF_LEN)).length = min length BUF_LEN := by
    rw [getBytes, List.length_map, List.length_range]
  rw [Message.get, deviceWrite_bytes, List.getElem?_append_right (by rwa [count]), count,
    List.getElem?_drop, Nat.add_sub_cancel' after]
  rfl

theorem write_honest_iff (m : Message) (u : User) (mm buffer length : Nat) :
    WriteHonest m u mm buffer length ↔
      ∀ p, p < length → p < BUF_LEN → (u mm (buffer + p)).isSome := by
  constructor
  · intro honest p inLength inMessage
    by_contra inaccessible
    have stops := (honest p (Option.not_isSome_iff_eq_none.1 inaccessible)).1
    rw [deviceWrite_count] at stops
    omega
  · intro accessible p inaccessible
    have after : min length BUF_LEN ≤ p := by
      by_contra before
      have reached := accessible p (by omega) (by omega)
      rw [inaccessible] at reached
      cases reached
    rw [deviceWrite_count]
    exact ⟨after, fun i later => deviceWrite_get m u mm buffer (Nat.le_trans after later)⟩

/-! ## Reading -/

/-- A read returns, its count is of bytes that are in the user buffer afterwards, and the
offset is advanced by it. -/
def ReadHonest (m : Message) (u : User) (mm buffer length offset : Nat) : Prop :=
  ∃ u' offset' n, deviceRead m u mm buffer length offset = some (u', offset', n) ∧
    (∀ i, i < n → u' mm (buffer + i) = m.get (offset + i)) ∧ offset' = offset + n

/-- The message has no NUL from the offset up to the byte `i` after it. -/
def InText (m : Message) (offset i : Nat) : Prop :=
  ∀ j, j ≤ i → ∃ c, m.get (offset + j) = some c ∧ c ≠ 0

theorem inText_zero_iff {m : Message} {offset : Nat} :
    InText m offset 0 ↔ ∃ c, m.get offset = some c ∧ c ≠ 0 := by
  constructor
  · exact fun inText => inText 0 (Nat.le_refl 0)
  · intro here j small
    rw [Nat.le_zero.1 small]
    exact here

theorem inText_succ_iff {m : Message} {offset i : Nat} :
    InText m offset (i + 1) ↔ InText m offset 0 ∧ InText m (offset + 1) i := by
  constructor
  · intro inText
    refine ⟨inText_zero_iff.2 (inText 0 (Nat.zero_le _)), ?_⟩
    intro j small
    rw [Nat.add_assoc, Nat.add_comm 1]
    exact inText (j + 1) (Nat.succ_le_succ small)
  · rintro ⟨here, rest⟩ j small
    cases j with
    | zero => exact inText_zero_iff.1 here
    | succ j =>
        rw [Nat.add_comm j, ← Nat.add_assoc]
        exact rest j (Nat.le_of_succ_le_succ small)

/-- The loop copies the bytes of the text, up to the length. -/
theorem copyLoop_cells {m : Message} {length : Nat} :
    ∀ {ptr : Nat} {bytes : List UInt8}, copyLoop m.bytes length ptr = some bytes →
      (∀ i, i < bytes.length ↔ i < length ∧ InText m ptr i) ∧
        ∀ i, i < bytes.length → bytes[i]? = m.get (ptr + i) := by
  induction length with
  | zero =>
      intro ptr bytes copied
      cases copied
      simp
  | succ length ih =>
      intro ptr bytes copied
      obtain ⟨c, found, copied⟩ := Option.bind_eq_some_iff.1 copied
      by_cases stop : c = 0
      · rw [if_pos stop] at copied
        cases copied
        refine ⟨fun i => ⟨fun inside => absurd inside (Nat.not_lt_zero i), ?_⟩, by simp⟩
        rintro ⟨-, inText⟩
        obtain ⟨d, here, nonzero⟩ := inText 0 (Nat.zero_le i)
        cases found.symm.trans here
        exact absurd stop nonzero
      · rw [if_neg stop] at copied
        obtain ⟨rest, others, rfl⟩ := Option.map_eq_some_iff.1 copied
        have here : InText m ptr 0 := inText_zero_iff.2 ⟨c, found, stop⟩
        obtain ⟨count, cells⟩ := ih others
        constructor
        · intro i
          cases i with
          | zero => simp [here]
          | succ i => simp [inText_succ_iff, here, count i]
        · intro i inside
          cases i with
          | zero => exact found.symm
          | succ i =>
              rw [List.getElem?_cons_succ, cells i (by simpa using inside), Nat.add_assoc,
                Nat.add_comm 1]

/-- Inaccessible bytes stay inaccessible. -/
theorem putBytes_none {u : User} {mm addr addr' : Nat} (bytes : List UInt8)
    (inaccessible : u mm addr' = none) : putBytes u mm addr bytes mm addr' = none := by
  rw [← Option.not_isSome_iff_eq_none, putBytes_isSome, inaccessible]
  simp

section Read

variable {m : Message} {offset : Nat}

theorem deviceRead_outside (u : User) (mm buffer length : Nat) (outside : m.get offset = none) :
    deviceRead m u mm buffer length offset = none := by
  rw [deviceRead, outside, Option.bind_none]

/-- At the end of the message the offset is set to 0. -/
theorem deviceRead_stop (u : User) (mm buffer length : Nat) (stop : m.get offset = some 0) :
    deviceRead m u mm buffer length offset = some (u, 0, 0) := by
  rw [deviceRead, stop, Option.bind_some, if_pos rfl]

/-- In the text the call puts the next bytes of it in the user buffer. -/
theorem deviceRead_text (u : User) (mm buffer length : Nat) (inText : InText m offset 0) :
    ∃ bytes : List UInt8,
      deviceRead m u mm buffer length offset =
        some (putBytes u mm buffer bytes, offset + bytes.length, bytes.length) ∧
      (∀ i, i < bytes.length ↔ i < length ∧ InText m offset i) ∧
        ∀ i, i < bytes.length → bytes[i]? = m.get (offset + i) := by
  obtain ⟨c, found, nonzero⟩ := inText_zero_iff.1 inText
  have within : offset ≤ BUF_LEN := Nat.le_of_lt (m.lt_of_get found nonzero)
  have copies : (copyLoop m.bytes length offset).isSome := by
    rw [copyLoop_isSome_iff]
    intro i member
    rw [m.bytes_len]
    exact Nat.lt_succ_of_le (copyIndices_le m.last within i member)
  obtain ⟨bytes, copied⟩ := Option.isSome_iff_exists.1 copies
  refine ⟨bytes, ?_, copyLoop_cells copied⟩
  have cell : m.bytes[offset]? = some c := found
  rw [deviceRead_eq, readMsg, cell, Option.bind_some, if_neg nonzero, copied]
  rfl

/-- A byte of the text is not past a NUL. -/
theorem InText.start {i : Nat} (inText : InText m offset i) : InText m offset 0 :=
  inText_zero_iff.2 (inText 0 (Nat.zero_le i))

/-- Where the text goes on, the bytes of it that are asked for have to be accessible. -/
theorem read_honest_text (u : User) (mm buffer length : Nat) (inText : InText m offset 0) :
    ReadHonest m u mm buffer length offset ↔
      ∀ i, i < length → InText m offset i → (u mm (buffer + i)).isSome := by
  obtain ⟨bytes, read, count, cells⟩ := deviceRead_text u mm buffer length inText
  constructor
  · rintro ⟨u', offset', n, read', stored, -⟩ i inLength inText
    cases read.symm.trans read'
    have inside := (count i).2 ⟨inLength, inText⟩
    have stored := stored i inside
    rw [← cells i inside, List.getElem?_eq_getElem inside] at stored
    by_contra inaccessible
    rw [putBytes_none bytes (Option.not_isSome_iff_eq_none.1 inaccessible)] at stored
    cases stored
  · intro accessible
    refine ⟨_, _, _, read, ?_, rfl⟩
    intro i inside
    rw [← cells i inside]
    refine putBytes_inside mm bytes u buffer ?_ i inside
    intro j inBytes
    obtain ⟨inLength, inText⟩ := (count j).1 inBytes
    exact accessible j inLength inText

/-- Past the message there is no read to speak of. -/
theorem read_honest_outside (u : User) (mm buffer length : Nat) (outside : m.get offset = none) :
    ¬ ReadHonest m u mm buffer length offset := by
  rintro ⟨u', offset', n, read, -⟩
  rw [deviceRead_outside u mm buffer length outside] at read
  cases read

/-- At its end nothing is stored, and the offset is 0 after it. -/
theorem read_honest_stop (u : User) (mm buffer length : Nat) (stop : m.get offset = some 0) :
    ReadHonest m u mm buffer length offset ↔ offset = 0 := by
  have read := deviceRead_stop u mm buffer length stop
  constructor
  · rintro ⟨u', offset', n, read', -, advanced⟩
    cases read.symm.trans read'
    exact advanced.symm
  · intro start
    exact ⟨u, 0, 0, read, fun i less => absurd less (Nat.not_lt_zero i), start.symm⟩

theorem read_honest_iff (u : User) (mm buffer length : Nat) :
    ReadHonest m u mm buffer length offset ↔
      offset ≤ BUF_LEN ∧
      (∀ i, i < length → InText m offset i → (u mm (buffer + i)).isSome) ∧
        (m.get offset = some 0 → offset = 0) := by
  cases found : m.get offset with
  | none =>
      refine iff_of_false (read_honest_outside u mm buffer length found) ?_
      rintro ⟨within, -⟩
      have inside := m.get_isSome within
      rw [found] at inside
      cases inside
  | some c =>
      by_cases stop : c = 0
      · subst stop
        rw [read_honest_stop u mm buffer length found]
        constructor
        · intro start
          refine ⟨by omega, fun i _ later => ?_, fun _ => start⟩
          obtain ⟨d, here, nonzero⟩ := inText_zero_iff.1 later.start
          cases found.symm.trans here
          exact absurd rfl nonzero
        · exact fun ⟨_, _, start⟩ => start rfl
      · have within : offset ≤ BUF_LEN := Nat.le_of_lt (m.lt_of_get found stop)
        have noStop : some c ≠ some 0 := by simpa using stop
        rw [read_honest_text u mm buffer length (inText_zero_iff.2 ⟨c, found, stop⟩)]
        exact ⟨fun accessible => ⟨within, accessible, fun same => absurd same noStop⟩,
          fun ⟨_, accessible, _⟩ => accessible⟩

end Read

/-- **Only bytes that were transferred.**  A write reports them exactly when no byte it
comes to is inaccessible, and so does a read, which advances the offset by their number
unless it is at the end of the message and not at its start; past the message it does
not. -/
theorem honest_iff (m : Message) (u : User) (mm buffer length : Nat) :
    (WriteHonest m u mm buffer length ↔
      ∀ p, p < length → p < BUF_LEN → (u mm (buffer + p)).isSome) ∧
    ∀ offset, ReadHonest m u mm buffer length offset ↔
      offset ≤ BUF_LEN ∧
      (∀ i, i < length → InText m offset i → (u mm (buffer + i)).isSome) ∧
        (m.get offset = some 0 → offset = 0) :=
  ⟨write_honest_iff m u mm buffer length, fun _ => read_honest_iff u mm buffer length⟩

/-- A user buffer of the one byte `X`, and nothing accessible after it. -/
def oneByte : User := fun _ addr => if addr = 0 then some 88 else none

/-- With `hello` in the message, a write of two bytes from it returns 2 and leaves
`X`, a NUL and `llo`; a read of two bytes into it returns 2. -/
theorem not_honest_oneByte :
    let hello := (deviceWrite Message.zero (userOf (text "hello")) 0 0 5).1
    (deviceWrite hello oneByte 0 0 2).2 = 2 ∧
      (deviceWrite hello oneByte 0 0 2).1.bytes.take 5 = [88, 0, 108, 108, 111] ∧
      ¬ WriteHonest hello oneByte 0 0 2 ∧
      (deviceRead hello oneByte 0 0 2 0).map (fun done => (done.1 0 0, done.1 0 1, done.2)) =
        some (some 104, none, 2, 2) ∧
      ¬ ReadHonest hello oneByte 0 0 2 0 := by
  intro hello
  refine ⟨by decide, by decide, ?_, by decide, ?_⟩
  · intro honest
    exact absurd (honest 1 rfl).1 (by decide)
  · rintro ⟨u', offset', n, read, stored, -⟩
    have shown : ((deviceRead hello oneByte 0 0 2 0).map fun done => (done.1 0 1, done.2.2)) =
        some (none, 2) := by decide
    rw [read] at shown
    obtain ⟨second, count⟩ := Prod.mk.inj (Option.some.inj shown)
    have stored := stored 1 (by rw [show n = 2 from count]; decide)
    rw [Nat.zero_add, show u' 0 1 = none from second] at stored
    exact absurd stored (by decide)

end Lkmpg.Chardev2
