/-
# Lkmpg.Chardev.Reads -- one device_read of chardev.c as a whole

`deviceRead` is the call on a `msg` that no other process writes; the steps of
`move` compute it (`moves_deviceRead`), since `msg` ends with a NUL in every reachable
state (`reachable_last`).
-/
import Lkmpg.Chardev.Driver
import Lkmpg.Kernel.MsgBuffer

namespace Lkmpg.Chardev

open Lkmpg.Kernel Lkmpg.Theory

set_option autoImplicit false

def deviceRead (d : Data) (length offset : Nat) : Option (List UInt8 × Nat) :=
  readMsg d.msg length offset

/-! ## The last byte of msg -/

theorem sprintf_last {d : Data} (last : d.msg[BUF_LEN]? = some 0) :
    d.sprintf.msg[BUF_LEN]? = some 0 :=
  splice_last d.msg_len last (Nat.le_of_lt_succ (length_told_lt d.counter))

theorem move_last {f : File} {d : Data} {m : Move} {next : File × Data}
    (last : d.msg[BUF_LEN]? = some 0) (moved : move f d m = some next) :
    next.2.msg[BUF_LEN]? = some 0 := by
  cases m with
  | sprintf =>
      simp only [move] at moved
      split at moved <;> cases moved
      exact sprintf_last last
  | deviceRead length =>
      simp only [move] at moved
      split at moved
      · split at moved
        · cases moved
        · obtain ⟨c, -, rfl⟩ := Option.map_eq_some_iff.1 moved
          split <;> exact last
      · cases moved
  | byte =>
      simp only [move] at moved
      split at moved
      · obtain ⟨c, -, rfl⟩ := Option.map_eq_some_iff.1 moved
        split <;> exact last
      · cases moved

/-- No step writes anything but a NUL to the last byte. -/
theorem reachable_last {P : Type} [DecidableEq P] {s : State P}
    (reached : (system P).Reachable s) : s.data.msg[BUF_LEN]? = some 0 := by
  refine reached.induct (I := fun s => s.data.msg[BUF_LEN]? = some 0) ?_ ?_
  · rintro s rfl
    show Data.init.msg[BUF_LEN]? = some 0
    decide
  · intro s a t last next
    cases a with
    | deviceOpen p =>
        simp only [system, step, deviceOpen] at next
        split at next
        · cases next
        · split at next <;> cases next <;> exact last
    | move p m =>
        simp only [system, step] at next
        split at next
        · cases next
        · obtain ⟨moved, taken, rfl⟩ := Option.map_eq_some_iff.1 next
          exact move_last last taken
    | deviceRelease p =>
        simp only [system, step] at next
        split at next
        · cases next
        · split at next <;> cases next
          exact last

/-! ## The steps of a call -/

/-- The moves of a process one after the other, with no other process between them. -/
def moves (f : File) (d : Data) : List Move → Option (File × Data)
  | [] => some (f, d)
  | m :: ms => (move f d m).bind fun next => moves next.1 next.2 ms

/-- The rounds of the loop copy what `copyLoop` does. -/
theorem moves_byte {d : Data} (last : d.msg[BUF_LEN]? = some 0) {length : Nat} :
    ∀ {ptr n : Nat} {buffer bytes : List UInt8} {f : File}, ptr ≤ BUF_LEN →
      f.phase = .reading length ptr n buffer → copyLoop d.msg length ptr = some bytes →
      moves f d (List.replicate (bytes.length + 1) .byte) =
        some (⟨.ready, f.offset + (n + bytes.length), f.reads ++ [buffer ++ bytes]⟩, d) := by
  induction length with
  | zero =>
      intro ptr n buffer bytes f within phase copied
      cases copied
      have inside : ptr < d.msg.length := by
        rw [d.msg_len]
        omega
      simp [moves, move, phase, inside]
  | succ length ih =>
      intro ptr n buffer bytes f within phase copied
      obtain ⟨c, found, copied⟩ := Option.bind_eq_some_iff.1 copied
      by_cases stop : c = 0
      · rw [if_pos stop] at copied
        cases copied
        simp [moves, move, phase, found, stop]
      · rw [if_neg stop] at copied
        obtain ⟨rest, others, rfl⟩ := Option.map_eq_some_iff.1 copied
        have before : ptr < BUF_LEN := by
          rcases Nat.lt_or_eq_of_le within with before | rfl
          · exact before
          · rw [last] at found
            cases found
            exact absurd rfl stop
        have taken : move f d .byte = some ({ f with
            phase := .reading length (ptr + 1) (n + 1) (buffer ++ [c]) }, d) := by
          simp [move, phase, found, stop]
        have later := ih (f := { f with
          phase := .reading length (ptr + 1) (n + 1) (buffer ++ [c]) }) before rfl others
        rw [List.length_cons, List.replicate_succ, moves, taken, Option.bind_some]
        rw [later]
        simp [Nat.add_comm, Nat.add_left_comm]

/-- **The steps compute the call.** -/
theorem moves_deviceRead {f : File} {d : Data} (last : d.msg[BUF_LEN]? = some 0)
    (ready : f.phase = .ready) {length : Nat} (positive : length ≠ 0)
    (within : f.offset ≤ BUF_LEN) {bytes : List UInt8} {off : Nat}
    (read : deviceRead d length f.offset = some (bytes, off)) :
    ∃ n, moves f d (.deviceRead length :: List.replicate n .byte) =
      some (⟨.ready, off, f.reads ++ [bytes]⟩, d) := by
  obtain ⟨c, found, got⟩ := Option.bind_eq_some_iff.1 read
  by_cases stop : c = 0
  · rw [if_pos stop] at got
    cases got
    refine ⟨0, ?_⟩
    simp [moves, move, ready, positive, found, stop]
  · rw [if_neg stop] at got
    obtain ⟨copied, loop, eq⟩ := Option.map_eq_some_iff.1 got
    cases eq
    refine ⟨bytes.length + 1, ?_⟩
    have taken : move f d (.deviceRead length) =
        some ({ f with phase := .reading length f.offset 0 [] }, d) := by
      simp [move, ready, positive, found, stop]
    rw [moves, taken, Option.bind_some, moves_byte last within rfl loop, Nat.zero_add]
    rfl

end Lkmpg.Chardev
