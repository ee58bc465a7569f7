/-
# Lkmpg.Debugfs.Register -- the debugfs message file is a faithful register

`Stores m c`: the message, its length and its terminator are those of the text `c`.
Every write that is accepted stores what it took, every other call leaves the
message as it is, and a reader that starts at position 0 gets the text in pieces
(`readFrom_transcript`).
-/
import Lkmpg.Debugfs.Driver
import Lkmpg.Theory.Chunks
import Mathlib.Data.List.TakeDrop

namespace Lkmpg.Debugfs

open Lkmpg.Kernel Lkmpg.Theory

set_option autoImplicit false

structure Stores (m : Message) (c : List UInt8) : Prop where
  len : m.len = c.length
  small : c.length < MESSAGE_MAX_LEN
  bytes : m.bytes.take m.len = c
  nul : m.bytes[m.len]? = some 0

theorem stores_init : Stores Message.init hello where
  len := rfl
  small := by decide
  bytes := by decide
  nul := by decide

/-! ## Writing -/

/-- A write at another position, or of nothing, has no effect. -/
theorem messageWrite_refused (m : Message) {buffer : List UInt8} {ppos : Int} (reach : Nat)
    (refused : ppos ≠ 0 ∨ buffer = []) :
    (messageWrite m buffer ppos reach).1 = m ∧ (messageWrite m buffer ppos reach).2.2 ≤ 0 := by
  by_cases start : ppos = 0
  · subst start
    obtain rfl : buffer = [] := refused.resolve_left (fun moved => moved rfl)
    simp [messageWrite, simpleWriteToBuffer_nil]
  · simp [messageWrite, start, EINVAL]

/-- An accepted write stores the bytes it took. -/
theorem messageWrite_accepted (m : Message) {buffer : List UInt8} {reach : Nat}
    (nonempty : buffer ≠ []) (reachable : 0 < reach) {n : Nat}
    (taken : n = min reach (min (MESSAGE_MAX_LEN - 1) buffer.length)) :
    (messageWrite m buffer 0 reach).2.2 = n ∧
      Stores (messageWrite m buffer 0 reach).1 (buffer.take n) := by
  have positive := List.length_pos_iff.2 nonempty
  have room : 0 < MESSAGE_MAX_LEN - 1 := by decide
  have accepted : (0 : Int) < n := by omega
  have length : (buffer.take n).length = n := by
    rw [List.length_take]
    omega
  have front : (splice m.bytes 0 (copied (buffer.take (MESSAGE_MAX_LEN - 1)) reach)).take n =
      buffer.take n := by
    have fits : n ≤ (buffer.take (MESSAGE_MAX_LEN - 1)).length := by
      rw [List.length_take]
      omega
    rw [splice, List.take_zero, List.nil_append,
      List.take_append_of_le_length (by rwa [length_copied]), take_copied _ (by omega) fits,
      List.take_take, Nat.min_eq_left (by omega)]
  have whole := (messageWrite m buffer 0 reach).1.bytes_len
  simp only [messageWrite, simpleWriteToBuffer_start room nonempty reachable taken, accepted,
    if_true, ne_eq, not_true_eq_false, if_false, Int.toNat_natCast] at whole ⊢
  refine ⟨trivial, length.symm, ?_, ?_, ?_⟩
  · rw [length]
    omega
  · rw [List.take_set, front, List.set_eq_of_length_le (by rw [length])]
  · rw [List.getElem?_set_self]
    rw [List.length_set] at whole
    rw [whole]
    omega

/-! ## Reading -/

/-- One read with room for something gets a piece of the text, or its end. -/
theorem messageRead_piece {m : Message} {c : List UInt8} (stores : Stores m c)
    {off len reach : Nat} {reads : List (List UInt8)} (transcript : Transcript c off reads)
    (positive : 0 < len) (reachable : 0 < reach) :
    ∃ off' : Nat, (messageRead m len off reach).ppos = off' ∧
      Transcript c off' (reads ++ [(messageRead m len off reach).bytes]) ∧
      (off < off' ∨ (messageRead m len off reach).bytes = []) := by
  have sameLen := stores.len
  have small := stores.small
  rcases Nat.lt_or_eq_of_le transcript.within with inside | rfl
  · have fits : m.len ≤ m.bytes.length := by
      rw [m.bytes_len]
      omega
    obtain ⟨n, delivered⟩ : ∃ n, n = min reach (min len (m.len - off)) := ⟨_, rfl⟩
    have piece : slice m.bytes off n = slice c off n := by
      rw [← stores.bytes, slice_take _ (by omega)]
    rw [messageRead, simpleReadFromBuffer_within (by omega) fits positive reachable delivered,
      piece]
    exact ⟨off + n, rfl, transcript.chunk (by omega) (by omega), .inl (by omega)⟩
  · rw [messageRead, ← sameLen, simpleReadFromBuffer_end]
    refine ⟨m.len, rfl, ?_, .inr rfl⟩
    rw [sameLen]
    exact transcript.eof (Nat.le_refl _)

/-- **Reading in pieces.**  The reads of a reader at `off` go on with its transcript,
and with more calls than bytes left one of them is empty. -/
theorem readFrom_transcript {m : Message} {c : List UInt8} (stores : Stores m c) :
    ∀ (calls : List (Nat × Nat)), (∀ call ∈ calls, 0 < call.1 ∧ 0 < call.2) →
      ∀ (off : Nat) (reads : List (List UInt8)), Transcript c off reads →
        (∃ off', Transcript c off' (reads ++ readFrom m off calls)) ∧
          (c.length - off < calls.length → [] ∈ readFrom m off calls) := by
  intro calls
  induction calls with
  | nil =>
      intro _ off reads transcript
      exact ⟨⟨off, by simpa [readFrom] using transcript⟩, fun many => by simp at many⟩
  | cons call calls ih =>
      intro proper off reads transcript
      obtain ⟨positive, reachable⟩ := proper call List.mem_cons_self
      obtain ⟨off', next, longer, moved⟩ :=
        messageRead_piece stores transcript positive reachable
      obtain ⟨whole, ends⟩ :=
        ih (fun c member => proper c (List.mem_cons_of_mem _ member)) off' _ longer
      simp only [readFrom, next]
      refine ⟨by simpa using whole, ?_⟩
      intro many
      have within := longer.within
      rw [List.length_cons] at many
      rcases moved with further | empty
      · exact List.mem_cons_of_mem _ (ends (by omega))
      · rw [empty]
        exact List.mem_cons_self

/-! ## The register -/

theorem step_stores {s t : State} {a : Action} (stores : Stores s.message s.accepted)
    (next : step s a = some t) : Stores t.message t.accepted := by
  cases a with
  | messageRead len ppos reach =>
      simp only [step] at next
      split at next <;> cases next
      exact stores
  | messageWrite buffer ppos reach =>
      simp only [step] at next
      split at next
      · rename_i reachable
        cases next
        by_cases refused : ppos ≠ 0 ∨ buffer = []
        · obtain ⟨same, negative⟩ := messageWrite_refused s.message reach refused
          dsimp only
          rw [same, if_neg (Int.not_lt.2 negative)]
          exact stores
        · rw [not_or, not_not] at refused
          obtain ⟨rfl, nonempty⟩ := refused
          obtain ⟨ret, stored⟩ := messageWrite_accepted s.message nonempty reachable rfl
          have positive := List.length_pos_iff.2 nonempty
          have room : 0 < MESSAGE_MAX_LEN - 1 := by decide
          dsimp only
          rw [ret, if_pos (by omega), Int.toNat_natCast]
          exact stored
      · cases next

theorem reachable_stores {s : State} (reached : system.Reachable s) :
    Stores s.message s.accepted := by
  refine reached.induct (I := fun s => Stores s.message s.accepted) ?_ fun s a t => step_stores
  rintro s rfl
  exact stores_init

/-- **The message file is a faithful register.**  In every reachable state the length
is at most 127 and the terminator is in place; a reader that starts at position 0
gets what the last accepted write took, and gets to its end; and a write at another
position or of length 0 has no effect. -/
theorem message_register {s : State} (reached : system.Reachable s) :
    s.message.len ≤ 127 ∧ s.message.bytes[s.message.len]? = some 0 ∧
      (∀ calls : List (Nat × Nat), (∀ call ∈ calls, 0 < call.1 ∧ 0 < call.2) →
        (∀ pre post, readFrom s.message 0 calls = pre ++ [] :: post → [] ∉ pre →
          pre.flatten = s.accepted) ∧
        (s.accepted.length < calls.length → [] ∈ readFrom s.message 0 calls)) ∧
      ∀ buffer ppos reach, ppos ≠ 0 ∨ buffer = [] →
        (messageWrite s.message buffer ppos reach).1 = s.message ∧
          (messageWrite s.message buffer ppos reach).2.2 ≤ 0 := by
  have stores := reachable_stores reached
  have small := stores.small
  refine ⟨?_, stores.nul, ?_, ?_⟩
  · rw [stores.len]
    exact Nat.le_of_lt_succ small
  · intro calls proper
    obtain ⟨⟨off, transcript⟩, ends⟩ :=
      readFrom_transcript stores calls proper 0 [] (.start _)
    exact ⟨fun pre post => transcript.whole, ends⟩
  · intro buffer ppos reach
    exact messageWrite_refused s.message reach

/-- A write that reaches three bytes of its buffer, a refused one, and a reader with
two buffers of two bytes. -/
theorem message_register_abc : ∃ s, system.Reachable s ∧ s.accepted = text "abc" ∧
    readFrom s.message 0 [(2, 2), (2, 2), (2, 2)] = [text "ab", text "c", []] ∧
    [text "ab", text "c"].flatten = s.accepted := by
  have ends : (system.run .init
      [.messageWrite (text "abcdef") 0 3, .messageWrite (text "x") 5 1]).map (fun s =>
        (s.accepted, readFrom s.message 0 [(2, 2), (2, 2), (2, 2)])) =
      some (text "abc", [text "ab", text "c", []]) := by decide
  obtain ⟨s, ran, same⟩ := Option.map_eq_some_iff.1 ends
  simp only [Prod.mk.injEq] at same
  obtain ⟨accepted, reads⟩ := same
  have reached : system.Reachable s := ⟨_, _, rfl, ran⟩
  obtain ⟨-, -, read, -⟩ := message_register reached
  exact ⟨s, reached, accepted, reads,
    (read _ (by decide)).1 [text "ab", text "c"] [] reads (by decide)⟩

end Lkmpg.Debugfs
