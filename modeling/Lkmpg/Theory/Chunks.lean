/-
# Lkmpg.Theory.Chunks -- reading a byte string in chunks

A reader keeps an offset and gets the string piece by piece, in pieces of any
length; an empty piece is the end of the string.  `Transcript c off reads` says
that the pieces so far are what a reader of `c` at offset `off` may have got.
Whatever it does after the first empty piece, the pieces before it are the whole
string (`Transcript.whole`).
-/
import Lkmpg.Theory.Bytes

namespace Lkmpg.Theory

set_option autoImplicit false

universe u v

variable {α : Type u}

/-- The pieces a reader of `c` got, the offset it is at now.  Before the first
empty piece they are the string up to the offset. -/
structure Transcript (c : List α) (off : Nat) (reads : List (List α)) : Prop where
  within : off ≤ c.length
  running : [] ∉ reads → reads.flatten = c.take off
  ended : ∀ pre post, reads = pre ++ [] :: post → [] ∉ pre → pre.flatten = c

namespace Transcript

variable {c : List α} {off : Nat} {reads : List (List α)}

theorem start (c : List α) : Transcript c 0 [] where
  within := Nat.zero_le _
  running _ := by simp
  ended pre post split _ := by simp at split

/-- The pieces up to the first empty one are the whole string. -/
theorem whole (t : Transcript c off reads) {pre post : List (List α)}
    (split : reads = pre ++ [] :: post) (first : [] ∉ pre) : pre.flatten = c :=
  t.ended pre post split first

/-- The first empty piece of a longer list is in the old part, or is the new one. -/
theorem first_empty {pre post : List (List α)} {bs : List α}
    (split : reads ++ [bs] = pre ++ [] :: post) :
    (∃ post', reads = pre ++ [] :: post') ∨ (bs = [] ∧ reads = pre) := by
  rcases List.eq_nil_or_concat post with rfl | ⟨post', last, rfl⟩
  · have ends := List.append_inj' split rfl
    exact .inr ⟨by simpa using ends.2, ends.1⟩
  · left
    rw [List.concat_eq_append, ← List.cons_append, ← List.append_assoc] at split
    exact ⟨post', (List.append_inj' split rfl).1⟩

/-- The reader gets the next cells of the string. -/
theorem chunk (t : Transcript c off reads) {n : Nat} (positive : 0 < n)
    (fits : off + n ≤ c.length) :
    Transcript c (off + n) (reads ++ [slice c off n]) where
  within := fits
  running noEof := by
    rw [List.mem_append, not_or] at noEof
    rw [List.flatten_append, t.running noEof.1, List.take_add]
    simp [slice]
  ended pre post split first := by
    rcases first_empty split with ⟨post', old⟩ | ⟨new, -⟩
    · exact t.ended pre post' old first
    · have length := length_slice fits
      rw [new, List.length_nil] at length
      omega

/-- The reader is at the end of the string, gets an empty piece, and may be moved. -/
theorem eof (t : Transcript c c.length reads) {off' : Nat} (within : off' ≤ c.length) :
    Transcript c off' (reads ++ [[]]) where
  within := within
  running noEof := by simp at noEof
  ended pre post split first := by
    rcases first_empty split with ⟨post', old⟩ | ⟨-, rfl⟩
    · exact t.ended pre post' old first
    · rw [t.running first, List.take_length]

end Transcript

/-- Calls that return the length of what they deliver: up to the first one that returns
0 is up to the first empty piece. -/
theorem returned_zero_iff {β : Type v} {len : List α → β} {zero : β}
    (empty : ∀ bytes, len bytes = zero ↔ bytes = []) {reads : List (List α)} {c : List α} :
    (∀ pre r post, reads.map (fun bytes => (len bytes, bytes)) = pre ++ (zero, r) :: post →
        (∀ x ∈ pre, x.1 ≠ zero) → (pre.map Prod.snd).flatten = c) ↔
      ∀ pre post, reads = pre ++ [] :: post → [] ∉ pre → pre.flatten = c := by
  have delivery : ∀ l : List (List α),
      (l.map fun bytes => (len bytes, bytes)).map Prod.snd = l := by
    intro l
    rw [List.map_map]
    exact List.map_id l
  constructor
  · rintro ended pre post rfl first
    have whole := ended (pre.map fun bytes => (len bytes, bytes)) []
      (post.map fun bytes => (len bytes, bytes)) (by simp [(empty []).2 rfl]) ?_
    · rwa [delivery] at whole
    · intro x member zero
      obtain ⟨bytes, inPre, rfl⟩ := List.mem_map.1 member
      exact first ((empty bytes).1 zero ▸ inPre)
  · intro ended pre r post split first
    obtain ⟨before, after, rfl, rfl, atReturn⟩ := List.map_eq_append_iff.1 split
    obtain ⟨bytes, rest, rfl, returned, -⟩ := List.map_eq_cons_iff.1 atReturn
    have none : bytes = [] := (empty bytes).1 (congrArg Prod.fst returned)
    subst none
    rw [delivery]
    refine ended before rest rfl fun inPre => ?_
    exact first _ (List.mem_map_of_mem inPre) ((empty []).2 rfl)

end Lkmpg.Theory
