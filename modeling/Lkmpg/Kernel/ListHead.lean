/-
# Lkmpg.Kernel.ListHead -- walking a struct list_head while it changes

A list is its nodes in order.  A `Link` is where a `next` pointer leads, and
`list_del` poisons the pointer of the node it takes off, so following it from there
leads nowhere.

`Ahead` says that a walk which stands at a link has still to come to a node.  An
insertion at the head, a removal of other nodes and a step of the walk keep that
(`ahead_cons`, `ahead_erase`, `ahead_next`); nothing is ahead of a walk that is back
at the head.
-/
import Mathlib.Data.List.Nodup
import Mathlib.Data.List.TakeWhile

namespace Lkmpg.Kernel

set_option autoImplicit false

inductive Link where
  | head
  | node (v : Nat)
  | poison
  deriving DecidableEq

/-- `head->next`. -/
def firstLink : List Nat → Link
  | [] => .head
  | v :: _ => .node v

/-- `curr->next`. -/
def nextLink (list : List Nat) (curr : Nat) : Link :=
  match list.dropWhile (· ≠ curr) with
  | [] => .poison
  | _ :: rest => firstLink rest

/-- A walk at the link comes to `v` before the head, if it gets to the head at all. -/
def Ahead (list : List Nat) (link : Link) (v : Nat) : Prop :=
  match link with
  | .head => False
  | .node w => w ∈ list → v ∈ list.dropWhile (· ≠ w)
  | .poison => True

instance (list : List Nat) (v : Nat) : ∀ link, Decidable (Ahead list link v)
  | .head => .isFalse id
  | .node w => inferInstanceAs (Decidable (w ∈ list → v ∈ list.dropWhile (· ≠ w)))
  | .poison => .isTrue trivial

theorem dropWhile_split {pre rest : List Nat} {v : Nat} (absent : v ∉ pre) :
    (pre ++ v :: rest).dropWhile (· ≠ v) = v :: rest := by
  have front : ∀ w ∈ pre, decide (w ≠ v) = true :=
    fun w member => decide_eq_true fun same => absent (same ▸ member)
  rw [List.dropWhile_append_of_pos front, List.dropWhile_cons_of_neg (by simp)]

theorem nextLink_append {pre rest : List Nat} {v : Nat} (absent : v ∉ pre) :
    nextLink (pre ++ v :: rest) v = firstLink rest := by
  rw [nextLink, dropWhile_split absent]

/-- A list without repetitions, split at one of its nodes. -/
theorem split_at {list : List Nat} (nodup : list.Nodup) {v : Nat} (member : v ∈ list) :
    ∃ pre rest, list = pre ++ v :: rest ∧ v ∉ pre ∧ v ∉ rest := by
  obtain ⟨pre, rest, rfl⟩ := List.append_of_mem member
  have apart := List.nodup_append.1 nodup
  exact ⟨pre, rest, rfl, fun inPre => apart.2.2 v inPre v List.mem_cons_self rfl,
    (List.nodup_cons.1 apart.2.1).1⟩

theorem nextLink_of_not_mem {list : List Nat} {v : Nat} (absent : v ∉ list) :
    nextLink list v = .poison := by
  have all : ∀ w ∈ list, decide (w ≠ v) = true :=
    fun w member => decide_eq_true fun same => absent (same ▸ member)
  rw [nextLink, List.dropWhile_eq_nil_iff.2 all]

theorem firstLink_mem {list : List Nat} {v : Nat} (first : firstLink list = .node v) :
    v ∈ list := by
  cases list with
  | nil => cases first
  | cons w rest =>
      cases first
      exact List.mem_cons_self

theorem nextLink_mem {list : List Nat} {curr v : Nat} (next : nextLink list curr = .node v) :
    v ∈ list := by
  unfold nextLink at next
  split at next
  · cases next
  · rename_i w rest left
    have inRest := List.mem_cons_of_mem w (firstLink_mem next)
    rw [← left] at inRest
    exact (List.dropWhile_sublist _).subset inRest

/-! ## Where the walk has still to go -/

theorem ahead_first {list : List Nat} {v : Nat} (member : v ∈ list) :
    Ahead list (firstLink list) v := by
  cases list with
  | nil => cases member
  | cons w rest =>
      intro _
      rw [List.dropWhile_cons_of_neg (by simp)]
      exact member

theorem ahead_next {list : List Nat} (nodup : list.Nodup) {curr v : Nat}
    (ahead : Ahead list (.node curr) v) (other : v ≠ curr) :
    Ahead list (nextLink list curr) v := by
  by_cases member : curr ∈ list
  · obtain ⟨pre, rest, rfl, absent, -⟩ := split_at nodup member
    rw [nextLink_append absent]
    have after := ahead member
    rw [dropWhile_split absent] at after
    have inRest : v ∈ rest := by
      rcases List.mem_cons.1 after with same | inRest
      · exact absurd same other
      · exact inRest
    cases rest with
    | nil => cases inRest
    | cons w rest =>
        intro _
        have split : pre ++ curr :: w :: rest = (pre ++ [curr]) ++ w :: rest := by simp
        have front : w ∉ pre ++ [curr] := by
          rw [split] at nodup
          exact fun inFront =>
            (List.nodup_append.1 nodup).2.2 w inFront w List.mem_cons_self rfl
        rw [split, dropWhile_split front]
        exact inRest
  · rw [nextLink_of_not_mem member]
    trivial

/-- A node inserted at the head is behind every walk that has begun. -/
theorem ahead_cons {list : List Nat} {link : Link} {v w : Nat} (new : link ≠ .node w)
    (ahead : Ahead list link v) : Ahead (w :: list) link v := by
  cases link with
  | head => exact ahead
  | poison => trivial
  | node u =>
      have other : w ≠ u := fun same => new (by rw [same])
      intro member
      rw [List.dropWhile_cons_of_pos (by simpa using other)]
      rcases List.mem_cons.1 member with same | member
      · exact absurd same.symm other
      · exact ahead member

theorem ahead_erase {list : List Nat} (nodup : list.Nodup) {link : Link} {v w : Nat}
    (other : v ≠ w) (ahead : Ahead list link v) : Ahead (list.erase w) link v := by
  cases link with
  | head => exact ahead
  | poison => trivial
  | node u =>
      intro kept
      obtain ⟨ne, member⟩ := nodup.mem_erase_iff.1 kept
      obtain ⟨pre, rest, rfl, absent, -⟩ := split_at nodup member
      have after := ahead member
      rw [dropWhile_split absent] at after
      have tail : (u :: rest).erase w = u :: rest.erase w := by
        rw [List.erase_cons_tail (by simpa using ne)]
      have inTail : v ∈ u :: rest.erase w := by
        rw [← tail]
        exact (List.mem_erase_of_ne other).2 after
      by_cases inPre : w ∈ pre
      · have absent' : u ∉ pre.erase w := fun inErase => absent (List.mem_of_mem_erase inErase)
        rw [List.erase_append_left _ inPre, dropWhile_split absent']
        exact after
      · rw [List.erase_append_right _ inPre, tail, dropWhile_split absent]
        exact inTail

end Lkmpg.Kernel
