/-
# Lkmpg.Theory.Custody -- items in the hands of one party at a time

Items are created, closed and removed, each by a party that has the item in its
custody.  A party takes an item only from the list of those that are still there,
and only when nobody has it.  Under that discipline no item is closed twice and none
removed twice (`Sound`), whatever the order of the steps.
-/
import Lkmpg.Theory.System
import Mathlib.Data.List.Nodup
import Mathlib.Logic.Function.Basic

namespace Lkmpg.Theory.Custody

set_option autoImplicit false

universe u

structure State (P : Type u) where
  /-- The next item to be created. -/
  next : Nat
  items : List Nat
  /-- What a party has in custody, and whether it has closed it. -/
  holder : P → Option (Nat × Bool)
  /-- The items closed, and the items removed, the last one first. -/
  closed : List Nat
  removed : List Nat

variable {P : Type u}

structure Sound (s : State P) : Prop where
  nodup : s.items.Nodup
  known : ∀ v ∈ s.items, v < s.next
  closedKnown : ∀ v ∈ s.closed, v < s.next
  removedKnown : ∀ v ∈ s.removed, v < s.next
  there : ∀ p v b, s.holder p = some (v, b) → v ∈ s.items
  unique : ∀ p q v b c, s.holder p = some (v, b) → s.holder q = some (v, c) → p = q
  /-- An item that is still there has been closed only by who has it. -/
  closer : ∀ v ∈ s.items, v ∈ s.closed → ∃ p, s.holder p = some (v, true)
  present : ∀ v ∈ s.items, v ∉ s.removed
  closedOnce : s.closed.Nodup
  removedOnce : s.removed.Nodup

namespace Sound

variable {s : State P}

theorem start : Sound (⟨0, [], fun _ => none, [], []⟩ : State P) where
  nodup := List.nodup_nil
  known := by simp
  closedKnown := by simp
  removedKnown := by simp
  there := by simp
  unique := by simp
  closer := by simp
  present := by simp
  closedOnce := List.nodup_nil
  removedOnce := List.nodup_nil

/-- An item in custody and not closed by who has it is not closed at all. -/
theorem not_closed (sound : Sound s) {p : P} {v : Nat} (held : s.holder p = some (v, false)) :
    v ∉ s.closed := by
  intro closed
  obtain ⟨q, holdsQ⟩ := sound.closer v (sound.there p v false held) closed
  obtain rfl := sound.unique p q v false true held holdsQ
  rw [held] at holdsQ
  cases holdsQ

theorem next_not_mem (sound : Sound s) : s.next ∉ s.items :=
  fun member => Nat.lt_irrefl _ (sound.known _ member)

end Sound

variable [DecidableEq P]

inductive Step (s : State P) : State P → Prop where
  | create (p : P) (idle : s.holder p = none) : Step s { s with
      next := s.next + 1
      items := s.next :: s.items
      holder := Function.update s.holder p (some (s.next, false)) }
  /-- An item is created for nobody, and is not in the list. -/
  | skip : Step s { s with next := s.next + 1 }
  | take (p : P) (v : Nat) (idle : s.holder p = none) (there : v ∈ s.items)
      (free : ∀ q b, s.holder q ≠ some (v, b)) : Step s { s with
        holder := Function.update s.holder p (some (v, false)) }
  | close (p : P) (v : Nat) (held : s.holder p = some (v, false)) : Step s { s with
      holder := Function.update s.holder p (some (v, true))
      closed := v :: s.closed }
  | remove (p : P) (v : Nat) (b : Bool) (held : s.holder p = some (v, b)) : Step s { s with
      items := s.items.erase v
      holder := Function.update s.holder p none
      removed := v :: s.removed }
  /-- An item is taken off the list without being removed. -/
  | discard (p : P) (v : Nat) (held : s.holder p = some (v, false)) : Step s { s with
      items := s.items.erase v
      holder := Function.update s.holder p none }
  | release (p : P) (v : Nat) (held : s.holder p = some (v, false)) : Step s { s with
      holder := Function.update s.holder p none }

namespace Sound

variable {s t : State P}

theorem update_holder {h : P → Option (Nat × Bool)} {p q : P} {x : Option (Nat × Bool)}
    {v : Nat} {b : Bool} : Function.update h p x q = some (v, b) ↔
      (q = p ∧ x = some (v, b)) ∨ (q ≠ p ∧ h q = some (v, b)) := by
  by_cases same : q = p
  · subst same
    simp
  · simp [same]

theorem create (sound : Sound s) {p : P} (idle : s.holder p = none) : Sound { s with
    next := s.next + 1
    items := s.next :: s.items
    holder := Function.update s.holder p (some (s.next, false)) } where
  nodup := List.nodup_cons.2 ⟨sound.next_not_mem, sound.nodup⟩
  known v member := by
    rcases List.mem_cons.1 member with rfl | member
    · exact Nat.lt_succ_self _
    · exact Nat.lt_succ_of_lt (sound.known v member)
  closedKnown v member := Nat.lt_succ_of_lt (sound.closedKnown v member)
  removedKnown v member := Nat.lt_succ_of_lt (sound.removedKnown v member)
  there q v b held := by
    rcases update_holder.1 held with ⟨-, new⟩ | ⟨-, old⟩
    · cases new
      exact List.mem_cons_self
    · exact List.mem_cons_of_mem _ (sound.there q v b old)
  unique q r v b c heldQ heldR := by
    rcases update_holder.1 heldQ with ⟨rfl, newQ⟩ | ⟨-, oldQ⟩ <;>
      rcases update_holder.1 heldR with ⟨rfl, newR⟩ | ⟨-, oldR⟩
    · rfl
    · cases newQ
      exact absurd (sound.there r _ c oldR) sound.next_not_mem
    · cases newR
      exact absurd (sound.there q _ b oldQ) sound.next_not_mem
    · exact sound.unique q r v b c oldQ oldR
  closer v member closed := by
    rcases List.mem_cons.1 member with rfl | member
    · exact absurd (sound.closedKnown _ closed) (Nat.lt_irrefl _)
    · obtain ⟨q, held⟩ := sound.closer v member closed
      refine ⟨q, update_holder.2 (.inr ⟨?_, held⟩)⟩
      intro same
      rw [same, idle] at held
      cases held
  present v member removed := by
    rcases List.mem_cons.1 member with rfl | member
    · exact absurd (sound.removedKnown _ removed) (Nat.lt_irrefl _)
    · exact sound.present v member removed
  closedOnce := sound.closedOnce
  removedOnce := sound.removedOnce

theorem take (sound : Sound s) {p : P} {v : Nat} (idle : s.holder p = none) (there : v ∈ s.items)
    (free : ∀ q b, s.holder q ≠ some (v, b)) : Sound { s with
      holder := Function.update s.holder p (some (v, false)) } where
  nodup := sound.nodup
  known := sound.known
  closedKnown := sound.closedKnown
  removedKnown := sound.removedKnown
  there q w b held := by
    rcases update_holder.1 held with ⟨-, new⟩ | ⟨-, old⟩
    · cases new
      exact there
    · exact sound.there q w b old
  unique q r w b c heldQ heldR := by
    rcases update_holder.1 heldQ with ⟨rfl, newQ⟩ | ⟨-, oldQ⟩ <;>
      rcases update_holder.1 heldR with ⟨rfl, newR⟩ | ⟨-, oldR⟩
    · rfl
    · cases newQ
      exact absurd oldR (free r c)
    · cases newR
      exact absurd oldQ (free q b)
    · exact sound.unique q r w b c oldQ oldR
  closer w member closed := by
    obtain ⟨q, held⟩ := sound.closer w member closed
    refine ⟨q, update_holder.2 (.inr ⟨?_, held⟩)⟩
    intro same
    rw [same, idle] at held
    cases held
  present := sound.present
  closedOnce := sound.closedOnce
  removedOnce := sound.removedOnce

theorem close (sound : Sound s) {p : P} {v : Nat} (held : s.holder p = some (v, false)) :
    Sound { s with
      holder := Function.update s.holder p (some (v, true))
      closed := v :: s.closed } where
  nodup := sound.nodup
  known := sound.known
  closedKnown w member := by
    rcases List.mem_cons.1 member with rfl | member
    · exact sound.known _ (sound.there p _ false held)
    · exact sound.closedKnown w member
  removedKnown := sound.removedKnown
  there q w b heldQ := by
    rcases update_holder.1 heldQ with ⟨-, new⟩ | ⟨-, old⟩
    · cases new
      exact sound.there p v false held
    · exact sound.there q w b old
  unique q r w b c heldQ heldR := by
    rcases update_holder.1 heldQ with ⟨rfl, newQ⟩ | ⟨-, oldQ⟩ <;>
      rcases update_holder.1 heldR with ⟨rfl, newR⟩ | ⟨-, oldR⟩
    · rfl
    · cases newQ
      exact sound.unique q r v false c held oldR
    · cases newR
      exact sound.unique q r v b false oldQ held
    · exact sound.unique q r w b c oldQ oldR
  closer w member closed := by
    rcases List.mem_cons.1 closed with rfl | closed
    · exact ⟨p, update_holder.2 (.inl ⟨rfl, rfl⟩)⟩
    · obtain ⟨q, heldQ⟩ := sound.closer w member closed
      refine ⟨q, update_holder.2 (.inr ⟨?_, heldQ⟩)⟩
      intro same
      rw [same, held] at heldQ
      cases heldQ
  present := sound.present
  closedOnce := List.nodup_cons.2 ⟨sound.not_closed held, sound.closedOnce⟩
  removedOnce := sound.removedOnce

/-- An item leaves the list with the party that has it. -/
theorem leave (sound : Sound s) {p : P} {v : Nat} {b : Bool} (held : s.holder p = some (v, b)) :
    Sound { s with
      items := s.items.erase v
      holder := Function.update s.holder p none } where
  nodup := sound.nodup.erase v
  known w kept := sound.known w (List.mem_of_mem_erase kept)
  closedKnown := sound.closedKnown
  removedKnown := sound.removedKnown
  there q w c heldQ := by
    rcases update_holder.1 heldQ with ⟨-, new⟩ | ⟨ne, old⟩
    · cases new
    · refine sound.nodup.mem_erase_iff.2 ⟨?_, sound.there q w c old⟩
      rintro rfl
      exact ne (sound.unique q p w c b old held)
  unique q r w c d heldQ heldR := by
    rcases update_holder.1 heldQ with ⟨-, newQ⟩ | ⟨-, oldQ⟩ <;>
      rcases update_holder.1 heldR with ⟨-, newR⟩ | ⟨-, oldR⟩
    · cases newQ
    · cases newQ
    · cases newR
    · exact sound.unique q r w c d oldQ oldR
  closer w kept closed := by
    obtain ⟨ne, member⟩ := sound.nodup.mem_erase_iff.1 kept
    obtain ⟨q, heldQ⟩ := sound.closer w member closed
    refine ⟨q, update_holder.2 (.inr ⟨?_, heldQ⟩)⟩
    intro same
    rw [same, held] at heldQ
    cases heldQ
    exact ne rfl
  present w kept := sound.present w (List.mem_of_mem_erase kept)
  closedOnce := sound.closedOnce
  removedOnce := sound.removedOnce

theorem remove (sound : Sound s) {p : P} {v : Nat} {b : Bool} (held : s.holder p = some (v, b)) :
    Sound { s with
      items := s.items.erase v
      holder := Function.update s.holder p none
      removed := v :: s.removed } :=
  have member := sound.there p v b held
  { sound.leave held with
    removedKnown := fun w removed => by
      rcases List.mem_cons.1 removed with rfl | removed
      · exact sound.known _ member
      · exact sound.removedKnown w removed
    present := fun w kept removed => by
      obtain ⟨ne, old⟩ := sound.nodup.mem_erase_iff.1 kept
      rcases List.mem_cons.1 removed with same | removed
      · exact ne same
      · exact sound.present w old removed
    removedOnce := List.nodup_cons.2 ⟨sound.present v member, sound.removedOnce⟩ }

theorem release (sound : Sound s) {p : P} {v : Nat} (held : s.holder p = some (v, false)) :
    Sound { s with holder := Function.update s.holder p none } :=
  { sound with
    there := fun q w b heldQ => by
      rcases update_holder.1 heldQ with ⟨-, new⟩ | ⟨-, old⟩
      · cases new
      · exact sound.there q w b old
    unique := fun q r w b c heldQ heldR => by
      rcases update_holder.1 heldQ with ⟨-, newQ⟩ | ⟨-, oldQ⟩ <;>
        rcases update_holder.1 heldR with ⟨-, newR⟩ | ⟨-, oldR⟩
      · cases newQ
      · cases newQ
      · cases newR
      · exact sound.unique q r w b c oldQ oldR
    closer := fun w member closed => by
      obtain ⟨q, heldQ⟩ := sound.closer w member closed
      refine ⟨q, update_holder.2 (.inr ⟨?_, heldQ⟩)⟩
      intro same
      rw [same, held] at heldQ
      cases heldQ }

/-- **One step.** -/
theorem step (sound : Sound s) (step : Step s t) : Sound t := by
  cases step with
  | create p idle => exact sound.create idle
  | skip =>
      exact { sound with
        known := fun v member => Nat.lt_succ_of_lt (sound.known v member)
        closedKnown := fun v member => Nat.lt_succ_of_lt (sound.closedKnown v member)
        removedKnown := fun v member => Nat.lt_succ_of_lt (sound.removedKnown v member) }
  | take p v idle there free => exact sound.take idle there free
  | close p v held => exact sound.close held
  | remove p v b held => exact sound.remove held
  | discard p v held => exact sound.leave held
  | release p v held => exact sound.release held

end Sound

end Lkmpg.Theory.Custody
