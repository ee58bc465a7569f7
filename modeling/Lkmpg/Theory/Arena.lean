/-
# Lkmpg.Theory.Arena -- allocations, releases and who owns what

An arena hands out one address after the other and records what is released, in
the order of the releases and with repetitions: a double release is a state of the
arena, not an error.  `Sound` says there was none.

`Owns` relates an arena to a list of owners.  Each owner holds one live address,
no two the same, and nothing live is without an owner, so an allocation that joins
the list and a release that leaves it keep the account balanced.
-/
import Mathlib.Data.List.Nodup

namespace Lkmpg.Theory

set_option autoImplicit false

universe u

structure Arena where
  /-- The first address not handed out yet. -/
  next : Nat
  /-- The addresses released, the last one first. -/
  released : List Nat
  deriving DecidableEq

namespace Arena

def empty : Arena := ⟨0, []⟩

def alloc (A : Arena) : Arena := { A with next := A.next + 1 }

def release (A : Arena) (a : Nat) : Arena := { A with released := a :: A.released }

/-- An allocation that is released again. -/
def spend (A : Arena) : Arena := A.alloc.release A.next

def Live (A : Arena) (a : Nat) : Prop := a < A.next ∧ a ∉ A.released

/-- What is released was handed out before, and is released once. -/
structure Sound (A : Arena) : Prop where
  once : A.released.Nodup
  known : ∀ a ∈ A.released, a < A.next

variable {A : Arena}

theorem Sound.not_released (sound : A.Sound) : A.next ∉ A.released :=
  fun member => Nat.lt_irrefl _ (sound.known _ member)

theorem Sound.empty : Arena.empty.Sound := ⟨List.nodup_nil, by simp [Arena.empty]⟩

theorem Sound.alloc (sound : A.Sound) : A.alloc.Sound :=
  ⟨sound.once, fun a member => Nat.lt_succ_of_lt (sound.known a member)⟩

theorem Sound.release (sound : A.Sound) {a : Nat} (live : A.Live a) : (A.release a).Sound where
  once := List.nodup_cons.2 ⟨live.2, sound.once⟩
  known b member := by
    rcases List.mem_cons.1 member with rfl | member
    · exact live.1
    · exact sound.known b member

theorem not_live_empty (a : Nat) : ¬ Arena.empty.Live a := fun live => Nat.not_lt_zero a live.1

theorem Sound.live_alloc (sound : A.Sound) {a : Nat} :
    A.alloc.Live a ↔ a = A.next ∨ A.Live a := by
  constructor
  · rintro ⟨below, kept⟩
    rcases Nat.lt_succ_iff_lt_or_eq.1 below with less | same
    · exact .inr ⟨less, kept⟩
    · exact .inl same
  · rintro (rfl | live)
    · exact ⟨Nat.lt_succ_self _, sound.not_released⟩
    · exact ⟨Nat.lt_succ_of_lt live.1, live.2⟩

theorem live_release {a b : Nat} : (A.release b).Live a ↔ A.Live a ∧ a ≠ b := by
  simp only [Live, release, List.mem_cons, not_or]
  tauto

theorem Sound.spend (sound : A.Sound) : A.spend.Sound :=
  sound.alloc.release (sound.live_alloc.2 (.inl rfl))

/-- Releasing the fresh address at once leaves what was live. -/
theorem Sound.live_spend (sound : A.Sound) {a : Nat} : A.spend.Live a ↔ A.Live a := by
  rw [Arena.spend, live_release, sound.live_alloc]
  constructor
  · rintro ⟨rfl | live, ne⟩
    · exact absurd rfl ne
    · exact live
  · exact fun live => ⟨.inr live, fun same => Nat.lt_irrefl _ (same ▸ live.1)⟩

end Arena

/-- The owners in the list hold the live addresses, one each. -/
structure Owns {α : Type u} (A : Arena) (owners : List α) (own : α → Option Nat) : Prop where
  sound : A.Sound
  live : ∀ x ∈ owners, ∃ a, own x = some a ∧ A.Live a
  apart : ∀ x ∈ owners, ∀ y ∈ owners, own x = own y → x = y
  owned : ∀ a, A.Live a → ∃ x ∈ owners, own x = some a

namespace Owns

variable {α : Type u} {A : Arena} {owners : List α} {own : α → Option Nat}

theorem nil : Owns Arena.empty ([] : List α) own where
  sound := .empty
  live := by simp
  apart := by simp
  owned a live := absurd live (Arena.not_live_empty a)

theorem congr {own' : α → Option Nat} (owns : Owns A owners own)
    (same : ∀ x ∈ owners, own' x = own x) : Owns A owners own' where
  sound := owns.sound
  live x member := by
    rw [same x member]
    exact owns.live x member
  apart x memberX y memberY eq := by
    rw [same x memberX, same y memberY] at eq
    exact owns.apart x memberX y memberY eq
  owned a live := by
    obtain ⟨x, member, own⟩ := owns.owned a live
    exact ⟨x, member, by rw [same x member, own]⟩

/-- The owners count as a set. -/
theorem of_mem {owners' : List α} (owns : Owns A owners own)
    (same : ∀ x, x ∈ owners ↔ x ∈ owners') : Owns A owners' own where
  sound := owns.sound
  live x member := owns.live x ((same x).2 member)
  apart x memberX y memberY := owns.apart x ((same x).2 memberX) y ((same y).2 memberY)
  owned a live := by
    obtain ⟨x, member, holds⟩ := owns.owned a live
    exact ⟨x, (same x).1 member, holds⟩

theorem live_of (owns : Owns A owners own) {x : α} {a : Nat} (member : x ∈ owners)
    (holds : own x = some a) : A.Live a := by
  obtain ⟨b, holds', live⟩ := owns.live x member
  rw [holds] at holds'
  cases holds'
  exact live

theorem spend (owns : Owns A owners own) : Owns A.spend owners own where
  sound := owns.sound.spend
  live x member := by
    obtain ⟨a, holds, live⟩ := owns.live x member
    exact ⟨a, holds, owns.sound.live_spend.2 live⟩
  apart := owns.apart
  owned a live := owns.owned a (owns.sound.live_spend.1 live)

/-- A new owner takes the fresh address. -/
theorem cons (owns : Owns A owners own) {x : α} (holds : own x = some A.next) :
    Owns A.alloc (x :: owners) own where
  sound := owns.sound.alloc
  live y member := by
    rcases List.mem_cons.1 member with rfl | member
    · exact ⟨A.next, holds, owns.sound.live_alloc.2 (.inl rfl)⟩
    · obtain ⟨a, holds, live⟩ := owns.live y member
      exact ⟨a, holds, owns.sound.live_alloc.2 (.inr live)⟩
  apart y memberY z memberZ same := by
    have old : ∀ w ∈ owners, own w ≠ some A.next := by
      intro w member fresh
      exact Nat.lt_irrefl _ (owns.live_of member fresh).1
    rcases List.mem_cons.1 memberY with rfl | oldY
    · rcases List.mem_cons.1 memberZ with rfl | oldZ
      · rfl
      · exact absurd (same ▸ holds) (old z oldZ)
    · rcases List.mem_cons.1 memberZ with rfl | oldZ
      · exact absurd (same ▸ holds) (old y oldY)
      · exact owns.apart y oldY z oldZ same
  owned a live := by
    rcases owns.sound.live_alloc.1 live with rfl | live
    · exact ⟨x, List.mem_cons_self, holds⟩
    · obtain ⟨y, member, holds⟩ := owns.owned a live
      exact ⟨y, List.mem_cons_of_mem x member, holds⟩

/-- An owner leaves and releases what it holds. -/
theorem erase [DecidableEq α] (owns : Owns A owners own) (nodup : owners.Nodup) {x : α} {a : Nat}
    (member : x ∈ owners) (holds : own x = some a) :
    Owns (A.release a) (owners.erase x) own where
  sound := owns.sound.release (owns.live_of member holds)
  live y kept := by
    obtain ⟨ne, old⟩ := nodup.mem_erase_iff.1 kept
    obtain ⟨b, holdsY, live⟩ := owns.live y old
    refine ⟨b, holdsY, Arena.live_release.2 ⟨live, fun same => ne ?_⟩⟩
    exact owns.apart y old x member (by rw [holdsY, holds, same])
  apart y keptY z keptZ same :=
    owns.apart y (List.mem_of_mem_erase keptY) z (List.mem_of_mem_erase keptZ) same
  owned b live := by
    obtain ⟨live, ne⟩ := Arena.live_release.1 live
    obtain ⟨y, old, holdsY⟩ := owns.owned b live
    refine ⟨y, nodup.mem_erase_iff.2 ⟨fun same => ne ?_, old⟩, holdsY⟩
    rw [same, holds] at holdsY
    exact (Option.some.inj holdsY).symm

end Owns

end Lkmpg.Theory
