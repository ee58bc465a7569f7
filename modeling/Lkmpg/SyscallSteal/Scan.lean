/-
# Lkmpg.SyscallSteal.Scan -- how acquire_sys_call_table looks for the table

With `HAVE_KSYS_CLOSE` the table is looked for in the memory from `PAGE_OFFSET` on, one
word after the other.  The loop is to stop at `ULLONG_MAX`, which is not a multiple of 8:
from the last word it goes on at address 0 (`acquires_around`), and where no entry is
`ksys_close` it does not end (`Acquires.table`).
-/
import Lkmpg.Theory.Rounds
import Mathlib.Algebra.Order.Ring.Int
import Mathlib.Data.Nat.Find

namespace Lkmpg.SyscallSteal

open Lkmpg.Theory

set_option autoImplicit false

/-- An `unsigned long`, or a pointer. -/
abbrev Word := BitVec 64

def ULLONG_MAX : Word := BitVec.allOnes 64

def NULL : Word := 0

section Scan

variable (memory : Word → Word) (nrClose ksysClose : Word)

/-- `sct[__NR_close] == (unsigned long *)ksys_close`. -/
def IsTable (sct : Word) : Prop := memory (sct + 8 * nrClose) = ksysClose

instance (sct : Word) : Decidable (IsTable memory nrClose ksysClose sct) :=
  inferInstanceAs (Decidable (_ = _))

/-- One round of `while (offset < ULLONG_MAX)`. -/
def scanRound (offset : Word) : Word ⊕ Word :=
  if offset < ULLONG_MAX then
    if IsTable memory nrClose ksysClose offset then .inl offset
    else .inr (offset + 8)
  else .inl NULL

/-- `acquire_sys_call_table` returns `r`. -/
def Acquires (pageOffset r : Word) : Prop :=
  Ends (scanRound memory nrClose ksysClose) pageOffset r

/-- The address of a word. -/
def Aligned (a : Word) : Prop := a.toNat % 8 = 0

instance (a : Word) : Decidable (Aligned a) := inferInstanceAs (Decidable (_ = _))

/-- The first address at or above `PAGE_OFFSET` with the right entry, or `NULL` when there
is none. -/
def IsResult (pageOffset r : Word) : Prop :=
  (pageOffset ≤ r ∧ Aligned r ∧ IsTable memory nrClose ksysClose r ∧
    ∀ a, pageOffset ≤ a → a < r → Aligned a → ¬ IsTable memory nrClose ksysClose a) ∨
  (∀ a, pageOffset ≤ a → Aligned a → ¬ IsTable memory nrClose ksysClose a) ∧ r = NULL

end Scan

/-! ## Rounds -/

section Rounds

variable {memory : Word → Word} {nrClose ksysClose pageOffset : Word}

theorem Aligned.lt_max {a : Word} (aligned : Aligned a) : a < ULLONG_MAX := by
  rw [Aligned] at aligned
  rw [BitVec.lt_def, ULLONG_MAX, BitVec.toNat_allOnes]
  omega

/-- The address `k` words after `a`, which may be past the top. -/
def wordAfter (a : Word) (k : Nat) : Word := a + BitVec.ofNat 64 (8 * k)

theorem toNat_wordAfter (a : Word) (k : Nat) :
    (wordAfter a k).toNat = (a.toNat + 8 * k) % 2 ^ 64 := by
  rw [wordAfter, BitVec.toNat_add, BitVec.toNat_ofNat]
  omega

theorem wordAfter_zero (a : Word) : wordAfter a 0 = a := by
  apply BitVec.eq_of_toNat_eq
  rw [toNat_wordAfter]
  omega

theorem wordAfter_succ (a : Word) (k : Nat) : wordAfter a k + 8 = wordAfter a (k + 1) := by
  apply BitVec.eq_of_toNat_eq
  rw [BitVec.toNat_add, toNat_wordAfter, toNat_wordAfter]
  show ((a.toNat + 8 * k) % 2 ^ 64 + 8) % 2 ^ 64 = _
  omega

theorem Aligned.wordAfter {a : Word} (aligned : Aligned a) (k : Nat) :
    Aligned (wordAfter a k) := by
  rw [Aligned] at aligned ⊢
  rw [toNat_wordAfter]
  omega

/-- The words at or above `a`. -/
theorem Aligned.exists_wordAfter {a b : Word} (alignedA : Aligned a) (alignedB : Aligned b)
    (above : a ≤ b) : ∃ k, a.toNat + 8 * k < 2 ^ 64 ∧ b = SyscallSteal.wordAfter a k := by
  rw [Aligned] at alignedA alignedB
  rw [BitVec.le_def] at above
  have top := b.isLt
  refine ⟨(b.toNat - a.toNat) / 8, by omega, ?_⟩
  apply BitVec.eq_of_toNat_eq
  rw [toNat_wordAfter]
  omega

theorem scanRound_table {a : Word} (aligned : Aligned a)
    (table : IsTable memory nrClose ksysClose a) :
    scanRound memory nrClose ksysClose a = .inl a := by
  rw [scanRound, if_pos aligned.lt_max, if_pos table]

theorem scanRound_other {a : Word} (aligned : Aligned a)
    (other : ¬ IsTable memory nrClose ksysClose a) :
    scanRound memory nrClose ksysClose a = .inr (a + 8) := by
  rw [scanRound, if_pos aligned.lt_max, if_neg other]

/-- The scan gets past `n` words that are no table. -/
theorem acquires_past (aligned : Aligned pageOffset) {n : Nat}
    (others : ∀ k, k < n → ¬ IsTable memory nrClose ksysClose (wordAfter pageOffset k))
    {r : Word} :
    Acquires memory nrClose ksysClose pageOffset r ↔
      Acquires memory nrClose ksysClose (wordAfter pageOffset n) r := by
  have goesOn : ∀ k, k < n → scanRound memory nrClose ksysClose (wordAfter pageOffset k) =
      .inr (wordAfter pageOffset (k + 1)) := by
    intro k less
    rw [scanRound_other (aligned.wordAfter k) (others k less), wordAfter_succ]
  have past := ends_iff_of_goesOn (r := r) goesOn
  rwa [wordAfter_zero] at past

/-- The loop ends at a table only. -/
theorem Acquires.table (aligned : Aligned pageOffset) {r : Word}
    (acquires : Acquires memory nrClose ksysClose pageOffset r) :
    Aligned r ∧ IsTable memory nrClose ksysClose r := by
  have keep : ∀ s t, Aligned s → scanRound memory nrClose ksysClose s = .inr t → Aligned t := by
    intro s t aligned next
    by_cases table : IsTable memory nrClose ksysClose s
    · rw [scanRound_table aligned table] at next
      cases next
    · rw [scanRound_other aligned table] at next
      cases next
      have moved := aligned.wordAfter 1
      rwa [← wordAfter_succ, wordAfter_zero] at moved
  obtain ⟨last, alignedLast, ended⟩ := acquires.induct keep aligned
  by_cases table : IsTable memory nrClose ksysClose last
  · rw [scanRound_table alignedLast table] at ended
    cases ended
    exact ⟨alignedLast, table⟩
  · rw [scanRound_other alignedLast table] at ended
    cases ended

/-- A table at or above `PAGE_OFFSET` is found, the first one. -/
theorem acquires_first (aligned : Aligned pageOffset) {a : Word} (above : pageOffset ≤ a)
    (alignedA : Aligned a) (table : IsTable memory nrClose ksysClose a) :
    ∃ r, Acquires memory nrClose ksysClose pageOffset r ∧
      IsResult memory nrClose ksysClose pageOffset r := by
  obtain ⟨k, inside, rfl⟩ := aligned.exists_wordAfter alignedA above
  have some : ∃ k, IsTable memory nrClose ksysClose (wordAfter pageOffset k) := ⟨k, table⟩
  have least : Nat.find some ≤ k := Nat.find_min' some table
  have before : ∀ j, j < Nat.find some → ¬ IsTable memory nrClose ksysClose
      (wordAfter pageOffset j) := fun j less => Nat.find_min some less
  refine ⟨wordAfter pageOffset (Nat.find some), ?_, .inl ⟨?_, ?_, Nat.find_spec some, ?_⟩⟩
  · rw [acquires_past aligned before]
    exact ends_of_inl (scanRound_table (aligned.wordAfter _) (Nat.find_spec some))
  · rw [BitVec.le_def, toNat_wordAfter]
    omega
  · exact aligned.wordAfter _
  · intro b aboveB less alignedB
    obtain ⟨j, insideB, rfl⟩ := aligned.exists_wordAfter alignedB aboveB
    refine before j ?_
    rw [BitVec.lt_def, toNat_wordAfter, toNat_wordAfter] at less
    omega

/-- Where there is none the scan goes on at address 0. -/
theorem acquires_around (aligned : Aligned pageOffset)
    (none : ∀ a, pageOffset ≤ a → Aligned a → ¬ IsTable memory nrClose ksysClose a) {r : Word} :
    Acquires memory nrClose ksysClose pageOffset r ↔ Acquires memory nrClose ksysClose NULL r := by
  have top := pageOffset.isLt
  have words : pageOffset.toNat + 8 * ((2 ^ 64 - pageOffset.toNat) / 8) = 2 ^ 64 := by
    have multiple : pageOffset.toNat % 8 = 0 := aligned
    omega
  have around : wordAfter pageOffset ((2 ^ 64 - pageOffset.toNat) / 8) = NULL := by
    apply BitVec.eq_of_toNat_eq
    rw [toNat_wordAfter, words]
    rfl
  rw [← around]
  refine acquires_past aligned ?_
  intro k less
  refine none _ ?_ (aligned.wordAfter k)
  rw [BitVec.le_def, toNat_wordAfter]
  omega

end Rounds

/-- **The scan** ends with the right result exactly when there is a table at or above
`PAGE_OFFSET`, or at address 0. -/
theorem scan_result_iff (memory : Word → Word) (nrClose ksysClose : Word) {pageOffset : Word}
    (aligned : pageOffset.toNat % 8 = 0) :
    (∃ r, Acquires memory nrClose ksysClose pageOffset r ∧
        IsResult memory nrClose ksysClose pageOffset r) ↔
      (∃ a, pageOffset ≤ a ∧ Aligned a ∧ IsTable memory nrClose ksysClose a) ∨
        IsTable memory nrClose ksysClose NULL := by
  constructor
  · rintro ⟨r, acquires, ⟨above, alignedR, table, -⟩ | ⟨-, rfl⟩⟩
    · exact .inl ⟨r, above, alignedR, table⟩
    · exact .inr (acquires.table aligned).2
  · intro some
    by_cases above : ∃ a, pageOffset ≤ a ∧ Aligned a ∧ IsTable memory nrClose ksysClose a
    · obtain ⟨a, above, alignedA, table⟩ := above
      exact acquires_first aligned above alignedA table
    · have atNull := some.resolve_left above
      have none : ∀ a, pageOffset ≤ a → Aligned a → ¬ IsTable memory nrClose ksysClose a :=
        fun a aboveA alignedA table => above ⟨a, aboveA, alignedA, table⟩
      refine ⟨NULL, (acquires_around aligned none).2 ?_, .inr ⟨none, rfl⟩⟩
      exact ends_of_inl (scanRound_table rfl atNull)

/-- A `PAGE_OFFSET` of x86-64, and the table two words above it. -/
theorem scan_result_iff_found :
    ∃ r, Acquires (fun a => if a = 0xffff888000000028 then 1 else 0) 3 1 0xffff888000000000 r ∧
      IsResult (fun a => if a = 0xffff888000000028 then 1 else 0) 3 1 0xffff888000000000 r :=
  (scan_result_iff _ 3 1 (by decide)).2 (.inl ⟨0xffff888000000010, by decide, by decide, by decide⟩)

/-- Where `ksys_close` is nowhere in memory the loop does not end. -/
theorem scan_does_not_end :
    (∀ r, ¬ Acquires (fun _ => 0) 3 1 0xffff888000000000 r) ∧
      ¬ ∃ r, Acquires (fun _ => 0) 3 1 0xffff888000000000 r ∧
        IsResult (fun _ => 0) 3 1 0xffff888000000000 r := by
  have never : ∀ r, ¬ Acquires (fun _ => 0) 3 1 0xffff888000000000 r := by
    intro r acquires
    have table : (0 : Word) = 1 := (acquires.table (by decide)).2
    exact absurd table (by decide)
  exact ⟨never, fun ⟨r, acquires, _⟩ => never r acquires⟩

end Lkmpg.SyscallSteal
