/-
# Lkmpg.Blkram.Bounds -- the bound check of blkram_transfer

The check stands in the loop, on a 64-bit sum, one segment at a time.

* `failed_write_data`: when a segment of a write fails the check, the ones before it
  have been written.
* `bound_check_iff`: the check is the one on integers, and keeps every access in the
  device, unless the product wraps to a place where the request fits, or the sum
  wraps at a segment the loop gets to.
-/
import Lkmpg.Blkram.Driver

namespace Lkmpg.Blkram

open Lkmpg.Kernel Lkmpg.Theory

set_option autoImplicit false

/-- The offset `blkram_transfer` computes for the start sector. -/
def startOffset (rq : Request) : Nat := ulong (ulong rq.blkRqPos * BLKRAM_SECTOR_SIZE)

/-! ## A write that fails -/

/-- The loop has written the segments before the one that fails. -/
theorem transferSegments_failed {segments : List BioVec} :
    ∀ {dev dev' : BlkramDev} {off : Nat} {segments' : List BioVec},
      transferSegments .write dev off segments = some (.ioerr, dev', segments') →
      ∃ pre bvec post, segments = pre ++ bvec :: post ∧
        (pre = [] ∨ off + total pre ≤ dev.size) ∧
        dev.size < ulong (off + total pre + bvec.bvLen) ∧
        dev'.data = splice dev.data off (payload pre) := by
  induction segments with
  | nil =>
      intro dev dev' off segments' failed
      cases failed
  | cons bvec rest ih =>
      intro dev dev' off segments' failed
      by_cases fits : off + bvec.bvLen ≤ dev.size
      · obtain ⟨dev₁, size₁, data₁, step⟩ := transferSegments_cons_write fits
        rw [step, Option.map_eq_some_iff] at failed
        obtain ⟨done, later, eq⟩ := failed
        obtain ⟨status, last, segments''⟩ := done
        cases eq
        obtain ⟨pre, stop, post, rfl, within, past, data⟩ := ih later
        have sum : off + bvec.bvLen + total pre = off + total (bvec :: pre) := by
          rw [total_cons, Nat.add_assoc]
        have inside : off + total (bvec :: pre) ≤ dev.size := by
          rcases within with rfl | within
          · simpa using fits
          · rwa [sum, size₁] at within
        rw [sum, size₁] at past
        refine ⟨bvec :: pre, stop, post, rfl, .inr inside, past, ?_⟩
        have bound : off + bvec.iobuf.length + (payload pre).length ≤ dev.data.length := by
          rw [length_payload, dev.data_len]
          rwa [← sum] at inside
        rw [data, data₁, payload_cons, ← splice_append bound]
        rfl
      · rw [transferSegments_past .write (Nat.lt_of_not_le fits)] at failed
        split at failed
        · rename_i past
          cases failed
          exact ⟨[], bvec, rest, rfl, .inl rfl, past, (splice_nil _ _).symm⟩
        · cases failed

/-- **A write that fails.**  The segments before the first one whose end is past the size
have been written, and no other byte has changed. -/
theorem failed_write_data {dev dev' : BlkramDev} {rq : Request} {segments : List BioVec}
    (write : rq.rqDataDir = .write)
    (failed : blkramTransfer dev rq = some (.ioerr, dev', segments)) :
    ∃ pre bvec post, rq.segments = pre ++ bvec :: post ∧
      dev.size < ulong (startOffset rq + total pre + bvec.bvLen) ∧
      (∀ i, i < total pre → dev'.data[startOffset rq + i]? = (payload pre)[i]?) ∧
      ∀ i, i < startOffset rq ∨ startOffset rq + total pre ≤ i → dev'.data[i]? = dev.data[i]? := by
  rw [blkramTransfer, write] at failed
  obtain ⟨pre, bvec, post, split, within, past, data⟩ := transferSegments_failed failed
  refine ⟨pre, bvec, post, split, past, ?_⟩
  rcases within with rfl | within
  · rw [payload_nil, splice_nil] at data
    exact ⟨fun i less => absurd less (Nat.not_lt_zero i), fun i _ => by rw [data]⟩
  · have fits : startOffset rq + (payload pre).length ≤ dev.data.length := by
      rw [length_payload, dev.data_len]
      exact within
    have offset : ulong (ulong rq.blkRqPos * BLKRAM_SECTOR_SIZE) = startOffset rq := rfl
    rw [data, offset]
    constructor
    · intro i inside
      exact splice_inside fits (by rwa [length_payload])
    · intro i outside
      exact splice_frame fits (by rwa [length_payload])

/-- A write of the segments `7` and `8 9` to a device of two bytes. -/
def halfOutside : Request where
  blkRqPos := 0
  rqDataDir := .write
  passthrough := false
  segments := [⟨[7], by decide⟩, ⟨[8, 9], by decide⟩]

/-- The device of two bytes, with the first one written. -/
def halfWritten : BlkramDev := ⟨2, [7, 0], rfl, by decide⟩

theorem failed_write_data_half :
    ∃ pre bvec post, halfOutside.segments = pre ++ bvec :: post ∧
      2 < ulong (startOffset halfOutside + total pre + bvec.bvLen) ∧
      (∀ i, i < total pre →
        halfWritten.data[startOffset halfOutside + i]? = (payload pre)[i]?) ∧
      ∀ i, i < startOffset halfOutside ∨ startOffset halfOutside + total pre ≤ i →
        halfWritten.data[i]? = (vzalloc 2 (by decide)).data[i]? := by
  have failed : blkramTransfer (vzalloc 2 (by decide)) halfOutside =
      some (.ioerr, halfWritten, halfOutside.segments) := by decide
  exact failed_write_data rfl failed

/-- The write fails, and has changed the first byte. -/
theorem failed_write_changes :
    blkramTransfer (vzalloc 2 (by decide)) halfOutside =
        some (.ioerr, halfWritten, halfOutside.segments) ∧
      halfWritten.data ≠ (vzalloc 2 (by decide)).data := by
  decide

/-! ## The check -/

/-- The 64-bit sum wraps at a segment the loop gets to, and its wrapped end passes the
check. -/
def SumWraps (size off : Nat) (segments : List BioVec) : Prop :=
  ∃ pre bvec post, segments = pre ++ bvec :: post ∧ (pre = [] ∨ off + total pre ≤ size) ∧
    2 ^ 64 ≤ off + total pre + bvec.bvLen ∧ off + total pre + bvec.bvLen - 2 ^ 64 ≤ size

theorem sumWraps_nil (size off : Nat) : ¬ SumWraps size off [] := by
  rintro ⟨pre, bvec, post, split, -⟩
  simp at split

/-- Past a segment in the device, the others decide. -/
theorem sumWraps_cons_iff {size off : Nat} {bvec : BioVec} {rest : List BioVec}
    (small : size < 2 ^ 64) (fits : off + bvec.bvLen ≤ size) :
    SumWraps size off (bvec :: rest) ↔ SumWraps size (off + bvec.bvLen) rest := by
  constructor
  · rintro ⟨pre, stop, post, split, within, wraps, passes⟩
    cases pre with
    | nil =>
        cases split
        rw [total_nil] at wraps
        omega
    | cons first pre =>
        obtain ⟨rfl, rfl⟩ := List.cons.inj split
        rw [total_cons, ← Nat.add_assoc] at within wraps passes
        refine ⟨pre, stop, post, rfl, .inr ?_, wraps, passes⟩
        exact within.resolve_left (List.cons_ne_nil _ _)
  · rintro ⟨pre, stop, post, rfl, within, wraps, passes⟩
    have sum : total (bvec :: pre) = bvec.bvLen + total pre := total_cons bvec pre
    simp only [Nat.add_assoc, ← sum] at within wraps passes
    simp only [← Nat.add_assoc] at within wraps passes
    refine ⟨bvec :: pre, stop, post, rfl, .inr ?_, wraps, passes⟩
    rcases within with rfl | within
    · simpa using fits
    · exact within

/-- At a segment whose end is past the device, that segment decides. -/
theorem sumWraps_cons_past_iff {size off : Nat} {bvec : BioVec} {rest : List BioVec}
    (past : size < off + bvec.bvLen) :
    SumWraps size off (bvec :: rest) ↔
      2 ^ 64 ≤ off + bvec.bvLen ∧ off + bvec.bvLen - 2 ^ 64 ≤ size := by
  constructor
  · rintro ⟨pre, stop, post, split, within, wraps, passes⟩
    cases pre with
    | nil =>
        cases split
        exact ⟨wraps, passes⟩
    | cons first pre =>
        obtain ⟨rfl, rfl⟩ := List.cons.inj split
        have inside := within.resolve_left (List.cons_ne_nil _ _)
        rw [total_cons] at inside
        omega
  · rintro ⟨wraps, passes⟩
    exact ⟨[], bvec, rest, rfl, .inl rfl, wraps, passes⟩

/-- Where the sum does not wrap, every access is in the device, and the transfer is one
that fits in it or fails. -/
theorem transferSegments_exact (dir : DataDir) (segments : List BioVec) :
    ∀ (dev : BlkramDev) (off : Nat), off < 2 ^ 64 →
      (SumWraps dev.size off segments → transferSegments dir dev off segments = none) ∧
      (¬ SumWraps dev.size off segments → ∃ status dev' segments',
        transferSegments dir dev off segments = some (status, dev', segments') ∧
          (status = .ok ↔ segments = [] ∨ off + total segments ≤ dev.size)) := by
  induction segments with
  | nil =>
      intro dev off _
      exact ⟨fun wraps => absurd wraps (sumWraps_nil _ _), fun _ => ⟨_, _, _, rfl, by simp⟩⟩
  | cons bvec rest ih =>
      intro dev off word
      have small := dev.size_lt
      have length : bvec.bvLen < 2 ^ 32 := bvec.bvLen_lt
      by_cases fits : off + bvec.bvLen ≤ dev.size
      · obtain ⟨dev₁, bvec₁, size, step⟩ := transferSegments_cons dir fits
        obtain ⟨wraps, decides⟩ := ih dev₁ (off + bvec.bvLen) (by omega)
        rw [size] at wraps decides
        rw [sumWraps_cons_iff small fits, step]
        constructor
        · intro later
          rw [wraps later]
          rfl
        · intro never
          obtain ⟨status, dev', segments', ran, ok⟩ := decides never
          refine ⟨status, dev', bvec₁ :: segments', by rw [ran]; rfl, ?_⟩
          rw [ok, total_cons, ← Nat.add_assoc]
          constructor
          · rintro (rfl | inside)
            · exact .inr (by simpa using fits)
            · exact .inr inside
          · rintro (none | inside)
            · cases none
            · exact .inr inside
      · have past : dev.size < off + bvec.bvLen := Nat.lt_of_not_le fits
        have outside : ¬ (bvec :: rest = [] ∨ off + total (bvec :: rest) ≤ dev.size) := by
          rw [total_cons]
          simp only [reduceCtorEq, false_or, not_le]
          omega
        rw [sumWraps_cons_past_iff past, transferSegments_past dir past, ulong]
        constructor
        · rintro ⟨wraps, passes⟩
          rw [if_neg (by omega)]
        · intro never
          rw [if_pos (by omega)]
          exact ⟨_, _, _, rfl, iff_of_false (by simp) outside⟩

/-- Every access is in the device, and the transfer is done exactly when the request, as
integers, is in it. -/
def Exact (dev : BlkramDev) (rq : Request) : Prop :=
  ∃ status dev' segments, blkramTransfer dev rq = some (status, dev', segments) ∧
    (status = .ok ↔ 512 * rq.blkRqPos + total rq.segments ≤ dev.size)

/-- **The bound check** is exact unless the product wraps to a place where the request
fits, or the sum wraps. -/
theorem bound_check_iff {dev : BlkramDev} {rq : Request} (sector : rq.blkRqPos < 2 ^ 64)
    (nonempty : rq.segments ≠ []) :
    Exact dev rq ↔
      ¬ (2 ^ 64 ≤ 512 * rq.blkRqPos ∧
          512 * rq.blkRqPos % 2 ^ 64 + total rq.segments ≤ dev.size) ∧
        ¬ SumWraps dev.size (512 * rq.blkRqPos % 2 ^ 64) rq.segments := by
  have small := dev.size_lt
  have start : ulong (ulong rq.blkRqPos * BLKRAM_SECTOR_SIZE) = 512 * rq.blkRqPos % 2 ^ 64 := by
    rw [ulong_of_lt sector, BLKRAM_SECTOR_SIZE, Nat.mul_comm]
    rfl
  obtain ⟨wraps, decides⟩ := transferSegments_exact rq.rqDataDir rq.segments dev
    (512 * rq.blkRqPos % 2 ^ 64) (Nat.mod_lt _ (by decide))
  rw [Exact, blkramTransfer, start]
  by_cases sum : SumWraps dev.size (512 * rq.blkRqPos % 2 ^ 64) rq.segments
  · rw [wraps sum]
    constructor
    · rintro ⟨_, _, _, ran, -⟩
      cases ran
    · exact fun never => absurd sum never.2
  · obtain ⟨status, dev', segments, ran, ok⟩ := decides sum
    rw [ran]
    simp only [Option.some.injEq, Prod.mk.injEq, sum, not_false_eq_true, and_true]
    constructor
    · rintro ⟨_, _, _, ⟨rfl, -, -⟩, right⟩ ⟨overflow, fits⟩
      have inside := right.1 (ok.2 (.inr fits))
      omega
    · intro never
      refine ⟨status, dev', segments, ⟨rfl, rfl, rfl⟩, ok.trans ?_⟩
      constructor
      · rintro (none | fits)
        · exact absurd none nonempty
        · by_contra outside
          exact never ⟨by omega, fits⟩
      · intro inside
        right
        rw [Nat.mod_eq_of_lt (by omega)]
        exact inside

/-- A write of the byte `7` at a sector. -/
def oneByteAt (sector : Nat) : Request where
  blkRqPos := sector
  rqDataDir := .write
  passthrough := false
  segments := [⟨[7], by decide⟩]

theorem bound_check_iff_zero : Exact (vzalloc 1 (by decide)) (oneByteAt 0) := by
  refine (bound_check_iff (by decide) (by decide)).2 ⟨by decide, ?_⟩
  rw [show 512 * (oneByteAt 0).blkRqPos % 2 ^ 64 = 0 from rfl]
  exact (sumWraps_cons_iff (by decide) (by decide)).not.2 (sumWraps_nil _ _)

/-- The write at the sector `2^55` is done, on the first byte of a device of one byte. -/
theorem not_exact_2_55 :
    blkramTransfer (vzalloc 1 (by decide)) (oneByteAt (2 ^ 55)) =
        some (.ok, ⟨1, [7], rfl, by decide⟩, (oneByteAt (2 ^ 55)).segments) ∧
      ¬ Exact (vzalloc 1 (by decide)) (oneByteAt (2 ^ 55)) := by
  have ran : blkramTransfer (vzalloc 1 (by decide)) (oneByteAt (2 ^ 55)) =
      some (.ok, ⟨1, [7], rfl, by decide⟩, (oneByteAt (2 ^ 55)).segments) := by
    decide
  refine ⟨ran, ?_⟩
  rintro ⟨status, dev', segments, again, right⟩
  have done := congrArg (Option.map Prod.fst) (ran.symm.trans again)
  simp only [Option.map_some, Option.some.injEq] at done
  exact absurd (right.1 done.symm) (by decide)

end Lkmpg.Blkram
