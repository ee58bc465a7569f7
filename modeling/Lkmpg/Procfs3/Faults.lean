/-
# Lkmpg.Procfs3.Faults -- what a failed write to /proc/buffer2k leaves

`procfs_write` stores the new size before it copies, and copies into the buffer that
readers get.  So a write that fails leaves its own size, the bytes it reached and
zeros (`procfsWrite_stored`), and readers see the difference unless there is none
(`procfs_failed_write_iff`).
-/
import Lkmpg.Procfs3.Driver

namespace Lkmpg.Procfs3

open Lkmpg.Kernel Lkmpg.Theory

set_option autoImplicit false

/-- The reads of a file from the offset on: what each returns, and what it delivers. -/
def readsFrom : (s : Store) → (offset : Nat) → List Nat → List (Int × List UInt8)
  | _, _, [] => []
  | s, offset, length :: lengths =>
      let done := procfsRead s length offset length
      (done.ret, done.bytes) :: readsFrom done.store done.offset lengths

/-- A reader that opens the file and reads with buffers of at least 2048 bytes gets from
`t` what it would get from `s`. -/
def SameReads (s t : Store) : Prop :=
  ∀ lengths : List Nat, (∀ length ∈ lengths, PROCFS_MAX_SIZE ≤ length) →
    readsFrom t 0 lengths = readsFrom s 0 lengths

theorem procfsRead_first_long {s : Store} {length : Nat} (long : PROCFS_MAX_SIZE ≤ length)
    (nonempty : s.size ≠ 0) :
    procfsRead s length 0 length = ⟨s, s.size, s.size, s.content⟩ := by
  have whole : s.shrink length = s :=
    (s.shrink_eq_iff length).2 (Nat.le_trans s.size_le long)
  rw [procfsRead_first nonempty (Nat.le_refl _), whole]

/-- Long reads deliver the content, and nothing else of the store. -/
theorem readsFrom_congr {s t : Store} (same : t.content = s.content) (lengths : List Nat)
    (long : ∀ length ∈ lengths, PROCFS_MAX_SIZE ≤ length) :
    ∀ offset, readsFrom t offset lengths = readsFrom s offset lengths := by
  have sizes : t.size = s.size := by rw [← t.length_content, same, s.length_content]
  induction lengths with
  | nil => exact fun _ => rfl
  | cons length lengths ih =>
      intro offset
      obtain ⟨here, later⟩ := List.forall_mem_cons.1 long
      rw [readsFrom, readsFrom]
      by_cases stop : offset ≠ 0 ∨ s.size = 0
      · rw [procfsRead_end stop, procfsRead_end (by rwa [sizes])]
        simp only [ih later]
      · rw [not_or, not_not] at stop
        obtain ⟨rfl, nonempty⟩ := stop
        rw [procfsRead_first_long here nonempty, procfsRead_first_long here (by rwa [sizes])]
        simp only [sizes, same, ih later]

theorem sameReads_iff {s t : Store} : SameReads s t ↔ t.content = s.content := by
  -- The first read shows the content.
  have first : ∀ x : Store, (readsFrom x 0 [PROCFS_MAX_SIZE]).map Prod.snd = [x.content] := by
    intro x
    rw [readsFrom]
    by_cases empty : x.size = 0
    · rw [procfsRead_end (.inr empty), Store.content, empty, List.take_zero]
      rfl
    · rw [procfsRead_first_long (Nat.le_refl _) empty]
      rfl
  constructor
  · intro same
    have seen := congrArg (List.map Prod.snd) (same [PROCFS_MAX_SIZE] (by simp))
    rw [first, first] at seen
    exact List.singleton_inj.1 seen
  · exact fun same lengths long => readsFrom_congr same lengths long 0

/-- The content, and then nothing. -/
theorem readsFrom_twice {s : Store} (nonempty : s.size ≠ 0) :
    readsFrom s 0 [PROCFS_MAX_SIZE, PROCFS_MAX_SIZE] = [((s.size : Int), s.content), (0, [])] := by
  rw [readsFrom, procfsRead_first_long (Nat.le_refl _) nonempty, readsFrom,
    procfsRead_end (.inl nonempty), readsFrom]

/-- What a write leaves, whether it fails or not. -/
theorem procfsWrite_stored (s : Store) (buffer : List UInt8) (offset reach : Nat) :
    (procfsWrite s buffer offset reach).store.content =
      copied (buffer.take PROCFS_MAX_SIZE) reach := by
  have stored : (procfsWrite s buffer offset reach).store.content =
      (splice s.buffer 0 (copied (buffer.take PROCFS_MAX_SIZE) reach)).take
        (buffer.take PROCFS_MAX_SIZE).length := by
    rw [procfsWrite]
    split <;> rfl
  rw [stored, splice, List.take_zero, List.nil_append]
  exact List.take_left' (length_copied _ _)

/-- A write that returns `-EFAULT` has not reached all its bytes. -/
theorem reach_lt_of_failed {s : Store} {buffer : List UInt8} {offset reach : Nat}
    (failed : (procfsWrite s buffer offset reach).ret = -EFAULT) :
    reach < (buffer.take PROCFS_MAX_SIZE).length := by
  rw [procfsWrite] at failed
  split at failed
  · rename_i missed
    exact Nat.lt_of_sub_ne_zero missed
  · simp only [EFAULT] at failed
    omega

/-- **A failed write is invisible** exactly when the old content has as many bytes as the
write was to store, the ones it reached among them, and zeros after these. -/
theorem procfs_failed_write_iff {s : Store} {buffer : List UInt8} {offset reach : Nat}
    (failed : (procfsWrite s buffer offset reach).ret = -EFAULT) :
    SameReads s (procfsWrite s buffer offset reach).store ↔
      s.size = min PROCFS_MAX_SIZE buffer.length ∧
        s.content.take reach = buffer.take reach ∧ ∀ b ∈ s.content.drop reach, b = 0 := by
  have partly := reach_lt_of_failed failed
  have inside : reach ≤ PROCFS_MAX_SIZE := by
    rw [List.length_take] at partly
    omega
  rw [sameReads_iff, procfsWrite_stored, copied_eq_iff (Nat.le_of_lt partly), s.length_content,
    List.length_take, List.take_take, Nat.min_eq_left inside]

/-- The store after a write of `bytes` to the new file. -/
def written (bytes : List UInt8) : Store := (procfsWrite Store.init bytes 0 bytes.length).store

/-- A write of `79` that stops after the `7` leaves `7` and a NUL as they were. -/
theorem procfs_failed_write_iff_seven :
    SameReads (written [55, 0]) (procfsWrite (written [55, 0]) [55, 57] 0 1).store := by
  have content : (written [55, 0]).content = [55, 0] := procfsWrite_content (Nat.le_refl _)
  refine (procfs_failed_write_iff rfl).2 ⟨rfl, ?_, ?_⟩
  · rw [content]
    rfl
  · rw [content]
    simp

/-- With `old` stored, a write of one inaccessible byte leaves one NUL to be read. -/
theorem procfs_failed_write_seen :
    (procfsWrite (written (text "old")) [55] 0 0).ret = -EFAULT ∧
      readsFrom (written (text "old")) 0 [PROCFS_MAX_SIZE, PROCFS_MAX_SIZE] =
        [(3, text "old"), (0, [])] ∧
      readsFrom (procfsWrite (written (text "old")) [55] 0 0).store 0
        [PROCFS_MAX_SIZE, PROCFS_MAX_SIZE] = [(1, [0]), (0, [])] ∧
      ¬ SameReads (written (text "old")) (procfsWrite (written (text "old")) [55] 0 0).store := by
  have before : (written (text "old")).content = text "old" := procfsWrite_content (Nat.le_refl _)
  have after : (procfsWrite (written (text "old")) [55] 0 0).store.content = [0] :=
    procfsWrite_stored _ _ _ _
  refine ⟨rfl, ?_, ?_, ?_⟩
  · rw [readsFrom_twice (by decide), before]
    rfl
  · rw [readsFrom_twice (by decide), after]
    rfl
  · rw [sameReads_iff, before, after]
    decide

end Lkmpg.Procfs3
