/-
# Lkmpg.Theory.Bytes -- ranges of a byte array

`splice l off bs` overwrites the cells of `l` from `off` on with `bs`;
`slice l off n` reads `n` cells from `off` on.  Both are total; the laws say what
they need of the bounds.

* `splice_inside`, `splice_frame`: a range that was written reads back, and no
  other cell changed.
* `splice_append`, `slice_append`: two adjacent ranges are one.  They are why a
  transfer may be cut into pieces anywhere.
-/
import Mathlib.Tactic.Common

namespace Lkmpg.Theory

set_option autoImplicit false

universe u

variable {α : Type u}

def splice (l : List α) (off : Nat) (bs : List α) : List α :=
  l.take off ++ bs ++ l.drop (off + bs.length)

def slice (l : List α) (off n : Nat) : List α :=
  (l.drop off).take n

/-! ## Writing -/

@[simp] theorem length_splice {l bs : List α} {off : Nat} (fits : off + bs.length ≤ l.length) :
    (splice l off bs).length = l.length := by
  simp only [splice, List.length_append, List.length_take, List.length_drop]
  omega

@[simp] theorem splice_nil (l : List α) (off : Nat) : splice l off [] = l := by
  simp [splice]

/-- A cell outside the range keeps its value. -/
theorem splice_frame {l bs : List α} {off i : Nat} (fits : off + bs.length ≤ l.length)
    (outside : i < off ∨ off + bs.length ≤ i) : (splice l off bs)[i]? = l[i]? := by
  have front : (l.take off).length = off := by
    rw [List.length_take]
    omega
  unfold splice
  rcases outside with before | after
  · rw [List.getElem?_append_left (by rw [List.length_append]; omega),
      List.getElem?_append_left (by omega), List.getElem?_take_of_lt before]
  · rw [List.getElem?_append_right (by rw [List.length_append]; omega), List.getElem?_drop]
    congr 1
    rw [List.length_append]
    omega

/-- A cell inside the range has the byte written there. -/
theorem splice_inside {l bs : List α} {off i : Nat} (fits : off + bs.length ≤ l.length)
    (inside : i < bs.length) : (splice l off bs)[off + i]? = bs[i]? := by
  have front : (l.take off).length = off := by
    rw [List.length_take]
    omega
  unfold splice
  rw [List.getElem?_append_left (by rw [List.length_append]; omega),
    List.getElem?_append_right (by omega)]
  congr 1
  omega

/-- Two adjacent writes are one. -/
theorem splice_append {l as bs : List α} {off : Nat}
    (fits : off + as.length + bs.length ≤ l.length) :
    splice (splice l off as) (off + as.length) bs = splice l off (as ++ bs) := by
  have front : (l.take off ++ as).length = off + as.length := by
    rw [List.length_append, List.length_take]
    omega
  have rest : (l.drop (off + as.length)).drop bs.length = l.drop (off + (as ++ bs).length) := by
    rw [List.drop_drop, List.length_append, Nat.add_assoc]
  calc splice (splice l off as) (off + as.length) bs
      = (l.take off ++ as) ++ bs ++ (l.drop (off + as.length)).drop bs.length := by
        simp only [splice]
        rw [← front, List.take_left, List.drop_append]
        simp
    _ = splice l off (as ++ bs) := by
        rw [rest, splice]
        simp only [List.append_assoc]

/-! ## Reading -/

@[simp] theorem slice_zero (l : List α) (off : Nat) : slice l off 0 = [] := by
  simp [slice]

theorem length_slice {l : List α} {off n : Nat} (fits : off + n ≤ l.length) :
    (slice l off n).length = n := by
  simp only [slice, List.length_take, List.length_drop]
  omega

theorem getElem?_slice {l : List α} {off n i : Nat} (inside : i < n) :
    (slice l off n)[i]? = l[off + i]? := by
  rw [slice, List.getElem?_take_of_lt inside, List.getElem?_drop]

/-- A read inside a prefix of the array. -/
theorem slice_take (l : List α) {off n k : Nat} (inside : off + n ≤ k) :
    slice (l.take k) off n = slice l off n := by
  rw [slice, slice, List.drop_take, List.take_take, Nat.min_eq_left (by omega)]

/-- A read one cell longer. -/
theorem slice_succ {l : List α} {off n : Nat} {b : α} (cell : l[off + n]? = some b) :
    slice l off (n + 1) = slice l off n ++ [b] := by
  have next : (l.drop off)[n]? = some b := by rwa [List.getElem?_drop]
  rw [slice, List.take_add_one, next]
  rfl

/-- Two adjacent reads are one. -/
theorem slice_append (l : List α) (off m n : Nat) :
    slice l off m ++ slice l (off + m) n = slice l off (m + n) := by
  simp only [slice]
  rw [List.take_add, List.drop_drop]

end Lkmpg.Theory
