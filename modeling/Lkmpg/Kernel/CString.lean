/-
# Lkmpg.Kernel.CString -- the C string a buffer starts with

`cstr buf` is the part of a buffer before its first NUL.  In a buffer that has one,
the string is followed by its terminator (`cstr_end`), so a reader that stops there
stays in the buffer.
-/
import Lkmpg.Kernel.Library
import Lkmpg.Theory.Bytes
import Mathlib.Data.List.TakeWhile

namespace Lkmpg.Kernel

open Lkmpg.Theory

set_option autoImplicit false

theorem cstr_eq {buf : List UInt8} (nonzero : ∀ b ∈ buf, b ≠ 0) : cstr buf = buf := by
  rw [cstr, List.takeWhile_eq_self_iff.2 fun b member => by simpa using nonzero b member]

theorem cstr_append {buf rest : List UInt8} (nonzero : ∀ b ∈ buf, b ≠ 0) :
    cstr (buf ++ 0 :: rest) = buf := by
  have all : ∀ b ∈ buf, decide (b ≠ 0) = true := fun b member => by simpa using nonzero b member
  rw [cstr, List.takeWhile_append_of_pos all, List.takeWhile_cons_of_neg (by simp),
    List.append_nil]

theorem cstr_cons {b : UInt8} {buf : List UInt8} (nonzero : b ≠ 0) :
    cstr (b :: buf) = b :: cstr buf := by
  rw [cstr, List.takeWhile_cons_of_pos (by simpa using nonzero)]
  rfl

theorem cstr_ne_zero {buf : List UInt8} : ∀ b ∈ cstr buf, b ≠ 0 := by
  intro b member
  simpa using List.mem_takeWhile_imp member

theorem cstr_append_of_ne_zero {front rest : List UInt8} (nonzero : ∀ b ∈ front, b ≠ 0) :
    cstr (front ++ rest) = front ++ cstr rest := by
  have all : ∀ b ∈ front, decide (b ≠ 0) = true := fun b member => by simpa using nonzero b member
  rw [cstr, List.takeWhile_append_of_pos all]
  rfl

/-- The cells of the string. -/
theorem getElem?_cstr {buf : List UInt8} {i : Nat} (inside : i < (cstr buf).length) :
    buf[i]? = (cstr buf)[i]? := by
  have split : buf = cstr buf ++ buf.dropWhile (· ≠ 0) :=
    (List.takeWhile_append_dropWhile (p := fun b : UInt8 => decide (b ≠ 0))).symm
  conv_lhs => rw [split]
  rw [List.getElem?_append_left inside]

/-- The cell after the string. -/
theorem cstr_end {buf : List UInt8} (terminated : (0 : UInt8) ∈ buf) :
    buf[(cstr buf).length]? = some 0 := by
  induction buf with
  | nil => cases terminated
  | cons b buf ih =>
      by_cases zero : b = 0
      · subst zero
        rfl
      · have rest : (0 : UInt8) ∈ buf := by
          rcases List.mem_cons.1 terminated with same | rest
          · exact absurd same.symm zero
          · exact rest
        rw [cstr_cons zero, List.length_cons, List.getElem?_cons_succ]
        exact ih rest

/-- The string is empty when the first cell is a NUL. -/
theorem cstr_eq_nil_iff {buf : List UInt8} (terminated : (0 : UInt8) ∈ buf) :
    cstr buf = [] ↔ buf[0]? = some 0 := by
  constructor
  · intro empty
    have stop := cstr_end terminated
    rwa [empty] at stop
  · intro stop
    obtain ⟨rest, rfl⟩ : ∃ rest, buf = 0 :: rest := by
      cases buf with
      | nil => cases stop
      | cons b rest =>
          cases stop
          exact ⟨rest, rfl⟩
    rfl

/-- A string stored with its terminator leaves the last cell a NUL. -/
theorem splice_last {msg str : List UInt8} {N : Nat} (length : msg.length = N + 1)
    (last : msg[N]? = some 0) (fits : str.length ≤ N) :
    (splice msg 0 (str ++ [0]))[N]? = some 0 := by
  have room : 0 + (str ++ [0]).length ≤ msg.length := by
    rw [length, List.length_append, List.length_singleton]
    omega
  rcases Nat.lt_or_eq_of_le fits with short | rfl
  · rw [splice_frame room (.inr (by rw [List.length_append, List.length_singleton]; omega)), last]
  · have inside := splice_inside room (i := str.length) (by simp)
    rw [Nat.zero_add] at inside
    rw [inside, List.getElem?_append_right (Nat.le_refl _), Nat.sub_self]
    rfl

/-! ## Comparing -/

theorem strncmp_sign_ne_zero {p : Prop} [Decidable p] : (if p then (-1 : Int) else 1) ≠ 0 := by
  split <;> decide

/-- `strncmp(a, b, strlen(b))` tells whether `a` starts with `b`. -/
theorem strncmp_eq_zero_iff {b : List UInt8} (nonzero : ∀ c ∈ b, c ≠ 0) (a : List UInt8) :
    strncmp a b b.length = 0 ↔ b <+: a := by
  induction b generalizing a with
  | nil => simp [strncmp]
  | cons c b ih =>
      have c_ne : c ≠ 0 := nonzero c List.mem_cons_self
      have rest := ih fun d member => nonzero d (List.mem_cons_of_mem c member)
      rw [List.length_cons, strncmp]
      cases a with
      | nil =>
          have differ : (0 : UInt8) ≠ c := c_ne.symm
          simp only [List.headD_nil, List.headD_cons, ne_eq, differ, not_false_eq_true, if_true]
          exact iff_of_false strncmp_sign_ne_zero (by simp)
      | cons d a =>
          simp only [List.headD_cons, List.tail_cons]
          by_cases same : d = c
          · subst same
            simp [c_ne, rest, List.cons_prefix_cons]
          · have differ : c ≠ d := Ne.symm same
            simp only [ne_eq, same, not_false_eq_true, if_true]
            exact iff_of_false strncmp_sign_ne_zero (by simp [List.cons_prefix_cons, differ])

end Lkmpg.Kernel
