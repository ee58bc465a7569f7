/-
# Lkmpg.Kernel.Library -- the kernel and C library calls the examples make

Error numbers, the atomic compare-and-swap, completions, C strings and the two
conversions `kstrtol` and `%d`, each with the behaviour its documentation states.  A byte
string is a `List UInt8`; read as a C string it ends at its first NUL, or at the
end of the list, where the terminator stands.
-/
import Mathlib.Algebra.Order.Ring.Int
import Mathlib.Tactic.Common

namespace Lkmpg.Kernel

set_option autoImplicit false

/-! ## Error numbers -/

def EINTR : Int := 4
/-- `EIO`, a name that is taken. -/
def eio : Int := 5
def EAGAIN : Int := 11
def ENOMEM : Int := 12
def EFAULT : Int := 14
def EBUSY : Int := 16
def ENODEV : Int := 19
def EINVAL : Int := 22
def ENOTTY : Int := 25
def ERANGE : Int := 34
def ENOBUFS : Int := 105
def ETIMEDOUT : Int := 110

/-! ## Atomic variables -/

/-- `atomic_cmpxchg(v, old, new)`: the value found and the value left. -/
def atomicCmpxchg (v old new : Int) : Int × Int :=
  (v, if v = old then new else v)

/-! ## Completions

A completion is its counter `done`. -/

/-- The value of `done` after `complete_all`, which no wait takes down. -/
def UINT_MAX : Nat := 2 ^ 32 - 1

def complete (done : Nat) : Nat := if done = UINT_MAX then done else done + 1

/-- What `wait_for_completion` leaves, or `none` while it waits. -/
def waitForCompletion (done : Nat) : Option Nat :=
  if done = 0 then none else some (if done = UINT_MAX then done else done - 1)

theorem waited {done left : Nat} (passed : waitForCompletion done = some left) : done ≠ 0 := by
  intro zero
  rw [waitForCompletion, if_pos zero] at passed
  cases passed

/-! ## Machine integers -/

/-- The value an `int` holds after a store of `n`: 32 bits, two's complement. -/
def int32 (n : Int) : Int := n.bmod (2 ^ 32)

theorem int32_of_lt {n : Int} (low : 0 ≤ n) (high : n < 2 ^ 31) : int32 n = n := by
  rw [int32, Int.bmod_def]
  split <;> omega

/-- The value an `unsigned long` holds after a store of `n`: 64 bits. -/
def ulong (n : Nat) : Nat := n % 2 ^ 64

theorem ulong_of_lt {n : Nat} (small : n < 2 ^ 64) : ulong n = n :=
  Nat.mod_eq_of_lt small

/-! ## C strings -/

/-- The bytes of a string literal. -/
def text (s : String) : List UInt8 := s.toList.map fun c => UInt8.ofNat c.toNat

theorem ne_zero_of_all {l : List UInt8} (all : l.all fun b => b ≠ 0) : ∀ b ∈ l, b ≠ 0 := by
  simpa using all

/-- The C string a buffer starts with. -/
def cstr (buf : List UInt8) : List UInt8 := buf.takeWhile (· ≠ 0)

/-- `strncmp(a, b, n)`, its sign as the kernel returns it. -/
def strncmp : List UInt8 → List UInt8 → Nat → Int
  | _, _, 0 => 0
  | a, b, n + 1 =>
      let c₁ := a.headD 0
      let c₂ := b.headD 0
      if c₁ ≠ c₂ then (if c₁ < c₂ then -1 else 1)
      else if c₁ = 0 then 0
      else strncmp a.tail b.tail n

/-! ## Numbers as text -/

/-- The decimal digits of `n`, as `%u` prints them. -/
def decimal (n : Nat) : List UInt8 :=
  (Nat.toDigits 10 n).map fun c => UInt8.ofNat c.toNat

/-- `%d` and `%ld`. -/
def formatInt (n : Int) : List UInt8 :=
  if n < 0 then text "-" ++ decimal n.natAbs else decimal n.natAbs

/-- `%+ld`: the sign is always printed. -/
def formatPlus (n : Int) : List UInt8 :=
  (if n < 0 then text "-" else text "+") ++ decimal n.natAbs

/-- `snprintf(buf, size, ...)` of the text `out`: the bytes stored, and the length the
text has whether it fits or not. -/
def snprintf (size : Nat) (out : List UInt8) : List UInt8 × Int :=
  if 2 ^ 31 ≤ size then ([], 0)
  else (if size = 0 then [] else out.take (size - 1) ++ [0], out.length)

theorem snprintf_length_le (size : Nat) (out : List UInt8) :
    (snprintf size out).1.length ≤ out.length + 1 := by
  unfold snprintf
  split
  · simp
  · dsimp only
    split
    · simp
    · rw [List.length_append, List.length_take, List.length_singleton]
      omega

theorem digit_byte {c : Char} (digit : c.isDigit) :
    48 ≤ (UInt8.ofNat c.toNat).toNat ∧ (UInt8.ofNat c.toNat).toNat ≤ 57 := by
  have bounds : 48 ≤ c.toNat ∧ c.toNat ≤ 57 := by
    simp only [Char.isDigit, Bool.and_eq_true, decide_eq_true_eq] at digit
    exact ⟨digit.1, digit.2⟩
  rw [UInt8.toNat_ofNat']
  omega

theorem decimal_digit {n : Nat} {b : UInt8} (member : b ∈ decimal n) :
    48 ≤ b.toNat ∧ b.toNat ≤ 57 := by
  simp only [decimal, List.mem_map] at member
  obtain ⟨c, digit, rfl⟩ := member
  exact digit_byte (Nat.isDigit_of_mem_toDigits (by omega) (by omega) digit)

theorem decimal_ne_zero {n : Nat} {b : UInt8} (member : b ∈ decimal n) : b ≠ 0 := by
  rintro rfl
  have digit := decimal_digit member
  rw [UInt8.toNat_zero] at digit
  omega

theorem decimal_length_le {n k : Nat} (pos : 0 < k) (small : n < 10 ^ k) :
    (decimal n).length ≤ k := by
  simp only [decimal, List.length_map]
  exact (Nat.length_toDigits_le_iff (by omega) pos).2 small

theorem formatPlus_length_le (n : Int64) : (formatPlus n.toInt).length ≤ 20 := by
  have plus : (text "+").length = 1 := by decide
  have minus : (text "-").length = 1 := by decide
  have low := n.le_toInt
  have high := n.toInt_lt
  have digits : (decimal n.toInt.natAbs).length ≤ 19 := decimal_length_le (by omega) (by omega)
  rw [formatPlus, List.length_append]
  split <;> omega

/-! ## Numbers from text -/

def isDigit (b : UInt8) : Bool := 48 ≤ b && b ≤ 57

/-- The value of a run of decimal digits. -/
def digitsValue (ds : List UInt8) : Nat :=
  ds.foldl (fun v d => 10 * v + (d.toNat - 48)) 0

/-- `_kstrtoull(s, 10, res)`: digits, one optional newline, and the end. -/
def kstrtoull (s : List UInt8) : Except Int Nat :=
  let ds := s.takeWhile isDigit
  let rest := s.drop ds.length
  if 2 ^ 64 ≤ digitsValue ds then .error (-ERANGE)
  else if ds = [] then .error (-EINVAL)
  else if (if rest.head? = some 10 then rest.tail else rest) = [] then .ok (digitsValue ds)
  else .error (-EINVAL)

/-- `kstrtol(s, 10, res)`: one optional sign, and a value that fits in `long`. -/
def kstrtol (buf : List UInt8) : Except Int Int :=
  match cstr buf with
  | 45 :: s =>
      match kstrtoull s with
      | .error e => .error e
      | .ok v => if 2 ^ 63 < v then .error (-ERANGE) else .ok (-(v : Int))
  | s =>
      match kstrtoull (if s.head? = some 43 then s.tail else s) with
      | .error e => .error e
      | .ok v => if 2 ^ 63 ≤ v then .error (-ERANGE) else .ok (v : Int)

example : kstrtol (text "-12\n") = .ok (-12) := by decide
example : kstrtol (text "+-3") = .error (-EINVAL) := by decide

end Lkmpg.Kernel
