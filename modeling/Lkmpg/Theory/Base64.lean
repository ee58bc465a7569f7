/-
# Lkmpg.Theory.Base64 -- bytes as text of sixty-four characters

Three bytes are four digits of six bits each; what is left behind the last three is
padded.  `decode` reads back what `encode` writes (`decode_encode`), and the text has no
characters but the digits and the padding (`Plain`).
-/
import Mathlib.Tactic.Common

namespace Lkmpg.Theory.Base64

set_option autoImplicit false

/-- The character of a digit below 64: `A` to `Z`, `a` to `z`, `0` to `9`, `+` and `/`. -/
def digit (n : Nat) : UInt8 :=
  if n < 26 then .ofNat (65 + n)
  else if n < 52 then .ofNat (97 + (n - 26))
  else if n < 62 then .ofNat (48 + (n - 52))
  else if n = 62 then 43
  else 47

def value (c : UInt8) : Option Nat :=
  if 65 ≤ c ∧ c ≤ 90 then some (c.toNat - 65)
  else if 97 ≤ c ∧ c ≤ 122 then some (c.toNat - 97 + 26)
  else if 48 ≤ c ∧ c ≤ 57 then some (c.toNat - 48 + 52)
  else if c = 43 then some 62
  else if c = 47 then some 63
  else none

/-- `=` -/
def pad : UInt8 := 61

def encode : List UInt8 → List UInt8
  | [] => []
  | [a] => [digit (a.toNat / 4), digit (a.toNat % 4 * 16), pad, pad]
  | [a, b] =>
      [digit (a.toNat / 4), digit (a.toNat % 4 * 16 + b.toNat / 16), digit (b.toNat % 16 * 4), pad]
  | a :: b :: c :: bs =>
      digit (a.toNat / 4) :: digit (a.toNat % 4 * 16 + b.toNat / 16) ::
        digit (b.toNat % 16 * 4 + c.toNat / 64) :: digit (c.toNat % 64) :: encode bs

/-- The bytes of two, three and four digits. -/
def byte₁ (p q : Nat) : UInt8 := .ofNat (p * 4 + q / 16)

def byte₂ (q r : Nat) : UInt8 := .ofNat (q % 16 * 16 + r / 4)

def byte₃ (r s : Nat) : UInt8 := .ofNat (r % 4 * 64 + s)

/-- `none` when the text is no encoding. -/
def decode : List UInt8 → Option (List UInt8)
  | [] => some []
  | w :: x :: y :: z :: cs => do
      let p ← value w
      let q ← value x
      if y = pad then
        if z = pad ∧ cs = [] then return [byte₁ p q] else none
      else
        let r ← value y
        if z = pad then
          if cs = [] then return [byte₁ p q, byte₂ q r] else none
        else
          let s ← value z
          return byte₁ p q :: byte₂ q r :: byte₃ r s :: (← decode cs)
  | _ => none

/-! ## Digits -/

theorem value_digit {n : Nat} (small : n < 64) : value (digit n) = some n := by
  have all : ∀ n : Fin 64, value (digit n) = some n.1 := by decide
  exact all ⟨n, small⟩

theorem digit_ne_pad {n : Nat} (small : n < 64) : digit n ≠ pad := by
  have all : ∀ n : Fin 64, digit n ≠ pad := by decide
  exact all ⟨n, small⟩

/-- A letter, a digit, `+`, `/` or `=`. -/
def Plain (c : UInt8) : Prop := (value c).isSome ∨ c = pad

instance (c : UInt8) : Decidable (Plain c) := inferInstanceAs (Decidable (_ ∨ _))

theorem plain_digit {n : Nat} (small : n < 64) : Plain (digit n) :=
  .inl (by rw [value_digit small]; rfl)

theorem plain_pad : Plain pad := .inr rfl

section

variable (a b c : UInt8)

theorem first_lt : a.toNat / 4 < 64 := by
  have := a.toNat_lt
  omega

theorem second_lt : a.toNat % 4 * 16 + b.toNat / 16 < 64 := by
  have := b.toNat_lt
  omega

theorem third_lt : b.toNat % 16 * 4 + c.toNat / 64 < 64 := by
  have := c.toNat_lt
  omega

theorem fourth_lt : c.toNat % 64 < 64 := Nat.mod_lt _ (by decide)

theorem byte₁_digits (low : Nat) (small : low < 16) :
    byte₁ (a.toNat / 4) (a.toNat % 4 * 16 + low) = a := by
  have all : a.toNat / 4 * 4 + (a.toNat % 4 * 16 + low) / 16 = a.toNat := by omega
  rw [byte₁, all, UInt8.ofNat_toNat]

theorem byte₂_digits (low : Nat) (small : low < 4) :
    byte₂ (a.toNat % 4 * 16 + b.toNat / 16) (b.toNat % 16 * 4 + low) = b := by
  have := b.toNat_lt
  have all : (a.toNat % 4 * 16 + b.toNat / 16) % 16 * 16 + (b.toNat % 16 * 4 + low) / 4 =
      b.toNat := by omega
  rw [byte₂, all, UInt8.ofNat_toNat]

theorem byte₃_digits : byte₃ (b.toNat % 16 * 4 + c.toNat / 64) (c.toNat % 64) = c := by
  have := c.toNat_lt
  have all : (b.toNat % 16 * 4 + c.toNat / 64) % 4 * 64 + c.toNat % 64 = c.toNat := by omega
  rw [byte₃, all, UInt8.ofNat_toNat]

end

/-! ## The text -/

theorem plain_encode (bs : List UInt8) : ∀ c ∈ encode bs, Plain c := by
  fun_induction encode bs with
  | case1 => simp
  | case2 a =>
      have low : a.toNat % 4 * 16 < 64 := by omega
      simp [plain_digit (first_lt a), plain_digit low, plain_pad]
  | case3 a b =>
      have low : b.toNat % 16 * 4 < 64 := by omega
      simp [plain_digit (first_lt a), plain_digit (second_lt a b), plain_digit low, plain_pad]
  | case4 a b c bs ih =>
      simp only [List.forall_mem_cons]
      exact ⟨plain_digit (first_lt a), plain_digit (second_lt a b), plain_digit (third_lt b c),
        plain_digit (fourth_lt c), ih⟩

/-- **The text is read back.** -/
theorem decode_encode (bs : List UInt8) : decode (encode bs) = some bs := by
  fun_induction encode bs with
  | case1 => rfl
  | case2 a =>
      have low : a.toNat % 4 * 16 < 64 := by omega
      have byte : byte₁ (a.toNat / 4) (a.toNat % 4 * 16) = a := byte₁_digits a 0 (by decide)
      simp [decode, value_digit (first_lt a), value_digit low, byte]
  | case3 a b =>
      have low : b.toNat % 16 * 4 < 64 := by omega
      have lowB : b.toNat / 16 < 16 := by
        have := b.toNat_lt
        omega
      have byte : byte₂ (a.toNat % 4 * 16 + b.toNat / 16) (b.toNat % 16 * 4) = b :=
        byte₂_digits a b 0 (by decide)
      simp [decode, value_digit (first_lt a), value_digit (second_lt a b), value_digit low,
        digit_ne_pad low, byte₁_digits a _ lowB, byte]
  | case4 a b c bs ih =>
      have lowB : b.toNat / 16 < 16 := by
        have := b.toNat_lt
        omega
      have lowC : c.toNat / 64 < 4 := by
        have := c.toNat_lt
        omega
      simp [decode, value_digit (first_lt a), value_digit (second_lt a b),
        value_digit (third_lt b c), value_digit (fourth_lt c), digit_ne_pad (third_lt b c),
        digit_ne_pad (fourth_lt c), byte₁_digits a _ lowB, byte₂_digits a b _ lowC, byte₃_digits, ih]

theorem length_encode (bs : List UInt8) : (encode bs).length = (bs.length + 2) / 3 * 4 := by
  fun_induction encode bs with
  | case1 | case2 | case3 => simp
  | case4 a b c bs ih =>
      simp only [List.length_cons, ih]
      omega

end Lkmpg.Theory.Base64
