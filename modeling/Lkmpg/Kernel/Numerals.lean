/-
# Lkmpg.Kernel.Numerals -- the numbers kstrtol takes and the formats print

A `Numeral` is the text of a number by its parts: a sign that may be missing, at
least one digit, and a newline that may be missing.

* `kstrtol_ok_iff`: `kstrtol` succeeds on the numerals whose value fits in `long`,
  with that value, and on nothing else.
* `Numeral.unsigned`, `Numeral.signed`: what `%u` and `%+ld` print is a numeral of
  the number printed, with a newline after it or without.
-/
import Lkmpg.Kernel.CString

namespace Lkmpg.Kernel

set_option autoImplicit false

/-! ## Numerals -/

inductive Sign where
  | none
  | plus
  | minus
  deriving DecidableEq

def Sign.bytes : Sign → List UInt8
  | .none => []
  | .plus => [43]
  | .minus => [45]

def Sign.apply : Sign → Nat → Int
  | .none, n => n
  | .plus, n => n
  | .minus, n => -n

structure Numeral where
  sign : Sign
  digits : List UInt8
  newline : Bool
  digits_ne : digits ≠ []
  all_digits : ∀ b ∈ digits, isDigit b = true

/-- The value of a `long`. -/
def Long (k : Int) : Prop := -2 ^ 63 ≤ k ∧ k < 2 ^ 63

theorem long_toInt (k : Int64) : Long k.toInt := ⟨k.le_toInt, k.toInt_lt⟩

namespace Numeral

def ending (newline : Bool) : List UInt8 := if newline then [10] else []

def bytes (n : Numeral) : List UInt8 := n.sign.bytes ++ (n.digits ++ ending n.newline)

def value (n : Numeral) : Int := n.sign.apply (digitsValue n.digits)

/-- A digit is no sign, no newline and no terminator. -/
theorem digit_ne {b : UInt8} (digit : isDigit b = true) : b ≠ 0 ∧ b ≠ 43 ∧ b ≠ 45 := by
  refine ⟨?_, ?_, ?_⟩ <;> rintro rfl <;> revert digit <;> decide

theorem bytes_ne_zero (n : Numeral) : ∀ b ∈ n.bytes, b ≠ 0 := by
  intro b member
  simp only [bytes, List.mem_append] at member
  rcases member with inSign | inDigits | inEnding
  · rintro rfl
    cases sign : n.sign <;> rw [sign] at inSign <;> simp [Sign.bytes] at inSign
  · exact (digit_ne (n.all_digits b inDigits)).1
  · rintro rfl
    simp only [ending] at inEnding
    split at inEnding <;> simp at inEnding

end Numeral

/-! ## kstrtol -/

/-- A check that fails with an error has been passed. -/
theorem ok_unless {p : Prop} [Decidable p] {α : Type} {err : Int} {rest : Except Int α} {a : α} :
    (if p then .error err else rest) = .ok a ↔ ¬ p ∧ rest = .ok a := by
  by_cases failed : p
  · simp [failed]
  · simp [failed]

theorem takeWhile_digits {ds : List UInt8} (digits : ∀ b ∈ ds, isDigit b = true)
    (newline : Bool) : (ds ++ Numeral.ending newline).takeWhile isDigit = ds := by
  have stop : (Numeral.ending newline).takeWhile isDigit = [] := by
    cases newline <;> decide
  rw [List.takeWhile_append_of_pos digits, stop, List.append_nil]

theorem kstrtoull_ok_iff {s : List UInt8} {v : Nat} :
    kstrtoull s = .ok v ↔
      ∃ ds newline, ds ≠ [] ∧ (∀ b ∈ ds, isDigit b = true) ∧ s = ds ++ Numeral.ending newline ∧
        digitsValue ds = v ∧ v < 2 ^ 64 := by
  constructor
  · intro parsed
    have split : s = s.takeWhile isDigit ++ s.drop (s.takeWhile isDigit).length := by
      conv_lhs => rw [← List.takeWhile_append_dropWhile (p := isDigit) (l := s)]
      congr 1
      conv_rhs =>
        arg 2
        rw [← List.takeWhile_append_dropWhile (p := isDigit) (l := s)]
      rw [List.drop_left]
    have digits : ∀ b ∈ s.takeWhile isDigit, isDigit b = true := fun b => List.mem_takeWhile_imp
    simp only [kstrtoull, ok_unless] at parsed
    generalize s.takeWhile isDigit = ds at split digits parsed
    generalize s.drop ds.length = rest at split parsed
    obtain ⟨small, nonempty, ended⟩ := parsed
    by_cases stop : (if rest.head? = some 10 then rest.tail else rest) = []
    · rw [if_pos stop] at ended
      cases ended
      by_cases newline : rest.head? = some 10
      · rw [if_pos newline] at stop
        obtain ⟨tail, rfl⟩ := List.head?_eq_some_iff.1 newline
        rw [List.tail_cons] at stop
        refine ⟨ds, true, nonempty, digits, ?_, rfl, by omega⟩
        rw [split, stop]
        rfl
      · rw [if_neg newline] at stop
        refine ⟨ds, false, nonempty, digits, ?_, rfl, by omega⟩
        rw [split, stop]
        rfl
    · rw [if_neg stop] at ended
      cases ended
  · rintro ⟨ds, newline, nonempty, digits, rfl, rfl, small⟩
    have rest : (if (Numeral.ending newline).head? = some 10 then (Numeral.ending newline).tail
        else Numeral.ending newline) = [] := by
      cases newline <;> decide
    simp only [kstrtoull, takeWhile_digits digits, List.drop_left, rest, if_true]
    rw [if_neg (by omega), if_neg nonempty]

section Signs

variable {buf s : List UInt8} {k : Int}

theorem kstrtol_minus (minus : cstr buf = 45 :: s) :
    kstrtol buf = .ok k ↔ ∃ v, kstrtoull s = .ok v ∧ v ≤ 2 ^ 63 ∧ k = -(v : Int) := by
  unfold kstrtol
  simp only [minus]
  generalize kstrtoull s = magnitude
  cases magnitude with
  | error e => simp
  | ok v =>
      rw [ok_unless, Nat.not_lt]
      simp only [Except.ok.injEq, exists_eq_left', eq_comm]

theorem kstrtol_plain (plain : (cstr buf).head? ≠ some 45) :
    kstrtol buf = .ok k ↔
      ∃ v, kstrtoull (if (cstr buf).head? = some 43 then (cstr buf).tail else cstr buf) = .ok v ∧
        v < 2 ^ 63 ∧ k = v := by
  unfold kstrtol
  split
  · rename_i rest minus
    rw [minus] at plain
    exact absurd rfl plain
  · generalize kstrtoull _ = magnitude
    cases magnitude with
    | error e => simp
    | ok v =>
        rw [ok_unless, Nat.not_le]
        simp only [Except.ok.injEq, exists_eq_left', eq_comm]

/-- **What `kstrtol` accepts.** -/
theorem kstrtol_ok_iff :
    kstrtol buf = .ok k ↔ ∃ n : Numeral, cstr buf = n.bytes ∧ n.value = k ∧ Long k := by
  constructor
  · intro parsed
    by_cases minus : (cstr buf).head? = some 45
    · obtain ⟨rest, split⟩ := List.head?_eq_some_iff.1 minus
      obtain ⟨v, magnitude, small, rfl⟩ := (kstrtol_minus split).1 parsed
      obtain ⟨ds, newline, nonempty, digits, rfl, rfl, -⟩ := kstrtoull_ok_iff.1 magnitude
      refine ⟨⟨.minus, ds, newline, nonempty, digits⟩, split, rfl, ?_⟩
      constructor <;> omega
    · obtain ⟨v, magnitude, small, rfl⟩ := (kstrtol_plain minus).1 parsed
      obtain ⟨ds, newline, nonempty, digits, eq, rfl, -⟩ := kstrtoull_ok_iff.1 magnitude
      have long : Long (digitsValue ds) := by constructor <;> omega
      split at eq
      · rename_i plus
        obtain ⟨rest, split⟩ := List.head?_eq_some_iff.1 plus
        rw [split, List.tail_cons] at eq
        refine ⟨⟨.plus, ds, newline, nonempty, digits⟩, ?_, rfl, long⟩
        rw [split, eq]
        rfl
      · exact ⟨⟨.none, ds, newline, nonempty, digits⟩, eq, rfl, long⟩
  · rintro ⟨⟨sign, ds, newline, nonempty, digits⟩, eq, rfl, low, high⟩
    have magnitude (small : digitsValue ds < 2 ^ 64) :
        kstrtoull (ds ++ Numeral.ending newline) = .ok (digitsValue ds) :=
      kstrtoull_ok_iff.2 ⟨ds, newline, nonempty, digits, rfl, rfl, small⟩
    cases sign with
    | none =>
        obtain ⟨b, rest, rfl⟩ := List.exists_cons_of_ne_nil nonempty
        obtain ⟨-, notPlus, notMinus⟩ := Numeral.digit_ne (digits b List.mem_cons_self)
        have head : (cstr buf).head? = some b := by rw [eq]; rfl
        have small : digitsValue (b :: rest) < 2 ^ 63 := by
          simp only [Numeral.value, Sign.apply] at high
          omega
        rw [kstrtol_plain (by simpa [head] using notMinus), head,
          if_neg (by simpa using notPlus), eq]
        exact ⟨_, magnitude (by omega), small, rfl⟩
    | plus =>
        have head : (cstr buf).head? = some 43 := by rw [eq]; rfl
        have small : digitsValue ds < 2 ^ 63 := by
          simp only [Numeral.value, Sign.apply] at high
          omega
        rw [kstrtol_plain (by simp [head]), head, if_pos rfl, eq]
        exact ⟨_, magnitude (by omega), small, rfl⟩
    | minus =>
        have small : digitsValue ds ≤ 2 ^ 63 := by
          simp only [Numeral.value, Sign.apply] at low
          omega
        rw [kstrtol_minus eq]
        exact ⟨_, magnitude (by omega), small, rfl⟩

end Signs

/-- The text of a number that fits in `long`. -/
def IsNumeral (s : List UInt8) : Prop := ∃ n : Numeral, s = n.bytes ∧ Long n.value

theorem isNumeral_iff {s : List UInt8} :
    IsNumeral s ↔ (∀ b ∈ s, b ≠ 0) ∧ ∃ k, kstrtol s = .ok k := by
  constructor
  · rintro ⟨n, rfl, long⟩
    exact ⟨n.bytes_ne_zero, n.value, kstrtol_ok_iff.2 ⟨n, cstr_eq n.bytes_ne_zero, rfl, long⟩⟩
  · rintro ⟨nonzero, k, parsed⟩
    obtain ⟨n, eq, rfl, long⟩ := kstrtol_ok_iff.1 parsed
    rw [cstr_eq nonzero] at eq
    exact ⟨n, eq, long⟩

/-! ## The formats -/

theorem digit_value {c : Char} (digit : c.isDigit) :
    (UInt8.ofNat c.toNat).toNat - 48 = c.toNat - '0'.toNat := by
  have bounds : 48 ≤ c.toNat ∧ c.toNat ≤ 57 := by
    simp only [Char.isDigit, Bool.and_eq_true, decide_eq_true_eq] at digit
    exact ⟨digit.1, digit.2⟩
  have zero : '0'.toNat = 48 := by decide
  rw [UInt8.toNat_ofNat', zero]
  omega

theorem digitsValue_decimal (n : Nat) : digitsValue (decimal n) = n := by
  have digits : ∀ (cs : List Char) (v : Nat), (∀ c ∈ cs, c.isDigit = true) →
      (cs.map fun c => UInt8.ofNat c.toNat).foldl (fun v d => 10 * v + (d.toNat - 48)) v =
        Nat.ofDigitChars 10 cs v := by
    intro cs
    induction cs with
    | nil =>
        intro v _
        rfl
    | cons c cs ih =>
        intro v all
        rw [List.map_cons, List.foldl_cons, digit_value (all c List.mem_cons_self),
          ih _ fun d member => all d (List.mem_cons_of_mem c member)]
        rfl
  rw [digitsValue, decimal, digits _ 0 fun c member =>
    Nat.isDigit_of_mem_toDigits (by omega) (by omega) member]
  exact Nat.ofDigitChars_ten_toDigits

theorem decimal_ne_nil (n : Nat) : decimal n ≠ [] := by
  simp [decimal, Nat.toDigits_ne_nil]

theorem decimal_digits (n : Nat) : ∀ b ∈ decimal n, isDigit b = true := by
  intro b member
  have bounds := decimal_digit member
  simpa [isDigit, UInt8.le_iff_toNat_le] using bounds

/-- `%u` and a newline, or none. -/
def Numeral.unsigned (n : Nat) (newline : Bool) : Numeral :=
  ⟨.none, decimal n, newline, decimal_ne_nil n, decimal_digits n⟩

theorem Numeral.unsigned_value (n : Nat) (newline : Bool) : (unsigned n newline).value = n := by
  rw [value, unsigned, Sign.apply, digitsValue_decimal]

/-- `%+ld` and a newline, or none. -/
def Numeral.signed (k : Int) (newline : Bool) : Numeral :=
  ⟨if k < 0 then .minus else .plus, decimal k.natAbs, newline, decimal_ne_nil _, decimal_digits _⟩

theorem Numeral.signed_bytes (k : Int) (newline : Bool) :
    (signed k newline).bytes = formatPlus k ++ ending newline := by
  have plus : text "+" = [43] := by decide
  have minus : text "-" = [45] := by decide
  simp only [bytes, signed, formatPlus, plus, minus, List.append_assoc]
  split <;> rfl

theorem kstrtol_decimal {n : Nat} (fits : n < 2 ^ 63) (newline : Bool) :
    kstrtol (decimal n ++ Numeral.ending newline) = .ok (n : Int) := by
  refine kstrtol_ok_iff.2 ⟨.unsigned n newline, ?_, Numeral.unsigned_value n newline, ?_⟩
  · exact cstr_eq (Numeral.unsigned n newline).bytes_ne_zero
  · constructor <;> omega

theorem Numeral.signed_value (k : Int) (newline : Bool) : (signed k newline).value = k := by
  simp only [value, signed, digitsValue_decimal]
  split <;> simp only [Sign.apply] <;> omega

end Lkmpg.Kernel
