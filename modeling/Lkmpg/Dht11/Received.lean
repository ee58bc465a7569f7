/-
# Lkmpg.Dht11.Received -- the lines dht11_read_data gets five bytes from

`EndsAt` and `Carries` say what the line itself has to do: each level that is waited
for ends in time, and 50 us after each rise the line has the level of the bit.
`receive_ok_iff` is the exact meeting of that and the receiver, and `Readable` are the
lines an attempt succeeds on (`dht11ReadData_ret_iff`).
-/
import Lkmpg.Dht11.Decode
import Mathlib.Data.Nat.Find

namespace Lkmpg.Dht11

open Lkmpg.Kernel Lkmpg.Theory

set_option autoImplicit false

/-! ## Edges -/

/-- The level goes on from `t` to `t'`, where it has ended, for at most 300 us. -/
def EndsAt (line : Line) (level : Bool) (t t' : Nat) : Prop :=
  ∃ n, t' = t + n ∧ n ≤ 300 ∧ (∀ i, i < n → line (t + i) = level) ∧ line (t + n) ≠ level

/-- From `t` to `t'` each bit is a rest of the high level, a low one, and the level of the
bit 50 us after the rise. -/
def Carries (line : Line) : (t : Nat) → List Bool → (t' : Nat) → Prop
  | t, [], t' => t = t'
  | t, bit :: bits, t' =>
      ∃ fall rise, EndsAt line true t fall ∧ EndsAt line false fall rise ∧
        line (rise + 50) = bit ∧ Carries line (rise + 50) bits t'

section Edges

variable {line : Line}

theorem carries_append {bits others : List Bool} : ∀ {t t' : Nat},
    Carries line t (bits ++ others) t' ↔
      ∃ between, Carries line t bits between ∧ Carries line between others t' := by
  induction bits with
  | nil =>
      intro t t'
      constructor
      · exact fun carries => ⟨t, rfl, carries⟩
      · rintro ⟨between, rfl, carries⟩
        exact carries
  | cons bit bits ih =>
      intro t t'
      rw [List.cons_append]
      constructor
      · rintro ⟨fall, rise, high, low, sample, carries⟩
        obtain ⟨between, first, second⟩ := ih.1 carries
        exact ⟨between, ⟨fall, rise, high, low, sample, first⟩, second⟩
      · rintro ⟨between, ⟨fall, rise, high, low, sample, first⟩, second⟩
        exact ⟨fall, rise, high, low, sample, ih.2 ⟨between, first, second⟩⟩

/-- The wait returns when the level has ended. -/
theorem await_ok_iff {level : Bool} {t t' : Nat} :
    await line level t = .ok t' ↔ EndsAt line level t t' := by
  constructor
  · intro returned
    have ended : ∃ n, n ≤ 300 ∧ line (t + n) ≠ level := by
      by_contra never
      have same : ∀ i, i ≤ 300 → line (t + i) = level := by
        intro i within
        by_contra differs
        exact never ⟨i, within, differs⟩
      rw [await_error_iff.2 ⟨rfl, same⟩] at returned
      cases returned
    -- The first poll that sees another level.
    obtain ⟨within, differs⟩ := Nat.find_spec ended
    have same : ∀ i, i < Nat.find ended → line (t + i) = level := by
      intro i before
      by_contra early
      exact Nat.find_min ended before ⟨by omega, early⟩
    rw [await_ends within same differs] at returned
    cases returned
    exact ⟨_, rfl, within, same, differs⟩
  · rintro ⟨n, rfl, inTime, same, ended⟩
    exact await_ends inTime same ended

/-! ## Receiving -/

theorem bind_ok_iff {ε α β : Type} {first : Except ε α} {next : α → Except ε β} {b : β} :
    (first >>= next) = .ok b ↔ ∃ a, first = .ok a ∧ next a = .ok b := by
  constructor
  · intro done
    cases found : first with
    | error e =>
        rw [found] at done
        cases done
    | ok a =>
        rw [found] at done
        exact ⟨a, rfl, done⟩
  · rintro ⟨a, rfl, done⟩
    exact done

theorem readBit_ok_iff {byte b : UInt8} {t t' : Nat} :
    readBit line byte t = .ok (b, t') ↔
      ∃ fall rise, EndsAt line true t fall ∧ EndsAt line false fall rise ∧
        shiftIn byte (line (rise + 50)) = b ∧ rise + 50 = t' := by
  rw [readBit]
  constructor
  · intro read
    obtain ⟨fall, first, read⟩ := bind_ok_iff.1 read
    obtain ⟨rise, second, read⟩ := bind_ok_iff.1 read
    cases read
    exact ⟨fall, rise, await_ok_iff.1 first, await_ok_iff.1 second, rfl, rfl⟩
  · rintro ⟨fall, rise, high, low, rfl, rfl⟩
    exact bind_ok_iff.2 ⟨fall, await_ok_iff.2 high, bind_ok_iff.2 ⟨rise, await_ok_iff.2 low, rfl⟩⟩

theorem readBits_ok_iff {n : Nat} : ∀ {byte b : UInt8} {t t' : Nat},
    readBits line n byte t = .ok (b, t') ↔
      ∃ bits : List Bool, bits.length = n ∧ bits.foldl shiftIn byte = b ∧
        Carries line t bits t' := by
  induction n with
  | zero =>
      intro byte b t t'
      constructor
      · intro read
        cases read
        exact ⟨[], rfl, rfl, rfl⟩
      · rintro ⟨bits, none, rfl, carries⟩
        cases List.length_eq_zero_iff.1 none
        cases carries
        rfl
  | succ n ih =>
      intro byte b t t'
      rw [readBits]
      constructor
      · intro read
        obtain ⟨⟨byte', next⟩, first, read⟩ := bind_ok_iff.1 read
        obtain ⟨fall, rise, high, low, rfl, rfl⟩ := readBit_ok_iff.1 first
        obtain ⟨bits, rfl, rfl, carries⟩ := ih.1 read
        exact ⟨line (rise + 50) :: bits, rfl, rfl, fall, rise, high, low, rfl, carries⟩
      · rintro ⟨_ | ⟨bit, bits⟩, length, rfl, carries⟩
        · cases length
        · obtain ⟨fall, rise, high, low, rfl, carries⟩ := carries
          have first : readBit line byte t = .ok (shiftIn byte (line (rise + 50)), rise + 50) :=
            readBit_ok_iff.2 ⟨fall, rise, high, low, rfl, rfl⟩
          exact bind_ok_iff.2 ⟨_, first, ih.2 ⟨bits, Nat.succ.inj length, rfl, carries⟩⟩

/-- Eight bits are the ones of the byte they make. -/
theorem byteBits_foldl {bits : List Bool} (eight : bits.length = 8) :
    byteBits (bits.foldl shiftIn 0) = bits := by
  obtain ⟨b₇, b₆, b₅, b₄, b₃, b₂, b₁, b₀, rfl⟩ : ∃ b₇ b₆ b₅ b₄ b₃ b₂ b₁ b₀,
      bits = [b₇, b₆, b₅, b₄, b₃, b₂, b₁, b₀] := by
    match bits, eight with
    | [b₇, b₆, b₅, b₄, b₃, b₂, b₁, b₀], _ => exact ⟨_, _, _, _, _, _, _, _, rfl⟩
  revert b₇ b₆ b₅ b₄ b₃ b₂ b₁ b₀
  decide +kernel

theorem readByte_ok_iff {b : UInt8} {t t' : Nat} :
    readBits line 8 0 t = .ok (b, t') ↔ Carries line t (byteBits b) t' := by
  rw [readBits_ok_iff]
  constructor
  · rintro ⟨bits, eight, rfl, carries⟩
    rwa [byteBits_foldl eight]
  · exact fun carries => ⟨byteBits b, length_byteBits b, foldl_byteBits b, carries⟩

theorem readBytes_ok_iff {n : Nat} : ∀ {bytes : List UInt8} {t : Nat},
    readBytes line n t = .ok bytes ↔
      bytes.length = n ∧ ∃ t', Carries line t (bytes.map byteBits).flatten t' := by
  induction n with
  | zero =>
      intro bytes t
      constructor
      · intro read
        cases read
        exact ⟨rfl, t, rfl⟩
      · rintro ⟨none, -⟩
        cases List.length_eq_zero_iff.1 none
        rfl
  | succ n ih =>
      intro bytes t
      rw [readBytes]
      constructor
      · intro read
        obtain ⟨⟨b, next⟩, first, read⟩ := bind_ok_iff.1 read
        obtain ⟨rest, others, read⟩ := bind_ok_iff.1 read
        cases read
        obtain ⟨rfl, t', carries⟩ := ih.1 others
        exact ⟨rfl, t', carries_append.2 ⟨next, readByte_ok_iff.1 first, carries⟩⟩
      · rintro ⟨length, t', carries⟩
        cases bytes with
        | nil => cases length
        | cons b rest =>
            obtain ⟨next, first, carries⟩ := carries_append.1 carries
            have others := ih.2 ⟨Nat.succ.inj length, t', carries⟩
            exact bind_ok_iff.2 ⟨_, readByte_ok_iff.2 first, bind_ok_iff.2 ⟨rest, others, rfl⟩⟩

/-- From the first poll on the line carries the bytes. -/
def Delivers (line : Line) (bytes : List UInt8) : Prop :=
  ∃ t₁ t₂ t₃ t', EndsAt line true 0 t₁ ∧ EndsAt line false t₁ t₂ ∧ EndsAt line true t₂ t₃ ∧
    Carries line t₃ (bytes.map byteBits).flatten t'

/-- **What is received** is what the line delivers. -/
theorem receive_ok_iff {bytes : List UInt8} :
    receive line = .ok bytes ↔ bytes.length = 5 ∧ Delivers line bytes := by
  rw [receive]
  constructor
  · intro received
    obtain ⟨t₁, first, received⟩ := bind_ok_iff.1 received
    obtain ⟨t₂, second, received⟩ := bind_ok_iff.1 received
    obtain ⟨t₃, third, received⟩ := bind_ok_iff.1 received
    obtain ⟨five, t', carries⟩ := readBytes_ok_iff.1 received
    exact ⟨five, t₁, t₂, t₃, t', await_ok_iff.1 first, await_ok_iff.1 second,
      await_ok_iff.1 third, carries⟩
  · rintro ⟨five, t₁, t₂, t₃, t', first, second, third, carries⟩
    refine bind_ok_iff.2 ⟨t₁, await_ok_iff.2 first, ?_⟩
    refine bind_ok_iff.2 ⟨t₂, await_ok_iff.2 second, ?_⟩
    exact bind_ok_iff.2 ⟨t₃, await_ok_iff.2 third, readBytes_ok_iff.2 ⟨five, t', carries⟩⟩

end Edges

/-- The line delivers four bytes and their sum. -/
def Readable (line : Line) : Prop :=
  ∃ b₀ b₁ b₂ b₃ : UInt8, Delivers line [b₀, b₁, b₂, b₃, b₀ + b₁ + b₂ + b₃]

theorem readable_iff {line : Line} :
    Readable line ↔ ∃ data, receive line = .ok data ∧ ChecksumOk data := by
  constructor
  · rintro ⟨b₀, b₁, b₂, b₃, delivers⟩
    exact ⟨_, receive_ok_iff.2 ⟨rfl, delivers⟩, rfl⟩
  · rintro ⟨data, received, sum⟩
    obtain ⟨five, delivers⟩ := receive_ok_iff.1 received
    match data, five with
    | [b₀, b₁, b₂, b₃, b₄], _ =>
        have last : b₄ = b₀ + b₁ + b₂ + b₃ := sum
        subst last
        exact ⟨b₀, b₁, b₂, b₃, delivers⟩

/-! ## An attempt -/

section Attempt

variable {answer : Bool → Line} {d : Device}

theorem dht11ReadData_driven : (dht11ReadData answer d).driven = d.output := by
  rw [← drivesLow_start, dht11ReadData]
  split
  · rfl
  · split <;> rfl

/-- An attempt succeeds on the readable lines. -/
theorem dht11ReadData_ret_iff : (dht11ReadData answer d).ret = 0 ↔ Readable (answer d.output) := by
  rw [readable_iff]
  cases received : receive (answer d.output) with
  | error w =>
      rw [dht11ReadData_error received]
      constructor
      · exact fun impossible => by cases impossible
      · rintro ⟨data, impossible, -⟩
        cases impossible
  | ok data =>
      by_cases sum : ChecksumOk data
      · rw [dht11ReadData_ok received sum]
        exact iff_of_true rfl ⟨data, rfl, sum⟩
      · rw [dht11ReadData_bad received sum]
        constructor
        · exact fun impossible => by cases impossible
        · rintro ⟨_, ⟨⟩, sum'⟩
          exact absurd sum' sum

/-- Only an attempt that succeeds leaves the pin an output. -/
theorem dht11ReadData_output :
    (dht11ReadData answer d).device.output = true ↔ (dht11ReadData answer d).ret = 0 := by
  cases received : receive (answer d.output) with
  | error w =>
      rw [dht11ReadData_error received]
      constructor <;> exact fun impossible => by cases impossible
  | ok data =>
      by_cases sum : ChecksumOk data
      · rw [dht11ReadData_ok received sum]
        exact iff_of_true rfl rfl
      · rw [dht11ReadData_bad received sum]
        constructor <;> exact fun impossible => by cases impossible

end Attempt

/-- What a sensor sends is readable when it ends with the sum. -/
theorem Sends.readable {line : Line} {bytes : List UInt8} (five : bytes.length = 5)
    (sum : ChecksumOk bytes) (sends : Sends line bytes) : Readable line :=
  readable_iff.2 ⟨bytes, receive_sends five sends, sum⟩

end Lkmpg.Dht11
