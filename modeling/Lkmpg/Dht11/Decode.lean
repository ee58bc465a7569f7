/-
# Lkmpg.Dht11.Decode -- what dht11_read_data makes of an answer

`Aligned`: at this instant the line is in what is left of a high phase, if anything,
and then goes on with a low phase and the pulses of the bits to come.  A round of the
inner loop keeps that (`readBit_aligned`): after a 1 its sample is in the high phase of
the pulse, after a 0 it is in the low phase after it already.
-/
import Lkmpg.Dht11.Driver

namespace Lkmpg.Dht11

open Lkmpg.Kernel Lkmpg.Theory

set_option autoImplicit false

/-! ## Waiting -/

section Waiting

variable {line : Line} {level : Bool}

/-- The level ends in time. -/
theorem waitLoop_ends {n : Nat} :
    ∀ {timeout t : Nat}, n ≤ timeout → (∀ i, i < n → line (t + i) = level) →
      line (t + n) ≠ level →
      waitLoop line level timeout t = (((timeout - n : Nat) : Int), t + n) := by
  induction n with
  | zero =>
      intro timeout t _ _ ended
      rw [Nat.add_zero] at ended
      cases timeout with
      | zero => simp [waitLoop, ended]
      | succ timeout => simp [waitLoop, ended]
  | succ n ih =>
      intro timeout t enough same ended
      obtain ⟨timeout, rfl⟩ := Nat.exists_eq_add_of_le' (Nat.le_trans (Nat.succ_pos n) enough)
      have here : line t = level := same 0 (Nat.succ_pos n)
      have moved : ∀ i, line (t + 1 + i) = line (t + (i + 1)) := by
        intro i
        rw [Nat.add_assoc, Nat.add_comm 1]
      have later : ∀ i, i < n → line (t + 1 + i) = level := by
        intro i inside
        rw [moved]
        exact same (i + 1) (Nat.succ_lt_succ inside)
      have ended' : line (t + 1 + n) ≠ level := by
        rw [moved]
        exact ended
      rw [waitLoop, if_pos here, ih (Nat.le_of_succ_le_succ enough) later ended',
        Nat.succ_sub_succ, Nat.add_assoc, Nat.add_comm 1]

/-- The wait runs out when every poll has seen the level. -/
theorem waitLoop_runs_out_iff {timeout : Nat} :
    ∀ {t : Nat}, (waitLoop line level timeout t).1 = -1 ↔
      ∀ i, i ≤ timeout → line (t + i) = level := by
  induction timeout with
  | zero =>
      intro t
      simp only [waitLoop, Nat.le_zero, forall_eq, Nat.add_zero]
      split <;> simp_all
  | succ timeout ih =>
      intro t
      rw [waitLoop]
      by_cases here : line t = level
      · rw [if_pos here, ih]
        constructor
        · intro all i within
          cases i with
          | zero => exact here
          | succ i =>
              have poll := all i (Nat.le_of_succ_le_succ within)
              rwa [Nat.add_assoc, Nat.add_comm 1] at poll
        · intro all i within
          rw [Nat.add_assoc, Nat.add_comm 1]
          exact all (i + 1) (Nat.succ_le_succ within)
      · rw [if_neg here]
        constructor
        · intro impossible
          simp only at impossible
          omega
        · exact fun all => absurd (all 0 (Nat.zero_le _)) here

theorem await_error_iff {t : Nat} {w : Timeout} :
    await line level t = .error w ↔ w = ⟨level, t⟩ ∧ ∀ i, i ≤ 300 → line (t + i) = level := by
  rw [← waitLoop_runs_out_iff, await]
  cases waitLoop line level 300 t with
  | mk timeout t' =>
      by_cases out : timeout = -1
      · simp [out, eq_comm]
      · simp [out]

/-- A wait for a level that ends in time ends with it. -/
theorem await_ends {t n : Nat} (inTime : n ≤ 300) (same : ∀ i, i < n → line (t + i) = level)
    (ended : line (t + n) ≠ level) : await line level t = .ok (t + n) := by
  have left : ((300 - n : Nat) : Int) ≠ -1 := by omega
  rw [await, waitLoop_ends inTime same ended]
  simp only [left, if_false]

theorem await_phase {t n m : Nat} {rest : List (Bool × Nat)} (short : n ≤ 300) (positive : 0 < m)
    (follows : Follows line t ((level, n) :: (!level, m) :: rest)) :
    await line level t = .ok (t + n) := by
  have ended : line (t + n) ≠ level := by
    rw [follows.next.head positive]
    cases level <;> simp
  exact await_ends short follows.1 ended

end Waiting

/-- A receiver that gives up has waited for the end of a level in vain. -/
def RanOut (line : Line) (w : Timeout) : Prop :=
  ∀ i, i ≤ 300 → line (w.since + i) = w.level

section RanOut

variable {line : Line} {w : Timeout}

theorem await_error {level : Bool} {t : Nat} (failed : await line level t = .error w) :
    RanOut line w := by
  obtain ⟨rfl, polls⟩ := await_error_iff.1 failed
  exact polls

theorem bind_error {α β : Type} {first : Except Timeout α} {next : α → Except Timeout β}
    (failed : (first >>= next) = .error w) (here : first = .error w → RanOut line w)
    (later : ∀ a, first = .ok a → next a = .error w → RanOut line w) : RanOut line w := by
  cases found : first with
  | error e =>
      rw [found] at failed
      cases failed
      exact here found
  | ok a =>
      rw [found] at failed
      exact later a found failed

theorem readBit_error {byte : UInt8} {t : Nat} (failed : readBit line byte t = .error w) :
    RanOut line w := by
  refine bind_error failed await_error fun t₁ _ failed => ?_
  refine bind_error failed await_error fun t₂ _ failed => ?_
  cases failed

theorem readBits_error {n : Nat} : ∀ {byte : UInt8} {t : Nat},
    readBits line n byte t = .error w → RanOut line w := by
  induction n with
  | zero => exact fun failed => by cases failed
  | succ n ih => exact fun failed => bind_error failed readBit_error fun _ _ => ih

theorem readBytes_error {n : Nat} : ∀ {t : Nat}, readBytes line n t = .error w →
    RanOut line w := by
  induction n with
  | zero => exact fun failed => by cases failed
  | succ n ih =>
      intro t failed
      refine bind_error failed readBits_error fun next _ failed => ?_
      refine bind_error failed ih fun rest _ failed => ?_
      cases failed

theorem receive_error (failed : receive line = .error w) : RanOut line w := by
  refine bind_error failed await_error fun t₁ _ failed => ?_
  refine bind_error failed await_error fun t₂ _ failed => ?_
  exact bind_error failed await_error fun t₃ _ => readBytes_error

end RanOut

/-! ## Pulses -/

/-- One bit on the line: a low phase and a high phase. -/
structure Pulse where
  bit : Bool
  low : Nat
  high : Nat

/-- The pulse has the lengths of its bit, before a low phase of the length `next`. -/
structure Pulse.Conforms (p : Pulse) (next : Nat) : Prop where
  low_pos : 0 < p.low
  low_le : p.low ≤ 300
  one : p.bit = true → 50 < p.high ∧ p.high ≤ 300
  zero : p.bit = false → 0 < p.high ∧ p.high ≤ 50 ∧ 50 < p.high + next

/-- The low phase before the next high one: the one of the first pulse, or the last. -/
def nextLow : List Pulse → (final : Nat) → Nat
  | [], final => final
  | p :: _, _ => p.low

def PulsesConform : List Pulse → (final : Nat) → Prop
  | [], _ => True
  | p :: ps, final => p.Conforms (nextLow ps final) ∧ PulsesConform ps final

/-- The phases of the pulses, from the end of the low phase of the first one on. -/
def afterLow : List Pulse → (final : Nat) → List (Bool × Nat)
  | [], _ => []
  | p :: ps, final => (true, p.high) :: (false, nextLow ps final) :: afterLow ps final

/-- The phases of the pulses and of the low phase after them. -/
def pulsePhases (ps : List Pulse) (final : Nat) : List (Bool × Nat) :=
  (ps.map fun p => [(false, p.low), (true, p.high)]).flatten ++ [(false, final)]

theorem pulsePhases_eq (ps : List Pulse) (final : Nat) :
    pulsePhases ps final = (false, nextLow ps final) :: afterLow ps final := by
  induction ps with
  | nil => rfl
  | cons p ps ih =>
      rw [pulsePhases, List.map_cons, List.flatten_cons, List.append_assoc]
      show (false, p.low) :: (true, p.high) :: pulsePhases ps final = _
      rw [ih]
      rfl

/-- The line is in the rest of a high phase, and then come the pulses. -/
def Aligned (line : Line) (t : Nat) (ps : List Pulse) (final : Nat) : Prop :=
  ∃ high low, high ≤ 300 ∧ 0 < low ∧ low ≤ nextLow ps final ∧
    Follows line t ((true, high) :: (false, low) :: afterLow ps final)

/-- **One bit.** -/
theorem readBit_aligned {line : Line} {t : Nat} {p : Pulse} {ps : List Pulse} {final : Nat}
    (byte : UInt8) (aligned : Aligned line t (p :: ps) final)
    (conforms : p.Conforms (nextLow ps final)) (next_pos : 0 < nextLow ps final) :
    ∃ t', readBit line byte t = .ok (shiftIn byte p.bit, t') ∧ Aligned line t' ps final := by
  obtain ⟨high, low, high_le, low_pos, low_le, follows⟩ := aligned
  have low_le' : low ≤ 300 := Nat.le_trans low_le conforms.low_le
  have rise : Follows line (t + high + low)
      ((true, p.high) :: (false, nextLow ps final) :: afterLow ps final) := follows.next.next
  have high_pos : 0 < p.high := by
    cases bit : p.bit with
    | true => exact Nat.lt_trans (by omega) (conforms.one bit).1
    | false => exact (conforms.zero bit).1
  have first : await line true t = .ok (t + high) := await_phase high_le low_pos follows
  have second : await line false (t + high) = .ok (t + high + low) :=
    await_phase low_le' high_pos follows.next
  -- The sample is 50 us after the rise.
  have sample : line (t + high + low + 50) = p.bit ∧
      Aligned line (t + high + low + 50) ps final := by
    cases bit : p.bit with
    | true =>
        obtain ⟨long, short⟩ := conforms.one bit
        have left := rise.skip (Nat.le_of_lt long)
        exact ⟨left.head (by omega), p.high - 50, nextLow ps final, by omega, next_pos,
          Nat.le_refl _, left⟩
    | false =>
        obtain ⟨-, short, covers⟩ := conforms.zero bit
        have left := rise.next.skip (m := 50 - p.high) (by omega)
        have time : t + high + low + p.high + (50 - p.high) = t + high + low + 50 := by omega
        rw [time] at left
        exact ⟨left.head (by omega), 0, nextLow ps final - (50 - p.high), Nat.zero_le _, by omega,
          Nat.sub_le _ _, left.insert true⟩
  refine ⟨t + high + low + 50, ?_, sample.2⟩
  rw [readBit, first]
  show (await line false (t + high)).bind _ = _
  rw [second, ← sample.1]
  rfl

theorem nextLow_pos {ps : List Pulse} {final : Nat} (conform : PulsesConform ps final)
    (final_pos : 0 < final) : 0 < nextLow ps final := by
  cases ps with
  | nil => exact final_pos
  | cons p ps => exact conform.1.low_pos

/-- A run of bits, with the pulses `qs` still to come. -/
theorem readBits_aligned {line : Line} {final : Nat} (final_pos : 0 < final) {qs : List Pulse}
    (ps : List Pulse) : ∀ {t : Nat} (byte : UInt8), Aligned line t (ps ++ qs) final →
      PulsesConform (ps ++ qs) final →
      ∃ t', readBits line ps.length byte t = .ok ((ps.map Pulse.bit).foldl shiftIn byte, t') ∧
        Aligned line t' qs final ∧ PulsesConform qs final := by
  induction ps with
  | nil => exact fun byte aligned conform => ⟨_, rfl, aligned, conform⟩
  | cons p ps ih =>
      intro t byte aligned conform
      obtain ⟨t₁, read, aligned₁⟩ :=
        readBit_aligned byte aligned conform.1 (nextLow_pos conform.2 final_pos)
      obtain ⟨t', others, rest⟩ := ih (shiftIn byte p.bit) aligned₁ conform.2
      refine ⟨t', ?_, rest⟩
      rw [List.length_cons, readBits, read]
      exact others

/-! ## Bytes -/

/-- The bits of a byte, most significant first. -/
def byteBits (b : UInt8) : List Bool :=
  (List.range 8).map fun i => b.toNat.testBit (7 - i)

theorem length_byteBits (b : UInt8) : (byteBits b).length = 8 := by
  rw [byteBits, List.length_map, List.length_range]

theorem foldl_byteBits (b : UInt8) : (byteBits b).foldl shiftIn 0 = b := by
  have all : ∀ n : Fin 256, (byteBits (UInt8.ofNat n)).foldl shiftIn 0 = UInt8.ofNat n := by
    decide +kernel
  have same := all ⟨b.toNat, b.toNat_lt⟩
  rwa [UInt8.ofNat_toNat] at same

theorem readBytes_aligned {line : Line} {final : Nat} (final_pos : 0 < final)
    (bytes : List UInt8) : ∀ {t : Nat} {ps : List Pulse}, Aligned line t ps final →
      PulsesConform ps final → ps.map Pulse.bit = (bytes.map byteBits).flatten →
      readBytes line bytes.length t = .ok bytes := by
  induction bytes with
  | nil => exact fun _ _ _ => rfl
  | cons b bytes ih =>
      intro t ps aligned conform bits
      rw [List.map_cons, List.flatten_cons] at bits
      obtain ⟨front, back, rfl, first, rest⟩ := List.map_eq_append_iff.1 bits
      have eight : front.length = 8 := by rw [← List.length_map, first, length_byteBits]
      obtain ⟨t', read, aligned', conform'⟩ := readBits_aligned final_pos front 0 aligned conform
      rw [first, foldl_byteBits, eight] at read
      rw [List.length_cons, readBytes, read]
      show (readBytes line bytes.length t').bind _ = _
      rw [ih aligned' conform' rest]
      rfl

/-! ## Answers -/

/-- The line is a sensor's answer with these bytes. -/
def Sends (line : Line) (bytes : List UInt8) : Prop :=
  ∃ wait low high ps final, wait ≤ 300 ∧ (0 < low ∧ low ≤ 300) ∧ (0 < high ∧ high ≤ 300) ∧
    ps.map Pulse.bit = (bytes.map byteBits).flatten ∧ PulsesConform ps final ∧ 0 < final ∧
    Follows line 0 ((true, wait) :: (false, low) :: (true, high) :: pulsePhases ps final)

/-- A conforming answer is received as it was sent. -/
theorem receive_sends {line : Line} {bytes : List UInt8} (five : bytes.length = 5)
    (sends : Sends line bytes) : receive line = .ok bytes := by
  obtain ⟨wait, low, high, ps, final, wait_le, ⟨low_pos, low_le⟩, ⟨high_pos, high_le⟩, bits,
    conform, final_pos, follows⟩ := sends
  rw [pulsePhases_eq] at follows
  have next_pos := nextLow_pos conform final_pos
  have first := await_phase wait_le low_pos follows
  have second := await_phase low_le high_pos follows.next
  have third := await_phase high_le next_pos follows.next.next
  have aligned : Aligned line (0 + wait + low + high) ps final :=
    ⟨0, nextLow ps final, Nat.zero_le _, next_pos, Nat.le_refl _,
      follows.next.next.next.insert true⟩
  have read := readBytes_aligned final_pos bytes aligned conform bits
  rw [five] at read
  rw [receive, first]
  show (await line false (0 + wait)).bind _ = _
  rw [second]
  show (await line true (0 + wait + low)).bind _ = _
  rw [third]
  exact read

/-- A bit as a sensor sends it. -/
def sensorPulse (bit : Bool) : Pulse := ⟨bit, 54, if bit then 70 else 24⟩

theorem sensorPulses_conform (bits : List Bool) : PulsesConform (bits.map sensorPulse) 54 := by
  have next : ∀ bits : List Bool, nextLow (bits.map sensorPulse) 54 = 54 := by
    intro bits
    cases bits <;> rfl
  induction bits with
  | nil => exact trivial
  | cons bit bits ih =>
      refine ⟨?_, ih⟩
      rw [next]
      cases bit <;> constructor <;> simp [sensorPulse]

/-- The line a sensor sends these bytes on. -/
def sensorLine (bytes : List UInt8) : Line :=
  wave true ((true, 10) :: (false, 80) :: (true, 80) ::
    pulsePhases ((bytes.map byteBits).flatten.map sensorPulse) 54)

theorem sends_sensorLine (bytes : List UInt8) : Sends (sensorLine bytes) bytes := by
  refine ⟨10, 80, 80, (bytes.map byteBits).flatten.map sensorPulse, 54, by omega, by omega,
    by omega, ?_, sensorPulses_conform _, by omega, follows_wave true _⟩
  have bit : Pulse.bit ∘ sensorPulse = id := rfl
  rw [List.map_map, bit, List.map_id]

/-! ## One attempt -/

section Attempt

variable {answer : Bool → Line} {d : Device}

/-- The device when the sensor is listened to. -/
def listening (d : Device) : Device :=
  ((d.gpioSetValue false).gpioSetValue true).gpioDirectionInput

theorem gpioSetValue_msg (d : Device) (value : Bool) : (d.gpioSetValue value).msg = d.msg := by
  rw [Device.gpioSetValue]
  split <;> rfl

theorem listening_msg (d : Device) : (listening d).msg = d.msg := by
  show ((d.gpioSetValue false).gpioSetValue true).msg = d.msg
  rw [gpioSetValue_msg, gpioSetValue_msg]

/-- The start signal is driven when the pin is an output. -/
theorem drivesLow_start (d : Device) : (d.gpioSetValue false).drivesLow = d.output := by
  rw [Device.gpioSetValue, Device.drivesLow]
  split
  · rename_i output
    rw [output]
    rfl
  · rename_i input
    rw [Bool.not_eq_true] at input
    rw [input]
    rfl

theorem dht11ReadData_error {w : Timeout} (failed : receive (answer d.output) = .error w) :
    dht11ReadData answer d = ⟨listening d, d.output, -ETIMEDOUT⟩ := by
  rw [dht11ReadData, drivesLow_start]
  simp only [failed]
  rfl

theorem dht11ReadData_ok {data : List UInt8} (received : receive (answer d.output) = .ok data)
    (ok : ChecksumOk data) :
    dht11ReadData answer d =
      ⟨((listening d).gpioDirectionOutput true).sprintf (data.getD 0 0) (data.getD 2 0),
        d.output, 0⟩ := by
  rw [dht11ReadData, drivesLow_start]
  simp only [received, ok, if_true]
  rfl

theorem dht11ReadData_bad {data : List UInt8} (received : receive (answer d.output) = .ok data)
    (bad : ¬ ChecksumOk data) :
    dht11ReadData answer d = ⟨listening d, d.output, -eio⟩ := by
  rw [dht11ReadData, drivesLow_start]
  simp only [received, bad, if_false]
  rfl

end Attempt

theorem messageText_ne_zero (humidity temperature : UInt8) :
    ∀ b ∈ messageText humidity temperature, b ≠ 0 := by
  intro b member
  simp only [messageText, List.mem_append] at member
  rcases member with (((label | number) | label) | number) | label
  · exact ne_zero_of_all (by decide) b label
  · exact decimal_ne_zero number
  · exact ne_zero_of_all (by decide) b label
  · exact decimal_ne_zero number
  · exact ne_zero_of_all (by decide) b label

theorem cstr_sprintf (d : Device) (humidity temperature : UInt8) :
    cstr (d.sprintf humidity temperature).msg = messageText humidity temperature := by
  show cstr (splice d.msg 0 (messageText humidity temperature ++ [0])) = _
  rw [splice, List.take_zero, List.nil_append, List.append_assoc]
  exact cstr_append (messageText_ne_zero humidity temperature)

/-- **Decoding.**  An attempt whose answer sends five bytes returns 0, with the first and
the third of them in `msg`, when the last one is the sum of the others, and `-EIO`
otherwise; and it returns `-ETIMEDOUT` only when 301 polls of one wait in a row have seen
the level that was to end. -/
theorem read_data_decodes (answer : Bool → Line) (d : Device) :
    (∀ b₀ b₁ b₂ b₃ b₄ : UInt8, Sends (answer d.output) [b₀, b₁, b₂, b₃, b₄] →
      if b₄ = b₀ + b₁ + b₂ + b₃ then
        (dht11ReadData answer d).ret = 0 ∧
          cstr (dht11ReadData answer d).device.msg = messageText b₀ b₂
      else
        (dht11ReadData answer d).ret = -eio ∧ (dht11ReadData answer d).device.msg = d.msg) ∧
    ((dht11ReadData answer d).ret = -ETIMEDOUT →
      ∃ w, receive (answer d.output) = .error w ∧
        ∀ i, i ≤ 300 → answer d.output (w.since + i) = w.level) := by
  constructor
  · intro b₀ b₁ b₂ b₃ b₄ sends
    have received := receive_sends rfl sends
    split
    · rename_i sum
      rw [dht11ReadData_ok received sum]
      exact ⟨rfl, cstr_sprintf _ _ _⟩
    · rename_i sum
      rw [dht11ReadData_bad received sum]
      exact ⟨rfl, listening_msg d⟩
  · intro ret
    cases received : receive (answer d.output) with
    | ok data =>
        by_cases ok : ChecksumOk data
        · rw [dht11ReadData_ok received ok] at ret
          cases ret
        · rw [dht11ReadData_bad received ok] at ret
          cases ret
    | error w => exact ⟨w, rfl, receive_error received⟩

/-- 40 % and 25 degrees. -/
theorem read_data_decodes_sensorLine :
    (dht11ReadData (fun _ => sensorLine [40, 0, 25, 0, 65]) (Device.static true true)).ret = 0 ∧
      cstr (dht11ReadData (fun _ => sensorLine [40, 0, 25, 0, 65])
        (Device.static true true)).device.msg =
          text "Humidity: 40%\nTemperature: 25 deg C\n" := by
  have decoded := (read_data_decodes (fun _ => sensorLine [40, 0, 25, 0, 65])
    (Device.static true true)).1 40 0 25 0 65 (sends_sensorLine _)
  rw [if_pos (by decide)] at decoded
  refine ⟨decoded.1, decoded.2.trans ?_⟩
  decide

end Lkmpg.Dht11
