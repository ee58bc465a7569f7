/-
# Lkmpg.Dht11.Driver -- dht11.c, the DHT11 sensor on a GPIO line

`dht11_read_data` pulls the line low for its start signal, makes the pin an input and
times the phases of the answer.  Time is in microseconds from its first
`gpio_get_value` on; that call samples the line at once, and `udelay(n)` takes `n`.

The pin drives the line only while it is an output, so the answer to an attempt is a
line that depends on whether the start signal was driven.
-/
import Lkmpg.Kernel.CString
import Lkmpg.Theory.System
import Lkmpg.Theory.Waveform

namespace Lkmpg.Dht11

open Lkmpg.Kernel Lkmpg.Theory

set_option autoImplicit false

abbrev Line := Nat → Bool

/-! ## Waiting -/

/-- `while (gpio_get_value(pin) == level && timeout--) udelay(1)`: `timeout` and the time
at the end. -/
def waitLoop (line : Line) (level : Bool) : (timeout t : Nat) → Int × Nat
  | 0, t => (if line t = level then -1 else 0, t)
  | timeout + 1, t =>
      if line t = level then waitLoop line level timeout (t + 1)
      else (((timeout + 1 : Nat) : Int), t)

/-- A wait for the end of `level`, from the time `since` on, that ran out. -/
structure Timeout where
  level : Bool
  since : Nat

def await (line : Line) (level : Bool) (t : Nat) : Except Timeout Nat :=
  let (timeout, t') := waitLoop line level 300 t
  if timeout = -1 then .error ⟨level, t⟩ else .ok t'

/-! ## Receiving -/

/-- `byte <<= 1`, and `byte |= 0x01` for a 1. -/
def shiftIn (byte : UInt8) (bit : Bool) : UInt8 :=
  if bit then byte <<< 1 ||| 0x01 else byte <<< 1

/-- One round of the inner loop. -/
def readBit (line : Line) (byte : UInt8) (t : Nat) : Except Timeout (UInt8 × Nat) := do
  let t ← await line true t
  let t ← await line false t
  let t := t + 50
  return (shiftIn byte (line t), t)

/-- The inner loop, with `n` rounds to go. -/
def readBits (line : Line) : (n : Nat) → UInt8 → (t : Nat) → Except Timeout (UInt8 × Nat)
  | 0, byte, t => return (byte, t)
  | n + 1, byte, t => do
      let next ← readBit line byte t
      readBits line n next.1 next.2

/-- The outer loop, with `n` rounds to go: the bytes of `sensor_data`. -/
def readBytes (line : Line) : (n t : Nat) → Except Timeout (List UInt8)
  | 0, _ => return []
  | n + 1, t => do
      let next ← readBits line 8 0 t
      let rest ← readBytes line n next.2
      return next.1 :: rest

/-- `sensor_data`, from the first poll on. -/
def receive (line : Line) : Except Timeout (List UInt8) := do
  let t ← await line true 0
  let t ← await line false t
  let t ← await line true t
  readBytes line 5 t

/-- The last byte is the sum of the others, as a `uint8_t`. -/
def ChecksumOk (data : List UInt8) : Prop :=
  data.getD 4 0 = data.getD 0 0 + data.getD 1 0 + data.getD 2 0 + data.getD 3 0

instance (data : List UInt8) : Decidable (ChecksumOk data) :=
  inferInstanceAs (Decidable (_ = _))

/-! ## The device -/

def MSG_LEN : Nat := 64

/-- The data pin, and `msg`. -/
structure Device where
  /-- The pin is configured as an output. -/
  output : Bool
  /-- The level the pin drives while it is one. -/
  value : Bool
  msg : List UInt8
  msg_len : msg.length = MSG_LEN

/-- The static data of the module, with the pin as it is found. -/
def Device.static (output value : Bool) : Device :=
  ⟨output, value, List.replicate MSG_LEN 0, List.length_replicate⟩

/-- The text `dht11_read_data` prints. -/
def messageText (humidity temperature : UInt8) : List UInt8 :=
  text "Humidity: " ++ decimal humidity.toNat ++ text "%\nTemperature: " ++
    decimal temperature.toNat ++ text " deg C\n"

theorem length_messageText_lt (humidity temperature : UInt8) :
    (messageText humidity temperature).length < MSG_LEN := by
  have first : (decimal humidity.toNat).length ≤ 3 :=
    decimal_length_le (by omega) (Nat.lt_trans humidity.toNat_lt (by omega))
  have second : (decimal temperature.toNat).length ≤ 3 :=
    decimal_length_le (by omega) (Nat.lt_trans temperature.toNat_lt (by omega))
  have texts : (text "Humidity: ").length = 10 ∧ (text "%\nTemperature: ").length = 15 ∧
      (text " deg C\n").length = 7 := by decide
  simp only [messageText, List.length_append, texts, MSG_LEN]
  omega

namespace Device

/-- `gpio_set_value` has an effect on an output only. -/
def gpioSetValue (d : Device) (value : Bool) : Device :=
  if d.output then { d with value := value } else d

def gpioDirectionInput (d : Device) : Device := { d with output := false }

def gpioDirectionOutput (d : Device) (value : Bool) : Device :=
  { d with output := true, value := value }

/-- The pin pulls the line low. -/
def drivesLow (d : Device) : Bool := d.output && !d.value

/-- `sprintf(msg, "Humidity: %d%%\nTemperature: %d deg C\n", ...)`. -/
def sprintf (d : Device) (humidity temperature : UInt8) : Device where
  output := d.output
  value := d.value
  msg := splice d.msg 0 (messageText humidity temperature ++ [0])
  msg_len := by
    have fits := length_messageText_lt humidity temperature
    rw [length_splice, d.msg_len]
    rw [d.msg_len, List.length_append, List.length_singleton]
    omega

end Device

/-- What one `dht11_read_data` leaves and returns. -/
structure Attempt where
  device : Device
  /-- The pin was an output that pulled the line low when the start signal began. -/
  driven : Bool
  ret : Int

/-- `answer driven` is the line after a start signal that was driven, or was not. -/
def dht11ReadData (answer : Bool → Line) (d : Device) : Attempt :=
  let driven := (d.gpioSetValue false).drivesLow
  let d := ((d.gpioSetValue false).gpioSetValue true).gpioDirectionInput
  match receive (answer driven) with
  | .error _ => ⟨d, driven, -ETIMEDOUT⟩
  | .ok data =>
      if ChecksumOk data then
        ⟨(d.gpioDirectionOutput true).sprintf (data.getD 0 0) (data.getD 2 0), driven, 0⟩
      else ⟨d, driven, -eio⟩

/-! ## Opening the device -/

/-- What one `device_open` leaves and returns. -/
structure Opened where
  device : Device
  /-- Whether each attempt's start signal was driven. -/
  starts : List Bool
  ret : Int

/-- The loop, with `left` attempts to go after `retry`; `ret` is what the last one
returned. -/
def retryLoop (answers : Nat → Bool → Line) : (left retry : Nat) → (ret : Int) → Device → Opened
  | 0, _, ret, d => ⟨d.gpioDirectionOutput true, [], ret⟩
  | left + 1, retry, _, d =>
      let a := dht11ReadData (answers retry) d
      if a.ret = 0 then ⟨a.device, [a.driven], 0⟩
      else
        let rest := retryLoop answers left (retry + 1) a.ret a.device
        { rest with starts := a.driven :: rest.starts }

/-- `answers i` is what the attempt `i` gets for an answer. -/
def deviceOpen (answers : Nat → Bool → Line) (d : Device) : Opened :=
  retryLoop answers 5 0 0 d

/-! ## Loading the module -/

/-- What the calls of `dht11_init` return; a pointer is an error when it is negative. -/
structure Answers where
  chrdevRegion : Int
  cdevAdd : Int
  classCreate : Int
  deviceCreate : Int
  gpioRequest : Int
  gpioDirectionOutput : Int

/-- `dht11_init`: the device, and the return value. -/
def dht11Init (o : Answers) (d : Device) : Device × Int :=
  if o.chrdevRegion < 0 then (d, o.chrdevRegion)
  else if o.cdevAdd ≠ 0 then (d, o.cdevAdd)
  else if o.classCreate < 0 then (d, o.classCreate)
  else if o.deviceCreate < 0 then (d, o.deviceCreate)
  else if o.gpioRequest ≠ 0 then (d, o.gpioRequest)
  else if o.gpioDirectionOutput ≠ 0 then (d, o.gpioDirectionOutput)
  else (d.gpioDirectionOutput true, 0)

end Lkmpg.Dht11
