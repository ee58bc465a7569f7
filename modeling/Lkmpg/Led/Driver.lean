/-
# Lkmpg.Led.Driver -- led.c, an LED on a GPIO line

`device_write` on the two bytes of `control_signal`, which are static, with a user buffer
that may end anywhere.  `led_init` has made the pin an output that is low.
-/
import Lkmpg.Kernel.UserCopy
import Lkmpg.Theory.System

namespace Lkmpg.Led

open Lkmpg.Kernel Lkmpg.Theory

set_option autoImplicit false

def BUF_LEN : Nat := 2

/-- `control_signal`, `device_buffer_size`, and the level of the pin. -/
structure Device where
  controlSignal : List UInt8
  deviceBufferSize : Nat
  level : Bool
  controlSignal_len : controlSignal.length = BUF_LEN

/-- After `led_init`. -/
def Device.init : Device := ⟨List.replicate BUF_LEN 0, 0, false, List.length_replicate⟩

/-- The cases of the `switch`: `'0'` and `'1'`. -/
def command (c : UInt8) : Option Bool :=
  if c = 48 then some false
  else if c = 49 then some true
  else none

/-- What a `device_write` leaves and returns. -/
structure Written where
  led : Device
  offset : Nat
  ret : Int

/-- `device_write` of the bytes `buffer`. -/
def deviceWrite (led : Device) (buffer : List UInt8) (offset reach : Nat) : Written :=
  let taken := buffer.take BUF_LEN
  let stored : Device :=
    { controlSignal := (copyFromUser led.controlSignal 0 taken reach).1
      deviceBufferSize := taken.length
      level := led.level
      controlSignal_len := by
        have fits : 0 + (copied taken reach).length ≤ led.controlSignal.length := by
          rw [length_copied, led.controlSignal_len, Nat.zero_add]
          exact List.length_take_le _ _
        rw [copyFromUser, length_splice fits, led.controlSignal_len] }
  if (copyFromUser led.controlSignal 0 taken reach).2 ≠ 0 then ⟨stored, offset, -EFAULT⟩
  else
    let level := (command (stored.controlSignal.getD 0 0)).getD led.level
    ⟨{ stored with level := level }, offset + stored.deviceBufferSize, stored.deviceBufferSize⟩

/-! ## Calls -/

/-- A call of `device_write`. -/
structure Call where
  buffer : List UInt8
  offset : Nat
  /-- How many bytes of the user buffer are accessible. -/
  reach : Nat

structure State where
  led : Device
  /-- What the last call asked for that did not fail, had a byte, and was a command. -/
  asked : Bool

def State.init : State := ⟨Device.init, false⟩

def step (s : State) (c : Call) : Option State :=
  let done := deviceWrite s.led c.buffer c.offset c.reach
  some ⟨done.led,
    if done.ret = -EFAULT then s.asked else (c.buffer.head?.bind command).getD s.asked⟩

def system : System State Call where
  Start s := s = .init
  step := step

end Lkmpg.Led
