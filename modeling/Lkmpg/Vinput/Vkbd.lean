/-
# Lkmpg.Vinput.Vkbd -- vkbd.c, the keyboard type of vinput

The callbacks of `vkbd_ops` as functions of `last_entry`, on machine integers.
-/
import Lkmpg.Vinput.Driver

namespace Lkmpg.Vinput

open Lkmpg.Kernel Lkmpg.Theory

set_option autoImplicit false

def VINPUT_RELEASE : Int := 0
def VINPUT_PRESS : Int := 1

/-- `snprintf(buff, len, "%+ld\n", last_entry)`, with `len` taken as a `size_t`. -/
def vinputVkbdRead (lastEntry : Int64) (len : Int) : List UInt8 × Int :=
  snprintf (len % 2 ^ 64).toNat (formatPlus lastEntry.toInt ++ text "\n")

/-- `kstrtol` leaves `key` as it is when it fails. -/
def vinputVkbdSend (_lastEntry : Int64) (buff : List UInt8) (len : Int) : Sent :=
  let key : Int64 :=
    match kstrtol (if buff.head? = some 43 then buff.tail else buff) with
    | .ok key => .ofInt key
    | .error _ => 0
  let type := if key < 0 then VINPUT_RELEASE else VINPUT_PRESS
  let code := if key < 0 then -key else key
  ⟨key, [((code.toInt % 2 ^ 32).toNat, type)], len⟩

theorem vinputVkbdRead_fits (lastEntry : Int64) (len : Int) :
    (vinputVkbdRead lastEntry len).1.length ≤ VINPUT_MAX_LEN + 1 := by
  have stored := snprintf_length_le (len % 2 ^ 64).toNat (formatPlus lastEntry.toInt ++ text "\n")
  have number := formatPlus_length_le lastEntry
  have newline : (text "\n").length = 1 := by decide
  rw [List.length_append, newline] at stored
  rw [vinputVkbdRead, VINPUT_MAX_LEN]
  omega

def vkbdOps : VinputOps where
  kill := false
  send := vinputVkbdSend
  read := vinputVkbdRead
  read_fits := vinputVkbdRead_fits

def vkbdDev : VinputDevice where
  name := text "vkbd"
  ops := vkbdOps
  name_fits := by decide
  name_ne_zero := ne_zero_of_all (by decide)

end Lkmpg.Vinput
