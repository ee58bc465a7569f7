/-
# Lkmpg.Modules.CharDevices -- the modules with a device file

chardev.c and static_key.c have the same init and exit function, led.c and dht11.c the
same but for the GPIO.  A label of the source is a definition of the same name.
-/
import Lkmpg.Modules.Resources

namespace Lkmpg.Modules

open Lkmpg.Theory Lkmpg.Theory.Lifecycle

set_option autoImplicit false

/-! ## chardev.c, static_key.c, chardev2.c -/

/-- `chardev_init`.  The global is `major`. -/
def chardevInit : Prog (Int × Int) := do
  let major ← allocChrdev
  if major < 0 then return (major, major)
  let cls ← classCreate
  if cls < 0 then
    unregisterChrdev major
    return (cls, major)
  run (.attempt (.device ⟨major, 0⟩))
  return (0, major)

def chardevExit (major : Int) : Prog Unit := do
  deviceDestroy ⟨major, 0⟩
  classDestroy
  unregisterChrdev major
  return

abbrev chardev : Driver Resource := ⟨Int, chardevInit, chardevExit⟩

def majorNum : Int := 100

def chardev2Init : Prog (Int × Unit) := do
  let ret ← registerChrdev majorNum
  if ret < 0 then return (ret, ())
  let cls ← classCreate
  if cls < 0 then
    unregisterChrdev majorNum
    return (cls, ())
  run (.attempt (.device ⟨majorNum, 0⟩))
  return (0, ())

def chardev2Exit (_ : Unit) : Prog Unit := do
  deviceDestroy ⟨majorNum, 0⟩
  classDestroy
  unregisterChrdev majorNum
  return

abbrev chardev2 : Driver Resource := ⟨Unit, chardev2Init, chardev2Exit⟩

/-! ## ioctl.c -/

/-- The global is `test_ioctl_major`. -/
def ioctlInit : Prog (Int × Int) := do
  let major ← allocChrdevRegion
  if major < 0 then return (major, major)
  let ret ← cdevAdd ⟨major, 0⟩
  if ret ≠ 0 then
    unregisterChrdevRegion ⟨major, 0⟩
    return (ret, major)
  return (0, major)

def ioctlExit (major : Int) : Prog Unit := do
  cdevDel ⟨major, 0⟩
  unregisterChrdevRegion ⟨major, 0⟩
  return

abbrev ioctl : Driver Resource := ⟨Int, ioctlInit, ioctlExit⟩

/-! ## led.c, dht11.c -/

/-- What the two drivers start with: `major_num` and `minor_num` of the device, which
are 0 when its number is to be allocated, and its GPIO. -/
structure GpioDevice where
  majorNum : Int
  minorNum : Int
  gpio : Nat

namespace GpioDevice

variable (v : GpioDevice)

/-! The labels, from the last one up.  `dev` is `dev_num`. -/

def fail1 (dev : Dev) (ret : Int) : Prog (Int × Dev) := do
  unregisterChrdevRegion dev
  return (ret, dev)

def fail2 (dev : Dev) (ret : Int) : Prog (Int × Dev) := do
  cdevDel dev
  fail1 dev ret

def fail3 (dev : Dev) (ret : Int) : Prog (Int × Dev) := do
  classDestroy
  fail2 dev ret

def fail4 (dev : Dev) (ret : Int) : Prog (Int × Dev) := do
  deviceDestroy dev
  fail3 dev ret

def fail5 (dev : Dev) (ret : Int) : Prog (Int × Dev) := do
  gpioFree v.gpio
  fail4 dev ret

/-- The init function after the number is there. -/
def addDevice (dev : Dev) : Prog (Int × Dev) := do
  let ret ← cdevAdd dev
  if ret ≠ 0 then fail1 dev ret else
  let cls ← classCreate
  if cls < 0 then fail2 dev cls else
  let device ← deviceCreate dev
  if device < 0 then fail3 dev device else
  let ret ← gpioRequest v.gpio
  if ret ≠ 0 then fail4 dev ret else
  let ret ← gpioDirectionOutput v.gpio
  if ret ≠ 0 then v.fail5 dev ret else
  return (0, dev)

/-- `led_init` and `dht11_init`. -/
def init : Prog (Int × Dev) :=
  if v.majorNum ≠ 0 then do
    let ret ← registerChrdevRegion ⟨v.majorNum, v.minorNum⟩
    if ret < 0 then return (ret, ⟨v.majorNum, v.minorNum⟩)
    else v.addDevice ⟨v.majorNum, v.minorNum⟩
  else do
    let major ← allocChrdevRegion
    if major < 0 then return (major, ⟨0, 0⟩)
    else v.addDevice ⟨major, 0⟩

def exit (dev : Dev) : Prog Unit := do
  gpioSetValue v.gpio
  gpioFree v.gpio
  deviceDestroy dev
  classDestroy
  cdevDel dev
  unregisterChrdevRegion dev
  return

abbrev driver : Driver Resource := ⟨Dev, v.init, v.exit⟩

end GpioDevice

/-- The GPIO is `led_gpio`, or `leds[0].gpio`. -/
abbrev led : Driver Resource := GpioDevice.driver ⟨0, 0, 4⟩

/-- The GPIO is `GPIO_PIN_4`. -/
abbrev dht11 : Driver Resource := GpioDevice.driver ⟨0, 0, 575⟩

/-! ## vinput.c -/

/-- `vinput_init`.  The global is `vinput_dev`. -/
def vinputInit : Prog (Int × Int) := do
  let failedAlloc (vinputDev err : Int) : Prog (Int × Int) := return (err, vinputDev)
  let failedClass (vinputDev err : Int) : Prog (Int × Int) := do
    unregisterChrdev vinputDev
    failedAlloc vinputDev err
  let vinputDev ← allocChrdev
  if vinputDev < 0 then failedAlloc vinputDev vinputDev else
  let err ← classCreate
  if err < 0 then failedClass vinputDev err else
  return (0, vinputDev)

/-- `vinput_end` -/
def vinputEnd (vinputDev : Int) : Prog Unit := do
  unregisterChrdev vinputDev
  classDestroy
  return

abbrev vinput : Driver Resource := ⟨Int, vinputInit, vinputEnd⟩

end Lkmpg.Modules
