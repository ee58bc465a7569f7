/-
# Lkmpg.Buttons.Driver -- intrpt.c, bottomhalf.c and bh_threaded.c

The three drivers have one init and one exit function each, in two builds.  A label
of the source is a local function of the same name, and `goto` is its call.

A load of a driver runs its init function, then its exit function, one call a step.
In between a registered handler may be interrupted to run at any moment, any number of
times at once, and `bottomhalf_work` is run by a worker.
-/
import Lkmpg.Buttons.Gpio
import Lkmpg.Theory.Component

namespace Lkmpg.Buttons

open Lkmpg.Theory

set_option autoImplicit false

inductive Build where
  /-- `NO_GPIO_REQUEST_ARRAY` is defined: 6.10 and later. -/
  | noRequestArray
  | requestArray
  deriving DecidableEq

def ledGpio : Nat := 4

def buttonGpios : Fin 2 → Nat
  | 0 => 17
  | 1 => 18

def leds : Fin 1 → Gpio
  | 0 => ⟨4, .output⟩

def buttons : Fin 2 → Gpio
  | 0 => ⟨17, .input⟩
  | 1 => ⟨18, .input⟩

/-- The arrays as they are handed to `gpio_request_array` and `gpio_free_array`. -/
def ledArray : List Gpio := [leds 0]

def buttonArray : List Gpio := [buttons 0, buttons 1]

/-! ## The init functions -/

/-- `intrpt_init` with `NO_GPIO_REQUEST_ARRAY`: no direction is configured. -/
def intrptInit : Code Int := do
  let fail1 (ret : Int) : Code Int := do
    run (.gpioFree ledGpio)
    return ret
  let fail2 (ret : Int) : Code Int := do
    run (.gpioFree (buttonGpios 0))
    fail1 ret
  let fail3 (ret : Int) : Code Int := do
    run (.gpioFree (buttonGpios 1))
    fail2 ret
  let fail4 (ret : Int) : Code Int := do
    let irq ← call (.loadIrq 0)
    run (.freeIrq irq .null)
    fail3 ret
  let ret ← call (.gpioRequest ledGpio)
  if ret ≠ 0 then return ret
  let ret ← call (.gpioRequest (buttonGpios 0))
  if ret ≠ 0 then return ← fail1 ret
  let ret ← call (.gpioRequest (buttonGpios 1))
  if ret ≠ 0 then return ← fail2 ret
  let _ ← call (.gpioGetValue (buttonGpios 0))
  let ret ← call (.gpioToIrq (buttonGpios 0))
  if ret < 0 then return ← fail3 ret
  run (.storeIrq 0 ret)
  let irq ← call (.loadIrq 0)
  let ret ← call (.requestIrq irq .null)
  if ret ≠ 0 then return ← fail3 ret
  let ret ← call (.gpioToIrq (buttonGpios 1))
  if ret < 0 then return ← fail4 ret
  run (.storeIrq 1 ret)
  let irq ← call (.loadIrq 1)
  let ret ← call (.requestIrq irq .null)
  if ret ≠ 0 then return ← fail4 ret
  return 0

/-- `bottomhalf_init` with `NO_GPIO_REQUEST_ARRAY`, of bottomhalf.c and of
bh_threaded.c. -/
def bottomhalfInit : Code Int := do
  let fail2 (ret : Int) : Code Int := do
    run (.gpioFree ledGpio)
    return ret
  let fail3 (ret : Int) : Code Int := do
    run (.gpioFree (buttonGpios 0))
    fail2 ret
  let fail4 (ret : Int) : Code Int := do
    run (.gpioFree (buttonGpios 1))
    fail3 ret
  let fail5 (ret : Int) : Code Int := do
    let irq ← call (.loadIrq 0)
    run (.freeIrq irq .null)
    fail4 ret
  let ret ← call (.gpioRequest ledGpio)
  if ret ≠ 0 then return ret
  let ret ← call (.gpioDirectionOutput ledGpio 0)
  if ret ≠ 0 then return ← fail2 ret
  let ret ← call (.gpioRequest (buttonGpios 0))
  if ret ≠ 0 then return ← fail2 ret
  let ret ← call (.gpioRequest (buttonGpios 1))
  if ret ≠ 0 then return ← fail3 ret
  let ret ← call (.gpioDirectionInput (buttonGpios 0))
  if ret ≠ 0 then return ← fail4 ret
  let ret ← call (.gpioDirectionInput (buttonGpios 1))
  if ret ≠ 0 then return ← fail4 ret
  let _ ← call (.gpioGetValue (buttonGpios 0))
  let ret ← call (.gpioToIrq (buttonGpios 0))
  if ret < 0 then return ← fail4 ret
  run (.storeIrq 0 ret)
  let irq ← call (.loadIrq 0)
  let ret ← call (.requestIrq irq .null)
  if ret ≠ 0 then return ← fail4 ret
  let ret ← call (.gpioToIrq (buttonGpios 1))
  if ret < 0 then return ← fail5 ret
  run (.storeIrq 1 ret)
  let irq ← call (.loadIrq 1)
  let ret ← call (.requestIrq irq .null)
  if ret ≠ 0 then return ← fail5 ret
  return 0

/-- The init function of each driver without `NO_GPIO_REQUEST_ARRAY`; they differ in
the `dev_id` of the handlers. -/
def arrayInit (dev : Fin 2 → DevId) : Code Int := do
  let fail1 (ret : Int) : Code Int := do
    run (.gpioFreeArray ledArray)
    return ret
  let fail2 (ret : Int) : Code Int := do
    run (.gpioFreeArray buttonArray)
    fail1 ret
  let fail3 (ret : Int) : Code Int := do
    let irq ← call (.loadIrq 0)
    run (.freeIrq irq (dev 0))
    fail2 ret
  let ret ← call (.gpioRequestArray ledArray)
  if ret ≠ 0 then return ret
  let ret ← call (.gpioRequestArray buttonArray)
  if ret ≠ 0 then return ← fail1 ret
  let _ ← call (.gpioGetValue (buttons 0).gpio)
  let ret ← call (.gpioToIrq (buttons 0).gpio)
  if ret < 0 then return ← fail2 ret
  run (.storeIrq 0 ret)
  let irq ← call (.loadIrq 0)
  let ret ← call (.requestIrq irq (dev 0))
  if ret ≠ 0 then return ← fail2 ret
  let ret ← call (.gpioToIrq (buttons 1).gpio)
  -- the first handler is registered here, and `fail2` does not free it
  if ret < 0 then return ← fail2 ret
  run (.storeIrq 1 ret)
  let irq ← call (.loadIrq 1)
  let ret ← call (.requestIrq irq (dev 1))
  if ret ≠ 0 then return ← fail3 ret
  return 0

/-! ## The exit functions -/

/-- `intrpt_exit` and `bottomhalf_exit` with `NO_GPIO_REQUEST_ARRAY`. -/
def plainExit : Code Unit := do
  let irq ← call (.loadIrq 0)
  run (.freeIrq irq .null)
  let irq ← call (.loadIrq 1)
  run (.freeIrq irq .null)
  run (.gpioSetValue ledGpio 0)
  run (.gpioFree ledGpio)
  run (.gpioFree (buttonGpios 0))
  run (.gpioFree (buttonGpios 1))
  return

/-- The exit functions without it. -/
def arrayExit (dev : Fin 2 → DevId) : Code Unit := do
  let irq ← call (.loadIrq 0)
  run (.freeIrq irq (dev 0))
  let irq ← call (.loadIrq 1)
  run (.freeIrq irq (dev 1))
  ledArray.forM fun l => run (.gpioSetValue l.gpio 0)
  run (.gpioFreeArray ledArray)
  run (.gpioFreeArray buttonArray)
  return

/-! ## The handlers -/

/-- `irq == button_irqs[i] && gpio_get_value(led_gpio)`, or with `!` before the second
call.  In the other build the LED is `leds[0].gpio`. -/
def pressed (irq : Int) (i : Fin 2) (lit : Bool) : Code Bool := do
  let button ← call (.loadIrq i)
  if irq = button then
    let value ← call (.gpioGetValue ledGpio)
    return decide (value ≠ 0) = lit
  else return false

/-- What `button_isr` does to the LED. -/
def switchLed (irq : Int) : Code Unit := do
  if ← pressed irq 0 false then run (.gpioSetValue ledGpio 1)
  else if ← pressed irq 1 true then run (.gpioSetValue ledGpio 0)

structure Driver where
  init : Code Int
  exit : Code Unit
  /-- The handler registered for both buttons. -/
  handler : Int → Code Unit

/-- The `dev_id`s of the array build of bh_threaded.c. -/
def buttonDev (i : Fin 2) : DevId := .button i

def nullDev (_ : Fin 2) : DevId := .null

def intrpt : Build → Driver
  | .noRequestArray => ⟨intrptInit, plainExit, switchLed⟩
  | .requestArray => ⟨arrayInit nullDev, arrayExit nullDev, switchLed⟩

/-- `button_isr` of bottomhalf.c. -/
def bottomhalfIsr (irq : Int) : Code Unit := do
  switchLed irq
  run .scheduleWork

def bottomhalf : Build → Driver
  | .noRequestArray => ⟨bottomhalfInit, plainExit, bottomhalfIsr⟩
  | .requestArray => ⟨arrayInit nullDev, arrayExit nullDev, bottomhalfIsr⟩

/-- `button_top_half` and `button_bottom_half` make none of the calls. -/
def threadedHandler (_ : Int) : Code Unit := return

def bhThreaded : Build → Driver
  | .noRequestArray => ⟨bottomhalfInit, plainExit, threadedHandler⟩
  | .requestArray => ⟨arrayInit buttonDev, arrayExit buttonDev, threadedHandler⟩

inductive File where
  | intrpt
  | bottomhalf
  | bhThreaded
  deriving DecidableEq

def driver : File → Build → Driver
  | .intrpt, build => intrpt build
  | .bottomhalf, build => bottomhalf build
  | .bhThreaded, build => bhThreaded build

/-! ## One load of a driver -/

inductive Phase where
  | init (rest : Code Int)
  /-- The init function returned an error. -/
  | failed (ret : Int)
  | loaded
  | exit (rest : Code Unit)
  /-- The exit function has returned. -/
  | unloaded

/-- `bottomhalf_work`. -/
structure Work where
  queued : Bool
  running : Bool
  deriving DecidableEq

def Work.idle (w : Work) : Bool := !w.queued && !w.running

structure Load where
  phase : Phase
  res : Resources
  /-- The handlers that run, each with the rest of its code. -/
  isrs : List (Handler × Code Unit)
  work : Work

inductive Action where
  /-- The next call of the init or the exit function, or its return. -/
  | call (answer : Int)
  | unload
  | interrupt (h : Handler)
  /-- The next call of one of the handlers that run, or its return. -/
  | isr (k : Nat) (answer : Int)
  | workStart
  | workEnd

namespace Phase

/-- The module is not loaded. -/
def idle : Phase → Bool
  | .failed _ | .unloaded => true
  | .init _ | .loaded | .exit _ => false

/-- The next call of the module's code. -/
def next : Phase → Option Call
  | .init (.call c _) | .exit (.call c _) => some c
  | _ => none

/-- What is left of the module's code once its next call is answered. -/
def after : Phase → Int → Phase
  | .init (.call _ next), a => .init (next a)
  | .exit (.call _ next), a => .exit (next a)
  | phase, _ => phase

/-- Only the init and the exit function make calls. -/
theorem next_cases {phase : Phase} {c : Call} (at_ : phase.next = some c) :
    (∃ rest, phase = .init (.call c rest)) ∨ ∃ rest, phase = .exit (.call c rest) := by
  cases phase with
  | init rest =>
      cases rest with
      | ret _ => cases at_
      | call c' rest =>
          cases at_
          exact .inl ⟨rest, rfl⟩
  | exit rest =>
      cases rest with
      | ret _ => cases at_
      | call c' rest =>
          cases at_
          exact .inr ⟨rest, rfl⟩
  | failed _ | loaded | unloaded => cases at_

end Phase

namespace Load

variable (d : Driver) (l : Load)

def running : List Handler := l.isrs.map Prod.fst

def callStep (a : Int) : Option Load :=
  match l.phase with
  | .init (.ret ret) => some { l with phase := if ret < 0 then .failed ret else .loaded }
  | .init (.call c next) =>
      (l.res.perform l.running c a).map fun r => { l with res := r, phase := .init (next a) }
  | .exit (.ret _) => some { l with phase := .unloaded }
  | .exit (.call c next) =>
      (l.res.perform l.running c a).map fun r => { l with res := r, phase := .exit (next a) }
  | .failed _ | .loaded | .unloaded => none

/-- `schedule_work(&bottomhalf_work)` queues it, unless it is queued. -/
def schedule : Call → Load
  | .scheduleWork => { l with work := { l.work with queued := true } }
  | _ => l

def isrStep (k : Nat) (a : Int) : Option Load :=
  match l.isrs[k]? with
  | some (_, .ret _) => some { l with isrs := l.isrs.eraseIdx k }
  | some (h, .call c next) =>
      (l.res.perform [] c a).map fun r =>
        { l.schedule c with res := r, isrs := l.isrs.set k (h, next a) }
  | none => none

def step : Action → Option Load
  | .call a => l.callStep a
  | .unload =>
      match l.phase with
      | .loaded => some { l with phase := .exit d.exit }
      | _ => none
  | .interrupt h =>
      if h ∈ l.res.handlers then some { l with isrs := (h, d.handler h.1) :: l.isrs } else none
  | .isr k a => l.isrStep k a
  | .workStart =>
      if l.work.queued ∧ ¬ l.work.running then some { l with work := ⟨false, true⟩ } else none
  | .workEnd =>
      if l.work.running then some { l with work := { l.work with running := false } } else none

/-- The module's code returns, or it makes its next call. -/
theorem callStep_cases {l l' : Load} {a : Int} (stepped : l.callStep a = some l') :
    (∃ ret, l.phase = .init (.ret ret) ∧
      l' = { l with phase := if ret < 0 then .failed ret else .loaded }) ∨
    (l.phase = .exit (.ret ()) ∧ l' = { l with phase := .unloaded }) ∨
    ∃ c r, l.phase.next = some c ∧ l.res.perform l.running c a = some r ∧
      l' = { l with res := r, phase := l.phase.after a } := by
  unfold callStep at stepped
  split at stepped
  · rename_i ret at_
    cases stepped
    exact .inl ⟨ret, at_, rfl⟩
  · rename_i c rest at_
    obtain ⟨r, performed, rfl⟩ := Option.map_eq_some_iff.1 stepped
    rw [at_]
    exact .inr (.inr ⟨c, r, rfl, performed, rfl⟩)
  · rename_i at_
    cases stepped
    exact .inr (.inl ⟨at_, rfl⟩)
  · rename_i c rest at_
    obtain ⟨r, performed, rfl⟩ := Option.map_eq_some_iff.1 stepped
    rw [at_]
    exact .inr (.inr ⟨c, r, rfl, performed, rfl⟩)
  all_goals cases stepped

end Load

/-- The driver, loaded any number of times. -/
def Driver.component (d : Driver) : Component Load Action where
  start := ⟨.init d.init, .start, [], ⟨false, false⟩⟩
  idle l := l.phase.idle
  step l := l.step d

end Lkmpg.Buttons
