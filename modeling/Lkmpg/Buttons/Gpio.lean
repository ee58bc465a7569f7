/-
# Lkmpg.Buttons.Gpio -- the GPIO and interrupt calls of the button drivers

`Resources` is what one load of a driver holds: its GPIOs, each with the direction
configured since it was requested, its interrupt handlers, and its `button_irqs`.
`perform` is what a call does to them when it is answered.

Any call that can fail may do so with any negative code, and `gpio_to_irq` may give any
number.  A free of what is not held is recorded in `misfreed`.
-/
import Lkmpg.Theory.Calls
import Mathlib.Logic.Function.Basic

namespace Lkmpg.Buttons

open Lkmpg.Theory

set_option autoImplicit false

inductive Direction where
  | input
  | output
  deriving DecidableEq

/-- `struct gpio`, without its label; `GPIOF_IN` and `GPIOF_OUT_INIT_LOW` as directions. -/
structure Gpio where
  gpio : Nat
  flags : Direction
  deriving DecidableEq

/-- The `dev_id` of a handler: `NULL`, or `&buttons[i]`. -/
inductive DevId where
  | null
  | button (i : Fin 2)
  deriving DecidableEq

/-- A registered handler: its interrupt and its `dev_id`. -/
abbrev Handler := Int × DevId

instance : LawfulBEq Handler := inferInstance

inductive Call where
  | gpioRequest (gpio : Nat)
  | gpioRequestArray (array : List Gpio)
  | gpioDirectionOutput (gpio : Nat) (value : Int)
  | gpioDirectionInput (gpio : Nat)
  | gpioGetValue (gpio : Nat)
  | gpioSetValue (gpio : Nat) (value : Int)
  | gpioToIrq (gpio : Nat)
  /-- A read of `button_irqs[i]`, and an assignment to it. -/
  | loadIrq (i : Fin 2)
  | storeIrq (i : Fin 2) (irq : Int)
  /-- `request_irq` or `request_threaded_irq`. -/
  | requestIrq (irq : Int) (dev : DevId)
  | freeIrq (irq : Int) (dev : DevId)
  | gpioFree (gpio : Nat)
  | gpioFreeArray (array : List Gpio)
  | scheduleWork
  deriving DecidableEq

structure Resources where
  buttonIrqs : Fin 2 → Int
  /-- The GPIOs held, each with its direction once that is configured. -/
  held : List (Nat × Option Direction)
  handlers : List Handler
  misfreed : Bool

namespace Resources

def start : Resources := ⟨fun _ => -1, [], [], false⟩

variable (r : Resources)

def gpioFree (gpio : Nat) : Resources :=
  if r.held.any fun h => h.1 = gpio then { r with held := r.held.eraseP fun h => h.1 = gpio }
  else { r with misfreed := true }

def freeIrq (h : Handler) : Resources :=
  if h ∈ r.handlers then { r with handlers := r.handlers.erase h }
  else { r with misfreed := true }

def configure (gpio : Nat) (direction : Direction) : Resources :=
  { r with held := r.held.map fun h => if h.1 = gpio then (gpio, some direction) else h }

/-- A call that returns 0 with `done`, or a negative code with nothing changed. -/
def outcome (a : Int) (done : Resources) : Option Resources :=
  if a = 0 then some done else if a < 0 then some r else none

theorem outcome_cases {r done t : Resources} {a : Int} (performed : r.outcome a done = some t) :
    t = done ∨ t = r := by
  unfold outcome at performed
  split at performed
  · cases performed
    exact .inl rfl
  · split at performed <;> cases performed
    exact .inr rfl

theorem gpioFree_handlers (gpio : Nat) : (r.gpioFree gpio).handlers = r.handlers := by
  unfold gpioFree
  split <;> rfl

/-- `gpio_free_array`. -/
def gpioFreeArray (array : List Gpio) : Resources := array.foldl (fun r g => r.gpioFree g.gpio) r

theorem gpioFreeArray_handlers (array : List Gpio) :
    (r.gpioFreeArray array).handlers = r.handlers := by
  induction array generalizing r with
  | nil => rfl
  | cons g array ih => exact (ih (r.gpioFree g.gpio)).trans (gpioFree_handlers r g.gpio)

/-- `free_irq` returns once the handler does not run. -/
def perform (running : List Handler) : Call → Int → Option Resources
  | .gpioRequest gpio, a => r.outcome a { r with held := (gpio, none) :: r.held }
  | .gpioRequestArray array, a =>
      r.outcome a { r with held := array.map (fun g => (g.gpio, some g.flags)) ++ r.held }
  | .gpioDirectionOutput gpio _, a => r.outcome a (r.configure gpio .output)
  | .gpioDirectionInput gpio, a => r.outcome a (r.configure gpio .input)
  | .gpioGetValue _, _ | .gpioSetValue _ _, _ | .gpioToIrq _, _ | .scheduleWork, _ => some r
  | .loadIrq i, a => if a = r.buttonIrqs i then some r else none
  | .storeIrq i irq, _ => some { r with buttonIrqs := Function.update r.buttonIrqs i irq }
  | .requestIrq irq dev, a => r.outcome a { r with handlers := (irq, dev) :: r.handlers }
  | .freeIrq irq dev, _ => if (irq, dev) ∈ running then none else some (r.freeIrq (irq, dev))
  | .gpioFree gpio, _ => some (r.gpioFree gpio)
  | .gpioFreeArray array, _ => some (r.gpioFreeArray array)

/-! The handlers are freed in the order they were registered. -/

@[simp] theorem freeIrq_last (irqs : Fin 2 → Int) (held : List (Nat × Option Direction))
    (h : Handler) (hs : List Handler) (misfreed : Bool) :
    freeIrq ⟨irqs, held, h :: hs, misfreed⟩ h = ⟨irqs, held, hs, misfreed⟩ := by
  simp [freeIrq]

@[simp] theorem freeIrq_before (irqs : Fin 2 → Int) (held : List (Nat × Option Direction))
    (h last : Handler) (hs : List Handler) (misfreed : Bool) :
    freeIrq ⟨irqs, held, last :: h :: hs, misfreed⟩ h = ⟨irqs, held, last :: hs, misfreed⟩ := by
  by_cases same : last = h
  · subst same
    simp
  · simp [freeIrq, same]

end Resources

abbrev Code := Calls Call Int

/-- A call whose answer is used, and one whose answer is not. -/
def call (c : Call) : Code Int := .one c

def run (c : Call) : Code Unit := .call c fun _ => .ret ()

/-- A handler that runs can only hold a call up. -/
theorem perform_idle {r t : Resources} {running : List Handler} {c : Call} {a : Int}
    (done : r.perform running c a = some t) : r.perform [] c a = some t := by
  cases c with
  | freeIrq irq dev =>
      simp only [Resources.perform] at done
      split at done <;> cases done
      simp [Resources.perform]
  | _ => exact done

end Lkmpg.Buttons
