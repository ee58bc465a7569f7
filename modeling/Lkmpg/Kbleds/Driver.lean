/-
# Lkmpg.Kbleds.Driver -- kbleds.c, from insmod to the end of rmmod

The timer is on the list of a CPU from `add_timer` to the time it expires, and its
function then runs beside everything else, a step at a time.  `timer_delete_sync` waits
while the function runs, then takes the timer off the list.  The user switches consoles.

`log` has the calls of `ioctl` with `KDSETLED`, each with its time.
-/
import Lkmpg.Theory.System

namespace Lkmpg.Kbleds

open Lkmpg.Theory

set_option autoImplicit false

def ALL_LEDS_ON : Nat := 0x07

def RESTORE_LEDS : Nat := 0xFF

/-- `BLINK_DELAY`, in ticks. -/
def blinkDelay (hz : Nat) : Nat := hz / 5

/-- Where `my_timer_func` is. -/
inductive FuncPc (Tty : Type) where
  /-- Before it looks up `vc_cons[fg_console].d->port.tty`. -/
  | tty
  | status (t : Tty)
  | ioctl (t : Tty)
  | expires
  | addTimer
  deriving DecidableEq

/-- Where the module is. -/
inductive Phase where
  /-- `kbleds_init`, after `timer_setup`. -/
  | initExpires
  | initAddTimer
  | loaded
  /-- `kbleds_cleanup`. -/
  | deleteSync
  | restore
  | removed
  deriving DecidableEq

/-- A call of `ioctl` with `KDSETLED`. -/
structure Kdsetled (Tty : Type) where
  time : Nat
  tty : Tty
  status : Nat
  deriving DecidableEq

structure State (Tty : Type) where
  jiffies : Nat
  /-- `vc_cons[fg_console].d->port.tty`. -/
  foreground : Tty
  kbledstatus : Nat
  /-- `my_timer`: its `expires`, and whether it is on a list. -/
  expires : Nat
  pending : Bool
  func : Option (FuncPc Tty)
  phase : Phase
  log : List (Kdsetled Tty)
  /-- `add_timer` has been called for a timer on a list. -/
  misused : Bool

inductive Action (Tty : Type) where
  | tick
  | switch (t : Tty)
  /-- The timer expires. -/
  | softirq
  /-- The next step of `my_timer_func`. -/
  | func
  | rmmod
  /-- The next step of `kbleds_init` or `kbleds_cleanup`. -/
  | module

variable {Tty : Type} (hz : Nat)

namespace State

def addTimer (s : State Tty) : State Tty :=
  if s.pending then { s with misused := true } else { s with pending := true }

@[simp] theorem addTimer_func (s : State Tty) : s.addTimer.func = s.func := by
  unfold addTimer
  split <;> rfl

@[simp] theorem addTimer_log (s : State Tty) : s.addTimer.log = s.log := by
  unfold addTimer
  split <;> rfl

def ioctl (s : State Tty) (t : Tty) (status : Nat) : State Tty :=
  { s with log := s.log ++ [⟨s.jiffies, t, status⟩] }

end State

def funcStep (s : State Tty) : FuncPc Tty → State Tty
  | .tty => { s with func := some (.status s.foreground) }
  | .status t =>
      { s with
        kbledstatus := if s.kbledstatus = ALL_LEDS_ON then RESTORE_LEDS else ALL_LEDS_ON
        func := some (.ioctl t) }
  | .ioctl t => { s.ioctl t s.kbledstatus with func := some .expires }
  | .expires => { s with expires := s.jiffies + blinkDelay hz, func := some .addTimer }
  | .addTimer => { s.addTimer with func := none }

def moduleStep (s : State Tty) : Option (State Tty) :=
  match s.phase with
  | .initExpires => some { s with expires := s.jiffies + blinkDelay hz, phase := .initAddTimer }
  | .initAddTimer => some { s.addTimer with phase := .loaded }
  | .deleteSync =>
      if s.func.isSome then none else some { s with pending := false, phase := .restore }
  | .restore => some { s.ioctl s.foreground RESTORE_LEDS with phase := .removed }
  | .loaded | .removed => none

def step (s : State Tty) : Action Tty → Option (State Tty)
  | .tick => some { s with jiffies := s.jiffies + 1 }
  | .switch t => some { s with foreground := t }
  | .softirq =>
      if s.pending ∧ s.expires ≤ s.jiffies ∧ s.func = none then
        some { s with pending := false, func := some .tty }
      else none
  | .func => s.func.map (funcStep hz s)
  | .rmmod => if s.phase = .loaded then some { s with phase := .deleteSync } else none
  | .module => moduleStep hz s

/-- `insmod`, at some time and on some console. -/
def start (jiffies : Nat) (foreground : Tty) : State Tty where
  jiffies := jiffies
  foreground := foreground
  kbledstatus := 0
  expires := 0
  pending := false
  func := none
  phase := .initExpires
  log := []
  misused := false

def system (Tty : Type) : System (State Tty) (Action Tty) where
  Start s := ∃ jiffies foreground, s = start jiffies foreground
  step := step hz

end Lkmpg.Kbleds
