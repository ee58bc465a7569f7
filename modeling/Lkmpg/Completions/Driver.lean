/-
# Lkmpg.Completions.Driver -- completions.c, step by step

Each load of the module has its own `crank_comp`, `flywheel_comp` and pair of
threads (`Theory.Component`).  A step is one call of `completions_init` or
`completions_exit`, or one call of a thread.  A thread that an unload leaves behind
goes on in the memory of its load.

`kthread_complete_and_exit`, `complete_and_exit` before 5.17, is kernel code: a thread
has left the module when it enters it.
-/
import Lkmpg.Kernel.Library
import Lkmpg.Theory.Component
import Mathlib.Logic.Function.Basic

namespace Lkmpg.Completions

open Lkmpg.Kernel Lkmpg.Theory

set_option autoImplicit false

inductive Who where
  | crank
  | flywheel
  deriving DecidableEq

/-- Where a thread is, in `machine_crank_thread` or `machine_flywheel_spinup_thread`. -/
inductive ThreadPc where
  | absent
  /-- Created, and not woken. -/
  | created
  /-- In `wait_for_completion(&crank_comp)`. -/
  | wait
  /-- Before the `pr_info`. -/
  | print
  | completeAll
  /-- Before the call of `kthread_complete_and_exit`. -/
  | completeAndExit
  /-- In `kthread_complete_and_exit`, before its `complete`. -/
  | leaving
  | gone
  deriving DecidableEq

/-- The thread is at a point of its function. -/
def ThreadPc.inside : ThreadPc → Bool
  | .wait | .print | .completeAll | .completeAndExit => true
  | .absent | .created | .leaving | .gone => false

/-- Where the first call of each thread is. -/
def Who.entry : Who → ThreadPc
  | .crank => .print
  | .flywheel => .wait

inductive ModulePc where
  /-- In `completions_init`, before the calls in their order. -/
  | initCrankComp
  | initFlywheelComp
  | createCrank
  | createFlywheel
  | wakeFlywheel
  | wakeCrank
  /-- At `ERROR_THREAD_2`. -/
  | stopCrank
  /-- `completions_init` returned an error. -/
  | failed (ret : Int)
  | loaded
  /-- In `completions_exit`, in the first wait. -/
  | waitCrank
  | waitFlywheel
  /-- Before the `pr_info` and the return. -/
  | leave
  /-- `completions_exit` has returned. -/
  | unloaded
  deriving DecidableEq

structure Load where
  pc : ModulePc
  /-- `crank_comp` and `flywheel_comp`. -/
  comp : Who → Nat
  thread : Who → ThreadPc

namespace Load

def start : Load := ⟨.initCrankComp, fun _ => 0, fun _ => .absent⟩

variable (l : Load)

def goto (pc : ModulePc) : Load := { l with pc := pc }

def setComp (w : Who) (done : Nat) : Load := { l with comp := Function.update l.comp w done }

def setThread (w : Who) (pc : ThreadPc) : Load :=
  { l with thread := Function.update l.thread w pc }

/-- `wake_up_process`. -/
def wakeUpProcess (w : Who) : Load :=
  if l.thread w = .created then l.setThread w w.entry else l

/-- The next call of a thread. -/
def threadStep (w : Who) : Option Load :=
  match l.thread w with
  | .wait =>
      (waitForCompletion (l.comp .crank)).map fun left =>
        (l.setComp .crank left).setThread w .print
  | .print => some (l.setThread w .completeAll)
  | .completeAll => some ((l.setComp w UINT_MAX).setThread w .completeAndExit)
  | .completeAndExit => some (l.setThread w .leaving)
  | .leaving => some ((l.setComp w (complete (l.comp w))).setThread w .gone)
  | .absent | .created | .gone => none

/-- The next call of `completions_init` or `completions_exit`; `created` is what
`kthread_create` answers.  `kthread_stop` ends a thread that was not woken before it
enters its function. -/
def moduleStep (created : Bool) : Option Load :=
  match l.pc with
  | .initCrankComp => some ((l.setComp .crank 0).goto .initFlywheelComp)
  | .initFlywheelComp => some ((l.setComp .flywheel 0).goto .createCrank)
  | .createCrank =>
      some (if created then (l.setThread .crank .created).goto .createFlywheel
        else l.goto (.failed (-1)))
  | .createFlywheel =>
      some (if created then (l.setThread .flywheel .created).goto .wakeFlywheel
        else l.goto .stopCrank)
  | .wakeFlywheel => some ((l.wakeUpProcess .flywheel).goto .wakeCrank)
  | .wakeCrank => some ((l.wakeUpProcess .crank).goto .loaded)
  | .stopCrank => some ((l.setThread .crank .gone).goto (.failed (-1)))
  | .loaded => some (l.goto .waitCrank)
  | .waitCrank =>
      (waitForCompletion (l.comp .crank)).map fun left =>
        (l.setComp .crank left).goto .waitFlywheel
  | .waitFlywheel =>
      (waitForCompletion (l.comp .flywheel)).map fun left =>
        (l.setComp .flywheel left).goto .leave
  | .leave => some (l.goto .unloaded)
  | .failed _ | .unloaded => none

end Load

/-- The module can be loaded. -/
def ModulePc.idle : ModulePc → Bool
  | .failed _ | .unloaded => true
  | _ => false

inductive Action where
  /-- The next call of `completions_init` or `completions_exit`. -/
  | module (created : Bool)
  | thread (w : Who)

def Load.step (l : Load) : Action → Option Load
  | .module created => l.moduleStep created
  | .thread w => l.threadStep w

/-- The module, loaded any number of times. -/
def completions : Component Load Action where
  start := .start
  idle l := l.pc.idle
  step := Load.step

end Lkmpg.Completions
