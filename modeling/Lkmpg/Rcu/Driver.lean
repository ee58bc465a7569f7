/-
# Lkmpg.Rcu.Driver -- example_rcu.c, step by step

Any number of callers are in `update_data`, `example_rcu_init` or
`example_rcu_exit`, and any number of threads run the loop of `reader_thread_fn`.
A step is one access to `shared_data`, to the memory of an object or to
`data_lock`, or one call of the kernel.

An object is the number of the `kmalloc` that gave it.  A read-side section has a
number too: `synchronize_rcu` takes note of the number the next section will get,
and returns once no section with a smaller one is in progress.
-/
import Lkmpg.Kernel.Library
import Lkmpg.Theory.System
import Mathlib.Logic.Function.Basic

namespace Lkmpg.Rcu

open Lkmpg.Kernel Lkmpg.Theory

set_option autoImplicit false

/-! ## Read-side sections -/

/-- The sections in progress, each with who is in it and its number. -/
structure Sections (R : Type) where
  clock : Nat
  inside : List (R × Nat)

namespace Sections

variable {R : Type} (u : Sections R)

/-- `rcu_read_lock()`. -/
def readLock (r : R) : Sections R := ⟨u.clock + 1, (r, u.clock) :: u.inside⟩

/-- `rcu_read_unlock()`. -/
def readUnlock [DecidableEq R] (r : R) : Sections R :=
  { u with inside := u.inside.filter fun i => i.1 ≠ r }

/-- The sections that had begun at the limit have ended. -/
def quiet (limit : Nat) : Bool := u.inside.all fun i => limit ≤ i.2

@[simp] theorem mem_readLock {r q : R} {n : Nat} :
    (q, n) ∈ (u.readLock r).inside ↔ (q = r ∧ n = u.clock) ∨ (q, n) ∈ u.inside := by
  simp [readLock]

@[simp] theorem mem_readUnlock [DecidableEq R] {r q : R} {n : Nat} :
    (q, n) ∈ (u.readUnlock r).inside ↔ (q, n) ∈ u.inside ∧ q ≠ r := by
  simp [readUnlock]

theorem le_of_quiet {limit n : Nat} {r : R} (quiet : u.quiet limit = true)
    (inside : (r, n) ∈ u.inside) : limit ≤ n := by
  simpa using List.all_eq_true.1 quiet (r, n) inside

end Sections

/-! ## Callers and readers -/

/-- Where `update_data` goes back to. -/
inductive From where
  /-- It was called by itself. -/
  | call
  /-- `update_data(42)` of `example_rcu_init`. -/
  | init42
  /-- `update_data(100)` of `example_rcu_init`. -/
  | init100
  /-- The code is that of `example_rcu_exit`, which does the same with `NULL`. -/
  | exit
  deriving DecidableEq

inductive Pc where
  /-- In no call. -/
  | outside
  /-- `example_rcu_init` returned an error. -/
  | failed (ret : Int)
  /-- In `update_data`, before its `kmalloc`. -/
  | kmalloc (value : Int) (back : From)
  /-- Before `new_p->value = new_value`. -/
  | fill (value : Int) (new : Nat) (back : From)
  /-- Before `spin_lock`. -/
  | lock (new : Option Nat) (back : From)
  /-- Before `rcu_dereference_protected`. -/
  | deref (new : Option Nat) (back : From)
  /-- Before `rcu_assign_pointer` or `RCU_INIT_POINTER`. -/
  | assign (new old : Option Nat) (back : From)
  /-- Before `spin_unlock`. -/
  | unlock (old : Option Nat) (back : From)
  /-- Before `if (old_p)`. -/
  | test (old : Option Nat) (back : From)
  /-- Before `synchronize_rcu`. -/
  | sync (old : Nat) (back : From)
  /-- In `synchronize_rcu`. -/
  | grace (old limit : Nat) (back : From)
  /-- Before `kfree(old_p)`. -/
  | free (old : Nat) (back : From)
  /-- In `example_rcu_init`, before its `kthread_run`. -/
  | kthreadRun
  /-- In `example_rcu_exit`, before its `kthread_stop`. -/
  | stop
  /-- In `kthread_stop`, which waits for the thread to end. -/
  | join
  deriving DecidableEq

inductive ReaderPc where
  /-- The thread does not run: it has not been started, or has ended. -/
  | gone
  /-- Before `kthread_should_stop`. -/
  | loop
  /-- Before `rcu_read_lock`. -/
  | lock
  /-- In the section `n`, before `rcu_dereference`. -/
  | deref (n : Nat)
  /-- Before `if (p)` and the read of `p->value`. -/
  | value (n : Nat) (p : Option Nat)
  /-- Before `rcu_read_unlock`; `valid` with its `val`. -/
  | unlock (n : Nat) (p : Option Nat) (val : Option Int)
  /-- Before the `pr_info`. -/
  | report (val : Option Int)
  | msleep
  deriving DecidableEq

/-- The section a reader is in, and the object it has from `rcu_dereference`. -/
def ReaderPc.section : ReaderPc → Option (Nat × Option Nat)
  | .deref n => some (n, none)
  | .value n p | .unlock n p _ => some (n, p)
  | .gone | .loop | .lock | .report _ | .msleep => none

variable (P R : Type)

structure State where
  sharedData : Option Nat
  /-- Who holds `data_lock`. -/
  dataLock : Option P
  readerThread : Option R
  /-- The number the next object gets. -/
  next : Nat
  /-- What the memory of an object holds. -/
  memory : Nat → Int
  /-- The objects `kfree` was called with, the last one first. -/
  freed : List Nat
  rcu : Sections R
  pc : P → Pc
  reader : R → ReaderPc
  /-- What `kthread_should_stop` returns to a thread. -/
  shouldStop : R → Bool

inductive Action where
  | updateData (p : P) (value : Int)
  | exampleRcuInit (p : P)
  | exampleRcuExit (p : P)
  /-- `kmalloc` returns `NULL`, or memory that holds some value. -/
  | kmalloc (p : P) (got : Option Int)
  /-- `kthread_run` returns an error, or a thread. -/
  | kthreadRun (p : P) (got : Except Int R)
  /-- The next step of the call `p` is in. -/
  | run (p : P)
  /-- Another thread is started on `reader_thread_fn`. -/
  | startReader (r : R)
  /-- The next step of a reader. -/
  | read (r : R)

variable {P R} [DecidableEq P] [DecidableEq R]

def State.goto (s : State P R) (p : P) (pc : Pc) : State P R :=
  { s with pc := Function.update s.pc p pc }

def State.readerGoto (s : State P R) (r : R) (pc : ReaderPc) : State P R :=
  { s with reader := Function.update s.reader r pc }

/-- What follows a call of `update_data`, or the end of `example_rcu_exit`. -/
def From.next : From → Pc
  | .call | .init100 | .exit => .outside
  | .init42 => .kthreadRun

/-- A thread is started on `reader_thread_fn`. -/
def State.kthread (s : State P R) (r : R) : State P R :=
  { s with shouldStop := Function.update s.shouldStop r false }.readerGoto r .loop

/-- The next step of the call `p` is in. -/
def runStep (s : State P R) (p : P) : Option (State P R) :=
  match s.pc p with
  | .fill value new back =>
      some ({ s with memory := Function.update s.memory new value }.goto p (.lock (some new) back))
  | .lock new back =>
      if s.dataLock = none then some ({ s with dataLock := some p }.goto p (.deref new back))
      else none
  | .deref new back => some (s.goto p (.assign new s.sharedData back))
  | .assign new old back => some ({ s with sharedData := new }.goto p (.unlock old back))
  | .unlock old back => some ({ s with dataLock := none }.goto p (.test old back))
  | .test none back => some (s.goto p back.next)
  | .test (some old) back => some (s.goto p (.sync old back))
  | .sync old back => some (s.goto p (.grace old s.rcu.clock back))
  | .grace old limit back => if s.rcu.quiet limit then some (s.goto p (.free old back)) else none
  | .free old back => some ({ s with freed := old :: s.freed }.goto p back.next)
  | .stop =>
      match s.readerThread with
      | some r => some ({ s with shouldStop := Function.update s.shouldStop r true }.goto p .join)
      | none => none
  | .join =>
      match s.readerThread with
      | some r => if s.reader r = .gone then some (s.goto p (.lock none .exit)) else none
      | none => none
  | .outside | .failed _ | .kmalloc _ _ | .kthreadRun => none

/-- The next step of the loop of `reader_thread_fn`. -/
def readStep (s : State P R) (r : R) : Option (State P R) :=
  match s.reader r with
  | .loop => some (s.readerGoto r (if s.shouldStop r then .gone else .lock))
  | .lock => some ({ s with rcu := s.rcu.readLock r }.readerGoto r (.deref s.rcu.clock))
  | .deref n => some (s.readerGoto r (.value n s.sharedData))
  | .value n p => some (s.readerGoto r (.unlock n p (p.map s.memory)))
  | .unlock _ _ val => some ({ s with rcu := s.rcu.readUnlock r }.readerGoto r (.report val))
  | .report _ => some (s.readerGoto r .msleep)
  | .msleep => some (s.readerGoto r .loop)
  | .gone => none

def step (s : State P R) : Action P R → Option (State P R)
  | .updateData p value =>
      match s.pc p with
      | .outside | .failed _ => some (s.goto p (.kmalloc value .call))
      | _ => none
  | .exampleRcuInit p =>
      match s.pc p with
      | .outside | .failed _ => some (s.goto p (.kmalloc 42 .init42))
      | _ => none
  | .exampleRcuExit p =>
      match s.pc p with
      | .outside | .failed _ => some (s.goto p .stop)
      | _ => none
  | .kmalloc p got =>
      match s.pc p, got with
      | .kmalloc value back, some garbage =>
          some ({ s with
            next := s.next + 1
            memory := Function.update s.memory s.next garbage }.goto p (.fill value s.next back))
      | .kmalloc _ back, none => some (s.goto p back.next)
      | _, _ => none
  | .kthreadRun p got =>
      match s.pc p, got with
      | .kthreadRun, .ok r =>
          if s.reader r = .gone then
            some (({ s with readerThread := some r }.kthread r).goto p (.kmalloc 100 .init100))
          else none
      | .kthreadRun, .error ret => some (s.goto p (.failed ret))
      | _, _ => none
  | .run p => runStep s p
  | .startReader r => if s.reader r = .gone then some (s.kthread r) else none
  | .read r => readStep s r

def start : State P R where
  sharedData := none
  dataLock := none
  readerThread := none
  next := 0
  memory _ := 0
  freed := []
  rcu := ⟨0, []⟩
  pc _ := .outside
  reader _ := .gone
  shouldStop _ := false

def system (P R : Type) [DecidableEq P] [DecidableEq R] : System (State P R) (Action P R) where
  Start s := s = start
  step := step

end Lkmpg.Rcu
