/-
# Lkmpg.Sleep.Driver -- sleep.c, step by step

Any number of processes open, use and close `/proc/sleep`.  The steps are the
atomic operations on `already_open`, the three parts of
`wait_event_interruptible` (join the queue, test the condition, sleep), a signal
that ends the wait, the test of the signal masks, `wake_up`, and one whole
`module_output` or `module_input` of a process that has the file open.

`wake_up` takes every entry off the queue, so a process is woken once it is no
longer on `waitq`; one that was about to sleep then goes round the wait again.
-/
import Lkmpg.Kernel.Library
import Lkmpg.Theory.Bytes
import Lkmpg.Theory.System

namespace Lkmpg.Sleep

open Lkmpg.Kernel Lkmpg.Theory

set_option autoImplicit false

/-! ## The message -/

def MESSAGE_LENGTH : Nat := 80

/-- The static data of the driver: `message` and the `finished` of `module_output`. -/
structure Data where
  message : List UInt8
  finished : Bool
  message_len : message.length = MESSAGE_LENGTH

def Data.init : Data := ⟨List.replicate MESSAGE_LENGTH 0, false, List.length_replicate⟩

/-- `for (i = 0; i < len && s[i]; i++)`: the bytes it copies. -/
def copyOut : List UInt8 → Nat → List UInt8
  | [], _ => []
  | _, 0 => []
  | b :: bs, len + 1 => if b = 0 then [] else b :: copyOut bs len

/-- `sprintf(output_msg, "Last input:%s\n", message)`. -/
def Data.outputMsg (d : Data) : List UInt8 :=
  text "Last input:" ++ cstr d.message ++ text "\n"

/-- The data afterwards, and the bytes put in the user buffer. -/
def moduleOutput (d : Data) (len : Nat) : Data × List UInt8 :=
  if d.finished then ({ d with finished := false }, [])
  else ({ d with finished := true }, copyOut d.outputMsg len)

/-- The data afterwards, and the number of characters used. -/
def moduleInput (d : Data) (buf : List UInt8) : Data × Nat :=
  let used := buf.take (MESSAGE_LENGTH - 1)
  ({ d with
    message := splice d.message 0 (used ++ [0])
    message_len := by
      rw [length_splice, d.message_len]
      rw [d.message_len]
      simp only [used, List.length_append, List.length_take, MESSAGE_LENGTH, List.length_singleton]
      omega }, used.length)

/-! ## Signals -/

/-- The loop over the `_NSIG_WORDS` words of `pending` and `blocked`, its result an
`int`.  On a 64-bit machine there is one word. -/
def isSig : List (BitVec 64 × BitVec 64) → BitVec 32
  | [] => 0
  | (pending, blocked) :: words =>
      let here := (pending &&& ~~~blocked).setWidth 32
      if here = 0 then isSig words else here

/-! ## Processes -/

inductive Pc where
  /-- In no call, with no file open. -/
  | outside
  /-- In `module_open`, before the first `atomic_cmpxchg`. -/
  | tryOpen (nonblock : Bool)
  /-- Before the test of `O_NONBLOCK`. -/
  | flags (nonblock : Bool)
  /-- Before the `atomic_cmpxchg` of the loop. -/
  | retry
  /-- In `wait_event_interruptible`: before it joins `waitq`. -/
  | join
  /-- On `waitq`, before it tests the condition. -/
  | test
  /-- The condition was false; about to sleep. -/
  | sleep
  | asleep
  /-- Past the wait, before the loop over the signal words. -/
  | signals
  /-- `module_open` returned an error. -/
  | failed (ret : Int)
  /-- `module_open` returned 0. -/
  | opened
  /-- In `module_close`, before its `atomic_set`. -/
  | closing
  /-- In `module_close`, before its `wake_up`. -/
  | waking
  deriving DecidableEq

variable (P : Type)

structure State where
  alreadyOpen : Int
  data : Data
  /-- The entries on `waitq`. -/
  waitq : P → Bool
  pc : P → Pc

inductive Action where
  | moduleOpen (p : P) (nonblock : Bool)
  /-- The next step of the call in progress. -/
  | run (p : P)
  /-- A signal ends the wait. -/
  | signal (p : P)
  | checkSignals (p : P) (pending blocked : BitVec 64)
  | moduleOutput (p : P) (len : Nat)
  | moduleInput (p : P) (buf : List UInt8)
  | moduleClose (p : P)

variable {P}

def Action.who : Action P → P
  | .moduleOpen p _ | .run p | .signal p | .checkSignals p _ _ | .moduleOutput p _
  | .moduleInput p _ | .moduleClose p => p

variable [DecidableEq P]

def State.goto (s : State P) (p : P) (pc : Pc) : State P :=
  { s with pc := Function.update s.pc p pc }

def State.queue (s : State P) (p : P) (on : Bool) : State P :=
  { s with waitq := Function.update s.waitq p on }

/-- `atomic_cmpxchg(&already_open, 0, 1)`: the file is taken, or `next` is where the
process goes on. -/
def State.take (s : State P) (p : P) (next : Pc) : State P :=
  let (found, left) := atomicCmpxchg s.alreadyOpen 0 1
  { s with alreadyOpen := left }.goto p (if found = 0 then .opened else next)

/-- The next step of the call `p` is in. -/
def runStep (s : State P) (p : P) : Option (State P) :=
  match s.pc p with
  | .tryOpen nonblock => some (s.take p (.flags nonblock))
  | .flags nonblock => some (s.goto p (if nonblock then .failed (-EAGAIN) else .retry))
  | .retry => some (s.take p .join)
  | .join => some ((s.queue p true).goto p .test)
  | .test =>
      if s.alreadyOpen = 0 then some ((s.queue p false).goto p .signals)
      else some (s.goto p .sleep)
  | .sleep => some (s.goto p (if s.waitq p then .asleep else .join))
  | .asleep => if s.waitq p then none else some (s.goto p .join)
  | .closing => some ({ s with alreadyOpen := 0 }.goto p .waking)
  | .waking => some ({ s with waitq := fun _ => false }.goto p .outside)
  | .outside | .signals | .failed _ | .opened => none

/-- `module_close` is called once for a `module_open` that returned 0. -/
def step (s : State P) : Action P → Option (State P)
  | .moduleOpen p nonblock =>
      match s.pc p with
      | .outside | .failed _ => some (s.goto p (.tryOpen nonblock))
      | _ => none
  | .run p => runStep s p
  | .signal p =>
      match s.pc p with
      | .sleep | .asleep => some ((s.queue p false).goto p .signals)
      | _ => none
  | .checkSignals p pending blocked =>
      match s.pc p with
      | .signals =>
          some (s.goto p (if isSig [(pending, blocked)] ≠ 0 then .failed (-EINTR) else .retry))
      | _ => none
  | .moduleOutput p len =>
      match s.pc p with
      | .opened => some { s with data := (moduleOutput s.data len).1 }
      | _ => none
  | .moduleInput p buf =>
      match s.pc p with
      | .opened => some { s with data := (moduleInput s.data buf).1 }
      | _ => none
  | .moduleClose p =>
      match s.pc p with
      | .opened => some (s.goto p .closing)
      | _ => none

def start : State P := ⟨0, Data.init, fun _ => false, fun _ => .outside⟩

def system (P : Type) [DecidableEq P] : System (State P) (Action P) where
  Start s := s = start
  step := step

/-! ## What a step leaves alone -/

@[simp] theorem goto_alreadyOpen (s : State P) (p : P) (pc : Pc) :
    (s.goto p pc).alreadyOpen = s.alreadyOpen := rfl

@[simp] theorem goto_data (s : State P) (p : P) (pc : Pc) : (s.goto p pc).data = s.data := rfl

@[simp] theorem goto_waitq (s : State P) (p : P) (pc : Pc) : (s.goto p pc).waitq = s.waitq := rfl

@[simp] theorem goto_pc_self (s : State P) (p : P) (pc : Pc) : (s.goto p pc).pc p = pc := by
  simp [State.goto]

theorem goto_pc_of_ne (s : State P) {p q : P} (pc : Pc) (ne : q ≠ p) :
    (s.goto p pc).pc q = s.pc q := by
  simp [State.goto, ne]

@[simp] theorem queue_alreadyOpen (s : State P) (p : P) (on : Bool) :
    (s.queue p on).alreadyOpen = s.alreadyOpen := rfl

@[simp] theorem queue_data (s : State P) (p : P) (on : Bool) : (s.queue p on).data = s.data := rfl

@[simp] theorem queue_pc (s : State P) (p : P) (on : Bool) : (s.queue p on).pc = s.pc := rfl

@[simp] theorem queue_waitq_self (s : State P) (p : P) (on : Bool) :
    (s.queue p on).waitq p = on := by
  simp [State.queue]

theorem queue_waitq_of_ne (s : State P) {p q : P} (on : Bool) (ne : q ≠ p) :
    (s.queue p on).waitq q = s.waitq q := by
  simp [State.queue, ne]

theorem take_free {s : State P} (free : s.alreadyOpen = 0) (p : P) (next : Pc) :
    s.take p next = { s with alreadyOpen := 1 }.goto p .opened := by
  simp [State.take, atomicCmpxchg, free]

theorem take_busy {s : State P} (busy : s.alreadyOpen ≠ 0) (p : P) (next : Pc) :
    s.take p next = s.goto p next := by
  simp [State.take, atomicCmpxchg, busy]

/-- Only the process that takes a step moves. -/
theorem step_pc_of_ne {s t : State P} {a : Action P} (next : step s a = some t) {q : P}
    (ne : q ≠ a.who) : t.pc q = s.pc q := by
  cases a with
  | run p =>
      simp only [Action.who] at ne
      simp only [step, runStep] at next
      split at next <;> (try split at next) <;> first
        | cases next; simp [State.take, State.goto, ne]
        | cases next
  | _ =>
      simp only [Action.who] at ne
      simp only [step] at next
      split at next <;> cases next <;> first
        | rfl
        | simp [State.goto, State.queue, ne]

end Lkmpg.Sleep
