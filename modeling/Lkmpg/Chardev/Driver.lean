/-
# Lkmpg.Chardev.Driver -- chardev.c, step by step

Any number of processes open, read and release `/dev/chardev`.  The steps are the
atomic operations on `already_open`, the `sprintf` of `device_open`, and each byte
`device_read` copies; between any two of them another process may take a step.

An open file carries the number of successful opens before its own, and the bytes
each finished `device_read` delivered.  An index outside `msg` has no value.
-/
import Lkmpg.Kernel.Library
import Lkmpg.Theory.Bytes
import Lkmpg.Theory.System

namespace Lkmpg.Chardev

open Lkmpg.Kernel Lkmpg.Theory

set_option autoImplicit false

def BUF_LEN : Nat := 80

def CDEV_NOT_USED : Int := 0
def CDEV_EXCLUSIVE_OPEN : Int := 1

/-- The text `device_open` prints for the counter value `n`. -/
def told (n : Int) : List UInt8 :=
  text "I already told you " ++ formatInt n ++ text " times Hello world!\n"

theorem told_ne_zero {n : Int} {b : UInt8} (member : b ∈ told n) : b ≠ 0 := by
  have front : ∀ b ∈ text "I already told you ", b ≠ 0 := ne_zero_of_all (by decide)
  have back : ∀ b ∈ text " times Hello world!\n", b ≠ 0 := ne_zero_of_all (by decide)
  have sign : ∀ b ∈ text "-", b ≠ 0 := ne_zero_of_all (by decide)
  simp only [told, formatInt, List.mem_append] at member
  rcases member with (inFront | number) | inBack
  · exact front b inFront
  · split at number
    · rcases List.mem_append.1 number with minus | digits
      · exact sign b minus
      · exact decimal_ne_zero digits
    · exact decimal_ne_zero number
  · exact back b inBack

/-- The text and its terminator fit in `msg` for every value of an `int`. -/
theorem length_told_lt (n : Int32) : (told n.toInt).length < BUF_LEN + 1 := by
  have front : (text "I already told you ").length = 19 := by decide
  have back : (text " times Hello world!\n").length = 20 := by decide
  have sign : (text "-").length = 1 := by decide
  have low := n.le_toInt
  have high := n.toInt_lt
  have digits : (decimal n.toInt.natAbs).length ≤ 10 := decimal_length_le (by omega) (by omega)
  simp only [told, formatInt, BUF_LEN, List.length_append, front, back]
  split
  · rw [List.length_append, sign]
    omega
  · omega

/-- The static data of the driver: `msg` and the counter of `device_open`. -/
structure Data where
  msg : List UInt8
  counter : Int32
  msg_len : msg.length = BUF_LEN + 1

def Data.init : Data := ⟨List.replicate (BUF_LEN + 1) 0, 0, List.length_replicate⟩

/-- `sprintf(msg, "I already told you %d times Hello world!\n", counter++)`. -/
def Data.sprintf (d : Data) : Data where
  msg := splice d.msg 0 (told d.counter.toInt ++ [0])
  counter := d.counter + 1
  msg_len := by
    have fits := length_told_lt d.counter
    rw [length_splice, d.msg_len]
    rw [d.msg_len, List.length_append, List.length_singleton]
    omega

/-- Where a process with the file is. -/
inductive Phase where
  /-- In `device_open`, before its `sprintf`. -/
  | opening
  /-- In no call. -/
  | ready
  /-- In the loop of `device_read`, with what it has put in the user buffer. -/
  | reading (length msgPtr bytesRead : Nat) (buffer : List UInt8)
  deriving DecidableEq

structure File where
  phase : Phase
  offset : Nat
  /-- What each finished `device_read` delivered, oldest first. -/
  reads : List (List UInt8)
  deriving DecidableEq

def File.new : File := ⟨.opening, 0, []⟩

inductive Move where
  | sprintf
  | deviceRead (length : Nat)
  | byte

/-- The steps of a process with the file open.  A `device_read` has a positive
length. -/
def move (f : File) (d : Data) : Move → Option (File × Data)
  | .sprintf =>
      match f.phase with
      | .opening => some ({ f with phase := .ready }, d.sprintf)
      | _ => none
  | .deviceRead length =>
      match f.phase with
      | .ready =>
          if length = 0 then none
          else
            (d.msg[f.offset]?).map fun c =>
              if c = 0 then ({ f with offset := 0, reads := f.reads ++ [[]] }, d)
              else ({ f with phase := .reading length f.offset 0 [] }, d)
      | _ => none
  | .byte =>
      match f.phase with
      | .reading length msgPtr bytesRead buffer =>
          (d.msg[msgPtr]?).map fun c =>
            if length ≠ 0 ∧ c ≠ 0 then
              ({ f with
                phase := .reading (length - 1) (msgPtr + 1) (bytesRead + 1) (buffer ++ [c]) }, d)
            else
              (⟨.ready, f.offset + bytesRead, f.reads ++ [buffer]⟩, d)
      | _ => none

variable (P : Type)

structure State where
  alreadyOpen : Int
  data : Data
  /-- The open files, each with the number of successful opens before its own. -/
  file : P → Option (Nat × File)
  opens : Nat

inductive Action where
  | deviceOpen (p : P)
  | move (p : P) (m : Move)
  | deviceRelease (p : P)

variable {P} [DecidableEq P]

/-- `device_open` up to its `sprintf`, and what it returns if it returns there. -/
def deviceOpen (s : State P) (p : P) : State P × Option Int :=
  let (found, left) := atomicCmpxchg s.alreadyOpen CDEV_NOT_USED CDEV_EXCLUSIVE_OPEN
  if found ≠ 0 then ({ s with alreadyOpen := left }, some (-EBUSY))
  else
    ({ s with
      alreadyOpen := left
      file := Function.update s.file p (some (s.opens, File.new))
      opens := s.opens + 1 }, none)

theorem deviceOpen_busy {s : State P} (busy : s.alreadyOpen ≠ CDEV_NOT_USED) (p : P) :
    deviceOpen s p = (s, some (-EBUSY)) := by
  have found : s.alreadyOpen ≠ 0 := busy
  simp [deviceOpen, atomicCmpxchg, CDEV_NOT_USED, found]

theorem deviceOpen_free {s : State P} (free : s.alreadyOpen = CDEV_NOT_USED) (p : P) :
    deviceOpen s p = ({ s with
      alreadyOpen := CDEV_EXCLUSIVE_OPEN
      file := Function.update s.file p (some (s.opens, File.new))
      opens := s.opens + 1 }, none) := by
  simp [deviceOpen, atomicCmpxchg, free, CDEV_NOT_USED]

/-- A file is released once, after its calls have returned. -/
def step (s : State P) : Action P → Option (State P)
  | .deviceOpen p => if (s.file p).isSome then none else some (deviceOpen s p).1
  | .move p m =>
      match s.file p with
      | none => none
      | some (n, f) =>
          (move f s.data m).map fun next =>
            { s with data := next.2, file := Function.update s.file p (some (n, next.1)) }
  | .deviceRelease p =>
      match s.file p with
      | none => none
      | some (_, f) =>
          if f.phase = .ready then
            some { s with alreadyOpen := CDEV_NOT_USED, file := Function.update s.file p none }
          else none

def system (P : Type) [DecidableEq P] : System (State P) (Action P) where
  Start s := s = ⟨CDEV_NOT_USED, Data.init, fun _ => none, 0⟩
  step := step

end Lkmpg.Chardev
