/-
# Lkmpg.Ioctl.Driver -- ioctl.c, a value per open file

The four file operations of the `ioctltest` device and the calls of any number of
open files, one at a time, so that `ioctl_data->lock` is free when a call takes it.
`kmalloc` may fail, and gives any address that is not in use.

A file's `private_data` is its pointer to the object that holds its value; the state
also carries the word the last `IOCTL_VALSET` through the file gave it.
-/
import Lkmpg.Kernel.Library
import Lkmpg.Theory.System
import Mathlib.Logic.Function.Basic

namespace Lkmpg.Ioctl

open Lkmpg.Kernel Lkmpg.Theory

set_option autoImplicit false

/-! ## Commands -/

/-- `_IOC(dir, type, nr, size)`. -/
def ioc (dir type nr size : UInt32) : UInt32 := dir <<< 30 ||| size <<< 16 ||| type <<< 8 ||| nr

def _IO (type nr : UInt32) : UInt32 := ioc 0 type nr 0
def _IOW (type nr size : UInt32) : UInt32 := ioc 1 type nr size
def _IOR (type nr size : UInt32) : UInt32 := ioc 2 type nr size

def IOC_MAGIC : UInt32 := 0x66

/-- `sizeof(struct ioctl_arg)` and `sizeof(int)` are both 4. -/
def IOCTL_VALSET : UInt32 := _IOW IOC_MAGIC 0 4
def IOCTL_VALGET : UInt32 := _IOR IOC_MAGIC 1 4
def IOCTL_VALGET_NUM : UInt32 := _IOR IOC_MAGIC 2 4
def IOCTL_VALSET_NUM : UInt32 := _IO IOC_MAGIC 3

/-! ## The file operations -/

/-- `struct test_ioctl_data`, its lock aside. -/
structure TestIoctlData where
  val : UInt8
  deriving DecidableEq

/-- The objects of `kmalloc` in use, by address, and the static `ioctl_num`. -/
structure Memory where
  heap : Nat → Option TestIoctlData
  ioctlNum : Int32

/-- The arguments of `ioctl` and the word they lead to. -/
structure Request where
  cmd : UInt32
  arg : UInt64
  /-- The 32 bits at `arg`, when all of them can be read. -/
  word : Option UInt32
  /-- Whether they can be written. -/
  writable : Bool

/-- What a call returns, and the word it wrote at `arg`. -/
structure Outcome where
  ret : Int
  written : Option UInt32
  deriving DecidableEq

/-- `copy_to_user` and `__put_user` of one word. -/
def putWord (r : Request) (word : UInt32) : Outcome :=
  if r.writable then ⟨0, some word⟩ else ⟨-EFAULT, none⟩

/-- `none` is an access to an object that is not in use. -/
def testIoctlIoctl (m : Memory) (ioctlData : Nat) (r : Request) : Option (Memory × Outcome) :=
  if r.cmd = IOCTL_VALSET then
    match r.word with
    | none => some (m, ⟨-EFAULT, none⟩)
    | some data =>
        (m.heap ioctlData).map fun _ =>
          -- `unsigned char val` takes the low byte of `unsigned int val`.
          ({ m with heap := Function.update m.heap ioctlData (some ⟨data.toUInt8⟩) }, ⟨0, none⟩)
  else if r.cmd = IOCTL_VALGET then
    (m.heap ioctlData).map fun d => (m, putWord r d.val.toUInt32)
  else if r.cmd = IOCTL_VALGET_NUM then some (m, putWord r m.ioctlNum.toUInt32)
  else if r.cmd = IOCTL_VALSET_NUM then
    some ({ m with ioctlNum := r.arg.toUInt32.toInt32 }, ⟨0, none⟩)
  else some (m, ⟨-ENOTTY, none⟩)

/-- `for (; i < count; i++)`, with `left` rounds to go: the bytes copied, and whether all
were. -/
def readLoop (val : UInt8) (reach : Nat) : (left i : Nat) → List UInt8 × Bool
  | 0, _ => ([], true)
  | left + 1, i =>
      if i < reach then
        let (bytes, all) := readLoop val reach left (i + 1)
        (val :: bytes, all)
      else ([], false)

/-- The bytes put in the user buffer, of which `reach` are accessible, and the return
value.  `count` fits in the `int` that counts the bytes, as `vfs_read` sees to. -/
def testIoctlRead (ioctlData : TestIoctlData) (count reach : Nat) : List UInt8 × Int :=
  let (bytes, all) := readLoop ioctlData.val reach count 0
  (bytes, if all then count else -EFAULT)

/-! ## Calls on files -/

variable (F : Type)

structure State where
  memory : Memory
  /-- `filp->private_data` of the open files. -/
  privateData : F → Option Nat
  /-- What the last `IOCTL_VALSET` through the file that returned 0 gave, and 0xFF before
  the first. -/
  lastSet : F → UInt32
  /-- What the last call returned. -/
  outcome : Outcome

inductive Action where
  /-- `got` is the answer of `kmalloc`. -/
  | testIoctlOpen (f : F) (got : Option Nat)
  | testIoctlIoctl (f : F) (r : Request)
  | testIoctlRead (f : F) (count reach : Nat)
  | testIoctlClose (f : F)

variable {F} [DecidableEq F]

def testIoctlOpen (s : State F) (f : F) : Option Nat → Option (State F)
  | none => some { s with outcome := ⟨-ENOMEM, none⟩ }
  | some p =>
      if (s.memory.heap p).isSome then none
      else some
        { memory := { s.memory with heap := Function.update s.memory.heap p (some ⟨0xFF⟩) }
          privateData := Function.update s.privateData f (some p)
          lastSet := Function.update s.lastSet f 0xFF
          outcome := ⟨0, none⟩ }

def testIoctlClose (s : State F) (f : F) (p : Nat) : State F :=
  { s with
    memory := { s.memory with heap := Function.update s.memory.heap p none }
    privateData := Function.update s.privateData f none
    outcome := ⟨0, none⟩ }

/-- What has been set last through each file, after a call through `f`. -/
def Request.record (r : Request) (lastSet : F → UInt32) (f : F) : F → UInt32 :=
  if r.cmd = IOCTL_VALSET then
    match r.word with
    | none => lastSet
    | some data => Function.update lastSet f data
  else lastSet

/-- A file that is not open is opened, and one that is open is used and closed. -/
def step (s : State F) : Action F → Option (State F)
  | .testIoctlOpen f got =>
      match s.privateData f with
      | none => testIoctlOpen s f got
      | some _ => none
  | .testIoctlIoctl f r =>
      match s.privateData f with
      | none => none
      | some p =>
          (testIoctlIoctl s.memory p r).map fun done =>
            { s with memory := done.1, lastSet := r.record s.lastSet f, outcome := done.2 }
  | .testIoctlRead f count reach =>
      match s.privateData f with
      | none => none
      | some p =>
          (s.memory.heap p).map fun d =>
            { s with outcome := ⟨(testIoctlRead d count reach).2, none⟩ }
  | .testIoctlClose f => (s.privateData f).map (testIoctlClose s f)

/-- The module is loaded, and no file is open. -/
def State.init : State F where
  memory := ⟨fun _ => none, 0⟩
  privateData _ := none
  lastSet _ := 0xFF
  outcome := ⟨0, none⟩

def system (F : Type) [DecidableEq F] : System (State F) (Action F) where
  Start s := s = .init
  step := step

end Lkmpg.Ioctl
