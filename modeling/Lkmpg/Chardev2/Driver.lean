/-
# Lkmpg.Chardev2.Driver -- the message device of chardev2.c

The functions as the source has them, on the message and the user memory:
`deviceRead`, `deviceWrite` and the body of `device_ioctl` between its
compare-and-swap and its `atomic_set`.  User memory is one array for each address
space, with bytes that may be inaccessible: there `get_user` yields 0 and
`put_user` does nothing.  An index outside `message` has no value.
-/
import Lkmpg.Kernel.Library
import Lkmpg.Theory.Bytes

namespace Lkmpg.Chardev2

open Lkmpg.Kernel Lkmpg.Theory

set_option autoImplicit false

def BUF_LEN : Nat := 80

def CDEV_NOT_USED : Int := 0
def CDEV_EXCLUSIVE_OPEN : Int := 1

/-! ## ioctl numbers -/

/-- `_IOC(dir, type, nr, size)`. -/
def ioc (dir type nr size : Nat) : Nat :=
  dir * 2 ^ 30 + size * 2 ^ 16 + type * 2 ^ 8 + nr

def MAJOR_NUM : Nat := 100

def IOCTL_SET_MSG : Nat := ioc 1 MAJOR_NUM 0 8
def IOCTL_GET_MSG : Nat := ioc 2 MAJOR_NUM 1 8
def IOCTL_GET_NTH_BYTE : Nat := ioc 3 MAJOR_NUM 2 4

/-! ## User memory -/

/-- The bytes of each address space; `none` is inaccessible. -/
abbrev User := Nat → Nat → Option UInt8

def getUser (u : User) (mm addr : Nat) : UInt8 := (u mm addr).getD 0

def putUser (u : User) (mm addr : Nat) (b : UInt8) : User := fun mm' addr' =>
  if mm' = mm ∧ addr' = addr ∧ (u mm addr).isSome then some b else u mm' addr'

/-! ## The message -/

/-- `static char message[BUF_LEN + 1]`.  Nothing writes the last byte. -/
structure Message where
  bytes : List UInt8
  bytes_len : bytes.length = BUF_LEN + 1
  last : bytes[BUF_LEN]? = some 0

namespace Message

def zero : Message := ⟨List.replicate (BUF_LEN + 1) 0, List.length_replicate, rfl⟩

/-- `message[i] = b`, for an index the loop of `device_write` has checked. -/
def store (m : Message) (i : Nat) (b : UInt8) (small : i < BUF_LEN) : Message where
  bytes := m.bytes.set i b
  bytes_len := by rw [List.length_set, m.bytes_len]
  last := by rw [List.getElem?_set_ne (by omega), m.last]

def get (m : Message) (i : Nat) : Option UInt8 := m.bytes[i]?

theorem get_isSome (m : Message) {i : Nat} (within : i ≤ BUF_LEN) : (m.get i).isSome := by
  have bound : i < m.bytes.length := by
    rw [m.bytes_len]
    omega
  simp [get, bound]

/-- A byte that is not NUL is before the last one. -/
theorem lt_of_get (m : Message) {i : Nat} {c : UInt8} (found : m.get i = some c)
    (nonzero : c ≠ 0) : i < BUF_LEN := by
  obtain ⟨bound, -⟩ := List.getElem?_eq_some_iff.1 found
  rw [m.bytes_len] at bound
  by_contra past
  have same : i = BUF_LEN := by omega
  rw [get, same, m.last] at found
  cases found
  exact nonzero rfl

end Message

/-! ## Reading and writing -/

/-- `while (length && *message_ptr)`: the user memory, and `bytes_read` at the end. -/
def readLoop (m : Message) (mm : Nat) :
    (length messagePtr buffer bytesRead : Nat) → User → Option (User × Nat)
  | 0, _, _, bytesRead, u => some (u, bytesRead)
  | length + 1, messagePtr, buffer, bytesRead, u =>
      (m.get messagePtr).bind fun c =>
        if c = 0 then some (u, bytesRead)
        else readLoop m mm length (messagePtr + 1) (buffer + 1) (bytesRead + 1)
          (putUser u mm buffer c)

/-- The user memory, the offset and the return value of `device_read`. -/
def deviceRead (m : Message) (u : User) (mm buffer length offset : Nat) :
    Option (User × Nat × Nat) :=
  (m.get offset).bind fun c =>
    if c = 0 then some (u, 0, 0)
    else (readLoop m mm length offset buffer 0 u).map fun done =>
      (done.1, offset + done.2, done.2)

/-- `for (; i < length && i < BUF_LEN; i++)`, with at most `left` bytes to go: the
message, and `i` at the end. -/
def writeLoop (u : User) (mm buffer length : Nat) :
    (left i : Nat) → Message → Message × Nat
  | 0, i, m => (m, i)
  | left + 1, i, m =>
      if small : i < length ∧ i < BUF_LEN then
        writeLoop u mm buffer length left (i + 1)
          (m.store i (getUser u mm (buffer + i)) small.2)
      else (m, i)

/-- The message and the return value of `device_write`. -/
def deviceWrite (m : Message) (u : User) (mm buffer length : Nat) : Message × Nat :=
  writeLoop u mm buffer length BUF_LEN 0 m

/-! ## The ioctls -/

/-- The arguments of a call: the caller's address space, `ioctl_num` and
`ioctl_param`. -/
structure Call where
  mm : Nat
  ioctlNum : Nat
  ioctlParam : Nat
  deriving DecidableEq

/-- `for (; ch && i < BUF_LEN; i++, tmp++) get_user(ch, tmp)`, where `left` is
`BUF_LEN - i`: `i` at the end. -/
def scanLoop (u : User) (mm : Nat) : (left i tmp : Nat) → (ch : UInt8) → Nat
  | 0, i, _, _ => i
  | left + 1, i, tmp, ch =>
      if ch = 0 then i else scanLoop u mm left (i + 1) (tmp + 1) (getUser u mm tmp)

/-- `(long)` of a plain `char`, which is signed or not by the kernel's choice. -/
def charToLong (signed : Bool) (c : UInt8) : Int :=
  if signed then (c.toNat : Int).bmod 256 else c.toNat

/-- The message and the user memory, which the calls share. -/
abbrev Shared := Message × User

def setMsg (s : Shared) (c : Call) : Shared :=
  let i := scanLoop s.2 c.mm BUF_LEN 0 c.ioctlParam (getUser s.2 c.mm c.ioctlParam)
  ((deviceWrite s.1 s.2 c.mm c.ioctlParam i).1, s.2)

def getMsg (s : Shared) (c : Call) : Option Shared :=
  (deviceRead s.1 s.2 c.mm c.ioctlParam 99 0).map fun done =>
    (s.1, putUser done.1 c.mm (c.ioctlParam + done.2.2) 0)

/-- `device_ioctl` between the compare-and-swap and the `atomic_set`, and what it
returns. -/
def ioctlBody (signed : Bool) (c : Call) (s : Shared) : Option (Shared × Int) :=
  if c.ioctlNum = IOCTL_SET_MSG then some (setMsg s c, 0)
  else if c.ioctlNum = IOCTL_GET_MSG then (getMsg s c).map fun s' => (s', 0)
  else if c.ioctlNum = IOCTL_GET_NTH_BYTE then
    (s.1.get c.ioctlParam).map fun b => (s, charToLong signed b)
  else some (s, 0)

/-! ## The loops stay in the message -/

theorem readLoop_isSome (m : Message) (mm : Nat) (length : Nat) :
    ∀ (messagePtr buffer bytesRead : Nat) (u : User), messagePtr ≤ BUF_LEN →
      (readLoop m mm length messagePtr buffer bytesRead u).isSome := by
  induction length with
  | zero => exact fun _ _ _ _ _ => rfl
  | succ length ih =>
      intro messagePtr buffer bytesRead u within
      obtain ⟨c, found⟩ := Option.isSome_iff_exists.1 (m.get_isSome within)
      simp only [readLoop, found, Option.bind_some]
      split
      · rfl
      · rename_i nonzero
        exact ih _ _ _ _ (m.lt_of_get found nonzero)

theorem deviceRead_isSome (m : Message) (u : User) (mm buffer length : Nat) {offset : Nat}
    (within : offset ≤ BUF_LEN) : (deviceRead m u mm buffer length offset).isSome := by
  obtain ⟨c, found⟩ := Option.isSome_iff_exists.1 (m.get_isSome within)
  simp only [deviceRead, found, Option.bind_some]
  split
  · rfl
  · simpa using readLoop_isSome m mm length offset buffer 0 u within

/-- Every call with an index in the buffer returns. -/
theorem ioctlBody_isSome (signed : Bool) {c : Call}
    (index : c.ioctlNum = IOCTL_GET_NTH_BYTE → c.ioctlParam ≤ BUF_LEN) (s : Shared) :
    (ioctlBody signed c s).isSome := by
  unfold ioctlBody
  split
  · rfl
  · split
    · simpa [getMsg] using deviceRead_isSome s.1 s.2 c.mm c.ioctlParam 99 (Nat.zero_le _)
    · split
      · rename_i nth
        simpa using s.1.get_isSome (index nth)
      · rfl

end Lkmpg.Chardev2
