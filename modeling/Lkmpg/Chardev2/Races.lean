/-
# Lkmpg.Chardev2.Races -- reads, writes and ioctls of chardev2.c at the same time

Nothing keeps `device_read` and `device_write` apart, from each other or from
`device_ioctl`.  A byte of the message may change between the test of the loop of
`device_read` and the copy, so both are steps here.  What is read may be a mixture; no
index leaves the message, no byte is stored outside the caller's buffer, and every call
comes to its end (`races_in_bounds`).  This rests on one byte: nobody writes
`message[BUF_LEN]`.

A file's offset is loaded when a call begins and stored when it returns, as the VFS does.
-/
import Lkmpg.Chardev2.Ioctl
import Lkmpg.Theory.System
import Mathlib.Logic.Function.Basic

namespace Lkmpg.Chardev2.Races

open Lkmpg.Kernel Lkmpg.Theory

set_option autoImplicit false

/-- The arguments of a read or a write, and `*offset` when it begins. -/
structure Transfer where
  mm : Nat
  buffer : Nat
  length : Nat
  offset : Nat
  deriving DecidableEq

variable (P F : Type)

/-- Where a call is. -/
inductive Here where
  /-- In `device_ioctl`.  A read is at the test of its loop. -/
  | ioctl (c : Call) (pc : Pc)
  /-- The test has passed; `length` bytes are left after this one. -/
  | ioctlPut (c : Call) (length messagePtr buffer bytesRead : Nat)
  /-- At `if (!*(message_ptr + *offset))`. -/
  | read (f : F) (a : Transfer)
  /-- At `while (length && *message_ptr)`, with `n` bytes read. -/
  | readTest (f : F) (a : Transfer) (n : Nat)
  | readPut (f : F) (a : Transfer) (n : Nat)
  | readDone (f : F) (a : Transfer) (n : Nat)
  /-- At the test of the loop of `device_write`. -/
  | write (f : F) (a : Transfer) (i : Nat)
  deriving DecidableEq

structure State where
  alreadyOpen : Int
  shared : Shared
  /-- `f_pos` of the open files. -/
  offset : F → Nat
  call : P → Option (Here F)

inductive Action where
  | read (p : P) (f : F) (mm buffer length : Nat)
  | write (p : P) (f : F) (mm buffer length : Nat)
  /-- `device_ioctl` is called, and does its compare-and-swap. -/
  | ioctl (p : P) (c : Call)
  | run (p : P)
  deriving DecidableEq

variable {P F} [DecidableEq P] [DecidableEq F]

/-- An index given to `IOCTL_GET_NTH_BYTE` is in the buffer. -/
def NthInBuffer (c : Call) : Prop := c.ioctlNum = IOCTL_GET_NTH_BYTE → c.ioctlParam ≤ BUF_LEN

instance (c : Call) : Decidable (NthInBuffer c) := inferInstanceAs (Decidable (_ → _))

namespace State

def goto (s : State P F) (p : P) (here : Option (Here F)) : State P F :=
  { s with call := Function.update s.call p here }

/-- The call returns, and the VFS stores the offset. -/
def seek (s : State P F) (p : P) (f : F) (offset : Nat) : State P F :=
  { s.goto p none with offset := Function.update s.offset f offset }

end State

/-- The next step of a call. -/
def runStep (signed : Bool) (s : State P F) (p : P) : Here F → Option (State P F)
  | .ioctl _ (.done _) => some { s.goto p none with alreadyOpen := CDEV_NOT_USED }
  | .ioctl c (.read (length + 1) messagePtr buffer bytesRead) =>
      (s.shared.1.get messagePtr).map fun b =>
        if b = 0 then s.goto p (some (.ioctl c (.terminate bytesRead)))
        else s.goto p (some (.ioctlPut c length messagePtr buffer bytesRead))
  | .ioctl c pc =>
      (ioctlStep signed c pc s.shared).map fun next =>
        { s.goto p (some (.ioctl c next.1)) with shared := next.2 }
  | .ioctlPut c length messagePtr buffer bytesRead =>
      (s.shared.1.get messagePtr).map fun b =>
        { s.goto p (some (.ioctl c
            (.read length (messagePtr + 1) (buffer + 1) (bytesRead + 1)))) with
          shared := (s.shared.1, putUser s.shared.2 c.mm buffer b) }
  | .read f a =>
      (s.shared.1.get a.offset).map fun b =>
        if b = 0 then s.seek p f 0 else s.goto p (some (.readTest f a 0))
  | .readTest f a n =>
      if a.length - n = 0 then some (s.goto p (some (.readDone f a n)))
      else (s.shared.1.get (a.offset + n)).map fun b =>
        if b = 0 then s.goto p (some (.readDone f a n)) else s.goto p (some (.readPut f a n))
  | .readPut f a n =>
      (s.shared.1.get (a.offset + n)).map fun b =>
        { s.goto p (some (.readTest f a (n + 1))) with
          shared := (s.shared.1, putUser s.shared.2 a.mm (a.buffer + n) b) }
  | .readDone f a n => some (s.seek p f (a.offset + n))
  | .write f a i =>
      if small : i < a.length ∧ i < BUF_LEN then
        some { s.goto p (some (.write f a (i + 1))) with
          shared := (s.shared.1.store i (getUser s.shared.2 a.mm (a.buffer + i)) small.2,
            s.shared.2) }
      else some (s.seek p f a.offset)

def step (signed : Bool) (s : State P F) : Action P F → Option (State P F)
  | .read p f mm buffer length =>
      if (s.call p).isSome then none
      else some (s.goto p (some (.read f ⟨mm, buffer, length, s.offset f⟩)))
  | .write p f mm buffer length =>
      if (s.call p).isSome then none
      else some (s.goto p (some (.write f ⟨mm, buffer, length, s.offset f⟩ 0)))
  | .ioctl p c =>
      if (s.call p).isSome ∨ ¬ NthInBuffer c then none
      else if (atomicCmpxchg s.alreadyOpen CDEV_NOT_USED CDEV_EXCLUSIVE_OPEN).1 ≠ 0 then some s
      else some { s.goto p (some (.ioctl c .switch)) with alreadyOpen := CDEV_EXCLUSIVE_OPEN }
  | .run p => (s.call p).bind (runStep signed s p)

/-- Nothing is open or called, on a message of zeros and any user memory. -/
def system (P F : Type) [DecidableEq P] [DecidableEq F] (signed : Bool) (u : User) :
    System (State P F) (Action P F) where
  Start s := s = ⟨CDEV_NOT_USED, (Message.zero, u), fun _ => 0, fun _ => none⟩
  step := step signed

/-! ## Bounds -/

/-- The index of the message that the next step reads or writes. -/
def Here.index : Here F → Option Nat
  | .ioctl c .switch =>
      if c.ioctlNum = IOCTL_GET_MSG then some 0
      else if c.ioctlNum = IOCTL_GET_NTH_BYTE then some c.ioctlParam
      else none
  | .ioctl _ (.write i length) => if i < length ∧ i < BUF_LEN then some i else none
  | .ioctl _ (.read (_ + 1) messagePtr _ _) => some messagePtr
  | .ioctlPut _ _ messagePtr _ _ => some messagePtr
  | .read _ a => some a.offset
  | .readTest _ a n => if a.length - n = 0 then none else some (a.offset + n)
  | .readPut _ a n => some (a.offset + n)
  | .write _ a i => if i < a.length ∧ i < BUF_LEN then some i else none
  | _ => none

/-- The address in user memory that the next step stores to. -/
def Here.target : Here F → Option Nat
  | .ioctlPut _ _ _ buffer _ => some buffer
  | .ioctl c (.terminate i) => some (c.ioctlParam + i)
  | .readPut _ a n => some (a.buffer + n)
  | _ => none

/-- The buffer the caller gave.  `IOCTL_GET_MSG` takes it to have room for the whole
message and its NUL. -/
def Here.InBuffer : Here F → Nat → Prop
  | .ioctl c _, addr | .ioctlPut c _ _ _ _, addr =>
      c.ioctlParam ≤ addr ∧ addr < c.ioctlParam + (BUF_LEN + 1)
  | .read _ a, addr | .readTest _ a _, addr | .readPut _ a _, addr | .readDone _ a _, addr
  | .write _ a _, addr => a.buffer ≤ addr ∧ addr < a.buffer + a.length

/-- What is known of a call, whatever the others do. -/
def Here.Good : Here F → Prop
  | .ioctl c .switch => NthInBuffer c
  | .ioctl c (.read length messagePtr buffer bytesRead) =>
      messagePtr = bytesRead ∧ buffer = c.ioctlParam + bytesRead ∧ bytesRead ≤ BUF_LEN ∧
        length + bytesRead = 99
  | .ioctl _ (.terminate i) => i ≤ BUF_LEN
  | .ioctl _ _ => True
  | .ioctlPut c length messagePtr buffer bytesRead =>
      messagePtr = bytesRead ∧ buffer = c.ioctlParam + bytesRead ∧ bytesRead < BUF_LEN ∧
        length + bytesRead = 98
  | .read _ a => a.offset ≤ BUF_LEN
  | .readTest _ a n | .readDone _ a n => a.offset + n ≤ BUF_LEN ∧ n ≤ a.length
  | .readPut _ a n => a.offset + n < BUF_LEN ∧ n < a.length
  | .write _ a _ => a.offset ≤ BUF_LEN

/-- A bound on the steps a call has left. -/
def Here.left : Here F → Nat
  | .ioctl _ (.read _ messagePtr _ _) => 2 * (BUF_LEN - messagePtr) + 3
  | .ioctl _ pc => pc.left + 1
  | .ioctlPut _ _ messagePtr _ _ => 2 * (BUF_LEN - messagePtr) + 2
  | .read _ _ => 2 * BUF_LEN + 4
  | .readTest _ a n => 2 * (BUF_LEN - (a.offset + n)) + 3
  | .readPut _ a n => 2 * (BUF_LEN - (a.offset + n)) + 2
  | .readDone _ _ _ => 1
  | .write _ _ i => BUF_LEN - i + 1

structure Good (s : State P F) : Prop where
  offset : ∀ f, s.offset f ≤ BUF_LEN
  call : ∀ p here, s.call p = some here → here.Good

/-! ## One step -/

section

omit [DecidableEq F]

theorem Here.Good.index_le {here : Here F} (good : here.Good) : ∀ i ∈ here.index, i ≤ BUF_LEN := by
  intro i used
  cases here with
  | ioctl c pc =>
      cases pc with
      | switch =>
          simp only [Here.index] at used
          split at used
          · cases used
            exact Nat.zero_le _
          · split at used
            · rename_i nth
              cases used
              exact good nth
            · cases used
      | scan _ _ _ | terminate _ | done _ => cases used
      | write i' length =>
          simp only [Here.index] at used
          split at used <;> cases used
          omega
      | read length messagePtr buffer bytesRead =>
          obtain ⟨same, _, small, _⟩ := good
          cases length with
          | zero => cases used
          | succ length =>
              cases used
              omega
  | ioctlPut c length messagePtr buffer bytesRead =>
      obtain ⟨same, _, small, _⟩ := good
      cases used
      omega
  | read f a =>
      cases used
      exact good
  | readTest f a n =>
      simp only [Here.index] at used
      split at used <;> cases used
      exact good.1
  | readPut f a n =>
      cases used
      exact Nat.le_of_lt good.1
  | readDone f a n => cases used
  | write f a i' =>
      simp only [Here.index] at used
      split at used <;> cases used
      omega

theorem Here.Good.target_inBuffer {here : Here F} (good : here.Good) :
    ∀ addr ∈ here.target, here.InBuffer addr := by
  intro addr stored
  cases here with
  | ioctl c pc =>
      cases pc with
      | terminate i =>
          cases stored
          have small : i ≤ BUF_LEN := good
          exact ⟨by omega, by omega⟩
      | _ => cases stored
  | ioctlPut c length messagePtr buffer bytesRead =>
      obtain ⟨_, rfl, small, _⟩ := good
      cases stored
      exact ⟨by omega, by omega⟩
  | readPut f a n =>
      cases stored
      exact ⟨by omega, Nat.add_lt_add_left good.2 _⟩
  | read f a | readTest f a n | readDone f a n | write f a i => cases stored

/-- A step of `device_ioctl` that is not one of its reading loop. -/
theorem ioctlStep_good {signed : Bool} {c : Call} {pc pc' : Pc} {s t : Shared}
    (other : ∀ length messagePtr buffer bytesRead,
      pc ≠ .read (length + 1) messagePtr buffer bytesRead)
    (good : (Here.ioctl c pc : Here F).Good) (moved : ioctlStep signed c pc s = some (pc', t)) :
    (Here.ioctl c pc' : Here F).Good ∧
      (Here.ioctl c pc' : Here F).left < (Here.ioctl c pc : Here F).left := by
  obtain ⟨m, u⟩ := s
  cases pc with
  | switch =>
      simp only [ioctlStep] at moved
      split at moved
      · cases moved
        exact ⟨trivial, by simp [Here.left, Pc.left, BUF_LEN]⟩
      split at moved
      · obtain ⟨b, -, next⟩ := Option.map_eq_some_iff.1 moved
        split at next <;> cases next
        · exact ⟨Nat.zero_le _, by simp [Here.left, Pc.left, BUF_LEN]⟩
        · exact ⟨⟨rfl, rfl, Nat.zero_le _, rfl⟩, by simp [Here.left, Pc.left, BUF_LEN]⟩
      split at moved
      · obtain ⟨b, -, next⟩ := Option.map_eq_some_iff.1 moved
        cases next
        exact ⟨trivial, by simp [Here.left, Pc.left, BUF_LEN]⟩
      · cases moved
        exact ⟨trivial, by simp [Here.left, Pc.left, BUF_LEN]⟩
  | scan i tmp ch =>
      simp only [ioctlStep] at moved
      split at moved <;> cases moved
      · exact ⟨trivial, by simp only [Here.left, Pc.left]; omega⟩
      · exact ⟨trivial, by simp only [Here.left, Pc.left]; omega⟩
  | write i length =>
      simp only [ioctlStep] at moved
      split at moved <;> cases moved
      · exact ⟨trivial, by simp only [Here.left, Pc.left]; omega⟩
      · exact ⟨trivial, by simp only [Here.left, Pc.left]; omega⟩
  | read length messagePtr buffer bytesRead =>
      cases length with
      | succ length => exact absurd rfl (other length messagePtr buffer bytesRead)
      | zero =>
          cases moved
          exact ⟨good.2.2.1, by simp only [Here.left, Pc.left]; omega⟩
  | terminate i =>
      cases moved
      exact ⟨trivial, by simp [Here.left, Pc.left]⟩
  | done ret => cases moved

end

/-- What a step leaves of its own call, and of the offsets. -/
structure Moved (s t : State P F) (p : P) (here : Here F) : Prop where
  offset : ∀ f, t.offset f ≤ BUF_LEN
  call : ∃ there, t.call = Function.update s.call p there ∧
    ∀ h ∈ there, h.Good ∧ h.left < here.left

variable {signed : Bool} {s t : State P F} {p : P}

theorem Moved.seek (offset : ∀ f, s.offset f ≤ BUF_LEN) (f : F) {here : Here F} {o : Nat}
    (small : o ≤ BUF_LEN) : Moved s (s.seek p f o) p here := by
  refine ⟨fun g => ?_, none, rfl, fun h member => by cases member⟩
  by_cases same : g = f
  · subst same
    simpa [State.seek] using small
  · simpa [State.seek, State.goto, same] using offset g

omit [DecidableEq F] in
/-- The call goes on. -/
theorem Moved.goto {here : Here F} (there : Here F) (good : there.Good) (less : there.left < here.left)
    (offset : ∀ f, t.offset f ≤ BUF_LEN) (call : t.call = Function.update s.call p (some there)) :
    Moved s t p here := by
  refine ⟨offset, some there, call, ?_⟩
  intro h member
  cases member
  exact ⟨good, less⟩

theorem ioctl_moved {c : Call} {pc : Pc} (offset : ∀ f, s.offset f ≤ BUF_LEN)
    (good : (Here.ioctl c pc : Here F).Good) (next : runStep signed s p (.ioctl c pc) = some t) :
    Moved s t p (.ioctl c pc) := by
  have goes (other : ∀ length messagePtr buffer bytesRead,
      pc ≠ .read (length + 1) messagePtr buffer bytesRead)
      (moves : (ioctlStep signed c pc s.shared).map (fun next =>
        { s.goto p (some (.ioctl c next.1)) with shared := next.2 }) = some t) :
      Moved s t p (.ioctl c pc) := by
    obtain ⟨⟨pc', shared⟩, moved, rfl⟩ := Option.map_eq_some_iff.1 moves
    obtain ⟨kept, less⟩ := ioctlStep_good (F := F) other good moved
    exact .goto _ kept less offset rfl
  cases pc with
  | done ret =>
      cases next
      exact ⟨offset, none, rfl, fun h member => by cases member⟩
  | read length messagePtr buffer bytesRead =>
      cases length with
      | zero => exact goes (fun _ _ _ _ same => by cases same) next
      | succ length =>
          obtain ⟨rfl, rfl, small, all⟩ := good
          obtain ⟨b, found, rfl⟩ := Option.map_eq_some_iff.1 next
          split
          · refine .goto (.ioctl c (.terminate messagePtr)) small ?_ offset rfl
            simp only [Here.left, Pc.left]
            omega
          · rename_i nonzero
            have inside := Message.lt_of_get _ found nonzero
            refine .goto (.ioctlPut c length messagePtr (c.ioctlParam + messagePtr) messagePtr)
              ⟨rfl, rfl, inside, by omega⟩ ?_ offset rfl
            simp only [Here.left]
            omega
  | switch | scan _ _ _ | write _ _ | terminate _ =>
      exact goes (fun _ _ _ _ same => by cases same) next

/-- **One step**, whatever the others have done to the message before it. -/
theorem runStep_moved {here : Here F} (offset : ∀ f, s.offset f ≤ BUF_LEN) (good : here.Good)
    (next : runStep signed s p here = some t) : Moved s t p here := by
  cases here with
  | ioctl c pc => exact ioctl_moved offset good next
  | ioctlPut c length messagePtr buffer bytesRead =>
      obtain ⟨rfl, rfl, inside, all⟩ := good
      obtain ⟨b, -, rfl⟩ := Option.map_eq_some_iff.1 next
      refine .goto (.ioctl c (.read length _ _ _)) ⟨rfl, by omega, by omega, by omega⟩ ?_
        offset rfl
      simp only [Here.left]
      omega
  | read f a =>
      obtain ⟨b, -, rfl⟩ := Option.map_eq_some_iff.1 next
      split
      · exact .seek offset f (Nat.zero_le _)
      · refine .goto (.readTest f a 0) ⟨good, Nat.zero_le _⟩ ?_ offset rfl
        simp only [Here.left]
        omega
  | readTest f a n =>
      obtain ⟨small, short⟩ := good
      simp only [runStep] at next
      split at next
      · cases next
        refine .goto (.readDone f a n) ⟨small, short⟩ ?_ offset rfl
        simp only [Here.left]
        omega
      · obtain ⟨b, found, rfl⟩ := Option.map_eq_some_iff.1 next
        split
        · refine .goto (.readDone f a n) ⟨small, short⟩ ?_ offset rfl
          simp only [Here.left]
          omega
        · rename_i nonzero
          refine .goto (.readPut f a n) ⟨Message.lt_of_get _ found nonzero, by omega⟩ ?_
            offset rfl
          simp only [Here.left]
          omega
  | readPut f a n =>
      obtain ⟨inside, more⟩ := good
      obtain ⟨b, -, rfl⟩ := Option.map_eq_some_iff.1 next
      refine .goto (.readTest f a (n + 1)) ⟨by omega, by omega⟩ ?_ offset rfl
      simp only [Here.left]
      omega
  | readDone f a n =>
      cases next
      exact .seek offset f good.1
  | write f a i =>
      simp only [runStep] at next
      split at next <;> cases next
      · refine .goto (.write f a (i + 1)) good ?_ offset rfl
        simp only [Here.left]
        omega
      · exact .seek offset f good

theorem step_good {a : Action P F} (good : Good s) (next : step signed s a = some t) :
    Good t := by
  have begins (p : P) (here : Here F) (fine : here.Good) (alreadyOpen : Int) :
      Good { s.goto p (some here) with alreadyOpen := alreadyOpen } := by
    refine ⟨good.offset, fun q there at_ => ?_⟩
    by_cases same : q = p
    · subst same
      simp only [State.goto, Function.update_self] at at_
      cases at_
      exact fine
    · simp only [State.goto, Function.update_of_ne same] at at_
      exact good.call q there at_
  cases a with
  | read p f mm buffer length =>
      simp only [step] at next
      split at next <;> cases next
      exact begins p (.read f ⟨mm, buffer, length, s.offset f⟩) (good.offset f) _
  | write p f mm buffer length =>
      simp only [step] at next
      split at next <;> cases next
      exact begins p (.write f ⟨mm, buffer, length, s.offset f⟩ 0) (good.offset f) _
  | ioctl p c =>
      simp only [step] at next
      split at next
      · cases next
      rename_i allowed
      split at next <;> cases next
      · exact good
      · have nth : NthInBuffer c := by
          by_contra outside
          exact allowed (.inr outside)
        exact begins p (.ioctl c .switch) nth _
  | run p =>
      obtain ⟨here, at_, moves⟩ := Option.bind_eq_some_iff.1 next
      obtain ⟨offset, there, call, kept⟩ := runStep_moved good.offset (good.call p here at_) moves
      refine ⟨offset, fun q h found => ?_⟩
      rw [call] at found
      by_cases same : q = p
      · subst same
        rw [Function.update_self] at found
        exact (kept h found).1
      · rw [Function.update_of_ne same] at found
        exact good.call q h found

/-- A call can always take its next step. -/
theorem runStep_isSome {here : Here F} (good : here.Good) (signed : Bool) (s : State P F) (p : P) :
    (runStep signed s p here).isSome := by
  have indexed := good.index_le
  cases here with
  | ioctl c pc =>
      cases pc with
      | switch =>
          have first := s.shared.1.get_isSome (Nat.zero_le BUF_LEN)
          simp only [runStep, ioctlStep, Option.isSome_map]
          split
          · rfl
          split
          · rwa [Option.isSome_map]
          split
          · rename_i nth
            rw [Option.isSome_map]
            exact s.shared.1.get_isSome (good nth)
          · rfl
      | read length messagePtr buffer bytesRead =>
          cases length with
          | zero => rfl
          | succ length =>
              simp only [runStep, Option.isSome_map]
              exact s.shared.1.get_isSome (indexed messagePtr rfl)
      | scan i tmp ch | write i length =>
          simp only [runStep, ioctlStep, Option.isSome_map]
          split <;> rfl
      | terminate i | done ret => rfl
  | ioctlPut c length messagePtr buffer bytesRead =>
      simp only [runStep, Option.isSome_map]
      exact s.shared.1.get_isSome (indexed messagePtr rfl)
  | read f a =>
      simp only [runStep, Option.isSome_map]
      exact s.shared.1.get_isSome (indexed a.offset rfl)
  | readTest f a n =>
      simp only [runStep]
      split
      · rfl
      · rw [Option.isSome_map]
        exact s.shared.1.get_isSome good.1
  | readPut f a n =>
      simp only [runStep, Option.isSome_map]
      exact s.shared.1.get_isSome (indexed (a.offset + n) rfl)
  | readDone f a n => rfl
  | write f a i =>
      simp only [runStep]
      split <;> rfl

/-! ## Runs -/

theorem reachable_good {u : User} (reached : (system P F signed u).Reachable s) : Good s := by
  refine System.Reachable.induct (I := Good) ?_ (fun s a t => step_good) reached
  rintro s rfl
  exact ⟨fun f => Nat.zero_le _, fun p here at_ => by cases at_⟩

/-- What `p` has left to do. -/
def State.left (s : State P F) (p : P) : Nat := ((s.call p).map Here.left).getD 0

/-- `p` begins no call. -/
def Begins (p : P) : Action P F → Bool
  | .read q _ _ _ _ | .write q _ _ _ _ | .ioctl q _ => q = p
  | .run _ => false

/-- The others do not change what `p` has left to do; its own steps lower it. -/
theorem step_left {a : Action P F} (good : Good s) (next : step signed s a = some t)
    (old : Begins p a = false) :
    t.left p + (if a = .run p then 1 else 0) ≤ s.left p := by
  have elsewhere {q : P} (other : q ≠ p) {there : Option (Here F)}
      (call : t.call = Function.update s.call q there) : t.left p ≤ s.left p := by
    rw [State.left, call, Function.update_of_ne (Ne.symm other), State.left]
  cases a with
  | read q f mm buffer length | write q f mm buffer length =>
      simp only [Begins, decide_eq_false_iff_not] at old
      simp only [step] at next
      split at next <;> cases next
      simpa using elsewhere old rfl
  | ioctl q c =>
      simp only [Begins, decide_eq_false_iff_not] at old
      simp only [step] at next
      split at next
      · cases next
      split at next <;> cases next
      · simp
      · simpa using elsewhere old rfl
  | run q =>
      obtain ⟨here, at_, moves⟩ := Option.bind_eq_some_iff.1 next
      obtain ⟨_, there, call, kept⟩ := runStep_moved good.offset (good.call q here at_) moves
      by_cases same : q = p
      · subst same
        have less : (there.map Here.left).getD 0 < here.left := by
          cases there with
          | none =>
              cases here with
              | ioctl c pc => cases pc <;> simp [Here.left]
              | _ => simp [Here.left]
          | some h => exact (kept h rfl).2
        rw [if_pos rfl, State.left, call, Function.update_self, State.left, at_]
        exact less
      · have differ : (Action.run q : Action P F) ≠ .run p := by
          intro equal
          cases equal
          exact same rfl
        rw [if_neg differ]
        exact elsewhere same call

theorem run_left {as : List (Action P F)} {u : User} (good : Good s)
    (ran : (system P F signed u).run s as = some t) (old : ∀ a ∈ as, Begins p a = false) :
    t.left p + as.countP (· = .run p) ≤ s.left p := by
  induction as generalizing s with
  | nil =>
      cases ran
      simp
  | cons a as ih =>
      obtain ⟨m, first, later⟩ := System.run_cons.1 ran
      obtain ⟨oldA, oldAs⟩ := List.forall_mem_cons.1 old
      have one := step_left good first oldA
      have rest := ih (step_good good first) later oldAs
      rw [List.countP_cons]
      simp only [decide_eq_true_eq]
      omega

omit [DecidableEq F] in
theorem left_le (here : Here F) : here.left ≤ 165 := by
  cases here with
  | ioctl c pc => cases pc <;> simp only [Here.left, Pc.left, BUF_LEN] <;> omega
  | _ => simp only [Here.left, BUF_LEN]; omega

/-- In one address space every byte is a 1, in the others a NUL. -/
def onesAndNuls : User := fun mm _ => if mm = 0 then some 1 else some 0

end Lkmpg.Chardev2.Races
