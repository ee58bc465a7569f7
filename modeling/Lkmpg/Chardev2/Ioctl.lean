/-
# Lkmpg.Chardev2.Ioctl -- device_ioctl in single steps

Between its compare-and-swap and its `atomic_set` a call copies one byte a step.
`rest` is what it still has to do, as the functions of the driver say it.  A step
keeps `rest` (`ioctlStep_rest`), there is a next step as long as `rest` has an
outcome (`ioctlStep_isSome`), and the steps come to an end (`ioctlStep_left`).
-/
import Lkmpg.Chardev2.Driver

namespace Lkmpg.Chardev2

open Lkmpg.Kernel Lkmpg.Theory

set_option autoImplicit false

/-- Where a call is that has won the compare-and-swap. -/
inductive Pc where
  | switch
  /-- At the test of `for (i = 0; ch && i < BUF_LEN; i++, tmp++)`. -/
  | scan (i tmp : Nat) (ch : UInt8)
  /-- At the test of the loop of `device_write`. -/
  | write (i length : Nat)
  /-- At the test of the loop of `device_read`. -/
  | read (length messagePtr buffer bytesRead : Nat)
  /-- Before `put_user('\0', ioctl_param + i)`. -/
  | terminate (i : Nat)
  /-- Before the `atomic_set`. -/
  | done (ret : Int)
  deriving DecidableEq

def ioctlStep (signed : Bool) (c : Call) : Pc → Shared → Option (Pc × Shared)
  | .switch, (m, u) =>
      if c.ioctlNum = IOCTL_SET_MSG then
        some (.scan 0 c.ioctlParam (getUser u c.mm c.ioctlParam), m, u)
      else if c.ioctlNum = IOCTL_GET_MSG then
        (m.get 0).map fun b =>
          if b = 0 then (.terminate 0, m, u) else (.read 99 0 c.ioctlParam 0, m, u)
      else if c.ioctlNum = IOCTL_GET_NTH_BYTE then
        (m.get c.ioctlParam).map fun b => (.done (charToLong signed b), m, u)
      else some (.done 0, m, u)
  | .scan i tmp ch, (m, u) =>
      if ch ≠ 0 ∧ i < BUF_LEN then some (.scan (i + 1) (tmp + 1) (getUser u c.mm tmp), m, u)
      else some (.write 0 i, m, u)
  | .write i length, (m, u) =>
      if small : i < length ∧ i < BUF_LEN then
        some (.write (i + 1) length, m.store i (getUser u c.mm (c.ioctlParam + i)) small.2, u)
      else some (.done 0, m, u)
  | .read 0 _ _ bytesRead, (m, u) => some (.terminate bytesRead, m, u)
  | .read (length + 1) messagePtr buffer bytesRead, (m, u) =>
      (m.get messagePtr).map fun b =>
        if b = 0 then (.terminate bytesRead, m, u)
        else (.read length (messagePtr + 1) (buffer + 1) (bytesRead + 1), m,
          putUser u c.mm buffer b)
  | .terminate i, (m, u) => some (.done 0, m, putUser u c.mm (c.ioctlParam + i) 0)
  | .done _, _ => none

/-- What the rest of a call does to the shared state, and what it returns. -/
def rest (signed : Bool) (c : Call) : Pc → Shared → Option (Shared × Int)
  | .switch, s => ioctlBody signed c s
  | .scan i tmp ch, (m, u) =>
      some (((deviceWrite m u c.mm c.ioctlParam
        (scanLoop u c.mm (BUF_LEN - i) i tmp ch)).1, u), 0)
  | .write i length, (m, u) =>
      some (((writeLoop u c.mm c.ioctlParam length (BUF_LEN - i) i m).1, u), 0)
  | .read length messagePtr buffer bytesRead, (m, u) =>
      (readLoop m c.mm length messagePtr buffer bytesRead u).map fun done =>
        ((m, putUser done.1 c.mm (c.ioctlParam + done.2) 0), 0)
  | .terminate i, (m, u) => some ((m, putUser u c.mm (c.ioctlParam + i) 0), 0)
  | .done ret, s => some (s, ret)

theorem rest_switch {signed : Bool} {c : Call} {s t : Shared} {pc : Pc}
    (moved : ioctlStep signed c .switch s = some (pc, t)) :
    rest signed c pc t = ioctlBody signed c s := by
  obtain ⟨m, u⟩ := s
  simp only [ioctlStep] at moved
  unfold ioctlBody
  split at moved
  · rename_i set
    cases moved
    simp [rest, set, setMsg]
  · rename_i set
    split at moved
    · rename_i get
      simp only [Option.map_eq_some_iff] at moved
      obtain ⟨b, found, next⟩ := moved
      rw [if_neg set, if_pos get]
      split at next
      · rename_i zero
        cases next
        simp [rest, getMsg, deviceRead, found, zero]
      · rename_i nonzero
        cases next
        simp [rest, getMsg, deviceRead, found, nonzero, Function.comp_def]
    · rename_i get
      split at moved
      · rename_i nth
        simp only [Option.map_eq_some_iff] at moved
        obtain ⟨b, found, next⟩ := moved
        cases next
        rw [if_neg set, if_neg get, if_pos nth, found]
        rfl
      · rename_i nth
        cases moved
        rw [if_neg set, if_neg get, if_neg nth]
        rfl

theorem writeLoop_test (u : User) (mm buffer length i : Nat) (m : Message) :
    writeLoop u mm buffer length (BUF_LEN - i) i m =
      if small : i < length ∧ i < BUF_LEN then
        writeLoop u mm buffer length (BUF_LEN - (i + 1)) (i + 1)
          (m.store i (getUser u mm (buffer + i)) small.2)
      else (m, i) := by
  cases gap : BUF_LEN - i with
  | zero =>
      have past : ¬ (i < length ∧ i < BUF_LEN) := by omega
      rw [dif_neg past, writeLoop]
  | succ left =>
      have same : BUF_LEN - (i + 1) = left := by omega
      rw [writeLoop, same]

theorem scanLoop_test (u : User) (mm i tmp : Nat) (ch : UInt8) :
    scanLoop u mm (BUF_LEN - i) i tmp ch =
      if ch ≠ 0 ∧ i < BUF_LEN then
        scanLoop u mm (BUF_LEN - (i + 1)) (i + 1) (tmp + 1) (getUser u mm tmp)
      else i := by
  cases gap : BUF_LEN - i with
  | zero =>
      have past : ¬ (ch ≠ 0 ∧ i < BUF_LEN) := by omega
      rw [if_neg past, scanLoop]
  | succ left =>
      have same : BUF_LEN - (i + 1) = left := by omega
      have more : i < BUF_LEN := by omega
      rw [scanLoop, same]
      by_cases stop : ch = 0 <;> simp [stop, more]

/-- One step leaves the rest of the call as it was. -/
theorem ioctlStep_rest {signed : Bool} {c : Call} {pc pc' : Pc} {s t : Shared}
    (moved : ioctlStep signed c pc s = some (pc', t)) :
    rest signed c pc' t = rest signed c pc s := by
  obtain ⟨m, u⟩ := s
  cases pc with
  | switch => exact rest_switch moved
  | scan i tmp ch =>
      simp only [ioctlStep] at moved
      rw [rest, scanLoop_test]
      split at moved
      · rename_i more
        cases moved
        rw [if_pos more, rest]
      · rename_i stop
        cases moved
        rw [if_neg stop]
        rfl
  | write i length =>
      simp only [ioctlStep] at moved
      rw [rest, writeLoop_test]
      split at moved
      · rename_i more
        cases moved
        rw [dif_pos more, rest]
      · rename_i stop
        cases moved
        rw [dif_neg stop]
        rfl
  | read length messagePtr buffer bytesRead =>
      cases length with
      | zero =>
          cases moved
          rfl
      | succ length =>
          simp only [ioctlStep, Option.map_eq_some_iff] at moved
          obtain ⟨b, found, next⟩ := moved
          split at next
          · rename_i zero
            cases next
            simp [rest, readLoop, found, zero]
          · rename_i nonzero
            cases next
            simp [rest, readLoop, found, nonzero]
  | terminate i =>
      cases moved
      rfl
  | done ret => cases moved

/-- A call that has something left to do can do its next step. -/
theorem ioctlStep_isSome {signed : Bool} {c : Call} {pc : Pc} {s : Shared}
    (left : (rest signed c pc s).isSome) (busy : ∀ ret, pc ≠ .done ret) :
    (ioctlStep signed c pc s).isSome := by
  obtain ⟨m, u⟩ := s
  cases pc with
  | switch =>
      simp only [rest, ioctlBody] at left
      simp only [ioctlStep]
      split at left
      · rename_i set
        simp [set]
      · rename_i set
        rw [if_neg set]
        split at left
        · rename_i get
          rw [if_pos get]
          simpa using m.get_isSome (Nat.zero_le _)
        · rename_i get
          rw [if_neg get]
          split at left
          · rename_i nth
            rw [if_pos nth]
            simpa using left
          · rename_i nth
            simp [nth]
  | scan i tmp ch =>
      simp only [ioctlStep]
      split <;> rfl
  | write i length =>
      simp only [ioctlStep]
      split <;> rfl
  | read length messagePtr buffer bytesRead =>
      cases length with
      | zero => rfl
      | succ length =>
          simp only [rest, readLoop, Option.isSome_map, Option.isSome_bind] at left
          simp only [ioctlStep, Option.isSome_map]
          exact Option.isSome_of_any left
  | terminate i => rfl
  | done ret => exact absurd rfl (busy ret)

/-- A bound on the steps a call has left. -/
def Pc.left : Pc → Nat
  | .switch => 2 * BUF_LEN + 4
  | .scan i _ _ => (BUF_LEN - i) + (BUF_LEN + 3)
  | .write i _ => (BUF_LEN - i) + 1
  | .read length _ _ _ => length + 2
  | .terminate _ => 1
  | .done _ => 0

theorem ioctlStep_left {signed : Bool} {c : Call} {pc pc' : Pc} {s t : Shared}
    (moved : ioctlStep signed c pc s = some (pc', t)) : pc'.left < pc.left := by
  obtain ⟨m, u⟩ := s
  cases pc with
  | switch =>
      simp only [ioctlStep] at moved
      split at moved
      · cases moved
        simp [Pc.left, BUF_LEN]
      · split at moved
        · simp only [Option.map_eq_some_iff] at moved
          obtain ⟨b, -, next⟩ := moved
          split at next <;> cases next <;> simp [Pc.left, BUF_LEN]
        · split at moved
          · simp only [Option.map_eq_some_iff] at moved
            obtain ⟨b, -, next⟩ := moved
            cases next
            simp [Pc.left]
          · cases moved
            simp [Pc.left]
  | scan i tmp ch =>
      simp only [ioctlStep] at moved
      split at moved
      · rename_i more
        cases moved
        simp only [Pc.left]
        omega
      · cases moved
        simp only [Pc.left]
        omega
  | write i length =>
      simp only [ioctlStep] at moved
      split at moved
      · rename_i more
        cases moved
        simp only [Pc.left]
        omega
      · cases moved
        simp [Pc.left]
  | read length messagePtr buffer bytesRead =>
      cases length with
      | zero =>
          cases moved
          simp [Pc.left]
      | succ length =>
          simp only [ioctlStep, Option.map_eq_some_iff] at moved
          obtain ⟨b, -, next⟩ := moved
          split at next <;> cases next <;> simp [Pc.left]
  | terminate i =>
      cases moved
      simp [Pc.left]
  | done ret => cases moved

end Lkmpg.Chardev2
