/-
# Lkmpg.Chardev2.Userspace -- userspace_ioctl.c fetches the message byte by byte

`ioctl_get_nth_byte` asks for one byte after the other, which the driver returns as a
`long`, and stops at the NUL or at an error.  `getNthByteLoop_iff` follows the loop
through the string in the message, and `fetch_agree_iff` says when what it prints is
what `IOCTL_GET_MSG` copies out.
-/
import Lkmpg.Chardev2.Messages

namespace Lkmpg.Chardev2

open Lkmpg.Kernel Lkmpg.Theory

set_option autoImplicit false

/-- What `ioctl` returns to the program for the result of the system call. -/
def ioctlResult (ret : Int) : Int :=
  if -4095 ≤ ret ∧ ret ≤ -1 then -1 else int32 ret

/-- The `do` loop of `ioctl_get_nth_byte`, with what was printed so far: what is printed
at the end, and what is returned. -/
def getNthByteLoop (signed : Bool) (s : Shared) (mm : Nat) :
    (fuel i : Nat) → (out : List UInt8) → Option (List UInt8 × Int)
  | 0, _, _ => none
  | fuel + 1, i, out =>
      (ioctlBody signed ⟨mm, IOCTL_GET_NTH_BYTE, i⟩ s).bind fun done =>
        let c := ioctlResult done.2
        if c < 0 then
          some (out ++ text "\nioctl_get_nth_byte failed at the " ++ formatInt (i + 1) ++
            text "'th byte:\n", c)
        else
          let out := out ++ [UInt8.ofNat c.toNat]
          if c ≠ 0 then getNthByteLoop signed done.1 mm fuel (i + 1) out else some (out, 0)

def ioctlGetNthByte (signed : Bool) (s : Shared) (mm : Nat) : Option (List UInt8 × Int) :=
  getNthByteLoop signed s mm (BUF_LEN + 1) 0 (text "get_nth_byte message:")

/-! ## One byte -/

/-- A byte comes back as itself, or as the -1 of an error. -/
theorem ioctlResult_charToLong (signed : Bool) (c : UInt8) :
    ioctlResult (charToLong signed c) =
      if signed = true ∧ 128 ≤ c.toNat then -1 else (c.toNat : Int) := by
  have bound := c.toNat_lt
  have plain : ioctlResult (c.toNat : Int) = c.toNat := by
    rw [ioctlResult, if_neg (by omega), int32_of_lt (by omega) (by omega)]
  cases signed with
  | false =>
      rw [if_neg (by simp)]
      exact plain
  | true =>
      have extended : charToLong true c = (c.toNat : Int).bmod 256 := by
        rw [charToLong, if_pos rfl]
      have value := Int.bmod_def (c.toNat : Int) 256
      by_cases high : 128 ≤ c.toNat
      · have negative : (c.toNat : Int).bmod 256 = c.toNat - 256 := by
          split at value <;> omega
        rw [extended, negative, if_pos ⟨rfl, high⟩, ioctlResult, if_pos (by omega)]
      · have positive : (c.toNat : Int).bmod 256 = c.toNat := by
          split at value <;> omega
        rw [extended, positive, if_neg (fun both => high both.2), plain]

section Loop

variable {signed : Bool} {s : Shared} {mm fuel i : Nat} {out : List UInt8}

/-- One round of the loop, at a byte of the message. -/
theorem getNthByteLoop_step {c : UInt8} (byte : s.1.get i = some c) :
    getNthByteLoop signed s mm (fuel + 1) i out =
      if signed = true ∧ 128 ≤ c.toNat then
        some (out ++ text "\nioctl_get_nth_byte failed at the " ++ formatInt (i + 1) ++
          text "'th byte:\n", -1)
      else if c = 0 then some (out ++ [0], 0)
      else getNthByteLoop signed s mm fuel (i + 1) (out ++ [c]) := by
  rw [getNthByteLoop, ioctlBody_getNthByte, byte, Option.map_some, Option.bind_some]
  simp only [ioctlResult_charToLong]
  by_cases negative : signed = true ∧ 128 ≤ c.toNat
  · rw [if_pos negative, if_pos (by decide)]
    simp only [if_pos negative]
  · have same : UInt8.ofNat (c.toNat : Int).toNat = c := by
      rw [Int.toNat_natCast, UInt8.ofNat_toNat]
    simp only [if_neg negative, same]
    rw [if_neg (by omega)]
    by_cases zero : c = 0
    · subst zero
      rfl
    · have nonzero : ¬ (c.toNat : Int) = 0 := by
        intro eq
        exact zero (UInt8.toNat_inj.1 (by simpa using eq))
      rw [if_pos nonzero, if_neg zero]

/-- The loop returns, at the latest at the end of the string. -/
theorem getNthByteLoop_isSome (within : i ≤ (cstr s.1.bytes).length)
    (enough : (cstr s.1.bytes).length < fuel + i) :
    (getNthByteLoop signed s mm fuel i out).isSome := by
  induction fuel generalizing i out with
  | zero => omega
  | succ fuel ih =>
      rcases Nat.lt_or_eq_of_le within with before | rfl
      · have byte : s.1.get i = some (cstr s.1.bytes)[i] :=
          (getElem?_cstr before).trans (List.getElem?_eq_getElem before)
        rw [getNthByteLoop_step byte]
        split
        · rfl
        · split
          · rfl
          · exact ih before (by omega)
      · have byte : s.1.get (cstr s.1.bytes).length = some 0 := cstr_end s.1.terminated
        rw [getNthByteLoop_step byte, if_neg (by simp), if_pos rfl]
        rfl

/-- From the byte `i` of the string the loop prints the rest of it and the NUL, unless a
byte of the rest comes back as an error. -/
theorem getNthByteLoop_iff (within : i ≤ (cstr s.1.bytes).length)
    (enough : (cstr s.1.bytes).length < fuel + i) :
    getNthByteLoop signed s mm fuel i out = some (out ++ ((cstr s.1.bytes).drop i ++ [0]), 0) ↔
      signed = false ∨ ∀ b ∈ (cstr s.1.bytes).drop i, b.toNat < 128 := by
  induction fuel generalizing i out with
  | zero => omega
  | succ fuel ih =>
      rcases Nat.lt_or_eq_of_le within with before | rfl
      · have byte : s.1.get i = some (cstr s.1.bytes)[i] :=
          (getElem?_cstr before).trans (List.getElem?_eq_getElem before)
        have nonzero : (cstr s.1.bytes)[i] ≠ 0 := cstr_ne_zero _ (List.getElem_mem before)
        rw [getNthByteLoop_step byte, List.drop_eq_getElem_cons before, List.forall_mem_cons]
        by_cases negative : signed = true ∧ 128 ≤ (cstr s.1.bytes)[i].toNat
        · obtain ⟨isSigned, high⟩ := negative
          rw [if_pos ⟨isSigned, high⟩]
          constructor
          · intro same
            have ret := congrArg (Option.map Prod.snd) same
            simp at ret
          · rintro (unsigned | small)
            · rw [isSigned] at unsigned
              cases unsigned
            · have low := small.1
              omega
        · have around : out ++ ((cstr s.1.bytes)[i] :: (cstr s.1.bytes).drop (i + 1) ++ [0]) =
              out ++ [(cstr s.1.bytes)[i]] ++ ((cstr s.1.bytes).drop (i + 1) ++ [0]) := by
            rw [List.append_assoc]
            rfl
          rw [if_neg negative, if_neg nonzero, around, ih before (by omega)]
          constructor
          · rintro (unsigned | small)
            · exact .inl unsigned
            · cases signed with
              | false => exact .inl rfl
              | true => exact .inr ⟨Nat.lt_of_not_le fun high => negative ⟨rfl, high⟩, small⟩
          · rintro (unsigned | small)
            · exact .inl unsigned
            · exact .inr small.2
      · have byte : s.1.get (cstr s.1.bytes).length = some 0 := cstr_end s.1.terminated
        rw [getNthByteLoop_step byte, if_neg (by simp), if_pos rfl, List.drop_length]
        simp

end Loop

/-! ## The two ways to the message -/

/-- **The two ways agree.**  `IOCTL_GET_MSG` copies the string and its NUL;
`ioctl_get_nth_byte` returns, and it prints the same and returns 0 exactly when `char` is
unsigned or the string is in ASCII. -/
theorem fetch_agree_iff (signed : Bool) (m : Message) (u : User) (mm : Nat) :
    (∀ addr, ioctlBody signed ⟨mm, IOCTL_GET_MSG, addr⟩ (m, u) =
      some ((m, putBytes u mm addr (cstr m.bytes ++ [0])), 0)) ∧
    (ioctlGetNthByte signed (m, u) mm).isSome ∧
    (ioctlGetNthByte signed (m, u) mm =
        some (text "get_nth_byte message:" ++ (cstr m.bytes ++ [0]), 0) ↔
      signed = false ∨ ∀ b ∈ cstr m.bytes, b.toNat < 128) := by
  have enough : (cstr m.bytes).length < BUF_LEN + 1 + 0 :=
    Nat.lt_succ_of_le (cstr_length_le_bufLen m)
  refine ⟨?_, ?_, ?_⟩
  · exact ioctlBody_getMsg signed m u mm
  · exact getNthByteLoop_isSome (s := (m, u)) (Nat.zero_le _) enough
  · exact getNthByteLoop_iff (s := (m, u)) (Nat.zero_le _) enough

/-- The message of the one byte 0xe9 is fetched as an error, where `char` is signed. -/
theorem fetch_disagree_e9 :
    let m := (deviceWrite Message.zero (userOf [0xe9]) 0 0 1).1
    cstr m.bytes = [0xe9] ∧ ioctlGetNthByte true (m, userOf []) 0 =
      some (text "get_nth_byte message:\nioctl_get_nth_byte failed at the 1'th byte:\n", -1) ∧
    ioctlGetNthByte true (m, userOf []) 0 ≠
      some (text "get_nth_byte message:" ++ (cstr m.bytes ++ [0]), 0) := by
  intro m
  have fetched : ioctlGetNthByte true (m, userOf []) 0 =
      some (text "get_nth_byte message:\nioctl_get_nth_byte failed at the 1'th byte:\n", -1) := by
    rw [ioctlGetNthByte, BUF_LEN, getNthByteLoop_step (c := 0xe9) rfl, if_pos (by decide)]
    decide
  refine ⟨by decide, fetched, ?_⟩
  rw [fetched]
  intro same
  have ret := congrArg (Option.map Prod.snd) same
  simp at ret

end Lkmpg.Chardev2
