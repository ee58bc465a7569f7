/-
# Lkmpg.Chardev2.Messages -- the message that was set, and the one that is read

`message` is an array that starts with a C string, and what is after the string
stays from earlier messages.  `deviceRead_eq` and `deviceWrite_bytes` say what a read
and a write do with the array.

* `set_get_iff`: `IOCTL_GET_MSG` returns what `IOCTL_SET_MSG` was given, but for the
  empty string.
* `write_read_iff`: what `device_write` was given is read back when the byte after it
  is a NUL already.
-/
import Lkmpg.Chardev2.Driver
import Lkmpg.Kernel.MsgBuffer

namespace Lkmpg.Chardev2

open Lkmpg.Kernel Lkmpg.Theory

set_option autoImplicit false

/-! ## User memory -/

/-- `put_user` of each byte in turn. -/
def putBytes (u : User) (mm : Nat) : (addr : Nat) → List UInt8 → User
  | _, [] => u
  | addr, b :: bytes => putBytes (putUser u mm addr b) mm (addr + 1) bytes

/-- `get_user` of each byte in turn. -/
def getBytes (u : User) (mm addr n : Nat) : List UInt8 :=
  (List.range n).map fun i => getUser u mm (addr + i)

theorem putBytes_append (u : User) (mm addr : Nat) (as bs : List UInt8) :
    putBytes u mm addr (as ++ bs) = putBytes (putBytes u mm addr as) mm (addr + as.length) bs := by
  induction as generalizing u addr with
  | nil => rfl
  | cons a as ih =>
      rw [List.cons_append, putBytes, ih, putBytes, List.length_cons, Nat.add_assoc, Nat.add_comm 1]

theorem putBytes_snoc (u : User) (mm addr : Nat) (bytes : List UInt8) (b : UInt8) :
    putBytes u mm addr (bytes ++ [b]) =
      putUser (putBytes u mm addr bytes) mm (addr + bytes.length) b := by
  rw [putBytes_append]
  rfl

/-- What stays accessible. -/
theorem putUser_isSome (u : User) (mm addr : Nat) (b : UInt8) (mm' addr' : Nat) :
    (putUser u mm addr b mm' addr').isSome = (u mm' addr').isSome := by
  unfold putUser
  split
  · rename_i here
    obtain ⟨rfl, rfl, accessible⟩ := here
    rw [accessible]
    rfl
  · rfl

theorem putBytes_isSome (mm mm' addr' : Nat) (bytes : List UInt8) :
    ∀ (u : User) (addr : Nat),
      (putBytes u mm addr bytes mm' addr').isSome = (u mm' addr').isSome := by
  induction bytes with
  | nil => exact fun _ _ => rfl
  | cons b bytes ih =>
      intro u addr
      rw [putBytes, ih, putUser_isSome]

/-- The cells before the bytes keep what they have. -/
theorem putBytes_before (mm addr' : Nat) (bytes : List UInt8) :
    ∀ (u : User) (addr : Nat), addr' < addr →
      putBytes u mm addr bytes mm addr' = u mm addr' := by
  induction bytes with
  | nil => exact fun _ _ _ => rfl
  | cons b bytes ih =>
      intro u addr before
      rw [putBytes, ih _ _ (by omega), putUser, if_neg (by omega)]

theorem putBytes_first {u : User} {mm addr : Nat} (b : UInt8) (bytes : List UInt8)
    (accessible : (u mm addr).isSome) : putBytes u mm addr (b :: bytes) mm addr = some b := by
  rw [putBytes, putBytes_before mm addr bytes _ _ (Nat.lt_succ_self addr), putUser,
    if_pos ⟨rfl, rfl, accessible⟩]

/-- Accessible bytes have what was put there. -/
theorem putBytes_inside (mm : Nat) (bytes : List UInt8) :
    ∀ (u : User) (addr : Nat), (∀ i, i < bytes.length → (u mm (addr + i)).isSome) →
      ∀ i, i < bytes.length → putBytes u mm addr bytes mm (addr + i) = bytes[i]? := by
  induction bytes with
  | nil => exact fun _ _ _ i less => absurd less (Nat.not_lt_zero i)
  | cons b bytes ih =>
      intro u addr accessible i less
      rw [List.length_cons] at less accessible
      cases i with
      | zero => exact putBytes_first b bytes (accessible 0 (by omega))
      | succ i =>
          have rest : ∀ i, i < bytes.length →
              (putUser u mm addr b mm (addr + 1 + i)).isSome := by
            intro j inside
            rw [putUser_isSome, Nat.add_assoc, Nat.add_comm 1]
            exact accessible (j + 1) (by omega)
          have cell := ih (putUser u mm addr b) (addr + 1) rest i (by omega)
          rw [putBytes, List.getElem?_cons_succ, ← cell, Nat.add_assoc, Nat.add_comm 1]

theorem getBytes_putBytes {u : User} {mm addr : Nat} {bytes : List UInt8}
    (accessible : ∀ i, i < bytes.length → (u mm (addr + i)).isSome) :
    getBytes (putBytes u mm addr bytes) mm addr bytes.length = bytes := by
  refine List.ext_getElem? fun i => ?_
  by_cases inside : i < bytes.length
  · rw [getBytes, List.getElem?_map, List.getElem?_range inside, Option.map_some, getUser,
      putBytes_inside mm bytes u addr accessible i inside, List.getElem?_eq_getElem inside]
    rfl
  · rw [List.getElem?_eq_none (Nat.le_of_not_lt inside), List.getElem?_eq_none]
    rw [getBytes, List.length_map, List.length_range]
    exact Nat.le_of_not_lt inside

/-! ## Reads and writes -/

theorem Message.terminated (m : Message) : (0 : UInt8) ∈ m.bytes := List.mem_of_getElem? m.last

theorem cstr_length_le_bufLen (m : Message) : (cstr m.bytes).length ≤ BUF_LEN := by
  by_contra long
  have within : BUF_LEN < (cstr m.bytes).length := Nat.lt_of_not_le long
  have last := m.last
  rw [getElem?_cstr within, List.getElem?_eq_getElem within] at last
  exact cstr_ne_zero _ (List.getElem_mem within) (Option.some.inj last)

theorem readLoop_eq (m : Message) (mm length : Nat) :
    ∀ (ptr buffer n : Nat) (u : User), readLoop m mm length ptr buffer n u =
      (copyLoop m.bytes length ptr).map fun bytes =>
        (putBytes u mm buffer bytes, n + bytes.length) := by
  induction length with
  | zero => exact fun _ _ _ _ => rfl
  | succ length ih =>
      intro ptr buffer n u
      rw [readLoop, copyLoop, Message.get]
      cases m.bytes[ptr]? with
      | none => rfl
      | some c =>
          rw [Option.bind_some, Option.bind_some]
          split
          · rfl
          · rw [ih, Option.map_map]
            congr 1
            funext bytes
            rw [Function.comp_apply, putBytes, List.length_cons, Nat.add_right_comm]
            rfl

theorem deviceRead_eq (m : Message) (u : User) (mm buffer length offset : Nat) :
    deviceRead m u mm buffer length offset =
      (readMsg m.bytes length offset).map fun got =>
        (putBytes u mm buffer got.1, got.2, got.1.length) := by
  rw [deviceRead, readMsg, Message.get]
  cases m.bytes[offset]? with
  | none => rfl
  | some c =>
      rw [Option.bind_some, Option.bind_some]
      split
      · rfl
      · rw [readLoop_eq, Option.map_map, Option.map_map]
        congr 1
        funext bytes
        simp only [Function.comp_apply, Nat.zero_add]

theorem writeLoop_eq (u : User) (mm buffer length left : Nat) :
    ∀ (i : Nat) (m : Message), i + left = BUF_LEN → i ≤ min length BUF_LEN →
      (writeLoop u mm buffer length left i m).1.bytes =
        splice m.bytes i (getBytes u mm (buffer + i) (min length BUF_LEN - i)) ∧
      (writeLoop u mm buffer length left i m).2 = min length BUF_LEN := by
  induction left with
  | zero =>
      intro i m sum within
      have whole : min length BUF_LEN = i := by omega
      rw [writeLoop, whole, Nat.sub_self]
      exact ⟨(splice_nil _ _).symm, rfl⟩
  | succ left ih =>
      intro i m sum within
      rw [writeLoop]
      split
      · rename_i small
        obtain ⟨bytes, count⟩ := ih (i + 1)
          (m.store i (getUser u mm (buffer + i)) small.2) (by omega) (by omega)
        refine ⟨?_, count⟩
        have more : min length BUF_LEN - i = min length BUF_LEN - (i + 1) + 1 := by omega
        have first : getBytes u mm (buffer + i) (min length BUF_LEN - i) =
            [getUser u mm (buffer + i)] ++
              getBytes u mm (buffer + (i + 1)) (min length BUF_LEN - (i + 1)) := by
          rw [more, getBytes, getBytes, List.range_succ_eq_map, List.map_cons, List.map_map]
          simp only [List.cons_append, List.nil_append, Nat.add_zero, List.cons.injEq, true_and]
          refine List.map_congr_left fun j _ => ?_
          rw [Function.comp_apply, Nat.succ_eq_add_one]
          congr 1
          omega
        have stored : (m.store i (getUser u mm (buffer + i)) small.2).bytes =
            splice m.bytes i [getUser u mm (buffer + i)] := by
          have bound : i < m.bytes.length := by
            rw [m.bytes_len]
            omega
          show m.bytes.set i (getUser u mm (buffer + i)) = _
          rw [splice, List.set_eq_take_append_cons_drop, if_pos bound]
          simp
        have fits : i + [getUser u mm (buffer + i)].length +
            (getBytes u mm (buffer + (i + 1)) (min length BUF_LEN - (i + 1))).length ≤
              m.bytes.length := by
          rw [m.bytes_len, getBytes, List.length_map, List.length_range, List.length_singleton]
          omega
        rw [bytes, stored, first]
        exact splice_append fits
      · have whole : min length BUF_LEN = i := by omega
        rw [whole, Nat.sub_self]
        exact ⟨(splice_nil _ _).symm, rfl⟩

/-- A write leaves the bytes it copied, and after them what was there. -/
theorem deviceWrite_bytes (m : Message) (u : User) (mm buffer length : Nat) :
    (deviceWrite m u mm buffer length).1.bytes =
      getBytes u mm buffer (min length BUF_LEN) ++ m.bytes.drop (min length BUF_LEN) := by
  have written := (writeLoop_eq u mm buffer length BUF_LEN 0 m (Nat.zero_add _) (Nat.zero_le _)).1
  have count : (getBytes u mm buffer (min length BUF_LEN)).length = min length BUF_LEN := by
    rw [getBytes, List.length_map, List.length_range]
  rw [Nat.add_zero, Nat.sub_zero, splice, List.take_zero, List.nil_append, Nat.zero_add,
    count] at written
  exact written

theorem deviceWrite_count (m : Message) (u : User) (mm buffer length : Nat) :
    (deviceWrite m u mm buffer length).2 = min length BUF_LEN :=
  (writeLoop_eq u mm buffer length BUF_LEN 0 m (Nat.zero_add _) (Nat.zero_le _)).2

/-- The message after a write of `b`: what was written, and what is after it. -/
theorem deviceWrite_message {u : User} {mm buffer : Nat} {b : List UInt8} (m : Message)
    (bytes : ∀ i, i < b.length → u mm (buffer + i) = b[i]?) {length : Nat}
    (within : length ≤ b.length) :
    (deviceWrite m u mm buffer length).1.bytes =
      b.take (min length BUF_LEN) ++ m.bytes.drop (min length BUF_LEN) := by
  have copied : getBytes u mm buffer (min length BUF_LEN) = b.take (min length BUF_LEN) := by
    refine List.ext_getElem? fun i => ?_
    by_cases inside : i < min length BUF_LEN
    · have cell : i < b.length := by omega
      rw [getBytes, List.getElem?_map, List.getElem?_range inside, Option.map_some, getUser,
        bytes i cell, List.getElem?_take_of_lt inside, List.getElem?_eq_getElem cell]
      rfl
    · rw [List.getElem?_eq_none, List.getElem?_eq_none]
      · rw [List.length_take]
        omega
      · rw [getBytes, List.length_map, List.length_range]
        omega
  rw [deviceWrite_bytes, copied]

/-! ## Setting and getting the message -/

/-- The string `s` and its terminator are at `addr`. -/
structure UserString (u : User) (mm addr : Nat) (s : List UInt8) : Prop where
  bytes : ∀ i, i < (s ++ [0]).length → u mm (addr + i) = (s ++ [0])[i]?
  nonzero : ∀ b ∈ s, b ≠ 0

namespace UserString

variable {u : User} {mm addr : Nat} {s : List UInt8}

theorem getUser_lt (str : UserString u mm addr s) {i : Nat} (inside : i < s.length) :
    getUser u mm (addr + i) ≠ 0 := by
  rw [getUser, str.bytes i (by rw [List.length_append]; omega), List.getElem?_append_left inside,
    List.getElem?_eq_getElem inside]
  exact str.nonzero _ (List.getElem_mem inside)

theorem getUser_end (str : UserString u mm addr s) : getUser u mm (addr + s.length) = 0 := by
  rw [getUser, str.bytes s.length (by simp), List.getElem?_append_right (Nat.le_refl _),
    Nat.sub_self]
  rfl

/-- The loop counts the terminator, if it gets there. -/
theorem scanLoop_eq (str : UserString u mm addr s) (left : Nat) :
    ∀ (i : Nat) (ch : UInt8), i + left = BUF_LEN → i ≤ s.length → ch ≠ 0 →
      scanLoop u mm left i (addr + i) ch = min (s.length + 1) BUF_LEN := by
  induction left with
  | zero =>
      intro i ch sum within _
      rw [scanLoop]
      omega
  | succ left ih =>
      intro i ch sum within nonzero
      rw [scanLoop, if_neg nonzero]
      rcases Nat.lt_or_eq_of_le within with inside | rfl
      · exact ih (i + 1) _ (by omega) inside (str.getUser_lt inside)
      · rw [str.getUser_end]
        cases left with
        | zero =>
            rw [scanLoop]
            omega
        | succ left =>
            rw [scanLoop, if_pos rfl]
            omega

/-- The string that `IOCTL_SET_MSG` leaves in the message. -/
theorem cstr_setMsg (str : UserString u mm addr s) (m : Message) :
    cstr (setMsg (m, u) ⟨mm, IOCTL_SET_MSG, addr⟩).1.bytes =
      if s = [] then cstr m.bytes else s.take BUF_LEN := by
  by_cases empty : s = []
  · subst empty
    have stop : getUser u mm addr = 0 := str.getUser_end
    have scan : scanLoop u mm BUF_LEN 0 addr 0 = 0 := by rw [BUF_LEN, scanLoop, if_pos rfl]
    have message := deviceWrite_message m str.bytes (Nat.zero_le _)
    rw [Nat.zero_min, List.take_zero, List.drop_zero, List.nil_append] at message
    rw [if_pos rfl, setMsg]
    simp only [stop, scan, message]
  · have start : getUser u mm addr ≠ 0 := str.getUser_lt (List.length_pos_iff.2 empty)
    have scan : scanLoop u mm BUF_LEN 0 addr (getUser u mm addr) = min (s.length + 1) BUF_LEN :=
      str.scanLoop_eq BUF_LEN 0 _ (Nat.zero_add _) (Nat.zero_le _) start
    have within : min (s.length + 1) BUF_LEN ≤ (s ++ [0]).length := by
      rw [List.length_append, List.length_singleton]
      omega
    have message := deviceWrite_message m str.bytes within
    rw [Nat.min_assoc, Nat.min_self] at message
    rw [if_neg empty, setMsg]
    simp only [scan, message]
    by_cases long : BUF_LEN ≤ s.length
    · have tail : m.bytes.drop BUF_LEN = [0] := by
        have length : (m.bytes.drop BUF_LEN).length = 1 := by
          rw [List.length_drop, m.bytes_len]
          omega
        obtain ⟨b, one⟩ := List.length_eq_one_iff.1 length
        have cell := m.last
        rw [← List.head?_drop, one] at cell
        cases cell
        exact one
      rw [Nat.min_eq_right (by omega), List.take_append_of_le_length long, tail]
      exact cstr_append fun b member => str.nonzero b (List.mem_of_mem_take member)
    · have whole : (s ++ [0]).length = s.length + 1 := by simp
      rw [Nat.min_eq_left (by omega), List.take_of_length_le (by omega),
        List.take_of_length_le (by omega), List.append_assoc]
      exact cstr_append str.nonzero

end UserString

/-- `IOCTL_GET_MSG` copies the string out, and its terminator. -/
theorem getMsg_eq (m : Message) (u : User) (c : Call) :
    getMsg (m, u) c =
      some (m, putBytes u c.mm c.ioctlParam (cstr m.bytes ++ [0])) := by
  have short := cstr_length_le_bufLen m
  rw [BUF_LEN] at short
  obtain ⟨off, read⟩ := readMsg_start m.terminated 99
  rw [List.take_of_length_le (by omega)] at read
  rw [getMsg, deviceRead_eq, read, putBytes_snoc]
  rfl

theorem ioctlBody_getMsg (signed : Bool) (m : Message) (u : User) (mm addr : Nat) :
    ioctlBody signed ⟨mm, IOCTL_GET_MSG, addr⟩ (m, u) =
      some ((m, putBytes u mm addr (cstr m.bytes ++ [0])), 0) := by
  show (getMsg (m, u) ⟨mm, IOCTL_GET_MSG, addr⟩).map (fun s => (s, 0)) = _
  rw [getMsg_eq]
  rfl

theorem ioctlBody_setMsg (signed : Bool) (m : Message) (u : User) (mm addr : Nat) :
    ioctlBody signed ⟨mm, IOCTL_SET_MSG, addr⟩ (m, u) =
      some (((setMsg (m, u) ⟨mm, IOCTL_SET_MSG, addr⟩).1, u), 0) := by
  rfl

/-- `IOCTL_GET_NTH_BYTE` returns the byte, without a value when there is none. -/
theorem ioctlBody_getNthByte (signed : Bool) (s : Shared) (mm i : Nat) :
    ioctlBody signed ⟨mm, IOCTL_GET_NTH_BYTE, i⟩ s =
      (s.1.get i).map fun b => (s, charToLong signed b) := by
  rfl

/-- After `IOCTL_SET_MSG` with `s`, any `IOCTL_GET_MSG` copies out the first 80 bytes of
`s` and a NUL. -/
def SetThenGet (signed : Bool) (m : Message) (s : List UInt8) : Prop :=
  ∀ u mm addr, UserString u mm addr s →
    ∃ m', ioctlBody signed ⟨mm, IOCTL_SET_MSG, addr⟩ (m, u) = some ((m', u), 0) ∧
      ∀ u' mm' addr', ioctlBody signed ⟨mm', IOCTL_GET_MSG, addr'⟩ (m', u') =
        some ((m', putBytes u' mm' addr' (s.take BUF_LEN ++ [0])), 0)

/-- **Set, then get.**  It holds for every string but the empty one, which leaves the old
message where it is. -/
theorem set_get_iff (signed : Bool) (m : Message) (s : List UInt8) :
    SetThenGet signed m s ↔ s ≠ [] ∨ m.get 0 = some 0 := by
  constructor
  · intro right
    by_contra wrong
    rw [not_or, not_not] at wrong
    obtain ⟨rfl, first⟩ := wrong
    have zeros : UserString (fun _ _ => some 0) 0 0 [] := ⟨fun i less => by simp_all, by simp⟩
    obtain ⟨m', setDone, getDone⟩ := right _ _ _ zeros
    rw [ioctlBody_setMsg] at setDone
    cases setDone
    have got := getDone (fun _ _ => some 0) 0 0
    rw [ioctlBody_getMsg, zeros.cstr_setMsg m, if_pos rfl] at got
    -- The first byte put is not a NUL.
    have nonempty : cstr m.bytes ≠ [] := fun empty =>
      first ((cstr_eq_nil_iff m.terminated).1 empty)
    obtain ⟨b, rest, split⟩ := List.exists_cons_of_ne_nil nonempty
    have nonzero : b ≠ 0 := cstr_ne_zero b (split ▸ List.mem_cons_self)
    have memory := congrArg (fun r : Option (Shared × Int) => r.map fun done => done.1.2 0 0) got
    simp only [split, List.cons_append, List.take_nil, List.nil_append, Option.map_some] at memory
    rw [putBytes_first b _ rfl, putBytes_first 0 _ rfl] at memory
    cases memory
    exact nonzero rfl
  · intro condition u mm addr str
    refine ⟨_, ioctlBody_setMsg signed m u mm addr, ?_⟩
    intro u' mm' addr'
    rw [ioctlBody_getMsg, str.cstr_setMsg m]
    by_cases empty : s = []
    · subst empty
      have first : m.get 0 = some 0 := by simpa using condition
      rw [if_pos rfl, (cstr_eq_nil_iff m.terminated).2 first]
      rfl
    · rw [if_neg empty]

/-- User memory that has the bytes from the address 0 on, and NULs after them. -/
def userOf (bytes : List UInt8) : User := fun _ addr => some (bytes.getD addr 0)

theorem userOf_string {s : List UInt8} (nonzero : ∀ b ∈ s, b ≠ 0) :
    UserString (userOf s) 0 0 s := by
  refine ⟨fun i inside => ?_, nonzero⟩
  rw [Nat.zero_add, userOf, List.getD_eq_getElem?_getD]
  rw [List.length_append, List.length_singleton] at inside
  by_cases inString : i < s.length
  · rw [List.getElem?_append_left inString, List.getElem?_eq_getElem inString]
    rfl
  · have last : i = s.length := by omega
    rw [last, List.getElem?_append_right (Nat.le_refl _), Nat.sub_self,
      List.getElem?_eq_none (Nat.le_refl _)]
    rfl

theorem userOf_bytes (b : List UInt8) (mm : Nat) :
    ∀ i, i < b.length → userOf b mm (0 + i) = b[i]? := by
  intro i inside
  rw [Nat.zero_add, userOf, List.getD_eq_getElem?_getD, List.getElem?_eq_getElem inside]
  rfl

/-- After `hi`, setting the empty string leaves `hi`. -/
theorem not_setThenGet_empty :
    ¬ SetThenGet true (setMsg (Message.zero, userOf (text "hi")) ⟨0, IOCTL_SET_MSG, 0⟩).1 [] := by
  intro right
  obtain ⟨m', set, get⟩ := right _ _ _ (userOf_string (s := []) (by simp))
  cases set
  have memory := congrArg (fun r : Option (Shared × Int) => r.map fun done => done.1.2 0 0)
    (get (userOf []) 0 0)
  exact absurd memory (by decide)

/-! ## Writing and reading the message -/

/-- A `read` into the `length` bytes at `buffer`. -/
structure ReadCall where
  buffer : Nat
  length : Nat

/-- The buffer is the caller's memory. -/
def ReadCall.Accessible (u : User) (mm : Nat) (call : ReadCall) : Prop :=
  ∀ i, i < call.length → (u mm (call.buffer + i)).isSome

/-- The calls one after the other, on a file at the offset: what each returns, and what
is then in that many bytes of its buffer. -/
def readCalls (m : Message) (mm : Nat) :
    User → (offset : Nat) → List ReadCall → Option (List (Nat × List UInt8))
  | _, _, [] => some []
  | u, offset, call :: calls =>
      (deviceRead m u mm call.buffer call.length offset).bind fun done =>
        (readCalls m mm done.1 done.2.1 calls).map fun rest =>
          (done.2.2, getBytes done.1 mm call.buffer done.2.2) :: rest

theorem readCalls_eq (m : Message) (mm : Nat) (calls : List ReadCall) :
    ∀ (u : User) (offset : Nat), (∀ call ∈ calls, call.Accessible u mm) →
      readCalls m mm u offset calls =
        (readMsgs m.bytes offset (calls.map ReadCall.length)).map fun reads =>
          reads.map fun bytes => (bytes.length, bytes) := by
  induction calls with
  | nil => exact fun _ _ _ => rfl
  | cons call calls ih =>
      intro u offset accessible
      obtain ⟨here, later⟩ := List.forall_mem_cons.1 accessible
      rw [readCalls, deviceRead_eq, List.map_cons, readMsgs]
      cases read : readMsg m.bytes call.length offset with
      | none => rfl
      | some got =>
          have fits := readMsg_length_le read
          have kept : ∀ call' ∈ calls,
              call'.Accessible (putBytes u mm call.buffer got.1) mm := by
            intro call' member i inside
            rw [putBytes_isSome]
            exact later call' member i inside
          have stored : getBytes (putBytes u mm call.buffer got.1) mm call.buffer got.1.length =
              got.1 := getBytes_putBytes fun i inside => here i (by omega)
          simp only [Option.map_some, Option.bind_some, ih _ _ kept, stored, Option.map_map]
          rfl

section Twice

variable {u : User} {mm : Nat} {call : ReadCall}

theorem twice_accessible (positive : 0 < call.length) (accessible : call.Accessible u mm) :
    ∀ c ∈ [call, call], 0 < c.length ∧ c.Accessible u mm := by
  intro c member
  have same : c = call := by simpa using member
  rw [same]
  exact ⟨positive, accessible⟩

/-- A call that is long enough reads the whole string, and the next one returns 0. -/
theorem readCalls_twice {m : Message} (some : cstr m.bytes ≠ [])
    (accessible : call.Accessible u mm) (enough : BUF_LEN ≤ call.length) :
    readCalls m mm u 0 [call, call] =
      .some [((cstr m.bytes).length, cstr m.bytes), (0, [])] := by
  have all : (cstr m.bytes).length ≤ call.length :=
    Nat.le_trans (cstr_length_le_bufLen m) enough
  have calls : ∀ c ∈ [call, call], c.Accessible u mm := by simpa using accessible
  rw [readCalls_eq m mm _ u 0 calls, List.map_cons, List.map_cons, List.map_nil,
    readMsgs_twice m.terminated some all]
  rfl

end Twice

/-- After a write of `b`, what is read up to the first 0 is what was written. -/
def Replaces (m : Message) (b : List UInt8) : Prop :=
  ∀ u mm buffer, (∀ i, i < b.length → u mm (buffer + i) = b[i]?) →
    let written := deviceWrite m u mm buffer b.length
    ∀ u' mm' calls, (∀ call ∈ calls, 0 < call.length ∧ call.Accessible u' mm') →
      ∃ reads, readCalls written.1 mm' u' 0 calls = some reads ∧
        ∀ pre r post, reads = pre ++ (0, r) :: post → (∀ x ∈ pre, x.1 ≠ 0) →
          (pre.map Prod.snd).flatten = b.take written.2

/-- The string in the message after a write. -/
theorem cstr_deviceWrite {m : Message} {u : User} {mm buffer : Nat} {b : List UInt8}
    (nonzero : ∀ x ∈ b, x ≠ 0) (bytes : ∀ i, i < b.length → u mm (buffer + i) = b[i]?) :
    cstr (deviceWrite m u mm buffer b.length).1.bytes =
      b.take (min b.length BUF_LEN) ++ cstr (m.bytes.drop (min b.length BUF_LEN)) := by
  rw [deviceWrite_message m bytes (Nat.le_refl _)]
  exact cstr_append_of_ne_zero fun x member => nonzero x (List.mem_of_mem_take member)

/-- **Write, then read.**  The message is replaced exactly when the byte after the written
ones is a NUL. -/
theorem write_read_iff {b : List UInt8} (nonzero : ∀ x ∈ b, x ≠ 0) (m : Message) :
    Replaces m b ↔ m.get (min b.length BUF_LEN) = some 0 := by
  have within : min b.length BUF_LEN ≤ BUF_LEN := Nat.min_le_right _ _
  have tail : (0 : UInt8) ∈ m.bytes.drop (min b.length BUF_LEN) := by
    refine List.mem_of_getElem? (i := BUF_LEN - min b.length BUF_LEN) ?_
    rw [List.getElem?_drop, Nat.add_sub_cancel' within, m.last]
  have empty : cstr (m.bytes.drop (min b.length BUF_LEN)) = [] ↔
      m.get (min b.length BUF_LEN) = some 0 := by
    rw [cstr_eq_nil_iff tail, List.getElem?_drop, Nat.add_zero]
    rfl
  rw [← empty]
  constructor
  · intro right
    -- One read takes the whole message, and the next one returns 0.
    have accessible : (ReadCall.mk 0 100).Accessible (userOf []) 0 := fun _ _ => rfl
    obtain ⟨reads, read, ended⟩ := right (userOf b) 0 0 (userOf_bytes b 0) (userOf []) 0 _
      (twice_accessible (by decide) accessible)
    have text := cstr_deviceWrite (m := m) nonzero (userOf_bytes b 0)
    have count := deviceWrite_count m (userOf b) 0 0 b.length
    generalize deviceWrite m (userOf b) 0 0 b.length = written at read ended text count
    by_contra more
    have some : cstr written.1.bytes ≠ [] := by
      rw [text]
      exact List.append_ne_nil_of_right_ne_nil _ more
    rw [readCalls_twice some accessible (by decide)] at read
    cases read
    have same := ended [((cstr written.1.bytes).length, cstr written.1.bytes)] [] [] rfl
      (by simpa using some)
    have lengths := congrArg List.length same
    rw [count] at lengths
    simp only [List.map_cons, List.map_nil, List.flatten_cons, List.flatten_nil,
      List.append_nil, text, List.length_append] at lengths
    have left := List.length_pos_iff.2 more
    omega
  · intro stop u mm buffer bytes written u' mm' calls accessible
    have text : cstr written.1.bytes = b.take written.2 := by
      rw [cstr_deviceWrite nonzero bytes, stop, List.append_nil, deviceWrite_count]
    have positive : ∀ length ∈ calls.map ReadCall.length, 0 < length := by
      intro length member
      obtain ⟨call, inCalls, rfl⟩ := List.mem_map.1 member
      exact (accessible call inCalls).1
    obtain ⟨reads, off, read, transcript⟩ :=
      readMsgs_transcript written.1.terminated positive (Transcript.start _)
    rw [readCalls_eq _ _ _ _ _ fun call member => (accessible call member).2, read]
    refine ⟨_, rfl, (returned_zero_iff fun bytes => List.length_eq_zero_iff).2 ?_⟩
    intro pre post split first
    rw [← text]
    exact transcript.whole split first

theorem write_read_iff_hello : Replaces Message.zero (text "hello") :=
  (write_read_iff (ne_zero_of_all (by decide)) Message.zero).2 (by decide)

/-- `hi` written after `hello` is read as `hillo`. -/
theorem not_replaces_hi :
    let hello := (deviceWrite Message.zero (userOf (text "hello")) 0 0 5).1
    readCalls (deviceWrite hello (userOf (text "hi")) 0 0 2).1 0 (userOf []) 0
        [⟨0, 100⟩, ⟨0, 100⟩] = some [(5, text "hillo"), (0, [])] ∧
      ¬ Replaces hello (text "hi") := by
  intro hello
  have read : readCalls (deviceWrite hello (userOf (text "hi")) 0 0 2).1 0 (userOf []) 0
      [⟨0, 100⟩, ⟨0, 100⟩] = some [(5, text "hillo"), (0, [])] := by
    decide
  refine ⟨read, fun right => ?_⟩
  have accessible : (ReadCall.mk 0 100).Accessible (userOf []) 0 := fun _ _ => rfl
  obtain ⟨reads, again, ended⟩ := right _ 0 0 (userOf_bytes (text "hi") 0) _ 0 _
    (twice_accessible (by decide) accessible)
  cases read.symm.trans again
  exact absurd (ended [(5, text "hillo")] [] [] rfl (by simp)) (by decide)

end Lkmpg.Chardev2
