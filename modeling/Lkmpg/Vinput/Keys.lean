/-
# Lkmpg.Vinput.Keys -- the numbers written to and read from a vkbd device

`parseKey_ok_iff` says which texts `vinput_vkbd_send` takes for which number, and
`vinputVkbdSend_eq` what it does with it.

* `strict_iff_isNumeral`: a write is refused as it should be on no text at all, so
  it is right on the numerals only.
* `faithful_iff`: the event has the code of the number written exactly when the
  number fits in the 32 bits of a code.
* `read_inverts_send`: the text of `last_entry` is sent back to the same
  `last_entry`, and what was sent is read back as its canonical text.
-/
import Lkmpg.Kernel.Numerals
import Lkmpg.Vinput.Vkbd

namespace Lkmpg.Vinput

open Lkmpg.Kernel Lkmpg.Theory

set_option autoImplicit false

/-! ## Parsing -/

/-- The `kstrtol` of `vinput_vkbd_send`. -/
def parseKey (buff : List UInt8) : Except Int Int :=
  kstrtol (if buff.head? = some 43 then buff.tail else buff)

/-- The number has a numeral of its own, or one after a `+`. -/
theorem parseKey_ok_iff {buff : List UInt8} {k : Int} :
    parseKey buff = .ok k ↔ ∃ n : Numeral,
      (cstr buff = n.bytes ∨ cstr buff = 43 :: n.bytes) ∧ n.value = k ∧ Long k := by
  rw [parseKey, kstrtol_ok_iff]
  by_cases plus : buff.head? = some 43
  · obtain ⟨rest, rfl⟩ := List.head?_eq_some_iff.1 plus
    rw [if_pos plus, List.tail_cons, cstr_cons (by decide)]
    constructor
    · rintro ⟨n, eq, value, long⟩
      exact ⟨n, .inr (by rw [eq]), value, long⟩
    · rintro ⟨⟨sign, ds, newline, nonempty, digits⟩, eq | eq, value, long⟩
      · cases sign with
        | none =>
            obtain ⟨b, rest, rfl⟩ := List.exists_cons_of_ne_nil nonempty
            cases (List.cons.inj eq).1
            exact absurd (digits 43 List.mem_cons_self) (by decide)
        | plus =>
            exact ⟨⟨.none, ds, newline, nonempty, digits⟩, (List.cons.inj eq).2, value, long⟩
        | minus => exact absurd (List.cons.inj eq).1 (by decide)
      · exact ⟨_, (List.cons.inj eq).2, value, long⟩
  · rw [if_neg plus]
    constructor
    · rintro ⟨n, eq, value, long⟩
      exact ⟨n, .inl eq, value, long⟩
    · rintro ⟨n, eq | eq, value, long⟩
      · exact ⟨n, eq, value, long⟩
      · cases buff with
        | nil => cases eq
        | cons b rest =>
            have nonzero : b ≠ 0 := by
              rintro rfl
              cases eq
            rw [cstr_cons nonzero] at eq
            exact absurd (by rw [(List.cons.inj eq).1]; rfl) plus

theorem parseKey_long {buff : List UInt8} {k : Int} (parsed : parseKey buff = .ok k) :
    Long k := by
  obtain ⟨-, -, -, long⟩ := parseKey_ok_iff.1 parsed
  exact long

theorem toInt_ofInt {k : Int} (long : Long k) : (Int64.ofInt k).toInt = k :=
  Int64.toInt_ofInt_of_le long.1 long.2

/-! ## The keys of the device -/

def KEY_MAX : Nat := 0x2ff

/-- `vkeymap` after `vkbd_init`. -/
def vkeymap : List Nat :=
  (List.range KEY_MAX).foldl (fun map i => map.set i i) (List.replicate KEY_MAX 0)

/-- `vinput->input->keybit` after the first `n` rounds of the loop of
`vinput_vkbd_init`. -/
def setKeybits (map : List Nat) (n : Nat) : Nat → Bool :=
  (List.range n).foldl (fun bits i => Function.update bits (map.getD i 0) true) fun _ => false

def keybit : Nat → Bool := setKeybits vkeymap KEY_MAX

theorem getElem?_vkeymap {i : Nat} (small : i < KEY_MAX) : vkeymap[i]? = some i := by
  have filled : ∀ n ≤ KEY_MAX, ∀ map : List Nat, map.length = KEY_MAX →
      ((List.range n).foldl (fun map i => map.set i i) map).length = KEY_MAX ∧
      ∀ i < n, ((List.range n).foldl (fun map i => map.set i i) map)[i]? = some i := by
    intro n
    induction n with
    | zero => exact fun _ map length => ⟨length, fun i less => absurd less (by omega)⟩
    | succ n ih =>
        intro within map length
        obtain ⟨kept, old⟩ := ih (by omega) map length
        rw [List.range_succ, List.foldl_append, List.foldl_cons, List.foldl_nil]
        refine ⟨by rw [List.length_set, kept], ?_⟩
        intro i less
        by_cases last : i = n
        · rw [last, List.getElem?_set_self (by omega)]
        · rw [List.getElem?_set_ne (Ne.symm last), old i (by omega)]
  exact (filled KEY_MAX (Nat.le_refl _) _ List.length_replicate).2 i small

/-- The keys of the device are the codes below `KEY_MAX`. -/
theorem keybit_eq (code : Nat) : keybit code = decide (code < KEY_MAX) := by
  have upTo : ∀ n ≤ KEY_MAX, setKeybits vkeymap n code = decide (code < n) := by
    intro n
    induction n with
    | zero => exact fun _ => by simp [setKeybits]
    | succ n ih =>
        intro within
        have here : vkeymap.getD n 0 = n := by
          rw [List.getD_eq_getElem?_getD, getElem?_vkeymap (by omega), Option.getD_some]
        have one : setKeybits vkeymap (n + 1) = Function.update (setKeybits vkeymap n) n true := by
          rw [setKeybits, List.range_succ, List.foldl_append, List.foldl_cons, List.foldl_nil, here]
          rfl
        rw [one]
        by_cases last : code = n
        · simp [last]
        · rw [Function.update_of_ne last, ih (by omega)]
          exact decide_eq_decide.2 (by omega)
  exact upTo KEY_MAX (Nat.le_refl _)

/-! ## The event of a key -/

/-- The text of `last_entry`. -/
def entryText (lastEntry : Int64) : List UInt8 := formatPlus lastEntry.toInt ++ text "\n"

/-- What `vinput_vkbd_send` passes to `input_report_key`. -/
def event (key : Int64) : Nat × Int :=
  (((if key < 0 then -key else key).toInt % 2 ^ 32).toNat,
    if key < 0 then VINPUT_RELEASE else VINPUT_PRESS)

/-- The code is the low half of the number's absolute value. -/
theorem event_ofInt {k : Int} (long : Long k) :
    event (.ofInt k) = (k.natAbs % 2 ^ 32, if k < 0 then VINPUT_RELEASE else VINPUT_PRESS) := by
  have value := toInt_ofInt long
  have sign : Int64.ofInt k < 0 ↔ k < 0 := by
    rw [Int64.lt_iff_toInt_lt, value]
    rfl
  simp only [event, sign, Prod.mk.injEq, and_true]
  by_cases negative : k < 0
  · have wrapped : (-Int64.ofInt k).toInt = (-k).bmod (2 ^ 64) := by rw [Int64.toInt_neg, value]
    rw [if_pos negative, wrapped, Int.bmod_def]
    split <;> omega
  · rw [if_neg negative, value]
    omega

theorem vinputVkbdSend_eq (lastEntry : Int64) {buff : List UInt8} {k : Int} (len : Int)
    (parsed : parseKey buff = .ok k) :
    vinputVkbdSend lastEntry buff len = ⟨.ofInt k, [event (.ofInt k)], len⟩ := by
  have eq : kstrtol (if buff.head? = some 43 then buff.tail else buff) = .ok k := parsed
  rw [vinputVkbdSend, eq]
  rfl

/-- A text that is no number is a press of the key 0. -/
theorem vinputVkbdSend_error (lastEntry : Int64) {buff : List UInt8} {err : Int} (len : Int)
    (failed : parseKey buff = .error err) :
    vinputVkbdSend lastEntry buff len = ⟨0, [(0, VINPUT_PRESS)], len⟩ := by
  have eq : kstrtol (if buff.head? = some 43 then buff.tail else buff) = .error err := failed
  rw [vinputVkbdSend, eq]
  rfl

/-- **The event of a number.**  The event has the number's absolute value as its code
exactly when that fits in 32 bits.  Numbers that fit and have the same sign and event
are the same, and one that is no key of the device makes no event of a key. -/
theorem faithful_iff {lastEntry : Int64} {buff : List UInt8} {k : Int} (len : Int)
    (parsed : parseKey buff = .ok k) :
    ((vinputVkbdSend lastEntry buff len).reported =
        [(k.natAbs, if 0 ≤ k then VINPUT_PRESS else VINPUT_RELEASE)] ↔ k.natAbs < 2 ^ 32) ∧
      (k.natAbs < 2 ^ 32 → ∀ lastEntry' buff' k' len', parseKey buff' = .ok k' →
        k'.natAbs < 2 ^ 32 → (0 ≤ k ↔ 0 ≤ k') →
        (vinputVkbdSend lastEntry buff len).reported =
          (vinputVkbdSend lastEntry' buff' len').reported → k = k') ∧
      (k.natAbs < 2 ^ 32 → keybit k.natAbs = false →
        ∀ e ∈ (vinputVkbdSend lastEntry buff len).reported, keybit e.1 = false) := by
  have type : (if k < 0 then VINPUT_RELEASE else VINPUT_PRESS) =
      if 0 ≤ k then VINPUT_PRESS else VINPUT_RELEASE := by
    by_cases negative : k < 0
    · rw [if_pos negative, if_neg (by omega)]
    · rw [if_neg negative, if_pos (by omega)]
  have sent := vinputVkbdSend_eq lastEntry len parsed
  have own := event_ofInt (parseKey_long parsed)
  rw [type] at own
  rw [sent, own]
  refine ⟨?_, ?_, ?_⟩
  · constructor
    · intro same
      have code : k.natAbs % 2 ^ 32 = k.natAbs := congrArg Prod.fst (List.cons.inj same).1
      omega
    · intro fits
      rw [Nat.mod_eq_of_lt fits]
  · intro fits lastEntry' buff' k' len' parsed' fits' sign same
    rw [vinputVkbdSend_eq lastEntry' len' parsed', event_ofInt (parseKey_long parsed')] at same
    have code : k.natAbs % 2 ^ 32 = k'.natAbs % 2 ^ 32 := congrArg Prod.fst (List.cons.inj same).1
    rw [Nat.mod_eq_of_lt fits, Nat.mod_eq_of_lt fits'] at code
    omega
  · intro fits unsupported e member
    rw [List.mem_singleton] at member
    rw [member, Nat.mod_eq_of_lt fits]
    exact unsupported

theorem faithful_iff_plus_30 : parseKey (text "+30\n") = .ok 30 ∧
    (vinputVkbdSend 0 (text "+30\n") 4).reported = [(30, VINPUT_PRESS)] :=
  ⟨by decide, (faithful_iff (k := 30) 4 (by decide)).1.2 (by decide)⟩

/-- `2^32 + 1` is no key of the device, and makes the event of the key 1. -/
theorem unfaithful_2_32_plus_1 : parseKey (text "4294967297") = .ok 4294967297 ∧
    (vinputVkbdSend 0 (text "4294967297") 10).reported = [(1, VINPUT_PRESS)] ∧
    keybit 4294967297 = false ∧ keybit 1 = true := by
  refine ⟨by decide, by decide, ?_, ?_⟩
  · rw [keybit_eq]
    decide
  · rw [keybit_eq]
    decide

/-! ## Writing to a device -/

section Device

variable {D F : Type} {types : D → VinputDevice}

/-- The file is open on the keyboard `v`, at the offset `off`. -/
structure OpenVkbd (types : D → VinputDevice) (s : State D F) (file : F) (v off : Nat) :
    Prop where
  opened : s.files file = some ⟨v, off⟩
  type : ∃ d, (s.vinput v).type = some d ∧ types d = vkbdDev

/-- The file `()` is open on the keyboard 0. -/
def keyboard : State Unit Unit :=
  let types : Unit → VinputDevice := fun _ => vkbdDev
  let s := (exportStore types (vinputRegister .init ()) (text "vkbd\n") ⟨true, true, 0, 0⟩).1
  (vinputOpen s () 0).1

theorem keyboard_open : OpenVkbd (fun _ => vkbdDev) keyboard () 0 0 :=
  ⟨rfl, (), rfl, rfl⟩

/-- `vinput_write` of up to 128 bytes always returns their number. -/
theorem vinputWrite_vkbd {s : State D F} {file : F} {v off : Nat}
    (opened : OpenVkbd types s file v off) {buffer : List UInt8}
    (fits : buffer.length ≤ VINPUT_MAX_LEN) :
    vinputWrite types s file buffer true =
      let sent := vinputVkbdSend (s.vinput v).lastEntry
        (buffer ++ List.replicate (VINPUT_MAX_LEN + 1 - buffer.length) 0) buffer.length
      some ({ s.modify v fun x => { x with lastEntry := sent.lastEntry } with
        reported := s.reported ++ sent.reported.map fun e => (v, e) }, (buffer.length : Int)) := by
  obtain ⟨d, type, vkbd⟩ := opened.type
  have buff : splice (List.replicate (VINPUT_MAX_LEN + 1) 0) 0 buffer =
      buffer ++ List.replicate (VINPUT_MAX_LEN + 1 - buffer.length) 0 := by
    rw [splice, List.take_zero, List.nil_append, Nat.zero_add, List.drop_replicate]
  simp only [vinputWrite, opened.opened, Option.bind_some, Nat.not_lt_of_le fits, if_false, type,
    Option.map_some, vkbd, buff]
  rfl

/-- What a write of `buffer` to `v` that returns `ret` should do. -/
def Strict (s t : State D F) (v : Nat) (buffer : List UInt8) (ret : Int) : Prop :=
  (IsNumeral buffer → ret = buffer.length) ∧
    (¬ IsNumeral buffer →
      ret < 0 ∧ (t.vinput v).lastEntry = (s.vinput v).lastEntry ∧ t.reported = s.reported)

/-- **Nothing is refused.**  A write is right exactly when the text is a numeral. -/
theorem strict_iff_isNumeral {s : State D F} {file : F} {v off : Nat}
    (opened : OpenVkbd types s file v off) {buffer : List UInt8}
    (fits : buffer.length ≤ VINPUT_MAX_LEN) :
    ∃ t ret, vinputWrite types s file buffer true = some (t, ret) ∧
      (Strict s t v buffer ret ↔ IsNumeral buffer) := by
  refine ⟨_, _, vinputWrite_vkbd opened fits, ?_⟩
  constructor
  · intro strict
    by_contra refused
    have negative := (strict.2 refused).1
    omega
  · intro numeral
    exact ⟨fun _ => rfl, fun refused => absurd numeral refused⟩

theorem strict_iff_isNumeral_plus_5 : ∃ t ret,
    vinputWrite (fun _ => vkbdDev) keyboard () (text "+5\n") true = some (t, ret) ∧
      (Strict keyboard t 0 (text "+5\n") ret ↔ IsNumeral (text "+5\n")) :=
  strict_iff_isNumeral keyboard_open (by decide)

/-- After `+30`, a write of `x` returns 1, sets `last_entry` to 0 and presses the
key 0. -/
theorem not_strict_x : ∃ s t,
    vinputWrite (fun _ => vkbdDev) keyboard () (text "+30\n") true = some (s, 4) ∧
      (s.vinput 0).lastEntry = 30 ∧ s.reported = [(0, 30, VINPUT_PRESS)] ∧
      vinputWrite (fun _ => vkbdDev) s () (text "x") true = some (t, 1) ∧
      (t.vinput 0).lastEntry = 0 ∧ t.reported = s.reported ++ [(0, 0, VINPUT_PRESS)] ∧
      ¬ Strict s t 0 (text "x") 1 := by
  refine ⟨_, _, rfl, rfl, rfl, rfl, rfl, rfl, ?_⟩
  intro strict
  have refused : ¬ IsNumeral (text "x") := by
    intro numeral
    obtain ⟨-, k, parsed⟩ := isNumeral_iff.1 numeral
    have failed : kstrtol (text "x") = .error (-EINVAL) := by decide
    rw [failed] at parsed
    cases parsed
  exact absurd (strict.2 refused).1 (by decide)

/-- A numeral leaves its value in `last_entry`, and one event. -/
theorem vinputWrite_numeral {s : State D F} {file : F} {v off : Nat}
    (opened : OpenVkbd types s file v off) {n : Numeral} (long : Long n.value)
    (fits : n.bytes.length ≤ VINPUT_MAX_LEN) :
    ∃ t, vinputWrite types s file n.bytes true = some (t, (n.bytes.length : Int)) ∧
      (t.vinput v).lastEntry.toInt = n.value ∧
      t.reported = s.reported ++ [(v, event (.ofInt n.value))] := by
  have parsed : parseKey (n.bytes ++ List.replicate (VINPUT_MAX_LEN + 1 - n.bytes.length) 0) =
      .ok n.value := by
    have room : VINPUT_MAX_LEN + 1 - n.bytes.length = VINPUT_MAX_LEN - n.bytes.length + 1 := by
      omega
    rw [room, List.replicate_succ]
    exact parseKey_ok_iff.2 ⟨n, .inl (cstr_append n.bytes_ne_zero), rfl, long⟩
  refine ⟨_, vinputWrite_vkbd opened fits, ?_, ?_⟩
  · simp only [State.modify, Function.update_self, vinputVkbdSend_eq _ _ parsed]
    exact toInt_ofInt long
  · rw [vinputVkbdSend_eq _ _ parsed]
    rfl

end Device

/-! ## Reading back -/

theorem length_entryText (k : Int64) : (entryText k).length ≤ 21 := by
  have number := formatPlus_length_le k
  have newline : (text "\n").length = 1 := by decide
  rw [entryText, List.length_append, newline]
  omega

theorem entryText_bytes (k : Int64) : entryText k = (Numeral.signed k.toInt true).bytes := by
  have newline : text "\n" = Numeral.ending true := by decide
  rw [entryText, Numeral.signed_bytes, newline]

theorem parseKey_entryText (k : Int64) (rest : List UInt8) :
    parseKey (entryText k ++ 0 :: rest) = .ok k.toInt := by
  have nonzero : ∀ b ∈ entryText k, b ≠ 0 := by
    rw [entryText_bytes]
    exact Numeral.bytes_ne_zero _
  refine parseKey_ok_iff.2 ⟨.signed k.toInt true, .inl ?_, Numeral.signed_value _ _, long_toInt k⟩
  rw [cstr_append nonzero, entryText_bytes]

/-- `ops->read` with the length `len`, which `snprintf` takes as a `size_t`. -/
theorem vinputVkbdRead_of_nonneg (k : Int64) {len : Int} (nonneg : 0 ≤ len) (high : len < 2 ^ 31) :
    vinputVkbdRead k len =
      (if len = 0 then [] else (entryText k).take (len.toNat - 1) ++ [0],
        ((entryText k).length : Int)) := by
  have size : (len % 2 ^ 64).toNat = len.toNat := by omega
  have eq : formatPlus k.toInt ++ text "\n" = entryText k := rfl
  rw [vinputVkbdRead, eq, snprintf, size, if_neg (by omega)]
  by_cases zero : len = 0
  · rw [if_pos zero, if_pos (by omega)]
  · rw [if_neg zero, if_neg (by omega)]

theorem vinputVkbdRead_eq (k : Int64) {len : Int32} (enough : 23 ≤ len.toInt) :
    vinputVkbdRead k len.toInt = (entryText k ++ [0], ((entryText k).length : Int)) := by
  have short := length_entryText k
  have top := len.toInt_lt
  rw [vinputVkbdRead_of_nonneg k (by omega) (by omega), if_neg (by omega),
    List.take_of_length_le (by omega)]

/-- **Reading back inverts sending.** -/
theorem read_inverts_send :
    (∀ (k lastEntry : Int64) (rest : List UInt8) (len : Int),
      (vinputVkbdSend lastEntry (entryText k ++ 0 :: rest) len).lastEntry = k) ∧
    ∀ (buff : List UInt8) (k : Int) (lastEntry : Int64) (sentLen : Int) (len : Int32),
      parseKey buff = .ok k → 23 ≤ len.toInt →
      let entry := (vinputVkbdSend lastEntry buff sentLen).lastEntry
      entry.toInt = k ∧
      vinputVkbdRead entry len.toInt = (entryText entry ++ [0], ((entryText entry).length : Int)) ∧
      ∀ (rest : List UInt8) (lastEntry' : Int64) (len' : Int),
        let again := vinputVkbdSend lastEntry' ((vinputVkbdRead entry len.toInt).1 ++ rest) len'
        vinputVkbdRead again.lastEntry len.toInt = vinputVkbdRead entry len.toInt := by
  have back : ∀ (k lastEntry : Int64) (rest : List UInt8) (len : Int),
      (vinputVkbdSend lastEntry (entryText k ++ 0 :: rest) len).lastEntry = k := by
    intro k lastEntry rest len
    rw [vinputVkbdSend_eq lastEntry len (parseKey_entryText k rest), Int64.ofInt_toInt]
  refine ⟨back, ?_⟩
  intro buff k lastEntry sentLen len parsed enough
  have entry : (vinputVkbdSend lastEntry buff sentLen).lastEntry = .ofInt k := by
    rw [vinputVkbdSend_eq lastEntry sentLen parsed]
  refine ⟨?_, vinputVkbdRead_eq _ enough, ?_⟩
  · rw [entry, toInt_ofInt (parseKey_long parsed)]
  · intro rest lastEntry' len'
    simp only [entry, vinputVkbdRead_eq _ enough, List.append_assoc, List.cons_append,
      List.nil_append, back]

/-- `+007` is read back as `+7`. -/
theorem read_inverts_send_plus_007 :
    let entry := (vinputVkbdSend 0 (text "+007") 4).lastEntry
    entry.toInt = 7 ∧ vinputVkbdRead entry 23 = (text "+7\n" ++ [0], 3) := by
  have back := read_inverts_send.2 (text "+007") 7 0 4 23 (by decide) (by decide)
  refine ⟨back.1, ?_⟩
  have seven : (vinputVkbdSend 0 (text "+007") 4).lastEntry = 7 := by
    rw [← Int64.toInt_inj, back.1]
    rfl
  have read := back.2.1
  rw [seven] at read ⊢
  exact read

end Lkmpg.Vinput
