/-
# Lkmpg.Vinput.Reads -- reading a vkbd device in chunks

`vinput_read` has `ops->read` print no more than `count` bytes, and cuts the count
off at the end of `buff` and not of the text.  `delivered` is what one call puts in
the user buffer, as a function of the last entry, the offset and the count, and
`reads_exact_iff` says for which counts the calls deliver the text and nothing else.
-/
import Lkmpg.Theory.Chunks
import Lkmpg.Vinput.Keys

namespace Lkmpg.Vinput

open Lkmpg.Kernel Lkmpg.Theory

set_option autoImplicit false

/-! ## One call -/

/-- The bytes one `vinput_read` delivers; `none` is a byte `ops->read` has not
written. -/
def delivered (k : Int64) (off count : Nat) : List (Option UInt8) :=
  let read := vinputVkbdRead k (int32 count)
  (List.range (readCount count off read.2)).map fun i => read.1[off + i]?

theorem join_splice {N j : Nat} {w : List UInt8} (fits : w.length ≤ N) :
    ((splice (List.replicate N none) 0 (w.map some))[j]?).join = w[j]? := by
  have fits' : 0 + (w.map some).length ≤ (List.replicate N (none : Option UInt8)).length := by
    simpa using fits
  by_cases inside : j < w.length
  · have cell := splice_inside fits' (i := j) (by simpa using inside)
    rw [Nat.zero_add] at cell
    rw [cell, List.getElem?_map, List.getElem?_eq_getElem inside]
    rfl
  · rw [splice_frame fits' (.inr (by simpa using inside)),
      List.getElem?_eq_none (Nat.le_of_not_lt inside), List.getElem?_replicate]
    split <;> rfl

/-- The low 32 bits, taken as they are or less `2^32`. -/
theorem int32_cases (n : Nat) :
    (int32 n = (n % 2 ^ 32 : Nat) ∧ n % 2 ^ 32 < 2 ^ 31) ∨
      (int32 n = (n % 2 ^ 32 : Nat) - 2 ^ 32 ∧ 2 ^ 31 ≤ n % 2 ^ 32) := by
  rw [int32, Int.bmod_def]
  split <;> omega

/-- What `ops->read` writes to `buff` when it is called with the length `len`. -/
def written (k : Int64) (len : Int) : List UInt8 :=
  if len = 0 then [] else (entryText k).take (len.toNat - 1) ++ [0]

theorem vinputVkbdRead_negative (k : Int64) {count : Nat} (negative : int32 count < 0) :
    vinputVkbdRead k (int32 count) = ([], 0) := by
  have size : 2 ^ 31 ≤ (int32 count % 2 ^ 64).toNat := by
    rcases int32_cases count with ⟨eq, -⟩ | ⟨eq, -⟩ <;> omega
  simp only [vinputVkbdRead, snprintf, size, if_true]

theorem vinputVkbdRead_written (k : Int64) {count : Nat} (nonnegative : 0 ≤ int32 count) :
    vinputVkbdRead k (int32 count) =
      (written k (int32 count), ((entryText k).length : Int)) := by
  have high : int32 count < 2 ^ 31 := by
    rcases int32_cases count with ⟨eq, small⟩ | ⟨eq, -⟩ <;> omega
  exact vinputVkbdRead_of_nonneg k nonnegative high

theorem delivered_eq (k : Int64) (off : Nat) {count : Nat} (nonnegative : 0 ≤ int32 count) :
    delivered k off count =
      (List.range (readCount count off (entryText k).length)).map fun i =>
        (written k (int32 count))[off + i]? := by
  simp only [delivered, vinputVkbdRead_written k nonnegative]

theorem length_entryText_pos (k : Int64) : 0 < (entryText k).length := by
  have newline : (text "\n").length = 1 := by decide
  rw [entryText, List.length_append, newline]
  omega

/-! ### The three branches of vinput_read -/

section Branches

variable {count off : Nat} {len : Int}

theorem readCount_past (past : len < off) : readCount count off len = 0 := by
  rw [readCount, if_pos past]

theorem readCount_far (within : off ≤ len) (far : VINPUT_MAX_LEN < ulong (count + off)) :
    readCount count off len = (len - off).toNat := by
  rw [readCount, if_neg (by omega), if_pos far]

theorem readCount_near (within : off ≤ len) (near : ¬ VINPUT_MAX_LEN < ulong (count + off)) :
    readCount count off len = count := by
  rw [readCount, if_neg (by omega), if_neg near]

end Branches

/-- A `size_t`. -/
abbrev SizeT (n : Nat) : Prop := n < 2 ^ 64

theorem delivered_negative (k : Int64) (off : Nat) {count : Nat} (size : SizeT count)
    (negative : int32 count < 0) : delivered k off count = [] := by
  have nothing : readCount count off 0 = 0 := by
    by_cases start : off = 0
    · have large : 2 ^ 31 ≤ count := by
        rcases int32_cases count with ⟨eq, -⟩ | ⟨-, large⟩ <;> omega
      subst start
      have far : VINPUT_MAX_LEN < ulong (count + 0) := by
        rw [Nat.add_zero, ulong_of_lt size, VINPUT_MAX_LEN]
        omega
      have within : ((0 : Nat) : Int) ≤ 0 := Int.le_refl 0
      exact readCount_far within far
    · exact readCount_past (by omega)
  simp only [delivered, vinputVkbdRead_negative k negative, nothing, List.range_zero,
    List.map_nil]

/-- The offset is added without a wrap when the count is not negative as an `int`. -/
theorem ulong_add {count off : Nat} (size : SizeT count) (nonnegative : 0 ≤ int32 count)
    (within : off ≤ 21) : ulong (count + off) = count + off := by
  refine ulong_of_lt ?_
  rcases int32_cases count with ⟨-, small⟩ | ⟨negative, -⟩ <;> omega

/-- Before the end of the text a call is cut off at the end, or not at all, when its count
stays in `buff`. -/
theorem readCount_cases (k : Int64) {count off : Nat} (size : SizeT count)
    (nonnegative : 0 ≤ int32 count) (within : off ≤ (entryText k).length) :
    (VINPUT_MAX_LEN < count + off ∧
        readCount count off (entryText k).length = (entryText k).length - off) ∨
      (count + off ≤ VINPUT_MAX_LEN ∧ int32 count = count ∧
        readCount count off (entryText k).length = count) := by
  have short := length_entryText k
  have sum : ulong (count + off) = count + off := ulong_add size nonnegative (by omega)
  by_cases far : VINPUT_MAX_LEN < count + off
  · left
    rw [readCount_far (by omega) (by rwa [sum])]
    exact ⟨far, by omega⟩
  · right
    rw [readCount_near (by omega) (by rwa [sum])]
    rw [VINPUT_MAX_LEN] at far ⊢
    exact ⟨Nat.le_of_not_lt far, int32_of_lt (by omega) (by omega), rfl⟩

theorem delivered_whole (k : Int64) {count : Nat} (size : SizeT count)
    (far : VINPUT_MAX_LEN < count) (room : (entryText k).length < int32 count) :
    delivered k 0 count = (entryText k).map some := by
  have cut : readCount count 0 (entryText k).length = (entryText k).length := by
    rcases readCount_cases k size (by omega) (Nat.zero_le _) with ⟨-, cut⟩ | ⟨near, -⟩
    · exact cut
    · omega
  rw [delivered_eq k 0 (by omega), written, if_neg (by omega),
    List.take_of_length_le (by omega)]
  simp only [cut, Nat.zero_add]
  refine List.ext_getElem? fun i => ?_
  by_cases inside : i < (entryText k).length
  · simp [inside, List.getElem?_append_left]
  · simp [inside]

/-- The cell of the terminator. -/
theorem getElem?_take_append {l : List UInt8} {n : Nat} (within : n ≤ l.length) :
    (l.take n ++ [0])[n]? = some 0 := by
  have length : (l.take n).length = n := List.length_take_of_le within
  rw [List.getElem?_append_right (Nat.le_of_eq length), length, Nat.sub_self]
  rfl

/-- The first call delivers the text, or what cannot be the start of it. -/
theorem delivered_first (k : Int64) {count : Nat} (positive : 0 < count) (size : SizeT count) :
    delivered k 0 count = [] ∨ none ∈ delivered k 0 count ∨ some 0 ∈ delivered k 0 count ∨
      (VINPUT_MAX_LEN < count ∧ (entryText k).length < int32 count) := by
  have pos := length_entryText_pos k
  by_cases negative : int32 count < 0
  · exact .inl (delivered_negative k 0 size negative)
  · have short := length_entryText k
    right
    by_cases good : VINPUT_MAX_LEN < count ∧ (entryText k).length < int32 count
    · exact .inr (.inr good)
    · -- The cell of the terminator, or the one after it, is delivered.
      rw [delivered_eq k 0 (by omega), written]
      rcases readCount_cases k size (by omega) (Nat.zero_le _) with ⟨far, cut⟩ | ⟨near, same, whole⟩
      · simp only [cut, Nat.zero_add, Nat.sub_zero, List.mem_map, List.mem_range]
        by_cases zero : int32 count = 0
        · refine .inl ⟨0, pos, ?_⟩
          rw [if_pos zero]
          rfl
        · refine .inr (.inl ⟨(int32 count).toNat - 1, by omega, ?_⟩)
          rw [if_neg zero]
          exact getElem?_take_append (by omega)
      · simp only [whole, Nat.zero_add, List.mem_map, List.mem_range]
        rw [same, if_neg (by omega), Int.toNat_natCast]
        by_cases inText : count ≤ (entryText k).length + 1
        · exact .inr (.inl ⟨count - 1, by omega, getElem?_take_append (by omega)⟩)
        · refine .inl ⟨(entryText k).length + 1, by omega, ?_⟩
          rw [List.getElem?_eq_none]
          rw [List.length_append, List.length_take, List.length_singleton]
          omega

/-- Past the first byte a call returns 0, or delivers a byte that was not written, or
reaches the end of the text. -/
theorem delivered_later (k : Int64) {off count : Nat} (started : 0 < off) (positive : 0 < count)
    (size : SizeT count) :
    delivered k off count = [] ∨ none ∈ delivered k off count ∨
      (off < (entryText k).length ∧
        (delivered k off count).length = (entryText k).length - off) := by
  by_cases negative : int32 count < 0
  · exact .inl (delivered_negative k off size negative)
  · rw [delivered_eq k off (by omega), written]
    by_cases past : (entryText k).length < off
    · left
      rw [readCount_past (by omega)]
      rfl
    · rcases readCount_cases k size (by omega) (Nat.le_of_not_lt past) with
        ⟨far, cut⟩ | ⟨near, same, whole⟩
      · by_cases atEnd : off = (entryText k).length
        · left
          rw [cut, atEnd, Nat.sub_self]
          rfl
        · refine .inr (.inr ⟨by omega, ?_⟩)
          simp only [cut, List.length_map, List.length_range]
      · simp only [whole, List.mem_map, List.mem_range]
        refine .inr (.inl ⟨count - 1, by omega, ?_⟩)
        rw [same, if_neg (by omega), List.getElem?_eq_none]
        rw [List.length_append, List.length_take, List.length_singleton]
        omega

/-- At the end of the text a call returns 0 when its count goes past `buff`. -/
theorem delivered_end (k : Int64) {count : Nat} (positive : 0 < count) (size : SizeT count) :
    delivered k (entryText k).length count = [] ↔
      VINPUT_MAX_LEN < count + (entryText k).length := by
  have short := length_entryText k
  by_cases negative : int32 count < 0
  · have large : 2 ^ 31 ≤ count := by
      rcases int32_cases count with ⟨eq, -⟩ | ⟨-, large⟩ <;> omega
    rw [VINPUT_MAX_LEN]
    exact ⟨fun _ => by omega, fun _ => delivered_negative k _ size negative⟩
  · rw [delivered_eq k _ (by omega)]
    rcases readCount_cases k size (by omega) (Nat.le_refl _) with ⟨far, cut⟩ | ⟨near, -, whole⟩
    · simp only [cut, far, iff_true]
      simp
    · simp only [whole, Nat.not_lt_of_le near, iff_false, List.map_eq_nil_iff,
        List.range_eq_nil]
      omega

/-! ## Many calls -/

section Device

variable {D F : Type} [DecidableEq F] {types : D → VinputDevice}

theorem vinputRead_vkbd {s : State D F} {file : F} {v off : Nat}
    (opened : OpenVkbd types s file v off) (count : Nat) :
    let bytes := delivered (s.vinput v).lastEntry off count
    ∃ t, vinputRead types s file count true = some (t, (bytes.length : Int), bytes) ∧
      OpenVkbd types t file v (off + bytes.length) ∧ t.vinput = s.vinput := by
  intro bytes
  obtain ⟨d, type, vkbd⟩ := opened.type
  have fits := vinputVkbdRead_fits (s.vinput v).lastEntry (int32 count)
  have read : vkbdDev.ops.read = vinputVkbdRead := rfl
  refine ⟨{ s with files := Function.update s.files file (some ⟨v, off + bytes.length⟩) }, ?_,
    ⟨Function.update_self .., d, type, vkbd⟩, rfl⟩
  simp only [vinputRead, opened.opened, Option.bind_some, type, Option.map_some, vkbd, read,
    join_splice fits, bytes, delivered, List.length_map, List.length_range]
  rfl

variable (types)

/-- `vinput_read` with each of the counts in turn: what each call returns and puts in
the user buffer. -/
def vinputReads (s : State D F) (file : F) :
    List Nat → Option (List (Int × List (Option UInt8)))
  | [] => some []
  | count :: counts =>
      (vinputRead types s file count true).bind fun done =>
        (vinputReads done.1 file counts).map fun rest => done.2 :: rest

/-- What the calls deliver, as a function of the last entry and the offset. -/
def pieces (k : Int64) : (off : Nat) → List Nat → List (List (Option UInt8))
  | _, [] => []
  | off, count :: counts =>
      delivered k off count :: pieces k (off + (delivered k off count).length) counts

variable {types}

theorem vinputReads_vkbd {file : F} {v : Nat} (counts : List Nat) :
    ∀ {s : State D F} {off : Nat}, OpenVkbd types s file v off →
      vinputReads types s file counts =
        some ((pieces (s.vinput v).lastEntry off counts).map fun bytes =>
          ((bytes.length : Int), bytes)) := by
  induction counts with
  | nil => exact fun _ => rfl
  | cons count counts ih =>
      intro s off opened
      obtain ⟨t, read, opened', same⟩ := vinputRead_vkbd opened count
      rw [vinputReads, read, Option.bind_some, ih opened', same]
      rfl

end Device

/-- No byte was delivered that `ops->read` had not written, and the bytes up to the
first call that returned 0 are the text. -/
def Exact (text : List UInt8) (reads : List (Int × List (Option UInt8))) : Prop :=
  (∀ r ∈ reads, none ∉ r.2) ∧
    ∀ pre r post, reads = pre ++ (0, r) :: post → (∀ x ∈ pre, x.1 ≠ 0) →
      (pre.map Prod.snd).flatten = text.map some

section Pieces

variable {k : Int64} {counts : List Nat}

/-- After the text, only calls whose count goes past `buff` deliver nothing else. -/
theorem pieces_end (sizes : ∀ c ∈ counts, 0 < c ∧ SizeT c) :
    (∀ bytes ∈ pieces k (entryText k).length counts, none ∉ bytes) ↔
      ∀ c ∈ counts, VINPUT_MAX_LEN < c + (entryText k).length := by
  induction counts with
  | nil => simp [pieces]
  | cons c counts ih =>
      obtain ⟨positive, size⟩ := sizes c List.mem_cons_self
      have rest := ih fun c' member => sizes c' (List.mem_cons_of_mem c member)
      rw [pieces, List.forall_mem_cons, List.forall_mem_cons, ← delivered_end k positive size]
      constructor
      · rintro ⟨written, later⟩
        have nothing : delivered k (entryText k).length c = [] := by
          rcases delivered_later k (length_entryText_pos k) positive size with
            nothing | unwritten | ⟨before, -⟩
          · exact nothing
          · exact absurd unwritten written
          · omega
        rw [nothing, List.length_nil, Nat.add_zero] at later
        exact ⟨nothing, rest.1 later⟩
      · rintro ⟨nothing, later⟩
        rw [nothing, List.length_nil, Nat.add_zero]
        exact ⟨by simp, rest.2 later⟩

/-- `Exact` of calls that return the number of bytes they deliver. -/
theorem exact_iff {text : List UInt8} {reads : List (List (Option UInt8))} :
    Exact text (reads.map fun bytes => ((bytes.length : Int), bytes)) ↔
      (∀ bytes ∈ reads, none ∉ bytes) ∧
        ∀ pre post, reads = pre ++ [] :: post → [] ∉ pre → pre.flatten = text.map some := by
  have empty : ∀ bytes : List (Option UInt8), (bytes.length : Int) = 0 ↔ bytes = [] := by simp
  rw [Exact, returned_zero_iff empty]
  simp only [List.forall_mem_map]

/-- Past the first byte one of the next two calls returns 0, when they deliver only
what was written. -/
theorem pieces_return {off c₁ c₂ : Nat} (started : 0 < off)
    (sizes : ∀ c ∈ c₁ :: c₂ :: counts, 0 < c ∧ SizeT c)
    (written : ∀ bytes ∈ pieces k off (c₁ :: c₂ :: counts), none ∉ bytes) :
    ∃ pre post, pieces k off (c₁ :: c₂ :: counts) = pre ++ [] :: post ∧ [] ∉ pre := by
  simp only [pieces, List.forall_mem_cons] at written sizes ⊢
  obtain ⟨written₁, written₂, -⟩ := written
  obtain ⟨⟨pos₁, size₁⟩, ⟨pos₂, size₂⟩, -⟩ := sizes
  rcases delivered_later k started pos₁ size₁ with nothing | unwritten | ⟨before, rest⟩
  · exact ⟨[], _, by rw [nothing]; rfl, by simp⟩
  · exact absurd unwritten written₁
  · generalize delivered k off c₁ = bytes at rest written₂ ⊢
    have some₁ : bytes ≠ [] := by
      rintro rfl
      rw [List.length_nil] at rest
      omega
    have started' : 0 < off + bytes.length := by omega
    rcases delivered_later k started' pos₂ size₂ with nothing | unwritten | ⟨before', -⟩
    · exact ⟨[bytes], _, by rw [nothing]; rfl, by simpa using some₁.symm⟩
    · exact absurd unwritten written₂
    · omega

/-- A first call that does not deliver the text shows at the third one. -/
theorem exact_first {c₀ c₁ c₂ : Nat} (sizes : ∀ c ∈ c₀ :: c₁ :: c₂ :: counts, 0 < c ∧ SizeT c)
    (exact : Exact (entryText k) ((pieces k 0 (c₀ :: c₁ :: c₂ :: counts)).map fun bytes =>
      ((bytes.length : Int), bytes))) :
    VINPUT_MAX_LEN < c₀ ∧ (entryText k).length < int32 c₀ := by
  obtain ⟨written, ended⟩ := exact_iff.1 exact
  rw [pieces] at written ended
  obtain ⟨written₀, later⟩ := List.forall_mem_cons.1 written
  obtain ⟨⟨pos₀, size₀⟩, sizes⟩ := List.forall_mem_cons.1 sizes
  rcases delivered_first k pos₀ size₀ with nothing | unwritten | terminator | good
  · have text := ended [] _ (by rw [nothing]; rfl) (by simp)
    have empty : (entryText k).length = 0 := by simpa using (congrArg List.length text).symm
    have pos := length_entryText_pos k
    omega
  · exact absurd unwritten written₀
  · have some₀ : delivered k 0 c₀ ≠ [] := List.ne_nil_of_mem terminator
    have started : 0 < 0 + (delivered k 0 c₀).length := by
      rw [Nat.zero_add]
      exact List.length_pos_iff.2 some₀
    obtain ⟨pre, post, split, first⟩ := pieces_return started sizes later
    have text := ended (delivered k 0 c₀ :: pre) post (by rw [split]; rfl) (by
      rw [List.mem_cons, not_or]
      exact ⟨some₀.symm, first⟩)
    -- The text has no terminator in it.
    have member : some 0 ∈ (entryText k).map some := by
      rw [← text, List.flatten_cons]
      exact List.mem_append_left _ terminator
    rw [List.mem_map_of_injective (Option.some_injective _), entryText_bytes] at member
    exact absurd rfl (Numeral.bytes_ne_zero _ 0 member)
  · exact good

/-- When the first call delivers the text, the others must deliver nothing. -/
theorem exact_rest {c : Nat} (sizes : ∀ c' ∈ c :: counts, 0 < c' ∧ SizeT c')
    (far : VINPUT_MAX_LEN < c) (room : (entryText k).length < int32 c) :
    Exact (entryText k) ((pieces k 0 (c :: counts)).map fun bytes =>
        ((bytes.length : Int), bytes)) ↔
      ∀ c' ∈ counts, VINPUT_MAX_LEN < c' + (entryText k).length := by
  obtain ⟨⟨-, size⟩, sizes⟩ := List.forall_mem_cons.1 sizes
  rw [exact_iff, pieces, delivered_whole k size far room, List.length_map, Nat.zero_add,
    ← pieces_end sizes, List.forall_mem_cons]
  constructor
  · rintro ⟨⟨-, later⟩, -⟩
    exact later
  · intro later
    refine ⟨⟨by simp, later⟩, ?_⟩
    intro pre post split first
    have pos := length_entryText_pos k
    cases pre with
    | nil =>
        have empty := congrArg List.length (List.cons.inj split).1
        simp only [List.length_map, List.length_nil] at empty
        omega
    | cons bytes pre =>
        obtain ⟨rfl, after⟩ := List.cons.inj split
        cases pre with
        | nil => simp
        | cons bytes pre =>
            -- A second call that returns more than 0 has delivered an unwritten byte.
            cases counts with
            | nil => cases after
            | cons c' counts =>
                obtain ⟨rfl, -⟩ := List.cons.inj after
                have nothing := (delivered_end k (sizes c' List.mem_cons_self).1
                  (sizes c' List.mem_cons_self).2).2
                  ((pieces_end sizes).1 later c' List.mem_cons_self)
                simp [nothing] at first

end Pieces

/-- A positive `size_t`. -/
abbrev Count := { n : Nat // 0 < n ∧ n < 2 ^ 64 }

/-- **Reading in chunks.**  The calls deliver the text and nothing else exactly when
the first count goes past `buff`, and is more than the length of the text as an
`int`, and every later count goes past `buff` from the end of the text. -/
theorem reads_exact_iff {D F : Type} [DecidableEq F] {types : D → VinputDevice} {s : State D F}
    {file : F} {v : Nat} (opened : OpenVkbd types s file v 0) (counts : Nat → Count) :
    (∀ n, ∃ reads, vinputReads types s file ((List.range n).map fun i => (counts i).1) =
        some reads ∧ Exact (entryText (s.vinput v).lastEntry) reads) ↔
      VINPUT_MAX_LEN < (counts 0).1 ∧
        (entryText (s.vinput v).lastEntry).length < int32 (counts 0).1 ∧
        ∀ i, 0 < i →
          VINPUT_MAX_LEN < (counts i).1 + (entryText (s.vinput v).lastEntry).length := by
  have sizes : ∀ n, ∀ c ∈ (List.range n).map fun i => (counts i).1, 0 < c ∧ SizeT c := by
    intro n c member
    obtain ⟨i, -, rfl⟩ := List.mem_map.1 member
    exact (counts i).2
  have head : ∀ n, (List.range (n + 1)).map (fun i => (counts i).1) =
      (counts 0).1 :: (List.range n).map fun i => (counts (i + 1)).1 := by
    intro n
    rw [List.range_succ_eq_map, List.map_cons, List.map_map]
    rfl
  simp only [vinputReads_vkbd _ opened, Option.some.injEq, exists_eq_left']
  constructor
  · intro exact
    have first := exact 3
    have sizes₃ := sizes 3
    rw [head] at first sizes₃
    obtain ⟨far, room⟩ := exact_first sizes₃ first
    refine ⟨far, room, ?_⟩
    intro i later
    have upTo := exact (i + 1)
    have sizesUpTo := sizes (i + 1)
    rw [head] at upTo sizesUpTo
    refine (exact_rest sizesUpTo far room).1 upTo _ (List.mem_map.2 ⟨i - 1, ?_, ?_⟩)
    · rw [List.mem_range]
      omega
    · rw [Nat.sub_add_cancel later]
  · rintro ⟨far, room, later⟩ n
    cases n with
    | zero => exact ⟨by simp [pieces], by simp [pieces]⟩
    | succ n =>
        have sizesUpTo := sizes (n + 1)
        rw [head] at sizesUpTo ⊢
        refine (exact_rest sizesUpTo far room).2 ?_
        intro c member
        obtain ⟨i, -, rfl⟩ := List.mem_map.1 member
        exact later (i + 1) (Nat.succ_pos i)

theorem reads_exact_iff_512 : ∃ reads,
    vinputReads (fun _ => vkbdDev) keyboard () [512, 512, 512] = some reads ∧
      Exact (entryText 0) reads :=
  (reads_exact_iff keyboard_open fun _ => ⟨512, by decide⟩).2
    ⟨by decide, by decide, fun _ _ => by decide⟩ 3

/-- Reads of one byte of `+0` and a newline deliver a NUL and two bytes that were not
written. -/
theorem reads_one_byte : vinputReads (fun _ => vkbdDev) keyboard () [1, 1, 1] =
      some [(1, [some 0]), (1, [none]), (1, [none])] ∧
    ¬ Exact (entryText 0) [(1, [some 0]), (1, [none]), (1, [none])] := by
  refine ⟨by decide, fun exact => ?_⟩
  exact exact.1 (1, [none]) (by simp) (by simp)

end Lkmpg.Vinput
