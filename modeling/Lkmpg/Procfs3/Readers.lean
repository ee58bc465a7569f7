/-
# Lkmpg.Procfs3.Readers -- when readers of /proc/buffer2k see what was written

`procfs_read` stores the minimum of `procfs_buffer_size` and its own length back into
`procfs_buffer_size`, and takes any nonzero offset for the end.  So a read at the
start that asks for less than the stored bytes cuts the content short for everybody;
`procfs_reads_iff`: a run without one is a run in which reading changes nothing and
every fresh reader gets the whole content.
-/
import Lkmpg.Procfs3.Driver
import Lkmpg.Theory.Chunks

namespace Lkmpg.Procfs3

open Lkmpg.Kernel Lkmpg.Theory

set_option autoImplicit false

/-- A read leaves the store alone exactly when it is not a short one at the start. -/
theorem procfsRead_store_iff {s : Store} {length offset : Nat} :
    (procfsRead s length offset length).store = s ↔ (offset = 0 → s.size ≤ length) := by
  by_cases stop : offset ≠ 0 ∨ s.size = 0
  · rw [procfsRead_end stop]
    apply iff_of_true rfl
    intro start
    rcases stop with moved | empty
    · exact absurd start moved
    · rw [empty]
      exact Nat.zero_le _
  · rw [not_or, not_not] at stop
    obtain ⟨rfl, nonempty⟩ := stop
    rw [procfsRead_first nonempty (Nat.le_refl _)]
    simp [Store.shrink_eq_iff]

section

variable {F : Type} [DecidableEq F]

/-! ## What the readers are promised -/

/-- What a fresh file reads up to its first empty read is what the last write wrote. -/
def Whole (s : State F) : Prop :=
  ∀ f x, s.file f = some x → x.fresh = true → ∀ pre post,
    x.reads = pre ++ [] :: post → [] ∉ pre → pre.flatten = s.last

/-- A `procfs_read` leaves `procfs_buffer` and `procfs_buffer_size` as they were. -/
def ReadKeeps (s : State F) : Action F → State F → Prop
  | .procfsRead _ _, t | .pread _ _ _, t => t.store = s.store
  | _, _ => True

/-- A read at the start asks for all that is stored. -/
def AsksForAll (s : State F) : Action F → Prop
  | .procfsRead f length => ∀ x, s.file f = some x → x.fPos = 0 → s.store.size ≤ length
  | .pread _ length offset => offset = 0 → s.store.size ≤ length
  | _ => True

theorem step_readKeeps {s t : State F} {a : Action F} (next : step s a = some t) :
    ReadKeeps s a t ↔ AsksForAll s a := by
  cases a with
  | procfsRead f length =>
      simp only [step, Option.map_eq_some_iff] at next
      obtain ⟨x, opened, rfl⟩ := next
      simp only [ReadKeeps, AsksForAll, procfsRead_store_iff, opened, Option.some.injEq,
        forall_eq']
  | pread f length offset =>
      simp only [step, Option.map_eq_some_iff] at next
      obtain ⟨x, opened, rfl⟩ := next
      exact procfsRead_store_iff
  | _ => exact Iff.rfl

/-! ## The readers of a store that keeps its content -/

/-- Where a fresh file is in the content `c`: at its start or at its end. -/
structure Reader (c : List UInt8) (x : File) : Prop where
  transcript : Transcript c x.fPos x.reads
  place : x.fPos = 0 ∨ x.fPos = c.length
  new : x.reads = [] → x.fPos = 0

structure Faithful (s : State F) : Prop where
  content : s.store.content = s.last
  readers : ∀ f x, s.file f = some x → x.fresh = true → Reader s.last x

theorem Reader.begin (c : List UInt8) : Reader c File.new :=
  ⟨.start c, .inl rfl, fun _ => rfl⟩

/-- A file that has read nothing yet reads the new content. -/
theorem Reader.overwritten {c d : List UInt8} {x : File} (reader : x.fresh = true → Reader c x)
    (fresh : x.overwritten.fresh = true) : Reader d x.overwritten := by
  simp only [File.overwritten, Bool.and_eq_true, List.isEmpty_iff] at fresh
  obtain ⟨was, none_yet⟩ := fresh
  have start := (reader was).new none_yet
  simp only [File.overwritten, none_yet, start]
  exact ⟨.start d, .inl rfl, fun _ => rfl⟩

/-- A read that leaves the store alone gives a fresh file the content, or its end. -/
theorem Reader.read {s : Store} {x : File} {length : Nat} (reader : Reader s.content x)
    (roomy : x.fPos = 0 → s.size ≤ length) : Reader s.content
      ⟨(procfsRead s length x.fPos length).offset,
        x.reads ++ [(procfsRead s length x.fPos length).bytes], true⟩ := by
  have size := s.length_content
  by_cases stop : x.fPos ≠ 0 ∨ s.size = 0
  · rw [procfsRead_end stop]
    have atEnd : x.fPos = s.content.length := by
      rcases reader.place with start | done
      · rcases stop with moved | empty
        · exact absurd start moved
        · rw [start, size, empty]
      · exact done
    have transcript := reader.transcript
    rw [atEnd] at transcript
    exact ⟨transcript.eof (Nat.zero_le _), .inl rfl, by simp⟩
  · rw [not_or, not_not] at stop
    obtain ⟨start, nonempty⟩ := stop
    have kept : s.shrink length = s := (s.shrink_eq_iff length).2 (roomy start)
    rw [start, procfsRead_first nonempty (Nat.le_refl _), kept]
    have transcript := reader.transcript
    rw [start] at transcript
    have whole : slice s.content 0 s.size = s.content := by
      rw [← size]
      simp [slice]
    have chunk := transcript.chunk (n := s.size) (Nat.pos_of_ne_zero nonempty) (by omega)
    rw [Nat.zero_add, whole] at chunk
    exact ⟨chunk, .inr size.symm, by simp⟩

omit [DecidableEq F] in
theorem faithful_init : Faithful (State.init : State F) where
  content := rfl
  readers f x opened := by simp [State.init] at opened

omit [DecidableEq F] in
theorem Faithful.whole {s : State F} (faithful : Faithful s) : Whole s :=
  fun f x opened fresh _ _ split first =>
    (faithful.readers f x opened fresh).transcript.whole split first

theorem step_faithful {s t : State F} {a : Action F} (faithful : Faithful s)
    (asks : AsksForAll s a) (next : step s a = some t) : Faithful t := by
  cases a with
  | procfsOpen f =>
      simp only [step] at next
      split at next <;> cases next
      refine ⟨faithful.content, ?_⟩
      intro g x opened fresh
      by_cases same : g = f
      · subst same
        simp only [Function.update_self, Option.some.injEq] at opened
        subst opened
        exact .begin _
      · simp only [ne_eq, same, not_false_eq_true, Function.update_of_ne] at opened
        exact faithful.readers g x opened fresh
  | procfsRead f length =>
      simp only [step, Option.map_eq_some_iff] at next
      obtain ⟨x, opened, rfl⟩ := next
      have kept := procfsRead_store_iff.2 (asks x opened)
      refine ⟨by rw [kept]; exact faithful.content, ?_⟩
      intro g y opened' fresh
      by_cases same : g = f
      · subst same
        simp only [Function.update_self, Option.some.injEq] at opened'
        subst opened'
        simp only [Bool.and_eq_true] at fresh
        have reader := faithful.readers g x opened fresh.1
        rw [← faithful.content] at reader ⊢
        have read := reader.read (asks x opened)
        rw [fresh.1, fresh.2]
        exact read
      · simp only [ne_eq, same, not_false_eq_true, Function.update_of_ne] at opened'
        exact faithful.readers g y opened' fresh
  | procfsWrite f buffer =>
      simp only [step, Option.map_eq_some_iff] at next
      obtain ⟨x, opened, rfl⟩ := next
      refine ⟨procfsWrite_content (Nat.le_refl _), ?_⟩
      intro g y opened' fresh
      by_cases same : g = f
      · subst same
        simp only [Function.update_self, Option.some.injEq] at opened'
        subst opened'
        cases fresh
      · simp only [ne_eq, same, not_false_eq_true, Function.update_of_ne,
          Option.map_eq_some_iff] at opened'
        obtain ⟨z, before, rfl⟩ := opened'
        exact .overwritten (faithful.readers g z before) fresh
  | pread f length offset =>
      simp only [step, Option.map_eq_some_iff] at next
      obtain ⟨x, opened, rfl⟩ := next
      have kept := procfsRead_store_iff.2 asks
      exact ⟨by rw [kept]; exact faithful.content, faithful.readers⟩
  | pwrite f buffer offset =>
      simp only [step, Option.map_eq_some_iff] at next
      obtain ⟨x, opened, rfl⟩ := next
      refine ⟨procfsWrite_content (Nat.le_refl _), ?_⟩
      intro g y opened' fresh
      simp only [Option.map_eq_some_iff] at opened'
      obtain ⟨z, before, rfl⟩ := opened'
      exact .overwritten (faithful.readers g z before) fresh
  | procfsClose f =>
      simp only [step] at next
      split at next <;> cases next
      refine ⟨faithful.content, ?_⟩
      intro g y opened' fresh
      by_cases same : g = f
      · simp [same] at opened'
      · simp only [ne_eq, same, not_false_eq_true, Function.update_of_ne] at opened'
        exact faithful.readers g y opened' fresh

/-- **When reading changes nothing.**  Along every run each read leaves the store
alone and every fresh reader gets the whole content, if and only if every read at the
start asks for all that is stored. -/
theorem procfs_reads_iff (as : List (Action F)) :
    ((system F).Always Whole .init as ∧ (system F).Steps ReadKeeps .init as) ↔
      (system F).Meets AsksForAll .init as := by
  have keeps : (system F).Steps ReadKeeps .init as ↔ (system F).Meets AsksForAll .init as :=
    System.steps_iff_meets fun s a t => step_readKeeps
  rw [← keeps]
  refine ⟨fun both => both.2, fun kept => ⟨?_, kept⟩⟩
  have faithful : (system F).Always Faithful .init as :=
    System.always_of_meets (fun s a t => step_faithful) faithful_init (keeps.1 kept)
  exact faithful.mono fun s => Faithful.whole

end

/-- Two bytes are written, and another file is opened. -/
def twoBytes : List (Action Bool) :=
  [.procfsOpen true, .procfsWrite true (text "hi"), .procfsOpen false]

/-- It reads one byte at a time: it gets the first, and the other one is gone. -/
theorem procfs_read_truncates : ∃ s t u : State Bool,
    (system Bool).run .init twoBytes = some s ∧
      step s (.procfsRead false 1) = some t ∧ step t (.procfsRead false 1) = some u ∧
      s.store.size = 2 ∧ t.store.size = 1 ∧ ¬ ReadKeeps s (.procfsRead false 1) t ∧
      u.file false = some ⟨0, [text "h", []], true⟩ ∧ u.last = text "hi" ∧ ¬ Whole u := by
  have ends : ((system Bool).run .init twoBytes).bind (fun s =>
      (step s (.procfsRead false 1)).bind fun t => (step t (.procfsRead false 1)).map fun u =>
        (s.store.size, t.store.size, u.file false, u.last)) =
      some (2, 1, some ⟨0, [text "h", []], true⟩, text "hi") := by decide
  simp only [Option.bind_eq_some_iff, Option.map_eq_some_iff, Prod.mk.injEq] at ends
  obtain ⟨s, ran, t, first, u, second, before, after, opened, last⟩ := ends
  refine ⟨s, t, u, ran, first, second, before, after, ?_, opened, last, ?_⟩
  · intro kept
    rw [ReadKeeps] at kept
    rw [kept, before] at after
    cases after
  · intro whole
    have read := whole false _ opened rfl [text "h"] [] rfl (by decide)
    rw [last] at read
    exact absurd read (by decide)

end Lkmpg.Procfs3
