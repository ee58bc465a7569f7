/-
# Lkmpg.StaticKey.Commands -- which commands static_key.c takes

`device_write` compares a fixed number of bytes of `command`, of which it has written
only as many as it was given.  A text that is the start of a keyword and no more is so
completed by what was in the array (`as_written_iff`).
-/
import Lkmpg.Kernel.CString
import Lkmpg.StaticKey.Driver

namespace Lkmpg.StaticKey

open Lkmpg.Kernel Lkmpg.Theory

set_option autoImplicit false

/-- What a command should do to the key, and return. -/
def asWritten (fkey : Bool) (w : List UInt8) : Bool × Int :=
  if text "enable" <+: w then (true, w.length)
  else if text "disable" <+: w then (false, w.length)
  else (fkey, -EINVAL)

/-- The outcome depends on nothing but the bytes written, and is the right one. -/
def AsWritten (w : List UInt8) : Prop :=
  ∀ command : List UInt8, command.length = 10 → ∀ fkey,
    deviceWrite command fkey w true = asWritten fkey w ∧
      ∀ other : List UInt8, other.length = 10 →
        deviceWrite other fkey w true = deviceWrite command fkey w true

/-- A write looks at the text and what the array has after it. -/
theorem deviceWrite_eq {command : List UInt8} (fkey : Bool) {w : List UInt8}
    (fits : w.length ≤ 10) :
    deviceWrite command fkey w true =
      if text "enable" <+: w ++ command.drop w.length then (true, (w.length : Int))
      else if text "disable" <+: w ++ command.drop w.length then (false, (w.length : Int))
      else (fkey, -EINVAL) := by
  have stored : splice command 0 w = w ++ command.drop w.length := by
    rw [splice, List.take_zero, List.nil_append, Nat.zero_add]
  have enable := strncmp_eq_zero_iff (b := text "enable") (ne_zero_of_all (by decide))
    (w ++ command.drop w.length)
  have disable := strncmp_eq_zero_iff (b := text "disable") (ne_zero_of_all (by decide))
    (w ++ command.drop w.length)
  rw [deviceWrite, if_neg (by omega), if_neg (by simp), stored]
  simp only [enable, disable]

/-- A text that is not just the start of the keyword has it or not. -/
theorem prefix_append_iff {α : Type} {key w : List α} (complete : w <+: key → w = key)
    (rest : List α) : key <+: w ++ rest ↔ key <+: w := by
  constructor
  · intro found
    rcases List.prefix_or_prefix_of_prefix found (List.prefix_append w rest) with inside | start
    · exact inside
    · obtain rfl := complete start
      exact List.prefix_rfl
  · exact fun inside => inside.trans (List.prefix_append w rest)

/-- The start of a keyword is completed by the right content of the array. -/
theorem exists_completion {key w : List UInt8} (start : w <+: key) (fits : key.length ≤ 10) :
    ∃ command : List UInt8, command.length = 10 ∧ key <+: w ++ command.drop w.length := by
  obtain ⟨rest, rfl⟩ := start
  rw [List.length_append] at fits
  refine ⟨w ++ rest ++ List.replicate (10 - (w.length + rest.length)) 0, ?_, ?_⟩
  · rw [List.length_append, List.length_append, List.length_replicate]
    omega
  · rw [List.append_assoc w rest, List.drop_left, ← List.append_assoc]
    exact List.prefix_append _ _

/-- **Only the bytes written** count exactly when they are not the start of a keyword and
no more. -/
theorem as_written_iff {w : List UInt8} (fits : w.length ≤ 10) :
    AsWritten w ↔
      (w <+: text "enable" → w = text "enable") ∧ (w <+: text "disable" → w = text "disable") := by
  constructor
  · intro asIs
    -- The start of a keyword is no command, but is taken for one.
    have refused : ∀ key : List UInt8, key.length ≤ 10 → w <+: key → w ≠ key →
        (∀ l : List UInt8, key <+: l → text "enable" <+: l ∨ text "disable" <+: l) →
        text "enable" <+: w ∨ text "disable" <+: w := by
      intro key short start proper keyword
      obtain ⟨command, length, completed⟩ := exists_completion start short
      have same := (asIs command length false).1
      by_contra neither
      rw [not_or] at neither
      rw [deviceWrite_eq false fits, asWritten, if_neg neither.1, if_neg neither.2] at same
      have ret : ((w.length : Int)) = -EINVAL := by
        by_cases enable : text "enable" <+: w ++ command.drop w.length
        · rw [if_pos enable] at same
          exact congrArg Prod.snd same
        · have disable := (keyword _ completed).resolve_left enable
          rw [if_neg enable, if_pos disable] at same
          exact congrArg Prod.snd same
      rw [EINVAL] at ret
      omega
    have lengths : (text "enable").length = 6 ∧ (text "disable").length = 7 := by decide
    constructor
    · intro start
      by_contra proper
      have shorter := start.length_le
      rcases refused _ (by decide) start proper fun l => Or.inl with enable | disable
      · exact proper (start.eq_of_length_le enable.length_le)
      · have longer := disable.length_le
        omega
    · intro start
      by_contra proper
      rcases refused _ (by decide) start proper fun l => Or.inr with enable | disable
      · exact absurd (enable.trans start) (by decide)
      · exact proper (start.eq_of_length_le disable.length_le)
  · rintro ⟨enable, disable⟩
    have right : ∀ command : List UInt8, ∀ fkey,
        deviceWrite command fkey w true = asWritten fkey w := by
      intro command fkey
      rw [deviceWrite_eq fkey fits, asWritten]
      simp only [prefix_append_iff enable, prefix_append_iff disable]
    intro command _ fkey
    exact ⟨right command fkey, fun other _ => (right other fkey).trans (right command fkey).symm⟩

theorem as_written_iff_enable : AsWritten (text "enable\n") :=
  (as_written_iff (by decide)).2 ⟨fun start => absurd start (by decide), by decide⟩

/-- With `XXable` left in the array, `en` enables the key; with zeros it is refused. -/
theorem not_as_written_en :
    deviceWrite (text "XXable" ++ [0, 0, 0, 0]) false (text "en") true = (true, 2) ∧
      deviceWrite (List.replicate 10 0) false (text "en") true = (false, -EINVAL) ∧
      ¬ AsWritten (text "en") := by
  have enabled :
      deviceWrite (text "XXable" ++ [0, 0, 0, 0]) false (text "en") true = (true, 2) := by decide
  refine ⟨enabled, by decide, ?_⟩
  intro asIs
  have right := (asIs (text "XXable" ++ [0, 0, 0, 0]) (by decide) false).1
  rw [enabled] at right
  exact absurd right (by decide)

end Lkmpg.StaticKey
