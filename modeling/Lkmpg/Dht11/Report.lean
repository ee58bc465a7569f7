/-
# Lkmpg.Dht11.Report -- what a program reads from the sensor's file

Any number of files are opened, read in chunks and released, one call at a time.  An
open that returns 0 has printed the two values of its first readable attempt into the
one `msg` of the module (`deviceOpen_cases`), and the reads of that file, up to the first
empty one, are that text and nothing else, until another open prints its own
(`dht11_reports`).
-/
import Lkmpg.Dht11.Retry
import Lkmpg.Theory.Chunks
import Mathlib.Logic.Function.Basic

namespace Lkmpg.Dht11

open Lkmpg.Kernel Lkmpg.Theory

set_option autoImplicit false

/-! ## One open -/

/-- The answer to the attempt `k`: only the first one is after a start signal that was
driven. -/
def Sensor.line (answers : Sensor) (k : Nat) : Line := answers k (decide (k = 0))

/-- The first readable attempt brings the two values. -/
def Reports (answers : Sensor) (humidity temperature : UInt8) : Prop :=
  ∃ k b₁ b₃, k < 5 ∧
    Delivers (answers.line k)
      [humidity, b₁, temperature, b₃, humidity + b₁ + temperature + b₃] ∧
    ∀ j, j < k → ¬ Readable (answers.line j)

/-- An attempt that succeeds has printed the values it got. -/
theorem dht11ReadData_prints {answer : Bool → Line} {d : Device}
    (done : (dht11ReadData answer d).ret = 0) :
    ∃ b₀ b₁ b₂ b₃ : UInt8, Delivers (answer d.output) [b₀, b₁, b₂, b₃, b₀ + b₁ + b₂ + b₃] ∧
      cstr (dht11ReadData answer d).device.msg = messageText b₀ b₂ := by
  obtain ⟨b₀, b₁, b₂, b₃, delivers⟩ := dht11ReadData_ret_iff.1 done
  have received := receive_ok_iff.2 ⟨rfl, delivers⟩
  refine ⟨b₀, b₁, b₂, b₃, delivers, ?_⟩
  rw [dht11ReadData_ok received rfl]
  exact cstr_sprintf _ _ _

/-- One that fails prints nothing, and leaves the pin an input. -/
theorem dht11ReadData_fails {answer : Bool → Line} {d : Device}
    (failed : (dht11ReadData answer d).ret ≠ 0) :
    (dht11ReadData answer d).device.msg = d.msg ∧
      (dht11ReadData answer d).device.output = false := by
  refine ⟨?_, ?_⟩
  · cases received : receive (answer d.output) with
    | error w =>
        rw [dht11ReadData_error received]
        exact listening_msg d
    | ok data =>
        by_cases sum : ChecksumOk data
        · rw [dht11ReadData_ok received sum] at failed
          exact absurd rfl failed
        · rw [dht11ReadData_bad received sum]
          exact listening_msg d
  · rw [← Bool.not_eq_true, dht11ReadData_output]
    exact failed

/-- The loop, from the attempt `retry` on: an attempt succeeds after others that were not
readable, or all of them fail. -/
theorem retryLoop_cases {answers : Sensor} {left : Nat} :
    ∀ {retry : Nat} {ret : Int} {d : Device}, d.output = decide (retry = 0) →
      ((retryLoop answers left retry ret d).ret = 0 ∧ ∃ k b₀ b₁ b₂ b₃,
        retry ≤ k ∧ k < retry + left ∧
        Delivers (answers.line k) [b₀, b₁, b₂, b₃, b₀ + b₁ + b₂ + b₃] ∧
        (∀ j, retry ≤ j → j < k → ¬ Readable (answers.line j)) ∧
        cstr (retryLoop answers left retry ret d).device.msg = messageText b₀ b₂) ∨
      ((0 < left ∨ ret ≠ 0 → (retryLoop answers left retry ret d).ret ≠ 0) ∧
        (∀ j, retry ≤ j → j < retry + left → ¬ Readable (answers.line j)) ∧
        (retryLoop answers left retry ret d).device.msg = d.msg) := by
  induction left with
  | zero =>
      intro retry ret d _
      refine .inr ⟨?_, ?_, rfl⟩
      · rintro (impossible | failed)
        · exact absurd impossible (Nat.lt_irrefl 0)
        · exact failed
      · intro j low high
        omega
  | succ left ih =>
      intro retry ret d output
      rw [retryLoop]
      by_cases done : (dht11ReadData (answers retry) d).ret = 0
      · obtain ⟨b₀, b₁, b₂, b₃, delivers, prints⟩ := dht11ReadData_prints done
        rw [output] at delivers
        rw [if_pos done]
        refine .inl ⟨rfl, retry, b₀, b₁, b₂, b₃, Nat.le_refl _, by omega, delivers, ?_, prints⟩
        intro j low high
        omega
      · obtain ⟨msg, input⟩ := dht11ReadData_fails done
        have unreadable : ¬ Readable (answers.line retry) := by
          rw [dht11ReadData_ret_iff, output] at done
          exact done
        have next : (dht11ReadData (answers retry) d).device.output = decide (retry + 1 = 0) := by
          rw [input]
          simp
        have earlier : ∀ j, retry ≤ j → ¬ retry + 1 ≤ j → ¬ Readable (answers.line j) := by
          intro j low high
          obtain rfl : j = retry := by omega
          exact unreadable
        rw [if_neg done]
        rcases @ih (retry + 1) (dht11ReadData (answers retry) d).ret _ next with
          ⟨ret0, k, b₀, b₁, b₂, b₃, low, high, delivers, others, prints⟩ | ⟨fails, others, same⟩
        · refine .inl ⟨ret0, k, b₀, b₁, b₂, b₃, by omega, by omega, delivers, ?_, prints⟩
          intro j lowJ highJ
          by_cases later : retry + 1 ≤ j
          · exact others j later highJ
          · exact earlier j lowJ later
        · refine .inr ⟨fun _ => fails (.inr done), ?_, same.trans msg⟩
          intro j lowJ highJ
          by_cases later : retry + 1 ≤ j
          · exact others j later (by omega)
          · exact earlier j lowJ later

/-- **An open.**  It returns 0 and has printed what its first readable attempt brought, or
no attempt was readable, and it fails and leaves the text. -/
theorem deviceOpen_cases (answers : Sensor) {d : Device} (output : d.output = true) :
    ((deviceOpen answers d).ret = 0 ∧ ∃ humidity temperature,
      Reports answers humidity temperature ∧
      cstr (deviceOpen answers d).device.msg = messageText humidity temperature) ∨
    ((deviceOpen answers d).ret ≠ 0 ∧ (∀ k, k < 5 → ¬ Readable (answers.line k)) ∧
      (deviceOpen answers d).device.msg = d.msg) := by
  rcases @retryLoop_cases answers 5 0 0 d output with
    ⟨done, k, b₀, b₁, b₂, b₃, -, high, delivers, others, prints⟩ | ⟨fails, others, same⟩
  · refine .inl ⟨done, b₀, b₂, ⟨k, b₁, b₃, by omega, delivers, ?_⟩, prints⟩
    exact fun j before => others j (Nat.zero_le j) before
  · exact .inr ⟨fails (.inl (by decide)), fun k less => others k (Nat.zero_le k) (by omega), same⟩

/-! ## Files -/

/-- `device_read` of `length` bytes at `offset`: the bytes put in the user buffer, whose
number is returned, or -EFAULT when they cannot be. -/
def deviceRead (d : Device) (length offset : Nat) (copied : Bool) : Except Int (List UInt8) :=
  let msgLen := (cstr d.msg).length
  if msgLen ≤ offset then .ok []
  else if copied then .ok (slice (cstr d.msg) offset (min length (msgLen - offset)))
  else .error (-EFAULT)

structure File where
  /-- What the attempts of its `device_open` got for an answer. -/
  answers : Sensor
  /-- How many times `msg` had been printed when it returned. -/
  serial : Nat
  offset : Nat
  /-- What each `device_read` delivered, oldest first. -/
  reads : List (List UInt8)

/-- The module with its open files. -/
structure Files (F : Type) where
  device : Device
  printed : Nat
  file : F → Option File

inductive Action (F : Type) where
  | deviceOpen (f : F) (answers : Sensor)
  | deviceRead (f : F) (length : Nat) (copied : Bool)
  | deviceRelease (f : F)

section Files

variable {F : Type} [DecidableEq F]

/-- A file that is open is read, each time with a positive length, and released. -/
def fileStep (s : Files F) : Action F → Option (Files F)
  | .deviceOpen f answers =>
      if (s.file f).isSome then none
      else
        let o := deviceOpen answers s.device
        if o.ret = 0 then
          some ⟨o.device, s.printed + 1,
            Function.update s.file f (some ⟨answers, s.printed + 1, 0, []⟩)⟩
        else some { s with device := o.device }
  | .deviceRead f length copied =>
      (s.file f).bind fun x =>
        if length = 0 then none
        else
          match deviceRead s.device length x.offset copied with
          | .error _ => some s
          | .ok bytes => some { s with
              file := Function.update s.file f (some { x with
                offset := x.offset + bytes.length
                reads := x.reads ++ [bytes] }) }
  | .deviceRelease f =>
      (s.file f).map fun _ => { s with file := Function.update s.file f none }

def files (F : Type) [DecidableEq F] : System (Files F) (Action F) where
  Start s := ∃ o d, (dht11Init o d).2 = 0 ∧ s = ⟨(dht11Init o d).1, 0, fun _ => none⟩
  step := fileStep

/-- What is known of a file when `msg` has been printed that many times. -/
def File.Sound (device : Device) (printed : Nat) (x : File) : Prop :=
  x.serial ≤ printed ∧ ∃ humidity temperature, Reports x.answers humidity temperature ∧
    (x.serial = printed → cstr device.msg = messageText humidity temperature ∧
      Transcript (messageText humidity temperature) x.offset x.reads)

structure Files.Sound (s : Files F) : Prop where
  output : s.device.output = true
  file : ∀ f x, s.file f = some x → x.Sound s.device s.printed

/-- A read gives the next bytes of the text, or nothing at its end. -/
theorem transcript_read {d : Device} {c bytes : List UInt8} {length offset : Nat} {copied : Bool}
    {reads : List (List UInt8)} (text : cstr d.msg = c) (positive : length ≠ 0)
    (transcript : Transcript c offset reads)
    (read : deviceRead d length offset copied = .ok bytes) :
    Transcript c (offset + bytes.length) (reads ++ [bytes]) := by
  subst text
  have within := transcript.within
  unfold deviceRead at read
  dsimp only at read
  split at read
  · rename_i past
    cases read
    obtain rfl : offset = (cstr d.msg).length := by omega
    exact transcript.eof (Nat.le_refl _)
  · rename_i inside
    split at read <;> cases read
    have fits : offset + min length ((cstr d.msg).length - offset) ≤ (cstr d.msg).length := by
      omega
    rw [length_slice fits]
    exact transcript.chunk (by omega) fits

/-- A change of the other files. -/
theorem sound_update {device : Device} {printed : Nat} {file : F → Option File} {f : F} {x : File}
    (mine : x.Sound device printed)
    (others : ∀ g y, g ≠ f → file g = some y → y.Sound device printed) :
    ∀ g y, Function.update file f (some x) g = some y → y.Sound device printed := by
  intro g y opened
  by_cases same : g = f
  · subst same
    rw [Function.update_self] at opened
    cases opened
    exact mine
  · rw [Function.update_of_ne same] at opened
    exact others g y same opened

theorem fileStep_sound {s t : Files F} {a : Action F} (sound : s.Sound)
    (next : fileStep s a = some t) : t.Sound := by
  cases a with
  | deviceOpen f answers =>
      simp only [fileStep] at next
      split at next
      · cases next
      rcases deviceOpen_cases answers sound.output with
        ⟨done, humidity, temperature, reports, prints⟩ | ⟨failed, -, same⟩
      · rw [if_pos done] at next
        cases next
        refine ⟨retryLoop_output, sound_update ?_ ?_⟩
        · exact ⟨Nat.le_refl _, humidity, temperature, reports, fun _ => ⟨prints, .start _⟩⟩
        · intro g y _ opened
          obtain ⟨earlier, h, t, reportsY, -⟩ := sound.file g y opened
          refine ⟨Nat.le_succ_of_le earlier, h, t, reportsY, fun now => ?_⟩
          have same : y.serial = s.printed + 1 := now
          omega
      · rw [if_neg failed] at next
        cases next
        refine ⟨retryLoop_output, fun g y opened => ?_⟩
        obtain ⟨earlier, h, t, reportsY, reads⟩ := sound.file g y opened
        refine ⟨earlier, h, t, reportsY, fun now => ?_⟩
        rw [same]
        exact reads now
  | deviceRead f length copied =>
      simp only [fileStep] at next
      obtain ⟨x, opened, next⟩ := Option.bind_eq_some_iff.1 next
      split at next
      · cases next
      rename_i positive
      split at next <;> cases next
      · exact sound
      rename_i bytes read
      refine ⟨sound.output, sound_update ?_ fun g y _ => sound.file g y⟩
      obtain ⟨earlier, h, t, reports, reads⟩ := sound.file f x opened
      refine ⟨earlier, h, t, reports, fun now => ?_⟩
      obtain ⟨text, transcript⟩ := reads now
      exact ⟨text, transcript_read text positive transcript read⟩
  | deviceRelease f =>
      simp only [fileStep] at next
      obtain ⟨x, -, rfl⟩ := Option.map_eq_some_iff.1 next
      refine ⟨sound.output, ?_⟩
      intro g y opened
      by_cases same : g = f
      · subst same
        dsimp only at opened
        rw [Function.update_self] at opened
        cases opened
      · dsimp only at opened
        rw [Function.update_of_ne same] at opened
        exact sound.file g y opened

theorem reachable_sound {s : Files F} (reached : (files F).Reachable s) : s.Sound := by
  refine System.Reachable.induct (I := Files.Sound) ?_ (fun s a t => fileStep_sound) reached
  rintro s ⟨o, d, success, rfl⟩
  exact ⟨loaded_output success, fun f x opened => by cases opened⟩

/-- **A reading.**  The next open returns 0 exactly when one of its attempts is readable.
An open file is from an open whose first readable attempt brought two values, and as long
as nobody has printed others since, what it reads is their text. -/
theorem dht11_reports {s : Files F} (reached : (files F).Reachable s) :
    (∀ answers : Sensor, (deviceOpen answers s.device).ret = 0 ↔
      ∃ humidity temperature, Reports answers humidity temperature) ∧
    ∀ f x, s.file f = some x → ∃ humidity temperature, Reports x.answers humidity temperature ∧
      (x.serial = s.printed → ∀ pre post, x.reads = pre ++ [] :: post → [] ∉ pre →
        pre.flatten = messageText humidity temperature) := by
  have sound := reachable_sound reached
  refine ⟨?_, ?_⟩
  · intro answers
    rcases deviceOpen_cases answers sound.output with ⟨done, h, t, reports, -⟩ | ⟨failed, none, -⟩
    · exact iff_of_true done ⟨h, t, reports⟩
    · refine iff_of_false failed ?_
      rintro ⟨h, t, k, b₁, b₃, less, delivers, -⟩
      exact none k less ⟨h, b₁, t, b₃, delivers⟩
  · intro f x opened
    obtain ⟨-, h, t, reports, reads⟩ := sound.file f x opened
    refine ⟨h, t, reports, fun now pre post split first => ?_⟩
    exact (reads now).2.whole split first

/-- A program opens the file when it is 40 % and 25 degrees, and reads it twice. -/
def oneReading : List (Action Unit) :=
  [.deviceOpen () fun _ _ => sensorLine [40, 0, 25, 0, 65], .deviceRead () 100 true,
    .deviceRead () 100 true]

/-- The module has been loaded. -/
def opened : Files Unit := ⟨(dht11Init noErrors (Device.static false false)).1, 0, fun _ => none⟩

theorem dht11_reports_reading : ∃ s x, (files Unit).Reachable s ∧ s.file () = some x ∧
    x.reads = [text "Humidity: 40%\nTemperature: 25 deg C\n", []] ∧
    ∃ humidity temperature, Reports x.answers humidity temperature ∧
      [text "Humidity: 40%\nTemperature: 25 deg C\n"].flatten =
        messageText humidity temperature := by
  have ends : ((files Unit).run opened oneReading).map
      (fun s => (s.printed, (s.file ()).map fun x => (x.serial, x.reads))) =
        some (1, some (1, [text "Humidity: 40%\nTemperature: 25 deg C\n", []])) := by
    decide +kernel
  obtain ⟨s, ran, same⟩ := Option.map_eq_some_iff.1 ends
  simp only [Prod.mk.injEq] at same
  obtain ⟨printed, file⟩ := same
  obtain ⟨x, open_, read⟩ := Option.map_eq_some_iff.1 file
  simp only [Prod.mk.injEq] at read
  have reached : (files Unit).Reachable s := ⟨opened, oneReading, ⟨noErrors, _, rfl, rfl⟩, ran⟩
  obtain ⟨h, t, reports, whole⟩ := (dht11_reports reached).2 () x open_
  exact ⟨s, x, reached, open_, read.2, h, t, reports,
    whole (by rw [read.1, printed]) _ [] read.2 (by decide)⟩

end Files

end Lkmpg.Dht11
