/-
# Lkmpg.Dht11.Retry -- the start signals of device_open

`dht11_read_data` makes the pin an input, and an output again only where it succeeds
(`dht11ReadData_output`); `device_open` makes it an output after the last attempt.  So
each call begins with an output (`step_output`), and after a first attempt that fails
the others do not drive their start signal: a call is `Sound` exactly when its first
attempt gets a readable answer.
-/
import Lkmpg.Dht11.Received

namespace Lkmpg.Dht11

open Lkmpg.Kernel Lkmpg.Theory

set_option autoImplicit false

/-- The answer to each attempt, after a start signal that was driven or was not. -/
abbrev Sensor := Nat → Bool → Line

/-! ## The loop -/

section Loop

variable {answers : Sensor} {left retry : Nat} {ret : Int} {d : Device}

/-- Whatever happens, the call leaves the pin an output. -/
theorem retryLoop_output : ∀ {retry : Nat} {ret : Int} {d : Device},
    (retryLoop answers left retry ret d).device.output = true := by
  induction left with
  | zero => exact rfl
  | succ left ih =>
      intro retry ret d
      rw [retryLoop]
      split
      · rename_i done
        exact dht11ReadData_output.2 done
      · exact ih

theorem retryLoop_done (readable : Readable (answers retry d.output)) :
    (retryLoop answers (left + 1) retry ret d).starts = [d.output] ∧
      (retryLoop answers (left + 1) retry ret d).ret = 0 := by
  rw [retryLoop, if_pos (dht11ReadData_ret_iff.2 readable), dht11ReadData_driven]
  exact ⟨rfl, rfl⟩

/-- An attempt that fails is followed by one on an input. -/
theorem retryLoop_again (unreadable : ¬ Readable (answers retry d.output)) :
    ∃ next, next.output = false ∧
      (retryLoop answers (left + 1) retry ret d).starts =
        d.output :: (retryLoop answers left (retry + 1)
          (dht11ReadData (answers retry) d).ret next).starts := by
  have failed : (dht11ReadData (answers retry) d).ret ≠ 0 :=
    fun done => unreadable (dht11ReadData_ret_iff.1 done)
  refine ⟨(dht11ReadData (answers retry) d).device, ?_, ?_⟩
  · rw [← Bool.not_eq_true, dht11ReadData_output]
    exact failed
  · rw [retryLoop, if_neg failed, dht11ReadData_driven]

theorem head_retryLoop :
    (retryLoop answers (left + 1) retry ret d).starts.head? = some d.output := by
  by_cases readable : Readable (answers retry d.output)
  · rw [(retryLoop_done readable).1, List.head?_cons]
  · obtain ⟨next, -, starts⟩ := retryLoop_again readable
    rw [starts, List.head?_cons]

end Loop

/-! ## Calls -/

/-- A call of `device_open` that has returned. -/
structure Call where
  answers : Sensor
  /-- Whether each start signal was driven. -/
  starts : List Bool
  ret : Int

def called (answers : Sensor) (d : Device) : Call :=
  ⟨answers, (deviceOpen answers d).starts, (deviceOpen answers d).ret⟩

structure State where
  device : Device
  calls : List Call

/-- The state after a `dht11_init`. -/
def loaded (o : Answers) (d : Device) : State := ⟨(dht11Init o d).1, []⟩

def step (s : State) (answers : Sensor) : Option State :=
  some ⟨(deviceOpen answers s.device).device, s.calls ++ [called answers s.device]⟩

def system : System State Sensor where
  Start s := ∃ o d, (dht11Init o d).2 = 0 ∧ s = loaded o d
  step := step

/-- A sensor answers to a start signal that is driven, and nothing disturbs it. -/
def Undisturbed (answer : Bool → Line) : Prop :=
  ∃ b₀ b₁ b₂ b₃ : UInt8, Sends (answer true) [b₀, b₁, b₂, b₃, b₀ + b₁ + b₂ + b₃]

/-- Every attempt drove its start signal, and the call returned 0 when one of the five was
undisturbed. -/
def Call.Sound (c : Call) : Prop :=
  (∀ start ∈ c.starts, start = true) ∧
    ((∃ retry, retry < 5 ∧ Undisturbed (c.answers retry)) → c.ret = 0)

def State.Sound (s : State) : Prop := ∀ c ∈ s.calls, c.Sound

theorem loaded_output {o : Answers} {d : Device} (success : (dht11Init o d).2 = 0) :
    (loaded o d).device.output = true := by
  show (dht11Init o d).1.output = true
  rw [dht11Init] at success ⊢
  split_ifs at success ⊢ with region cdev cls device request direction
  · exact absurd success (Int.ne_of_lt region)
  · exact absurd success cdev
  · exact absurd success (Int.ne_of_lt cls)
  · exact absurd success (Int.ne_of_lt device)
  · exact absurd success request
  · exact absurd success direction
  · rfl

theorem step_output {s t : State} {answers : Sensor} (next : step s answers = some t) :
    t.device.output = true := by
  cases next
  exact retryLoop_output

/-- **One call.** -/
theorem called_sound_iff {answers : Sensor} {d : Device} (output : d.output = true) :
    (called answers d).Sound ↔ Readable (answers 0 true) := by
  rw [← output]
  by_cases readable : Readable (answers 0 d.output)
  · obtain ⟨starts, ret⟩ := @retryLoop_done answers 4 0 0 d readable
    refine iff_of_true ⟨?_, fun _ => ret⟩ readable
    show ∀ start ∈ (retryLoop answers 5 0 0 d).starts, start = true
    rw [starts, output]
    simp
  · refine iff_of_false (fun call => ?_) readable
    obtain ⟨next, input, starts⟩ := @retryLoop_again answers 4 0 0 d readable
    have second := @head_retryLoop answers 3 1 (dht11ReadData (answers 0) d).ret next
    rw [input] at second
    have member : false ∈ (called answers d).starts := by
      show false ∈ (retryLoop answers 5 0 0 d).starts
      rw [starts]
      exact List.mem_cons_of_mem _ (List.mem_of_head? second)
    exact absurd (call.1 false member) (by decide)

theorem step_sound {s t : State} {answers : Sensor} (output : s.device.output = true)
    (sound : s.Sound) (next : step s answers = some t) :
    t.Sound ↔ Readable (answers 0 true) := by
  cases next
  rw [← called_sound_iff output]
  simp only [State.Sound, List.forall_mem_append, List.forall_mem_singleton]
  exact ⟨And.right, And.intro sound⟩

/-- **The start signals.** -/
theorem start_signals_iff {o : Answers} {d : Device} (success : (dht11Init o d).2 = 0)
    (calls : List Sensor) :
    system.Always State.Sound (loaded o d) calls ↔
      ∀ answers ∈ calls, Readable (answers 0 true) := by
  have along : system.Always State.Sound (loaded o d) calls ↔
      system.Meets (fun _ answers => Readable (answers 0 true)) (loaded o d) calls :=
    System.always_iff_meets (fun _ _ _ _ => step_output) (fun _ _ _ => step_sound)
      (loaded_output success) (fun _ none => absurd none List.not_mem_nil)
  rw [along, System.meets_iff_forall fun _ _ => rfl]

/-! ## A run -/

/-- The module is loaded, and no call has failed. -/
def noErrors : Answers := ⟨0, 0, 0, 0, 0, 0⟩

def ready : State := loaded noErrors (Device.static false false)

/-- A sensor that answers each start signal that is driven. -/
def zeros : Bool → Line
  | true => sensorLine [0, 0, 0, 0, 0]
  | false => fun _ => true

theorem undisturbed_zeros : Undisturbed zeros := ⟨0, 0, 0, 0, sends_sensorLine _⟩

/-- Where nothing ever disturbs the sensor, two calls are sound. -/
theorem start_signals_iff_zeros :
    system.Always State.Sound ready [fun _ => zeros, fun _ => zeros] := by
  refine (start_signals_iff (by decide) _).2 fun answers member => ?_
  have readable : Readable (zeros true) :=
    (sends_sensorLine [0, 0, 0, 0, 0]).readable rfl (by decide)
  simp only [List.mem_cons, List.not_mem_nil, or_false, or_self] at member
  rw [member]
  exact readable

/-- The sensor, when it misses the first start signal. -/
def missesFirst : Sensor
  | 0 => fun _ _ => true
  | _ + 1 => zeros

/-- Four of the five attempts are undisturbed; the call drives none of their start
signals, and fails. -/
theorem not_sound_missesFirst :
    (∀ retry, 0 < retry → Undisturbed (missesFirst retry)) ∧
      (called missesFirst ready.device).starts = [true, false, false, false, false] ∧
      (called missesFirst ready.device).ret = -ETIMEDOUT ∧
      ¬ system.Always State.Sound ready [missesFirst] := by
  have undisturbed : ∀ retry, 0 < retry → Undisturbed (missesFirst retry) := by
    intro retry positive
    obtain ⟨retry, rfl⟩ := Nat.exists_eq_add_of_le' positive
    exact undisturbed_zeros
  have starts : (called missesFirst ready.device).starts = [true, false, false, false, false] := by
    decide +kernel
  have ret : (called missesFirst ready.device).ret = -ETIMEDOUT := by decide +kernel
  refine ⟨undisturbed, starts, ret, ?_⟩
  rintro ⟨-, after⟩
  have sound := after _ rfl _ (List.mem_singleton_self _)
  have zero := sound.2 ⟨1, by decide, undisturbed 1 (by decide)⟩
  rw [ret] at zero
  exact absurd zero (by decide)

end Lkmpg.Dht11
