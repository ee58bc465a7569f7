/-
# Lkmpg.Buttons.Presses -- each press of a button takes effect at one moment

`button_isr` tests the LED and sets it, and another handler may run between the two.
Still each of its runs has one moment at which the LED takes the level of its button: the
`gpio_set_value`, or the `gpio_get_value` that finds the LED at that level already.

`Switch` is a LED with presses that take effect at one moment.  What a load of intrpt.c or
of bottomhalf.c shows, its interrupts, the returns of its handlers and the changes of the
LED, is what a run of the `Switch` shows (`presses`).  The board answers `gpio_get_value`
with the level of the LED, and `gpio_to_irq` with a different interrupt for each button.
-/
import Lkmpg.Buttons.Directions
import Lkmpg.Theory.Traced

namespace Lkmpg.Buttons

open Lkmpg.Theory

set_option autoImplicit false

/-! ## A switch -/

/-- What can be seen of a LED and its buttons. -/
inductive Event where
  | press (level : Bool)
  | release (k : Nat)
  /-- The LED changes to the level. -/
  | led (level : Bool)
  deriving DecidableEq

def Event.change (old new : Bool) : List Event := if old = new then [] else [.led new]

/-- A press in progress: the level it stands for, and whether it has taken effect. -/
structure Press where
  level : Bool
  done : Bool
  deriving DecidableEq

structure Switch where
  level : Bool
  presses : List Press

namespace Switch

inductive Act where
  | press (level : Bool)
  | effect (k : Nat)
  | release (k : Nat)
  /-- The driver turns the LED off, with no press in progress. -/
  | off

def step (s : Switch) : Act → Option Switch
  | .press level => some { s with presses := ⟨level, false⟩ :: s.presses }
  | .effect k =>
      match s.presses[k]? with
      | some ⟨level, false⟩ => some ⟨level, s.presses.set k ⟨level, true⟩⟩
      | _ => none
  | .release k =>
      match s.presses[k]? with
      | some ⟨_, true⟩ => some { s with presses := s.presses.eraseIdx k }
      | _ => none
  | .off => if s.presses = [] then some ⟨false, []⟩ else none

def system : System Switch Act where
  Start s := s.presses = []
  step := step

def shown (s : Switch) (act : Act) (t : Switch) : List Event :=
  match act with
  | .press level => [.press level]
  | .release k => [.release k]
  | .effect _ | .off => Event.change s.level t.level

end Switch

/-! ## The board -/

/-- The interrupts of the button GPIOs. -/
structure Board where
  irq : Fin 2 → Int
  nonneg : ∀ i, 0 ≤ irq i
  distinct : ∀ i j, irq i = irq j → i = j

/-- The button that switches the LED on. -/
abbrev onButton : Fin 2 := ⟨0, Nat.zero_lt_two⟩

/-- The level that the button stands for. -/
def lights (j : Fin 2) : Bool := decide (j = onButton)

/-- `gpio_to_irq` fails, or it gives the interrupt of the GPIO. -/
def Board.Tells (board : Board) : Call → Int → Prop
  | .gpioToIrq gpio, a => 0 ≤ a → ∀ i, gpio = buttonGpios i → a = board.irq i
  | _, _ => True

/-- The answers the board gives while the LED has the level, as far as the build admits
them. -/
def Board.Answers (board : Board) (build : Build) (level : Bool) (c : Call) (a : Int) : Prop :=
  build.Admits c a ∧ board.Tells c a ∧ (c = .gpioGetValue ledGpio → decide (a ≠ 0) = level)

instance (board : Board) : ∀ c a, Decidable (board.Tells c a)
  | .gpioToIrq _, _ => inferInstanceAs (Decidable (_ → _))
  | .gpioRequest _, _ | .gpioRequestArray _, _ | .gpioDirectionOutput _ _, _
  | .gpioDirectionInput _, _ | .gpioGetValue _, _ | .gpioSetValue _ _, _ | .loadIrq _, _
  | .storeIrq _ _, _ | .requestIrq _ _, _ | .freeIrq _ _, _ | .gpioFree _, _
  | .gpioFreeArray _, _ | .scheduleWork, _ => .isTrue trivial

instance (board : Board) (build : Build) (level : Bool) (c : Call) (a : Int) :
    Decidable (board.Answers build level c a) :=
  inferInstanceAs (Decidable (_ ∧ _ ∧ _))

/-- The level of the LED after a call. -/
def Call.level (level : Bool) : Call → Int → Bool
  | .gpioRequestArray array, a =>
      -- `GPIOF_OUT_INIT_LOW`
      if a = 0 ∧ ∃ g ∈ array, g.gpio = ledGpio ∧ g.flags = .output then false else level
  | .gpioDirectionOutput gpio value, a =>
      if gpio = ledGpio ∧ a = 0 then decide (value ≠ 0) else level
  | .gpioSetValue gpio value, _ => if gpio = ledGpio then decide (value ≠ 0) else level
  | _, _ => level

structure Lit where
  load : Load
  level : Bool

/-- The call that an action is the answer to. -/
def Load.made (l : Load) : Action → Option (Call × Int)
  | .call a => l.phase.next.map fun c => (c, a)
  | .isr k a =>
      match l.isrs[k]? with
      | some (_, .call c _) => some (c, a)
      | _ => none
  | .unload | .interrupt _ | .workStart | .workEnd => none

def Lit.step (file : File) (build : Build) (board : Board) (s : Lit) (a : Action) : Option Lit :=
  match s.load.made a with
  | some (c, answer) =>
      if board.Answers build s.level c answer then
        (s.load.step (driver file build) a).map fun l => ⟨l, c.level s.level answer⟩
      else none
  | none => (s.load.step (driver file build) a).map fun l => ⟨l, s.level⟩

/-- One load of the driver, with the LED as it is found. -/
def lit (file : File) (build : Build) (board : Board) : System Lit Action where
  Start s := s.load = (driver file build).component.start
  step := Lit.step file build board

/-- A handler that has nothing left to do returns. -/
def Load.shown (board : Board) (l : Load) : Action → List Event
  | .interrupt h => [.press (decide (h.1 = board.irq onButton))]
  | .isr k _ =>
      match l.isrs[k]? with
      | some (_, .ret _) => [.release k]
      | _ => []
  | .call _ | .unload | .workStart | .workEnd => []

def Lit.shown (board : Board) (s : Lit) (a : Action) (t : Lit) : List Event :=
  s.load.shown board a ++ Event.change s.level t.level

/-! ## The handlers -/

/-- What is left of a handler for the button `j`, whose press may be `done`. -/
def Pressing (board : Board) (j : Fin 2) : (done : Bool) → Code Unit → Prop
  | done, .ret _ => done = true
  | done, .call (.loadIrq i) next => ∀ b, (b = board.irq j ↔ i = j) → Pressing board j done (next b)
  | done, .call (.gpioGetValue gpio) next =>
      gpio = ledGpio ∧ ∀ a, Pressing board j (done || decide (decide (a ≠ 0) = lights j)) (next a)
  | done, .call (.gpioSetValue gpio value) next =>
      done = false ∧ gpio = ledGpio ∧ decide (value ≠ 0) = lights j ∧
        ∀ a, Pressing board j true (next a)
  | done, .call .scheduleWork next => ∀ a, Pressing board j done (next a)
  | _, .call _ _ => False

section

variable {board : Board} {j : Fin 2}

/-- A test of the button `i`, and the rest of the handler. -/
theorem pressing_pressed {done : Bool} {i : Fin 2} {lit : Bool} {rest : Bool → Code Unit}
    (other : i ≠ j → Pressing board j done (rest false))
    (own : i = j → ∀ a : Int, Pressing board j (done || decide (decide (a ≠ 0) = lights j))
      (rest (decide (decide (a ≠ 0) = lit)))) :
    Pressing board j done (do let on ← pressed (board.irq j) i lit; rest on) := by
  intro b known
  by_cases same : i = j
  · have found : board.irq j = b := (known.2 same).symm
    show Pressing board j done ((if board.irq j = b then _ else _) >>= rest)
    rw [if_pos found]
    exact ⟨rfl, own same⟩
  · have missed : ¬ board.irq j = b := fun eq => same (known.1 eq.symm)
    show Pressing board j done ((if board.irq j = b then _ else _) >>= rest)
    rw [if_neg missed]
    exact other same

/-- The LED has the level of the button, or it is set to it. -/
theorem switchLed_pressing (rest : Code Unit) (after : Pressing board j true rest) :
    Pressing board j false (do switchLed (board.irq j); rest) := by
  rw [switchLed, Calls.bind_bind]
  refine pressing_pressed ?_ ?_
  · -- the interrupt is that of the second button
    intro other
    show Pressing board j false ((do if ← pressed (board.irq j) 1 true then _ else _) >>= _)
    rw [Calls.bind_bind]
    obtain rfl : j = 1 := by omega
    refine pressing_pressed (fun differ => absurd rfl differ) ?_
    intro _ a
    by_cases lit : decide (a ≠ 0) = true
    · simp only [lit]
      exact ⟨rfl, rfl, rfl, fun _ => after⟩
    · rw [Bool.not_eq_true] at lit
      simp only [lit]
      exact after
  · rintro rfl a
    by_cases lit : decide (a ≠ 0) = true
    · simp only [lit]
      show Pressing board 0 true ((do if ← pressed (board.irq 0) 1 true then _ else _) >>= _)
      rw [Calls.bind_bind]
      exact pressing_pressed (fun _ => after) (fun same => by cases same)
    · rw [Bool.not_eq_true] at lit
      simp only [lit]
      exact ⟨rfl, rfl, rfl, fun _ => after⟩

/-- The handlers of intrpt.c and of bottomhalf.c. -/
theorem handler_pressing {file : File} (build : Build) (differs : file ≠ .bhThreaded) :
    Pressing board j false ((driver file build).handler (board.irq j)) := by
  cases file with
  | intrpt =>
      have pressing : Pressing board j false (do switchLed (board.irq j); Calls.ret ()) :=
        switchLed_pressing (.ret ()) rfl
      rw [Calls.bind_ret] at pressing
      cases build <;> exact pressing
  | bottomhalf =>
      have pressing : Pressing board j false (bottomhalfIsr (board.irq j)) :=
        switchLed_pressing (run .scheduleWork) fun _ => rfl
      cases build <;> exact pressing
  | bhThreaded => exact absurd rfl differs

end

/-! ## The module's own code -/

/-- `button_irqs` is filled with the interrupts of the board, a handler is registered for
one of them, and the LED is not set while there is a handler. -/
def Follows (board : Board) (r : Resources) : Call → Prop
  | .storeIrq i irq => irq = board.irq i
  | .requestIrq irq _ => ∃ j, irq = board.irq j ∧ r.buttonIrqs j = board.irq j
  | .gpioRequestArray _ => r.handlers = []
  | .gpioDirectionOutput _ value | .gpioSetValue _ value => r.handlers = [] ∧ value = 0
  | _ => True

/-- The calls that free, and the read that comes before one. -/
def Call.frees : Call → Bool
  | .loadIrq _ | .freeIrq _ _ | .gpioFree _ | .gpioFreeArray _ => true
  | _ => false

/-- The program frees what it holds. -/
def Freeing {ρ : Type} (p : Code ρ) : Prop := p.Only fun c => c.frees = true

abbrev Following {ρ : Type} (board : Board) (p : Code ρ) (r : Resources) : Prop :=
  p.Safe (fun r c a => Resources.perform r [] c a) board.Tells (Follows board) r

section

variable {ρ : Type} {board : Board} {r : Resources}

@[simp] theorem freeing_ret {x : ρ} : Freeing (pure x : Code ρ) := trivial

@[simp] theorem freeing_gpioFree {gpio : Nat} {p : Code ρ} :
    Freeing (do run (.gpioFree gpio); p) ↔ Freeing p :=
  (and_iff_right rfl).trans (forall_const Int)

@[simp] theorem freeing_gpioFreeArray {array : List Gpio} {p : Code ρ} :
    Freeing (do run (.gpioFreeArray array); p) ↔ Freeing p :=
  (and_iff_right rfl).trans (forall_const Int)

@[simp] theorem freeing_freeIrq {i : Fin 2} {dev : DevId} {p : Code ρ} :
    Freeing (do let irq ← call (.loadIrq i); run (.freeIrq irq dev); p) ↔ Freeing p :=
  (and_iff_right rfl).trans <| (forall_const Int).trans <|
    (and_iff_right rfl).trans (forall_const Int)

theorem Freeing.following {p : Code ρ} (freeing : Freeing p) : Following board p r := by
  refine Calls.Only.safe ?_ freeing r
  intro s c made
  cases c with
  | loadIrq _ | freeIrq _ _ | gpioFree _ | gpioFreeArray _ => trivial
  | _ => cases made

/-- `if (ret)` after a call that may fail. -/
theorem following_checked {c : Call} {done : Resources} {failed next : Int → Code ρ}
    (outcome : ∀ a, r.perform [] c a = r.outcome a done) (follows : Follows board r c)
    (fails : ∀ a, Freeing (failed a)) (succeeds : Following board (next 0) done) :
    Following board (do let ret ← call c; if ret ≠ 0 then failed ret else next ret) r := by
  refine Calls.safe_one.2 ⟨follows, ?_⟩
  intro a t performed _
  rw [outcome, Resources.outcome] at performed
  split at performed
  · rename_i zero
    cases performed
    subst zero
    exact succeeds
  · rename_i nonzero
    rw [if_pos nonzero]
    exact (fails a).following

/-- `if (ret < 0)` after `gpio_to_irq` of a button. -/
theorem following_gpioToIrq {i : Fin 2} {failed next : Int → Code ρ}
    (fails : ∀ a, Freeing (failed a))
    (succeeds : Following board (next (board.irq i)) r) :
    Following board (do
      let ret ← call (.gpioToIrq (buttonGpios i))
      if ret < 0 then failed ret else next ret) r := by
  refine Calls.safe_one.2 ⟨trivial, ?_⟩
  intro a t performed tells
  cases performed
  by_cases negative : a < 0
  · rw [if_pos negative]
    exact (fails a).following
  · rw [if_neg negative, tells (Int.not_lt.1 negative) i rfl]
    exact succeeds

theorem following_gpioGetValue {gpio : Nat} {p : Int → Code ρ}
    (rest : ∀ a, Following board (p a) r) :
    Following board (do let value ← call (.gpioGetValue gpio); p value) r := by
  refine Calls.safe_one.2 ⟨trivial, ?_⟩
  intro a t performed _
  cases performed
  exact rest a

/-- `button_irqs[i] = irq`, and the read of it for `request_irq`. -/
theorem following_storeIrq {i : Fin 2} {irq : Int} {p : Int → Code ρ} (own : irq = board.irq i)
    (rest : Following board (p irq) { r with buttonIrqs := Function.update r.buttonIrqs i irq }) :
    Following board (do run (.storeIrq i irq); let irq ← call (.loadIrq i); p irq) r := by
  refine ⟨own, ?_⟩
  intro _ t stored _
  cases stored
  refine Calls.safe_one.2 ⟨trivial, ?_⟩
  intro a t performed _
  simp only [Resources.perform, Function.update_self] at performed
  split at performed <;> cases performed
  subst a
  exact rest

theorem following_freeIrq {i : Fin 2} {dev : DevId} {p : Code ρ}
    (rest : Following board p (r.freeIrq (r.buttonIrqs i, dev))) :
    Following board (do let irq ← call (.loadIrq i); run (.freeIrq irq dev); p) r := by
  refine Calls.safe_one.2 ⟨trivial, ?_⟩
  intro a t performed _
  simp only [Resources.perform] at performed
  split at performed <;> cases performed
  subst a
  refine ⟨trivial, ?_⟩
  intro _ t freed _
  cases freed
  exact rest

/-- The LED is turned off, and all that is left is to free. -/
theorem following_gpioSetValue {gpio : Nat} {p : Code ρ} (none : r.handlers = [])
    (freeing : Freeing p) : Following board (do run (.gpioSetValue gpio 0); p) r :=
  ⟨⟨none, rfl⟩, fun _ _ _ _ => freeing.following⟩

theorem bottomhalfInit_following : Following board bottomhalfInit .start := by
  unfold bottomhalfInit
  refine following_checked (fun a => rfl) trivial (by simp) ?_
  refine following_checked (fun a => rfl) ⟨rfl, rfl⟩ (by simp) ?_
  refine following_checked (fun a => rfl) trivial (by simp) ?_
  refine following_checked (fun a => rfl) trivial (by simp) ?_
  refine following_checked (fun a => rfl) trivial (by simp) ?_
  refine following_checked (fun a => rfl) trivial (by simp) ?_
  apply following_gpioGetValue
  intro value
  refine following_gpioToIrq (by simp) (following_storeIrq rfl ?_)
  refine following_checked (fun a => rfl) ⟨0, rfl, rfl⟩ (by simp) ?_
  refine following_gpioToIrq (by simp) (following_storeIrq rfl ?_)
  exact following_checked (fun a => rfl) ⟨1, rfl, rfl⟩ (by simp) trivial

theorem arrayInit_following (dev : Fin 2 → DevId) : Following board (arrayInit dev) .start := by
  unfold arrayInit
  refine following_checked (fun a => rfl) rfl (by simp) ?_
  refine following_checked (fun a => rfl) rfl (by simp) ?_
  apply following_gpioGetValue
  intro value
  refine following_gpioToIrq (i := 0) (by simp) (following_storeIrq rfl ?_)
  refine following_checked (fun a => rfl) ⟨0, rfl, rfl⟩ (by simp) ?_
  refine following_gpioToIrq (i := 1) (by simp) (following_storeIrq rfl ?_)
  exact following_checked (fun a => rfl) ⟨1, rfl, rfl⟩ (by simp) trivial

/-- The LED is set with both handlers freed. -/
theorem plainExit_following {r : Resources} (full : r.Full nullDev) :
    Following board plainExit r := by
  obtain ⟨irqs, held, handlers, misfreed⟩ := r
  obtain ⟨-, handlers, -⟩ := full
  simp only [nullDev] at handlers
  subst handlers
  refine following_freeIrq (following_freeIrq ?_)
  simp only [Resources.freeIrq_before, Resources.freeIrq_last]
  exact following_gpioSetValue rfl (by simp)

theorem arrayExit_following {dev : Fin 2 → DevId} {r : Resources} (full : r.Full dev) :
    Following board (arrayExit dev) r := by
  obtain ⟨irqs, held, handlers, misfreed⟩ := r
  obtain ⟨-, handlers, -⟩ := full
  simp only at handlers
  subst handlers
  refine following_freeIrq (following_freeIrq ?_)
  simp only [Resources.freeIrq_before, Resources.freeIrq_last]
  -- there is one LED in the array
  show Following board (do
    run (.gpioSetValue ledGpio 0)
    run (.gpioFreeArray ledArray)
    run (.gpioFreeArray buttonArray)
    return) ⟨irqs, held, [], misfreed⟩
  exact following_gpioSetValue rfl (by simp)

theorem init_following {file : File} {build : Build} (directs : Directs file build) :
    Following board (driver file build).init .start := by
  cases build with
  | noRequestArray =>
      cases file with
      | intrpt => exact absurd ⟨rfl, rfl⟩ directs
      | bottomhalf | bhThreaded => exact bottomhalfInit_following
  | requestArray => cases file <;> exact arrayInit_following _

theorem exit_following (file : File) (build : Build) {r : Resources}
    (full : r.Full (devs file build)) : Following board (driver file build).exit r := by
  cases build with
  | noRequestArray => cases file <;> exact plainExit_following full
  | requestArray => cases file <;> exact arrayExit_following full

end

/-! ## The interrupts that are registered -/

/-- A handler is registered for an interrupt of the board that is in `button_irqs`. -/
structure Resources.Keyed (board : Board) (r : Resources) : Prop where
  irqs : ∀ i, r.buttonIrqs i = -1 ∨ r.buttonIrqs i = board.irq i
  handlers : ∀ h ∈ r.handlers, ∃ j, h.1 = board.irq j ∧ r.buttonIrqs j = board.irq j

variable {board : Board}

theorem Resources.Keyed.of_eq {r t : Resources} (keyed : r.Keyed board)
    (irqs : t.buttonIrqs = r.buttonIrqs) (handlers : t.handlers ⊆ r.handlers) :
    t.Keyed board := by
  refine ⟨?_, ?_⟩
  · rw [irqs]
    exact keyed.irqs
  · intro h member
    rw [irqs]
    exact keyed.handlers h (handlers member)

/-- What a handler for the button `j` reads in `button_irqs[i]`. -/
theorem Resources.Keyed.reads {r : Resources} (keyed : r.Keyed board) {j : Fin 2}
    (own : r.buttonIrqs j = board.irq j) (i : Fin 2) : r.buttonIrqs i = board.irq j ↔ i = j := by
  constructor
  · intro same
    rcases keyed.irqs i with unset | set
    · have nonneg := board.nonneg j
      omega
    · exact board.distinct i j (set.symm.trans same)
  · rintro rfl
    exact own

theorem Resources.Keyed.gpioFree {r : Resources} (keyed : r.Keyed board) (gpio : Nat) :
    (r.gpioFree gpio).Keyed board := by
  unfold Resources.gpioFree
  split
  · exact keyed.of_eq rfl (List.Subset.refl _)
  · exact keyed.of_eq rfl (List.Subset.refl _)

theorem Resources.Keyed.gpioFreeArray {r : Resources} (keyed : r.Keyed board)
    (array : List Gpio) : (r.gpioFreeArray array).Keyed board := by
  induction array generalizing r with
  | nil => exact keyed
  | cons g array ih => exact ih (keyed.gpioFree g.gpio)

/-- **One call** of the init or the exit function. -/
theorem perform_keyed {r t : Resources} {running : List Handler} {c : Call} {a : Int}
    (keyed : r.Keyed board) (follows : Follows board r c)
    (performed : r.perform running c a = some t) : t.Keyed board := by
  cases c with
  | storeIrq i irq =>
      cases performed
      obtain rfl : irq = board.irq i := follows
      refine ⟨?_, ?_⟩
      · intro k
        by_cases same : k = i
        · subst same
          exact .inr (Function.update_self ..)
        · simp only [Function.update_of_ne same]
          exact keyed.irqs k
      · intro h member
        obtain ⟨j, at_, own⟩ := keyed.handlers h member
        refine ⟨j, at_, ?_⟩
        by_cases same : j = i
        · subst same
          exact Function.update_self ..
        · exact (Function.update_of_ne same ..).trans own
  | requestIrq irq dev =>
      rcases Resources.outcome_cases performed with rfl | rfl
      · exact ⟨keyed.irqs, List.forall_mem_cons.2 ⟨follows, keyed.handlers⟩⟩
      · exact keyed
  | freeIrq irq dev =>
      simp only [Resources.perform] at performed
      split at performed <;> cases performed
      unfold Resources.freeIrq
      split
      · exact keyed.of_eq rfl List.erase_subset
      · exact keyed.of_eq rfl (List.Subset.refl _)
  | gpioRequest _ | gpioRequestArray _ | gpioDirectionOutput _ _ | gpioDirectionInput _ =>
      rcases Resources.outcome_cases performed with rfl | rfl
      · exact keyed.of_eq rfl (List.Subset.refl _)
      · exact keyed
  | gpioGetValue _ | gpioSetValue _ _ | gpioToIrq _ | scheduleWork =>
      cases performed
      exact keyed
  | loadIrq i =>
      simp only [Resources.perform] at performed
      split at performed <;> cases performed
      exact keyed
  | gpioFree gpio =>
      cases performed
      exact keyed.gpioFree gpio
  | gpioFreeArray array =>
      cases performed
      exact keyed.gpioFreeArray array

/-! ## Each step of a load -/

def Phase.Following (board : Board) (r : Resources) : Phase → Prop
  | .init rest => Buttons.Following board rest r
  | .exit rest => Buttons.Following board rest r
  | .loaded | .failed _ | .unloaded => True

theorem Phase.Following.call {phase : Phase} {r t : Resources} {c : Call} {a : Int}
    (following : phase.Following board r) (at_ : phase.next = some c)
    (performed : r.perform [] c a = some t) (tells : board.Tells c a) :
    Follows board r c ∧ (phase.after a).Following board t := by
  rcases Phase.next_cases at_ with ⟨rest, rfl⟩ | ⟨rest, rfl⟩
  · have safe : Buttons.Following board (.call c rest) r := following
    exact ⟨safe.1, safe.step performed tells⟩
  · have safe : Buttons.Following board (.call c rest) r := following
    exact ⟨safe.1, safe.step performed tells⟩

/-- A handler, and the press that it is. -/
def Presses (board : Board) (i : Handler × Code Unit) (p : Press) : Prop :=
  ∃ j, i.1.1 = board.irq j ∧ p.level = lights j ∧ Pressing board j p.done i.2

structure Lit.Tracks (file : File) (build : Build) (board : Board) (s : Lit) (u : Switch) :
    Prop where
  sound : s.load.Sound file build
  registered : ∀ i ∈ s.load.isrs, i.1 ∈ s.load.res.handlers
  keyed : s.load.res.Keyed board
  following : s.load.phase.Following board s.load.res
  level : u.level = s.level
  presses : List.Forall₂ (Presses board) s.load.isrs u.presses

/-- The `Switch` comes to a state that tracks `t`, and shows the events. -/
def Matched (file : File) (build : Build) (board : Board) (t : Lit) (u : Switch)
    (shown : List Event) : Prop :=
  ∀ es, ∃ acts u', (Switch.system.traced Switch.shown).run (u, es) acts = some (u', es ++ shown) ∧
    t.Tracks file build board u'

section

variable {file : File} {build : Build} {s t : Lit} {u : Switch} {l : Load}

theorem matched_stutter (tracks : t.Tracks file build board u) :
    Matched file build board t u [] := by
  intro es
  rw [List.append_nil]
  exact ⟨[], u, rfl, tracks⟩

theorem matched_step (act : Switch.Act) (u' : Switch) (next : u.step act = some u')
    (tracks : t.Tracks file build board u') :
    Matched file build board t u (Switch.shown u act u') := by
  intro es
  refine ⟨[act], u', ?_, tracks⟩
  have moved : Switch.system.step u act = some u' := next
  simp only [System.run, System.traced_step moved, Option.bind_some]

@[simp] theorem change_same (level : Bool) : Event.change level level = [] := if_pos rfl

/-- The LED changes by a call of the module's own code only when no handler runs, and it
is turned off. -/
theorem level_follows {r : Resources} {c : Call} (a : Int) (level : Bool)
    (follows : Follows board r c) :
    c.level level a = level ∨ r.handlers = [] ∧ c.level level a = false := by
  cases c with
  | gpioRequestArray array =>
      simp only [Call.level]
      split
      · exact .inr ⟨follows, rfl⟩
      · exact .inl rfl
  | gpioDirectionOutput gpio value =>
      obtain ⟨none, rfl⟩ := follows
      simp only [Call.level]
      split
      · exact .inr ⟨none, rfl⟩
      · exact .inl rfl
  | gpioSetValue gpio value =>
      obtain ⟨none, rfl⟩ := follows
      simp only [Call.level]
      split
      · exact .inr ⟨none, rfl⟩
      · exact .inl rfl
  | _ => exact .inl rfl

/-- **A call** of the init or the exit function. -/
theorem call_matched {c : Call} {a : Int} {r : Resources}
    (tracks : s.Tracks file build board u) (at_ : s.load.phase.next = some c)
    (answers : board.Answers build s.level c a)
    (performed : s.load.res.perform s.load.running c a = some r) :
    Matched file build board
      ⟨{ s.load with res := r, phase := s.load.phase.after a }, c.level s.level a⟩ u
      (Event.change s.level (c.level s.level a)) := by
  obtain ⟨admits, tells, -⟩ := answers
  have alone := perform_idle performed
  obtain ⟨follows, later⟩ := tracks.following.call at_ alone tells
  have registered : ∀ i ∈ s.load.isrs, i.1 ∈ r.handlers := by
    intro i member
    exact (perform_handlers performed).1 i.1 (List.mem_map_of_mem member)
      (tracks.registered i member)
  have sound : Load.Sound file build
      { s.load with res := r, phase := s.load.phase.after a } :=
    ⟨tracks.sound.promises.call at_ alone admits, tracks.sound.harmless⟩
  have keyed := perform_keyed tracks.keyed follows performed
  rcases level_follows a s.level follows with same | ⟨none, off⟩
  · rw [same, change_same]
    exact matched_stutter ⟨sound, registered, keyed, later, tracks.level, tracks.presses⟩
  · have idle : s.load.isrs = [] := by
      refine List.eq_nil_iff_forall_not_mem.2 fun i member => ?_
      have held := tracks.registered i member
      rw [none] at held
      cases held
    have presses := tracks.presses
    rw [idle, List.forall₂_nil_left_iff] at presses
    rw [off, ← tracks.level]
    refine matched_step .off ⟨false, []⟩ (if_pos presses)
      ⟨sound, registered, keyed, later, rfl, ?_⟩
    rw [idle]
    exact .nil

/-- A handler returns: its press has taken effect. -/
theorem return_matched {k : Nat} {h : Handler} (tracks : s.Tracks file build board u)
    (found : s.load.isrs[k]? = some (h, .ret ()))
    (sound : Load.Sound file build { s.load with isrs := s.load.isrs.eraseIdx k }) :
    Matched file build board ⟨{ s.load with isrs := s.load.isrs.eraseIdx k }, s.level⟩ u
      [.release k] := by
  obtain ⟨⟨level, done⟩, at_, j, -, -, pressing⟩ := forall₂_getElem? tracks.presses found
  obtain rfl : done = true := pressing
  refine matched_step (.release k) { u with presses := u.presses.eraseIdx k } ?_
    ⟨sound, ?_, tracks.keyed, tracks.following, tracks.level,
      forall₂_eraseIdx tracks.presses k⟩
  · simp only [Switch.step, at_]
  · intro i member
    exact tracks.registered i (List.mem_of_mem_eraseIdx member)

section

variable {k : Nat} {h : Handler} {rest : Code Unit} {level done : Bool} {work : Work}

/-- The handler at the place `k` goes on. -/
theorem Lit.Tracks.goes (tracks : s.Tracks file build board u)
    (sound : Load.Sound file build { s.load with work := work, isrs := s.load.isrs.set k (h, rest) })
    (registered : h ∈ s.load.res.handlers) {p : Press} (presses : Presses board (h, rest) p) :
    Lit.Tracks file build board
      ⟨{ s.load with work := work, isrs := s.load.isrs.set k (h, rest) }, level⟩
      ⟨level, u.presses.set k p⟩ := by
  refine ⟨sound, ?_, tracks.keyed, tracks.following, rfl, forall₂_set tracks.presses k presses⟩
  intro i member
  rcases List.mem_or_eq_of_mem_set member with earlier | rfl
  · exact tracks.registered i earlier
  · exact registered

/-- It is not the moment of its press. -/
theorem goes_quiet (tracks : s.Tracks file build board u)
    (sound : Load.Sound file build { s.load with work := work, isrs := s.load.isrs.set k (h, rest) })
    (registered : h ∈ s.load.res.handlers) (at_ : u.presses[k]? = some ⟨level, done⟩)
    (presses : Presses board (h, rest) ⟨level, done⟩) :
    Matched file build board
      ⟨{ s.load with work := work, isrs := s.load.isrs.set k (h, rest) }, s.level⟩ u [] := by
  have tracked : Lit.Tracks file build board
      ⟨{ s.load with work := work, isrs := s.load.isrs.set k (h, rest) }, s.level⟩
      ⟨s.level, u.presses.set k ⟨level, done⟩⟩ := tracks.goes sound registered presses
  obtain ⟨inside, same⟩ := List.getElem?_eq_some_iff.1 at_
  have stays : Switch.mk s.level (u.presses.set k ⟨level, done⟩) = u := by
    rw [← same, List.set_getElem_self inside, ← tracks.level]
  rw [stays] at tracked
  exact matched_stutter tracked

/-- It is the moment of its press. -/
theorem goes_effect (tracks : s.Tracks file build board u)
    (sound : Load.Sound file build { s.load with work := work, isrs := s.load.isrs.set k (h, rest) })
    (registered : h ∈ s.load.res.handlers) (at_ : u.presses[k]? = some ⟨level, false⟩)
    (presses : Presses board (h, rest) ⟨level, true⟩) :
    Matched file build board
      ⟨{ s.load with work := work, isrs := s.load.isrs.set k (h, rest) }, level⟩ u
      (Event.change s.level level) := by
  rw [← tracks.level]
  refine matched_step (.effect k) ⟨level, u.presses.set k ⟨level, true⟩⟩ ?_
    (tracks.goes sound registered presses)
  simp only [Switch.step, at_]

end

/-- **A call** of a handler. -/
theorem isr_matched {k : Nat} {h : Handler} {c : Call} {rest : Int → Code Unit} {a : Int}
    {r : Resources} (tracks : s.Tracks file build board u)
    (found : s.load.isrs[k]? = some (h, .call c rest))
    (answers : board.Answers build s.level c a)
    (performed : s.load.res.perform [] c a = some r)
    (sound : Load.Sound file build
      { s.load.schedule c with res := r, isrs := s.load.isrs.set k (h, rest a) }) :
    Matched file build board
      ⟨{ s.load.schedule c with res := r, isrs := s.load.isrs.set k (h, rest a) },
        c.level s.level a⟩ u (Event.change s.level (c.level s.level a)) := by
  have registered := tracks.registered _ (List.mem_of_getElem? found)
  obtain ⟨⟨level, done⟩, at_, j, own, stands, pressing⟩ := forall₂_getElem? tracks.presses found
  have lit : level = lights j := stands
  cases c with
  | loadIrq i =>
      simp only [Resources.perform] at performed
      split at performed <;> cases performed
      subst a
      obtain ⟨j', own', stored⟩ := tracks.keyed.handlers h registered
      obtain rfl := board.distinct j j' (own.symm.trans own')
      simp only [Call.level, change_same]
      exact goes_quiet tracks sound registered at_
        ⟨j, own, lit, pressing _ (tracks.keyed.reads stored i)⟩
  | gpioGetValue gpio =>
      cases performed
      obtain ⟨rfl, pressing⟩ := pressing
      have value := answers.2.2 rfl
      specialize pressing a
      rw [value] at pressing
      by_cases moment : done = false ∧ s.level = level
      · obtain ⟨rfl, rfl⟩ := moment
        rw [lit, decide_eq_true rfl] at pressing
        exact goes_effect tracks sound registered at_ ⟨j, own, lit, pressing⟩
      · have same : (done || decide (s.level = lights j)) = done := by
          rw [← lit]
          cases done with
          | true => rfl
          | false => exact decide_eq_false fun differs => moment ⟨rfl, differs⟩
        rw [same] at pressing
        simp only [Call.level, change_same]
        exact goes_quiet tracks sound registered at_ ⟨j, own, lit, pressing⟩
  | gpioSetValue gpio value =>
      cases performed
      obtain ⟨rfl, rfl, sets, pressing⟩ := pressing
      have level_eq : Call.level s.level (.gpioSetValue ledGpio value) a = level :=
        by rw [Call.level, if_pos rfl, sets, lit]
      rw [level_eq]
      exact goes_effect tracks sound registered at_ ⟨j, own, lit, pressing a⟩
  | scheduleWork =>
      cases performed
      simp only [Call.level, change_same]
      exact goes_quiet tracks sound registered at_ ⟨j, own, lit, pressing a⟩
  | _ => exact absurd pressing id

/-- The step answers a call, or it makes none. -/
theorem Lit.step_cases {a : Action} (next : s.step file build board a = some t) :
    (∃ c answer, s.load.made a = some (c, answer) ∧ board.Answers build s.level c answer ∧
      s.load.step (driver file build) a = some t.load ∧ t.level = c.level s.level answer) ∨
    (s.load.made a = none ∧ s.load.step (driver file build) a = some t.load ∧
      t.level = s.level) := by
  unfold Lit.step at next
  split at next
  · rename_i c answer made
    split at next
    · rename_i answers
      obtain ⟨l, moved, rfl⟩ := Option.map_eq_some_iff.1 next
      exact .inl ⟨c, answer, made, answers, moved, rfl⟩
    · cases next
  · rename_i made
    obtain ⟨l, moved, rfl⟩ := Option.map_eq_some_iff.1 next
    exact .inr ⟨made, moved, rfl⟩

theorem callStep_matched {a : Int} (tracks : s.Tracks file build board u)
    (next : s.step file build board (.call a) = some t) :
    Matched file build board t u (s.shown board (.call a) t) := by
  obtain ⟨load, level⟩ := t
  rcases Lit.step_cases next with ⟨c, answer, made, answers, moved, rfl⟩ | ⟨made, moved, rfl⟩
  · obtain ⟨c', at_, same⟩ := Option.map_eq_some_iff.1 made
    cases same
    rcases Load.callStep_cases moved with ⟨ret, phase, _⟩ | ⟨phase, _⟩ | ⟨c', r, at', performed, rfl⟩
    · rw [phase] at at_
      cases at_
    · rw [phase] at at_
      cases at_
    · cases at_.symm.trans at'
      exact call_matched tracks at_ answers performed
  · -- the module's code returns
    have sound := callStep_sound tracks.sound
      (fun c member => by rw [Option.map_eq_none_iff.1 made] at member; cases member) moved
    have shown : s.shown board (.call a) ⟨load, s.level⟩ = [] := change_same s.level
    rw [shown]
    rcases Load.callStep_cases moved with ⟨ret, _, rfl⟩ | ⟨_, rfl⟩ | ⟨c, r, at_, _, _⟩
    · refine matched_stutter ⟨sound, tracks.registered, tracks.keyed, ?_, tracks.level,
        tracks.presses⟩
      dsimp only
      split <;> trivial
    · exact matched_stutter ⟨sound, tracks.registered, tracks.keyed, trivial, tracks.level,
        tracks.presses⟩
    · rw [Option.map_eq_none_iff.1 made] at at_
      cases at_

theorem isrStep_matched {k : Nat} {a : Int} (tracks : s.Tracks file build board u)
    (next : s.step file build board (.isr k a) = some t) :
    Matched file build board t u (s.shown board (.isr k a) t) := by
  obtain ⟨load, level⟩ := t
  cases found : s.load.isrs[k]? with
  | none =>
      have moved : s.load.isrStep k a = some load := by
        rcases Lit.step_cases next with ⟨c, answer, made, _⟩ | ⟨_, moved, _⟩
        · simp only [Load.made, found, reduceCtorEq] at made
        · exact moved
      simp only [Load.isrStep, found, reduceCtorEq] at moved
  | some i =>
      obtain ⟨h, code⟩ := i
      cases code with
      | ret done =>
          rcases Lit.step_cases next with ⟨c, answer, made, _⟩ | ⟨_, moved, rfl⟩
          · simp only [Load.made, found, reduceCtorEq] at made
          · have sound := isrStep_sound tracks.sound moved
            have returned : s.load.isrStep k a = some load := moved
            simp only [Load.isrStep, found, Option.some.injEq] at returned
            subst returned
            have shown := return_matched tracks found sound
            simp only [Lit.shown, Load.shown, found, change_same]
            exact shown
      | call c rest =>
          rcases Lit.step_cases next with ⟨c', answer, made, answers, moved, rfl⟩ | ⟨made, _, _⟩
          · simp only [Load.made, found, Option.some.injEq, Prod.mk.injEq] at made
            obtain ⟨rfl, rfl⟩ := made
            have sound := isrStep_sound tracks.sound moved
            have called : s.load.isrStep k a = some load := moved
            simp only [Load.isrStep, found] at called
            obtain ⟨r, performed, rfl⟩ := Option.map_eq_some_iff.1 called
            simp only [Lit.shown, Load.shown, found]
            exact isr_matched tracks found answers performed sound
          · simp only [Load.made, found, reduceCtorEq] at made

/-- A handler begins. -/
theorem interrupt_matched (differs : file ≠ .bhThreaded) {h : Handler}
    (tracks : s.Tracks file build board u) (next : s.step file build board (.interrupt h) = some t) :
    Matched file build board t u (s.shown board (.interrupt h) t) := by
  obtain ⟨load, level⟩ := t
  rcases Lit.step_cases next with ⟨c, answer, made, _⟩ | ⟨_, moved, rfl⟩
  · cases made
  · have admits : s.load.Admits build (.interrupt h) := trivial
    have sound := step_sound tracks.sound admits moved
    simp only [Load.step] at moved
    split at moved <;> cases moved
    rename_i registered
    obtain ⟨j, own, _⟩ := tracks.keyed.handlers h registered
    have pressing : Pressing board j false ((driver file build).handler (board.irq j)) :=
      handler_pressing build differs
    have level_eq : decide (h.1 = board.irq onButton) = lights j := by
      rw [own, lights, decide_eq_decide]
      exact ⟨board.distinct j 0, congrArg board.irq⟩
    simp only [Lit.shown, Load.shown, change_same]
    rw [level_eq]
    refine matched_step (.press (lights j))
      { u with presses := ⟨lights j, false⟩ :: u.presses } rfl
      ⟨sound, List.forall_mem_cons.2 ⟨registered, tracks.registered⟩, tracks.keyed,
        tracks.following, tracks.level, .cons ⟨j, own, rfl, ?_⟩ tracks.presses⟩
    rw [own]
    exact pressing

/-- **One step.** -/
theorem step_matched (differs : file ≠ .bhThreaded) {a : Action}
    (tracks : s.Tracks file build board u) (next : s.step file build board a = some t) :
    Matched file build board t u (s.shown board a t) := by
  cases a with
  | call a => exact callStep_matched tracks next
  | isr k a => exact isrStep_matched tracks next
  | interrupt h => exact interrupt_matched differs tracks next
  | unload =>
      obtain ⟨load, level⟩ := t
      rcases Lit.step_cases next with ⟨c, answer, made, _⟩ | ⟨_, moved, rfl⟩
      · cases made
      · have admits : s.load.Admits build .unload := trivial
        have sound := step_sound tracks.sound admits moved
        have shown : s.shown board .unload ⟨load, s.level⟩ = [] := change_same s.level
        rw [shown]
        simp only [Load.step] at moved
        split at moved <;> cases moved
        rename_i at_
        have full := tracks.sound.promises
        rw [at_] at full
        exact matched_stutter ⟨sound, tracks.registered, tracks.keyed,
          exit_following file build full, tracks.level, tracks.presses⟩
  | workStart | workEnd =>
      obtain ⟨load, level⟩ := t
      rcases Lit.step_cases next with ⟨c, answer, made, _⟩ | ⟨_, moved, rfl⟩
      · cases made
      · simp only [Load.step] at moved
        split at moved <;> cases moved
        simp only [Lit.shown, Load.shown, change_same]
        exact matched_stutter ⟨⟨tracks.sound.promises, tracks.sound.harmless⟩,
          tracks.registered, tracks.keyed, tracks.following, tracks.level, tracks.presses⟩

end

/-! ## The refinement -/

/-- A load of intrpt.c or of bottomhalf.c, and the `Switch`. -/
def refinement {file : File} {build : Build} (board : Board) (differs : file ≠ .bhThreaded)
    (directs : Directs file build) :
    Refinement (lit file build board) (Lit.shown board) Switch.system Switch.shown where
  Rel s u := s.Tracks file build board u
  start := by
    rintro ⟨load, level⟩ rfl
    refine ⟨⟨level, []⟩, rfl, start_sound file build, nofun, ⟨fun _ => .inl rfl, nofun⟩,
      init_following directs, rfl, .nil⟩
  step := fun s u a t es tracks next => step_matched differs tracks next es

/-- **Each press takes effect at one moment.**  Whatever a load of the driver shows, its
interrupts, the returns of its handlers and the changes of the LED in their order, a
`Switch` shows too, and its LED has the same level. -/
theorem presses_take_effect {file : File} {build : Build} (board : Board)
    (differs : file ≠ .bhThreaded) (directs : Directs file build) {s : Lit} {shown : List Event}
    (reached : ((lit file build board).traced (Lit.shown board)).Reachable (s, shown)) :
    ∃ u, (Switch.system.traced Switch.shown).Reachable (u, shown) ∧ u.level = s.level := by
  obtain ⟨u, reachedU, tracks⟩ := (refinement board differs directs).reachable reached
  exact ⟨u, reachedU, tracks.level⟩

/-- Both buttons are pressed, and their handlers run at once: that of the first finds the
LED off and lights it, that of the second has found it off already. -/
def bothPressed : List Action :=
  [.call 0, .call 0, .call 1, .call 49, .call 0, .call 49, .call 0, .call 50, .call 0, .call 50,
    .call 0, .call 0, .interrupt (49, .null), .isr 0 49, .isr 0 0, .interrupt (50, .null),
    .isr 0 49, .isr 0 50, .isr 0 0, .isr 1 0, .isr 0 0, .isr 0 0]

def twoIrqs : Board where
  irq i := 49 + i
  nonneg := by decide
  distinct := by decide

theorem presses_take_effect_both :
    ∃ s : Lit, ((lit .intrpt .requestArray twoIrqs).traced (Lit.shown twoIrqs)).Reachable
        (s, [.press true, .press false, .led true, .release 0, .release 0]) ∧
      ∃ u, (Switch.system.traced Switch.shown).Reachable
        (u, [.press true, .press false, .led true, .release 0, .release 0]) ∧
        u.level = s.level := by
  have ends : (((lit .intrpt .requestArray twoIrqs).traced (Lit.shown twoIrqs)).run
      (⟨(driver .intrpt .requestArray).component.start, false⟩, []) bothPressed).map Prod.snd =
      some [.press true, .press false, .led true, .release 0, .release 0] := by decide
  obtain ⟨⟨s, shown⟩, ran, same⟩ := Option.map_eq_some_iff.1 ends
  obtain rfl : shown = _ := same
  have differs : File.intrpt ≠ .bhThreaded := by decide
  have directs : Directs .intrpt .requestArray := by decide
  have reached : ((lit .intrpt .requestArray twoIrqs).traced (Lit.shown twoIrqs)).Reachable
      (s, [.press true, .press false, .led true, .release 0, .release 0]) :=
    ⟨(⟨(driver .intrpt .requestArray).component.start, false⟩, []), bothPressed, ⟨rfl, rfl⟩, ran⟩
  exact ⟨s, reached, presses_take_effect twoIrqs differs directs reached⟩

end Lkmpg.Buttons
