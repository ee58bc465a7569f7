/-
# Lkmpg.Buttons.Balance -- what a driver holds when it is not loaded

The init function of every driver returns an error with nothing held, and 0 with its
three GPIOs and two handlers; the exit function frees these.  The one exception is the
build without `NO_GPIO_REQUEST_ARRAY`: when `gpio_to_irq(buttons[1].gpio)` fails, the
label it goes to does not free the handler of the first button.

* `init_returns`, `exit_returns`: the two functions call by call;
* `step_sound`: what a load keeps, with interrupts and the worker in between;
* `buttons_balanced`: the whole run.
-/
import Lkmpg.Buttons.Driver

namespace Lkmpg.Buttons

open Lkmpg.Theory

set_option autoImplicit false

/-- The answers with which a driver frees all it holds: in the build without
`NO_GPIO_REQUEST_ARRAY`, `gpio_to_irq(buttons[1].gpio)` gives an interrupt. -/
def Build.Admits (build : Build) (c : Call) (a : Int) : Prop :=
  build = .requestArray → c = .gpioToIrq (buttons (.last 1)).gpio → 0 ≤ a

instance (build : Build) (c : Call) (a : Int) : Decidable (build.Admits c a) :=
  inferInstanceAs (Decidable (_ → _ → _))

namespace Resources

/-- Nothing is held. -/
structure Empty (r : Resources) : Prop where
  held : r.held = []
  handlers : r.handlers = []
  misfreed : r.misfreed = false

/-- The three GPIOs and the two handlers are held. -/
structure Full (dev : Fin 2 → DevId) (r : Resources) : Prop where
  held : ∃ led on off, r.held = [(18, off), (17, on), (4, led)] ∨
    r.held = [(17, on), (18, off), (4, led)]
  handlers : r.handlers = [(r.buttonIrqs 1, dev 1), (r.buttonIrqs 0, dev 0)]
  misfreed : r.misfreed = false

end Resources

/-! ## Rules for the calls -/

/-- The program returns only with `Q`, when its calls are answered as the build
admits. -/
abbrev Returns {ρ : Type} (build : Build) (Q : ρ → Resources → Prop) (p : Code ρ)
    (r : Resources) : Prop :=
  p.Ends (fun r c a => Resources.perform r [] c a) build.Admits Q r

section

variable {ρ : Type} {build : Build} {Q : ρ → Resources → Prop} {r : Resources}

/-- `if (ret)` after a call that may fail. -/
theorem returns_checked {c : Call} {done : Resources} {failed next : Int → Code ρ}
    (outcome : ∀ a, r.perform [] c a = r.outcome a done)
    (fails : ∀ a < 0, Returns build Q (failed a) r) (succeeds : Returns build Q (next 0) done) :
    Returns build Q (do let ret ← call c; if ret ≠ 0 then failed ret else next ret) r := by
  apply Calls.ends_one.2
  intro a t performed _
  rw [outcome, Resources.outcome] at performed
  split at performed
  · rename_i zero
    cases performed
    subst zero
    exact succeeds
  · rename_i nonzero
    rw [if_pos nonzero]
    split at performed <;> cases performed
    exact fails a ‹_›

/-- `if (ret < 0)` after `gpio_to_irq`. -/
theorem returns_gpioToIrq {gpio : Nat} {failed next : Int → Code ρ}
    (fails : ∀ a < 0, build.Admits (.gpioToIrq gpio) a → Returns build Q (failed a) r)
    (succeeds : ∀ a, Returns build Q (next a) r) :
    Returns build Q (do
      let ret ← call (.gpioToIrq gpio)
      if ret < 0 then failed ret else next ret) r := by
  apply Calls.ends_one.2
  intro a t performed admitted
  cases performed
  by_cases negative : a < 0
  · rw [if_pos negative]
    exact fails a negative admitted
  · rw [if_neg negative]
    exact succeeds a

theorem returns_gpioGetValue {gpio : Nat} {p : Int → Code ρ}
    (rest : ∀ a, Returns build Q (p a) r) :
    Returns build Q (do let value ← call (.gpioGetValue gpio); p value) r := by
  apply Calls.ends_one.2
  intro a t performed _
  cases performed
  exact rest a

/-- A call with one outcome, whose answer is not used. -/
theorem returns_run {c : Call} {t : Resources} {p : Code ρ}
    (performs : ∀ a, r.perform [] c a = some t) (admitted : build.Admits c 0) :
    Returns build Q (do run c; p) r ↔ Returns build Q p t := by
  constructor
  · intro ends
    exact ends 0 t (performs 0) admitted
  · intro rest a t' performed _
    cases (performs a).symm.trans performed
    exact rest

@[simp] theorem returns_gpioFree {gpio : Nat} {p : Code ρ} :
    Returns build Q (do run (.gpioFree gpio); p) r ↔ Returns build Q p (r.gpioFree gpio) :=
  returns_run (fun _ => rfl) (fun _ same => by cases same)

@[simp] theorem returns_gpioFreeArray {array : List Gpio} {p : Code ρ} :
    Returns build Q (do run (.gpioFreeArray array); p) r ↔
      Returns build Q p (r.gpioFreeArray array) :=
  returns_run (fun _ => rfl) (fun _ same => by cases same)

@[simp] theorem returns_gpioSetValue {gpio : Nat} {value : Int} {p : Code ρ} :
    Returns build Q (do run (.gpioSetValue gpio value); p) r ↔ Returns build Q p r :=
  returns_run (fun _ => rfl) (fun _ same => by cases same)

@[simp] theorem returns_storeIrq {i : Fin 2} {irq : Int} {p : Code ρ} :
    Returns build Q (do run (.storeIrq i irq); p) r ↔
      Returns build Q p { r with buttonIrqs := Function.update r.buttonIrqs i irq } :=
  returns_run (fun _ => rfl) (fun _ same => by cases same)

@[simp] theorem returns_freeIrq {irq : Int} {dev : DevId} {p : Code ρ} :
    Returns build Q (do run (.freeIrq irq dev); p) r ↔ Returns build Q p (r.freeIrq (irq, dev)) :=
  returns_run (fun _ => rfl) (fun _ same => by cases same)

@[simp] theorem returns_loadIrq {i : Fin 2} {p : Int → Code ρ} :
    Returns build Q (do let irq ← call (.loadIrq i); p irq) r ↔
      Returns build Q (p (r.buttonIrqs i)) r := by
  constructor
  · intro ends
    exact ends (r.buttonIrqs i) r (if_pos rfl) (fun _ same => by cases same)
  · intro rest a t performed _
    simp only [Resources.perform] at performed
    split at performed <;> cases performed
    subst a
    exact rest

end

/-! ## The init and exit functions -/

/-- What an init function leaves when it returns `ret`. -/
def Ended (dev : Fin 2 → DevId) (ret : Int) (r : Resources) : Prop :=
  if ret < 0 then r.Empty else r.Full dev

theorem ended_failed {dev : Fin 2 → DevId} {ret : Int} (failed : ret < 0) {r : Resources}
    (held : r.held = []) (handlers : r.handlers = []) (misfreed : r.misfreed = false) :
    Ended dev ret r := by
  rw [Ended, if_pos failed]
  exact ⟨held, handlers, misfreed⟩

theorem intrptInit_returns {build : Build} :
    Returns build (Ended nullDev) intrptInit .start := by
  unfold intrptInit
  refine returns_checked (fun a => rfl) ?_ ?_
  · intro ret failed
    exact ended_failed failed rfl rfl rfl
  refine returns_checked (fun a => rfl) ?_ ?_
  · intro ret failed
    simp only [returns_gpioFree]
    exact ended_failed failed rfl rfl rfl
  refine returns_checked (fun a => rfl) ?_ ?_
  · intro ret failed
    simp only [returns_gpioFree]
    exact ended_failed failed rfl rfl rfl
  apply returns_gpioGetValue
  intro value
  refine returns_gpioToIrq ?_ ?_
  · intro ret failed _
    simp only [returns_gpioFree]
    exact ended_failed failed rfl rfl rfl
  intro irq0
  simp only [returns_storeIrq, returns_loadIrq, Function.update_self]
  refine returns_checked (fun a => rfl) ?_ ?_
  · intro ret failed
    simp only [returns_gpioFree]
    exact ended_failed failed rfl rfl rfl
  refine returns_gpioToIrq ?_ ?_
  · intro ret failed _
    simp only [returns_loadIrq, returns_freeIrq, returns_gpioFree, Function.update_self,
      Resources.freeIrq_last]
    exact ended_failed failed rfl rfl rfl
  intro irq1
  simp only [returns_storeIrq, returns_loadIrq, Function.update_self]
  refine returns_checked (fun a => rfl) ?_ ?_
  · intro ret failed
    simp only [returns_loadIrq, returns_freeIrq, returns_gpioFree, Function.update_self,
      Function.update_of_ne Fin.zero_ne_one, Resources.freeIrq_last]
    exact ended_failed failed rfl rfl rfl
  exact ⟨⟨none, none, none, .inl rfl⟩, rfl, rfl⟩

theorem bottomhalfInit_returns {build : Build} :
    Returns build (Ended nullDev) bottomhalfInit .start := by
  unfold bottomhalfInit
  refine returns_checked (fun a => rfl) ?_ ?_
  · intro ret failed
    exact ended_failed failed rfl rfl rfl
  refine returns_checked (fun a => rfl) ?_ ?_
  · intro ret failed
    simp only [returns_gpioFree]
    exact ended_failed failed rfl rfl rfl
  refine returns_checked (fun a => rfl) ?_ ?_
  · intro ret failed
    simp only [returns_gpioFree]
    exact ended_failed failed rfl rfl rfl
  refine returns_checked (fun a => rfl) ?_ ?_
  · intro ret failed
    simp only [returns_gpioFree]
    exact ended_failed failed rfl rfl rfl
  refine returns_checked (fun a => rfl) ?_ ?_
  · intro ret failed
    simp only [returns_gpioFree]
    exact ended_failed failed rfl rfl rfl
  refine returns_checked (fun a => rfl) ?_ ?_
  · intro ret failed
    simp only [returns_gpioFree]
    exact ended_failed failed rfl rfl rfl
  simp only [Resources.configure]
  apply returns_gpioGetValue
  intro value
  refine returns_gpioToIrq ?_ ?_
  · intro ret failed _
    simp only [returns_gpioFree]
    exact ended_failed failed rfl rfl rfl
  intro irq0
  simp only [returns_storeIrq, returns_loadIrq, Function.update_self]
  refine returns_checked (fun a => rfl) ?_ ?_
  · intro ret failed
    simp only [returns_gpioFree]
    exact ended_failed failed rfl rfl rfl
  refine returns_gpioToIrq ?_ ?_
  · intro ret failed _
    simp only [returns_loadIrq, returns_freeIrq, returns_gpioFree, Function.update_self,
      Resources.freeIrq_last]
    exact ended_failed failed rfl rfl rfl
  intro irq1
  simp only [returns_storeIrq, returns_loadIrq, Function.update_self]
  refine returns_checked (fun a => rfl) ?_ ?_
  · intro ret failed
    simp only [returns_loadIrq, returns_freeIrq, returns_gpioFree, Function.update_self,
      Function.update_of_ne Fin.zero_ne_one, Resources.freeIrq_last]
    exact ended_failed failed rfl rfl rfl
  exact ⟨⟨some .output, some .input, some .input, .inl rfl⟩, rfl, rfl⟩

theorem arrayInit_returns (dev : Fin 2 → DevId) :
    Returns .requestArray (Ended dev) (arrayInit dev) .start := by
  unfold arrayInit
  refine returns_checked (fun a => rfl) ?_ ?_
  · intro ret failed
    exact ended_failed failed rfl rfl rfl
  refine returns_checked (fun a => rfl) ?_ ?_
  · intro ret failed
    simp only [returns_gpioFreeArray]
    exact ended_failed failed rfl rfl rfl
  apply returns_gpioGetValue
  intro value
  refine returns_gpioToIrq ?_ ?_
  · intro ret failed _
    simp only [returns_gpioFreeArray]
    exact ended_failed failed rfl rfl rfl
  intro irq0
  simp only [returns_storeIrq, returns_loadIrq, Function.update_self]
  refine returns_checked (fun a => rfl) ?_ ?_
  · intro ret failed
    simp only [returns_gpioFreeArray]
    exact ended_failed failed rfl rfl rfl
  refine returns_gpioToIrq ?_ ?_
  · -- the handler of the first button would stay registered
    intro ret failed admitted
    exact absurd (admitted rfl rfl) (Int.not_le.2 failed)
  intro irq1
  simp only [returns_storeIrq, returns_loadIrq, Function.update_self]
  refine returns_checked (fun a => rfl) ?_ ?_
  · intro ret failed
    simp only [returns_loadIrq, returns_freeIrq, returns_gpioFreeArray, Function.update_self,
      Function.update_of_ne Fin.zero_ne_one, Resources.freeIrq_last]
    exact ended_failed failed rfl rfl rfl
  exact ⟨⟨some .output, some .input, some .input, .inr rfl⟩, rfl, rfl⟩

theorem plainExit_returns {build : Build} {r : Resources} (full : r.Full nullDev) :
    Returns build (fun _ r => r.Empty) plainExit r := by
  obtain ⟨irqs, held, handlers, misfreed⟩ := r
  obtain ⟨⟨led, on, off, held⟩, handlers, misfreed⟩ := full
  simp only [nullDev] at held handlers misfreed
  subst handlers misfreed
  simp only [plainExit, returns_loadIrq, returns_freeIrq, returns_gpioSetValue, returns_gpioFree,
    Resources.freeIrq_before, Resources.freeIrq_last]
  rcases held with rfl | rfl <;> exact ⟨rfl, rfl, rfl⟩

theorem arrayExit_returns {build : Build} {dev : Fin 2 → DevId} {r : Resources}
    (full : r.Full dev) : Returns build (fun _ r => r.Empty) (arrayExit dev) r := by
  obtain ⟨irqs, held, handlers, misfreed⟩ := r
  obtain ⟨⟨led, on, off, held⟩, handlers, misfreed⟩ := full
  simp only at held handlers misfreed
  subst handlers misfreed
  simp only [arrayExit, returns_loadIrq, returns_freeIrq, Resources.freeIrq_before,
    Resources.freeIrq_last]
  apply Calls.ends_bind.2
  simp only [ledArray, List.forM, returns_gpioSetValue, Calls.ends_pure, returns_gpioFreeArray]
  rcases held with rfl | rfl <;> exact ⟨rfl, rfl, rfl⟩

/-- The `dev_id`s of the two handlers. -/
def devs : File → Build → Fin 2 → DevId
  | .bhThreaded, .requestArray => buttonDev
  | _, _ => nullDev

theorem init_returns (file : File) (build : Build) :
    Returns build (Ended (devs file build)) (driver file build).init .start := by
  cases build with
  | noRequestArray =>
      cases file with
      | intrpt => exact intrptInit_returns
      | bottomhalf => exact bottomhalfInit_returns
      | bhThreaded => exact bottomhalfInit_returns
  | requestArray => cases file <;> exact arrayInit_returns _

theorem exit_returns (file : File) (build : Build) {r : Resources}
    (full : r.Full (devs file build)) :
    Returns build (fun _ r => r.Empty) (driver file build).exit r := by
  cases build with
  | noRequestArray => cases file <;> exact plainExit_returns full
  | requestArray => cases file <;> exact arrayExit_returns full

/-! ## The handlers leave the resources alone -/

def Call.harmless : Call → Bool
  | .loadIrq _ | .gpioGetValue _ | .gpioSetValue _ _ | .scheduleWork => true
  | _ => false

theorem perform_harmless {r t : Resources} {running : List Handler} {c : Call} {a : Int}
    (harmless : c.harmless) (done : r.perform running c a = some t) : t = r := by
  cases c with
  | loadIrq i =>
      simp only [Resources.perform] at done
      split at done <;> cases done
      rfl
  | gpioGetValue _ | gpioSetValue _ _ | scheduleWork =>
      cases done
      rfl
  | _ => cases harmless

theorem call_harmless {c : Call} (harmless : c.harmless) : (call c).Only fun c => c.harmless :=
  ⟨harmless, fun _ => trivial⟩

theorem run_harmless {c : Call} (harmless : c.harmless) : (run c).Only fun c => c.harmless :=
  ⟨harmless, fun _ => trivial⟩

theorem pressed_harmless (irq : Int) (i : Fin 2) (lit : Bool) :
    (pressed irq i lit).Only fun c => c.harmless := by
  refine Calls.only_bind (call_harmless rfl) fun button => ?_
  split
  · exact Calls.only_bind (call_harmless rfl) fun _ => trivial
  · trivial

theorem switchLed_harmless (irq : Int) : (switchLed irq).Only fun c => c.harmless := by
  refine Calls.only_bind (pressed_harmless irq 0 false) fun on => ?_
  split
  · exact run_harmless rfl
  · refine Calls.only_bind (pressed_harmless irq 1 true) fun off => ?_
    split
    · exact run_harmless rfl
    · trivial

theorem handler_harmless (file : File) (build : Build) (irq : Int) :
    ((driver file build).handler irq).Only fun c => c.harmless := by
  have isr : (bottomhalfIsr irq).Only fun c => c.harmless :=
    Calls.only_bind (switchLed_harmless irq) fun _ => run_harmless rfl
  cases file <;> cases build
  · exact switchLed_harmless irq
  · exact switchLed_harmless irq
  · exact isr
  · exact isr
  · trivial
  · trivial

/-! ## One load -/

/-- What the rest of the module's code will leave. -/
def Phase.Promises (file : File) (build : Build) (r : Resources) : Phase → Prop
  | .init rest => Returns build (Ended (devs file build)) rest r
  | .loaded => r.Full (devs file build)
  | .exit rest => Returns build (fun _ r => r.Empty) rest r
  | .failed _ | .unloaded => r.Empty

structure Load.Sound (file : File) (build : Build) (l : Load) : Prop where
  promises : l.phase.Promises file build l.res
  harmless : ∀ i ∈ l.isrs, i.2.Only fun c => c.harmless

/-- The answer to the next call of the module's code is one the build admits. -/
def Load.Admits (build : Build) (l : Load) : Action → Prop
  | .call a => ∀ c ∈ l.phase.next, build.Admits c a
  | _ => True

instance (build : Build) (l : Load) : ∀ a, Decidable (l.Admits build a)
  | .call a =>
      match next : l.phase.next with
      | none => .isTrue fun c member => by rw [next] at member; cases member
      | some c => decidable_of_iff (build.Admits c a)
          ⟨fun holds d member => by rw [next] at member; cases member; exact holds,
            fun all => all c next⟩
  | .unload | .interrupt _ | .isr _ _ | .workStart | .workEnd => .isTrue trivial

variable {file : File} {build : Build} {l l' : Load}

/-- A call that is answered as the build admits leaves what the code promises. -/
theorem Phase.Promises.call {phase : Phase} {r t : Resources} {c : Call} {a : Int}
    (promises : phase.Promises file build r) (at_ : phase.next = some c)
    (performed : r.perform [] c a = some t) (admitted : build.Admits c a) :
    (phase.after a).Promises file build t := by
  rcases Phase.next_cases at_ with ⟨rest, rfl⟩ | ⟨rest, rfl⟩
  · have returns : Returns build (Ended (devs file build)) (.call c rest) r := promises
    exact returns.step performed admitted
  · have returns : Returns build (fun _ r => r.Empty) (.call c rest) r := promises
    exact returns.step performed admitted

theorem callStep_sound {a : Int} (sound : l.Sound file build)
    (admits : ∀ c ∈ l.phase.next, build.Admits c a) (next : l.callStep a = some l') :
    l'.Sound file build := by
  have promises := sound.promises
  rcases Load.callStep_cases next with ⟨ret, at_, rfl⟩ | ⟨at_, rfl⟩ | ⟨c, r, at_, performed, rfl⟩
  · -- the init function returns
    rw [at_] at promises
    have ended : Ended (devs file build) ret l.res := promises
    refine ⟨?_, sound.harmless⟩
    rw [Ended] at ended
    split at ended
    · rename_i negative
      simp only [negative, if_true]
      exact ended
    · rename_i nonnegative
      simp only [nonnegative, if_false]
      exact ended
  · rw [at_] at promises
    exact ⟨promises, sound.harmless⟩
  · exact ⟨promises.call at_ (perform_idle performed) (admits c at_), sound.harmless⟩

/-- A handler that runs returns, or it makes a call; the resources stay as they are. -/
theorem isrStep_cases {k : Nat} {a : Int} (sound : l.Sound file build)
    (next : l.isrStep k a = some l') :
    l' = { l with isrs := l.isrs.eraseIdx k } ∨
    ∃ h c rest, (h, .call c rest) ∈ l.isrs ∧
      l' = { l.schedule c with res := l.res, isrs := l.isrs.set k (h, rest a) } := by
  unfold Load.isrStep at next
  split at next
  · cases next
    exact .inl rfl
  · rename_i h c rest found
    obtain ⟨r, done, rfl⟩ := Option.map_eq_some_iff.1 next
    have member := List.mem_of_getElem? found
    obtain rfl := perform_harmless (sound.harmless _ member).1 done
    exact .inr ⟨h, c, rest, member, rfl⟩
  · cases next

/-- No handler begins in the step of one that runs. -/
theorem isrStep_handlers {k : Nat} {a : Int} (sound : l.Sound file build)
    (next : l.isrStep k a = some l') {P : Handler → Prop} (all : ∀ i ∈ l.isrs, P i.1) :
    ∀ i ∈ l'.isrs, P i.1 := by
  rcases isrStep_cases sound next with rfl | ⟨h, c, rest, member, rfl⟩
  · intro i later
    exact all i (List.mem_of_mem_eraseIdx later)
  · intro i later
    rcases List.mem_or_eq_of_mem_set later with earlier | rfl
    · exact all i earlier
    · exact all (h, .call c rest) member

/-- A handler goes on, and the resources stay as they are. -/
theorem isrStep_sound {k : Nat} {a : Int} (sound : l.Sound file build)
    (next : l.isrStep k a = some l') : l'.Sound file build := by
  rcases isrStep_cases sound next with rfl | ⟨h, c, rest, member, rfl⟩
  · exact ⟨sound.promises, fun i later => sound.harmless i (List.mem_of_mem_eraseIdx later)⟩
  · refine ⟨?_, ?_⟩
    · cases c <;> exact sound.promises
    · intro i later
      rcases List.mem_or_eq_of_mem_set later with earlier | rfl
      · exact sound.harmless i earlier
      · exact (sound.harmless _ member).2 a

/-- **One step.** -/
theorem step_sound {a : Action} (sound : l.Sound file build) (admits : l.Admits build a)
    (next : l.step (driver file build) a = some l') : l'.Sound file build := by
  cases a with
  | call a => exact callStep_sound sound admits next
  | isr k a => exact isrStep_sound sound next
  | unload =>
      simp only [Load.step] at next
      split at next <;> cases next
      rename_i at_
      have promises := sound.promises
      rw [at_] at promises
      exact ⟨exit_returns file build promises, sound.harmless⟩
  | interrupt h =>
      simp only [Load.step] at next
      split at next <;> cases next
      refine ⟨sound.promises, ?_⟩
      intro i member
      rcases List.mem_cons.1 member with rfl | member
      · exact handler_harmless file build h.1
      · exact sound.harmless i member
  | workStart | workEnd =>
      simp only [Load.step] at next
      split at next <;> cases next
      exact ⟨sound.promises, sound.harmless⟩

/-! ## Frees of what is not held -/

theorem gpioFree_misfreed {r : Resources} (misfreed : r.misfreed = true) (gpio : Nat) :
    (r.gpioFree gpio).misfreed = true := by
  unfold Resources.gpioFree
  split
  · exact misfreed
  · rfl

theorem gpioFreeArray_misfreed (array : List Gpio) {r : Resources} (misfreed : r.misfreed = true) :
    (r.gpioFreeArray array).misfreed = true := by
  induction array generalizing r with
  | nil => exact misfreed
  | cons g array ih => exact ih (gpioFree_misfreed misfreed g.gpio)

/-- A wrong free is never forgotten. -/
theorem perform_misfreed {r t : Resources} {c : Call} {a : Int}
    (performed : r.perform [] c a = some t) (misfreed : r.misfreed = true) :
    t.misfreed = true := by
  cases c with
  | gpioRequest _ | gpioRequestArray _ | gpioDirectionOutput _ _ | gpioDirectionInput _
  | requestIrq _ _ =>
      rcases Resources.outcome_cases performed with rfl | rfl <;> exact misfreed
  | gpioGetValue _ | gpioSetValue _ _ | gpioToIrq _ | storeIrq _ _ | scheduleWork =>
      cases performed
      exact misfreed
  | loadIrq i =>
      simp only [Resources.perform] at performed
      split at performed <;> cases performed
      exact misfreed
  | freeIrq irq dev =>
      cases performed
      unfold Resources.freeIrq
      split
      · exact misfreed
      · rfl
  | gpioFree gpio =>
      cases performed
      exact gpioFree_misfreed misfreed gpio
  | gpioFreeArray array =>
      cases performed
      exact gpioFreeArray_misfreed array misfreed

/-- Every call can be answered. -/
theorem exists_answer (build : Build) (r : Resources) (c : Call) :
    ∃ a t, r.perform [] c a = some t ∧ build.Admits c a := by
  cases c with
  | loadIrq i => exact ⟨r.buttonIrqs i, r, if_pos rfl, fun _ same => by cases same⟩
  | _ => exact ⟨0, _, rfl, fun _ _ => Int.le_refl 0⟩

/-- A program that returns without a wrong free has made none. -/
theorem returns_misfreed {ρ : Type} {build : Build} {Q : ρ → Resources → Prop}
    (clean : ∀ x r, Q x r → r.misfreed = false) {p : Code ρ} {r : Resources}
    (returns : Returns build Q p r) : r.misfreed = false := by
  induction p generalizing r with
  | ret x => exact clean x r returns
  | call c next ih =>
      obtain ⟨a, t, performed, admits⟩ := exists_answer build r c
      have later := ih a (returns.step performed admits)
      by_contra wrong
      rw [Bool.not_eq_false] at wrong
      rw [perform_misfreed performed wrong] at later
      cases later

/-! ## Runs -/

/-- What is not held is not freed, and nothing is held while the module is not
loaded. -/
structure Load.Balanced (l : Load) : Prop where
  misfreed : l.res.misfreed = false
  held : l.phase.idle → l.res.held = [] ∧ l.res.handlers = []

theorem Load.Sound.balanced {l : Load} (sound : l.Sound file build) : l.Balanced := by
  have promises := sound.promises
  cases at_ : l.phase with
  | init rest =>
      rw [at_] at promises
      refine ⟨returns_misfreed ?_ promises, fun idle => by rw [at_] at idle; cases idle⟩
      intro ret r ended
      rw [Ended] at ended
      split at ended
      · exact ended.misfreed
      · exact ended.misfreed
  | exit rest =>
      rw [at_] at promises
      exact ⟨returns_misfreed (fun _ _ empty => empty.misfreed) promises,
        fun idle => by rw [at_] at idle; cases idle⟩
  | loaded =>
      rw [at_] at promises
      exact ⟨promises.misfreed, fun idle => by rw [at_] at idle; cases idle⟩
  | failed ret | unloaded =>
      rw [at_] at promises
      exact ⟨promises.misfreed, fun _ => ⟨promises.held, promises.handlers⟩⟩

theorem start_sound (file : File) (build : Build) :
    (driver file build).component.start.Sound file build :=
  ⟨init_returns file build, fun i member => by cases member⟩

/-- **Balanced resources.**  A run in which, in the build without
`NO_GPIO_REQUEST_ARRAY`, no `gpio_to_irq(buttons[1].gpio)` fails frees only what is held
and holds nothing while the module is not loaded. -/
theorem buttons_balanced (file : File) (build : Build) (as : List (Component.Action Action))
    (meets : (driver file build).component.system.Meets (Component.On (Load.Admits build)) [] as) :
    (driver file build).component.system.Always (fun s => ∀ l ∈ s, l.Balanced) [] as := by
  have sound : (driver file build).component.system.Always
      (fun s => ∀ l ∈ s, l.Sound file build) [] as :=
    Component.always_of_meets (start_sound file build) (fun l a l' => step_sound) meets
  exact sound.mono fun s all l member => (all l member).balanced

/-- A load whose calls all succeed, with an interrupt, and its unload. -/
def loadedAndUnloaded : List (Component.Action Action) :=
  [.start, .step 0 (.call 0), .step 0 (.call 0), .step 0 (.call 1), .step 0 (.call 49),
    .step 0 (.call 0), .step 0 (.call 49), .step 0 (.call 0), .step 0 (.call 50),
    .step 0 (.call 0), .step 0 (.call 50), .step 0 (.call 0), .step 0 (.call 0),
    .step 0 (.interrupt (50, .button (.last 1))), .step 0 .unload, .step 0 (.isr 0 0),
    .step 0 (.call 49), .step 0 (.call 0), .step 0 (.call 50), .step 0 (.call 0),
    .step 0 (.call 0), .step 0 (.call 0), .step 0 (.call 0), .step 0 (.call 0)]

theorem buttons_balanced_unloaded :
    ((driver .bhThreaded .requestArray).component.system.run [] loadedAndUnloaded).map
      (fun s => s.map fun l => l.phase.idle) = some [true] ∧
    (driver .bhThreaded .requestArray).component.system.Always (fun s => ∀ l ∈ s, l.Balanced)
      [] loadedAndUnloaded :=
  ⟨by decide, buttons_balanced .bhThreaded .requestArray loadedAndUnloaded (by decide)⟩

/-- A load whose second `gpio_to_irq` fails. -/
def secondIrqFails : List (Component.Action Action) :=
  [.start, .step 0 (.call 0), .step 0 (.call 0), .step 0 (.call 1), .step 0 (.call 49),
    .step 0 (.call 0), .step 0 (.call 49), .step 0 (.call 0), .step 0 (.call (-6)),
    .step 0 (.call 0), .step 0 (.call 0), .step 0 (.call 0)]

/-- Its init function returns the error with the first handler registered. -/
theorem buttons_handler_left :
    ∃ s, (driver .intrpt .requestArray).component.system.Reachable s ∧ ¬ ∀ l ∈ s, l.Balanced := by
  have ends : ((driver .intrpt .requestArray).component.system.run [] secondIrqFails).map
      (fun s => s.map fun l => (l.phase.idle, l.res.handlers)) =
      some [(true, [(49, DevId.null)])] := by decide
  obtain ⟨s, ran, same⟩ := Option.map_eq_some_iff.1 ends
  refine ⟨s, ⟨[], secondIrqFails, rfl, ran⟩, ?_⟩
  intro balanced
  obtain ⟨l, rfl, at_⟩ := List.map_eq_singleton_iff.1 same
  simp only [Prod.mk.injEq] at at_
  obtain ⟨idle, handlers⟩ := at_
  have none := (balanced l List.mem_cons_self).held idle
  rw [handlers] at none
  cases none.2

end Lkmpg.Buttons
