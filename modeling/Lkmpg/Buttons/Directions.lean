/-
# Lkmpg.Buttons.Directions -- GPIOs are configured before they are used

As long as a handler is registered the three GPIOs are held, the LED as an output and
the buttons as inputs (`Resources.Wired`).  Each call of an init or exit function keeps
that when it comes in its place (`perform_wired`), and each comes in its place
(`init_inOrder`, `exit_inOrder`).  What is left out is `intrpt_init` with
`NO_GPIO_REQUEST_ARRAY`, which configures no direction: there the first `request_irq`
that succeeds is already too early.
-/
import Lkmpg.Buttons.Work

namespace Lkmpg.Buttons

open Lkmpg.Theory

set_option autoImplicit false

namespace Resources

/-- The three GPIOs are held, each with its direction. -/
structure Directed (r : Resources) : Prop where
  led : (ledGpio, some .output) ∈ r.held
  button : ∀ i, (buttonGpios i, some .input) ∈ r.held

/-- A handler is registered only while the GPIOs are directed. -/
def Wired (r : Resources) : Prop := r.handlers = [] ∨ r.Directed

theorem Directed.of_held {r : Resources}
    (held : r.held = [(18, some .input), (17, some .input), (4, some .output)] ∨
      r.held = [(17, some .input), (18, some .input), (4, some .output)]) : r.Directed := by
  rcases held with held | held <;> refine ⟨?_, ?_⟩ <;> rw [held] <;> decide

theorem Directed.mono {r t : Resources} (directed : r.Directed) (more : r.held ⊆ t.held) :
    t.Directed :=
  ⟨more directed.led, fun i => more (directed.button i)⟩

end Resources

/-! ## The calls in their order -/

/-- The init function configures the directions, itself or by the flags of the arrays. -/
def Directs (file : File) (build : Build) : Prop := ¬ (file = .intrpt ∧ build = .noRequestArray)

instance (file : File) (build : Build) : Decidable (Directs file build) :=
  inferInstanceAs (Decidable (¬ _))

/-- `request_irq` or `request_threaded_irq`. -/
def Call.registers : Call → Bool
  | .requestIrq _ _ => true
  | _ => false

/-- The answers with which no handler is registered too early or left too long. -/
def Answers (file : File) (build : Build) (c : Call) (a : Int) : Prop :=
  build.Admits c a ∧ (¬ Directs file build → c.registers = true → a ≠ 0)

instance (file : File) (build : Build) (c : Call) (a : Int) : Decidable (Answers file build c a) :=
  inferInstanceAs (Decidable (_ ∧ _))

/-- The call comes in its place. -/
def InPlace (file : File) (build : Build) (r : Resources) : Call → Prop
  | .requestIrq _ _ => Directs file build → r.Directed
  | .gpioSetValue _ _ => (ledGpio, some .output) ∈ r.held
  | .gpioDirectionOutput _ _ | .gpioDirectionInput _ | .gpioFree _ | .gpioFreeArray _ =>
      r.handlers = []
  | _ => True

variable {file : File} {build : Build}

/-- **One call.** -/
theorem perform_wired {r t : Resources} {running : List Handler} {c : Call} {a : Int}
    (wired : r.Wired) (inPlace : InPlace file build r c) (answers : Answers file build c a)
    (performed : r.perform running c a = some t) : t.Wired := by
  have empty (handlers : t.handlers = r.handlers) (none : r.handlers = []) : t.Wired :=
    .inl (handlers.trans none)
  have more (handlers : t.handlers = r.handlers) (held : r.held ⊆ t.held) : t.Wired :=
    wired.imp (fun none => handlers.trans none) (fun directed => directed.mono held)
  cases c with
  | requestIrq irq dev =>
      simp only [Resources.perform, Resources.outcome] at performed
      split at performed
      · rename_i zero
        cases performed
        have directs : Directs file build := by
          by_contra none
          exact answers.2 none rfl zero
        exact .inr ((inPlace directs).mono (List.Subset.refl _))
      · split at performed <;> cases performed
        exact wired
  | gpioRequest gpio =>
      rcases Resources.outcome_cases performed with rfl | rfl
      · exact more rfl (List.subset_cons_self _ _)
      · exact wired
  | gpioRequestArray array =>
      rcases Resources.outcome_cases performed with rfl | rfl
      · exact more rfl (List.subset_append_right _ _)
      · exact wired
  | gpioDirectionOutput _ _ | gpioDirectionInput _ =>
      rcases Resources.outcome_cases performed with rfl | rfl
      · exact empty rfl inPlace
      · exact wired
  | gpioGetValue _ | gpioSetValue _ _ | gpioToIrq _ | scheduleWork =>
      cases performed
      exact wired
  | storeIrq i irq =>
      cases performed
      exact more rfl (List.Subset.refl _)
  | loadIrq i =>
      simp only [Resources.perform] at performed
      split at performed <;> cases performed
      exact wired
  | freeIrq irq dev =>
      simp only [Resources.perform] at performed
      split at performed <;> cases performed
      rw [Resources.freeIrq]
      split
      · refine wired.imp ?_ (fun directed => directed.mono (List.Subset.refl _))
        intro none
        simp [none]
      · exact wired.imp id (fun directed => directed.mono (List.Subset.refl _))
  | gpioFree gpio =>
      cases performed
      exact empty (r.gpioFree_handlers gpio) inPlace
  | gpioFreeArray array =>
      cases performed
      exact empty (r.gpioFreeArray_handlers array) inPlace

/-! ## Rules for the calls -/

/-- Every call of the program comes in its place. -/
abbrev InOrder {ρ : Type} (file : File) (build : Build) (p : Code ρ) (r : Resources) : Prop :=
  p.Safe (fun r c a => Resources.perform r [] c a) (Answers file build) (InPlace file build) r

section

variable {ρ : Type} {r : Resources}

/-- `if (ret)` after a call that may fail. -/
theorem inOrder_checked {c : Call} {done : Resources} {failed next : Int → Code ρ}
    (outcome : ∀ a, r.perform [] c a = r.outcome a done) (inPlace : InPlace file build r c)
    (fails : ∀ a < 0, InOrder file build (failed a) r)
    (succeeds : Answers file build c 0 → InOrder file build (next 0) done) :
    InOrder file build (do let ret ← call c; if ret ≠ 0 then failed ret else next ret) r := by
  refine Calls.safe_one.2 ⟨inPlace, ?_⟩
  intro a t performed answers
  rw [outcome, Resources.outcome] at performed
  split at performed
  · rename_i zero
    cases performed
    subst zero
    exact succeeds answers
  · rename_i nonzero
    rw [if_pos nonzero]
    split at performed <;> cases performed
    exact fails a ‹_›

/-- `if (ret < 0)` after `gpio_to_irq`. -/
theorem inOrder_gpioToIrq {gpio : Nat} {failed next : Int → Code ρ}
    (fails : ∀ a < 0, build.Admits (.gpioToIrq gpio) a → InOrder file build (failed a) r)
    (succeeds : ∀ a, InOrder file build (next a) r) :
    InOrder file build (do
      let ret ← call (.gpioToIrq gpio)
      if ret < 0 then failed ret else next ret) r := by
  refine Calls.safe_one.2 ⟨trivial, ?_⟩
  intro a t performed answers
  cases performed
  by_cases negative : a < 0
  · rw [if_pos negative]
    exact fails a negative answers.1
  · rw [if_neg negative]
    exact succeeds a

theorem inOrder_gpioGetValue {gpio : Nat} {p : Int → Code ρ}
    (rest : ∀ a, InOrder file build (p a) r) :
    InOrder file build (do let value ← call (.gpioGetValue gpio); p value) r := by
  refine Calls.safe_one.2 ⟨trivial, ?_⟩
  intro a t performed _
  cases performed
  exact rest a

/-- A call with one outcome, whose answer is not used. -/
theorem inOrder_run {c : Call} {t : Resources} {p : Code ρ}
    (performs : ∀ a, r.perform [] c a = some t) (answers : Answers file build c 0) :
    InOrder file build (do run c; p) r ↔ InPlace file build r c ∧ InOrder file build p t := by
  constructor
  · intro inOrder
    exact ⟨inOrder.1, inOrder.2 0 t (performs 0) answers⟩
  · rintro ⟨inPlace, rest⟩
    refine ⟨inPlace, ?_⟩
    intro a t' performed _
    cases (performs a).symm.trans performed
    exact rest

theorem answers_of_eq {c : Call} {a : Int} (admits : c ≠ .gpioToIrq (buttons (.last 1)).gpio)
    (other : c.registers = false) : Answers file build c a := by
  refine ⟨fun _ same => absurd same admits, ?_⟩
  intro _ registers
  rw [other] at registers
  cases registers

@[simp] theorem inOrder_gpioFree {gpio : Nat} {p : Code ρ} :
    InOrder file build (do run (.gpioFree gpio); p) r ↔
      r.handlers = [] ∧ InOrder file build p (r.gpioFree gpio) :=
  inOrder_run (fun _ => rfl) (answers_of_eq nofun rfl)

@[simp] theorem inOrder_gpioFreeArray {array : List Gpio} {p : Code ρ} :
    InOrder file build (do run (.gpioFreeArray array); p) r ↔
      r.handlers = [] ∧ InOrder file build p (r.gpioFreeArray array) :=
  inOrder_run (fun _ => rfl) (answers_of_eq nofun rfl)

@[simp] theorem inOrder_gpioSetValue {gpio : Nat} {value : Int} {p : Code ρ} :
    InOrder file build (do run (.gpioSetValue gpio value); p) r ↔
      (ledGpio, some .output) ∈ r.held ∧ InOrder file build p r :=
  inOrder_run (fun _ => rfl) (answers_of_eq nofun rfl)

@[simp] theorem inOrder_storeIrq {i : Fin 2} {irq : Int} {p : Code ρ} :
    InOrder file build (do run (.storeIrq i irq); p) r ↔
      InOrder file build p { r with buttonIrqs := Function.update r.buttonIrqs i irq } :=
  (inOrder_run (c := .storeIrq i irq) (fun _ => rfl) (answers_of_eq nofun rfl)).trans
    (and_iff_right trivial)

@[simp] theorem inOrder_freeIrq {irq : Int} {dev : DevId} {p : Code ρ} :
    InOrder file build (do run (.freeIrq irq dev); p) r ↔
      InOrder file build p (r.freeIrq (irq, dev)) :=
  (inOrder_run (c := .freeIrq irq dev) (fun _ => rfl) (answers_of_eq nofun rfl)).trans
    (and_iff_right trivial)

@[simp] theorem inOrder_loadIrq {i : Fin 2} {p : Int → Code ρ} :
    InOrder file build (do let irq ← call (.loadIrq i); p irq) r ↔
      InOrder file build (p (r.buttonIrqs i)) r := by
  constructor
  · intro inOrder
    exact inOrder.2 (r.buttonIrqs i) r (if_pos rfl) (answers_of_eq nofun rfl)
  · intro rest
    refine Calls.safe_one.2 ⟨trivial, ?_⟩
    intro a t performed _
    simp only [Resources.perform] at performed
    split at performed <;> cases performed
    subst a
    exact rest

end

/-! ## The init and exit functions -/

theorem intrptInit_inOrder : InOrder .intrpt .noRequestArray intrptInit .start := by
  have early : ¬ Directs .intrpt .noRequestArray := by decide
  unfold intrptInit
  refine inOrder_checked (fun a => rfl) trivial (fun _ _ => trivial) fun _ => ?_
  refine inOrder_checked (fun a => rfl) trivial ?_ fun _ => ?_
  · intro ret failed
    simp only [inOrder_gpioFree]
    exact ⟨rfl, trivial⟩
  refine inOrder_checked (fun a => rfl) trivial ?_ fun _ => ?_
  · intro ret failed
    simp only [inOrder_gpioFree]
    exact ⟨rfl, rfl, trivial⟩
  apply inOrder_gpioGetValue
  intro value
  refine inOrder_gpioToIrq ?_ ?_
  · intro ret failed _
    simp only [inOrder_gpioFree]
    exact ⟨rfl, rfl, rfl, trivial⟩
  intro irq0
  simp only [inOrder_storeIrq, inOrder_loadIrq, Function.update_self]
  refine inOrder_checked (fun a => rfl) (fun directs => absurd directs early) ?_ ?_
  · intro ret failed
    simp only [inOrder_gpioFree]
    exact ⟨rfl, rfl, rfl, trivial⟩
  · -- no `request_irq` succeeds
    intro answers
    exact absurd rfl (answers.2 early rfl)

theorem bottomhalfInit_inOrder {file : File} :
    InOrder file .noRequestArray bottomhalfInit .start := by
  unfold bottomhalfInit
  refine inOrder_checked (fun a => rfl) trivial (fun _ _ => trivial) fun _ => ?_
  refine inOrder_checked (fun a => rfl) rfl ?_ fun _ => ?_
  · intro ret failed
    simp only [inOrder_gpioFree]
    exact ⟨rfl, trivial⟩
  refine inOrder_checked (fun a => rfl) trivial ?_ fun _ => ?_
  · intro ret failed
    simp only [inOrder_gpioFree]
    exact ⟨rfl, trivial⟩
  refine inOrder_checked (fun a => rfl) trivial ?_ fun _ => ?_
  · intro ret failed
    simp only [inOrder_gpioFree]
    exact ⟨rfl, rfl, trivial⟩
  refine inOrder_checked (fun a => rfl) rfl ?_ fun _ => ?_
  · intro ret failed
    simp only [inOrder_gpioFree]
    exact ⟨rfl, rfl, rfl, trivial⟩
  refine inOrder_checked (fun a => rfl) rfl ?_ fun _ => ?_
  · intro ret failed
    simp only [inOrder_gpioFree]
    exact ⟨rfl, rfl, rfl, trivial⟩
  apply inOrder_gpioGetValue
  intro value
  refine inOrder_gpioToIrq ?_ ?_
  · intro ret failed _
    simp only [inOrder_gpioFree]
    exact ⟨rfl, rfl, rfl, trivial⟩
  intro irq0
  simp only [inOrder_storeIrq, inOrder_loadIrq, Function.update_self]
  refine inOrder_checked (fun a => rfl) (fun _ => .of_held (.inl rfl)) ?_ fun _ => ?_
  · intro ret failed
    simp only [inOrder_gpioFree]
    exact ⟨rfl, rfl, rfl, trivial⟩
  refine inOrder_gpioToIrq ?_ ?_
  · intro ret failed _
    simp only [inOrder_loadIrq, inOrder_freeIrq, inOrder_gpioFree, Function.update_self,
      Resources.freeIrq_last]
    exact ⟨rfl, rfl, rfl, trivial⟩
  intro irq1
  simp only [inOrder_storeIrq, inOrder_loadIrq, Function.update_self]
  refine inOrder_checked (fun a => rfl) (fun _ => .of_held (.inl rfl)) ?_ fun _ => trivial
  intro ret failed
  simp only [inOrder_loadIrq, inOrder_freeIrq, inOrder_gpioFree, Function.update_self,
    Function.update_of_ne Fin.zero_ne_one, Resources.freeIrq_last]
  exact ⟨rfl, rfl, rfl, trivial⟩

theorem arrayInit_inOrder {file : File} (dev : Fin 2 → DevId) :
    InOrder file .requestArray (arrayInit dev) .start := by
  unfold arrayInit
  refine inOrder_checked (fun a => rfl) trivial (fun _ _ => trivial) fun _ => ?_
  refine inOrder_checked (fun a => rfl) trivial ?_ fun _ => ?_
  · intro ret failed
    simp only [inOrder_gpioFreeArray]
    exact ⟨rfl, trivial⟩
  apply inOrder_gpioGetValue
  intro value
  refine inOrder_gpioToIrq ?_ ?_
  · intro ret failed _
    simp only [inOrder_gpioFreeArray]
    exact ⟨rfl, rfl, trivial⟩
  intro irq0
  simp only [inOrder_storeIrq, inOrder_loadIrq, Function.update_self]
  refine inOrder_checked (fun a => rfl) (fun _ => .of_held (.inr rfl)) ?_ fun _ => ?_
  · intro ret failed
    simp only [inOrder_gpioFreeArray]
    exact ⟨rfl, rfl, trivial⟩
  refine inOrder_gpioToIrq ?_ ?_
  · -- the GPIOs would be freed with the first handler registered
    intro ret failed admitted
    exact absurd (admitted rfl rfl) (Int.not_le.2 failed)
  intro irq1
  simp only [inOrder_storeIrq, inOrder_loadIrq, Function.update_self]
  refine inOrder_checked (fun a => rfl) (fun _ => .of_held (.inr rfl)) ?_ fun _ => trivial
  intro ret failed
  simp only [inOrder_loadIrq, inOrder_freeIrq, inOrder_gpioFreeArray, Function.update_self,
    Function.update_of_ne Fin.zero_ne_one, Resources.freeIrq_last]
  exact ⟨rfl, rfl, trivial⟩

theorem init_inOrder (file : File) (build : Build) :
    InOrder file build (driver file build).init .start := by
  cases build with
  | noRequestArray =>
      cases file with
      | intrpt => exact intrptInit_inOrder
      | bottomhalf => exact bottomhalfInit_inOrder
      | bhThreaded => exact bottomhalfInit_inOrder
  | requestArray => cases file <;> exact arrayInit_inOrder _

theorem plainExit_inOrder {r : Resources} (full : r.Full nullDev) (directed : r.Directed) :
    InOrder file build plainExit r := by
  have led := directed.led
  obtain ⟨irqs, held, handlers, misfreed⟩ := r
  obtain ⟨-, handlers, misfreed⟩ := full
  simp only [nullDev] at handlers misfreed led
  subst handlers misfreed
  simp only [plainExit, inOrder_loadIrq, inOrder_freeIrq, inOrder_gpioSetValue, inOrder_gpioFree,
    Resources.freeIrq_before, Resources.freeIrq_last, Resources.gpioFree_handlers]
  exact ⟨led, trivial, trivial, trivial, trivial⟩

theorem arrayExit_inOrder {dev : Fin 2 → DevId} {r : Resources} (full : r.Full dev)
    (directed : r.Directed) : InOrder file build (arrayExit dev) r := by
  have led := directed.led
  obtain ⟨irqs, held, handlers, misfreed⟩ := r
  obtain ⟨-, handlers, misfreed⟩ := full
  simp only at handlers misfreed led
  subst handlers misfreed
  simp only [arrayExit, inOrder_loadIrq, inOrder_freeIrq, Resources.freeIrq_before,
    Resources.freeIrq_last]
  -- there is one LED in the array
  show InOrder file build (do
    run (.gpioSetValue ledGpio 0)
    run (.gpioFreeArray ledArray)
    run (.gpioFreeArray buttonArray)
    return) ⟨irqs, held, [], false⟩
  simp only [inOrder_gpioSetValue, inOrder_gpioFreeArray, Resources.gpioFreeArray_handlers]
  exact ⟨led, trivial, trivial, trivial⟩

theorem exit_inOrder (file : File) (build : Build) {r : Resources}
    (full : r.Full (devs file build)) (directed : r.Directed) :
    InOrder file build (driver file build).exit r := by
  cases build with
  | noRequestArray => cases file <;> exact plainExit_inOrder full directed
  | requestArray => cases file <;> exact arrayExit_inOrder full directed

/-! ## One load -/

/-- The answer to the next call of the module's code. -/
def Load.Answers (file : File) (build : Build) (l : Load) : Action → Prop
  | .call a => ∀ c ∈ l.phase.next, Buttons.Answers file build c a
  | _ => True

instance (file : File) (build : Build) (l : Load) : ∀ a, Decidable (l.Answers file build a)
  | .call a =>
      match next : l.phase.next with
      | none => .isTrue fun c member => by rw [next] at member; cases member
      | some c => decidable_of_iff (Buttons.Answers file build c a)
          ⟨fun holds d member => by rw [next] at member; cases member; exact holds,
            fun all => all c next⟩
  | .unload | .interrupt _ | .isr _ _ | .workStart | .workEnd => .isTrue trivial

theorem Load.Answers.admits {l : Load} {a : Action} (answers : l.Answers file build a) :
    l.Admits build a := by
  cases a with
  | call a => exact fun c member => (answers c member).1
  | _ => trivial

/-- The rest of the module's code comes in its place. -/
def Phase.InOrder (file : File) (build : Build) (r : Resources) : Phase → Prop
  | .init rest => Buttons.InOrder file build rest r
  | .exit rest => Buttons.InOrder file build rest r
  | .loaded | .failed _ | .unloaded => True

structure Load.Wired (file : File) (build : Build) (l : Load) : Prop where
  wired : l.res.Wired
  inOrder : l.phase.InOrder file build l.res
  registered : ∀ i ∈ l.isrs, i.1 ∈ l.res.handlers

variable {l l' : Load}

/-- The next call comes in its place, and so do the calls after it. -/
theorem Phase.InOrder.call {phase : Phase} {r t : Resources} {c : Call} {a : Int}
    (inOrder : phase.InOrder file build r) (at_ : phase.next = some c)
    (performed : r.perform [] c a = some t) (answered : Answers file build c a) :
    InPlace file build r c ∧ (phase.after a).InOrder file build t := by
  rcases Phase.next_cases at_ with ⟨rest, rfl⟩ | ⟨rest, rfl⟩
  · have safe : Buttons.InOrder file build (.call c rest) r := inOrder
    exact ⟨safe.1, safe.step performed answered⟩
  · have safe : Buttons.InOrder file build (.call c rest) r := inOrder
    exact ⟨safe.1, safe.step performed answered⟩

theorem callStep_wired {a : Int} (wired : l.Wired file build)
    (answers : ∀ c ∈ l.phase.next, Answers file build c a) (next : l.callStep a = some l') :
    l'.Wired file build := by
  rcases Load.callStep_cases next with ⟨ret, _, rfl⟩ | ⟨_, rfl⟩ | ⟨c, r, at_, performed, rfl⟩
  · refine ⟨wired.wired, ?_, wired.registered⟩
    dsimp only
    split <;> trivial
  · exact ⟨wired.wired, trivial, wired.registered⟩
  · have answered := answers c at_
    obtain ⟨inPlace, later⟩ := wired.inOrder.call at_ (perform_idle performed) answered
    refine ⟨perform_wired wired.wired inPlace answered performed, later, ?_⟩
    intro i member
    exact (perform_handlers performed).1 i.1 (List.mem_map_of_mem member)
      (wired.registered i member)

theorem isrStep_wired {k : Nat} {a : Int} (sound : l.Sound file build)
    (wired : l.Wired file build) (next : l.isrStep k a = some l') : l'.Wired file build := by
  have registered := isrStep_handlers sound next wired.registered
  rcases isrStep_cases sound next with rfl | ⟨h, c, rest, _, rfl⟩
  · exact ⟨wired.wired, wired.inOrder, registered⟩
  · refine ⟨wired.wired, ?_, registered⟩
    cases c <;> exact wired.inOrder

/-- **One step.** -/
theorem step_wired {a : Action} (sound : l.Sound file build) (wired : l.Wired file build)
    (answers : l.Answers file build a) (next : l.step (driver file build) a = some l') :
    l'.Wired file build := by
  cases a with
  | call a => exact callStep_wired wired answers next
  | isr k a => exact isrStep_wired sound wired next
  | unload =>
      simp only [Load.step] at next
      split at next <;> cases next
      rename_i at_
      have full := sound.promises
      rw [at_] at full
      have directed : l.res.Directed := by
        refine wired.wired.resolve_left ?_
        rw [Resources.Full.handlers full]
        exact List.cons_ne_nil _ _
      exact ⟨wired.wired, exit_inOrder file build full directed, wired.registered⟩
  | interrupt h =>
      simp only [Load.step] at next
      split at next <;> cases next
      exact ⟨wired.wired, wired.inOrder, List.forall_mem_cons.2 ⟨‹_›, wired.registered⟩⟩
  | workStart =>
      simp only [Load.step] at next
      split at next <;> cases next
      exact ⟨wired.wired, wired.inOrder, wired.registered⟩
  | workEnd =>
      simp only [Load.step] at next
      split at next <;> cases next
      exact ⟨wired.wired, wired.inOrder, wired.registered⟩

/-! ## What is configured -/

/-- The LED is held and an output whenever the exit function or a handler is about to
set it, and a button is held and an input whenever its handler is registered. -/
structure Load.Configured (dev : Fin 2 → DevId) (l : Load) : Prop where
  exit : ∀ value, l.phase.next = some (.gpioSetValue ledGpio value) →
    (ledGpio, some .output) ∈ l.res.held
  isr : ∀ i ∈ l.isrs, ∀ value rest, i.2 = .call (.gpioSetValue ledGpio value) rest →
    (ledGpio, some .output) ∈ l.res.held
  button : ∀ i, (l.res.buttonIrqs i, dev i) ∈ l.res.handlers →
    (buttonGpios i, some .input) ∈ l.res.held

theorem Load.Wired.configured (wired : l.Wired file build) (dev : Fin 2 → DevId) :
    l.Configured dev := by
  have directed {h : Handler} (registered : h ∈ l.res.handlers) : l.res.Directed :=
    wired.wired.resolve_left (List.ne_nil_of_mem registered)
  refine ⟨?_, ?_, ?_⟩
  · intro value at_
    have inOrder := wired.inOrder
    cases phase : l.phase with
    | init rest | exit rest =>
        rw [phase] at at_ inOrder
        cases rest with
        | ret _ => cases at_
        | call c rest =>
            cases at_
            exact inOrder.1
    | loaded | failed ret | unloaded =>
        rw [phase] at at_
        cases at_
  · intro i member value rest _
    exact (directed (wired.registered i member)).led
  · intro i registered
    exact (directed registered).button i

/-- **GPIOs are configured before they are used**, in every run in which no handler is
registered without directions, nor left when the GPIOs are freed. -/
theorem buttons_configured (file : File) (build : Build) (as : List (Component.Action Action))
    (meets : (driver file build).component.system.Meets
      (Component.On (Load.Answers file build)) [] as) :
    (driver file build).component.system.Always
      (fun s => ∀ l ∈ s, l.Configured (devs file build)) [] as := by
  have both : (driver file build).component.system.Always
      (fun s => ∀ l ∈ s, l.Sound file build ∧ l.Wired file build) [] as := by
    refine Component.always_of_meets (I := fun l => l.Sound file build ∧ l.Wired file build)
      ?_ ?_ meets
    · refine ⟨start_sound file build, .inl rfl, init_inOrder file build, ?_⟩
      intro i member
      cases member
    · rintro l a l' ⟨sound, wired⟩ answers next
      exact ⟨step_sound sound answers.admits next, step_wired sound wired answers next⟩
  exact both.mono fun s all l member => (all l member).2.configured (devs file build)

/-- An interrupt lights the LED, and the exit function puts it out. -/
theorem buttons_configured_lit :
    ((driver .bottomhalf .noRequestArray).component.system.run [] workInTime).map
      (fun s => s.map fun l => l.phase.idle) = some [true] ∧
    (driver .bottomhalf .noRequestArray).component.system.Always
      (fun s => ∀ l ∈ s, l.Configured (devs .bottomhalf .noRequestArray)) [] workInTime :=
  ⟨by decide, buttons_configured .bottomhalf .noRequestArray workInTime (by decide)⟩

/-- A load of intrpt.c without the arrays, and its unload up to the `gpio_set_value`. -/
def undirected : List (Component.Action Action) :=
  [.start, .step 0 (.call 0), .step 0 (.call 0), .step 0 (.call 0), .step 0 (.call 1),
    .step 0 (.call 49), .step 0 (.call 0), .step 0 (.call 49), .step 0 (.call 0),
    .step 0 (.call 50), .step 0 (.call 0), .step 0 (.call 50), .step 0 (.call 0),
    .step 0 (.call 0), .step 0 .unload, .step 0 (.call 49), .step 0 (.call 0),
    .step 0 (.call 50), .step 0 (.call 0)]

/-- No direction has been configured when the LED is set. -/
theorem buttons_undirected :
    ∃ s, (driver .intrpt .noRequestArray).component.system.Reachable s ∧
      ¬ ∀ l ∈ s, l.Configured (devs .intrpt .noRequestArray) := by
  have ends : ((driver .intrpt .noRequestArray).component.system.run [] undirected).map
      (fun s => s.map fun l => (l.phase.next, l.res.held)) =
      some [(some (.gpioSetValue ledGpio 0), [(18, none), (17, none), (4, none)])] := by decide
  obtain ⟨s, ran, same⟩ := Option.map_eq_some_iff.1 ends
  refine ⟨s, ⟨[], undirected, rfl, ran⟩, ?_⟩
  intro configured
  obtain ⟨l, rfl, at_⟩ := List.map_eq_singleton_iff.1 same
  simp only [Prod.mk.injEq] at at_
  obtain ⟨next, held⟩ := at_
  have output := (configured l List.mem_cons_self).exit 0 next
  rw [held] at output
  exact absurd output (by decide)

end Lkmpg.Buttons
