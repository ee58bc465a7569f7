/-
# Lkmpg.Vinput.Threads -- concurrent calls of vinput.c

Any number of callers are in `export_store`, `unexport_store` and
`vinput_unregister` at once.  The single steps are the critical sections of
`vinput_lock`, the assignment of `vinput->type`, each visit of a node by the loop of
`vinput_unregister`, and the calls of `input_allocate_device`, `device_register`,
`vinput_register_vdevice`, `vinput_unregister_vdevice` and `device_unregister`.

Run without an interruption a call does what its function does: `export_solo`,
`unexport_solo` and `unregister_solo`.
-/
import Lkmpg.Vinput.Calls
import Lkmpg.Theory.System

namespace Lkmpg.Vinput

open Lkmpg.Kernel Lkmpg.Theory

set_option autoImplicit false
set_option linter.unusedSectionVars false

/-- What a removal goes on with: `unexport_store` returns, and `vinput_unregister`
visits the node it has read before. -/
inductive After (D : Type) where
  | unexport
  | unregister (dev : D) (next : Link)

/-- Where a call is. -/
inductive Pc (D : Type) where
  /-- `export_store` has found the type. -/
  | found (dev : D)
  /-- Before `input_allocate_device`. -/
  | inserted (dev : D) (v : Nat)
  | failInputDev (v : Nat)
  /-- Before `vinput->type = device`. -/
  | allocated (dev : D) (v : Nat)
  /-- Before `device_register`. -/
  | typed (v : Nat)
  | failRegister (v : Nat) (err : Int)
  /-- Before `vinput_register_vdevice`. -/
  | registered (v : Nat)
  | failRegisterVinput (v : Nat) (err : Int)
  /-- Before `vinput_unregister_vdevice`. -/
  | teardown (v : Nat) (after : After D)
  /-- Before `device_unregister`. -/
  | release (v : Nat) (after : After D)
  /-- Stopped at a NULL `vinput->type`. -/
  | oops (v : Nat) (after : After D)
  /-- `vinput_unregister` has taken its type off the list. -/
  | begin (dev : D)
  | visit (dev : D) (curr : Link)

section Threads

variable {D F : Type} [DecidableEq D] [DecidableEq F] (types : D → VinputDevice)

/-- A step ends before another one, or returns. -/
inductive Next (D F : Type) where
  | goto (s : State D F) (pc : Pc D)
  | done (s : State D F) (ret : Option Int)

/-- The memory after a step. -/
def Next.mem : Next D F → State D F
  | .goto s _ => s
  | .done s _ => s

/-- One step of a call that was made with `len` bytes.  Of the answers it uses those
it asks for. -/
def pcStep (o : Answers) (len : Nat) (s : State D F) : Pc D → Option (Next D F)
  | .found dev =>
      if !o.kzalloc then some (.done s (some (-ENOMEM)))
      else
        match takeId s.kzalloc s.vinputs.next with
        | (s, .error err) => some (.done s (some err))
        | (s, .ok v) => some (.goto s (.inserted dev v))
  | .inserted dev v =>
      if !o.inputAllocateDevice then some (.goto s (.failInputDev v))
      else some (.goto (s.inputAllocateDevice v) (.allocated dev v))
  | .failInputDev v => some (.done (failInputDev s v) (some (-ENOMEM)))
  | .allocated dev v => some (.goto (s.modify v fun x => { x with type := some dev }) (.typed v))
  | .typed v =>
      if o.deviceRegister < 0 then some (.goto s (.failRegister v o.deviceRegister))
      else some (.goto s (.registered v))
  | .failRegister v err => some (.done (failRegister s v) (some err))
  | .registered v =>
      if o.init < 0 then some (.goto s (.failRegisterVinput v o.init))
      else some (.done s (some len))
  | .failRegisterVinput v err => some (.done (failRegisterVinput s v) (some err))
  | .teardown v after =>
      match vinputUnregisterVdevice types s v with
      | some s => some (.goto s (.release v after))
      | none => some (.goto (s.inputUnregisterDevice v) (.oops v after))
  | .release v .unexport => some (.done (deviceUnregister s v) (some len))
  | .release v (.unregister dev next) => some (.goto (deviceUnregister s v) (.visit dev next))
  | .oops _ _ => none
  | .begin dev => some (.goto s (.visit dev (firstLink s.vinputVdevices)))
  | .visit _ .head => some (.done s none)
  | .visit dev (.node v) =>
      let next := nextLink s.vinputVdevices v
      if (s.vinput v).type = some dev then some (.goto s (.teardown v (.unregister dev next)))
      else some (.goto s (.visit dev next))
  | .visit _ .poison => none

/-! ## One call alone -/

/-- A call runs until it returns, in at most `fuel` steps. -/
def finish (o : Answers) (len : Nat) : (fuel : Nat) → State D F → Pc D →
    Option (State D F × Option Int)
  | 0, _, _ => none
  | fuel + 1, s, pc =>
      (pcStep types o len s pc).bind fun
        | .done s ret => some (s, ret)
        | .goto s pc => finish o len fuel s pc

variable {types}

theorem export_solo {s : State D F} {buf : List UInt8} {dev : D} (o : Answers)
    (type : vinputGetDeviceByType types s buf = .ok dev) :
    ∃ n, finish types o buf.length n s (.found dev) =
      some ((exportStore types s buf o).1, some (exportStore types s buf o).2) := by
  refine ⟨6, ?_⟩
  simp only [exportStore, type, vinputAllocVdevice, finish, pcStep]
  cases memory : o.kzalloc with
  | false => rfl
  | true =>
      simp only [Bool.not_true, Bool.false_eq_true, if_false]
      rcases takeId s.kzalloc s.vinputs.next with ⟨s', err | v⟩
      · rfl
      · simp only [Option.bind_some]
        cases o.inputAllocateDevice with
        | false => rfl
        | true =>
            simp only [Bool.not_true, Bool.false_eq_true, if_false, Option.bind_some]
            by_cases register : o.deviceRegister < 0
            · simp [register]
            · by_cases init : o.init < 0
              · simp [register, init]
              · simp [register, init]

theorem unexport_solo {s t : State D F} {buf : List UInt8} {v : Nat} {ret : Int} (o : Answers)
    (found : unexportFind s buf = .ok v) (returned : unexportStore types s buf = some (t, ret)) :
    ∃ n, finish types o buf.length n s (.teardown v .unexport) = some (t, some ret) := by
  refine ⟨2, ?_⟩
  simp only [unexportStore, found, Option.map_eq_some_iff] at returned
  obtain ⟨u, unregistered, done⟩ := returned
  cases done
  simp [finish, pcStep, unregistered]

theorem loop_solo {dev : D} (o : Answers) (len : Nat) (fuel : Nat) :
    ∀ (curr : Link) (s t : State D F), unregisterLoop types dev fuel curr s = some t →
      ∃ n, finish types o len n s (.visit dev curr) = some (t, none) := by
  induction fuel with
  | zero =>
      intro curr s t ran
      cases curr with
      | head =>
          cases ran
          exact ⟨1, rfl⟩
      | node v => cases ran
      | poison => cases ran
  | succ fuel ih =>
      intro curr s t ran
      cases curr with
      | head =>
          cases ran
          exact ⟨1, rfl⟩
      | node v =>
          simp only [unregisterLoop] at ran
          split at ran
          · rename_i type
            obtain ⟨u, unregistered, rest⟩ := Option.bind_eq_some_iff.1 ran
            obtain ⟨n, finished⟩ := ih _ _ _ rest
            exact ⟨n + 3, by simp [finish, pcStep, type, unregistered, finished]⟩
          · rename_i type
            obtain ⟨n, finished⟩ := ih _ _ _ ran
            exact ⟨n + 1, by simp [finish, pcStep, type, finished]⟩
      | poison => cases ran

theorem unregister_solo {s t : State D F} {dev : D} (o : Answers) (len : Nat)
    (returned : vinputUnregister types s dev = some t) :
    ∃ n, finish types o len n (removeType s dev) (.begin dev) = some (t, none) := by
  obtain ⟨n, finished⟩ := loop_solo o len _ _ _ _ returned
  exact ⟨n + 1, finished⟩

/-! ## The interleaving -/

variable (P : Type)

structure Threads (D F : Type) where
  mem : State D F
  /-- The calls in progress, each with the length it was made with. -/
  call : P → Option (Nat × Pc D)
  /-- What the last call of each caller returned. -/
  ret : P → Option Int

inductive Act (D : Type) where
  | vinputRegister (dev : D)
  | exportStore (p : P) (buf : List UInt8)
  | unexportStore (p : P) (buf : List UInt8)
  | vinputUnregister (p : P) (dev : D)
  | run (p : P) (o : Answers)

variable {P} [DecidableEq P]

namespace Threads

def begin (t : Threads P D F) (p : P) (mem : State D F) (len : Nat) (pc : Pc D) :
    Threads P D F :=
  { t with mem := mem, call := Function.update t.call p (some (len, pc)) }

def done (t : Threads P D F) (p : P) (mem : State D F) (ret : Option Int) : Threads P D F where
  mem := mem
  call := Function.update t.call p none
  ret := Function.update t.ret p ret

/-- What a step of a call made with `len` bytes leads to. -/
def advance (t : Threads P D F) (p : P) (len : Nat) : Next D F → Threads P D F
  | .goto mem pc => t.begin p mem len pc
  | .done mem ret => t.done p mem ret

def init : Threads P D F := ⟨.init, fun _ => none, fun _ => none⟩

theorem advance_mem (t : Threads P D F) (p : P) (len : Nat) (next : Next D F) :
    (t.advance p len next).mem = next.mem := by
  cases next <;> rfl

theorem advance_other (t : Threads P D F) {p q : P} (other : q ≠ p) (len : Nat)
    (next : Next D F) : (t.advance p len next).call q = t.call q := by
  cases next with
  | goto mem pc => exact Function.update_of_ne other _ _
  | done mem ret => exact Function.update_of_ne other _ _

theorem advance_goto (t : Threads P D F) (p : P) (len : Nat) (mem : State D F) (pc : Pc D) :
    (t.advance p len (.goto mem pc)).call p = some (len, pc) :=
  Function.update_self _ _ _

theorem advance_done (t : Threads P D F) (p : P) (len : Nat) (mem : State D F)
    (ret : Option Int) : (t.advance p len (.done mem ret)).call p = none :=
  Function.update_self _ _ _

end Threads

variable (types)

/-- A caller is in one call at a time.  A module registers its type once, and
unregisters it when it is registered. -/
def threadStep (t : Threads P D F) : Act P D → Option (Threads P D F)
  | .vinputRegister dev =>
      if dev ∈ t.mem.vinputDevices then none else some { t with mem := vinputRegister t.mem dev }
  | .exportStore p buf =>
      if (t.call p).isSome then none
      else
        match vinputGetDeviceByType types t.mem buf with
        | .error err => some (t.done p t.mem (some err))
        | .ok dev => some (t.begin p t.mem buf.length (.found dev))
  | .unexportStore p buf =>
      if (t.call p).isSome then none
      else
        match unexportFind t.mem buf with
        | .error err => some (t.done p t.mem (some err))
        | .ok v => some (t.begin p t.mem buf.length (.teardown v .unexport))
  | .vinputUnregister p dev =>
      if (t.call p).isSome ∨ dev ∉ t.mem.vinputDevices then none
      else some (t.begin p (removeType t.mem dev) 0 (.begin dev))
  | .run p o =>
      (t.call p).bind fun c => (pcStep types o c.1 t.mem c.2).map (t.advance p c.1)

def threads : System (Threads P D F) (Act P D) where
  Start t := t = .init
  step := threadStep types

end Threads

end Lkmpg.Vinput
