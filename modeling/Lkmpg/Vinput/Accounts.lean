/-
# Lkmpg.Vinput.Accounts -- what is in order while calls are in progress

`Wf` is an invariant between calls.  While calls are in progress `Accounts` takes its
place: each device on the list is a live `vinput` with an id of its own, and each has
an input device but those that a call has not yet given one, or has already taken it
from (`Permitted`).

A step of a call moves it (`frame`), puts a device on the list (`inserted`), gives the
one in hand an input device or takes it (`exchanged`), or frees the one in hand
(`freed`).
-/
import Lkmpg.Vinput.Teardown

namespace Lkmpg.Vinput

open Lkmpg.Kernel Lkmpg.Theory

set_option autoImplicit false
set_option linter.unusedSectionVars false

variable {P D F : Type} [DecidableEq P] [DecidableEq D] [DecidableEq F]
variable {types : D → VinputDevice}

/-- The `vinput` in the hands of the call has its input device. -/
def Pc.hasInput : Pc D → Bool
  | .inserted _ _ | .failInputDev _ | .release _ _ | .oops _ _ => false
  | _ => true

/-- The `vinput` in the hands of the call has its type. -/
def Pc.hasType : Pc D → Bool
  | .inserted _ _ | .failInputDev _ | .allocated _ _ => false
  | _ => true

/-- A caller that has `v` in hand is at a place of `f`. -/
def permits (f : Pc D → Bool) (v : Nat) : Option (Nat × Pc D) → Prop
  | none => True
  | some (_, pc) => ∀ b, pc.custody = some (v, b) → f pc = true

/-- `v` is on the list, and all callers permit it. -/
def Permitted (t : Threads P D F) (f : Pc D → Bool) (v : Nat) : Prop :=
  v ∈ t.mem.vinputVdevices ∧ ∀ q, permits f v (t.call q)

structure Accounts (t : Threads P D F) : Prop where
  sound : Custody.Sound (custody t)
  vinputs : Owns t.mem.vinputs t.mem.vinputVdevices some
  minor : ∀ v ∈ t.mem.vinputVdevices, (t.mem.vinput v).id < VINPUT_MINORS
  taken : ∀ v ∈ t.mem.vinputVdevices, t.mem.vinputIds (t.mem.vinput v).id = true
  apart : ∀ v ∈ t.mem.vinputVdevices, ∀ w ∈ t.mem.vinputVdevices,
    (t.mem.vinput v).id = (t.mem.vinput w).id → v = w
  inputs : ∃ owners : List Nat, owners.Nodup ∧ (∀ v, v ∈ owners ↔ Permitted t Pc.hasInput v) ∧
    Owns t.mem.inputs owners fun v => (t.mem.vinput v).input
  typed : ∀ v, Permitted t Pc.hasType v → (t.mem.vinput v).type.isSome
  /-- Nobody is stopped at a NULL `vinput->type`. -/
  going : ∀ p len v after, t.call p ≠ some (len, .oops v after)

/-! ## Who is granted what -/

section Permitted

variable {t u : Threads P D F} {p : P} {len : Nat} {pc : Pc D} {v : Nat} {b : Bool}
variable {f : Pc D → Bool}

theorem permits_other (other : ∀ b, pc.custody ≠ some (v, b)) : permits f v (some (len, pc)) :=
  fun b holds => absurd holds (other b)

theorem permits_here (here : f pc = true) : permits f v (some (len, pc)) :=
  fun _ _ => here

/-- Of the device in the hands of a call its place decides. -/
theorem permitted_own (sound : Custody.Sound (custody t)) (found : t.call p = some (len, pc))
    (holds : pc.custody = some (v, b)) : Permitted t f v ↔ f pc = true := by
  have held : (custody t).holder p = some (v, b) := (custody_holder found).trans holds
  constructor
  · rintro ⟨-, all⟩
    have here := all p
    rw [found] at here
    exact here b holds
  · intro here
    refine ⟨sound.there p v b held, ?_⟩
    intro q
    cases foundQ : t.call q with
    | none => trivial
    | some c =>
        intro c' holdsQ
        have heldQ : (custody t).holder q = some (v, c') := (custody_holder foundQ).trans holdsQ
        obtain rfl := sound.unique q p v c' b heldQ held
        rw [found] at foundQ
        cases foundQ
        exact here

/-- A step of one call changes only what that call permits. -/
theorem permitted_congr (others : ∀ q, q ≠ p → u.call q = t.call q)
    (list : v ∈ u.mem.vinputVdevices ↔ v ∈ t.mem.vinputVdevices)
    (same : permits f v (u.call p) ↔ permits f v (t.call p)) :
    Permitted u f v ↔ Permitted t f v := by
  refine and_congr list (forall_congr' ?_)
  intro q
  by_cases here : q = p
  · rw [here]
    exact same
  · rw [others q here]

end Permitted

/-! ## What a step does to the accounts -/

namespace Accounts

variable {t u : Threads P D F} {p : P}

theorem start : Accounts (Threads.init : Threads P D F) where
  sound := .start
  vinputs := .nil
  minor := by simp [Threads.init, State.init]
  taken := by simp [Threads.init, State.init]
  apart := by simp [Threads.init, State.init]
  inputs := by
    refine ⟨[], List.nodup_nil, ?_, .nil⟩
    simp [Permitted, Threads.init, State.init]
  typed v granted := by cases granted.1
  going p len v after := by simp [Threads.init]

/-- A step that neither creates nor removes anything. -/
theorem frame (accounts : Accounts t) (sound : Custody.Sound (custody u))
    (others : ∀ q, q ≠ p → u.call q = t.call q)
    (list : u.mem.vinputVdevices = t.mem.vinputVdevices)
    (vinputs : u.mem.vinputs = t.mem.vinputs ∨ u.mem.vinputs = t.mem.vinputs.spend)
    (inputs : u.mem.inputs = t.mem.inputs) (ids : u.mem.vinputIds = t.mem.vinputIds)
    (same : ∀ v ∈ t.mem.vinputVdevices, (u.mem.vinput v).id = (t.mem.vinput v).id ∧
      (u.mem.vinput v).input = (t.mem.vinput v).input)
    (permitted : ∀ v, permits Pc.hasInput v (u.call p) ↔ permits Pc.hasInput v (t.call p))
    (typed : ∀ v, Permitted u Pc.hasType v → (u.mem.vinput v).type.isSome)
    (going : ∀ len v after, u.call p ≠ some (len, .oops v after)) : Accounts u where
  sound := sound
  vinputs := by
    rw [list]
    rcases vinputs with eq | eq <;> rw [eq]
    · exact accounts.vinputs
    · exact accounts.vinputs.spend
  minor v member := by
    rw [list] at member
    rw [(same v member).1]
    exact accounts.minor v member
  taken v member := by
    rw [list] at member
    rw [(same v member).1, ids]
    exact accounts.taken v member
  apart v memberV w memberW eq := by
    rw [list] at memberV memberW
    rw [(same v memberV).1, (same w memberW).1] at eq
    exact accounts.apart v memberV w memberW eq
  inputs := by
    obtain ⟨owners, nodup, granted, owns⟩ := accounts.inputs
    refine ⟨owners, nodup, ?_, ?_⟩
    · intro v
      rw [granted v]
      exact (permitted_congr others (by rw [list]) (permitted v)).symm
    · rw [inputs]
      exact owns.congr fun v member => (same v ((granted v).1 member).1).2
  typed := typed
  going q len v after := by
    by_cases here : q = p
    · rw [here]
      exact going len v after
    · rw [others q here]
      exact accounts.going q len v after

/-- A device that is put on the list is permitted nothing; the others are as they were. -/
theorem inserted_permitted (accounts : Accounts t) {len : Nat} {dev : D} {v : Nat}
    {f : Pc D → Bool} (sound : Custody.Sound (custody u)) (before : permits f v (t.call p))
    (others : ∀ q, q ≠ p → u.call q = t.call q)
    (after : u.call p = some (len, .inserted dev t.mem.vinputs.next))
    (list : u.mem.vinputVdevices = t.mem.vinputs.next :: t.mem.vinputVdevices)
    (here : f (.inserted dev t.mem.vinputs.next) = false) :
    Permitted u f v ↔ Permitted t f v := by
  by_cases new : v = t.mem.vinputs.next
  · subst new
    have none : ¬ Permitted u f t.mem.vinputs.next := by
      rw [permitted_own (f := f) sound after rfl, here]
      exact Bool.false_ne_true
    exact iff_of_false none fun granted => accounts.sound.next_not_mem granted.1
  · refine permitted_congr others (by rw [list, List.mem_cons, or_iff_right new]) ?_
    rw [after]
    refine iff_of_true (permits_other ?_) before
    intro b holds
    cases holds
    exact new rfl

/-- The critical section of `vinput_alloc_vdevice` puts a device on the list, with no
input device yet. -/
theorem inserted (accounts : Accounts t) {len : Nat} {dev : D}
    (sound : Custody.Sound (custody u)) (before : ∀ f v, permits f v (t.call p))
    (others : ∀ q, q ≠ p → u.call q = t.call q)
    (after : u.call p = some (len, .inserted dev t.mem.vinputs.next))
    (id : nextId t.mem < VINPUT_MINORS) (vinputs : u.mem.vinputs = t.mem.vinputs.alloc)
    (list : u.mem.vinputVdevices = t.mem.vinputs.next :: t.mem.vinputVdevices)
    (inputs : u.mem.inputs = t.mem.inputs)
    (ids : u.mem.vinputIds = Function.update t.mem.vinputIds (nextId t.mem) true)
    (fresh : (u.mem.vinput t.mem.vinputs.next).id = nextId t.mem)
    (same : ∀ v, v ≠ t.mem.vinputs.next → u.mem.vinput v = t.mem.vinput v) : Accounts u := by
  have clear : t.mem.vinputIds (nextId t.mem) = false := findFirstZeroBit_clear id
  have absent : t.mem.vinputs.next ∉ t.mem.vinputVdevices := accounts.sound.next_not_mem
  have old : ∀ v ∈ t.mem.vinputVdevices, u.mem.vinput v = t.mem.vinput v := by
    intro v member
    refine same v ?_
    rintro rfl
    exact absent member
  have idle : ∀ v ∈ t.mem.vinputVdevices, (t.mem.vinput v).id ≠ nextId t.mem := by
    intro v member eq
    have taken := accounts.taken v member
    rw [eq, clear] at taken
    cases taken
  have granted : ∀ f v, f (.inserted dev t.mem.vinputs.next) = false →
      (Permitted u f v ↔ Permitted t f v) := fun f v =>
    accounts.inserted_permitted sound (before f v) others after list
  constructor
  · exact sound
  · rw [vinputs, list]
    exact accounts.vinputs.cons rfl
  · intro v member
    rcases List.mem_cons.1 (list ▸ member) with rfl | member
    · rwa [fresh]
    · rw [old v member]
      exact accounts.minor v member
  · intro v member
    rcases List.mem_cons.1 (list ▸ member) with rfl | member
    · rw [fresh, ids, Function.update_self]
    · rw [old v member, ids, Function.update_of_ne (idle v member)]
      exact accounts.taken v member
  · intro v memberV w memberW eq
    rcases List.mem_cons.1 (list ▸ memberV) with rfl | memberV <;>
      rcases List.mem_cons.1 (list ▸ memberW) with rfl | memberW
    · rfl
    · rw [fresh, old w memberW] at eq
      exact absurd eq.symm (idle w memberW)
    · rw [fresh, old v memberV] at eq
      exact absurd eq (idle v memberV)
    · rw [old v memberV, old w memberW] at eq
      exact accounts.apart v memberV w memberW eq
  · obtain ⟨owners, nodup, own, owns⟩ := accounts.inputs
    refine ⟨owners, nodup, fun v => (own v).trans (granted _ v rfl).symm, ?_⟩
    rw [inputs]
    refine owns.congr ?_
    intro v member
    show (u.mem.vinput v).input = _
    rw [old v ((own v).1 member).1]
  · intro v here
    have before := (granted _ v rfl).1 here
    rw [old v before.1]
    exact accounts.typed v before
  · intro q len' v after' found
    by_cases here : q = p
    · rw [here, after] at found
      cases found
    · exact accounts.going q len' v after' (by rw [← others q here, found])

/-- The device in hand gets its input device, or gives it up. -/
theorem exchanged (accounts : Accounts t) {len : Nat} {pc pc' : Pc D} {v : Nat} {b b' : Bool}
    (sound : Custody.Sound (custody u)) (found : t.call p = some (len, pc))
    (holds : pc.custody = some (v, b)) (others : ∀ q, q ≠ p → u.call q = t.call q)
    (after : u.call p = some (len, pc')) (keeps : pc'.custody = some (v, b'))
    (list : u.mem.vinputVdevices = t.mem.vinputVdevices) (vinputs : u.mem.vinputs = t.mem.vinputs)
    (ids : u.mem.vinputIds = t.mem.vinputIds)
    (same : ∀ w, (u.mem.vinput w).id = (t.mem.vinput w).id ∧
      (u.mem.vinput w).type = (t.mem.vinput w).type)
    (typed : pc'.hasType = pc.hasType) (going : ∀ v after, pc' ≠ .oops v after)
    (inputs : ∀ owners : List Nat, owners.Nodup → (∀ w, w ∈ owners ↔ Permitted t Pc.hasInput w) →
      Owns t.mem.inputs owners (fun w => (t.mem.vinput w).input) →
      ∃ owners' : List Nat, owners'.Nodup ∧
        (∀ w, w ∈ owners' ↔ (w = v ∧ pc'.hasInput = true) ∨ (w ≠ v ∧ w ∈ owners)) ∧
        Owns u.mem.inputs owners' fun w => (u.mem.vinput w).input) : Accounts u := by
  have there : v ∈ t.mem.vinputVdevices :=
    accounts.sound.there p v b ((custody_holder found).trans holds)
  have other : ∀ f w, w ≠ v → (Permitted u f w ↔ Permitted t f w) := by
    intro f w ne
    refine permitted_congr others (by rw [list]) ?_
    rw [found, after]
    refine iff_of_true (permits_other ?_) (permits_other ?_)
    · intro c has
      rw [keeps] at has
      cases has
      exact ne rfl
    · intro c has
      rw [holds] at has
      cases has
      exact ne rfl
  constructor
  · exact sound
  · rw [vinputs, list]
    exact accounts.vinputs
  · intro w member
    rw [(same w).1]
    exact accounts.minor w (list ▸ member)
  · intro w member
    rw [(same w).1, ids]
    exact accounts.taken w (list ▸ member)
  · intro w memberW x memberX eq
    rw [(same w).1, (same x).1] at eq
    exact accounts.apart w (list ▸ memberW) x (list ▸ memberX) eq
  · obtain ⟨owners, nodup, own, owns⟩ := accounts.inputs
    obtain ⟨owners', nodup', own', owns'⟩ := inputs owners nodup own owns
    refine ⟨owners', nodup', ?_, owns'⟩
    intro w
    rw [own' w]
    by_cases here : w = v
    · subst here
      rw [permitted_own sound after keeps]
      simp
    · rw [other _ w here, own w]
      simp [here]
  · intro w granted
    rw [(same w).2]
    refine accounts.typed w ?_
    by_cases here : w = v
    · subst here
      rw [permitted_own sound after keeps, typed] at granted
      exact (permitted_own accounts.sound found holds).2 granted
    · exact (other _ w here).1 granted
  · intro q len' w after' foundQ
    by_cases here : q = p
    · rw [here, after] at foundQ
      cases foundQ
      exact going w after' rfl
    · exact accounts.going q len' w after' (by rw [← others q here, foundQ])

/-- What is permitted of the device in hand is gone with it. -/
theorem freed_permitted {len : Nat} {pc : Pc D} {v : Nat} {b : Bool}
    (found : t.call p = some (len, pc)) (holds : pc.custody = some (v, b))
    (others : ∀ q, q ≠ p → u.call q = t.call q) {f : Pc D → Bool}
    (left : ∀ w, w ∈ u.mem.vinputVdevices ↔ w ≠ v ∧ w ∈ t.mem.vinputVdevices) (w : Nat)
    (after : permits f w (u.call p)) : Permitted u f w ↔ w ≠ v ∧ Permitted t f w := by
  by_cases here : w = v
  · subst here
    simp [Permitted, left]
  · have same : Permitted u f w ↔ Permitted t f w := by
      refine permitted_congr others (by simp [left, here]) ?_
      rw [found]
      refine iff_of_true after (permits_other ?_)
      intro c has
      rw [holds] at has
      cases has
      exact here rfl
    simp [same, here]

/-- The device in hand is freed. -/
theorem freed (accounts : Accounts t) {len : Nat} {pc : Pc D} {v : Nat} {b : Bool}
    (sound : Custody.Sound (custody u)) (found : t.call p = some (len, pc))
    (holds : pc.custody = some (v, b)) (others : ∀ q, q ≠ p → u.call q = t.call q)
    (after : ∀ f w, permits f w (u.call p))
    (going : ∀ len v after, u.call p ≠ some (len, .oops v after))
    (list : u.mem.vinputVdevices = t.mem.vinputVdevices.erase v)
    (vinputs : u.mem.vinputs = t.mem.vinputs.release v)
    (ids : u.mem.vinputIds = t.mem.vinputIds ∨
      u.mem.vinputIds = Function.update t.mem.vinputIds (t.mem.vinput v).id false)
    (vinput : u.mem.vinput = t.mem.vinput)
    (inputs : (pc.hasInput = false ∧ u.mem.inputs = t.mem.inputs) ∨ (pc.hasInput = true ∧
      ∀ i, (t.mem.vinput v).input = some i → u.mem.inputs = t.mem.inputs.release i)) :
    Accounts u := by
  have there : v ∈ t.mem.vinputVdevices :=
    accounts.sound.there p v b ((custody_holder found).trans holds)
  have left : ∀ w, w ∈ u.mem.vinputVdevices ↔ w ≠ v ∧ w ∈ t.mem.vinputVdevices := by
    intro w
    rw [list]
    exact accounts.sound.nodup.mem_erase_iff
  have granted : ∀ f w, Permitted u f w ↔ w ≠ v ∧ Permitted t f w :=
    fun f w => freed_permitted found holds others left w (after f w)
  constructor
  · exact sound
  · rw [vinputs, list]
    exact accounts.vinputs.erase accounts.sound.nodup there rfl
  · intro w member
    rw [vinput]
    exact accounts.minor w ((left w).1 member).2
  · intro w member
    obtain ⟨ne, old⟩ := (left w).1 member
    rw [vinput]
    rcases ids with eq | eq <;> rw [eq]
    · exact accounts.taken w old
    · rw [Function.update_of_ne fun same => ne (accounts.apart w old v there same)]
      exact accounts.taken w old
  · intro w memberW x memberX eq
    rw [vinput] at eq
    exact accounts.apart w ((left w).1 memberW).2 x ((left x).1 memberX).2 eq
  · obtain ⟨owners, nodup, own, owns⟩ := accounts.inputs
    have mine : v ∈ owners ↔ pc.hasInput = true := by
      rw [own v, permitted_own accounts.sound found holds]
    rw [vinput]
    rcases inputs with ⟨without, eq⟩ | ⟨has, eq⟩
    · refine ⟨owners, nodup, ?_, by rw [eq]; exact owns⟩
      intro w
      rw [granted, ← own w]
      refine ⟨fun member => ⟨?_, member⟩, fun both => both.2⟩
      rintro rfl
      rw [mine.1 member] at without
      cases without
    · obtain ⟨i, input, -⟩ := owns.live v (mine.2 has)
      rw [eq i input]
      refine ⟨owners.erase v, nodup.erase v, ?_, owns.erase nodup (mine.2 has) input⟩
      intro w
      rw [granted, ← own w, nodup.mem_erase_iff]
  · intro w here
    rw [vinput]
    exact accounts.typed w ((granted _ w).1 here).2
  · intro q len' w after' foundQ
    by_cases here : q = p
    · exact going len' w after' (here ▸ foundQ)
    · exact accounts.going q len' w after' (by rw [← others q here, foundQ])

end Accounts

end Lkmpg.Vinput
