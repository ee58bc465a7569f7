/-
# Lkmpg.Theory.Register -- a register that is written and read at one moment

A call to write the register takes effect at one moment between its call and its
return, or it fails and has none.  A reader gets the value of one moment between its
begin and its report.  A system that refines this one (`Lkmpg.Theory.Traced`) has
linearizable reads and writes.
-/
import Lkmpg.Theory.Traced
import Mathlib.Logic.Function.Basic

namespace Lkmpg.Theory.Register

set_option autoImplicit false

universe u v w

variable {W : Type u} {R : Type v} {V : Type w}

inductive Writing (V : Type w) where
  | idle
  | pending (v : V)
  | done

inductive Reading (V : Type w) where
  | idle
  | pending
  | got (v : V)

structure State (W : Type u) (R : Type v) (V : Type w) where
  value : V
  writing : W → Writing V
  reading : R → Reading V

inductive Act (W : Type u) (R : Type v) (V : Type w) where
  | call (p : W) (v : V)
  /-- The write of `p` takes effect. -/
  | write (p : W)
  | fail (p : W)
  | ret (p : W)
  | begin (r : R)
  /-- The read of `r` takes effect. -/
  | read (r : R)
  | report (r : R)

/-- What the callers and the readers see. -/
inductive Event (W : Type u) (R : Type v) (V : Type w) where
  | called (p : W) (v : V)
  | failed (p : W)
  | returned (p : W)
  | began (r : R)
  | reported (r : R) (v : V)
  deriving DecidableEq

variable [DecidableEq W] [DecidableEq R] (s : State W R V)

def State.setWriting (p : W) (x : Writing V) : State W R V :=
  { s with writing := Function.update s.writing p x }

def State.setReading (r : R) (x : Reading V) : State W R V :=
  { s with reading := Function.update s.reading r x }

section Stays

variable {s}

omit [DecidableEq R] in
theorem setWriting_stay {p : W} {x : Writing V} (same : s.writing p = x) :
    s.setWriting p x = s := by
  rw [State.setWriting, ← same, Function.update_eq_self]

omit [DecidableEq W] in
theorem setReading_stay {r : R} {x : Reading V} (same : s.reading r = x) :
    s.setReading r x = s := by
  rw [State.setReading, ← same, Function.update_eq_self]

end Stays

def step : Act W R V → Option (State W R V)
  | .call p v =>
      match s.writing p with
      | .idle => some (s.setWriting p (.pending v))
      | _ => none
  | .write p =>
      match s.writing p with
      | .pending v => some ({ s with value := v }.setWriting p .done)
      | _ => none
  | .fail p =>
      match s.writing p with
      | .pending _ => some (s.setWriting p .idle)
      | _ => none
  | .ret p =>
      match s.writing p with
      | .done => some (s.setWriting p .idle)
      | _ => none
  | .begin r =>
      match s.reading r with
      | .idle => some (s.setReading r .pending)
      | _ => none
  | .read r =>
      match s.reading r with
      | .pending => some (s.setReading r (.got s.value))
      | _ => none
  | .report r =>
      match s.reading r with
      | .got _ => some (s.setReading r .idle)
      | _ => none

def system (initial : V) : System (State W R V) (Act W R V) where
  Start s := s = ⟨initial, fun _ => .idle, fun _ => .idle⟩
  step := step

omit [DecidableEq W] [DecidableEq R] in
def shown (s : State W R V) (act : Act W R V) (_ : State W R V) : List (Event W R V) :=
  match act with
  | .call p v => [.called p v]
  | .fail p => [.failed p]
  | .ret p => [.returned p]
  | .begin r => [.began r]
  | .report r =>
      match s.reading r with
      | .got v => [.reported r v]
      | _ => []
  | .write _ | .read _ => []

/-! ## The last report of a reader -/

def Event.report (r : R) : Event W R V → Option V
  | .reported r' v => if r' = r then some v else none
  | _ => none

def lastReport (r : R) (es : List (Event W R V)) : Option V := es.reverse.findSome? (Event.report r)

omit [DecidableEq W] in
theorem lastReport_append (r : R) (es es' : List (Event W R V)) :
    lastReport r (es ++ es') = (lastReport r es').or (lastReport r es) := by
  simp [lastReport, List.reverse_append]

omit [DecidableEq W] in
/-- Events without a report leave it. -/
theorem lastReport_silent {r : R} {es' : List (Event W R V)}
    (silent : ∀ e ∈ es', e.report r = none) (es : List (Event W R V)) :
    lastReport r (es ++ es') = lastReport r es := by
  have nothing : lastReport r es' = none := by
    rw [lastReport, List.findSome?_eq_none_iff]
    exact fun e member => silent e (List.mem_reverse.1 member)
  rw [lastReport_append, nothing, Option.none_or]

end Lkmpg.Theory.Register
