/-
# Lkmpg.Sleep.Sessions -- when a session of /proc/sleep reads the whole message

`module_output` marks the end of the file in a static variable, which outlives the
session that set it.  A session left without its empty read leaves the mark to the
next one, and a first read that is too short leaves nothing but the mark.
`sleep_sessions_iff`: along a run the sessions read the whole message exactly when
neither happens to one that reads its end.
-/
import Lkmpg.Sleep.Open
import Lkmpg.Theory.Chunks
import Mathlib.Data.List.TakeDrop
import Mathlib.Data.List.TakeWhile

namespace Lkmpg.Sleep

open Lkmpg.Kernel Lkmpg.Theory

set_option autoImplicit false

/-- `Last input:`, the stored message and a newline. -/
def lastInput (stored : List UInt8) : List UInt8 :=
  text "Last input:" ++ stored ++ text "\n"

/-! ## The history of a session -/

/-- The session of a process since its last successful `module_open`. -/
structure Session where
  /-- The message, as the session found it or has written it. -/
  stored : List UInt8
  /-- The lengths its reads asked for, and what they delivered, oldest first. -/
  asked : List Nat
  reads : List (List UInt8)
  /-- No write after a read, and no read of length 0. -/
  counts : Bool
  deriving DecidableEq

namespace Session

def new (stored : List UInt8) : Session := ⟨stored, [], [], true⟩

def output (x : Session) (d : Data) (len : Nat) : Session where
  stored := x.stored
  asked := x.asked ++ [len]
  reads := x.reads ++ [(moduleOutput d len).2]
  counts := x.counts && decide (0 < len)

def input (x : Session) (d : Data) (buf : List UInt8) : Session where
  stored := cstr (moduleInput d buf).1.message
  asked := x.asked
  reads := x.reads
  counts := x.counts && x.asked.isEmpty

end Session

variable (P : Type)

/-- The driver with the sessions of its processes. -/
structure Logged where
  now : State P
  session : P → Session

variable {P}

/-- The session of the process that takes the step `a` from `s` to `t`. -/
def log (s t : State P) (x : Session) : Action P → Session
  | .moduleOutput _ len => x.output s.data len
  | .moduleInput _ buf => x.input s.data buf
  | a =>
      if (s.pc a.who).holds = false ∧ (t.pc a.who).holds = true then .new (cstr t.data.message)
      else x

section

variable [DecidableEq P]

def loggedStep (s : Logged P) (a : Action P) : Option (Logged P) :=
  (step s.now a).map fun t =>
    ⟨t, Function.update s.session a.who (log s.now t (s.session a.who) a)⟩

def Logged.init : Logged P := ⟨start, fun _ => .new []⟩

def logged (P : Type) [DecidableEq P] : System (Logged P) (Action P) where
  Start s := s = .init
  step := loggedStep

end

/-! ## What a session is promised -/

/-- What the reads up to the first empty one delivered is the whole text. -/
def Session.Whole (x : Session) : Prop :=
  x.counts = true → ∀ pre post, x.reads = pre ++ [] :: post → [] ∉ pre →
    pre.flatten = lastInput x.stored

def SessionsWhole (s : Logged P) : Prop :=
  ∀ p, (s.session p).Whole

/-- The first read of a session finds `finished` clear, and before a second one it
asked for the whole text. -/
def ReadsInTime (s : Logged P) : Action P → Prop
  | .moduleOutput p len =>
      (s.session p).counts = true → 0 < len →
        match (s.session p).asked with
        | [] => s.now.data.finished = false
        | [first] => (lastInput (s.session p).stored).length ≤ first
        | _ => True
  | _ => True

/-! ## What one read delivers -/

theorem copyOut_eq_take {bs : List UInt8} (nonzero : ∀ b ∈ bs, b ≠ 0) :
    ∀ len, copyOut bs len = bs.take len := by
  induction bs with
  | nil => intro len; simp [copyOut]
  | cons b bs ih =>
      intro len
      cases len with
      | zero => rfl
      | succ len =>
          rw [copyOut, if_neg (nonzero b List.mem_cons_self), List.take_succ_cons,
            ih fun c member => nonzero c (List.mem_cons_of_mem b member)]

theorem lastInput_ne_zero {stored : List UInt8} (nonzero : ∀ b ∈ stored, b ≠ 0) :
    ∀ b ∈ lastInput stored, b ≠ 0 := by
  have front : ∀ b ∈ text "Last input:", b ≠ 0 := ne_zero_of_all (by decide)
  have back : ∀ b ∈ text "\n", b ≠ 0 := ne_zero_of_all (by decide)
  intro b member
  simp only [lastInput, List.mem_append] at member
  rcases member with (inFront | inStored) | inBack
  · exact front b inFront
  · exact nonzero b inStored
  · exact back b inBack

theorem lastInput_ne_nil (stored : List UInt8) : lastInput stored ≠ [] := by
  have front : text "Last input:" ≠ [] := by decide
  simp [lastInput, front]

theorem moduleOutput_finished {d : Data} (finished : d.finished = true) (len : Nat) :
    moduleOutput d len = ({ d with finished := false }, []) := by
  rw [moduleOutput, if_pos finished]

theorem moduleOutput_first {d : Data} (first : d.finished = false) (len : Nat) :
    moduleOutput d len =
      ({ d with finished := true }, (lastInput (cstr d.message)).take len) := by
  have nonzero : ∀ b ∈ lastInput (cstr d.message), b ≠ 0 := by
    apply lastInput_ne_zero
    intro b member
    simpa using List.mem_takeWhile_imp member
  rw [moduleOutput, if_neg (by simp [first])]
  exact congrArg _ (copyOut_eq_take nonzero len)

/-! ## The session that has the file -/

/-- How far the reads of a session that counts have come. -/
inductive Place (x : Session) (d : Data) : Prop where
  | unread (asked : x.asked = []) (reads : x.reads = [])
  | once {first : Nat} (positive : 0 < first) (asked : x.asked = [first])
      (reads : x.reads = [(lastInput x.stored).take first]) (finished : d.finished = true)
  /-- The first read was empty. -/
  | missed {first : Nat} (asked : x.asked = [first]) (reads : x.reads = [[]])
  | ended {first second : Nat} {more : List Nat} (asked : x.asked = first :: second :: more)
      (reads : [] ∈ x.reads)

structure Current (x : Session) (d : Data) : Prop where
  stored : x.stored = cstr d.message
  place : x.counts = true → Place x d

theorem Current.new (d : Data) : Current (.new (cstr d.message)) d :=
  ⟨rfl, fun _ => .unread rfl rfl⟩

/-- Before its first read a session has read nothing. -/
theorem Place.reads_nil {x : Session} {d : Data} (place : Place x d) (asked : x.asked = []) :
    x.reads = [] := by
  cases place with
  | unread _ reads => exact reads
  | once _ asked' _ _ => simp [asked] at asked'
  | missed asked' _ => simp [asked] at asked'
  | ended asked' _ => simp [asked] at asked'

theorem Current.input {x : Session} {d : Data} (current : Current x d) (buf : List UInt8) :
    Current (x.input d buf) (moduleInput d buf).1 := by
  refine ⟨rfl, ?_⟩
  intro counts
  simp only [Session.input, Bool.and_eq_true, List.isEmpty_iff] at counts
  exact .unread counts.2 ((current.place counts.1).reads_nil counts.2)

/-- The reads before the first empty one, when the last one is that. -/
theorem whole_snoc_empty {x : Session} {len : Nat} {d : Data} (counts : x.counts = true)
    (positive : 0 < len) (nonempty : [] ∉ x.reads) (finished : d.finished = true) :
    (x.output d len).Whole ↔ x.reads.flatten = lastInput x.stored := by
  simp only [Session.Whole, Session.output, moduleOutput_finished finished, counts, positive,
    decide_true, Bool.and_self, forall_const]
  constructor
  · intro whole
    exact whole x.reads [] rfl nonempty
  · intro whole pre post split _
    rcases Transcript.first_empty split with ⟨post', old⟩ | ⟨-, rfl⟩
    · exact absurd (by simp [old]) nonempty
    · exact whole

/-- **One read.**  Of a session that has read whole messages so far. -/
theorem output_whole {x : Session} {d : Data} {len : Nat} (current : Current x d)
    (whole : x.Whole) : (x.output d len).Whole ↔ (x.counts = true → 0 < len →
      match x.asked with
      | [] => d.finished = false
      | [first] => (lastInput x.stored).length ≤ first
      | _ => True) := by
  by_cases counting : x.counts = true ∧ 0 < len
  · obtain ⟨counts, positive⟩ := counting
    simp only [counts, positive, forall_const]
    cases current.place counts with
    | unread asked reads =>
        rw [asked]
        cases finished : d.finished with
        | true =>
            rw [whole_snoc_empty counts positive (by simp [reads]) finished, reads]
            exact iff_of_false (fun same => lastInput_ne_nil _ same.symm) (by simp)
        | false =>
            refine iff_of_true ?_ rfl
            intro _ pre post split _
            simp only [Session.output, reads, moduleOutput_first finished, List.nil_append] at split
            have member : [] ∈ pre ++ [] :: post := by simp
            rw [← split, List.mem_singleton] at member
            have nonempty := lastInput_ne_nil (cstr d.message)
            rcases List.take_eq_nil_iff.1 member.symm with zero | empty
            · omega
            · exact absurd empty nonempty
    | once firstPositive asked reads finished =>
        have nonempty : [] ∉ x.reads := by
          rw [reads, List.mem_singleton]
          intro empty
          rcases List.take_eq_nil_iff.1 empty.symm with zero | nil
          · omega
          · exact lastInput_ne_nil _ nil
        rw [whole_snoc_empty counts positive nonempty finished, asked, reads]
        simp
    | missed asked reads =>
        have read := whole counts [] [] (by simp [reads]) (by simp)
        exact absurd read.symm (lastInput_ne_nil _)
    | ended asked reads =>
        rw [asked]
        refine iff_of_true ?_ trivial
        intro _ pre post split first
        rcases Transcript.first_empty split with ⟨post', old⟩ | ⟨-, same⟩
        · exact whole counts pre post' old first
        · exact absurd (same ▸ reads) first
  · refine iff_of_true ?_ fun counts positive => absurd ⟨counts, positive⟩ counting
    intro counts
    simp only [Session.output, Bool.and_eq_true, decide_eq_true_eq] at counts
    exact absurd counts counting

theorem Current.output {x : Session} {d : Data} (current : Current x d) (len : Nat) :
    Current (x.output d len) (moduleOutput d len).1 := by
  have message : (moduleOutput d len).1.message = d.message := by
    unfold moduleOutput
    split <;> rfl
  refine ⟨by rw [message]; exact current.stored, ?_⟩
  intro counting
  simp only [Session.output, Bool.and_eq_true, decide_eq_true_eq] at counting
  obtain ⟨counts, positive⟩ := counting
  cases current.place counts with
  | unread asked reads =>
      cases finished : d.finished with
      | true =>
          have only : (x.output d len).asked = [len] := by simp [Session.output, asked]
          refine .missed only ?_
          simp [Session.output, reads, moduleOutput_finished finished]
      | false =>
          refine .once positive (by simp [Session.output, asked]) ?_ ?_
          · simp [Session.output, reads, moduleOutput_first finished, current.stored]
          · rw [moduleOutput_first finished]
  | once firstPositive asked reads finished =>
      refine .ended (congrArg (· ++ [len]) asked) ?_
      simp [Session.output, moduleOutput_finished finished]
  | missed asked reads =>
      exact .ended (congrArg (· ++ [len]) asked)
        (by simp [Session.output, reads])
  | ended asked reads =>
      exact .ended (congrArg (· ++ [len]) asked)
        (by simp [Session.output, reads])

/-! ## The sessions of a run -/

section

variable [DecidableEq P]

/-- Outside `module_output` and `module_input` the data stay as they are. -/
theorem step_data {s t : State P} {a : Action P} (next : step s a = some t)
    (other : ∀ len, a ≠ .moduleOutput a.who len) (other' : ∀ buf, a ≠ .moduleInput a.who buf) :
    t.data = s.data := by
  cases a with
  | moduleOutput p len => exact absurd rfl (other len)
  | moduleInput p buf => exact absurd rfl (other' buf)
  | run p =>
      simp only [step, runStep] at next
      split at next <;> (try split at next) <;> cases next <;> simp [State.take]
  | _ =>
      simp only [step] at next
      split at next <;> cases next <;> simp

omit [DecidableEq P] in
/-- A step that is no read and no write starts a session, or leaves it alone. -/
theorem log_other (s t : State P) (x : Session) {a : Action P}
    (other : ∀ len, a ≠ .moduleOutput a.who len) (other' : ∀ buf, a ≠ .moduleInput a.who buf) :
    log s t x a =
      if (s.pc a.who).holds = false ∧ (t.pc a.who).holds = true then .new (cstr t.data.message)
      else x := by
  cases a with
  | moduleOutput p len => exact absurd rfl (other len)
  | moduleInput p buf => exact absurd rfl (other' buf)
  | _ => rfl

/-- The session of the process with the file open is current. -/
structure Logs (s : Logged P) : Prop where
  reached : (system P).Reachable s.now
  current : ∀ p, (s.now.pc p).holds = true → Current (s.session p) s.now.data

theorem logs_init : Logs (Logged.init : Logged P) where
  reached := .start rfl
  current p holds := by cases holds

/-- Who works on the data has the file, so nobody else has. -/
theorem step_other {s t : State P} {a : Action P} (reached : (system P).Reachable s)
    (next : step s a = some t) {p : P} (other : p ≠ a.who) (holds : (s.pc p).holds = true) :
    t.data = s.data := by
  cases step_kind next with
  | enter free outside eq => rw [eq]; rfl
  | leave closing eq => rw [eq]; rfl
  | work m opened eq =>
      have mine : (s.pc a.who).holds = true := by
        rw [opened]
        rfl
      exact absurd (reachable_exclusive reached holds mine) other
  | quiet flag data same => exact data

/-- A read or a write is made with the file open. -/
theorem step_output {s t : State P} {p : P} {len : Nat}
    (next : step s (.moduleOutput p len) = some t) :
    s.pc p = .opened ∧ t = { s with data := (moduleOutput s.data len).1 } := by
  simp only [step] at next
  split at next
  · rename_i opened
    cases next
    exact ⟨opened, rfl⟩
  · cases next

theorem step_input {s t : State P} {p : P} {buf : List UInt8}
    (next : step s (.moduleInput p buf) = some t) :
    s.pc p = .opened ∧ t = { s with data := (moduleInput s.data buf).1 } := by
  simp only [step] at next
  split at next
  · rename_i opened
    cases next
    exact ⟨opened, rfl⟩
  · cases next

/-- The session of the process that takes the step. -/
theorem log_current {s t : State P} {x : Session} {a : Action P} (next : step s a = some t)
    (current : (s.pc a.who).holds = true → Current x s.data)
    (holds : (t.pc a.who).holds = true) : Current (log s t x a) t.data := by
  by_cases output : ∃ len, a = .moduleOutput a.who len
  · obtain ⟨len, same⟩ := output
    rw [same] at next
    obtain ⟨opened, rfl⟩ := step_output next
    rw [same]
    exact (current (by rw [opened]; rfl)).output len
  · by_cases input : ∃ buf, a = .moduleInput a.who buf
    · obtain ⟨buf, same⟩ := input
      rw [same] at next
      obtain ⟨opened, rfl⟩ := step_input next
      rw [same]
      exact (current (by rw [opened]; rfl)).input buf
    · rw [not_exists] at output input
      rw [log_other s t x output input, step_data next output input]
      cases before : (s.pc a.who).holds with
      | true => simpa using current before
      | false => simpa [holds] using Current.new s.data

theorem loggedStep_logs {s t : Logged P} {a : Action P} (logs : Logs s)
    (next : loggedStep s a = some t) : Logs t := by
  obtain ⟨now, move, rfl⟩ := Option.map_eq_some_iff.1 next
  refine ⟨logs.reached.step move, ?_⟩
  intro p holds
  dsimp only at holds ⊢
  by_cases same : p = a.who
  · subst same
    rw [Function.update_self]
    exact log_current move (logs.current a.who) holds
  · rw [step_pc_of_ne move same] at holds
    rw [Function.update_of_ne same, step_other logs.reached move same holds]
    exact logs.current p holds

/-- Only the session of the process that takes the step changes. -/
theorem sessionsWhole_update {s : Logged P} (whole : SessionsWhole s) (now : State P) (p : P)
    (x : Session) : SessionsWhole ⟨now, Function.update s.session p x⟩ ↔ x.Whole := by
  constructor
  · intro all
    simpa using all p
  · intro mine q
    by_cases same : q = p
    · simpa [same] using mine
    · simpa [same] using whole q

theorem Session.Whole.new (stored : List UInt8) : (Session.new stored).Whole := by
  intro _ pre post split _
  simp [Session.new] at split

/-- A session that still counts after a write has not read yet. -/
theorem Session.Whole.input {x : Session} {d : Data} (current : Current x d)
    (buf : List UInt8) : (x.input d buf).Whole := by
  intro counts pre post split _
  simp only [Session.input, Bool.and_eq_true, List.isEmpty_iff] at counts
  have nothing := (current.place counts.1).reads_nil counts.2
  simp [Session.input, nothing] at split

omit [DecidableEq P] in
theorem readsInTime_other (s : Logged P) {a : Action P}
    (other : ∀ len, a ≠ .moduleOutput a.who len) : ReadsInTime s a := by
  cases a with
  | moduleOutput p len => exact absurd rfl (other len)
  | _ => trivial

theorem loggedStep_whole {s t : Logged P} {a : Action P} (logs : Logs s)
    (whole : SessionsWhole s) (next : loggedStep s a = some t) :
    SessionsWhole t ↔ ReadsInTime s a := by
  obtain ⟨now, move, rfl⟩ := Option.map_eq_some_iff.1 next
  rw [sessionsWhole_update whole]
  by_cases output : ∃ len, a = .moduleOutput a.who len
  · obtain ⟨len, same⟩ := output
    rw [same] at move ⊢
    obtain ⟨opened, -⟩ := step_output move
    exact output_whole (logs.current a.who (by rw [opened]; rfl)) (whole a.who)
  · rw [not_exists] at output
    refine iff_of_true ?_ (readsInTime_other s output)
    by_cases input : ∃ buf, a = .moduleInput a.who buf
    · obtain ⟨buf, same⟩ := input
      rw [same] at move ⊢
      obtain ⟨opened, -⟩ := step_input move
      exact .input (logs.current a.who (by rw [opened]; rfl)) buf
    · rw [not_exists] at input
      rw [log_other _ _ _ output input]
      split
      · exact .new _
      · exact whole a.who

/-- **When sessions read the whole message.**  Along every run the reads of every
session that counts, up to its first empty one, are the whole text, if and only if
each first read finds `finished` clear and asks for the whole text when a second one
follows. -/
theorem sleep_sessions_iff (as : List (Action P)) :
    (logged P).Always SessionsWhole .init as ↔ (logged P).Meets ReadsInTime .init as := by
  apply System.always_iff_meets (I := Logs) (fun s a t => loggedStep_logs)
    (fun s a t => loggedStep_whole) logs_init
  exact fun p => .new []

end

/-- A process opens the file, writes, reads the message in one call, and closes the
file without another read; then it opens the file again and reads. -/
def closedEarly : List (Action Unit) :=
  [.moduleOpen () false, .run (), .moduleInput () (text "hi"), .moduleOutput () 100,
    .moduleClose (), .run (), .run (), .moduleOpen () false, .run (), .moduleOutput () 100]

/-- The second session reads an empty file. -/
theorem sleep_session_empty : ∃ s, (logged Unit).run .init closedEarly = some s ∧
    s.session () = ⟨text "hi", [100], [[]], true⟩ ∧
      lastInput (text "hi") = text "Last input:hi\n" ∧ ¬ SessionsWhole s := by
  have ends : ((logged Unit).run .init closedEarly).map (fun s => s.session ()) =
      some ⟨text "hi", [100], [[]], true⟩ := by decide
  obtain ⟨s, ran, session⟩ := Option.map_eq_some_iff.1 ends
  refine ⟨s, ran, session, by decide, ?_⟩
  intro whole
  have read := whole ()
  rw [session] at read
  exact absurd (read rfl [] [] rfl (by simp)) (by decide)

end Lkmpg.Sleep
