/-
# Lkmpg.Theory.Lines -- text that is made of lines

`lines sep` cuts a text after each `sep`; what is left behind the last one is a line too.
A `Line` is a text without the separator, so that what is written line by line is read
line by line (`lines_unlines`).
-/
import Mathlib.Tactic.Common

namespace Lkmpg.Theory

set_option autoImplicit false

universe u

variable {α : Type u}

structure Line (sep : α) where
  chars : List α
  oneLine : sep ∉ chars

namespace Line

variable {sep : α}

instance [DecidableEq α] : DecidableEq (Line sep) := fun a b =>
  decidable_of_iff (a.chars = b.chars)
    ⟨fun same => by cases a; cases b; cases same; rfl, congrArg _⟩

/-- One line, put together from two. -/
instance : Append (Line sep) where
  append a b := ⟨a.chars ++ b.chars, fun member => by
    rcases List.mem_append.1 member with left | right
    · exact a.oneLine left
    · exact b.oneLine right⟩

@[simp] theorem chars_append (a b : Line sep) : (a ++ b).chars = a.chars ++ b.chars := rfl

end Line

variable [DecidableEq α] (sep : α)

def lines : List α → List (List α)
  | [] => []
  | b :: t =>
      if b = sep then [] :: lines t
      else
        match lines t with
        | [] => [[b]]
        | l :: ls => (b :: l) :: ls

omit [DecidableEq α] in
def unlines (ls : List (Line sep)) : List α := ls.flatMap fun l => l.chars ++ [sep]

variable {sep}

theorem lines_append {l : List α} (oneLine : sep ∉ l) (t : List α) :
    lines sep (l ++ sep :: t) = l :: lines sep t := by
  induction l with
  | nil => simp [lines]
  | cons b l ih =>
      have other : b ≠ sep := fun same => oneLine (same ▸ List.mem_cons_self)
      have rest := ih fun member => oneLine (List.mem_cons_of_mem _ member)
      rw [List.cons_append, lines, if_neg other, rest]

/-- What is written line by line is read line by line. -/
theorem lines_unlines (ls : List (Line sep)) : lines sep (unlines sep ls) = ls.map Line.chars := by
  induction ls with
  | nil => rfl
  | cons l ls ih =>
      have first : unlines sep (l :: ls) = l.chars ++ sep :: unlines sep ls := by
        simp [unlines]
      rw [first, lines_append l.oneLine, ih, List.map_cons]

/-! ## Fields -/

section

omit [DecidableEq α]

variable (isSep : α → Bool)

/-- `field` is the part of the first field that has been read. -/
def fieldsFrom (field : List α) : List α → List (List α)
  | [] => if field.isEmpty then [] else [field]
  | c :: s =>
      if isSep c then if field.isEmpty then fieldsFrom [] s else field :: fieldsFrom [] s
      else fieldsFrom (field ++ [c]) s

def fields (s : List α) : List (List α) := fieldsFrom isSep [] s

variable {isSep}

theorem fieldsFrom_append {w : List α} (oneField : ∀ c ∈ w, isSep c = false) (field s : List α) :
    fieldsFrom isSep field (w ++ s) = fieldsFrom isSep (field ++ w) s := by
  induction w generalizing field with
  | nil => simp
  | cons c w ih =>
      obtain ⟨own, rest⟩ := List.forall_mem_cons.1 oneField
      rw [List.cons_append, fieldsFrom, own, if_neg Bool.false_ne_true, ih rest,
        List.append_assoc, List.singleton_append]

theorem fields_cons {w : List α} (oneField : ∀ c ∈ w, isSep c = false) (some_ : w ≠ []) {c : α}
    (sep : isSep c = true) (s : List α) : fields isSep (w ++ c :: s) = w :: fields isSep s := by
  have full : w.isEmpty = false := by simpa using some_
  rw [fields, fieldsFrom_append oneField, List.nil_append, fieldsFrom, if_pos sep, full,
    if_neg Bool.false_ne_true]
  rfl

theorem fields_last {w : List α} (oneField : ∀ c ∈ w, isSep c = false) (some_ : w ≠ []) :
    fields isSep w = [w] := by
  have full : w.isEmpty = false := by simpa using some_
  have whole := fieldsFrom_append oneField [] []
  rw [List.append_nil, List.nil_append] at whole
  rw [fields, whole, fieldsFrom, full, if_neg Bool.false_ne_true]

end

end Lkmpg.Theory
