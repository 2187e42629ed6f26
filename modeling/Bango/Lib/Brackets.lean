import Mathlib.Init

set_option autoImplicit false

/-! # Bracketed lists

Lists of lists over some atoms, and how they are written as a word of atoms and brackets. A word is
balanced when the depth, counted from the left, never falls below zero and ends there; the words of
lists are such words, and a word belongs to one list only. -/

namespace Bango.Lib

/-- The letters of a word. -/
inductive Bracket (α : Type) where
  | opening
  | closing
  | atom (value : α)
deriving DecidableEq, Repr

/-- An atom or a list. -/
inductive Form (α : Type) where
  | atom (value : α)
  | list (items : List (Form α))

variable {α : Type}

/-! ## Words -/

mutual

/-- The word of a form. -/
def Form.write : Form α → List (Bracket α)
  | .atom value => [.atom value]
  | .list items => .opening :: (Form.writeAll items ++ [.closing])

/-- The word of some forms, one after the other. -/
def Form.writeAll : List (Form α) → List (Bracket α)
  | [] => []
  | form :: forms => form.write ++ Form.writeAll forms

end

namespace Form

@[simp]
theorem writeAll_nil : writeAll ([] : List (Form α)) = [] := by
  rw [writeAll]

@[simp]
theorem writeAll_cons_atom (value : α) (forms : List (Form α)) :
    writeAll (.atom value :: forms) = .atom value :: writeAll forms := by
  rw [writeAll, write]
  rfl

@[simp]
theorem writeAll_cons_list (items forms : List (Form α)) :
    writeAll (.list items :: forms) =
      .opening :: (writeAll items ++ .closing :: writeAll forms) := by
  rw [writeAll, write]
  simp

/-- Induction on lists of forms: the items of a list in front are such a list themselves. -/
theorem forms_induction {motive : List (Form α) → Prop} (nil : motive [])
    (atom : ∀ value forms, motive forms → motive (.atom value :: forms))
    (list : ∀ items forms, motive items → motive forms → motive (.list items :: forms)) :
    ∀ forms, motive forms
  | [] => nil
  | .atom value :: forms => atom value forms (forms_induction nil atom list forms)
  | .list items :: forms =>
    list items forms (forms_induction nil atom list items) (forms_induction nil atom list forms)

/-- Forms that are written before a closing bracket can be told from the word. -/
theorem writeAll_closing_inj {forms forms' : List (Form α)} {word word' : List (Bracket α)}
    (h : writeAll forms ++ .closing :: word = writeAll forms' ++ .closing :: word') :
    forms = forms' ∧ word = word' := by
  induction forms using forms_induction generalizing forms' word word' with
  | nil =>
      cases forms' with
      | nil => simpa using h
      | cons form' forms' => cases form' <;> simp at h
  | atom value forms ih =>
      cases forms' with
      | nil => simp at h
      | cons form' forms' =>
          cases form' with
          | list items => simp at h
          | atom value' =>
              simp only [writeAll_cons_atom, List.cons_append, List.cons.injEq,
                Bracket.atom.injEq] at h
              obtain ⟨hforms, hword⟩ := ih h.2
              rw [h.1, hforms]
              exact ⟨rfl, hword⟩
  | list items forms ihitems ihforms =>
      cases forms' with
      | nil => simp at h
      | cons form' forms' =>
          cases form' with
          | atom value => simp at h
          | list items' =>
              simp only [writeAll_cons_list, List.cons_append, List.append_assoc,
                List.cons.injEq, true_and] at h
              obtain ⟨hitems, hrest⟩ := ihitems h
              obtain ⟨hforms, hword⟩ := ihforms hrest
              rw [hitems, hforms]
              exact ⟨rfl, hword⟩

theorem writeAll_injective {forms forms' : List (Form α)} (h : writeAll forms = writeAll forms') :
    forms = forms' :=
  (writeAll_closing_inj (congrArg (· ++ [.closing]) h)).1

end Form

/-! ## Depth -/

namespace Bracket

/-- The depth after a word that begins at some depth; `none` when a bracket is closed that was not
    opened. -/
def depth : Nat → List (Bracket α) → Option Nat
  | d, [] => some d
  | d, .opening :: word => depth (d + 1) word
  | 0, .closing :: _ => none
  | d + 1, .closing :: word => depth d word
  | d, .atom _ :: word => depth d word

/-- No closing bracket is without its opening one. -/
def NoExtraClosing (word : List (Bracket α)) : Prop := depth 0 word ≠ none

/-- Brackets come in pairs. -/
def Balanced (word : List (Bracket α)) : Prop := depth 0 word = some 0

instance (word : List (Bracket α)) : Decidable (NoExtraClosing word) :=
  inferInstanceAs (Decidable (_ ≠ _))

instance (word : List (Bracket α)) : Decidable (Balanced word) :=
  inferInstanceAs (Decidable (_ = _))

@[simp]
theorem depth_nil (d : Nat) : depth d ([] : List (Bracket α)) = some d := by
  cases d <;> rfl

@[simp]
theorem depth_opening (d : Nat) (word : List (Bracket α)) :
    depth d (.opening :: word) = depth (d + 1) word := by
  cases d <;> rfl

@[simp]
theorem depth_closing_zero (word : List (Bracket α)) : depth 0 (.closing :: word) = none := rfl

@[simp]
theorem depth_closing_succ (d : Nat) (word : List (Bracket α)) :
    depth (d + 1) (.closing :: word) = depth d word := rfl

@[simp]
theorem depth_atom (d : Nat) (value : α) (word : List (Bracket α)) :
    depth d (.atom value :: word) = depth d word := by
  cases d <;> rfl

/-- A word that can begin at some depth can begin one deeper, and then ends one deeper. -/
theorem depth_succ {d e : Nat} {word : List (Bracket α)} (h : depth d word = some e) :
    depth (d + 1) word = some (e + 1) := by
  induction word generalizing d with
  | nil =>
      rw [depth_nil, Option.some.injEq] at h ⊢
      omega
  | cons letter word ih =>
      cases letter with
      | opening =>
          rw [depth_opening] at h ⊢
          exact ih h
      | atom value =>
          rw [depth_atom] at h ⊢
          exact ih h
      | closing =>
          cases d with
          | zero => cases h
          | succ d => exact ih h

/-- Forms leave the depth as it is. -/
theorem depth_writeAll (d : Nat) (forms : List (Form α)) (word : List (Bracket α)) :
    depth d (Form.writeAll forms ++ word) = depth d word := by
  induction forms using Form.forms_induction generalizing d word with
  | nil => rw [Form.writeAll_nil, List.nil_append]
  | atom value forms ih => rw [Form.writeAll_cons_atom, List.cons_append, depth_atom, ih]
  | list items forms ihitems ihforms =>
      rw [Form.writeAll_cons_list, List.cons_append, depth_opening, List.append_assoc, ihitems,
        List.cons_append, depth_closing_succ, ihforms]

theorem balanced_writeAll (forms : List (Form α)) : Balanced (Form.writeAll forms) := by
  have h := depth_writeAll 0 forms []
  rwa [List.append_nil, depth_nil] at h

/-! ## Reading a word with a stack -/

/-- Read the forms of a word: those of the open list that are read so far, the last one first, and what
    was read so of the lists around it, the inner ones first. -/
def build : List (Form α) → List (List (Form α)) → List (Bracket α) → Option (List (Form α))
  | top, [], [] => some top.reverse
  | _, _ :: _, [] => none
  | top, stack, .atom value :: word => build (.atom value :: top) stack word
  | top, stack, .opening :: word => build [] (top :: stack) word
  | top, below :: stack, .closing :: word => build (.list top.reverse :: below) stack word
  | _, [], .closing :: _ => none

variable {top : List (Form α)} {stack : List (List (Form α))} {word : List (Bracket α)}

theorem build_atom (value : α) :
    build top stack (.atom value :: word) = build (.atom value :: top) stack word := by
  cases stack <;> rfl

theorem build_opening : build top stack (.opening :: word) = build [] (top :: stack) word := by
  cases stack <;> rfl

theorem build_closing (below : List (Form α)) :
    build top (below :: stack) (.closing :: word) =
      build (.list top.reverse :: below) stack word := rfl

/-- Written forms are read back. -/
theorem build_writeAll_append (top : List (Form α)) (stack : List (List (Form α)))
    (forms : List (Form α)) (word : List (Bracket α)) :
    build top stack (Form.writeAll forms ++ word) = build (forms.reverse ++ top) stack word := by
  induction forms using Form.forms_induction generalizing top stack word with
  | nil => rw [Form.writeAll_nil, List.reverse_nil, List.nil_append, List.nil_append]
  | atom value forms ih =>
      rw [Form.writeAll_cons_atom, List.cons_append, build_atom, ih, List.reverse_cons,
        List.append_assoc, List.singleton_append]
  | list items forms ihitems ihforms =>
      rw [Form.writeAll_cons_list, List.cons_append, build_opening, List.append_assoc, ihitems,
        List.cons_append, build_closing, ihforms, List.append_nil, List.reverse_reverse,
        List.reverse_cons, List.append_assoc, List.singleton_append]

theorem build_writeAll (forms : List (Form α)) :
    build [] [] (Form.writeAll forms) = some forms := by
  have h := build_writeAll_append [] [] forms []
  rw [List.append_nil, List.append_nil] at h
  rw [h, build, List.reverse_reverse]

end Bracket

end Bango.Lib
