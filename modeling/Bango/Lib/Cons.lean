import Mathlib.Data.Multiset.UnionInter
import Bango.Lib.Brackets
import Bango.Lib.Loops

set_option autoImplicit false

/-! # Lists on a heap

Cells of two references each, which are allocated one after the other and written in place. A reference
shows a form when the form can be read from the heap through it (`Shows`); the cells that are read are
counted, so that cells apart from them can be written (`Shows.frame`). -/

namespace Bango.Lib

variable {α : Type}

/-- A reference: nothing at all, one of two constants, a value that is never written, or a cell. -/
inductive Ref (α : Type) where
  | null
  | nil
  | error
  | atom (value : α)
  | cons (address : ℕ)
deriving DecidableEq, Repr

/-- Whether it refers to a cell, which nothing cannot be asked. -/
def Ref.consp : Ref α → Except Trap Bool
  | .null => .error .fault
  | .cons _ => .ok true
  | _ => .ok false

/-- The cell that it is taken to refer to. -/
def Ref.address : Ref α → Except Trap ℕ
  | .cons address => .ok address
  | _ => .error .fault

structure Cell (α : Type) where
  car : Ref α
  cdr : Ref α
deriving DecidableEq, Repr

/-- The cells by their addresses. -/
abbrev Heap (α : Type) : Type := List (Cell α)

namespace Heap

def alloc (heap : Heap α) (cell : Cell α) : Heap α × Ref α := (heap ++ [cell], .cons heap.length)

def read (heap : Heap α) (address : ℕ) : Except Trap (Cell α) :=
  match heap[address]? with
  | none => .error .fault
  | some cell => .ok cell

def setCar (heap : Heap α) (address : ℕ) (car : Ref α) : Heap α :=
  heap.modify address fun cell => { cell with car }

def setCdr (heap : Heap α) (address : ℕ) (cdr : Ref α) : Heap α :=
  heap.modify address fun cell => { cell with cdr }

variable {heap heap' : Heap α} {address other : ℕ} {cell : Cell α} {r : Ref α}

theorem read_eq (h : heap[address]? = some cell) : heap.read address = .ok cell := by
  rw [read, h]

theorem lt_length (h : heap[address]? = some cell) : address < heap.length :=
  (List.getElem?_eq_some_iff.1 h).1

@[simp]
theorem getElem?_setCar (h : heap[address]? = some cell) :
    (heap.setCar address r)[address]? = some { cell with car := r } := by
  rw [setCar, List.getElem?_modify_eq, h]
  rfl

@[simp]
theorem getElem?_setCar_ne (h : other ≠ address) :
    (heap.setCar address r)[other]? = heap[other]? :=
  List.getElem?_modify_ne _ _ h.symm

@[simp]
theorem getElem?_setCdr (h : heap[address]? = some cell) :
    (heap.setCdr address r)[address]? = some { cell with cdr := r } := by
  rw [setCdr, List.getElem?_modify_eq, h]
  rfl

@[simp]
theorem getElem?_setCdr_ne (h : other ≠ address) :
    (heap.setCdr address r)[other]? = heap[other]? :=
  List.getElem?_modify_ne _ _ h.symm

/-- A cell that is written at one address only does not depend on what is written at another one. -/
theorem getElem?_setCdr_setCdr_ne {third : ℕ} {r' : Ref α} (h : third ≠ other) :
    ((heap.setCdr other r).setCdr address r')[third]? = (heap.setCdr address r')[third]? := by
  rw [setCdr, List.getElem?_modify, getElem?_setCdr_ne h, setCdr, List.getElem?_modify]

theorem getElem?_alloc : (heap.alloc cell).1[heap.length]? = some cell :=
  List.getElem?_concat_length

/-- Allocation changes no cell. -/
theorem getElem?_alloc_of_some {cell' : Cell α} (h : heap[address]? = some cell') :
    (heap.alloc cell).1[address]? = heap[address]? :=
  List.getElem?_append_left (lt_length h)

end Heap

/-! ## Forms on a heap -/

/-- A form that is read from the heap, and the cells that this takes. -/
inductive Shows (heap : Heap α) : Ref α → Form α → Multiset ℕ → Prop where
  | atom (value : α) : Shows heap (.atom value) (.atom value) 0
  | nil : Shows heap .nil (.list []) 0
  | cons {address : ℕ} {cell : Cell α} {form : Form α} {forms : List (Form α)}
      {cells cells' : Multiset ℕ} :
      heap[address]? = some cell → Shows heap cell.car form cells →
      Shows heap cell.cdr (.list forms) cells' →
      Shows heap (.cons address) (.list (form :: forms)) (address ::ₘ (cells + cells'))

namespace Shows

variable {heap heap' : Heap α} {r : Ref α} {form : Form α} {cells : Multiset ℕ}

theorem mem_lt (h : Shows heap r form cells) : ∀ address ∈ cells, address < heap.length := by
  induction h with
  | atom value => exact nofun
  | nil => exact nofun
  | cons hcell _ _ ihcar ihcdr =>
      intro address hmem
      rw [Multiset.mem_cons, Multiset.mem_add] at hmem
      obtain rfl | hmem | hmem := hmem
      · exact Heap.lt_length hcell
      · exact ihcar address hmem
      · exact ihcdr address hmem

/-- Other cells do not matter. -/
theorem frame (h : Shows heap r form cells)
    (hsame : ∀ address ∈ cells, heap'[address]? = heap[address]?) : Shows heap' r form cells := by
  induction h with
  | atom value => exact .atom value
  | nil => exact .nil
  | cons hcell _ _ ihcar ihcdr =>
      refine .cons ((hsame _ (Multiset.mem_cons_self _ _)).trans hcell) (ihcar fun a ha => ?_)
        (ihcdr fun a ha => ?_)
      · exact hsame a (Multiset.mem_cons_of_mem (Multiset.mem_add.2 (.inl ha)))
      · exact hsame a (Multiset.mem_cons_of_mem (Multiset.mem_add.2 (.inr ha)))

theorem alloc (h : Shows heap r form cells) (cell : Cell α) :
    Shows (heap.alloc cell).1 r form cells :=
  h.frame fun address hmem =>
    Heap.getElem?_alloc_of_some (List.getElem?_eq_getElem (h.mem_lt address hmem))

/-- A reference shows one form only. -/
theorem unique {form' : Form α} {cells' : Multiset ℕ} (h : Shows heap r form cells)
    (h' : Shows heap r form' cells') : form = form' := by
  induction h generalizing form' cells' with
  | atom value =>
      cases h'
      rfl
  | nil =>
      cases h'
      rfl
  | cons hcell _ _ ihcar ihcdr =>
      cases h' with
      | cons hcell' hcar' hcdr' =>
          cases hcell.symm.trans hcell'
          rw [ihcar hcar', Form.list.inj (ihcdr hcdr')]

end Shows

end Bango.Lib
