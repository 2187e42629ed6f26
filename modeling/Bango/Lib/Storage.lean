import Mathlib.Data.Multiset.UnionInter
import Mathlib.Data.Finset.Card
import Bango.Lib.Brackets
import Bango.Lib.Loops

set_option autoImplicit false

/-! # Objects that are made and freed

Objects are made one after the other and freed in any order; what has been freed cannot be read, written
or freed again. A reference owns the objects of a form (`Owns`), and a computation is judged by the
objects that it leaves of those that it has made (`Grown`). -/

namespace Bango.Lib

variable {α : Type}

/-- A reference: one of two constants, which are never freed, or an object. -/
inductive Pointer where
  | nil
  | error
  | object (address : ℕ)
deriving DecidableEq, Repr

/-- A value, or a cell of two references. -/
inductive Object (α : Type) where
  | atom (value : α)
  | cons (car cdr : Pointer)
deriving DecidableEq, Repr

/-- The objects by their addresses; nothing is left of one that has been freed. -/
abbrev Storage (α : Type) : Type := List (Option (Object α))

namespace Storage

variable (storage : Storage α)

/-- The object at an address, if it is there. -/
def object? (address : ℕ) : Option (Object α) := storage[address]?.join

def alloc (object : Object α) : Storage α × Pointer :=
  (storage ++ [some object], .object storage.length)

def read (address : ℕ) : Except Trap (Object α) :=
  match storage.object? address with
  | none => .error .fault
  | some object => .ok object

def free (address : ℕ) : Except Trap (Storage α) :=
  match storage.object? address with
  | none => .error .fault
  | some _ => .ok (storage.set address none)

/-- The second reference of a cell is written. -/
def setCdr (address : ℕ) (cdr : Pointer) : Except Trap (Storage α) :=
  match storage.object? address with
  | some (.cons car _) => .ok (storage.set address (some (.cons car cdr)))
  | _ => .error .fault

variable {storage} {storage' : Storage α} {address other : ℕ} {object : Object α}

theorem lt_length (h : storage.object? address = some object) : address < storage.length := by
  unfold object? at h
  by_contra hle
  rw [List.getElem?_eq_none (Nat.le_of_not_lt hle)] at h
  cases h

theorem object?_of_le (h : storage.length ≤ address) : storage.object? address = none := by
  rw [object?, List.getElem?_eq_none h]
  rfl

theorem read_eq (h : storage.object? address = some object) : storage.read address = .ok object := by
  rw [read, h]

theorem object?_alloc : (storage.alloc object).1.object? storage.length = some object := by
  rw [object?, alloc, List.getElem?_concat_length]
  rfl

theorem object?_alloc_of_ne (h : address ≠ storage.length) :
    (storage.alloc object).1.object? address = storage.object? address := by
  unfold object? alloc
  rcases Nat.lt_or_gt_of_ne h with hlt | hgt
  · rw [List.getElem?_append_left hlt]
  · have hle : (storage ++ [some object]).length ≤ address := by
      rw [List.length_append]
      exact hgt
    rw [List.getElem?_eq_none hle, List.getElem?_eq_none (Nat.le_of_lt hgt)]

theorem object?_set {value : Option (Object α)} (h : address < storage.length) :
    object? (storage.set address value) address = value := by
  rw [object?, List.getElem?_set_self h]
  rfl

theorem object?_set_of_ne {value : Option (Object α)} (h : other ≠ address) :
    object? (storage.set address value) other = storage.object? other := by
  rw [object?, List.getElem?_set_ne h.symm, object?]

theorem free_eq (h : storage.object? address = some object) :
    storage.free address = .ok (storage.set address none) := by
  rw [free, h]

theorem setCdr_eq {car cdr cdr' : Pointer} (h : storage.object? address = some (.cons car cdr)) :
    storage.setCdr address cdr' = .ok (storage.set address (some (.cons car cdr'))) := by
  rw [setCdr, h]

end Storage

/-! ## Forms in a storage -/

/-- A form that can be read through a reference, and the objects that it is made of. -/
inductive Owns (storage : Storage α) : Pointer → Form α → Multiset ℕ → Prop where
  | nil : Owns storage .nil (.list []) 0
  | atom {address : ℕ} {value : α} :
      storage.object? address = some (.atom value) →
      Owns storage (.object address) (.atom value) {address}
  | cons {address : ℕ} {car cdr : Pointer} {form : Form α} {forms : List (Form α)}
      {cells cells' : Multiset ℕ} :
      storage.object? address = some (.cons car cdr) → Owns storage car form cells →
      Owns storage cdr (.list forms) cells' →
      Owns storage (.object address) (.list (form :: forms)) (address ::ₘ (cells + cells'))

namespace Owns

variable {storage storage' : Storage α} {p : Pointer} {form : Form α} {cells : Multiset ℕ}

theorem mem_lt (h : Owns storage p form cells) : ∀ address ∈ cells, address < storage.length := by
  induction h with
  | nil => exact fun _ h => by cases h
  | atom hobject =>
      intro address hmem
      rw [Multiset.mem_singleton.1 hmem]
      exact Storage.lt_length hobject
  | cons hobject _ _ ihcar ihcdr =>
      intro address hmem
      rw [Multiset.mem_cons, Multiset.mem_add] at hmem
      obtain rfl | hmem | hmem := hmem
      · exact Storage.lt_length hobject
      · exact ihcar address hmem
      · exact ihcdr address hmem

/-- Other objects do not matter. -/
theorem frame (h : Owns storage p form cells)
    (hsame : ∀ address ∈ cells, storage'.object? address = storage.object? address) :
    Owns storage' p form cells := by
  induction h with
  | nil => exact .nil
  | atom hobject => exact .atom ((hsame _ (Multiset.mem_singleton_self _)).trans hobject)
  | cons hobject _ _ ihcar ihcdr =>
      refine .cons ((hsame _ (Multiset.mem_cons_self _ _)).trans hobject) (ihcar fun a ha => ?_)
        (ihcdr fun a ha => ?_)
      · exact hsame a (Multiset.mem_cons_of_mem (Multiset.mem_add.2 (.inl ha)))
      · exact hsame a (Multiset.mem_cons_of_mem (Multiset.mem_add.2 (.inr ha)))

/-- There are no more of them than addresses. -/
theorem card_le (h : Owns storage p form cells) (hnodup : cells.Nodup) :
    Multiset.card cells ≤ storage.length := by
  have hsub : cells.toFinset ⊆ Finset.range storage.length := by
    intro address hmem
    exact Finset.mem_range.2 (h.mem_lt address (Multiset.mem_toFinset.1 hmem))
  have hcard := Finset.card_le_card hsub
  rwa [Finset.card_range, Multiset.toFinset_card_of_nodup hnodup] at hcard

end Owns

/-! ## What is left -/

/-- Of the objects that have been made since, these are left, and the older ones are as they were. -/
structure Grown (storage storage' : Storage α) (cells : Multiset ℕ) : Prop where
  le : storage.length ≤ storage'.length
  same : ∀ address < storage.length, storage'.object? address = storage.object? address
  fresh : ∀ address ∈ cells, storage.length ≤ address
  gone : ∀ address ∉ cells, storage.length ≤ address → storage'.object? address = none
  nodup : cells.Nodup

namespace Grown

variable {storage storage' storage'' : Storage α} {cells cells' : Multiset ℕ}

theorem refl (storage : Storage α) : Grown storage storage 0 where
  le := Nat.le_refl _
  same _ _ := rfl
  fresh _ hmem := by cases hmem
  gone _ _ hle := Storage.object?_of_le hle
  nodup := Multiset.nodup_zero

theorem trans (h : Grown storage storage' cells) (h' : Grown storage' storage'' cells')
    (hlt : ∀ address ∈ cells, address < storage'.length) :
    Grown storage storage'' (cells + cells') where
  le := Nat.le_trans h.le h'.le
  same address ha := (h'.same address (Nat.lt_of_lt_of_le ha h.le)).trans (h.same address ha)
  fresh address hmem := by
    rcases Multiset.mem_add.1 hmem with hmem | hmem
    · exact h.fresh address hmem
    · exact Nat.le_trans h.le (h'.fresh address hmem)
  gone address hmem hle := by
    rw [Multiset.mem_add, not_or] at hmem
    by_cases hold : address < storage'.length
    · rw [h'.same address hold]
      exact h.gone address hmem.1 hle
    · exact h'.gone address hmem.2 (Nat.le_of_not_lt hold)
  nodup := by
    refine Multiset.nodup_add.2 ⟨h.nodup, h'.nodup, Multiset.disjoint_left.2 fun {a} ha ha' => ?_⟩
    exact Nat.not_le_of_lt (hlt a ha) (h'.fresh a ha')

theorem alloc (storage : Storage α) (object : Object α) :
    Grown storage (storage.alloc object).1 {storage.length} where
  le := by simp [Storage.alloc]
  same address ha := Storage.object?_alloc_of_ne (Nat.ne_of_lt ha)
  fresh address hmem := (Multiset.mem_singleton.1 hmem).ge
  gone address hmem hle := by
    rw [Storage.object?_alloc_of_ne fun heq => hmem (Multiset.mem_singleton.2 heq)]
    exact Storage.object?_of_le hle
  nodup := Multiset.nodup_singleton _

/-- An object that is left is written. -/
theorem set (h : Grown storage storage' cells) {address : ℕ} (hmem : address ∈ cells)
    (object : Object α) : Grown storage (List.set storage' address (some object)) cells where
  le := by simpa using h.le
  same other hother := by
    have hne : other ≠ address := by
      rintro rfl
      exact Nat.not_le_of_lt hother (h.fresh other hmem)
    rw [Storage.object?_set_of_ne hne]
    exact h.same other hother
  fresh := h.fresh
  gone other hother hle := by
    rw [Storage.object?_set_of_ne (ne_of_mem_of_not_mem hmem hother).symm]
    exact h.gone other hother hle
  nodup := h.nodup

/-- Some of the objects that are left are freed. -/
theorem freed (h : Grown storage storage' (cells + cells')) (hle : storage'.length ≤ storage''.length)
    (hsame : ∀ address ∉ cells, storage''.object? address = storage'.object? address)
    (hnone : ∀ address ∈ cells, storage''.object? address = none) :
    Grown storage storage'' cells' where
  le := Nat.le_trans h.le hle
  same address ha := by
    refine (hsame address fun hmem => ?_).trans (h.same address ha)
    exact Nat.not_le_of_lt ha (h.fresh address (Multiset.mem_add.2 (.inl hmem)))
  fresh address hmem := h.fresh address (Multiset.mem_add.2 (.inr hmem))
  gone address hmem hle := by
    by_cases hcells : address ∈ cells
    · exact hnone address hcells
    · rw [hsame address hcells]
      exact h.gone address (by rw [Multiset.mem_add, not_or]; exact ⟨hcells, hmem⟩) hle
  nodup := (Multiset.nodup_add.1 h.nodup).2.1

/-- When nothing is left, all is as it was. -/
theorem object?_eq (h : Grown storage storage' 0) (address : ℕ) :
    storage'.object? address = storage.object? address := by
  by_cases hlt : address < storage.length
  · exact h.same address hlt
  · have hle := Nat.le_of_not_lt hlt
    rw [h.gone address (fun hmem => by cases hmem) hle, Storage.object?_of_le hle]

end Grown

end Bango.Lib
