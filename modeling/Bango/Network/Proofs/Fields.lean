import Mathlib.Algebra.BigOperators.Group.List.Basic
import Bango.Network.Pops

set_option autoImplicit false

/-! # Where the fields of a packet end

How far a sequence of reads gets: `skip` for fields of fixed sizes, `strings` for strings. Both are
the same whatever follows the fields, and where the fields do not end with the packet's own bytes,
the reads run into what was appended to it (`length_skip_lt`, `length_lt_of_strings_append`). -/

namespace Bango.Network.Pops

open Bango.Lib

variable {α β : Type}

/-! ## Fields of fixed sizes -/

/-- What follows fields of the given sizes. A field that does not fit consumes nothing. -/
def skip : List Nat → List UInt8 → List UInt8
  | [], u => u
  | n :: ns, u => skip ns (if u.length < n then u else u.drop n)

/-- Reads of the given sizes, whatever the values. -/
inductive Fixed : List Nat → Pops α → Prop where
  | done (a : α) : Fixed [] (.done a)
  | pop {n : Nat} {ns : List Nat} {next : List UInt8 → Pops α} (h : ∀ v, Fixed ns (next v)) :
      Fixed (n :: ns) (.pop n next)

theorem Fixed.bind {ns ms : List Nat} {x : Pops α} {f : α → Pops β} (hx : Fixed ns x)
    (hf : ∀ a, Fixed ms (f a)) : Fixed (ns ++ ms) (x >>= f) := by
  show Fixed _ (x.bind f)
  induction hx with
  | done a => exact hf a
  | pop _ ih => exact .pop fun v => ih v

/-- One field more. -/
theorem Fixed.cons {n : Nat} {ns : List Nat} {x : Pops α} {f : α → Pops β} (hx : Fixed [n] x)
    (hf : ∀ a, Fixed ns (f a)) : Fixed (n :: ns) (x >>= f) := hx.bind hf

theorem Fixed.runBytes {ns : List Nat} {x : Pops α} (h : Fixed ns x) (u : List UInt8) :
    ∃ a, x.runBytes u = .ok (a, skip ns u) := by
  induction h generalizing u with
  | done a => exact ⟨a, rfl⟩
  | @pop n ns next _ ih =>
      simp only [Pops.runBytes, skip]
      split
      · exact ih _ u
      · exact ih _ _

theorem fixed_popU8 : Fixed [1] popU8 := .pop fun _ => .done _
theorem fixed_popU16 : Fixed [2] popU16 := .pop fun _ => .done _
theorem fixed_popI32 : Fixed [4] popI32 := .pop fun _ => .done _

theorem skip_of_le {ns : List Nat} {u : List UInt8} (h : ns.sum ≤ u.length) :
    skip ns u = u.drop ns.sum := by
  induction ns generalizing u with
  | nil => rfl
  | cons n ns ih =>
      rw [List.sum_cons] at h ⊢
      rw [skip, if_neg (by omega), ih (by rw [List.length_drop]; omega), List.drop_drop]

theorem skip_append (ns ms : List Nat) (u : List UInt8) :
    skip (ns ++ ms) u = skip ms (skip ns u) := by
  induction ns generalizing u with
  | nil => rfl
  | cons n ns ih => rw [List.cons_append, skip, skip, ih]

theorem length_skip_le (ns : List Nat) (u : List UInt8) : (skip ns u).length ≤ u.length := by
  induction ns generalizing u with
  | nil => exact Nat.le_refl _
  | cons n ns ih =>
      rw [skip]
      split
      · exact ih u
      · have := ih (u.drop n)
        rw [List.length_drop] at this
        omega

/-- With less than `k` bytes behind the fields, no more than that is ever left. -/
theorem length_skip_lt {k : Nat} {ns : List Nat} (hns : ∀ n ∈ ns, n ≤ k) {u : List UInt8}
    (h : u.length < ns.sum + k) : (skip ns u).length < k := by
  induction ns generalizing u with
  | nil => simpa [skip] using h
  | cons n ns ih =>
      have hn := hns n List.mem_cons_self
      rw [List.sum_cons] at h
      rw [skip]
      split
      · next hshort =>
          have := length_skip_le ns u
          omega
      · refine ih (fun m hm => hns m (List.mem_cons_of_mem n hm)) ?_
        rw [List.length_drop]
        omega

/-! ## Strings -/

/-- What follows `k` strings. -/
def strings : Nat → List UInt8 → Option (List UInt8)
  | 0, u => some u
  | k + 1, u =>
    match splitStr u with
    | some (_, r) => strings k r
    | none => none

theorem strings_append {k : Nat} {u r : List UInt8} (h : strings k u = some r) (t : List UInt8) :
    strings k (u ++ t) = some (r ++ t) := by
  induction k generalizing u with
  | zero =>
      cases h
      rfl
  | succ k ih =>
      rw [strings] at h ⊢
      cases hsplit : splitStr u with
      | none =>
          rw [hsplit] at h
          cases h
      | some vr =>
          rw [hsplit] at h
          rw [splitStr_append hsplit t]
          exact ih h

theorem length_le_of_strings {k : Nat} {u r : List UInt8} (h : strings k u = some r) :
    r.length ≤ u.length := by
  induction k generalizing u with
  | zero =>
      cases h
      exact Nat.le_refl _
  | succ k ih =>
      rw [strings] at h
      cases hsplit : splitStr u with
      | none =>
          rw [hsplit] at h
          cases h
      | some vr =>
          rw [hsplit] at h
          have hlen := congrArg List.length (splitStr_eq_some.1 hsplit).1
          rw [List.length_append, List.length_cons] at hlen
          have := ih h
          omega

/-- There are as many strings as NULs. -/
theorem exists_strings {k : Nat} {u : List UInt8} (h : k ≤ u.count 0) :
    ∃ r, strings k u = some r := by
  induction k generalizing u with
  | zero => exact ⟨u, rfl⟩
  | succ k ih =>
      rw [strings]
      cases hsplit : splitStr u with
      | none =>
          have := List.count_eq_zero.2 (splitStr_eq_none.1 hsplit)
          omega
      | some vr =>
          obtain ⟨heq, hv⟩ := splitStr_eq_some.1 hsplit
          refine ih ?_
          rw [heq, List.count_append, List.count_eq_zero.2 hv, List.count_cons_self] at h
          omega

/-- Strings that do not end in `u` take at least one byte of what follows it. -/
theorem length_lt_of_strings_append {k : Nat} {u t r : List UInt8} (hu : strings k u = none)
    (h : strings k (u ++ t) = some r) : r.length < t.length := by
  induction k generalizing u with
  | zero => cases hu
  | succ k ih =>
      rw [strings] at hu h
      cases hsplit : splitStr u with
      | some vr =>
          rw [hsplit] at hu
          rw [splitStr_append hsplit t] at h
          exact ih hu h
      | none =>
          cases happ : splitStr (u ++ t) with
          | none =>
              rw [happ] at h
              cases h
          | some vr =>
              rw [happ] at h
              have hrest := length_le_of_strings h
              obtain ⟨w, -, ht⟩ := splitStr_append_of_none hsplit happ
              have hlen := congrArg List.length ht
              rw [List.length_append, List.length_cons] at hlen
              omega

end Bango.Network.Pops
