import Mathlib.Data.List.AList
import Mathlib.Data.Finset.Card
import Mathlib.Data.List.Perm.Basic

set_option autoImplicit false

/-! # Tallies

A tally keeps, for each key it has seen, a number of occurrences. `Tally.Counts t l` says that `t`
is exactly the tally of the list `l`: each key of `l` with its multiplicity and no other key. The
lemmas say how the two update operations act on the list that is counted. -/

namespace Bango.Lib

/-- A finite map from keys to numbers of occurrences. -/
abbrev Tally (κ : Type) : Type := AList fun _ : κ => Nat

namespace Tally

variable {κ : Type} [DecidableEq κ]

/-- Count one more occurrence of `k`. -/
def incr (t : Tally κ) (k : κ) : Tally κ := t.insert k ((t.lookup k).getD 0 + 1)

/-- Count one occurrence of `k` less, dropping the key with the last one; `none` when `k` has no
    entry. -/
def decr? (t : Tally κ) (k : κ) : Option (Tally κ) :=
  match t.lookup k with
  | none => none
  | some n => if n - 1 = 0 then some (t.erase k) else some (t.insert k (n - 1))

/-- The number of keys. -/
def size (t : Tally κ) : Nat := t.keys.length

/-- `t` is the tally of `l`. -/
def Counts (t : Tally κ) (l : List κ) : Prop :=
  ∀ k, t.lookup k = if l.count k = 0 then none else some (l.count k)

theorem counts_empty : Counts (∅ : Tally κ) [] := by
  intro k
  simp

theorem Counts.perm {t : Tally κ} {l l' : List κ} (h : Counts t l) (hl : l.Perm l') :
    Counts t l' := by
  intro k
  rw [h k, hl.count_eq k]

theorem Counts.getD {t : Tally κ} {l : List κ} (h : Counts t l) (k : κ) :
    (t.lookup k).getD 0 = l.count k := by
  rw [h k]
  split
  · next h0 => rw [h0]; rfl
  · rfl

theorem Counts.incr {t : Tally κ} {l : List κ} (h : Counts t l) (k : κ) :
    Counts (t.incr k) (k :: l) := by
  intro j
  unfold Tally.incr
  by_cases hj : j = k
  · subst hj
    rw [AList.lookup_insert, h.getD j, List.count_cons_self, if_neg (Nat.succ_ne_zero _)]
  · rw [AList.lookup_insert_ne hj, h j, List.count_cons_of_ne (Ne.symm hj)]

theorem Counts.foldl_incr {α : Type} {t : Tally κ} {l : List κ} (h : Counts t l) (f : α → κ)
    (xs : List α) : Counts (xs.foldl (fun t x => t.incr (f x)) t) (xs.map f ++ l) := by
  induction xs generalizing t l with
  | nil => simpa using h
  | cons x xs ih =>
      refine (ih (h.incr (f x))).perm ?_
      simp [List.perm_middle]

theorem Counts.decr? {t : Tally κ} {l : List κ} (h : Counts t l) {k : κ} (hk : k ∈ l) :
    ∃ t', t.decr? k = some t' ∧ Counts t' (l.erase k) := by
  have hpos : 0 < l.count k := List.count_pos_iff.2 hk
  have hlook : t.lookup k = some (l.count k) := by rw [h k, if_neg (by omega)]
  unfold Tally.decr?
  simp only [hlook]
  by_cases hone : l.count k - 1 = 0
  · refine ⟨t.erase k, if_pos hone, fun j => ?_⟩
    by_cases hj : j = k
    · subst hj
      rw [AList.lookup_erase, List.count_erase_self, if_pos hone]
    · rw [AList.lookup_erase_ne hj, h j, List.count_erase_of_ne hj]
  · refine ⟨t.insert k (l.count k - 1), if_neg hone, fun j => ?_⟩
    by_cases hj : j = k
    · subst hj
      rw [AList.lookup_insert, List.count_erase_self, if_neg hone]
    · rw [AList.lookup_insert_ne hj, h j, List.count_erase_of_ne hj]

theorem Counts.decr?_eq_none {t : Tally κ} {l : List κ} (h : Counts t l) {k : κ} (hk : k ∉ l) :
    t.decr? k = none := by
  have hlook : t.lookup k = none := by rw [h k, if_pos (List.count_eq_zero.2 hk)]
  simp only [Tally.decr?, hlook]

theorem Counts.mem_keys {t : Tally κ} {l : List κ} (h : Counts t l) (k : κ) :
    k ∈ t.keys ↔ k ∈ l := by
  rw [← AList.mem_keys, ← AList.lookup_isSome, h k, ← List.count_pos_iff (l := l)]
  split
  · next h0 => simp [h0]
  · next h0 => simpa using Nat.pos_of_ne_zero h0

/-- A tally has as many keys as the list it counts has distinct elements. -/
theorem Counts.size_eq {t : Tally κ} {l : List κ} (h : Counts t l) :
    t.size = l.toFinset.card := by
  have hkeys : t.keys.toFinset = l.toFinset := by
    ext k
    rw [List.mem_toFinset, List.mem_toFinset, h.mem_keys k]
  rw [← hkeys, List.toFinset_card_of_nodup t.keys_nodup]
  rfl

end Tally

end Bango.Lib
