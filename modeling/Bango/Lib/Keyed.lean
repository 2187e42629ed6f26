import Mathlib.Algebra.BigOperators.Group.List.Basic
import Mathlib.Algebra.Ring.Nat
import Mathlib.Data.List.Forall2
import Mathlib.Data.List.Nodup
import Mathlib.Data.List.Perm.Basic

set_option autoImplicit false

/-! # Lists of entries with a key of their own

A table or a map as the list of its entries: at most one entry has a given key, and where an entry
stands in the list says nothing. An update or a removal by key is described by what it does to any
arrangement of the list that has the entry in front. -/

namespace Bango.Lib

variable {α β κ : Type} {key : α → κ}

/-- Each key belongs to one entry. -/
def Keyed (key : α → κ) (xs : List α) : Prop := (xs.map key).Nodup

/-! ## Keys -/

@[simp]
theorem keyed_nil : Keyed key [] := List.nodup_nil

@[simp]
theorem keyed_cons {x : α} {xs : List α} :
    Keyed key (x :: xs) ↔ (∀ y ∈ xs, key y ≠ key x) ∧ Keyed key xs := by
  unfold Keyed
  rw [List.map_cons, List.nodup_cons, List.mem_map]
  simp

theorem Keyed.perm {xs ys : List α} (h : xs.Perm ys) : Keyed key xs ↔ Keyed key ys :=
  (h.map key).nodup_iff

/-! ## Operations -/

variable [DecidableEq κ]

instance (xs : List α) : Decidable (Keyed key xs) := inferInstanceAs (Decidable (List.Nodup _))

variable (key) in
/-- The entry with a key. -/
def findKey (k : κ) (xs : List α) : Option α := xs.find? (key · = k)

variable (key) in
/-- Change the entry with a key. -/
def updateKey (k : κ) (f : α → α) (xs : List α) : List α :=
  xs.map fun x => if key x = k then f x else x

variable (key) in
/-- Remove the entry with a key. -/
def eraseKey (k : κ) (xs : List α) : List α := xs.filter (key · ≠ k)

variable (key) in
/-- Insert an entry whose key no other entry has, at the end. -/
def insertKey (xs : List α) (x : α) : List α :=
  match findKey key (key x) xs with
  | some _ => xs
  | none => xs ++ [x]

/-! ## Finding -/

theorem key_of_findKey {k : κ} {xs : List α} {x : α} (h : findKey key k xs = some x) :
    key x = k := by
  simpa using List.find?_some h

theorem mem_of_findKey {k : κ} {xs : List α} {x : α} (h : findKey key k xs = some x) : x ∈ xs :=
  List.mem_of_find?_eq_some h

/-- An entry is found by its key. -/
theorem Keyed.findKey_eq {xs : List α} (h : Keyed key xs) {x : α} (hx : x ∈ xs) :
    findKey key (key x) xs = some x := by
  cases hfind : findKey key (key x) xs with
  | none => exact absurd (decide_eq_true rfl) (List.find?_eq_none.1 hfind x hx)
  | some y =>
      have heq : y = x := List.inj_on_of_nodup_map h (mem_of_findKey hfind) hx (key_of_findKey hfind)
      rw [heq]

theorem findKey_cons (k : κ) (x : α) (xs : List α) :
    findKey key k (x :: xs) = if key x = k then some x else findKey key k xs := by
  unfold findKey
  rw [List.find?_cons]
  by_cases hx : key x = k
  · simp [hx]
  · simp [hx]

theorem ne_of_findKey_eq_none {k : κ} {xs : List α} (h : findKey key k xs = none) :
    ∀ x ∈ xs, key x ≠ k := by
  intro x hx
  simpa using List.find?_eq_none.1 h x hx

/-! ## Inserting -/

theorem findKey_insertKey (k : κ) (x : α) (xs : List α) :
    findKey key k (insertKey key xs x) = findKey key k (xs ++ [x]) := by
  unfold insertKey
  split
  · next y hy =>
      -- what has the key of `x` already is found before it
      by_cases hk : key x = k
      · rw [← hk, hy]
        unfold findKey at hy ⊢
        rw [List.find?_append, hy, Option.some_or]
      · simp [findKey, hk]
  · rfl

/-- The first entry with a key is the one that stays. -/
theorem findKey_foldl_insertKey (k : κ) (xs ys : List α) :
    findKey key k (ys.foldl (insertKey key) xs) = findKey key k (xs ++ ys) := by
  induction ys generalizing xs with
  | nil => rw [List.foldl_nil, List.append_nil]
  | cons y ys ih =>
      have hinsert : findKey key k (insertKey key xs y) = findKey key k (xs ++ [y]) :=
        findKey_insertKey k y xs
      rw [List.foldl_cons, ih]
      unfold findKey at hinsert ⊢
      rw [List.find?_append, hinsert, ← List.find?_append, List.append_assoc, List.singleton_append]

/-! ## Updating and removing -/

theorem findKey_updateKey {f : α → α} (hf : ∀ x, key (f x) = key x) (k j : κ) (xs : List α) :
    findKey key j (updateKey key k f xs) =
      if j = k then (findKey key j xs).map f else findKey key j xs := by
  induction xs with
  | nil => simp [findKey, updateKey]
  | cons x xs ih =>
      have hcons : updateKey key k f (x :: xs) =
          (if key x = k then f x else x) :: updateKey key k f xs := rfl
      have hkey : key (if key x = k then f x else x) = key x := by
        split
        · exact hf x
        · rfl
      rw [hcons, findKey_cons, findKey_cons, ih, hkey]
      by_cases hx : key x = j
      · subst hx
        simp only [↓reduceIte]
        split
        · rfl
        · rfl
      · simp only [hx, ↓reduceIte]

@[simp]
theorem updateKey_id (k : κ) (xs : List α) : updateKey key k id xs = xs := by simp [updateKey]

theorem updateKey_of_forall_ne {k : κ} {f : α → α} {xs : List α} (h : ∀ x ∈ xs, key x ≠ k) :
    updateKey key k f xs = xs := by
  unfold updateKey
  conv_rhs => rw [← List.map_id xs]
  exact List.map_congr_left fun x hx => if_neg (h x hx)

theorem eraseKey_of_forall_ne {k : κ} {xs : List α} (h : ∀ x ∈ xs, key x ≠ k) :
    eraseKey key k xs = xs :=
  List.filter_eq_self.2 fun x hx => decide_eq_true (h x hx)

theorem findKey_eraseKey (k j : κ) (xs : List α) :
    findKey key j (eraseKey key k xs) = if j = k then none else findKey key j xs := by
  unfold findKey eraseKey
  rw [List.find?_filter]
  by_cases hj : j = k
  · rw [if_pos hj, List.find?_eq_none]
    simp [hj]
  · rw [if_neg hj]
    congr 1
    funext x
    by_cases hx : key x = j
    · simp [hx, hj]
    · simp [hx]

theorem map_updateKey {k : κ} {f : α → α} {g : α → β} (hf : ∀ x, g (f x) = g x) (xs : List α) :
    (updateKey key k f xs).map g = xs.map g := by
  unfold updateKey
  rw [List.map_map]
  refine List.map_congr_left fun x _ => ?_
  show g (if key x = k then f x else x) = g x
  split
  · exact hf x
  · rfl

theorem Keyed.updateKey {xs : List α} (h : Keyed key xs) {k : κ} {f : α → α}
    (hf : ∀ x, key (f x) = key x) : Keyed key (updateKey key k f xs) := by
  unfold Keyed
  rwa [map_updateKey hf]

theorem Keyed.eraseKey {xs : List α} (h : Keyed key xs) (k : κ) : Keyed key (eraseKey key k xs) :=
  h.sublist (List.filter_sublist.map key)

theorem mem_eraseKey {k : κ} {xs : List α} {x : α} :
    x ∈ eraseKey key k xs ↔ x ∈ xs ∧ key x ≠ k := by
  simp [eraseKey]

theorem forall_mem_updateKey {k : κ} {f : α → α} {xs : List α} {P : α → Prop}
    (h : ∀ x ∈ xs, P x) (hf : ∀ x, P x → P (f x)) : ∀ y ∈ updateKey key k f xs, P y := by
  intro y hy
  obtain ⟨x, hx, rfl⟩ := List.mem_map.1 hy
  split
  · exact hf x (h x hx)
  · exact h x hx

theorem filter_updateKey {k : κ} {f : α → α} {xs : List α} {p : α → Bool} (hf : ∀ x, p (f x) = p x) :
    (updateKey key k f xs).filter p = updateKey key k f (xs.filter p) := by
  unfold updateKey
  rw [List.filter_map]
  refine congrArg (List.map _) (List.filter_congr fun x _ => ?_)
  show p (if key x = k then f x else x) = p x
  split
  · exact hf x
  · rfl

theorem filter_eraseKey {k : κ} {xs : List α} {p : α → Bool} :
    (eraseKey key k xs).filter p = eraseKey key k (xs.filter p) :=
  List.filter_comm _ _ xs

/-- An update changes the entry that has the key, and no other. -/
theorem Keyed.updateKey_perm {xs rest : List α} (h : Keyed key xs) {x : α}
    (hperm : xs.Perm (x :: rest)) (f : α → α) :
    (Lib.updateKey key (key x) f xs).Perm (f x :: rest) := by
  have hrest : ∀ y ∈ rest, key y ≠ key x := (keyed_cons.1 ((Keyed.perm hperm).1 h)).1
  have hmap := hperm.map fun y => if key y = key x then f y else y
  rw [List.map_cons, if_pos rfl] at hmap
  exact hmap.trans (.of_eq (congrArg (f x :: ·) (updateKey_of_forall_ne hrest)))

/-- In a sum over all entries an update exchanges one summand. -/
theorem Keyed.sum_updateKey {xs : List α} (h : Keyed key xs) {x : α} (hx : x ∈ xs) (f : α → α)
    (w : α → ℕ) :
    ((Lib.updateKey key (key x) f xs).map w).sum + w x = (xs.map w).sum + w (f x) := by
  obtain ⟨before, after, hxs⟩ := List.mem_iff_append.1 hx
  have hperm : xs.Perm (x :: (before ++ after)) := hxs ▸ List.perm_middle
  have hupdate := h.updateKey_perm hperm f
  rw [(hupdate.map w).sum_eq, (hperm.map w).sum_eq, List.map_cons, List.map_cons, List.sum_cons,
    List.sum_cons]
  omega

/-- A removal takes the entry that has the key out, and no other. -/
theorem Keyed.eraseKey_perm {xs rest : List α} (h : Keyed key xs) {x : α}
    (hperm : xs.Perm (x :: rest)) : (Lib.eraseKey key (key x) xs).Perm rest := by
  have hrest : ∀ y ∈ rest, key y ≠ key x := (keyed_cons.1 ((Keyed.perm hperm).1 h)).1
  have hfilter := hperm.filter (key · ≠ key x)
  rw [List.filter_cons_of_neg (by simp)] at hfilter
  exact hfilter.trans (.of_eq (eraseKey_of_forall_ne hrest))

/-! ## Lists that are related entry by entry -/

section Related

variable {R : α → β → Prop} {key' : β → κ} {xs : List α} {ys : List β} {k : κ}

/-- Related entries are found by the same key. -/
theorem forall₂_findKey (h : List.Forall₂ R xs ys) (hkey : ∀ x y, R x y → key' y = key x) {x : α}
    (hx : findKey key k xs = some x) : ∃ y, findKey key' k ys = some y ∧ R x y := by
  induction h with
  | nil => cases hx
  | @cons x' y xs ys hR hrest ih =>
      rw [findKey_cons] at hx ⊢
      rw [hkey x' y hR]
      by_cases hk : key x' = k
      · rw [if_pos hk] at hx
        cases hx
        exact ⟨y, if_pos hk, hR⟩
      · rw [if_neg hk] at hx ⊢
        exact ih hx

/-- An update keeps lists related that does so for the entries with the key. -/
theorem forall₂_updateKey (h : List.Forall₂ R xs ys) (hkey : ∀ x y, R x y → key' y = key x)
    {f : α → α} {g : β → β} (hf : ∀ x ∈ xs, ∀ y, key x = k → R x y → R (f x) (g y)) :
    List.Forall₂ R (updateKey key k f xs) (updateKey key' k g ys) := by
  induction h with
  | nil => exact .nil
  | @cons x y xs ys hR hrest ih =>
      refine .cons ?_ (ih fun x hx => hf x (List.mem_cons_of_mem _ hx))
      beta_reduce
      rw [hkey x y hR]
      by_cases hk : key x = k
      · rw [if_pos hk, if_pos hk]
        exact hf x List.mem_cons_self y hk hR
      · rw [if_neg hk, if_neg hk]
        exact hR

theorem forall₂_eraseKey (h : List.Forall₂ R xs ys) (hkey : ∀ x y, R x y → key' y = key x) (k : κ) :
    List.Forall₂ R (eraseKey key k xs) (eraseKey key' k ys) := by
  unfold eraseKey
  induction h with
  | nil => exact .nil
  | @cons x y xs ys hR hrest ih =>
      rw [List.filter_cons, List.filter_cons, hkey x y hR]
      split
      · exact .cons hR ih
      · exact ih

end Related

end Bango.Lib
