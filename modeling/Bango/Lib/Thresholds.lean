import Mathlib.Data.List.Induction
import Mathlib.Order.Lattice

set_option autoImplicit false

/-! # Thresholds

An ordered map as the list of its entries, with increasing keys. An entry whose key is above all others
comes last, and the first entry above a value is the one that the value lies below and the entry before
it does not. -/

namespace Bango.Lib

variable {α κ : Type} [LinearOrder κ]

/-- The keys increase along the list. -/
def Increasing (key : α → κ) (xs : List α) : Prop := xs.Pairwise fun x y => key x < key y

/-- `std::map::insert`: an entry whose key is there already is not inserted. -/
def insertSorted (key : α → κ) (x : α) : List α → List α
  | [] => [x]
  | y :: ys =>
    if key x < key y then x :: y :: ys
    else if key y < key x then y :: insertSorted key x ys
    else y :: ys

/-- The last key, or what an empty list has instead. -/
def lastKey (key : α → κ) (bot : κ) (xs : List α) : κ := (xs.getLast?.map key).getD bot

variable {key : α → κ} {bot k : κ} {xs before after : List α} {x : α} {p : α → Bool}

theorem insertSorted_eq_append (h : ∀ y ∈ xs, key y < key x) :
    insertSorted key x xs = xs ++ [x] := by
  induction xs with
  | nil => rfl
  | cons y ys ih =>
      have hy := h y List.mem_cons_self
      rw [insertSorted, if_neg hy.not_gt, if_pos hy, List.cons_append]
      exact congrArg (y :: ·) (ih fun z hz => h z (List.mem_cons_of_mem y hz))

theorem Increasing.append_singleton (h : Increasing key xs) (hx : ∀ y ∈ xs, key y < key x) :
    Increasing key (xs ++ [x]) := by
  refine List.pairwise_append.2 ⟨h, List.pairwise_singleton _ _, fun y hy z hz => ?_⟩
  rw [List.mem_singleton.1 hz]
  exact hx y hy

/-! ## The last key -/

omit [LinearOrder κ] in
@[simp]
theorem lastKey_append_singleton : lastKey key bot (xs ++ [x]) = key x := by
  rw [lastKey, List.getLast?_concat]
  rfl

theorem Increasing.key_le_lastKey (h : Increasing key xs) (bot : κ) (hx : x ∈ xs) :
    key x ≤ lastKey key bot xs := by
  induction xs using List.reverseRecOn with
  | nil => cases hx
  | append_singleton ys y _ =>
      rw [lastKey_append_singleton]
      rcases List.mem_append.1 hx with hbefore | hlast
      · exact ((List.pairwise_append.1 h).2.2 x hbefore y List.mem_cons_self).le
      · rw [List.mem_singleton.1 hlast]

omit [LinearOrder κ] in
theorem lastKey_eq_or (key : α → κ) (bot : κ) (xs : List α) :
    (xs = [] ∧ lastKey key bot xs = bot) ∨ ∃ x ∈ xs, lastKey key bot xs = key x := by
  induction xs using List.reverseRecOn with
  | nil => exact .inl ⟨rfl, rfl⟩
  | append_singleton ys y _ =>
      exact .inr ⟨y, List.mem_append_right _ List.mem_cons_self, lastKey_append_singleton⟩

/-- No key is above a value when the last one is not. -/
theorem Increasing.forall_le_iff (h : Increasing key xs) (hbot : bot ≤ k) :
    (∀ x ∈ xs, key x ≤ k) ↔ lastKey key bot xs ≤ k := by
  constructor
  · intro hall
    rcases lastKey_eq_or key bot xs with ⟨-, heq⟩ | ⟨x, hx, heq⟩
    · rwa [heq]
    · rw [heq]
      exact hall x hx
  · exact fun hlast x hx => (h.key_le_lastKey bot hx).trans hlast

/-! ## The first entry above a value -/

theorem find?_eq_none_iff_le (hp : ∀ y, p y = true ↔ k < key y) :
    xs.find? p = none ↔ ∀ y ∈ xs, key y ≤ k := by
  rw [List.find?_eq_none]
  exact forall₂_congr fun y _ => by rw [hp, not_lt]

theorem Increasing.find?_eq_some_iff (h : Increasing key (before ++ x :: after))
    (hp : ∀ y, p y = true ↔ k < key y) :
    (before ++ x :: after).find? p = some x ↔ (∀ y ∈ before, key y ≤ k) ∧ k < key x := by
  constructor
  · intro hfind
    refine ⟨(find?_eq_none_iff_le hp).1 ?_, (hp x).1 (List.find?_some hfind)⟩
    rw [List.find?_append] at hfind
    cases hbefore : before.find? p with
    | none => rfl
    | some y =>
        -- the entry itself would stand twice in the list
        rw [hbefore, Option.some_or, Option.some.injEq] at hfind
        have hmem : x ∈ before := hfind ▸ List.mem_of_find?_eq_some hbefore
        have hlt := (List.pairwise_append.1 h).2.2 x hmem x List.mem_cons_self
        exact absurd hlt (lt_irrefl _)
  · rintro ⟨hbefore, hx⟩
    rw [List.find?_append, (find?_eq_none_iff_le hp).2 hbefore, Option.none_or,
      List.find?_cons_of_pos ((hp x).2 hx)]

end Bango.Lib
