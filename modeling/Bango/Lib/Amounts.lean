import Bango.Lib.Keyed

set_option autoImplicit false

/-! # Amounts under keys

A map whose values are only ever added to, as the list of its entries: a key that has none yet starts
from zero. -/

namespace Bango.Lib

variable {κ β : Type} [DecidableEq κ] [Zero β] [Add β]

/-- The amount under a key. -/
def amountAt (k : κ) (xs : List (κ × β)) : β :=
  match findKey Prod.fst k xs with
  | some x => x.2
  | none => 0

/-- `m[k] += a`. -/
def addAt (k : κ) (a : β) (xs : List (κ × β)) : List (κ × β) :=
  match findKey Prod.fst k xs with
  | some _ => updateKey Prod.fst k (fun x => (x.1, x.2 + a)) xs
  | none => xs ++ [(k, 0 + a)]

variable {k : κ} {a : β} {xs : List (κ × β)}

theorem Keyed.addAt (h : Keyed Prod.fst xs) : Keyed Prod.fst (addAt k a xs) := by
  unfold Lib.addAt
  cases hfind : findKey Prod.fst k xs with
  | some x => exact h.updateKey fun _ => rfl
  | none =>
      refine (Keyed.perm (List.perm_append_singleton _ _)).2 (keyed_cons.2 ⟨?_, h⟩)
      exact ne_of_findKey_eq_none hfind

/-- Only the amount under the key is changed. -/
theorem amountAt_addAt (j : κ) :
    amountAt j (addAt k a xs) = if j = k then amountAt k xs + a else amountAt j xs := by
  unfold addAt
  cases hfind : findKey Prod.fst k xs with
  | some x =>
      unfold amountAt
      dsimp only
      rw [findKey_updateKey (f := fun x => (x.1, x.2 + a)) (fun _ => rfl)]
      by_cases hj : j = k
      · rw [if_pos hj, if_pos hj, hj, hfind]
        rfl
      · rw [if_neg hj, if_neg hj]
  | none =>
      have happend : findKey Prod.fst j (xs ++ [(k, 0 + a)]) =
          (findKey Prod.fst j xs).or (if k = j then some (k, 0 + a) else none) := by
        unfold findKey
        rw [List.find?_append, List.find?_singleton]
        simp
      unfold amountAt
      dsimp only
      rw [happend]
      by_cases hj : j = k
      · subst hj
        rw [hfind, if_pos rfl, if_pos rfl]
        rfl
      · rw [if_neg (Ne.symm hj), if_neg hj, Option.or_none]

/-- The keys are those there were, and the one that was added to. -/
theorem mem_keys_addAt {j : κ} :
    j ∈ (addAt k a xs).map Prod.fst ↔ j = k ∨ j ∈ xs.map Prod.fst := by
  unfold addAt
  cases hfind : findKey Prod.fst k xs with
  | some x =>
      have hk : k ∈ xs.map Prod.fst :=
        List.mem_map.2 ⟨x, mem_of_findKey hfind, key_of_findKey hfind⟩
      dsimp only
      rw [map_updateKey (f := fun x => (x.1, x.2 + a)) (fun _ => rfl)]
      constructor
      · exact .inr
      · rintro (rfl | hj)
        · exact hk
        · exact hj
  | none => simp [or_comm]

/-- What a sum over all amounts becomes. -/
theorem sum_addAt {f : β → ℕ} (hf : f 0 = 0) (h : Keyed Prod.fst xs) :
    ((addAt k a xs).map fun x => f x.2).sum + f (amountAt k xs) =
      (xs.map fun x => f x.2).sum + f (amountAt k xs + a) := by
  unfold addAt amountAt
  cases hfind : findKey Prod.fst k xs with
  | some x =>
      have hkey : x.1 = k := key_of_findKey hfind
      dsimp only
      rw [← hkey]
      exact h.sum_updateKey (mem_of_findKey hfind) (fun x => (x.1, x.2 + a)) fun x => f x.2
  | none => simp [hf]

/-! ## Adding up a list -/

/-- The amounts of a list, added up key by key. -/
def gather (xs : List (κ × β)) : List (κ × β) := xs.foldl (fun m x => addAt x.1 x.2 m) []

/-- Under a key are the amounts that the list has for it, in their order. -/
theorem amountAt_gather :
    amountAt k (gather xs) = ((xs.filter fun x => x.1 = k).map Prod.snd).foldl (· + ·) 0 := by
  suffices h : ∀ m : List (κ × β), amountAt k (xs.foldl (fun m x => addAt x.1 x.2 m) m) =
      ((xs.filter fun x => x.1 = k).map Prod.snd).foldl (· + ·) (amountAt k m) by
    exact h []
  induction xs with
  | nil => intro m; rfl
  | cons x xs ih =>
      intro m
      rw [List.foldl_cons, ih, amountAt_addAt]
      by_cases hx : x.1 = k
      · rw [List.filter_cons_of_pos (by simpa using hx), if_pos hx.symm, hx]
        rfl
      · rw [List.filter_cons_of_neg (by simpa using hx), if_neg (Ne.symm hx)]

theorem mem_keys_gather : k ∈ (gather xs).map Prod.fst ↔ k ∈ xs.map Prod.fst := by
  suffices h : ∀ m : List (κ × β), k ∈ (xs.foldl (fun m x => addAt x.1 x.2 m) m).map Prod.fst ↔
      k ∈ xs.map Prod.fst ∨ k ∈ m.map Prod.fst by
    simpa [gather] using h []
  induction xs with
  | nil => simp
  | cons x xs ih =>
      intro m
      rw [List.foldl_cons, ih, mem_keys_addAt, List.map_cons, List.mem_cons]
      tauto

end Bango.Lib
