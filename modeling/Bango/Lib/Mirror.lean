import Mathlib.Logic.Function.Basic

set_option autoImplicit false

/-! # Mirrors

A mirror shows values of a state by key. It knows of the state only what it is told: a list of keys with
their values, of which the later ones replace the earlier ones. -/

namespace Bango.Lib

variable {κ ν : Type} [DecidableEq κ]

/-- The mirror after some updates. -/
def mirror (view : κ → Option ν) (updates : List (κ × ν)) : κ → Option ν :=
  updates.foldl (fun view update => Function.update view update.1 (some update.2)) view

/-- What the mirror shows of some keys is right; `value` tells which values are. -/
def Mirrors (value : κ → ν → Prop) (keys : κ → Prop) (view : κ → Option ν) : Prop :=
  ∀ key, keys key → ∀ v, view key = some v → value key v

theorem mirror_append (view : κ → Option ν) (updates more : List (κ × ν)) :
    mirror view (updates ++ more) = mirror (mirror view updates) more := List.foldl_append

/-- A key shows what it was last told, or what it showed before. -/
theorem mirror_cases (view : κ → Option ν) (updates : List (κ × ν)) (key : κ) :
    (∃ v, (key, v) ∈ updates ∧ mirror view updates key = some v) ∨
      key ∉ updates.map Prod.fst ∧ mirror view updates key = view key := by
  induction updates generalizing view with
  | nil => exact .inr ⟨List.not_mem_nil, rfl⟩
  | cons update updates ih =>
      rcases ih (Function.update view update.1 (some update.2)) with ⟨v, hmem, hshown⟩ | ⟨hnot, hshown⟩
      · exact .inl ⟨v, List.mem_cons_of_mem _ hmem, hshown⟩
      · by_cases hkey : key = update.1
        · subst hkey
          exact .inl ⟨update.2, List.mem_cons_self, hshown.trans (Function.update_self ..)⟩
        · refine .inr ⟨?_, hshown.trans (Function.update_of_ne hkey ..)⟩
          rw [List.map_cons, List.mem_cons]
          rintro (h | h)
          · exact hkey h
          · exact hnot h

theorem isSome_mirror {view : κ → Option ν} {key : κ} (h : (view key).isSome)
    (updates : List (κ × ν)) : (mirror view updates key).isSome := by
  rcases mirror_cases view updates key with ⟨v, -, hshown⟩ | ⟨-, hshown⟩
  · rw [hshown]
    rfl
  · rwa [hshown]

theorem isSome_mirror_of_mem {updates : List (κ × ν)} {key : κ} (h : key ∈ updates.map Prod.fst)
    (view : κ → Option ν) : (mirror view updates key).isSome := by
  rcases mirror_cases view updates key with ⟨v, -, hshown⟩ | ⟨hnot, -⟩
  · rw [hshown]
    rfl
  · exact absurd h hnot

/-- The state changes and tells the mirror: the values it tells are right, and all others stay right. -/
theorem Mirrors.update {value value' : κ → ν → Prop} {keys : κ → Prop} {view : κ → Option ν}
    {updates : List (κ × ν)} (h : Mirrors value keys view)
    (htold : ∀ update ∈ updates, keys update.1 → value' update.1 update.2)
    (hkept : ∀ key, keys key → key ∉ updates.map Prod.fst → ∀ v, value key v → value' key v) :
    Mirrors value' keys (mirror view updates) := by
  intro key hkey v hshown
  rcases mirror_cases view updates key with ⟨w, hmem, hw⟩ | ⟨hnot, hold⟩
  · rw [hw] at hshown
    rw [← Option.some.inj hshown]
    exact htold _ hmem hkey
  · exact hkept key hkey hnot v (h key hkey v (hold.symm.trans hshown))

end Bango.Lib
