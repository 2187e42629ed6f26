import Mathlib.Data.Finset.Dedup
import Bango.Space.Proofs.MergeSafety

set_option autoImplicit false

/-! # The tree as a multiset

What the quadtree is for: it stores a multiset of entities. `Represents` says how a tree shows that
multiset, and every run that dereferences no null pointer ends in a tree that represents the inserted
entities without the removed ones. -/

namespace Bango.Space.Quad

open Bango.Lib

variable {T α : Type} [EntityContainer T α] {pos : α → Point} {maxContainerEntities : Nat}

/-- The tree `q` stores the multiset `m`. -/
structure Represents [DecidableEq α] (pos : α → Point) (q : Quad T) (m : Multiset α) : Prop where
  /-- The leaves hold the elements of `m`, each as often as `m` does. -/
  contents : (q.leaves.flatMap (·.entities) : Multiset α) = m
  /-- Following `inner` from the root leads to the entity, -/
  reached : ∀ e ∈ m, ∃ c ∈ q.leaves, q.leafAt (pos e) = some c ∧ e ∈ c.entities
  /-- and no other leaf holds it. -/
  once : ∀ e ∈ m, q.leaves.countP (fun c => e ∈ c.entities) = 1
  size_eq : q.size = m.card
  /-- Each leaf counts its entities by position and has no entry for a position it holds none at. -/
  counts : ∀ c ∈ q.leaves, c.distinctSizes.Counts (c.entities.map pos)
  distinctSize_eq : q.distinctSize = (m.map pos).toFinset.card

/-! ## Leaves of a well-formed tree -/

theorem entities_eq_flatMap_leaves (q : Quad T) : q.entities = q.leaves.flatMap (·.entities) := by
  induction q with
  | leaf b c => simp [leaves]
  | node b ch ih =>
      simp only [entities, leaves, List.flatMap_assoc]
      exact List.flatMap_congr fun k _ => ih k

/-- An entity stored in a leaf of a duplicate-free tree is stored in no other leaf. -/
theorem countP_leaves_of_nodup [DecidableEq α] {l : List (QuadEntityContainer T)} {e : α}
    (hnodup : (l.flatMap (·.entities)).Nodup) (he : e ∈ l.flatMap (·.entities)) :
    l.countP (fun c => e ∈ c.entities) = 1 := by
  induction l with
  | nil => cases he
  | cons c l ih =>
      rw [List.flatMap_cons] at hnodup he
      obtain ⟨-, hrest, hdisj⟩ := List.nodup_append.1 hnodup
      by_cases hc : e ∈ c.entities
      · have hnone : l.countP (fun c => e ∈ c.entities) = 0 := by
          rw [List.countP_eq_zero]
          intro d hd hmem
          exact hdisj e hc e (List.mem_flatMap.2 ⟨d, hd, of_decide_eq_true hmem⟩) rfl
        rw [List.countP_cons_of_pos (by simpa using hc), hnone]
      · rw [List.countP_cons_of_neg (by simpa using hc)]
        exact ih hrest ((List.mem_append.1 he).resolve_left hc)

namespace WellFormed

variable {b : Square} {q : Quad T}

theorem counts (h : WellFormed pos maxContainerEntities b q) :
    ∀ c ∈ q.leaves, c.distinctSizes.Counts (c.entities.map pos) := by
  induction h with
  | leaf exact _ =>
      intro c hc
      rw [List.mem_singleton.1 hc]
      exact exact.counts
  | node _ _ _ _ _ ih =>
      intro c hc
      obtain ⟨k, -, hk⟩ := List.mem_flatMap.1 hc
      exact ih k c hk

/-- Following `inner` finds every stored entity. -/
theorem leafAt (h : WellFormed pos maxContainerEntities b q) {e : α} (he : e ∈ q.entities) :
    ∃ c ∈ q.leaves, q.leafAt (pos e) = some c ∧ e ∈ c.entities := by
  induction h with
  | @leaf _ c _ _ => exact ⟨c, List.mem_singleton_self c, rfl, he⟩
  | @node b ch _ _ children routed _ ih =>
      obtain ⟨k, hk⟩ := mem_entities_node.1 he
      obtain ⟨c, hc, hat, hec⟩ := ih k hk
      refine ⟨c, List.mem_flatMap.2 ⟨k, Quadrant.mem_all k, hc⟩, ?_, hec⟩
      have hinner := inner_eq (fun k => (children k).boundary_eq) (pos e)
      rw [routed k e hk] at hinner
      simp only [Quad.leafAt, hinner]
      exact hat

theorem size_eq [DecidableEq α] [LawfulEntityContainer T]
    (h : WellFormed pos maxContainerEntities b q) : q.size = q.entities.length := by
  induction h with
  | @leaf _ c _ _ => exact c.size_eq
  | node _ _ _ _ _ ih =>
      simp [size, entities, Quadrant.all, ih]
      omega

/-- A well-formed tree represents the multiset of its entities. -/
theorem represents [DecidableEq α] [LawfulEntityContainer T]
    (h : WellFormed pos maxContainerEntities b q) : q.Represents pos (q.entities : Multiset α) where
  contents := by rw [entities_eq_flatMap_leaves]
  reached := fun e he => h.leafAt (Multiset.mem_coe.1 he)
  once := by
    intro e he
    rw [Multiset.mem_coe, entities_eq_flatMap_leaves] at he
    have hnodup := h.nodup
    rw [entities_eq_flatMap_leaves] at hnodup
    exact countP_leaves_of_nodup hnodup he
  size_eq := h.size_eq
  counts := h.counts
  distinctSize_eq := h.distinctSize_eq

end WellFormed

/-! ## Runs -/

/-- A run ends in a well-formed tree of the entities its operations leave in the multiset. -/
theorem entities_of_run [DecidableEq α] [LawfulEntityContainer T] {b : Square} {q : Quad T}
    {ops : List (Op α)} (hw : HalvesEvenly maxContainerEntities b.width)
    (hadm : Admissible (step pos maxContainerEntities) (Guard pos) (new b : Quad T) ops)
    (hrun : run (step pos maxContainerEntities) (new b : Quad T) ops = .ok q) :
    (q.entities : Multiset α) = stored ops := by
  induction ops using List.reverseRecOn generalizing q with
  | nil =>
      rw [run_nil] at hrun
      rw [← Except.ok.inj hrun, entities_new]
      rfl
  | append_singleton ops o ih =>
      cases hbefore : run (step pos maxContainerEntities) (new b : Quad T) ops with
      | error f =>
          rw [run_append_error [o] hbefore] at hrun
          cases hrun
      | ok r =>
          have hwf := wellFormed_of_run hw hadm.of_append hbefore
          have hguard := (hadm.append hbefore).1
          rw [run_append_ok [o] hbefore] at hrun
          have hstep : step pos maxContainerEntities r o = .ok q := run_singleton.1 hrun
          rw [stored_append_singleton, ← ih hadm.of_append hbefore]
          exact (hwf.step_ok hw hguard hstep).2

/-- A run over a list-backed tree whose root width is a power of two, and that dereferences no null
    pointer, does not fail, and after each of its operations the tree represents the inserted
    entities without the removed ones. -/
theorem represents_stored [DecidableEq α] {n : Nat} {b : Square} (hw : b.width = 2 ^ n)
    {ops : List (Op α)}
    (hadm : Admissible (step pos maxContainerEntities) (Guard pos)
      (new b : Quad (ListContainer α)) ops)
    (hnull : ∀ f, run (step pos maxContainerEntities) (new b : Quad (ListContainer α)) ops =
      .error f → ¬ f.IsNull) :
    ∀ before after, ops = before ++ after →
      ∃ q, run (step pos maxContainerEntities) (new b : Quad (ListContainer α)) before = .ok q ∧
        q.Represents pos (stored before) := by
  have hhalves : HalvesEvenly maxContainerEntities b.width := hw ▸ .of_two_pow n
  intro before after hops
  rw [hops] at hadm hnull
  cases hrun : run (step pos maxContainerEntities) (new b : Quad (ListContainer α)) before with
  | error f =>
      have hf := ((run_error_iff hhalves hadm.of_append).1 hrun).1
      exact absurd (.inr hf) (hnull f (run_append_error after hrun))
  | ok q =>
      refine ⟨q, rfl, ?_⟩
      rw [← entities_of_run hhalves hadm.of_append hrun]
      exact (wellFormed_of_run hhalves hadm.of_append hrun).represents

theorem represents_sharedCorner :
    ∃ q, run (step sharedCorner 2) (new ⟨⟨0, 0⟩, 2 ^ 2⟩ : Quad (ListContainer Nat))
        [.insert 0, .insert 1, .insert 2] = .ok q ∧
      q.Represents sharedCorner (stored [.insert 0, .insert 1, .insert 2]) :=
  represents_stored rfl (by decide : Admissible (step sharedCorner 2) (Guard sharedCorner) _
      [.insert 0, .insert 1, .insert 2, .remove 2])
    (by
      intro f hf hnull
      rcases hnull with rfl | rfl
      · revert hf
        decide
      · revert hf
        decide)
    _ [.remove 2] rfl

end Bango.Space.Quad
