import Mathlib.Algebra.BigOperators.Fin
import Bango.Space.Quadtree

set_option autoImplicit false

/-! # Well-formed trees

The shape invariant of the quadtree: boundaries halve evenly, every entity lies in the leaf `inner`
leads to and is counted there, and an inner quad holds at least `maxContainerEntities` distinct
positions. It makes `distinctSize` the number of distinct positions of the stored entities. -/

namespace Bango.Space

open Bango.Lib

namespace Quad

variable {T α : Type} [EntityContainer T α] {pos : α → Point} {maxContainerEntities : Nat}

/-- The invariant of a subtree of boundary `b`. -/
inductive WellFormed (pos : α → Point) (maxContainerEntities : Nat) : Square → Quad T → Prop where
  | leaf {b : Square} {c : QuadEntityContainer T} (exact : c.Exact pos)
      (inside : ∀ e ∈ c.entities, b.InBoundary (pos e)) :
      WellFormed pos maxContainerEntities b (leaf b c)
  | node {b : Square} {ch : Quadrant → Quad T} (wide : 1 < b.width) (even : Even b.width)
      (children : ∀ k, WellFormed pos maxContainerEntities (b.child k) (ch k))
      (routed : ∀ k, ∀ e ∈ (ch k).entities, b.inner (pos e) = some k)
      (full : maxContainerEntities ≤ (node b ch).distinctSize) :
      WellFormed pos maxContainerEntities b (node b ch)

/-! ## The children of an inner quad -/

@[simp]
theorem entities_leaf (b : Square) (c : QuadEntityContainer T) :
    (leaf b c).entities = c.entities := rfl

theorem mem_entities_node {b : Square} {ch : Quadrant → Quad T} {e : α} :
    e ∈ (node b ch).entities ↔ ∃ k, e ∈ (ch k).entities := by
  simp [entities]

/-- The entities of the children other than `k`. -/
def others (ch : Quadrant → Quad T) (k : Quadrant) : List α :=
  (Quadrant.all.erase k).flatMap fun j => (ch j).entities

/-- `inner` sees the boundaries the children were created with. -/
theorem inner_eq {T : Type} {b : Square} {ch : Quadrant → Quad T}
    (h : ∀ k, (ch k).boundary = b.child k) (p : Point) : inner ch p = b.inner p := by
  simp only [inner, Square.inner, h]

theorem entities_node_perm (b : Square) (ch : Quadrant → Quad T) (k : Quadrant) :
    (node b ch).entities.Perm ((ch k).entities ++ others ch k) := by
  have hperm : Quadrant.all.Perm (k :: Quadrant.all.erase k) :=
    List.perm_cons_erase (Quadrant.mem_all k)
  simpa [entities, others] using hperm.flatMap_right fun j => (ch j).entities

theorem others_update (ch : Quadrant → Quad T) (k : Quadrant) (q : Quad T) :
    others (Function.update ch k q) k = others ch k := by
  cases k <;> rfl

theorem entities_update_perm (b : Square) (ch : Quadrant → Quad T) (k : Quadrant) (q : Quad T) :
    (node b (Function.update ch k q)).entities.Perm (q.entities ++ others ch k) := by
  have h := entities_node_perm b (Function.update ch k q) k
  rwa [Function.update_self, others_update] at h

omit [EntityContainer T α] in
theorem distinctSize_node (b : Square) (ch : Quadrant → Quad T) :
    (node b ch).distinctSize = ∑ k, (ch k).distinctSize := by
  rw [show (Finset.univ : Finset Quadrant)
    = {.topLeft, .topRight, .bottomLeft, .bottomRight} from rfl]
  simp [distinctSize, Nat.add_assoc]

theorem mem_positions {q : Quad T} {p : Point} :
    p ∈ q.positions pos ↔ ∃ e ∈ q.entities, pos e = p := by
  simp [positions]

theorem positions_mono {q q' : Quad T} (h : ∀ e ∈ q.entities, e ∈ q'.entities) :
    q.positions pos ⊆ q'.positions pos := by
  intro p hp
  obtain ⟨e, he, rfl⟩ := mem_positions.1 hp
  exact mem_positions.2 ⟨e, h e he, rfl⟩

theorem positions_node (b : Square) (ch : Quadrant → Quad T) :
    (node b ch).positions pos = Finset.univ.biUnion fun k => (ch k).positions pos := by
  ext p
  simp only [mem_positions, mem_entities_node, Finset.mem_biUnion, Finset.mem_univ, true_and]
  constructor
  · rintro ⟨e, ⟨k, hk⟩, he⟩
    exact ⟨k, e, hk, he⟩
  · rintro ⟨k, e, hk, he⟩
    exact ⟨e, ⟨k, hk⟩, he⟩

theorem distinctSize_eq_card_of_children {b : Square} {ch : Quadrant → Quad T}
    (hsize : ∀ k, (ch k).distinctSize = ((ch k).positions pos).card)
    (hdisj : ∀ j k, j ≠ k → Disjoint ((ch j).positions pos) ((ch k).positions pos)) :
    (node b ch).distinctSize = ((node b ch).positions pos).card := by
  rw [distinctSize_node, positions_node, Finset.card_biUnion fun j _ k _ hjk => hdisj j k hjk]
  exact Finset.sum_congr rfl fun k _ => hsize k

/-- Children that are well formed and hold what `inner` sends to them. -/
structure Routed (pos : α → Point) (maxContainerEntities : Nat) (b : Square)
    (ch : Quadrant → Quad T) : Prop where
  children : ∀ k, WellFormed pos maxContainerEntities (b.child k) (ch k)
  routed : ∀ k, ∀ e ∈ (ch k).entities, b.inner (pos e) = some k

/-! ## Consequences of the invariant -/

namespace WellFormed

variable {b : Square} {q : Quad T}

theorem boundary_eq (h : WellFormed pos maxContainerEntities b q) : q.boundary = b := by
  cases h <;> rfl

theorem entity_inside (h : WellFormed pos maxContainerEntities b q) {e : α}
    (he : e ∈ q.entities) : b.InBoundary (pos e) := by
  induction h with
  | leaf _ inside => exact inside e he
  | node wide _ _ routed _ ih =>
      obtain ⟨k, hk⟩ := mem_entities_node.1 he
      exact (ih k hk).of_child (by omega)

theorem nodup (h : WellFormed pos maxContainerEntities b q) : q.entities.Nodup := by
  induction h with
  | leaf exact _ => exact exact.nodup
  | @node b ch _ _ _ routed _ ih =>
      refine List.nodup_flatMap.2 ⟨fun k _ => ih k, ?_⟩
      have hne : Quadrant.all.Pairwise (· ≠ ·) := by decide
      refine hne.imp fun {j k} hjk e hej hek => hjk ?_
      exact Option.some.inj ((routed j e hej).symm.trans (routed k e hek))

/-- Entities at one position are routed to one child. -/
theorem positions_disjoint {ch : Quadrant → Quad T}
    (routed : ∀ k, ∀ e ∈ (ch k).entities, b.inner (pos e) = some k) {j k : Quadrant} (hjk : j ≠ k) :
    Disjoint ((ch j).positions pos) ((ch k).positions pos) := by
  refine Finset.disjoint_left.2 fun p hj hk => hjk ?_
  obtain ⟨e, he, rfl⟩ := mem_positions.1 hj
  obtain ⟨f, hf, hfe⟩ := mem_positions.1 hk
  have h := routed k f hf
  rw [hfe, routed j e he] at h
  exact Option.some.inj h

/-- `distinctSize` is the number of distinct occupied positions. -/
theorem distinctSize_eq (h : WellFormed pos maxContainerEntities b q) :
    q.distinctSize = (q.positions pos).card := by
  induction h with
  | leaf exact _ => exact exact.distinctSize_eq
  | node _ _ _ routed _ ih =>
      exact distinctSize_eq_card_of_children ih fun j k => positions_disjoint routed

theorem new [DecidableEq α] [LawfulEntityContainer T] (b : Square) :
    WellFormed pos maxContainerEntities b (Quad.new b : Quad T) :=
  .leaf QuadEntityContainer.exact_new (by simp)

end WellFormed

namespace Routed

variable {b : Square} {ch : Quadrant → Quad T}

theorem inner_eq (h : Routed pos maxContainerEntities b ch) (p : Point) :
    Quad.inner ch p = b.inner p :=
  Quad.inner_eq (fun k => (h.children k).boundary_eq) p

theorem distinctSize_eq (h : Routed pos maxContainerEntities b ch) :
    (node b ch).distinctSize = ((node b ch).positions pos).card :=
  distinctSize_eq_card_of_children (fun k => (h.children k).distinctSize_eq)
    fun _ _ => WellFormed.positions_disjoint h.routed

theorem update (h : Routed pos maxContainerEntities b ch) {k : Quadrant} {q : Quad T}
    (hq : WellFormed pos maxContainerEntities (b.child k) q)
    (hroute : ∀ e ∈ q.entities, b.inner (pos e) = some k) :
    Routed pos maxContainerEntities b (Function.update ch k q) := by
  constructor <;> intro j <;> by_cases hj : j = k
  · subst hj; rwa [Function.update_self]
  · rw [Function.update_of_ne hj]; exact h.children j
  · subst hj; rwa [Function.update_self]
  · rw [Function.update_of_ne hj]; exact h.routed j

end Routed

@[simp]
theorem entities_new [DecidableEq α] [LawfulEntityContainer T] (b : Square) :
    (Quad.new b : Quad T).entities = [] :=
  QuadEntityContainer.entities_new

end Quad

end Bango.Space
