import Bango.World.Proofs.Around
import Bango.World.Proofs.Loots
import Bango.World.Proofs.Views

set_option autoImplicit false

/-! # The quadtree of a map is a set

The proofs about what players see ask for a quadtree that stores a set and takes every character
inside its boundary. The server's own answers range queries as it should, but may come to a null
pointer when it divides or merges. `settled` is that tree with one leaf in place of such an end: it is
a set, and as long as the server goes on it does the same. -/

namespace Bango.World

open Bango.Lib Bango.Space

variable {maxContainerEntities : Nat} {boundary : Square} {position : Character → Point} {q : Tree}

/-- A leaf that holds a list of characters. -/
def oneLeaf (boundary : Square) (position : Character → Point) (es : List Character) : Tree :=
  .leaf boundary (es.foldl (QuadEntityContainer._insert position) .new)

theorem oneLeaf_placed {es : List Character} (hnodup : es.Nodup)
    (hinside : ∀ e ∈ es, boundary.InBoundary (position e)) :
    Quad.Placed position boundary (oneLeaf boundary position es) ∧
      (oneLeaf boundary position es).entities.Perm es := by
  have hempty : (QuadEntityContainer.new : QuadEntityContainer FiledContainer).Exact position :=
    QuadEntityContainer.exact_new
  obtain ⟨hexact, hperm⟩ := hempty.foldl_insert (by simpa using hnodup)
  rw [QuadEntityContainer.entities_new, List.append_nil] at hperm
  exact ⟨.leaf hexact fun e he => hinside e (hperm.mem_iff.1 he), hperm⟩

/-- The quadtree of a map, and one leaf where it would come to a null pointer. -/
def settled (maxContainerEntities : Nat) (boundary : Square) : Quadtree Tree where
  insert position entity q :=
    match q.insert position maxContainerEntities entity with
    | .ok q => some q
    | .error _ => some (oneLeaf boundary position (entity :: q.entities))
  remove position entity q :=
    match q.remove position maxContainerEntities entity with
    | .ok q => some q
    | .error _ => some (oneLeaf boundary position (q.entities.erase entity))
  query := (quadtree maxContainerEntities).query

/-- The tree stores the characters of the set at their positions. -/
def Stored (boundary : Square) (q : Tree) (position : Character → Point) (s : Finset Character) :
    Prop :=
  Quad.Placed position boundary q ∧ ∀ x, x ∈ q.entities ↔ x ∈ s

theorem around_settled (center : Point) (radius : Int) :
    (settled maxContainerEntities boundary).around q center radius =
      (q.query center radius).flatMap fun c => c.entities := by
  unfold Quadtree.around settled quadtree
  rw [List.flatMap_map]
  rfl

theorem isSet_settled (maxContainerEntities : Nat) (boundary : Square) :
    (settled maxContainerEntities boundary).IsSet boundary (Stored boundary) where
  congr h hsame := ⟨h.1.congr fun x hx => hsame x ((h.2 x).1 hx), h.2⟩
  insert {q position s e} h he hin := by
    have hnew : e ∉ q.entities := fun hmem => he ((h.2 e).1 hmem)
    have hstored : ∀ {q' : Tree}, Quad.Placed position boundary q' →
        q'.entities.Perm (e :: q.entities) → Stored boundary q' position (insert e s) := by
      intro q' hplaced hperm
      refine ⟨hplaced, fun x => ?_⟩
      rw [hperm.mem_iff, List.mem_cons, h.2, Finset.mem_insert]
    rcases h.1.insert_spec maxContainerEntities hnew with ⟨hout, -⟩ | ⟨-, herr | ⟨q', hok, hdone⟩⟩
    · exact absurd hin hout
    · obtain ⟨hplaced, hperm⟩ := oneLeaf_placed (List.nodup_cons.2 ⟨hnew, h.1.nodup⟩)
        (List.forall_mem_cons.2 ⟨hin, fun x hx => h.1.entity_inside hx⟩)
      exact ⟨_, by simp only [settled, herr], hstored hplaced hperm⟩
    · exact ⟨q', by simp only [settled, hok], hstored hdone.placed hdone.entities_perm⟩
  remove {q position s e} h he := by
    have hmem := (h.2 e).2 he
    have hstored : ∀ {q' : Tree}, Quad.Placed position boundary q' →
        q'.entities.Perm (q.entities.erase e) → Stored boundary q' position (s.erase e) := by
      intro q' hplaced hperm
      refine ⟨hplaced, fun x => ?_⟩
      rw [hperm.mem_iff, h.1.nodup.mem_erase_iff, h.2, Finset.mem_erase]
    rcases h.1.remove_spec maxContainerEntities hmem with herr | ⟨q', hok, hplaced, hperm⟩
    · obtain ⟨hplaced, hperm⟩ := oneLeaf_placed (h.1.nodup.erase e)
        fun x hx => h.1.entity_inside (List.mem_of_mem_erase hx)
      exact ⟨_, by simp only [settled, herr], hstored hplaced hperm⟩
    · exact ⟨q', by simp only [settled, hok], hstored hplaced hperm⟩
  complete h center radius x hx hnear := by
    obtain ⟨c, hc, hmem⟩ := h.1.exists_mem_query ((h.2 x).2 hx) hnear
    rw [around_settled]
    exact List.mem_flatMap.2 ⟨c, hc, hmem⟩
  stored {q position s} h center radius x hx := by
    rw [around_settled] at hx
    obtain ⟨c, hc, hmem⟩ := List.mem_flatMap.1 hx
    rw [← h.2, Quad.entities_eq_flatMap_leaves]
    exact List.mem_flatMap.2 ⟨c, Quad.Placed.mem_of_mem_query hc, hmem⟩
  nodup {q position s} h center radius := by
    have hnodup := h.1.nodup
    rw [Quad.entities_eq_flatMap_leafList] at hnodup
    rw [around_settled, h.1.shaped.query_eq, List.flatMap_map]
    exact (List.filter_sublist.flatMap _).nodup hnodup
  typed _ _ _ _ hc := typed_of_mem_query (show _ ∈ (quadtree maxContainerEntities).query _ _ _ from hc)

/-! ## As long as the server goes on -/

section

theorem quadtree_insert {entity : Character} {q' : Tree}
    (h : q.insert position maxContainerEntities entity = .ok q') :
    (quadtree maxContainerEntities).insert position entity q = some q' := by
  simp only [quadtree, h, Except.toOption]

theorem quadtree_remove {entity : Character} {q' : Tree}
    (h : q.remove position maxContainerEntities entity = .ok q') :
    (quadtree maxContainerEntities).remove position entity q = some q' := by
  simp only [quadtree, h, Except.toOption]

variable {m : WorldMap Tree} {entity : Character} {sight : Int}

theorem add_settled (h : m.quad.insert m.position maxContainerEntities entity = .ok q) :
    m.add (settled maxContainerEntities boundary) sight entity =
      m.add (quadtree maxContainerEntities) sight entity := by
  simp only [WorldMap.add, settled, quadtree, h, Except.toOption]

theorem remove_settled (h : m.quad.remove m.position maxContainerEntities entity = .ok q) :
    m.remove (settled maxContainerEntities boundary) sight entity false =
      m.remove (quadtree maxContainerEntities) sight entity false := by
  simp only [WorldMap.remove, settled, quadtree, h, Except.toOption]

theorem move_settled {dx dy dz : Int8} {stop : Bool} {q' : Tree}
    (hrem : m.quad.remove m.position maxContainerEntities entity = .ok q)
    (hins : q.insert (Function.update m.position entity
        ⟨(m.position entity).x + dx.toInt, (m.position entity).y + dy.toInt⟩)
      maxContainerEntities entity = .ok q') :
    m.move (settled maxContainerEntities boundary) sight entity dx dy dz stop =
      m.move (quadtree maxContainerEntities) sight entity dx dy dz stop := by
  simp only [WorldMap.move, settled, quadtree, hrem, hins, Except.toOption]

end

end Bango.World
