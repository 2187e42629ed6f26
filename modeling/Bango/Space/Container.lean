import Bango.Lib.Tally
import Bango.Space.Geometry

set_option autoImplicit false

/-! # Leaf containers

`quad_entity_container<T>`: the virtual methods a leaf container `T` implements over entity pointers
`α` (`EntityContainer`), what their comments ask of an implementation (`LawfulEntityContainer`,
`ConfinedEntityContainer`), and the base class that counts how many entities stand at each position
(`QuadEntityContainer`). The tree stores pointers; `pos` reads an entity's current coordinates `m_x`,
`m_y`. -/

namespace Bango.Space

open Bango.Lib

/-- How the functions of the quadtree can fail: three thrown exceptions, two null dereferences, and
    a recursion deeper than the depth it was given. -/
inductive Fault where
  /-- `throw std::out_of_range("not in boundary")` -/
  | notInBoundary
  /-- `throw std::runtime_error("no single entity exist on this position")` -/
  | noSingleEntity
  /-- `throw std::logic_error("merge quad is leaf")` -/
  | mergeLeaf
  /-- `inner(entity)->…` with `inner` returning `nullptr` -/
  | nullInner
  /-- `_merge(nullptr)`, with the null `m_container` of an inner quad -/
  | nullContainer
  | tooDeep
deriving DecidableEq, Repr

/-- Does the fault dereference a null pointer? -/
def Fault.IsNull (f : Fault) : Prop := f = .nullInner ∨ f = .nullContainer

/-- The virtual methods of `quad_entity_container<T>`. -/
class EntityContainer (T : Type) (α : outParam Type) where
  /-- `new T` -/
  empty : T
  insert : T → α → T
  remove : T → α → T
  merge : T → T → T
  size : T → Nat
  /-- The entities in the order of `for_each`. -/
  forEach : T → List α

/-- What the quadtree relies on: each method acts on the collection `for_each` lists as its comment
    says. The order of the collection is left to the implementation. -/
class LawfulEntityContainer (T : Type) {α : Type} [EntityContainer T α] [DecidableEq α] : Prop where
  forEach_empty : EntityContainer.forEach (EntityContainer.empty : T) = []
  insert_perm (c : T) (e : α) : e ∉ EntityContainer.forEach c →
    (EntityContainer.forEach (EntityContainer.insert c e)).Perm (e :: EntityContainer.forEach c)
  remove_perm (c : T) (e : α) : (EntityContainer.forEach c).Nodup →
    (EntityContainer.forEach (EntityContainer.remove c e)).Perm
      ((EntityContainer.forEach c).erase e)
  merge_perm (c d : T) : (EntityContainer.forEach c).Disjoint (EntityContainer.forEach d) →
    (EntityContainer.forEach (EntityContainer.merge c d)).Perm
      (EntityContainer.forEach c ++ EntityContainer.forEach d)
  size_eq (c : T) : EntityContainer.size c = (EntityContainer.forEach c).length

/-- No method of the container brings in an entity it was not given. -/
class ConfinedEntityContainer (T : Type) {α : Type} [EntityContainer T α] : Prop where
  forEach_empty : EntityContainer.forEach (EntityContainer.empty : T) = []
  mem_insert {c : T} {e x : α} : x ∈ EntityContainer.forEach (EntityContainer.insert c e) →
    x = e ∨ x ∈ EntityContainer.forEach c
  mem_remove {c : T} {e x : α} : x ∈ EntityContainer.forEach (EntityContainer.remove c e) →
    x ∈ EntityContainer.forEach c
  mem_merge {c d : T} {x : α} : x ∈ EntityContainer.forEach (EntityContainer.merge c d) →
    x ∈ EntityContainer.forEach c ∨ x ∈ EntityContainer.forEach d

/-! ## The list container -/

/-- `my_custom_container` of the README, `my_container` of the tests: one `std::list`. -/
structure ListContainer (α : Type) where
  entities : List α
deriving DecidableEq, Repr

instance (α : Type) [DecidableEq α] : EntityContainer (ListContainer α) α where
  empty := ⟨[]⟩
  insert c e := ⟨c.entities ++ [e]⟩
  -- `std::list::remove` drops every copy of the pointer
  remove c e := ⟨c.entities.filter (· ≠ e)⟩
  merge c d := ⟨c.entities ++ d.entities⟩
  size c := c.entities.length
  forEach c := c.entities

instance (α : Type) [DecidableEq α] : LawfulEntityContainer (ListContainer α) where
  forEach_empty := rfl
  insert_perm c e _ := List.perm_append_singleton e c.entities
  remove_perm c e hnd := by
    simp only [EntityContainer.forEach] at hnd ⊢
    rw [hnd.erase_eq_filter e]
    exact List.Perm.of_eq (List.filter_congr fun x _ => by simp [bne, beq_eq_decide])
  merge_perm _ _ _ := List.Perm.refl _
  size_eq _ := rfl

instance (α : Type) [DecidableEq α] : ConfinedEntityContainer (ListContainer α) where
  forEach_empty := rfl
  mem_insert h := (List.mem_append.1 h).symm.imp_left List.mem_singleton.1
  mem_remove h := List.mem_of_mem_filter h
  mem_merge h := List.mem_append.1 h

/-! ## The counting base class -/

/-- `quad_entity_container<T>`: the derived container and `m_distinct_sizes`. -/
structure QuadEntityContainer (T : Type) where
  derived : T
  distinctSizes : Tally Point

namespace QuadEntityContainer

variable {T α : Type} [EntityContainer T α]

/-- `new T`. -/
def new : QuadEntityContainer T := ⟨EntityContainer.empty, ∅⟩

/-- The entities of the container, in the order of `for_each`. -/
def entities (c : QuadEntityContainer T) : List α := EntityContainer.forEach c.derived

def size (c : QuadEntityContainer T) : Nat := EntityContainer.size c.derived

/-- `distinct_size`. -/
def distinctSize (c : QuadEntityContainer T) : Nat := c.distinctSizes.size

variable (pos : α → Point)

/-- `_insert`. -/
def _insert (c : QuadEntityContainer T) (e : α) : QuadEntityContainer T where
  derived := EntityContainer.insert c.derived e
  distinctSizes := c.distinctSizes.incr (pos e)

/-- `_remove`. -/
def _remove (c : QuadEntityContainer T) (e : α) : Except Fault (QuadEntityContainer T) :=
  match c.distinctSizes.decr? (pos e) with
  | none => .error .noSingleEntity
  | some distinctSizes => .ok ⟨EntityContainer.remove c.derived e, distinctSizes⟩

/-- `_merge`; the argument is the `m_container` of a child, null when the child is no leaf. -/
def _merge (c : QuadEntityContainer T) :
    Option (QuadEntityContainer T) → Except Fault (QuadEntityContainer T)
  | none => .error .nullContainer
  | some d =>
    .ok
      { derived := EntityContainer.merge c.derived d.derived
        distinctSizes := d.entities.foldl (fun m e => m.incr (pos e)) c.distinctSizes }

/-- The container counts exactly the entities it holds, each held once. -/
structure Exact (c : QuadEntityContainer T) : Prop where
  nodup : c.entities.Nodup
  counts : c.distinctSizes.Counts (c.entities.map pos)

variable {pos} [DecidableEq α] [LawfulEntityContainer T]

@[simp]
theorem entities_new : (new : QuadEntityContainer T).entities = [] :=
  LawfulEntityContainer.forEach_empty

theorem exact_new : Exact pos (new : QuadEntityContainer T) where
  nodup := by simp
  counts := by
    rw [entities_new]
    exact Tally.counts_empty

omit [EntityContainer T α] [DecidableEq α] [LawfulEntityContainer T] in
@[simp]
theorem distinctSize_new [EntityContainer T α] :
    (new : QuadEntityContainer T).distinctSize = 0 := rfl

theorem size_eq (c : QuadEntityContainer T) : c.size = c.entities.length :=
  LawfulEntityContainer.size_eq c.derived

omit [DecidableEq α] [LawfulEntityContainer T] in
theorem Exact.distinctSize_eq {c : QuadEntityContainer T} (h : Exact pos c) :
    c.distinctSize = (c.entities.map pos).toFinset.card :=
  h.counts.size_eq

variable (pos) in
theorem entities_insert {c : QuadEntityContainer T} {e : α} (he : e ∉ c.entities) :
    (c._insert pos e).entities.Perm (e :: c.entities) :=
  LawfulEntityContainer.insert_perm c.derived e he

theorem Exact.insert {c : QuadEntityContainer T} (h : Exact pos c) {e : α} (he : e ∉ c.entities) :
    Exact pos (c._insert pos e) where
  nodup := (entities_insert pos he).nodup_iff.2 (List.nodup_cons.2 ⟨he, h.nodup⟩)
  counts := (h.counts.incr (pos e)).perm ((entities_insert pos he).map pos).symm

/-- Inserting a list of new entities. -/
theorem Exact.foldl_insert {c : QuadEntityContainer T} (h : Exact pos c) {es : List α}
    (hes : (es ++ c.entities).Nodup) :
    Exact pos (es.foldl (_insert pos) c) ∧
      (es.foldl (_insert pos) c).entities.Perm (es ++ c.entities) := by
  induction es generalizing c with
  | nil => exact ⟨h, List.Perm.refl _⟩
  | cons e es ih =>
      have hnodup := List.nodup_cons.1 hes
      have hfresh : e ∉ c.entities := fun he => hnodup.1 (List.mem_append_right es he)
      have hperm := entities_insert pos hfresh
      have hmiddle : (es ++ (c._insert pos e).entities).Perm (e :: es ++ c.entities) :=
        (hperm.append_left es).trans List.perm_middle
      obtain ⟨hexact, hall⟩ := ih (h.insert hfresh) (hmiddle.nodup_iff.2 hes)
      exact ⟨hexact, hall.trans hmiddle⟩

/-- Removing a stored entity succeeds and takes exactly that entity away. -/
theorem Exact.remove {c : QuadEntityContainer T} (h : Exact pos c) {e : α} (he : e ∈ c.entities) :
    ∃ c', c._remove pos e = .ok c' ∧ Exact pos c' ∧ c'.entities.Perm (c.entities.erase e) := by
  obtain ⟨t, ht, hcounts⟩ := h.counts.decr? (List.mem_map_of_mem (f := pos) he)
  have hperm : (EntityContainer.forEach (EntityContainer.remove c.derived e)).Perm
      (c.entities.erase e) := LawfulEntityContainer.remove_perm c.derived e h.nodup
  refine ⟨⟨EntityContainer.remove c.derived e, t⟩, by simp only [_remove, ht], ⟨?_, ?_⟩, hperm⟩
  · exact hperm.nodup_iff.2 (h.nodup.erase e)
  · refine hcounts.perm ?_
    have hmap : (c.entities.map pos).Perm (pos e :: (c.entities.erase e).map pos) :=
      (List.perm_cons_erase he).map pos
    have herase := hmap.erase (pos e)
    rw [List.erase_cons_head] at herase
    exact herase.trans (hperm.map pos).symm

/-- Merging a container with disjoint contents adds exactly its entities. -/
theorem Exact.merge {c d : QuadEntityContainer T} (hc : Exact pos c) (hd : Exact pos d)
    (hdisj : c.entities.Disjoint d.entities) :
    ∃ c', c._merge pos (some d) = .ok c' ∧ Exact pos c' ∧
      c'.entities.Perm (c.entities ++ d.entities) := by
  have hperm : (EntityContainer.forEach (EntityContainer.merge c.derived d.derived)).Perm
      (c.entities ++ d.entities) := LawfulEntityContainer.merge_perm c.derived d.derived hdisj
  refine ⟨_, rfl, ⟨?_, ?_⟩, hperm⟩
  · exact hperm.nodup_iff.2 (hc.nodup.append hd.nodup hdisj)
  · refine (hc.counts.foldl_incr pos d.entities).perm ?_
    refine List.Perm.trans ?_ (hperm.map pos).symm
    rw [List.map_append]
    exact List.perm_append_comm

end QuadEntityContainer

end Bango.Space
