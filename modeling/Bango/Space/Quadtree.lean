import Mathlib.Data.Multiset.AddSub
import Bango.Lib.Runs
import Bango.Space.Container

set_option autoImplicit false

/-! # The quadtree

`bango::space::quad<T>` of `quadtree.h`, with `DUPLICATES_SAFE` defined. A quad is a leaf with a
container or an inner quad with four children; `m_container` is null exactly in the inner ones. The
calls through `m_parent` happen on the way back from the recursion: a function that may call
`m_parent->merge()` returns whether it does. `m_max_container_entities`, the same in every quad of a
tree, is a parameter. -/

namespace Bango.Space

open Bango.Lib

/-- `quad<T>`. -/
inductive Quad (T : Type) where
  | leaf (boundary : Square) (container : QuadEntityContainer T)
  | node (boundary : Square) (children : Quadrant → Quad T)

namespace Quad

variable {T α : Type}

/-- `m_boundary`. -/
def boundary : Quad T → Square
  | leaf b _ => b
  | node b _ => b

/-- `m_container`. -/
def container? : Quad T → Option (QuadEntityContainer T)
  | leaf _ c => some c
  | node _ _ => none

/-- `is_leaf`. -/
def IsLeaf (q : Quad T) : Prop := q.container? ≠ none

theorem isLeaf_leaf (b : Square) (c : QuadEntityContainer T) : (leaf b c).IsLeaf :=
  Option.some_ne_none c

theorem not_isLeaf_node (b : Square) (ch : Quadrant → Quad T) : ¬ (node b ch).IsLeaf :=
  fun h => h rfl

instance (q : Quad T) : Decidable q.IsLeaf :=
  match q with
  | leaf b c => isTrue (isLeaf_leaf b c)
  | node b ch => isFalse (not_isLeaf_node b ch)

/-- `distinct_size`. -/
def distinctSize : Quad T → Nat
  | leaf _ c => c.distinctSize
  | node _ ch =>
    (ch .topLeft).distinctSize + (ch .topRight).distinctSize + (ch .bottomLeft).distinctSize +
      (ch .bottomRight).distinctSize

/-- `inner`, from the four children: the first one whose closed boundary holds the point, or null. -/
def inner (ch : Quadrant → Quad T) (p : Point) : Option Quadrant :=
  Quadrant.all.find? fun k => decide ((ch k).boundary.InBoundary p)

variable [EntityContainer T α]

/-- The constructor: an empty leaf. -/
def new (b : Square) : Quad T := leaf b .new

/-- `size`. -/
def size : Quad T → Nat
  | leaf _ c => c.size
  | node _ ch => (ch .topLeft).size + (ch .topRight).size + (ch .bottomLeft).size +
      (ch .bottomRight).size

variable (pos : α → Point) (maxContainerEntities : Nat)

/-- `inner(entity)->insert(entity)`, for a given `insert` of the children. -/
def insertInner (insert : Quad T → α → Except Fault (Quad T)) (ch : Quadrant → Quad T) (e : α) :
    Except Fault (Quadrant → Quad T) :=
  match inner ch (pos e) with
  | none => .error .nullInner
  | some k =>
    match insert (ch k) e with
    | .ok q => .ok (Function.update ch k q)
    | .error f => .error f

/-- `insert`, for a recursion of at most the given depth. -/
def insertWithin : Nat → Quad T → α → Except Fault (Quad T)
  | 0, _, _ => .error .tooDeep
  | depth + 1, q, e =>
    if q.boundary.InBoundary (pos e) then
      match q with
      | node b ch =>
        match insertInner pos (insertWithin depth) ch e with
        | .ok ch => .ok (node b ch)
        | .error f => .error f
      | leaf b c =>
        if c.distinctSize < maxContainerEntities then .ok (leaf b (c._insert pos e))
        else if ¬ b.CanSubdivide then .ok (leaf b (c._insert pos e))
        else
          -- subdivision: the stored entities move to the new children, then the new one follows
          match run (insertInner pos (insertWithin depth)) (fun k => new (b.child k))
              (c.entities ++ [e]) with
          | .ok ch => .ok (node b ch)
          | .error f => .error f
    else .error .notInBoundary

variable {pos maxContainerEntities} in
theorem insertWithin_node {depth : Nat} {b : Square} {e : α} (he : b.InBoundary (pos e))
    (ch : Quadrant → Quad T) :
    insertWithin pos maxContainerEntities (depth + 1) (node b ch) e =
      match insertInner pos (insertWithin pos maxContainerEntities depth) ch e with
      | .ok ch => .ok (node b ch)
      | .error f => .error f := by
  have hin : (node b ch).boundary.InBoundary (pos e) := he
  simp only [insertWithin, if_pos hin]

variable {pos maxContainerEntities} in
/-- A leaf takes the entity while it has room, and always when it cannot be divided. -/
theorem insertWithin_store {depth : Nat} {b : Square} {c : QuadEntityContainer T} {e : α}
    (he : b.InBoundary (pos e)) (h : c.distinctSize < maxContainerEntities ∨ ¬ b.CanSubdivide) :
    insertWithin pos maxContainerEntities (depth + 1) (leaf b c) e =
      .ok (leaf b (c._insert pos e)) := by
  have hin : (leaf b c).boundary.InBoundary (pos e) := he
  simp only [insertWithin, if_pos hin]
  by_cases hroom : c.distinctSize < maxContainerEntities
  · rw [if_pos hroom]
  · rw [if_neg hroom, if_pos (h.resolve_left hroom)]

variable {pos maxContainerEntities} in
theorem insertWithin_divide {depth : Nat} {b : Square} {c : QuadEntityContainer T} {e : α}
    (he : b.InBoundary (pos e)) (hfull : maxContainerEntities ≤ c.distinctSize)
    (hsub : b.CanSubdivide) :
    insertWithin pos maxContainerEntities (depth + 1) (leaf b c) e =
      match run (insertInner pos (insertWithin pos maxContainerEntities depth))
        (fun k => new (b.child k)) (c.entities ++ [e]) with
      | .ok ch => .ok (node b ch)
      | .error f => .error f := by
  have hin : (leaf b c).boundary.InBoundary (pos e) := he
  simp only [insertWithin, if_pos hin]
  rw [if_neg (Nat.not_lt.2 hfull), if_neg (not_not_intro hsub)]

/-- `insert`. Each level halves the width, so the width bounds the depth. -/
def insert (q : Quad T) (e : α) : Except Fault (Quad T) :=
  insertWithin pos maxContainerEntities (q.boundary.width.toNat + 1) q e

/-- The container `merge` makes out of the four children's. -/
def mergeChildren (ch : Quadrant → Quad T) : Except Fault (QuadEntityContainer T) :=
  run (fun c k => c._merge pos (ch k).container?) .new Quadrant.all

/-- `merge`, with the decision to call `m_parent->merge()`. -/
def merge : Quad T → Except Fault (Quad T × Bool)
  | leaf _ _ => .error .mergeLeaf
  | node b ch =>
    if (node b ch).distinctSize > maxContainerEntities then .ok (node b ch, false)
    else
      match mergeChildren pos ch with
      | .ok c => .ok (leaf b c, true)
      | .error f => .error f

/-- `remove`, with the decision to call `m_parent->merge()`. -/
def removeRec : Quad T → α → Except Fault (Quad T × Bool)
  | leaf b c, e =>
    if b.InBoundary (pos e) then
      match c._remove pos e with
      | .ok c => .ok (leaf b c, true)
      | .error f => .error f
    else .ok (leaf b c, false)
  | node b ch, e =>
    if b.InBoundary (pos e) then
      match inner ch (pos e) with
      | none => .error .nullInner
      | some k =>
        match removeRec (ch k) e with
        | .ok (q, true) => merge pos maxContainerEntities (node b (Function.update ch k q))
        | .ok (q, false) => .ok (node b (Function.update ch k q), false)
        | .error f => .error f
    else .ok (node b ch, false)

/-- `remove`, called on the root, which has no parent to merge. -/
def remove (q : Quad T) (e : α) : Except Fault (Quad T) :=
  match removeRec pos maxContainerEntities q e with
  | .ok (q, _) => .ok q
  | .error f => .error f

/-- `query`: the containers that are handed to the callback, in their order. -/
def query : Quad T → Point → Int → List (QuadEntityContainer T)
  | leaf b c, p, radius => if b.Meets (.around p radius) then [c] else []
  | node b ch, p, radius =>
    if b.Meets (.around p radius) then Quadrant.all.flatMap fun k => (ch k).query p radius else []

/-- An operation on the tree. -/
inductive Op (α : Type) where
  | insert (e : α)
  | remove (e : α)

def step (q : Quad T) : Op α → Except Fault (Quad T)
  | .insert e => insert pos maxContainerEntities q e
  | .remove e => remove pos maxContainerEntities q e

/-! ## What a tree holds -/

/-- The stored entities, leaf by leaf. -/
def entities : Quad T → List α
  | leaf _ c => c.entities
  | node _ ch => Quadrant.all.flatMap fun k => (ch k).entities

/-- The positions of the stored entities. -/
def positions (q : Quad T) : Finset Point := (q.entities.map pos).toFinset

/-- The containers of the leaves. -/
def leaves : Quad T → List (QuadEntityContainer T)
  | leaf _ c => [c]
  | node _ ch => Quadrant.all.flatMap fun k => (ch k).leaves

/-- The quad itself and all quads below it. -/
def quads : Quad T → List (Quad T)
  | leaf b c => [leaf b c]
  | node b ch => node b ch :: Quadrant.all.flatMap fun k => (ch k).quads

/-- The container reached from a quad by following `inner`. -/
def leafAt : Quad T → Point → Option (QuadEntityContainer T)
  | leaf _ c, _ => some c
  | node _ ch, p =>
    match inner ch p with
    | none => none
    | some k => (ch k).leafAt p

/-- The runs considered: entities are inserted inside the boundary and not while they are stored,
    and removed while they are stored. -/
def Guard (q : Quad T) : Op α → Prop
  | .insert e => q.boundary.InBoundary (pos e) ∧ e ∉ q.entities
  | .remove e => e ∈ q.entities

instance [DecidableEq α] (q : Quad T) (o : Op α) : Decidable (Guard pos q o) :=
  match o with
  | .insert _ => inferInstanceAs (Decidable (_ ∧ _))
  | .remove _ => inferInstanceAs (Decidable (_ ∈ _))

/-! ## What a tree is for: a multiset of entities -/

variable [DecidableEq α]

/-- The multiset after one operation. -/
def Op.apply (m : Multiset α) : Op α → Multiset α
  | .insert e => e ::ₘ m
  | .remove e => m.erase e

/-- The inserted entities without the removed ones. -/
def stored (ops : List (Op α)) : Multiset α := ops.foldl Op.apply 0

omit [EntityContainer T α] in
theorem stored_append_singleton (ops : List (Op α)) (o : Op α) :
    stored (ops ++ [o]) = o.apply (stored ops) := by
  unfold stored
  rw [List.foldl_append]
  rfl

end Quad

end Bango.Space
