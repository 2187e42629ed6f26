import Bango.Space.Quadtree
import Bango.World.Container

set_option autoImplicit false

/-! # The world

`World` owns the characters and the maps. A character is registered in three places: the container of
its type in `World`, the entities of its map, and the quadtree of its map. The maps catch what their
quadtree throws; a null dereference in it ends the program (`Except`). -/

namespace Bango.World

open Bango.Lib Bango.Space

/-- `quad<Container>`. -/
abbrev Tree : Type := Quad FiledContainer

/-- `quad<Container>` as its map uses it. -/
def quadtree (maxContainerEntities : Nat) : Quadtree Tree where
  insert position entity q := (q.insert position maxContainerEntities entity).toOption
  remove position entity q := (q.remove position maxContainerEntities entity).toOption
  query q center radius := (q.query center radius).map fun c => c.derived.1

/-- `std::exception`, or a null dereference? -/
def thrown : Fault → Bool
  | .notInBoundary | .noSingleEntity | .mergeLeaf => true
  | .nullInner | .nullContainer | .tooDeep => false

/-- The `try` block around an operation of the quadtree. -/
def caught : Except Fault Tree → Except Fault (Option Tree)
  | .ok q => .ok (some q)
  | .error f => if thrown f then .ok none else .error f

/-- The `logic_error`s that `World` throws. -/
inductive LogicError where
  | alreadyPresent
  | doesNotExist
deriving DecidableEq, Repr

/-- `MAP_COUNT`. -/
abbrev mapCount : Nat := 32

/-- The map that `World::Map` takes for an id. -/
def mapOf (id : UInt8) : Fin mapCount := if h : id.toNat < mapCount then ⟨id.toNat, h⟩ else 0

/-- What `World` registers, with the characters' `m_map`, `m_x` and `m_y`. -/
structure Registry where
  quad : Fin mapCount → Tree
  entities : Fin mapCount → Finset Character
  /-- `m_players`, `m_monsters`, `m_npcs` and `m_loots` -/
  registered : Finset Character
  map : Character → UInt8
  position : Character → Point

namespace Registry

variable (maxContainerEntities : Nat) (sight : Int)

/-- The constructor: all maps are empty. -/
def new (boundary : Square) (map : Character → UInt8) (position : Character → Point) : Registry where
  quad _ := Quad.new boundary
  entities _ := ∅
  registered := ∅
  map := map
  position := position

variable (w : Registry)

/-- `Map(entity->GetMap())`. -/
def mapWith (entity : Character) : WorldMap Tree where
  quad := w.quad (mapOf (w.map entity))
  entities := w.entities (mapOf (w.map entity))
  position := w.position

/-- The map of a character has changed. -/
def setMap (entity : Character) (m : WorldMap Tree) : Registry :=
  { w with
    quad := Function.update w.quad (mapOf (w.map entity)) m.quad
    entities := Function.update w.entities (mapOf (w.map entity)) m.entities
    position := m.position }

/-- `Map(entity->GetMap()).Add(entity)`. -/
def mapAdd (entity : Character) : Except Fault Registry := do
  let m := w.mapWith entity
  let _ ← caught (m.quad.insert m.position maxContainerEntities entity)
  return w.setMap entity (m.add (quadtree maxContainerEntities) sight entity).1

/-- `Map(entity->GetMap()).Remove(entity)`. -/
def mapRemove (entity : Character) : Except Fault Registry := do
  let m := w.mapWith entity
  let _ ← caught (m.quad.remove m.position maxContainerEntities entity)
  return w.setMap entity (m.remove (quadtree maxContainerEntities) sight entity false).1

/-- Where `Move` takes a character. -/
def target (entity : Character) (deltaX deltaY : Int8) : Point :=
  ⟨(w.position entity).x + deltaX.toInt, (w.position entity).y + deltaY.toInt⟩

/-- `World::Move`. -/
def move (entity : Character) (deltaX deltaY deltaZ : Int8) (stop : Bool) : Except Fault Registry := do
  let m := w.mapWith entity
  match ← caught (m.quad.remove m.position maxContainerEntities entity) with
  | none => pure ()
  | some quad =>
    let position := Function.update m.position entity (w.target entity deltaX deltaY)
    let _ ← caught (quad.insert position maxContainerEntities entity)
  return w.setMap entity
    (m.move (quadtree maxContainerEntities) sight entity deltaX deltaY deltaZ stop).1

/-- `World::Add`. -/
def add (entity : Character) : Except Fault (Registry × Option LogicError) :=
  if entity ∈ w.registered then .ok (w, some .alreadyPresent)
  else do
    let w ← { w with registered := insert entity w.registered }.mapAdd maxContainerEntities sight entity
    return (w, none)

/-- `World::Remove`, of a player or of loot. `World::RemoveDeadMonsters` does the same for each of the
    monsters it finds dead. -/
def remove (entity : Character) : Except Fault (Registry × Option LogicError) := do
  let w ← w.mapRemove maxContainerEntities sight entity
  if entity ∈ w.registered then return ({ w with registered := w.registered.erase entity }, none)
  else return (w, some .doesNotExist)

/-- The map id after `World::Teleport` to a map that is given as an `int`. -/
def teleportMap (old : UInt8) (map : Int) : UInt8 :=
  if 0 ≤ map ∧ map < mapCount then UInt8.ofNat map.toNat else old

/-- `World::Teleport`. -/
def teleport (entity : Character) (x y : Int) (map : Int) : Except Fault Registry := do
  let w ← w.mapRemove maxContainerEntities sight entity
  let w :=
    { w with
      position := Function.update w.position entity ⟨x, y⟩
      map := Function.update w.map entity (teleportMap (w.map entity) map) }
  w.mapAdd maxContainerEntities sight entity

/-- An operation on the world. A character that is added has been given a map and a position before. -/
inductive Op where
  | add (entity : Character) (map : UInt8) (at_ : Point)
  | remove (entity : Character)
  | move (entity : Character) (deltaX deltaY deltaZ : Int8) (stop : Bool)
  | teleport (entity : Character) (x y : Int) (map : Int)
deriving DecidableEq, Repr

/-- One operation; a `logic_error` is left to the caller. -/
def step : Registry → Op → Except Fault Registry
  | w, .add entity map at_ =>
    if entity ∈ w.registered then .ok w
    else do
      let w :=
        { w with
          map := Function.update w.map entity map
          position := Function.update w.position entity at_ }
      let (w, _) ← w.add maxContainerEntities sight entity
      return w
  | w, .remove entity => do
    let (w, _) ← w.remove maxContainerEntities sight entity
    return w
  | w, .move entity deltaX deltaY deltaZ stop =>
    w.move maxContainerEntities sight entity deltaX deltaY deltaZ stop
  | w, .teleport entity x y map => w.teleport maxContainerEntities sight entity x y map

/-! ## What the registries are for -/

/-- Is the character stored in the leaf of the quadtree that its position leads to? -/
def StoredAt (q : Tree) (p : Point) (entity : Character) : Prop :=
  ∃ c, q.leafAt p = some c ∧ entity ∈ c.entities

/-- The registries agree on a character. -/
structure Agrees (w : Registry) (entity : Character) : Prop where
  entities : entity ∈ w.registered ↔ entity ∈ w.entities (mapOf (w.map entity))
  stored : entity ∈ w.registered ↔
    StoredAt (w.quad (mapOf (w.map entity))) (w.position entity) entity
  elsewhere : ∀ i ≠ mapOf (w.map entity), entity ∉ w.entities i ∧ entity ∉ (w.quad i).entities

/-- No character is stored at the position of the given one in its map. -/
def Vacant (w : Registry) (entity : Character) : Prop :=
  ∀ x ∈ (w.quad (mapOf (w.map entity))).entities, w.position x ≠ w.position entity

instance (w : Registry) (entity : Character) : Decidable (w.Vacant entity) :=
  inferInstanceAs (Decidable (∀ x ∈ _, _))

/-- The operations that keep the registries in agreement: those that take a character of the world to
    a place inside its map. On a character that is not in the world they have to do nothing, which
    takes that its position is vacant and that it is not sent into a map. -/
def Guard (boundary : Square) (w : Registry) : Op → Prop
  | .add entity _ at_ => entity ∈ w.registered ∨ boundary.InBoundary at_
  | .remove entity => entity ∈ w.registered ∨ w.Vacant entity
  | .move entity deltaX deltaY _ _ =>
    (entity ∈ w.registered ∧ boundary.InBoundary (w.target entity deltaX deltaY)) ∨
      (entity ∉ w.registered ∧ w.Vacant entity ∧ (boundary.InBoundary (w.position entity) ∨
        ¬ boundary.InBoundary (w.target entity deltaX deltaY)))
  | .teleport entity x y _ =>
    (entity ∈ w.registered ∧ boundary.InBoundary ⟨x, y⟩) ∨
      (entity ∉ w.registered ∧ w.Vacant entity ∧ ¬ boundary.InBoundary ⟨x, y⟩)

instance (boundary : Square) (w : Registry) (o : Op) : Decidable (Guard boundary w o) :=
  match o with
  | .add .. => inferInstanceAs (Decidable (_ ∨ _))
  | .remove _ => inferInstanceAs (Decidable (_ ∨ _))
  | .move .. => inferInstanceAs (Decidable (_ ∨ _))
  | .teleport .. => inferInstanceAs (Decidable (_ ∨ _))

end Registry

end Bango.World
