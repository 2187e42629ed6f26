import Bango.World.Around

set_option autoImplicit false

/-! # What the players of the world see

The operations of `World` on its maps and quadtrees, with the callbacks that they make, delivered one
by one to the players' views. A player that is taken off a map, to leave the world or on its way to
another place, has its view discarded. -/

namespace Bango.World

open Bango.Lib Bango.Space

/-- The registries, and what the clients show. -/
structure Watching where
  registry : Registry
  views : Views

/-- Why there is no next state. -/
inductive Watching.Stop where
  /-- a null dereference in a quadtree -/
  | fault (fault : Fault)
  /-- a callback that a client does not expect -/
  | view (fault : ViewFault)
deriving DecidableEq, Repr

/-- Is the character one that the player is to see: another one, but no loot, on the same map and in
    sight? -/
structure Registry.InView (w : Registry) (sight : Int) (player entity : Character) : Prop where
  player_mem : player ∈ w.registered
  entity_mem : entity ∈ w.registered
  ne : player ≠ entity
  kind : player.kind = .player
  not_loot : entity.kind ≠ .loot
  same_map : mapOf (w.map player) = mapOf (w.map entity)
  near : (w.position player).distance (w.position entity) ≤ sight

namespace Watching

variable (maxContainerEntities : Nat) (sight : Int) (s : Watching)

/-- No character has entered the world yet. -/
def new (boundary : Square) (map : Character → UInt8) (position : Character → Point) : Watching where
  registry := .new boundary map position
  views := ∅

/-- The callbacks reach the clients. -/
def deliverAll (events : List Event) : Except Stop Views :=
  (run deliver s.views events).mapError .view

/-- `Map(entity->GetMap()).Add(entity)`. -/
def mapAdd (entity : Character) : Except Stop Watching := do
  let registry ← (s.registry.mapAdd maxContainerEntities sight entity).mapError .fault
  let map := s.registry.mapWith entity
  let views ← s.deliverAll (map.add (quadtree maxContainerEntities) sight entity).2
  return ⟨registry, views⟩

/-- `Map(entity->GetMap()).Remove(entity)`. -/
def mapRemove (entity : Character) : Except Stop Watching := do
  let registry ← (s.registry.mapRemove maxContainerEntities sight entity).mapError .fault
  let map := s.registry.mapWith entity
  let views ← s.deliverAll (map.remove (quadtree maxContainerEntities) sight entity false).2
  return ⟨registry, views.filter fun v => v.1 ≠ entity⟩

/-- `World::Move`. -/
def move (entity : Character) (deltaX deltaY deltaZ : Int8) (stop : Bool) : Except Stop Watching := do
  let registry ← (s.registry.move maxContainerEntities sight entity deltaX deltaY deltaZ
    stop).mapError .fault
  let map := s.registry.mapWith entity
  let views ← s.deliverAll
    (map.move (quadtree maxContainerEntities) sight entity deltaX deltaY deltaZ stop).2
  return ⟨registry, views⟩

/-- A character is about to be added. -/
def enter (entity : Character) (map : UInt8) (at_ : Point) : Watching :=
  { s with
    registry :=
      { s.registry with
        registered := insert entity s.registry.registered
        map := Function.update s.registry.map entity map
        position := Function.update s.registry.position entity at_ } }

/-- A character has been taken off its map. -/
def leave (entity : Character) : Watching :=
  { s with registry := { s.registry with registered := s.registry.registered.erase entity } }

/-- `World::Teleport`, between the two maps. -/
def relocate (entity : Character) (x y : Int) (map : Int) : Watching :=
  { s with
    registry :=
      { s.registry with
        position := Function.update s.registry.position entity ⟨x, y⟩
        map := Function.update s.registry.map entity
          (Registry.teleportMap (s.registry.map entity) map) } }

/-- One operation. The `logic_error`s of `World` leave everything as it is. -/
def step : Registry.Op → Except Stop Watching
  | .add entity map at_ =>
    if entity ∈ s.registry.registered then .ok s
    else (s.enter entity map at_).mapAdd maxContainerEntities sight entity
  | .remove entity => do
    let s ← s.mapRemove maxContainerEntities sight entity
    return s.leave entity
  | .move entity deltaX deltaY deltaZ stop =>
    s.move maxContainerEntities sight entity deltaX deltaY deltaZ stop
  | .teleport entity x y map => do
    let s ← s.mapRemove maxContainerEntities sight entity
    (s.relocate entity x y map).mapAdd maxContainerEntities sight entity

/-- The callers of `World` add characters at places of the map, and move, teleport and remove those
    that are in the world, to places of the map. -/
def Guard (boundary : Square) (s : Watching) : Registry.Op → Prop
  | .add _ _ at_ => boundary.InBoundary at_
  | .remove entity => entity ∈ s.registry.registered
  | .move entity deltaX deltaY _ _ =>
    entity ∈ s.registry.registered ∧ boundary.InBoundary (s.registry.target entity deltaX deltaY)
  | .teleport entity x y _ => entity ∈ s.registry.registered ∧ boundary.InBoundary ⟨x, y⟩

instance (boundary : Square) (o : Registry.Op) : Decidable (s.Guard boundary o) :=
  match o with
  | .add .. => inferInstanceAs (Decidable (boundary.InBoundary _))
  | .remove _ => inferInstanceAs (Decidable (_ ∈ _))
  | .move .. => inferInstanceAs (Decidable (_ ∧ _))
  | .teleport .. => inferInstanceAs (Decidable (_ ∧ _))

/-! ## Who is written to -/

/-- `MAP_SIGHT`. -/
def mapSight : UInt32 := 920

/-- `World::WriteInSight`: the players the packet is written to, in this order. -/
def writeInSight (entity : Character) (center : IntPoint) : List Character :=
  (s.registry.mapWith entity).forEachPlayerAround (fun p q => p.distance q) center mapSight

end Watching

end Bango.World
