import Mathlib.Data.Finset.Prod
import Bango.Lib.Runs
import Bango.Space.Geometry

set_option autoImplicit false

/-! # The world map

`WorldMap` keeps the characters of a map in a quadtree and tells each player which characters come
into its sight, leave it, or move in it. The quadtree is a parameter (`Quadtree`), of which the map
uses `insert`, `remove` and `query`. -/

namespace Bango.World

open Bango.Lib Bango.Space

/-- `Character::PLAYER`, `MONSTER`, `NPC` and `LOOT`. -/
inductive Kind where
  | player | monster | npc | loot
deriving DecidableEq, Repr

/-- A `Character*`: its type and its id. -/
structure Character where
  kind : Kind
  id : UInt32
deriving DecidableEq, Repr

/-- `WorldMap::Container`, the characters of a leaf by type and each type in the order of iteration. -/
structure Container where
  players : List Character
  npcs : List Character
  monsters : List Character
  loots : List Character
deriving Repr

/-- What the map uses of `quad<Container>`. `insert` and `remove` read the characters' positions, and
    throw (`none`). -/
structure Quadtree (Q : Type) where
  insert : (Character → Point) → Character → Q → Option Q
  remove : (Character → Point) → Character → Q → Option Q
  query : Q → Point → Int → List Container

/-- A call of `m_on_appear`, `m_on_disappear` or `m_on_move`. -/
inductive Event where
  | appear (player character : Character) (spawn : Bool)
  | disappear (player character : Character)
  | move (player character : Character) (deltaX deltaY deltaZ : Int8) (stop : Bool)
deriving DecidableEq, Repr

/-- `WorldMap`, with the positions of all characters, on the map or not. -/
structure WorldMap (Q : Type) where
  quad : Q
  /-- `m_entities` -/
  entities : Finset Character
  /-- `m_x` and `m_y` -/
  position : Character → Point

section

variable {Q : Type} (tree : Quadtree Q) (sight : Int)

/-- `distance(…) <= m_sight`. -/
def InSight (p q : Point) : Prop := (p.distance q : Int) ≤ sight

instance (p q : Point) : Decidable (InSight sight p q) := inferInstanceAs (Decidable (_ ≤ _))

namespace WorldMap

variable (m : WorldMap Q)

/-- The callbacks of `WorldMap::Add`, for one container of the query around the character. -/
def addEvents (entity : Character) (c : Container) : List Event :=
  let center := m.position entity
  (c.players.flatMap fun player =>
    if InSight sight (m.position player) center then
      .appear player entity (entity.kind = .monster) ::
        if entity.kind = .player then [.appear entity player false] else []
    else []) ++
  if entity.kind ≠ .player then []
  else
    (c.npcs.flatMap fun npc =>
      if InSight sight (m.position npc) center then [.appear entity npc false] else []) ++
    (c.monsters.flatMap fun monster =>
      if InSight sight (m.position monster) center then [.appear entity monster false] else []) ++
    (c.loots.flatMap fun loot =>
      if InSight sight (m.position loot) center then [.appear entity loot false] else [])

/-- `WorldMap::Add`: the map afterwards, and the callbacks in their order. -/
def add (entity : Character) : WorldMap Q × List Event :=
  let events := (tree.query m.quad (m.position entity) sight).flatMap (m.addEvents sight entity)
  match tree.insert m.position entity m.quad with
  | none => (m, events)
  | some quad => ({ m with quad, entities := insert entity m.entities }, events)

/-- The callbacks of `WorldMap::Remove`, for one container of the query. -/
def removeEvents (entity : Character) (c : Container) : List Event :=
  let center := m.position entity
  c.players.flatMap fun player =>
    if InSight sight (m.position player) center then [.disappear player entity] else []

/-- `WorldMap::Remove`. -/
def remove (entity : Character) (onMonsterDeath : Bool) : WorldMap Q × List Event :=
  match tree.remove m.position entity m.quad with
  | none => (m, [])
  | some quad =>
    let m := { m with quad, entities := m.entities.erase entity }
    if onMonsterDeath then (m, [])
    else (m, (tree.query m.quad (m.position entity) sight).flatMap (m.removeEvents sight entity))

/-- The callbacks of `WorldMap::Move`, for one container of the query around the old position. -/
def moveOldEvents (entity : Character) (oldCenter newCenter : Point) (c : Container) :
    List Event :=
  let leaves (p : Point) : Prop := InSight sight p oldCenter ∧ ¬ InSight sight p newCenter
  (c.players.flatMap fun player =>
    if leaves (m.position player) then
      .disappear player entity ::
        if entity.kind = .player then [.disappear entity player] else []
    else []) ++
  if entity.kind ≠ .player then []
  else
    (c.npcs.flatMap fun npc =>
      if leaves (m.position npc) then [.disappear entity npc] else []) ++
    (c.monsters.flatMap fun monster =>
      if leaves (m.position monster) then [.disappear entity monster] else []) ++
    (c.loots.flatMap fun loot =>
      if leaves (m.position loot) then [.disappear entity loot] else [])

/-- The callbacks of `WorldMap::Move`, for one container of the query around the new position. There
    is no loop over the loots. -/
def moveNewEvents (entity : Character) (oldCenter newCenter : Point)
    (deltaX deltaY deltaZ : Int8) (stop : Bool) (c : Container) : List Event :=
  let comes (p : Point) : Prop := ¬ InSight sight p oldCenter ∧ InSight sight p newCenter
  (c.players.flatMap fun player =>
    if InSight sight (m.position player) oldCenter ∧ InSight sight (m.position player) newCenter then
      [.move player entity deltaX deltaY deltaZ stop]
    else if comes (m.position player) then
      .appear player entity false ::
        if entity.kind = .player then [.appear entity player false] else []
    else []) ++
  if entity.kind ≠ .player then []
  else
    (c.npcs.flatMap fun npc =>
      if comes (m.position npc) then [.appear entity npc false] else []) ++
    (c.monsters.flatMap fun monster =>
      if comes (m.position monster) then [.appear entity monster false] else [])

/-- `WorldMap::Move`. The character is on no leaf while the callbacks are made. -/
def move (entity : Character) (deltaX deltaY deltaZ : Int8) (stop : Bool) :
    WorldMap Q × List Event :=
  match tree.remove m.position entity m.quad with
  | none => (m, [])
  | some quad =>
    let oldCenter := m.position entity
    let newCenter : Point := ⟨oldCenter.x + deltaX.toInt, oldCenter.y + deltaY.toInt⟩
    let m := { m with quad, position := Function.update m.position entity newCenter }
    let events :=
      (tree.query m.quad oldCenter sight).flatMap (m.moveOldEvents sight entity oldCenter newCenter) ++
      (tree.query m.quad newCenter sight).flatMap
        (m.moveNewEvents sight entity oldCenter newCenter deltaX deltaY deltaZ stop)
    match tree.insert m.position entity m.quad with
    | none => (m, events)
    | some quad => ({ m with quad }, events)

end WorldMap

/-! ## What players see -/

/-- The players' views: `(p, e)` when the last callback of `p` about `e` was an appearance. -/
abbrev Views : Type := Finset (Character × Character)

/-- A callback that a view does not expect. -/
inductive ViewFault where
  /-- an appearance of what is in the view -/
  | appearedTwice
  /-- a disappearance of what is not -/
  | disappearedUnseen
  /-- a move of what is not -/
  | movedUnseen
deriving DecidableEq, Repr

/-- A callback about its player's view. Loot is in no view: a player that walks up to loot is not told
    of it. -/
def deliver (views : Views) : Event → Except ViewFault Views
  | .appear p e _ =>
    if e.kind = .loot then .ok views
    else if (p, e) ∈ views then .error .appearedTwice
    else .ok (insert (p, e) views)
  | .disappear p e =>
    if e.kind = .loot then .ok views
    else if (p, e) ∈ views then .ok (views.erase (p, e))
    else .error .disappearedUnseen
  | .move p e .. =>
    if e.kind = .loot then .ok views
    else if (p, e) ∈ views then .ok views
    else .error .movedUnseen

/-- An operation on the map. A character that is added has been given a position before. -/
inductive Op where
  | add (entity : Character) (at_ : Point)
  | move (entity : Character) (deltaX deltaY deltaZ : Int8) (stop : Bool)
  | remove (entity : Character)
deriving DecidableEq, Repr

/-- A map and its players' views. -/
structure Watched (Q : Type) where
  map : WorldMap Q
  views : Views

/-- An operation and its callbacks. Removing a player discards its view. -/
def Watched.step (w : Watched Q) : Op → Except ViewFault (Watched Q)
  | .add entity at_ => do
    let (map, events) :=
      { w.map with position := Function.update w.map.position entity at_ }.add tree sight entity
    return ⟨map, ← run deliver w.views events⟩
  | .move entity deltaX deltaY deltaZ stop => do
    let (map, events) := w.map.move tree sight entity deltaX deltaY deltaZ stop
    return ⟨map, ← run deliver w.views events⟩
  | .remove entity => do
    let (map, events) := w.map.remove tree sight entity false
    return ⟨map, (← run deliver w.views events).filter fun x => x.1 ≠ entity⟩

end

end Bango.World
