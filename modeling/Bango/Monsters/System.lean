import Bango.Lib.Runs
import Bango.Monsters.Monster

set_option autoImplicit false

/-! # Monsters in the world

The monsters of the spawns, the registry of the world and its maps, from the construction of the
spawns on: hits, death, removal and respawn. A handler or a tick is one step; what `World::Add` throws
leaves the state as it is then. A monster is at the place of its number. Each one has its history,
and each spawn the times of its respawns, which the code does not keep.

A map is what it finds by the id of a monster; that this and the quadtree agree is the subject of the
registries of the world. -/

namespace Bango.Monsters

open Bango.Lib Bango.Space Bango.World

/-! ## State -/

/-- What has happened to a monster. -/
inductive Fact where
  /-- It was made, or got its initial state back. -/
  | spawned
  /-- `Monster::Die`: experience and loot are distributed. -/
  | died
  /-- It was flagged and taken off the world. -/
  | removed
deriving DecidableEq, Repr

/-- A tick that found a removed monster and put it back. -/
structure Respawn where
  time : UInt64
  /-- the clock at the previous `SetNextSpawnCycle` -/
  previous : UInt64
deriving DecidableEq, Repr

/-- `Spawn`. -/
structure Spawn where
  init : GenMonster
  /-- `m_area_monsters`, by their places -/
  areaMonsters : List Nat
  nextSpawnCycle : UInt64
  /-- the clock at the last `SetNextSpawnCycle` -/
  lastSet : UInt64
  respawns : List Respawn
deriving DecidableEq, Repr

structure System where
  /-- `time::now()` when it was last read -/
  clock : UInt64
  /-- `g_max_id` of `Character::AssignNewId` -/
  nextId : UInt32
  /-- How many monsters have been made. -/
  made : Nat
  monsters : Nat → Monster
  /-- What has happened to each monster, the latest first. -/
  history : Nat → List Fact
  /-- `m_monsters` -/
  registered : UInt32 → Option Nat
  /-- The monsters of `m_maps`. -/
  maps : Fin mapCount → UInt32 → Option Nat
  /-- the ids of `m_loots` -/
  loots : Finset UInt32
  /-- `m_spawns` -/
  spawns : List Spawn

/-- `SetNextSpawnCycle`. -/
def Spawn.setNextSpawnCycle (spawn : Spawn) (now : UInt64) : Spawn :=
  { spawn with
    nextSpawnCycle := now + spawn.init.spawnCycle.toInt64.toUInt64
    lastSet := now }

/-- `std::cmp_less` of an unsigned number and an `int`. -/
def CmpLess (a : UInt64) (b : Int32) : Prop := 0 ≤ b ∧ a < b.toInt64.toUInt64

instance (a : UInt64) (b : Int32) : Decidable (CmpLess a b) := inferInstanceAs (Decidable (_ ∧ _))

/-- The test with which `Spawn::Tick` begins. -/
def Spawn.Waits (spawn : Spawn) (now : UInt64) : Prop :=
  CmpLess (now - spawn.nextSpawnCycle) spawn.init.spawnCycle

instance (spawn : Spawn) (now : UInt64) : Decidable (spawn.Waits now) :=
  inferInstanceAs (Decidable (CmpLess _ _))

/-- What a hit that kills leads to. -/
structure Death where
  /-- the clock when the monster kneels -/
  now : UInt64
  /-- how many loots are rolled -/
  loots : Nat
deriving DecidableEq, Repr

/-- The square of each map. -/
def boundary : Square := ⟨⟨0, 0⟩, mapWidth⟩

/-- Where a monster stands. -/
def Monster.position (monster : Monster) : Point := ⟨monster.x.toInt, monster.y.toInt⟩

namespace System

/-- No spawn has been made yet. -/
def empty : System where
  clock := 0
  nextId := 0
  made := 0
  monsters _ := .make .regular ⟨0, 0, 0, 0⟩ 0 0 0 0
  history _ := []
  registered _ := none
  maps _ _ := none
  loots := ∅
  spawns := []

variable (s : System)

def setMonster (place : Nat) (monster : Monster) : System :=
  { s with monsters := Function.update s.monsters place monster }

/-- A monster's history goes on. -/
def record (place : Nat) (fact : Fact) : System :=
  { s with history := Function.update s.history place (fact :: s.history place) }

/-- `AssignNewId`, `n` times. -/
def assignNewIds (n : UInt32) : System := { s with nextId := s.nextId + n }

/-! ## The world -/

/-- The map of a monster. -/
def mapAt (place : Nat) : Fin mapCount := mapOf (s.monsters place).map

def setMap (i : Fin mapCount) (found : UInt32 → Option Nat) : System :=
  { s with maps := Function.update s.maps i found }

/-- `WorldMap::Add`. -/
def mapAdd (place : Nat) : System :=
  let monster := s.monsters place
  let found := s.maps (s.mapAt place)
  if boundary.InBoundary monster.position ∧ found monster.id = none then
    s.setMap (s.mapAt place) (Function.update found monster.id (some place))
  else s

/-- `WorldMap::Remove`. -/
def mapRemove (place : Nat) : System :=
  let monster := s.monsters place
  let found := s.maps (s.mapAt place)
  if found monster.id = some place then
    s.setMap (s.mapAt place) (Function.update found monster.id none)
  else s

def setRegistered (id : UInt32) (place : Option Nat) : System :=
  { s with registered := Function.update s.registered id place }

/-- `World::Add`, and whether it comes to its end: "monster already present in world". -/
def add (place : Nat) : System × Bool :=
  let id := (s.monsters place).id
  if s.registered id = none then ((s.setRegistered id (some place)).mapAdd place, true)
  else (s, false)

/-- `World::Add` of new loot, and whether it comes to its end: "loot already present in world". -/
def addLoot : System × Bool :=
  let loot := s.nextId
  let s := s.assignNewIds 1
  if loot ∈ s.loots then (s, false) else ({ s with loots := insert loot s.loots }, true)

/-- `RollLoot`, where so many loots have been rolled. -/
def rollLoot (s : System) : Nat → System × Bool
  | 0 => (s, true)
  | n + 1 =>
    match s.addLoot with
    | (s, true) => s.rollLoot n
    | (s, false) => (s, false)

/-! ## Hits -/

/-- `Die`. -/
def die (place : Nat) (death : Death) : System :=
  match (s.record place .died).rollLoot death.loots with
  | (s, true) => s.setMonster place ((s.monsters place).die death.now)
  | (s, false) => s

/-- Damage, and death when nothing is left. The `logic_error` of `ReceiveDamage` ends the handler. -/
def hit (place : Nat) (damage : UInt32) (death : Death) : System :=
  match (s.monsters place).receiveDamage damage with
  | none => s
  | some monster =>
    let s := s.setMonster place monster
    if monster.curhp ≤ 0 then s.die place death else s

/-- `ForCharacterInMap` of a monster. -/
def forCharacterInMap (map : UInt8) (id : UInt32) (callback : Nat → System) : System :=
  match s.maps (mapOf map) id with
  | none => s
  | some place => callback place

/-- `OnAttack` of a monster, when the attacker hits. -/
def onAttack (map : UInt8) (id : UInt32) (finalDamage : Int64) (death : Death) : System :=
  s.forCharacterInMap map id fun place =>
    let monster := s.monsters place
    if ¬ monster.CanAttack then s
    else if finalDamage < 0 then s
    else
      let damage :=
        if finalDamage.toUInt64 > monster.curhp.toUInt64 then monster.curhp.toUInt64
        else finalDamage.toUInt64
      s.hit place damage.toUInt32 death

/-- `PhysicalSkill::Execute` of a caster that is normal itself. -/
def physicalSkill (map : UInt8) (caster id : UInt32) (attack : UInt16) (death : Death) : System :=
  s.forCharacterInMap map id fun place =>
    let monster := s.monsters place
    if ¬ (monster.IsNormal ∧ map = monster.map ∧ caster ≠ monster.id) then s
    else
      let damage := attack.toInt16
      let damage :=
        if damage.toInt64.toUInt64 > monster.curhp.toUInt64 then monster.curhp.toUInt16.toInt16
        else damage
      s.hit place damage.toInt32.toUInt32 death

/-- `Behead::Execute`. -/
def behead (map : UInt8) (id : UInt32) : System :=
  s.forCharacterInMap map id fun place =>
    if (s.monsters place).CanBehead then s.setMonster place (s.monsters place).fall else s

/-! ## Ticks -/

/-- `ForEachMonster` gets to one of the monsters, which ticks. -/
def tickMonster (id : UInt32) (now : UInt64) : System :=
  match s.registered id with
  | none => s
  | some place => s.setMonster place ((s.monsters place).tick now)

/-- `RemoveDeadMonsters`, for one of the monsters. -/
def removeIfDead (place : Nat) : System :=
  let monster := s.monsters place
  if s.registered monster.id = some place ∧ monster.IsGState cgsKo then
    (((s.setMonster place monster.flagRemoved).record place .removed).mapRemove place).setRegistered
      monster.id none
  else s

/-- `RemoveDeadMonsters`. -/
def removeDeadMonsters : System := (List.range s.made).foldl removeIfDead s

/-! ## Spawns -/

/-- A monster is made, at the next place and with the next id. -/
def makeMonster (monster : Monster) : System :=
  { s with
    nextId := s.nextId + 1
    made := s.made + 1
    monsters := Function.update s.monsters s.made monster
    history := Function.update s.history s.made [.spawned] }

/-- One round of `CreateSpawn`, with the place of the monster that is made. What is thrown is
    caught. -/
def createMonster (db : MonsterDb) (init : GenMonster) (draw : Draw) : System × List Nat :=
  match db init.monsterIndex.toUInt32 with
  | none => (s, [])
  | some initMonster =>
    let monster := Monster.create initMonster s.nextId (init.rect.getRandomX draw)
      (init.rect.getRandomY draw) init.map
    (((s.makeMonster monster).add s.made).1, [s.made])

/-- `CreateSpawn`, with as many rounds as are left. -/
def createSpawn (s : System) (db : MonsterDb) (init : GenMonster) :
    Nat → List Draw → System × List Nat
  | 0, _ => (s, [])
  | n + 1, draws =>
    let first := s.createMonster db init (draws.headD ⟨0, 0⟩)
    let others := first.1.createSpawn db init n draws.tail
    (others.1, first.2 ++ others.2)

/-- `CreateSpawnsAndSpawnMonsters`, for one record. -/
def addSpawn (db : MonsterDb) (init : GenMonster) (draws : List Draw) (now : UInt64) : System :=
  if db init.monsterIndex.toUInt32 = none then s
  else
    let created := s.createSpawn db init init.amount.toInt.toNat draws
    let spawn : Spawn := ⟨init, created.2, 0, 0, []⟩
    { created.1 with spawns := created.1.spawns ++ [spawn.setNextSpawnCycle now] }

/-- `RespawnOnWorld`, and whether it comes to its end. -/
def respawnOnWorld (init : GenMonster) (place : Nat) (draw : Draw) : System × Bool :=
  let monster := (s.monsters place).restoreInitialState s.nextId (init.rect.getRandomX draw)
    (init.rect.getRandomY draw)
  (((s.assignNewIds 1).setMonster place monster).record place .spawned).add place

/-- The loop of `Spawn::Tick`, and whether it comes to its end. -/
def respawnAll (s : System) (init : GenMonster) : List Nat → List Draw → System × Bool
  | [], _ => (s, true)
  | place :: places, draws =>
    if (s.monsters place).isRemoved then
      match s.respawnOnWorld init place (draws.headD ⟨0, 0⟩) with
      | (s, true) => s.respawnAll init places draws.tail
      | (s, false) => (s, false)
    else s.respawnAll init places draws

def setSpawn (index : Nat) (spawn : Spawn) : System :=
  { s with spawns := s.spawns.set index spawn }

/-- Is there a monster to be put back? -/
def AnyRemoved (spawn : Spawn) : Prop := ∃ place ∈ spawn.areaMonsters, (s.monsters place).isRemoved

instance (spawn : Spawn) : Decidable (s.AnyRemoved spawn) :=
  inferInstanceAs (Decidable (∃ place ∈ _, _))

/-- The spawn with its respawns noted. -/
def noted (spawn : Spawn) (now : UInt64) : Spawn :=
  if s.AnyRemoved spawn then
    { spawn with respawns := ⟨now, spawn.lastSet⟩ :: spawn.respawns }
  else spawn

/-- `Spawn::Tick`, which reads the clock a second time at its end. -/
def tickSpawn (index : Nat) (draws : List Draw) (now setAt : UInt64) : System :=
  match s.spawns[index]? with
  | none => s
  | some spawn =>
    if spawn.Waits now then s
    else
      let noted := s.noted spawn now
      match (s.setSpawn index noted).respawnAll spawn.init spawn.areaMonsters draws with
      | (s, true) => s.setSpawn index (noted.setNextSpawnCycle setAt)
      | (s, false) => s

end System

/-! ## Runs -/

/-- What happens next. -/
inductive Event where
  | addSpawn (init : GenMonster) (draws : List Draw) (now : UInt64)
  | onAttack (map : UInt8) (id : UInt32) (finalDamage : Int64) (death : Death)
  | physicalSkill (map : UInt8) (caster id : UInt32) (attack : UInt16) (death : Death)
  | behead (map : UInt8) (id : UInt32)
  | tickMonster (id : UInt32) (now : UInt64)
  | removeDeadMonsters
  | tickSpawn (index : Nat) (draws : List Draw) (now setAt : UInt64)
  /-- Other characters are made. -/
  | assignNewIds (n : UInt32)
  /-- Loot expires or is picked up. -/
  | removeLoot (id : UInt32)
deriving DecidableEq, Repr

/-- What the clock shows when it is read. -/
def Event.readings : Event → List UInt64
  | .addSpawn _ _ now => [now]
  | .onAttack _ _ _ death => [death.now]
  | .physicalSkill _ _ _ _ death => [death.now]
  | .tickMonster _ now => [now]
  | .tickSpawn _ _ now setAt => [now, setAt]
  | .behead .. | .removeDeadMonsters | .assignNewIds _ | .removeLoot _ => []

/-- A clock does not go back. -/
inductive ClockFault where
  | wentBack
deriving DecidableEq, Repr

namespace System

variable (db : MonsterDb) (s : System)

def perform : Event → System
  | .addSpawn init draws now => s.addSpawn db init draws now
  | .onAttack map id finalDamage death => s.onAttack map id finalDamage death
  | .physicalSkill map caster id attack death => s.physicalSkill map caster id attack death
  | .behead map id => s.behead map id
  | .tickMonster id now => s.tickMonster id now
  | .removeDeadMonsters => s.removeDeadMonsters
  | .tickSpawn index draws now setAt => s.tickSpawn index draws now setAt
  | .assignNewIds n => s.assignNewIds n
  | .removeLoot id => { s with loots := s.loots.erase id }

/-- The clock is read as often as the step reads it, and never goes back. -/
def OnTime (event : Event) : Prop := (s.clock :: event.readings).Pairwise (· ≤ ·)

instance (event : Event) : Decidable (s.OnTime event) :=
  inferInstanceAs (Decidable (List.Pairwise _ _))

/-- One step. -/
def step (event : Event) : Except ClockFault System :=
  if s.OnTime event then
    .ok { s.perform db event with clock := event.readings.getLastD s.clock }
  else .error .wentBack

/-- A beheadable monster with 142 HP and a regular one whose HP are 0 modulo 2 ^ 32. -/
def twoMonsters : MonsterDb
  | 1 => some ⟨mrMaguni, 1, 0, 10⟩
  | 2 => some ⟨mrNotMaguni, 1, 0, 4294967164⟩
  | _ => none

/-- A record for one monster. -/
def oneMonster (index : Int32) : GenMonster := ⟨index, 0, 1, 1000, ⟨0, 0, 0, 0⟩⟩

end System

end Bango.Monsters
