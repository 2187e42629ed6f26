import Bango.World.Registry

set_option autoImplicit false

/-! # A monster

The tables that monsters are made from, and what one monster does by itself: it is made for a race,
takes damage, and gets its initial state back. Which characters did the damage is left out, and so
is what is written to the clients. -/

namespace Bango.Monsters

open Bango.World

/-! ## Tables -/

/-- `InitMonster`, as far as the race and the HP go. -/
structure InitMonster where
  race : UInt32
  level : UInt32
  health : UInt32
  hp : UInt32
deriving DecidableEq, Repr

namespace InitMonster

variable (init : InitMonster)

/-- `GetLevel`. -/
def getLevel : UInt8 := init.level.toUInt8

/-- `GetHealth`. -/
def getHealth : UInt16 := init.health.toUInt16

/-- `GetMaxHP`: an `int` is added to an unsigned number. From a `Health` of 32768 on the `int` may
    overflow, which is undefined in C++; it wraps around here. -/
def getMaxHp : UInt32 :=
  let level := Int32.ofNat init.getLevel.toNat
  let health := Int32.ofNat init.getHealth.toNat
  (52 * level / 3 + 115 + 2 * health * health / 10).toUInt32 + init.hp

end InitMonster

/-- `InitMonster::DB()`, by the index of the monster. -/
abbrev MonsterDb : Type := UInt32 → Option InitMonster

/-- `GenMonster::RectXY`. -/
structure RectXY where
  x1 : Int32
  y1 : Int32
  x2 : Int32
  y2 : Int32
deriving DecidableEq, Repr

/-- `GenMonster`. Its `Area` is only its key in the table. -/
structure GenMonster where
  monsterIndex : Int32
  map : Int32
  amount : Int32
  spawnCycle : Int32
  rect : RectXY
deriving DecidableEq, Repr

/-- `random::between`, where `draw` is what the generator gives. -/
def between (min max draw : UInt32) : UInt32 := min + draw % (max - min + 1)

/-- What the generator gives for the two coordinates of a monster. -/
structure Draw where
  x : UInt32
  y : UInt32
deriving DecidableEq, Repr

namespace RectXY

variable (rect : RectXY)

/-- `GetRandomX`. -/
def getRandomX (draw : Draw) : Int32 :=
  (between rect.x1.toUInt32 rect.x2.toUInt32 draw.x * 32).toInt32

/-- `GetRandomY`. -/
def getRandomY (draw : Draw) : Int32 :=
  (between rect.y1.toUInt32 rect.y2.toUInt32 draw.y * 32).toInt32

end RectXY

/-! ## Monsters -/

/-- `MR_MAGUNI`. -/
def mrMaguni : UInt32 := 0

/-- `MR_NOTMAGUNI`. -/
def mrNotMaguni : UInt32 := 1

/-- `CGS_KNEE`. -/
def cgsKnee : UInt64 := 0x1

/-- `CGS_KO`. -/
def cgsKo : UInt64 := 0x2

/-- `MAX_KNEE_TIME`. -/
def maxKneeTime : UInt32 := 10000

/-- The class of a monster: `RegularMonster` or `BeheadableMonster`. -/
inductive Kind where
  | regular
  | beheadable
deriving DecidableEq, Repr

/-- `Monster`. -/
structure Monster where
  kind : Kind
  init : InitMonster
  id : UInt32
  map : UInt8
  x : Int32
  y : Int32
  curhp : UInt32
  gstate : UInt64
  /-- `m_death_time` of a beheadable monster -/
  deathTime : UInt64
  isRemoved : Bool
deriving DecidableEq, Repr

namespace Monster

/-- `Monster::Monster`, with the id that `Character::Character` takes. -/
def make (kind : Kind) (init : InitMonster) (id : UInt32) (x y map : Int32) : Monster where
  kind := kind
  init := init
  id := id
  map := map.toInt8.toUInt8
  x := x
  y := y
  curhp := init.getMaxHp
  gstate := 0
  deathTime := 0
  isRemoved := false

/-- `RegularMonster::RegularMonster`. The map is not handed on, and the one of `Monster` is 0 then. -/
def makeRegular (init : InitMonster) (id : UInt32) (x y _map : Int32) : Monster :=
  make .regular init id x y 0

/-- `BeheadableMonster::BeheadableMonster`. The map is not handed on here either. -/
def makeBeheadable (init : InitMonster) (id : UInt32) (x y _map : Int32) : Monster :=
  make .beheadable init id x y 0

/-- `CreateMonster` of an index that the table has. -/
def create (init : InitMonster) (id : UInt32) (x y map : Int32) : Monster :=
  if init.race = mrNotMaguni then makeRegular init id x y map
  else if init.race = mrMaguni then makeBeheadable init id x y map
  else makeRegular init id x y map

variable (monster : Monster)

/-- `IsGState`. -/
def IsGState (gstate : UInt64) : Prop := monster.gstate &&& gstate ≠ 0

instance (gstate : UInt64) : Decidable (monster.IsGState gstate) :=
  inferInstanceAs (Decidable (_ ≠ _))

/-- `AddGState`. -/
def addGState (gstate : UInt64) : Monster := { monster with gstate := monster.gstate ||| gstate }

/-- `SubGState`. -/
def subGState (gstate : UInt64) : Monster := { monster with gstate := monster.gstate &&& ~~~gstate }

/-- `CanAttack`, with the monster as the target. -/
def CanAttack : Prop := ¬ monster.curhp ≤ 0 ∧ ¬ monster.IsGState (cgsKnee ||| cgsKo)

instance : Decidable monster.CanAttack := inferInstanceAs (Decidable (_ ∧ _))

/-- `IsNormal`. -/
def IsNormal : Prop := monster.curhp > 0

instance : Decidable monster.IsNormal := inferInstanceAs (Decidable (_ > _))

/-- `ReceiveDamage`; `none` is "damage is higher than current HP". -/
def receiveDamage (damage : UInt32) : Option Monster :=
  if damage > monster.curhp then none else some { monster with curhp := monster.curhp - damage }

/-- What `Die` of the class does after the one of `Monster`. -/
def die (now : UInt64) : Monster :=
  match monster.kind with
  | .regular => monster.addGState cgsKo
  | .beheadable => { monster.addGState cgsKnee with deathTime := now }

/-- A kneeling monster falls. -/
def fall : Monster := (monster.addGState cgsKo).subGState cgsKnee

/-- `Tick`. -/
def tick (now : UInt64) : Monster :=
  match monster.kind with
  | .regular => monster
  | .beheadable =>
    if monster.IsGState cgsKnee ∧ now - monster.deathTime ≥ maxKneeTime.toUInt64 then monster.fall
    else monster

/-- `Behead::CanExecute`. -/
def CanBehead : Prop := monster.IsGState cgsKnee ∧ ¬ monster.IsGState cgsKo

instance : Decidable monster.CanBehead := inferInstanceAs (Decidable (_ ∧ _))

/-- `RestoreInitialState`, with the id that `AssignNewId` takes. -/
def restoreInitialState (id : UInt32) (newX newY : Int32) : Monster :=
  { monster with
    gstate := 0
    id := id
    curhp := monster.init.getMaxHp
    x := newX
    y := newY
    isRemoved := false }

/-- `FlagRemoved`. -/
def flagRemoved : Monster := { monster with isRemoved := true }

end Monster

end Bango.Monsters
