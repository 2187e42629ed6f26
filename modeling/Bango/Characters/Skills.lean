import Bango.Lib.Keyed
import Bango.Characters.Stats

set_option autoImplicit false

/-! # Skills

The skills of a player are learned and raised for one point each, under the conditions of
`CanLearnSkill`; WeaponMastery adds to the property points of its owner. What is written to the client
and to the DB server is left out. -/

namespace Bango.Characters

open Bango.Lib

/-! ## The table of skills -/

/-- `InitSkill`, as far as a skill is learned by it. -/
structure InitSkill where
  levelLimit : Int32
  job : UInt32
  requiredSkillIndex : UInt32
  requiredSkillGrade : UInt32
  maxLevel : UInt32
deriving DecidableEq, Repr

/-- `InitSkill::DB()`, by `index()`. -/
abbrev SkillDb : Type := UInt32 → Option InitSkill

/-- `MAX_CHARACTER`. -/
def maxCharacter : UInt8 := 5

/-- `MAX_SKILL_INDEX`. -/
def maxSkillIndex : UInt8 := 84

/-- `FindPlayerSkill`. -/
def SkillDb.findPlayerSkill (db : SkillDb) (playerClass skillIndex : UInt8) : Option InitSkill :=
  if maxCharacter ≤ playerClass then none
  else if maxSkillIndex < skillIndex then none
  else db (playerClass.toUInt32 * 100 + skillIndex.toUInt32)

/-! ## Skills of a player -/

/-- The classes of skills that `CreateSkill` makes. -/
inductive SkillType where
  | behead
  | weaponMastery
  | physicalSkill
  | staggeringBlow
  | skill
deriving DecidableEq, Repr

/-- `SK_WEAPON_MASTERY`. -/
def skWeaponMastery : UInt8 := 2

/-- `SK_LIGHTNING_SLASH`. -/
def skLightningSlash : UInt8 := 3

/-- `SA_STAGGERING_BLOW`. -/
def saStaggeringBlow : UInt8 := 3

/-- `Skill`, with the key it has in `m_skills`. -/
structure Skill where
  index : UInt8
  type : SkillType
  init : InitSkill
  level : UInt8
deriving DecidableEq, Repr

/-- `CanLearn`. -/
def Skill.CanLearn (skill : Skill) : Prop := skill.level.toUInt32 < skill.init.maxLevel

instance (skill : Skill) : Decidable skill.CanLearn := inferInstanceAs (Decidable (_ < _))

/-- `SetLevel`. -/
def Skill.setLevel (skill : Skill) (level : UInt8) : Skill := { skill with level }

/-- A `Player` with its `SkillManager` and `m_property_point.nHit`. -/
structure Skilled where
  player : Player
  skills : List Skill
  nHit : Int32
deriving DecidableEq

namespace Skilled

variable (db : SkillDb) (inventory : InventoryProperty) (s : Skilled) (index : UInt8)

/-- `GetByIndex`. -/
def getByIndex : Option Skill := findKey Skill.index index s.skills

/-- The `switch` of `CreateSkill`. -/
def skillType (playerClass : UInt8) : SkillType :=
  if index = 1 then .behead
  else if playerClass = pcKnight then
    if index = skWeaponMastery then .weaponMastery
    else if index = skLightningSlash then .physicalSkill
    else .skill
  else if playerClass = pcArcher then
    if index = saStaggeringBlow then .staggeringBlow else .skill
  else .skill

/-- `CreateSkill`. -/
def createSkill (level : UInt8) : Option Skill :=
  match db.findPlayerSkill s.player.data.playerClass index with
  | none => none
  | some init => some { index, type := skillType index s.player.data.playerClass, init, level }

/-- `SkillManager::Add`, with the skill it returns; `none` is a null pointer. -/
def add (level : UInt8) : Option (Skill × Skilled) :=
  match s.createSkill db index level with
  | none => none
  | some skill =>
    match s.getByIndex index with
    | some _ => none
    | none => some (skill, { s with skills := skill :: s.skills })

/-- `OnApply`. Only WeaponMastery has one of its own; it calls `UpdatePropertyPoint` for `P_HIT`. -/
def onApply (skill : Skill) (previousLevel : UInt8) : Skilled :=
  match skill.type with
  | .weaponMastery =>
    let previousOtp := (previousLevel.toNat / 2 : Int)
    let currentOtp := (skill.level.toNat / 2 : Int)
    { s with nHit := s.nHit + .ofInt (currentOtp - previousOtp) }
  | _ => s

/-- The condition of `CanLearnSkill` on another skill. -/
def HasRequired (init : InitSkill) : Prop :=
  init.requiredSkillIndex = 0 ∨
    ∃ required ∈ s.getByIndex init.requiredSkillIndex.toUInt8,
      init.requiredSkillGrade ≤ required.level.toUInt32

instance (init : InitSkill) : Decidable (s.HasRequired init) :=
  inferInstanceAs (Decidable (_ ∨ _))

/-- `CanLearnSkill`. The index of the required skill becomes the `uint8_t` that `GetByIndex` takes. -/
def canLearnSkill : Bool :=
  match db.findPlayerSkill s.player.data.playerClass index with
  | none => false
  | some init =>
    if s.player.data.level.toNat < init.levelLimit.toInt then false
    else if s.player.data.job.toUInt32 &&& init.job ≠ init.job then false
    else if s.player.data.suPoint = 0 then false
    else if ¬ s.HasRequired init then false
    else
      match s.getByIndex index with
      | some skill => skill.CanLearn
      | none => true

/-- `--m_data.SUPoint`. -/
def takePoint : Skilled :=
  { s with player := { s.player with
    data := { s.player.data with suPoint := s.player.data.suPoint - 1 } } }

/-- `OnSkillUp`. -/
def onSkillUp : Skilled :=
  if s.canLearnSkill db index then
    match s.getByIndex index with
    | none => s
    | some skill =>
      let level := skill.level + 1
      let skills := updateKey Skill.index index (·.setLevel level) s.skills
      { s with skills }.takePoint.onApply (skill.setLevel level) skill.level
  else s

/-- `OnLearnSkill`. -/
def onLearnSkill : Except Fault Skilled :=
  if s.canLearnSkill db index then
    match s.getByIndex index with
    | some _ => .ok s
    | none =>
      match s.add db index 1 with
      | none => .error .cannotLearnSkill
      | some (skill, s) => .ok (s.takePoint.onApply skill 0)
  else .ok s

/-- `LevelUp`. -/
def levelUp : Except Fault Skilled := do
  let player ← s.player.levelUp inventory
  return { s with player }

/-! ## Loading -/

/-- The loop of `OnLoadSkills`. It notes that a skill is missing and goes on with the null pointer. -/
def onLoadSkills : List (UInt8 × UInt8) → Skilled → Except Fault Skilled
  | [], s => .ok s
  | (index, level) :: rest, s =>
    match s.add db index level with
    | none => .error .cannotLoadSkill
    | some (skill, s) => onLoadSkills rest (s.onApply skill 0)

/-- A player whose skills were loaded after the constructor or `ResetStates`. -/
def Loaded (s : Skilled) : Prop :=
  ∃ rows, onLoadSkills db rows { s with skills := [], nHit := 0 } = .ok s

/-! ## Requests -/

/-- What changes the skills or the points for them. -/
inductive Op where
  | onLearnSkill (index : UInt8)
  | onSkillUp (index : UInt8)
  | levelUp
deriving DecidableEq, Repr

/-- The handler of a request. -/
def step : Op → Except Fault Skilled
  | .onLearnSkill index => s.onLearnSkill db index
  | .onSkillUp index => .ok (s.onSkillUp db index)
  | .levelUp => s.levelUp inventory

end Skilled

end Bango.Characters
