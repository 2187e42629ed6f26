import Bango.Characters.Skills

set_option autoImplicit false

/-! # Loading the skills

The rows of the table `skill` are sent to the game server, which adds a skill for each of them and tells
the client about all of them. What follows after `S2C_SKILLINFO` is left out. -/

namespace Bango.Characters

open Bango.Lib Bango.Network

/-- `D2S_SKILLINFO`. -/
def d2sSkillInfo : UInt8 := 9

/-- `S2C_SKILLINFO`. -/
def s2cSkillInfo : UInt8 := 160

/-! ## The DB server writes -/

/-- A row of the table `skill`, as `LoadSkills` gets its columns. -/
structure SkillRow where
  idskill : Int32
  level : Int32
deriving DecidableEq

/-- The index and the level that are pushed for a row. -/
def SkillRow.pushed (row : SkillRow) : UInt8 × UInt8 :=
  (row.idskill.toUInt32.toUInt8, row.level.toUInt32.toUInt8)

/-- `LoadSkills`, for the rows of the player. -/
def DatabaseManager.loadSkills (memory memory' : Memory) (id : UInt32) (rows : List SkillRow) :
    Except PushFault Packet :=
  let skills := (Packet.new memory).pushes
    (rows.flatMap fun row => [encode row.pushed.1, encode row.pushed.2])
  let skillCount := UInt8.ofNat rows.length
  ((Packet.ofType memory' d2sSkillInfo).pushes [encode id, encode skillCount]).merge skills

/-! ## The game server reads -/

/-- What is written to the client about a skill: its index, its level and no cooldown. -/
def skillEntry (row : UInt8 × UInt8) : List (List UInt8) :=
  [encode row.1, encode row.2, encode (0 : UInt32)]

/-- The loop of `OnLoadSkills`, with the packet for the client. An exception is made for a skill that is
    missing, but it is not thrown. -/
def Skilled.popSkills (db : SkillDb) :
    ℕ → Packet → Skilled → Pops (Except Fault (Packet × Skilled))
  | 0, packet, s => return .ok (packet, s)
  | left + 1, packet, s => do
    let index ← .get UInt8
    let level ← .get UInt8
    match s.add db index level with
    | none => return .error .cannotLoadSkill
    | some (skill, s) =>
      popSkills db left (packet.pushes (skillEntry (index, level))) (s.onApply skill 0)

/-- `Player::OnLoadSkills`, up to what is written. -/
def Player.onLoadSkills (db : SkillDb) (memory : Memory) (s : Skilled) :
    Pops (Except Fault (Packet × Skilled)) := do
  let count ← .get UInt8
  let skillInfoPacket := (Packet.ofType memory s2cSkillInfo).pushes [encode count]
  s.popSkills db count.toNat skillInfoPacket

/-- `DBListener::OnLoadSkills`, for one of the sessions; `none` when it is not the one. -/
def DBListener.onLoadSkills (db : SkillDb) (memory : Memory) (user : Skilled) :
    Pops (Option (Except Fault (Packet × Skilled))) := do
  let uid ← .get UInt32
  if user.player.uid = uid then
    let result ← Player.onLoadSkills db memory user
    return some result
  else return none

/-! ## What is to come of it -/

/-- The skill that is made of the first row with an index, if the class has a skill of that index. -/
def Skilled.firstSkill (db : SkillDb) (s : Skilled) (rows : List (UInt8 × UInt8)) (index : UInt8) :
    Option Skill :=
  (rows.find? (·.1 = index)).bind fun row => s.createSkill db row.1 row.2

/-- The skills of a player are loaded: of each index the first row that is a skill of the class, and no
    others, and the client is told of as many skills as it is told the number of. -/
structure LoadsSkills (db : SkillDb) (rows : List (UInt8 × UInt8)) (user : Skilled)
    (result : Packet × Skilled) : Prop where
  skills : ∀ index, result.2.getByIndex index = user.firstSkill db rows index
  client : ∃ (count : UInt8) (entries : List (UInt8 × UInt8)), count.toNat = entries.length ∧
    result.1.Holds s2cSkillInfo (encode count ++ (entries.flatMap skillEntry).flatten)

end Bango.Characters
