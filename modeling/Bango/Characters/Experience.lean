import Bango.Characters.Records

set_option autoImplicit false

/-! # Experience and levels

`Player::UpdateExp` turns experience into levels: while there is more of it than the level requires,
the requirement is taken off and the player levels up, until `MAX_LEVEL` is reached, where the rest is
lost. The messages to the client and to the DB server are left out. -/

namespace Bango.Characters

/-! ## Tables -/

/-- How a change of a player ends early: a table is read out of its range, or a skill is not made. -/
inductive Fault where
  | expOutOfRange
  | classOutOfRange
  | puOutOfRange
  /-- the null pointer `OnLoadSkills` goes on with -/
  | cannotLoadSkill
  | cannotLearnSkill
deriving DecidableEq, Repr

/-- The element of a table at an index. -/
def tableAt {α : Type} (table : List α) (index : Nat) (fault : Fault) : Except Fault α :=
  match table[index]? with
  | some a => .ok a
  | none => .error fault

/-- `CLASS_NUM`. -/
def classNum : UInt8 := 5

/-- `MAX_LEVEL`. -/
def maxLevel : UInt8 := 100

/-- `EXP_RATE`. -/
def expRate : Nat := 3

/-- `g_nNeedExp`. -/
def needExp : List Nat :=
  [0, 5, 24, 60, 160, 327, 540, 811, 1153, 1582, 2242, 3074, 4119, 5423, 7041, 9091, 11615, 14712,
    18500, 23124, 29042, 36267, 45069, 55770, 68502, 84980, 104989, 129247, 158361, 193878, 236530,
    288063, 350265, 425285, 515699, 624397, 755304, 912622, 1102206, 1329711, 1603347, 1932099,
    2327056, 2801272, 3371225, 4055312, 4877039, 5863234, 7047523, 8469131, 10175792, 12224433,
    14683208, 17569241, 21111460, 25362481, 30464688, 36522905, 43871458, 52625322, 63208787,
    75844836, 91021881, 109247833, 131133154, 157344249, 188824427, 226627315, 271952859,
    326383432, 391675036, 1175031990, 1410047927, 1692134478, 2030666591, 2436908029, 2924322111,
    3509286723, 4211246995, 5036981519, 6047776761, 7260746636, 8699705826, 10446331579,
    12542363593, 15040971643, 18042646513, 21648001718, 25977721610, 31176665818, 37418783346,
    44896023746, 53875322045, 64640586581, 77568817469, 93076104384, 111698104413, 134041217773,
    160836337110, 193013671816]

/-- `g_fNeedExpRatio`, in hundredths. -/
def needExpRatio : List Nat :=
  .replicate 4 100 ++ .replicate 16 50 ++ .replicate 10 60 ++ .replicate 10 70 ++
    .replicate 10 75 ++ .replicate 30 100 ++ .replicate 4 200 ++ .replicate 5 250 ++
    .replicate 5 300 ++ .replicate 5 400 ++ .replicate 12 500

/-- `g_n64NeedExpFinal`. At these entries the product in `double` rounds to the exact whole number. -/
def needExpFinal : List UInt64 :=
  List.zipWith (fun exp ratio => UInt64.ofNat (exp * ratio / 100 / expRate)) needExp needExpRatio

/-- `GET_PU_ON_LEVEL_UP`. -/
def getPuOnLevelUp (level : UInt8) : UInt16 :=
  if 96 ≤ level then 12
  else if 91 ≤ level then 11
  else if 86 ≤ level then 10
  else if 81 ≤ level then 9
  else if 76 ≤ level then 8
  else if 72 ≤ level then 7
  else 5

/-- `g_denoHP`. -/
def denoHp : List Nat := [10, 14, 13, 13, 13]

/-- `g_denoMP`. -/
def denoMp : List Nat := [13, 10, 12, 12, 12]

/-! ## Health and mana -/

/-- What the equipment adds, as far as `GetMaxHP` and `GetMaxMP` read it. -/
structure InventoryProperty where
  health : UInt16
  wisdom : UInt16
  hp : UInt16
  mp : UInt16
deriving DecidableEq, Repr

namespace Player

variable (inventory : InventoryProperty) (player : Player)

/-- `GetHealth`. -/
def getHealth : UInt16 := player.data.health + inventory.health

/-- `GetWisdom`. -/
def getWisdom : UInt16 := player.data.wisdom + inventory.wisdom

/-- The factor of the level in `GetMaxHP`, in ten thousandths. -/
def hpPerLevel (level : UInt8) : Nat :=
  if 96 ≤ level then 1950000
  else if 91 ≤ level then 1418147
  else if 86 ≤ level then 1114260
  else if 81 ≤ level then 917580
  else if 76 ≤ level then 780000
  else if 72 ≤ level then 678162
  else 520000

/-- The factor of the level in `GetMaxMP`. -/
def mpPerLevel (level : UInt8) : Nat :=
  if 96 ≤ level then 20
  else if 91 ≤ level then 18
  else if 86 ≤ level then 16
  else if 81 ≤ level then 14
  else if 76 ≤ level then 12
  else if 72 ≤ level then 10
  else 8

/-- `GetMaxHP`. The sum is a `double` whose fraction the result drops; only the part of the level has
    one. The square fits an `int` up to a health of 32767. -/
def getMaxHp : Except Fault UInt32 := do
  let deno ← tableAt denoHp player.data.playerClass.toNat .classOutOfRange
  let health := (player.getHealth inventory).toNat
  let level := player.data.level
  return UInt32.ofNat
    (hpPerLevel level * level.toNat / 30000 + 115 + 2 * health * health / deno +
      inventory.hp.toNat)

/-- `GetMaxMP`. -/
def getMaxMp : Except Fault UInt32 := do
  let deno ← tableAt denoMp player.data.playerClass.toNat .classOutOfRange
  let wisdom := (player.getWisdom inventory).toNat
  let level := player.data.level
  return UInt32.ofNat
    (mpPerLevel level * level.toNat + 140 + wisdom + 2 * wisdom * wisdom / deno +
      inventory.mp.toNat)

/-! ## Levels -/

/-- The points and the level of `LevelUp`. -/
def raiseLevel : Player :=
  { player with
    data := { player.data with
      suPoint := player.data.suPoint + 1
      level := player.data.level + 1
      puPoint := player.data.puPoint + getPuOnLevelUp (player.data.level + 1) } }

/-- `LevelUp`. -/
def levelUp : Except Fault Player := do
  let player := player.raiseLevel
  let curHp ← player.getMaxHp inventory
  let player := { player with curHp }
  let curMp ← player.getMaxMp inventory
  return { player with curMp }

/-- The player with another `m_data.Exp`. -/
def withExp (exp : UInt64) : Player := { player with data := { player.data with exp } }

/-- `g_n64NeedExpFinal[GetLevel()]`. -/
def requiredExp : Except Fault UInt64 :=
  tableAt needExpFinal player.data.level.toNat .expOutOfRange

theorem levelUp_eq_ok {player player' : Player} (h : player.levelUp inventory = .ok player') :
    ∃ curHp curMp, player' = { player.raiseLevel with curHp, curMp } := by
  simp only [levelUp, Lib.bind_eq_ok] at h
  obtain ⟨curHp, _, curMp, _, h⟩ := h
  exact ⟨curHp, curMp, (Except.ok.inj h).symm⟩

theorem levelUp_level {player player' : Player} (h : player.levelUp inventory = .ok player') :
    player'.data.level = player.data.level + 1 := by
  obtain ⟨_, _, rfl⟩ := levelUp_eq_ok inventory h
  rfl

/-- The levels that are left become fewer, counted modulo 256. -/
theorem levels_left {level : UInt8} (h : ¬ maxLevel ≤ level + 1) :
    (maxLevel - (level + 1)).toNat < (maxLevel - level).toNat := by
  have hlt := level.toNat_lt
  simp only [UInt8.le_iff_toNat_le, UInt8.toNat_sub, UInt8.toNat_add, maxLevel] at h ⊢
  simp only [UInt8.reduceToNat] at h ⊢
  omega

/-- The loop of `UpdateExp`. -/
def levelUps (player : Player) (required : UInt64) : Except Fault Player :=
  if required < player.data.exp then
    match _ : (player.withExp (player.data.exp - required)).levelUp inventory with
    | .error fault => .error fault
    | .ok player' =>
      if maxLevel ≤ player'.data.level then .ok (player'.withExp 0)
      else
        match player'.requiredExp with
        | .error fault => .error fault
        | .ok required' => levelUps player' required'
  else .ok player
termination_by (maxLevel - player.data.level).toNat
decreasing_by
  rename_i h hleft
  have hlevel := levelUp_level inventory h
  change player'.data.level = player.data.level + 1 at hlevel
  rw [hlevel] at hleft ⊢
  exact levels_left hleft

/-- `UpdateExp`. -/
def updateExp (amount : Int64) : Except Fault Player :=
  if amount = 0 then .ok player
  else if amount < 0 then
    let amount :=
      if player.data.exp.toNat < amount.toInt.natAbs then -player.data.exp.toInt64 else amount
    .ok (player.withExp (player.data.exp + amount.toUInt64))
  else if maxLevel ≤ player.data.level then .ok player
  else do
    let player := player.withExp (player.data.exp + amount.toUInt64)
    let required ← player.requiredExp
    player.levelUps inventory required

end Player

end Bango.Characters
