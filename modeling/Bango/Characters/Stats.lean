import Bango.Characters.Experience

set_option autoImplicit false

/-! # Stat points

`Player::OnUpdateProperty` raises the five base stats by the bytes the client sends and takes the price
off `PUPoint`. The price of a point is read from one of two tables at the stat it starts from. The
messages that follow are left out. -/

namespace Bango.Characters

/-! ## Prices -/

/-- `MAX_STAT_DISTRIBUTED`. -/
def maxStatDistributed : Nat := 250

/-- `g_byNeedPU`. -/
def needPu : List UInt8 :=
  .replicate 50 1 ++ .replicate 20 2 ++ .replicate 20 3 ++ .replicate 20 4 ++ .replicate 20 5 ++
    .replicate 20 6 ++ .replicate 50 7 ++ .replicate 50 8

/-- `g_byNeedPUEx`. -/
def needPuEx : List UInt8 :=
  .replicate 60 1 ++ .replicate 30 2 ++ .replicate 30 3 ++ .replicate 30 4 ++ .replicate 30 5 ++
    .replicate 30 6 ++ .replicate 30 7 ++ .replicate 10 8

/-- The loop of `FIND_NEED_PU` and of `FIND_NEED_PU_EX`. -/
def addNeedPu (table : List UInt8) : UInt16 → UInt16 → Nat → Except Fault UInt16
  | sum, _, 0 => .ok sum
  | sum, cur, add + 1 => do
    let price ← tableAt table cur.toNat .puOutOfRange
    addNeedPu table (sum + price.toUInt16) (cur + 1) add

/-- `FIND_NEED_PU`. -/
def findNeedPu (cur : UInt16) (add : UInt8) : Except Fault UInt16 :=
  addNeedPu needPu 0 cur add.toNat

/-- `FIND_NEED_PU_EX`. -/
def findNeedPuEx (cur : UInt16) (add : UInt8) : Except Fault UInt16 :=
  addNeedPu needPuEx 0 cur add.toNat

/-! ## The request -/

/-- `P_STR` to `P_DEX`. -/
abbrev Stat : Type := Fin 5

/-- `P_STR`. -/
def pStr : Stat := 0

/-- `P_HTH`. -/
def pHth : Stat := 1

/-- `P_INT`. -/
def pInt : Stat := 2

/-- `P_WIS`. -/
def pWis : Stat := 3

/-- `P_DEX`. -/
def pDex : Stat := 4

/-- `PC_KNIGHT`. -/
def pcKnight : UInt8 := 0

/-- `PC_MAGE`. -/
def pcMage : UInt8 := 1

/-- `PC_ARCHER`. -/
def pcArcher : UInt8 := 2

/-- `PC_THIEF`. -/
def pcThief : UInt8 := 3

/-- `PC_SHAMAN`. -/
def pcShaman : UInt8 := 4

namespace PlayerInfo

variable (data : PlayerInfo) (stats : Vector UInt8 5)

/-- `GetReqPU`. -/
def getReqPu : Except Fault UInt16 := do
  let str ← (if data.playerClass = pcKnight then findNeedPuEx data.strength stats[pStr]
    else findNeedPu data.strength stats[pStr])
  let int ← (if data.playerClass = pcMage ∨ data.playerClass = pcShaman then
      findNeedPuEx data.inteligence stats[pInt]
    else findNeedPu data.inteligence stats[pInt])
  let dex ← (if data.playerClass = pcArcher ∨ data.playerClass = pcThief then
      findNeedPuEx data.dexterity stats[pDex]
    else findNeedPu data.dexterity stats[pDex])
  let hth ← findNeedPu data.health stats[pHth]
  let wis ← findNeedPu data.wisdom stats[pWis]
  return str + int + dex + hth + wis

/-- The assignments of `OnUpdateProperty`. -/
def raise (required : UInt16) : PlayerInfo :=
  { data with
    strength := data.strength + stats[pStr].toUInt16
    health := data.health + stats[pHth].toUInt16
    inteligence := data.inteligence + stats[pInt].toUInt16
    wisdom := data.wisdom + stats[pWis].toUInt16
    dexterity := data.dexterity + stats[pDex].toUInt16
    puPoint := data.puPoint - required }

/-- `OnUpdateProperty`. -/
def onUpdateProperty : Except Fault PlayerInfo :=
  if maxStatDistributed < stats[pStr].toNat + data.strength.toNat then .ok data
  else if maxStatDistributed < stats[pHth].toNat + data.health.toNat then .ok data
  else if maxStatDistributed < stats[pInt].toNat + data.inteligence.toNat then .ok data
  else if maxStatDistributed < stats[pWis].toNat + data.wisdom.toNat then .ok data
  else if maxStatDistributed < stats[pDex].toNat + data.dexterity.toNat then .ok data
  else do
    let required ← data.getReqPu stats
    if data.puPoint < required then .ok data
    else .ok (data.raise stats required)

end PlayerInfo

end Bango.Characters
