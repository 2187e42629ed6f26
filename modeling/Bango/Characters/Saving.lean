import Bango.Lib.Pending
import Bango.Lib.Runs
import Bango.Characters.LoadSkills
import Bango.Characters.Proofs.Records

set_option autoImplicit false

/-! # Players and their records

A player is loaded from its row and its skills, changed in memory, and saved: some changes are told to
the DB server at once, the others with `SaveAllProperty`. The link to the DB server is in order and
shared by all sessions. A step is a handler of one session, the DB server handling the next message, or
the game server handling the next reply. A session is named by its account, which has one at most.

The ids behind a login and behind a request for a player are taken to be the session's own.
Players that are made, deleted and restored are left out, as are messages that leave these tables and
what is saved in them alone; of those that need no grant, `C2S_PICKUPITEM`, `C2S_SKILL` and
`C2S_PRESKILL` do. -/

namespace Bango.Characters

open Bango.Lib

/-! ## Columns -/

/-- The `int` that is bound for a value, `query::set(int)`. -/
def intOfByte (v : UInt8) : Int32 := v.toUInt32.toInt32

/-- The `int` that is bound for a value of 16 bits. -/
def intOfWord (v : UInt16) : Int32 := v.toUInt32.toInt32

/-- The `int` that is bound for a value of 64 bits: the lower half of it. -/
def intOfLong (v : UInt64) : Int32 := v.toUInt32.toInt32

/-- Has a column of type `TINYINT` the value? -/
def IsTinyInt (v : Int32) : Prop := -128 ≤ v.toInt ∧ v.toInt ≤ 127

instance (v : Int32) : Decidable (IsTinyInt v) := inferInstanceAs (Decidable (_ ∧ _))

/-- Has a column of type `SMALLINT` the value? -/
def IsSmallInt (v : Int32) : Prop := -32768 ≤ v.toInt ∧ v.toInt ≤ 32767

instance (v : Int32) : Decidable (IsSmallInt v) := inferInstanceAs (Decidable (_ ∧ _))

namespace PlayerRow

variable (row : PlayerRow)

/-- The `UPDATE` of `SaveAllProperty`. -/
def saveAllProperty (values : DatabaseManager.SaveAllProperty) : PlayerRow :=
  { row with
    level := intOfByte values.level
    x := values.x
    y := values.y
    z := values.z
    contribute := intOfWord values.contribute
    curHp := values.curHp.toInt32
    curMp := values.curMp.toInt32
    exp := (intOfLong values.exp).toInt64
    puPoint := intOfWord values.puPoint
    suPoint := intOfWord values.suPoint
    anger := values.rage.toInt32 }

/-- The `UPDATE` of `UpdateProperty`. -/
def updateProperty (values : DatabaseManager.UpdateProperty) : PlayerRow :=
  { row with
    strength := intOfWord values.strength
    health := intOfWord values.health
    inteligence := intOfWord values.inteligence
    wisdom := intOfWord values.wisdom
    dexterity := intOfWord values.dexterity
    puPoint := intOfWord values.puPoint }

/-- `UPDATE player SET supoint=?`. -/
def withSuPoint (skillPoints : UInt16) : PlayerRow :=
  { row with suPoint := intOfWord skillPoints }

end PlayerRow

/-- `INSERT INTO skill (idplayer, idskill, level)`. -/
def SkillRow.of (index level : UInt8) : SkillRow := ⟨intOfByte index, intOfByte level⟩

/-- `UPDATE skill SET level=? WHERE idplayer=? AND idskill=?`, for one row. -/
def SkillRow.setLevel (index level : UInt8) (row : SkillRow) : SkillRow :=
  if row.idskill = intOfByte index then { row with level := intOfByte level } else row

/-- What the tables have about a player. -/
structure Record where
  idaccount : Int32
  deleted : Bool
  row : PlayerRow
  skills : List SkillRow

/-! ## Messages -/

/-- What the game server writes to the DB server about a player. -/
inductive S2D where
  | saveAllProperty (values : DatabaseManager.SaveAllProperty)
  | updateProperty (values : DatabaseManager.UpdateProperty)
  | skillUp (values : DatabaseManager.UpgradeSkill)
  | learnSkill (values : DatabaseManager.LearnSkill)
  | loadPlayer (idplayer idaccount : Int32)
deriving DecidableEq

/-- The player that a message is about. -/
def S2D.idplayer : S2D → Int32
  | .saveAllProperty values => values.pid
  | .updateProperty values => values.pid
  | .skillUp values => values.idPlayer.toInt32
  | .learnSkill values => values.idPlayer.toInt32
  | .loadPlayer idplayer _ => idplayer

/-- What a message changes. -/
def Record.apply (record : Record) : S2D → Record
  | .saveAllProperty values => { record with row := record.row.saveAllProperty values }
  | .updateProperty values => { record with row := record.row.updateProperty values }
  | .skillUp values =>
    { record with
      row := record.row.withSuPoint values.skillPoints
      skills := record.skills.map (SkillRow.setLevel values.index values.level) }
  | .learnSkill values =>
    { record with
      row := record.row.withSuPoint values.skillPoints
      skills := record.skills ++ [.of values.index 1] }
  | .loadPlayer _ _ => record

/-- A message changes what is there, if anything is. -/
def Record.applyTo (record : Option Record) (message : S2D) : Option Record :=
  record.map (·.apply message)

/-- Do the values that are bound fit into their columns? -/
def S2D.Fits (record : Record) : S2D → Prop
  | .saveAllProperty values =>
    IsTinyInt (intOfByte values.level) ∧ IsSmallInt (intOfWord values.contribute) ∧
      IsSmallInt values.curMp.toInt32 ∧ IsSmallInt (intOfWord values.puPoint) ∧
      IsSmallInt (intOfWord values.suPoint)
  | .updateProperty values =>
    IsSmallInt (intOfWord values.strength) ∧ IsSmallInt (intOfWord values.health) ∧
      IsSmallInt (intOfWord values.inteligence) ∧ IsSmallInt (intOfWord values.wisdom) ∧
      IsSmallInt (intOfWord values.dexterity) ∧ IsSmallInt (intOfWord values.puPoint)
  | .skillUp values =>
    (IsTinyInt (intOfByte values.level) ∨
        ∀ row ∈ record.skills, row.idskill ≠ intOfByte values.index) ∧
      IsSmallInt (intOfWord values.skillPoints)
  | .learnSkill values => IsSmallInt (intOfWord values.skillPoints)
  | .loadPlayer _ _ => True

instance (record : Record) : (message : S2D) → Decidable (message.Fits record)
  | .saveAllProperty _ | .updateProperty _ | .skillUp _ =>
    inferInstanceAs (Decidable (_ ∧ _))
  | .learnSkill _ => inferInstanceAs (Decidable (IsSmallInt _))
  | .loadPlayer _ _ => inferInstanceAs (Decidable True)

/-- Does a message insert a skill? -/
def S2D.isInsert : S2D → Bool
  | .learnSkill _ => true
  | .saveAllProperty _ | .updateProperty _ | .skillUp _ | .loadPlayer _ _ => false

/-- The strict mode of the database refuses what does not fit, and a skill of a player that is not
    there. -/
def S2D.Refused (message : S2D) : Option Record → Prop
  | none => message.isInsert = true
  | some record => ¬ message.Fits record

instance (message : S2D) : (record : Option Record) → Decidable (message.Refused record)
  | none => inferInstanceAs (Decidable (_ = true))
  | some _ => inferInstanceAs (Decidable (¬ _))

/-- What the DB server answers to `S2D_LOADPLAYER`: that there is no such player, or its row and its
    skills. -/
structure D2S where
  idaccount : Int32
  idplayer : Int32
  loaded : Option (PlayerRow × List SkillRow)

/-- `LoadPlayer` and `LoadSkills`. -/
def S2D.replies (record : Option Record) : S2D → List D2S
  | .loadPlayer idplayer idaccount =>
    match record with
    | none => [⟨idaccount, idplayer, none⟩]
    | some record =>
      if record.idaccount = idaccount ∧ record.deleted = false then
        [⟨idaccount, idplayer, some (record.row, record.skills)⟩]
      else [⟨idaccount, idplayer, none⟩]
  | .saveAllProperty _ | .updateProperty _ | .skillUp _ | .learnSkill _ => []

/-! ## Handlers -/

/-- `OnUpdateProperty`; `none` when it returns early. -/
def PlayerInfo.tryUpdateProperty (data : PlayerInfo) (stats : Vector UInt8 5) :
    Except Fault (Option PlayerInfo) :=
  if maxStatDistributed < (stats.get pStr).toNat + data.strength.toNat then .ok none
  else if maxStatDistributed < (stats.get pHth).toNat + data.health.toNat then .ok none
  else if maxStatDistributed < (stats.get pInt).toNat + data.inteligence.toNat then .ok none
  else if maxStatDistributed < (stats.get pWis).toNat + data.wisdom.toNat then .ok none
  else if maxStatDistributed < (stats.get pDex).toNat + data.dexterity.toNat then .ok none
  else do
    let required ← data.getReqPu stats
    if data.puPoint < required then .ok none
    else .ok (some (data.raise stats required))

/-- The loop of `UpdateExp`, with what `LevelUp` writes: `SaveAllProperty` at each new level. -/
def Player.levelUpsWriting (inventory : InventoryProperty) (player : Player) (required : UInt64) :
    Except Fault (Player × List S2D) :=
  if required < player.data.exp then
    match _ : (player.withExp (player.data.exp - required)).levelUp inventory with
    | .error fault => .error fault
    | .ok player' =>
      let message := S2D.saveAllProperty player'.saved
      if maxLevel ≤ player'.data.level then .ok (player'.withExp 0, [message])
      else
        match player'.requiredExp with
        | .error fault => .error fault
        | .ok required' =>
          match levelUpsWriting inventory player' required' with
          | .error fault => .error fault
          | .ok (player, messages) => .ok (player, message :: messages)
  else .ok (player, [])
termination_by (maxLevel - player.data.level).toNat
decreasing_by
  rename_i h hleft
  have hlevel := levelUp_level inventory h
  change player'.data.level = player.data.level + 1 at hlevel
  rw [hlevel] at hleft ⊢
  exact levels_left hleft

/-- `UpdateExp`, with what is written to the DB server. -/
def Player.updateExpWriting (inventory : InventoryProperty) (player : Player) (amount : Int64) :
    Except Fault (Player × List S2D) :=
  if amount = 0 ∨ amount < 0 ∨ maxLevel ≤ player.data.level then
    (player.updateExp inventory amount).map (·, [])
  else do
    let player := player.withExp (player.data.exp + amount.toUInt64)
    let required ← player.requiredExp
    player.levelUpsWriting inventory required

/-- What a player does, or what is done to it. -/
inductive Deed where
  | updateProperty (stats : Vector UInt8 5)
  | skillUp (index : UInt8)
  | learnSkill (index : UInt8)
  | updateExp (inventory : InventoryProperty) (amount : Int64)
  /-- it moves, is teleported, is hit or is healed -/
  | live (x y z : Int32) (curHp curMp : UInt32)
  /-- `Tick`, a minute after the last time -/
  | save

/-- Is the deed one of players in the game only? `C2S_SKILLUP` and `C2S_LEARNSKILL` need no grant. -/
def Deed.NeedsGame : Deed → Prop
  | .skillUp _ | .learnSkill _ => False
  | .updateProperty _ | .updateExp .. | .live .. | .save => True

instance : DecidablePred Deed.NeedsGame
  | .skillUp _ | .learnSkill _ => isFalse id
  | .updateProperty _ | .updateExp .. | .live .. | .save => isTrue trivial

namespace Skilled

variable (db : SkillDb) (s : Skilled)

/-- What `OnSkillUp` writes. -/
def skillUpWrites (index : UInt8) : List S2D :=
  if s.canLearnSkill db index then
    match s.getByIndex index with
    | none => []
    | some skill =>
      [.skillUp
        { idPlayer := s.player.data.playerId.toUInt32, index, level := skill.level + 1
          skillPoints := s.player.data.suPoint - 1 }]
  else []

/-- What `OnLearnSkill` writes. -/
def learnSkillWrites (index : UInt8) : List S2D :=
  if s.canLearnSkill db index then
    match s.getByIndex index with
    | none =>
      [.learnSkill
        { idPlayer := s.player.data.playerId.toUInt32, index
          skillPoints := s.player.data.suPoint - 1 }]
    | some _ => []
  else []

/-- The player with other data. -/
def withData (data : PlayerInfo) : Skilled := { s with player := { s.player with data } }

/-- A handler, with what it writes to the DB server. -/
def act : Deed → Except Fault (Skilled × List S2D)
  | .updateProperty stats => do
    match ← s.player.data.tryUpdateProperty stats with
    | none => .ok (s, [])
    | some data => .ok (s.withData data, [.updateProperty (s.withData data).player.distributed])
  | .skillUp index => .ok (s.onSkillUp db index, s.skillUpWrites db index)
  | .learnSkill index => do
    let s' ← s.onLearnSkill db index
    .ok (s', s.learnSkillWrites db index)
  | .updateExp inventory amount => do
    let (player, messages) ← s.player.updateExpWriting inventory amount
    .ok ({ s with player }, messages)
  | .live x y z curHp curMp => .ok ({ s with player := { s.player with x, y, z, curHp, curMp } }, [])
  | .save => .ok (s, [.saveAllProperty s.player.saved])

/-- `Player::OnLoadPlayer` and `Player::OnLoadSkills`. The number of the rows is a byte. -/
def load (idaccount idplayer : Int32) (row : PlayerRow) (skills : List SkillRow) :
    Except Fault Skilled :=
  onLoadSkills db ((skills.map SkillRow.pushed).take (UInt8.ofNat skills.length).toNat)
    { s with player := s.player.loaded row idaccount idplayer }

/-- `ResetStates`, as far as it is about skills. -/
def resetStates : Skilled := { s with skills := [], nHit := 0 }

end Skilled

/-! ## The system -/

/-- For specifications: the player of a session. -/
inductive Load where
  | idle
  | asked (idplayer : Int32)
  | done
deriving DecidableEq, Repr

/-- A session that is logged in: the `Player` object, and its grants `LOBBY`, `LOADING` and `INGAME`. -/
structure Session where
  player : Skilled
  lobby : Bool
  loading : Bool
  ingame : Bool
  load : Load
deriving DecidableEq

/-- The id that is in the object. -/
def Session.playerId (session : Session) : Int32 := session.player.player.data.playerId

structure Saving where
  /-- by the id of the account -/
  sessions : Int32 → Option Session
  toDb : List S2D
  toGame : List D2S
  tables : Int32 → Option Record

/-- Why there is no next state. -/
inductive Saving.Stop where
  | idle
  | refused (message : S2D)
  | fault (idplayer : Int32) (fault : Fault)
deriving DecidableEq

inductive Saving.Op where
  /-- A session is logged in to an account, with the object that the constructor has made. -/
  | login (idaccount : Int32) (user : Player)
  /-- `DBListener::OnPlayerInfo`, which assigns `LOBBY` -/
  | playerInfo (idaccount : Int32)
  /-- `User::OnLoadPlayer` -/
  | enter (idaccount idplayer : Int32)
  /-- `OnStart` -/
  | start (idaccount : Int32)
  | act (idaccount : Int32) (deed : Deed)
  /-- `OnRestart` -/
  | restart (idaccount : Int32)
  /-- `OnDisconnected` -/
  | disconnect (idaccount : Int32)
  /-- the DB server handles the next message -/
  | database
  /-- the game server handles the next reply -/
  | deliver

/-- Does the message ask for a player, for the account? -/
def S2D.IsLoadBy (idaccount : Int32) : S2D → Prop
  | .loadPlayer _ asking => asking = idaccount
  | .saveAllProperty _ | .updateProperty _ | .skillUp _ | .learnSkill _ => False

instance (idaccount : Int32) : DecidablePred (S2D.IsLoadBy idaccount)
  | .loadPlayer _ asking => inferInstanceAs (Decidable (asking = idaccount))
  | .saveAllProperty _ | .updateProperty _ | .skillUp _ | .learnSkill _ => isFalse id

namespace Saving

variable (s : Saving)

def setSession (idaccount : Int32) (session : Option Session) : Saving :=
  { s with sessions := Function.update s.sessions idaccount session }

/-- `Socket::DBClient().write`, once for each message. -/
def write (messages : List S2D) : Saving := { s with toDb := s.toDb ++ messages }

/-- Nothing is in flight that an earlier session of the account has asked for. -/
def Settled (idaccount : Int32) : Prop :=
  (∀ message ∈ s.toDb, ¬ message.IsLoadBy idaccount) ∧
    ∀ reply ∈ s.toGame, reply.idaccount ≠ idaccount

instance (idaccount : Int32) : Decidable (s.Settled idaccount) :=
  inferInstanceAs (Decidable (_ ∧ _))

/-- The DB server handles a message. -/
def handle (message : S2D) : Saving :=
  { s with
    tables := Function.update s.tables message.idplayer
      (Record.applyTo (s.tables message.idplayer) message)
    toGame := s.toGame ++ message.replies (s.tables message.idplayer) }

/-- `DBListener::OnLoadPlayer` and `DBListener::OnLoadSkills`. -/
def onReply (db : SkillDb) (reply : D2S) : Except Stop Saving :=
  match s.sessions reply.idaccount with
  | none => .ok s
  | some session =>
    match reply.loaded with
    | none => .ok (s.setSession reply.idaccount (some { session with load := .idle }))
    | some (row, skills) =>
      match session.player.load db reply.idaccount reply.idplayer row skills with
      | .error fault => .error (.fault reply.idplayer fault)
      | .ok player => .ok (s.setSession reply.idaccount (some { session with player, load := .done }))

end Saving

def Saving.step (db : SkillDb) (s : Saving) : Saving.Op → Except Saving.Stop Saving
  -- The DB server lets nobody log in to the account before it has handled `S2D_DISCONNECT`, which is
  -- behind what the last session has written, and its answer is behind the replies to that.
  | .login idaccount user =>
    match s.sessions idaccount with
    | none =>
      if s.Settled idaccount then
        .ok (s.setSession idaccount (some ⟨⟨user, [], 0⟩, false, false, false, .idle⟩))
      else .error .idle
    | some _ => .error .idle
  | .playerInfo idaccount =>
    match s.sessions idaccount with
    | none => .error .idle
    | some session => .ok (s.setSession idaccount (some { session with lobby := true }))
  | .enter idaccount idplayer =>
    match s.sessions idaccount with
    | none => .error .idle
    | some session =>
      if session.lobby then
        let session := { session with lobby := false, loading := true, load := .asked idplayer }
        .ok ((s.setSession idaccount (some session)).write [.loadPlayer idplayer idaccount])
      else .error .idle
  | .start idaccount =>
    match s.sessions idaccount with
    | none => .error .idle
    | some session =>
      if session.loading then
        .ok (s.setSession idaccount (some { session with loading := false, ingame := true }))
      else .error .idle
  | .act idaccount deed =>
    match s.sessions idaccount with
    | none => .error .idle
    | some session =>
      if deed.NeedsGame ∧ session.ingame = false then .error .idle
      else
        match session.player.act db deed with
        | .error fault => .error (.fault session.playerId fault)
        | .ok (player, messages) =>
          .ok ((s.setSession idaccount (some { session with player })).write messages)
  | .restart idaccount =>
    match s.sessions idaccount with
    | none => .error .idle
    | some session =>
      if session.ingame then
        let left := { session with
          player := session.player.resetStates, ingame := false, load := .idle }
        .ok ((s.setSession idaccount (some left)).write
          [.saveAllProperty session.player.player.saved])
      else .error .idle
  | .disconnect idaccount =>
    match s.sessions idaccount with
    | none => .error .idle
    | some session =>
      let messages := if session.ingame then [S2D.saveAllProperty session.player.player.saved] else []
      .ok ((s.setSession idaccount none).write messages)
  | .database =>
    match s.toDb with
    | [] => .error .idle
    | message :: rest =>
      if message.Refused (s.tables message.idplayer) then .error (.refused message)
      else .ok ({ s with toDb := rest }.handle message)
  | .deliver =>
    match s.toGame with
    | [] => .error .idle
    | reply :: rest => { s with toGame := rest }.onReply db reply

/-- How clients use the requests: a player is asked for by a session that has none, and the game is
    started, and skills are learned and raised, with a player that has been loaded. The servers enforce
    none of this. -/
def Saving.Proper (s : Saving) : Saving.Op → Prop
  | .enter idaccount _ => ∀ session ∈ s.sessions idaccount, session.load = .idle
  | .start idaccount => ∀ session ∈ s.sessions idaccount, session.load = .done
  | .act idaccount deed =>
    ∀ session ∈ s.sessions idaccount, deed.NeedsGame ∨ session.load = .done
  | .login .. | .playerInfo _ | .restart _ | .disconnect _ | .database | .deliver => True

instance (s : Saving) : DecidablePred s.Proper
  | .enter idaccount _ => inferInstanceAs (Decidable (∀ session ∈ s.sessions idaccount, _))
  | .start idaccount => inferInstanceAs (Decidable (∀ session ∈ s.sessions idaccount, _))
  | .act idaccount _ => inferInstanceAs (Decidable (∀ session ∈ s.sessions idaccount, _))
  | .login .. | .playerInfo _ | .restart _ | .disconnect _ | .database | .deliver => isTrue trivial

end Bango.Characters
