import Mathlib.Algebra.Ring.Int.Defs
import Bango.Characters.Records

set_option autoImplicit false

/-! # What one server writes, the other reads

Both servers name the fields of each packet in the same order and with the same widths. -/

namespace Bango.Characters

open Bango.Lib Bango.Network

variable (memory : Memory) (player : Player)

/-! ## From the game server to the DB server -/

/-- The properties of a player. -/
def Player.saved : DatabaseManager.SaveAllProperty where
  pid := player.data.playerId
  level := player.data.level
  x := player.x
  y := player.y
  z := player.z
  contribute := player.data.contribute
  curHp := player.curHp
  curMp := player.curMp
  exp := player.data.exp
  puPoint := player.data.puPoint
  suPoint := player.data.suPoint
  rage := player.data.rage

/-- What points can be distributed to. -/
def Player.distributed : DatabaseManager.UpdateProperty where
  pid := player.data.playerId
  strength := player.data.strength
  health := player.data.health
  inteligence := player.data.inteligence
  wisdom := player.data.wisdom
  dexterity := player.data.dexterity
  puPoint := player.data.puPoint

theorem saveAllProperty_arrives :
    Arrives (.ok (player.saveAllProperty memory)) s2dSaveAllProperty DatabaseManager.saveAllProperty
      player.saved := by
  refine ((Packet.Holds.ofType memory _).pushes _ ?_).arrives ?_
  · simp only [List.nil_append, List.flatten_cons, List.flatten_nil, List.length_append,
      Packed.length_encode']
    decide
  · simp only [List.nil_append, List.flatten_cons, DatabaseManager.saveAllProperty,
      Pops.runBytes_get_bind]
    rfl

theorem insertItem_arrives (info : ItemInfo) (localId : UInt32) :
    Arrives (.ok (player.insertItem memory info localId)) s2dInsertItem DatabaseManager.insertItem
      { info, idplayer := player.data.playerId, id := player.uid, localId } := by
  refine ((Packet.Holds.ofType memory _).pushes _ ?_).arrives ?_
  · simp only [List.nil_append, List.flatten_cons, List.flatten_nil, List.length_append,
      Packed.length_encode']
    decide
  · simp only [List.nil_append, List.flatten_cons, DatabaseManager.insertItem,
      Pops.runBytes_get_bind]
    rfl

/-- A packet made by a format string arrives when its bytes fit and are what is read. -/
theorem ofFormat_arrives {α : Type} {type : UInt8} {args : List Packet.FormatArg} {reads : Pops α}
    {a : α} (hfit : 3 + (args.flatMap Packet.FormatArg.encoding).length ≤ maxPacketLength)
    (hread : reads.runBytes (args.flatMap Packet.FormatArg.encoding) = .ok (a, [])) :
    Arrives (Packet.ofFormat memory type args) type reads a := by
  obtain ⟨p, hp, hholds⟩ := Packet.Holds.ofFormat memory type hfit
  rw [hp]
  exact hholds.arrives hread

theorem onUpdateProperty_arrives :
    Arrives (player.onUpdateProperty memory) s2dUpdateProperty DatabaseManager.updateProperty
      player.distributed := by
  refine ofFormat_arrives memory ?_ ?_
  · simp only [List.flatMap_cons, List.flatMap_nil, Packet.FormatArg.encoding, List.length_append,
      Packed.length_encode']
    decide
  · -- An `int` is pushed as an unsigned one, with the same bytes.
    have hpid : encode player.data.playerId.toUInt32 = encode player.data.playerId := rfl
    simp only [List.flatMap_cons, Packet.FormatArg.encoding, hpid, DatabaseManager.updateProperty,
      Pops.runBytes_get_bind]
    rfl

theorem onSkillUp_arrives (index level : UInt8) :
    Arrives (player.onSkillUp memory index level) s2dSkillUp DatabaseManager.upgradeSkill
      { idPlayer := player.data.playerId.toUInt32, index, level
        skillPoints := player.data.suPoint - 1 } := by
  refine ofFormat_arrives memory ?_ ?_
  · simp only [List.flatMap_cons, List.flatMap_nil, Packet.FormatArg.encoding, List.length_append,
      Packed.length_encode']
    decide
  · simp only [List.flatMap_cons, Packet.FormatArg.encoding, DatabaseManager.upgradeSkill,
      Pops.runBytes_get_bind]
    rfl

theorem onLearnSkill_arrives (index : UInt8) :
    Arrives (player.onLearnSkill memory index) s2dLearnSkill DatabaseManager.learnSkill
      { idPlayer := player.data.playerId.toUInt32, index
        skillPoints := player.data.suPoint - 1 } := by
  refine ofFormat_arrives memory ?_ ?_
  · simp only [List.flatMap_cons, List.flatMap_nil, Packet.FormatArg.encoding, List.length_append,
      Packed.length_encode']
    decide
  · simp only [List.flatMap_cons, Packet.FormatArg.encoding, DatabaseManager.learnSkill,
      Pops.runBytes_get_bind]
    rfl

/-! ## From the DB server to the game server -/

/-- The struct that the game server reads in one piece, made of what is sent in pieces. -/
def PlayerRow.playerInfo (row : PlayerRow) (idaccount idplayer : Int32) : PlayerInfo where
  accountId := idaccount
  playerId := idplayer
  playerClass := row.playerClass.toUInt32.toUInt8
  job := row.job.toUInt32.toUInt8
  level := row.level.toUInt32.toUInt8
  map := row.map.toUInt32.toUInt8
  strength := row.strength.toUInt32.toUInt16
  health := row.health.toUInt32.toUInt16
  inteligence := row.inteligence.toUInt32.toUInt16
  wisdom := row.wisdom.toUInt32.toUInt16
  dexterity := row.dexterity.toUInt32.toUInt16
  curHp := row.curHp.toUInt32
  curMp := row.curMp.toUInt32
  exp := row.exp.toUInt64
  puPoint := row.puPoint.toUInt32.toUInt16
  suPoint := row.suPoint.toUInt32.toUInt16
  contribute := row.contribute.toUInt32.toUInt16
  rage := row.anger.toUInt32
  z := row.z
  face := row.face.toUInt32.toUInt8
  hair := row.hair.toUInt32.toUInt8

/-- The player after `OnLoadPlayer`. -/
def Player.loaded (player : Player) (row : PlayerRow) (idaccount idplayer : Int32) : Player :=
  let data := row.playerInfo idaccount idplayer
  { player with
    data, name := row.name, x := row.x, y := row.y, z := data.z, map := data.map
    curHp := data.curHp, curMp := data.curMp }

/-- The fields that are pushed one by one make up the struct. -/
theorem flatten_fields (id : UInt32) (idaccount idplayer : Int32) (row : PlayerRow) :
    (DatabaseManager.fields id idaccount idplayer row).flatten =
      encode id ++ (encode (0 : Int8) ++ encode (row.playerInfo idaccount idplayer)) := by
  simp only [DatabaseManager.fields, List.flatten_cons, List.flatten_nil, List.append_nil]
  rfl

theorem loadPlayer_arrives (row : PlayerRow) (idaccount idplayer : Int32) (hname : 0 ∉ row.name) :
    Arrives (DatabaseManager.loadPlayer memory player.uid idaccount idplayer (some row))
      d2sLoadPlayer (DBListener.onLoadPlayer player) (player.loaded row idaccount idplayer) := by
  have hmax : maxPacketLength = 32768 := rfl
  have hfields := flatten_fields player.uid idaccount idplayer row
  have hlen : (DatabaseManager.fields player.uid idaccount idplayer row).flatten.length = 59 := by
    simp only [hfields, List.length_append, Packed.length_encode']
    rfl
  have hnameLen := row.name_le
  have hstart := (Packet.Holds.ofType memory d2sLoadPlayer).pushes
    (DatabaseManager.fields player.uid idaccount idplayer row)
    (by rw [List.nil_append, hlen, hmax]; decide)
  obtain ⟨out, hout, hnamed⟩ := hstart.pushStr hname
    (by simp only [List.nil_append, List.length_append, hlen, List.length_singleton]; omega)
  have hdone := hnamed.pushes [encode row.x, encode row.y]
    (by
      simp only [List.nil_append, List.flatten_cons, List.flatten_nil, List.length_append, hlen,
        List.length_singleton, Packed.length_encode', List.length_nil]
      change 3 + (59 + (row.name.length + 1) + (4 + (4 + 0))) ≤ 32768
      omega)
  have hwritten : DatabaseManager.loadPlayer memory player.uid idaccount idplayer (some row) =
      .ok (out.pushes [encode row.x, encode row.y]) := by
    unfold DatabaseManager.loadPlayer
    simp only [hout]
    rfl
  rw [hwritten]
  refine hdone.arrives ?_
  have hbytes : [] ++ (DatabaseManager.fields player.uid idaccount idplayer row).flatten ++
      (row.name ++ [0]) ++ [encode row.x, encode row.y].flatten =
        encode player.uid ++ (encode (0 : Int8) ++ (encode (row.playerInfo idaccount idplayer) ++
          (row.name ++ 0 :: (encode row.x ++ (encode row.y ++ []))))) := by
    rw [hfields]
    simp
  rw [hbytes]
  simp only [DBListener.onLoadPlayer, Player.onLoadPlayer, Pops.runBytes_get_bind, if_true, ne_eq,
    not_true_eq_false, if_false, Pops.runBytes_str_bind _ hname]
  rfl

/-- A column is within the width that it is sent with. -/
def Within (v : Int32) (width : Nat) : Prop := 0 ≤ v.toInt ∧ v.toInt < 2 ^ width

instance (v : Int32) (width : Nat) : Decidable (Within v width) := inferInstanceAs (Decidable (_ ∧ _))

/-- The columns of a row are within their widths, and the name has no NUL. -/
structure PlayerRow.Fits (row : PlayerRow) : Prop where
  playerClass : Within row.playerClass 8
  job : Within row.job 8
  level : Within row.level 8
  map : Within row.map 8
  strength : Within row.strength 16
  health : Within row.health 16
  inteligence : Within row.inteligence 16
  wisdom : Within row.wisdom 16
  dexterity : Within row.dexterity 16
  curHp : Within row.curHp 32
  curMp : Within row.curMp 32
  exp : 0 ≤ row.exp.toInt
  puPoint : Within row.puPoint 16
  suPoint : Within row.suPoint 16
  contribute : Within row.contribute 16
  anger : Within row.anger 32
  face : Within row.face 8
  hair : Within row.hair 8
  name : 0 ∉ row.name

/-- A player has exactly the values of a row. -/
structure Player.Shows (player : Player) (idaccount idplayer : Int32) (row : PlayerRow) : Prop where
  accountId : player.data.accountId = idaccount
  playerId : player.data.playerId = idplayer
  playerClass : (player.data.playerClass.toNat : Int) = row.playerClass.toInt
  job : (player.data.job.toNat : Int) = row.job.toInt
  level : (player.data.level.toNat : Int) = row.level.toInt
  map : (player.map.toNat : Int) = row.map.toInt
  strength : (player.data.strength.toNat : Int) = row.strength.toInt
  health : (player.data.health.toNat : Int) = row.health.toInt
  inteligence : (player.data.inteligence.toNat : Int) = row.inteligence.toInt
  wisdom : (player.data.wisdom.toNat : Int) = row.wisdom.toInt
  dexterity : (player.data.dexterity.toNat : Int) = row.dexterity.toInt
  curHp : (player.curHp.toNat : Int) = row.curHp.toInt
  curMp : (player.curMp.toNat : Int) = row.curMp.toInt
  exp : (player.data.exp.toNat : Int) = row.exp.toInt
  puPoint : (player.data.puPoint.toNat : Int) = row.puPoint.toInt
  suPoint : (player.data.suPoint.toNat : Int) = row.suPoint.toInt
  contribute : (player.data.contribute.toNat : Int) = row.contribute.toInt
  rage : (player.data.rage.toNat : Int) = row.anger.toInt
  face : (player.data.face.toNat : Int) = row.face.toInt
  hair : (player.data.hair.toNat : Int) = row.hair.toInt
  name : player.name = row.name
  x : player.x = row.x
  y : player.y = row.y
  z : player.z = row.z

namespace Within

variable {v : Int32}

theorem toUInt32 (h : Within v 32) : (v.toUInt32.toNat : Int) = v.toInt := by
  have hle : 0 ≤ v := Int32.le_iff_toInt_le.2 h.1
  rw [Int32.toNat_toUInt32_of_le hle, ← Int32.toNat_toInt, Int.toNat_of_nonneg h.1]

theorem toUInt16 (h : Within v 16) : (v.toUInt32.toUInt16.toNat : Int) = v.toInt := by
  have hlt := h.2
  have hv := toUInt32 ⟨h.1, by omega⟩
  rw [UInt32.toNat_toUInt16]
  omega

theorem toUInt8 (h : Within v 8) : (v.toUInt32.toUInt8.toNat : Int) = v.toInt := by
  have hlt := h.2
  have hv := toUInt32 ⟨h.1, by omega⟩
  rw [UInt32.toNat_toUInt8]
  omega

end Within

/-- Nothing of a row that fits is lost. -/
theorem loaded_shows {row : PlayerRow} (h : row.Fits) (idaccount idplayer : Int32) :
    (player.loaded row idaccount idplayer).Shows idaccount idplayer row where
  accountId := rfl
  playerId := rfl
  playerClass := h.playerClass.toUInt8
  job := h.job.toUInt8
  level := h.level.toUInt8
  map := h.map.toUInt8
  strength := h.strength.toUInt16
  health := h.health.toUInt16
  inteligence := h.inteligence.toUInt16
  wisdom := h.wisdom.toUInt16
  dexterity := h.dexterity.toUInt16
  curHp := h.curHp.toUInt32
  curMp := h.curMp.toUInt32
  exp := by
    have hle : 0 ≤ row.exp := Int64.le_iff_toInt_le.2 h.exp
    show (row.exp.toUInt64.toNat : Int) = row.exp.toInt
    rw [Int64.toNat_toUInt64_of_le hle, ← Int64.toNat_toInt, Int.toNat_of_nonneg h.exp]
  puPoint := h.puPoint.toUInt16
  suPoint := h.suPoint.toUInt16
  contribute := h.contribute.toUInt16
  rage := h.anger.toUInt32
  face := h.face.toUInt8
  hair := h.hair.toUInt8
  name := rfl
  x := rfl
  y := rfl
  z := rfl

/-- What the game server writes about a player is read by the DB server field for field, and a row of
    the table is loaded with exactly its values; in each case nothing is left over. -/
theorem records_arrive :
    Arrives (.ok (player.saveAllProperty memory)) s2dSaveAllProperty DatabaseManager.saveAllProperty
      player.saved ∧
    Arrives (player.onUpdateProperty memory) s2dUpdateProperty DatabaseManager.updateProperty
      player.distributed ∧
    (∀ index level, Arrives (player.onSkillUp memory index level) s2dSkillUp
      DatabaseManager.upgradeSkill
      { idPlayer := player.data.playerId.toUInt32, index, level
        skillPoints := player.data.suPoint - 1 }) ∧
    (∀ index, Arrives (player.onLearnSkill memory index) s2dLearnSkill DatabaseManager.learnSkill
      { idPlayer := player.data.playerId.toUInt32, index
        skillPoints := player.data.suPoint - 1 }) ∧
    (∀ info localId, Arrives (.ok (player.insertItem memory info localId)) s2dInsertItem
      DatabaseManager.insertItem
      { info, idplayer := player.data.playerId, id := player.uid, localId }) ∧
    ∀ (row : PlayerRow) idaccount idplayer, row.Fits → ∃ loaded,
      Arrives (DatabaseManager.loadPlayer memory player.uid idaccount idplayer (some row))
        d2sLoadPlayer (DBListener.onLoadPlayer player) loaded ∧
      loaded.Shows idaccount idplayer row :=
  ⟨saveAllProperty_arrives memory player, onUpdateProperty_arrives memory player,
    onSkillUp_arrives memory player, onLearnSkill_arrives memory player,
    insertItem_arrives memory player, fun row idaccount idplayer hfits =>
      ⟨_, loadPlayer_arrives memory player row idaccount idplayer hfits.name,
        loaded_shows player hfits idaccount idplayer⟩⟩

/-- A row with a name of one letter. -/
def firstRow : PlayerRow where
  playerClass := 1
  job := 1
  level := 100
  map := 0
  strength := 300
  health := 250
  inteligence := 8
  wisdom := 8
  dexterity := 40
  curHp := 70000
  curMp := 120
  exp := 5000000000
  puPoint := 3
  suPoint := 2
  contribute := 0
  anger := 0
  z := 16044
  face := 2
  hair := 5
  name := [65]
  x := 258039
  y := -1
  name_le := by decide

/-- A player before its row is loaded. -/
def newcomer : Player where
  uid := 9
  data := Packed.decode []
  name := []
  x := 0
  y := 0
  z := 0
  map := 0
  curHp := 0
  curMp := 0

theorem records_arrive_firstRow :
    firstRow.Fits ∧ ∃ loaded,
      Arrives (DatabaseManager.loadPlayer (fun _ => 0) newcomer.uid 4 7 (some firstRow))
        d2sLoadPlayer (DBListener.onLoadPlayer newcomer) loaded ∧ loaded.Shows 4 7 firstRow :=
  have hfits : firstRow.Fits := by constructor <;> decide
  ⟨hfits, (records_arrive (fun _ => 0) newcomer).2.2.2.2.2 firstRow 4 7 hfits⟩

end Bango.Characters
