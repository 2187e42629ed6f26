import Bango.Characters.Proofs.LoadSkills
import Bango.Characters.Saving

set_option autoImplicit false

/-! # What is saved is loaded again

Whatever a handler changes and tells is what the record will have once the DB server has handled the
messages in flight. Since the request to load a player goes over the same link, a player that comes back
is loaded from a record that has everything that was told and saved before. -/

namespace Bango.Characters

open Bango.Lib

variable {db : SkillDb}

/-! ## Columns -/

@[simp]
theorem toUInt8_intOfByte (v : UInt8) : (intOfByte v).toUInt32.toUInt8 = v := by simp [intOfByte]

@[simp]
theorem toUInt16_intOfWord (v : UInt16) : (intOfWord v).toUInt32.toUInt16 = v := by simp [intOfWord]

theorem intOfByte_inj {v w : UInt8} : intOfByte v = intOfByte w ↔ v = w := by
  refine ⟨fun h => ?_, fun h => h ▸ rfl⟩
  rw [← toUInt8_intOfByte v, h, toUInt8_intOfByte]

@[simp]
theorem pushed_of (index level : UInt8) : (SkillRow.of index level).pushed = (index, level) := by
  simp [SkillRow.of, SkillRow.pushed]

/-- The experience that is loaded after some has been saved. -/
def savedExp (exp : UInt64) : UInt64 := (intOfLong exp).toInt64.toUInt64

/-! ## Players and records -/

/-- The data that is told to the DB server whenever it changes: all but what is only saved. -/
def PlayerInfo.told (data : PlayerInfo) : PlayerInfo :=
  { data with curHp := 0, curMp := 0, exp := 0, z := 0 }

/-- What would be loaded from a record now. -/
def Record.info (record : Record) (idplayer : Int32) : PlayerInfo :=
  record.row.playerInfo record.idaccount idplayer

/-- The row of a skill. -/
def Skill.row (skill : Skill) : SkillRow := .of skill.index skill.level

/-- The record has what is told about a player. -/
structure Player.ShownBy (player : Player) (record : Record) : Prop where
  told : player.data.told = (record.info player.data.playerId).told
  name : player.name = record.row.name
  map : player.map = (record.info player.data.playerId).map

/-- The record has what is told about a player and its skills. -/
structure Skilled.ShownBy (s : Skilled) (record : Record) : Prop where
  player : s.player.ShownBy record
  skills : record.skills.Perm (s.skills.map Skill.row)

/-- The record has also what is only saved. -/
structure Skilled.SavedIn (s : Skilled) (record : Record) : Prop extends s.ShownBy record where
  x : s.player.x = record.row.x
  y : s.player.y = record.row.y
  z : s.player.z = record.row.z
  curHp : s.player.curHp = record.row.curHp.toUInt32
  curMp : s.player.curMp = record.row.curMp.toUInt32
  exp : record.row.exp.toUInt64 = savedExp s.player.data.exp

/-- The player that was left is there again, except for the upper half of its experience. -/
structure Skilled.Restored (s s' : Skilled) : Prop where
  told : s'.player.data.told = s.player.data.told
  name : s'.player.name = s.player.name
  map : s'.player.map = s.player.map
  x : s'.player.x = s.player.x
  y : s'.player.y = s.player.y
  z : s'.player.z = s.player.z
  curHp : s'.player.curHp = s.player.curHp
  curMp : s'.player.curMp = s.player.curMp
  exp : s'.player.data.exp = savedExp s.player.data.exp
  skills : s'.skills.Perm s.skills
  nHit : s'.nHit = s.nHit

/-! ## The messages -/

section Messages

variable {player : Player} {s : Skilled} {record : Record}

theorem told_idplayer {data data' : PlayerInfo} (h : data.told = data'.told) :
    data.playerId = data'.playerId := congrArg (fun data => data.playerId) h

/-- After `SaveAllProperty` the record has also the level, the points and what never changes. -/
theorem Player.ShownBy.saveAllProperty {player' : Player} (h : player.ShownBy record)
    (hname : player'.name = player.name) (hmap : player'.map = player.map)
    (hdata : player'.data.told =
      { player.data.told with
        level := player'.data.level, contribute := player'.data.contribute
        puPoint := player'.data.puPoint, suPoint := player'.data.suPoint, rage := player'.data.rage }) :
    player'.ShownBy (record.apply (.saveAllProperty player'.saved)) := by
  have hid : player'.data.playerId = player.data.playerId :=
    congrArg (fun data => data.playerId) hdata
  refine ⟨?_, hname.trans h.name, ?_⟩
  · rw [hdata, h.told, hid]
    simp [Record.apply, Record.info, PlayerRow.saveAllProperty, PlayerRow.playerInfo, Player.saved,
      PlayerInfo.told]
  · rw [hmap, h.map, hid]
    rfl

theorem Player.ShownBy.save (h : player.ShownBy record) :
    player.ShownBy (record.apply (.saveAllProperty player.saved)) :=
  h.saveAllProperty rfl rfl rfl

theorem Player.ShownBy.updateProperty {player' : Player} (h : player.ShownBy record)
    (hname : player'.name = player.name) (hmap : player'.map = player.map)
    (hdata : player'.data.told =
      { player.data.told with
        strength := player'.data.strength, health := player'.data.health
        inteligence := player'.data.inteligence, wisdom := player'.data.wisdom
        dexterity := player'.data.dexterity, puPoint := player'.data.puPoint }) :
    player'.ShownBy (record.apply (.updateProperty player'.distributed)) := by
  have hid : player'.data.playerId = player.data.playerId :=
    congrArg (fun data => data.playerId) hdata
  refine ⟨?_, hname.trans h.name, ?_⟩
  · rw [hdata, h.told, hid]
    simp [Record.apply, Record.info, PlayerRow.updateProperty, PlayerRow.playerInfo,
      Player.distributed, PlayerInfo.told]
  · rw [hmap, h.map, hid]
    rfl

/-- A skill point is taken on both sides. -/
theorem Player.ShownBy.withSuPoint (h : player.ShownBy record) (suPoint : UInt16)
    (skills : List SkillRow) :
    Player.ShownBy { player with data := { player.data with suPoint } }
      { record with row := record.row.withSuPoint suPoint, skills } := by
  refine ⟨?_, h.name, h.map⟩
  have htold : PlayerInfo.told { player.data with suPoint } = { player.data.told with suPoint } := rfl
  rw [htold, h.told]
  simp [Record.info, PlayerRow.withSuPoint, PlayerRow.playerInfo, PlayerInfo.told]

/-- The row of a skill whose level is set where the skill's is. -/
theorem setLevel_row (index level : UInt8) (skill : Skill) :
    SkillRow.setLevel index level skill.row =
      (if skill.index = index then skill.setLevel level else skill).row := by
  unfold SkillRow.setLevel Skill.row SkillRow.of
  by_cases h : skill.index = index
  · rw [if_pos h, if_pos (intOfByte_inj.2 h)]
    rfl
  · rw [if_neg h, if_neg (fun heq => h (intOfByte_inj.1 heq))]

theorem perm_updateKey {rows : List SkillRow} {skills : List Skill}
    (h : rows.Perm (skills.map Skill.row)) (index level : UInt8) :
    (rows.map (SkillRow.setLevel index level)).Perm
      ((updateKey Skill.index index (·.setLevel level) skills).map Skill.row) := by
  refine (h.map _).trans (List.Perm.of_eq ?_)
  unfold updateKey
  rw [List.map_map, List.map_map]
  exact List.map_congr_left fun skill _ => setLevel_row index level skill

end Messages

/-! ## Handlers -/

/-- The message asks for a player. -/
def S2D.IsLoad : S2D → Prop
  | .loadPlayer _ _ => True
  | .saveAllProperty _ | .updateProperty _ | .skillUp _ | .learnSkill _ => False

/-- What a handler changes is told by what it writes. -/
structure Skilled.Tells (db : SkillDb) (s s' : Skilled) (messages : List S2D) : Prop where
  idplayer : s'.player.data.playerId = s.player.data.playerId
  about : ∀ message ∈ messages, message.idplayer = s.player.data.playerId ∧ ¬ message.IsLoad
  inv : s.Inv db → s'.Inv db
  shown : ∀ record, s.ShownBy record → s'.ShownBy (messages.foldl Record.apply record)

namespace Skilled

variable {s s' s'' : Skilled} {messages messages' : List S2D}

theorem Inv.withPlayer {player : Player} (h : s.Inv db)
    (hclass : player.data.playerClass = s.player.data.playerClass) : { s with player }.Inv db :=
  ⟨h.keyed, fun skill hmem =>
    (createSkill_congr hclass skill.index skill.level).trans (h.made skill hmem), h.hit⟩

namespace Tells

theorem refl (s : Skilled) : s.Tells db s [] where
  idplayer := rfl
  about := fun _ hmem => absurd hmem List.not_mem_nil
  inv := id
  shown := fun _ => id

theorem trans (h : s.Tells db s' messages) (h' : s'.Tells db s'' messages') :
    s.Tells db s'' (messages ++ messages') where
  idplayer := h'.idplayer.trans h.idplayer
  about := by
    intro message hmem
    rcases List.mem_append.1 hmem with hmem | hmem
    · exact h.about message hmem
    · exact ⟨(h'.about message hmem).1.trans h.idplayer, (h'.about message hmem).2⟩
  inv := fun hinv => h'.inv (h.inv hinv)
  shown := by
    intro record hshown
    rw [List.foldl_append]
    exact h'.shown _ (h.shown record hshown)

/-- Something has changed that is only saved. -/
theorem silent {player : Player} (htold : player.data.told = s.player.data.told)
    (hname : player.name = s.player.name) (hmap : player.map = s.player.map) :
    s.Tells db { s with player } [] where
  idplayer := told_idplayer htold
  about := fun _ hmem => absurd hmem List.not_mem_nil
  inv := fun hinv => hinv.withPlayer (congrArg (fun data => data.playerClass) htold)
  shown := by
    rintro record ⟨⟨htold', hname', hmap'⟩, hskills⟩
    have hid : player.data.playerId = s.player.data.playerId := told_idplayer htold
    refine ⟨⟨?_, hname.trans hname', ?_⟩, hskills⟩
    · show player.data.told = (record.info player.data.playerId).told
      rw [hid, htold, htold']
    · show player.map = (record.info player.data.playerId).map
      rw [hid, hmap, hmap']

/-- A player with a new level is saved. -/
theorem levelUp {inventory : InventoryProperty} {player player' : Player}
    (h : player.levelUp inventory = .ok player') :
    Tells db { s with player } { s with player := player' } [.saveAllProperty player'.saved] := by
  have hclass := Player.levelUp_playerClass h
  obtain ⟨curHp, curMp, rfl⟩ := Player.levelUp_eq_ok inventory h
  refine ⟨rfl, ?_, fun hinv => hinv.withPlayer hclass, ?_⟩
  · intro message hmem
    rw [List.mem_singleton.1 hmem]
    exact ⟨rfl, id⟩
  · rintro record ⟨hplayer, hskills⟩
    exact ⟨hplayer.saveAllProperty rfl rfl rfl, hskills⟩

end Tells

theorem Tells.withExp (s : Skilled) (player : Player) (exp : UInt64) :
    Tells db { s with player } { s with player := player.withExp exp } [] :=
  .silent rfl rfl rfl

theorem levelUpsWriting_tells {inventory : InventoryProperty} {player player' : Player}
    {required : UInt64} (h : player.levelUpsWriting inventory required = .ok (player', messages)) :
    Tells db { s with player } { s with player := player' } messages := by
  fun_induction Player.levelUpsWriting inventory player required generalizing messages with
  | case1 => cases h
  | case2 player required hlt player₁ hup message =>
      cases h
      exact (Tells.withExp s player _).trans ((Tells.levelUp hup).trans (Tells.withExp s player₁ 0))
  | case3 => cases h
  | case4 => cases h
  | case5 player required hlt player₁ hup message hmax required' hreq player₂ messages hups =>
      rename_i ih
      cases h
      exact (Tells.withExp s player _).trans ((Tells.levelUp hup).trans (ih hups))
  | case6 =>
      cases h
      exact .refl _

theorem updateExp_told {player player' : Player} {inventory : InventoryProperty} {amount : Int64}
    (hearly : amount = 0 ∨ amount < 0 ∨ maxLevel ≤ player.data.level)
    (h : player.updateExp inventory amount = .ok player') : ∃ exp, player' = player.withExp exp := by
  unfold Player.updateExp at h
  split_ifs at h with hzero hneg _ hmax
  · exact ⟨player.data.exp, (Except.ok.inj h).symm⟩
  · exact ⟨_, (Except.ok.inj h).symm⟩
  · exact ⟨_, (Except.ok.inj h).symm⟩
  · exact ⟨player.data.exp, (Except.ok.inj h).symm⟩
  · rcases hearly with hzero' | hneg' | hmax'
    · exact absurd hzero' hzero
    · exact absurd hneg' hneg
    · exact absurd hmax' hmax

theorem updateExpWriting_tells {inventory : InventoryProperty} {player' : Player} {amount : Int64}
    (h : s.player.updateExpWriting inventory amount = .ok (player', messages)) :
    Tells db s { s with player := player' } messages := by
  unfold Player.updateExpWriting at h
  split_ifs at h with hearly
  · cases hup : s.player.updateExp inventory amount with
    | error fault =>
        rw [hup] at h
        cases h
    | ok player =>
        rw [hup] at h
        cases h
        obtain ⟨exp, rfl⟩ := updateExp_told hearly hup
        exact Tells.withExp s s.player exp
  · obtain ⟨required, -, hups⟩ := bind_eq_ok.1 h
    exact (Tells.withExp s s.player _).trans (levelUpsWriting_tells hups)

theorem tryUpdateProperty_eq {data data' : PlayerInfo} {stats : Vector UInt8 5}
    (h : data.tryUpdateProperty stats = .ok (some data')) : ∃ required, data' = data.raise stats required := by
  unfold PlayerInfo.tryUpdateProperty at h
  split_ifs at h
  · cases h
  · cases h
  · cases h
  · cases h
  · cases h
  · obtain ⟨required, -, hreq⟩ := bind_eq_ok.1 h
    split_ifs at hreq
    · cases hreq
    · cases hreq
      exact ⟨required, rfl⟩

theorem updateProperty_tells {data : PlayerInfo} {stats : Vector UInt8 5}
    (h : s.player.data.tryUpdateProperty stats = .ok (some data)) :
    s.Tells db (s.withData data) [.updateProperty (s.withData data).player.distributed] := by
  obtain ⟨required, rfl⟩ := tryUpdateProperty_eq h
  refine ⟨rfl, ?_, fun hinv => hinv.withPlayer rfl, ?_⟩
  · intro message hmem
    rw [List.mem_singleton.1 hmem]
    exact ⟨rfl, id⟩
  · rintro record ⟨hplayer, hskills⟩
    exact ⟨hplayer.updateProperty rfl rfl rfl, hskills⟩

theorem skillUp_tells (s : Skilled) (index : UInt8) :
    s.Tells db (s.onSkillUp db index) (s.skillUpWrites db index) := by
  unfold onSkillUp skillUpWrites
  split_ifs with hcan
  · cases hget : s.getByIndex index with
    | none => exact .refl s
    | some skill =>
        have hmem := mem_of_findKey hget
        have hindex : skill.index = index := key_of_findKey hget
        refine ⟨?_, ?_, ?_, ?_⟩
        · rw [onApply_player]
          rfl
        · intro message hmem'
          rw [List.mem_singleton.1 hmem']
          exact ⟨rfl, id⟩
        · intro hinv
          simp only [takePoint_onApply]
          exact (hinv.setLevel hmem (by rw [hindex])).takePoint
        · rintro record ⟨hplayer, hskills⟩
          refine ⟨?_, ?_⟩
          · rw [onApply_player]
            exact hplayer.withSuPoint _ _
          · rw [onApply_skills]
            exact perm_updateKey hskills index _
  · exact .refl s

theorem learnSkill_tells {index : UInt8} (h : s.onLearnSkill db index = .ok s') :
    s.Tells db s' (s.learnSkillWrites db index) := by
  unfold onLearnSkill at h
  unfold learnSkillWrites
  split_ifs at h ⊢ with hcan
  · cases hget : s.getByIndex index with
    | some skill =>
        rw [hget] at h
        cases h
        exact .refl s
    | none =>
        rw [hget] at h
        cases hadd : s.add db index 1 with
        | none =>
            rw [hadd] at h
            cases h
        | some added =>
            obtain ⟨skill, s₁⟩ := added
            rw [hadd] at h
            cases h
            obtain ⟨hmade, -, rfl⟩ := add_eq hadd
            obtain ⟨hindex, hlevel, -, -⟩ := createSkill_eq hmade
            refine ⟨?_, ?_, ?_, ?_⟩
            · rw [onApply_player]
              rfl
            · intro message hmem
              rw [List.mem_singleton.1 hmem]
              exact ⟨rfl, id⟩
            · intro hinv
              rw [takePoint_onApply]
              exact (hinv.add hadd).takePoint
            · rintro record ⟨hplayer, hskills⟩
              refine ⟨?_, ?_⟩
              · rw [onApply_player]
                exact hplayer.withSuPoint _ _
              · rw [onApply_skills]
                have hrow : skill.row = .of index 1 := by rw [Skill.row, hindex, hlevel]
                show (record.skills ++ [SkillRow.of index 1]).Perm (skill.row :: s.skills.map Skill.row)
                rw [hrow]
                exact List.perm_append_singleton _ _ |>.trans (hskills.cons _)
  · cases h
    exact .refl s

/-- One lemma for all handlers. -/
theorem act_tells {deed : Deed} (h : s.act db deed = .ok (s', messages)) :
    s.Tells db s' messages := by
  cases deed with
  | updateProperty stats =>
      obtain ⟨updated, htry, hact⟩ := bind_eq_ok.1 h
      cases updated with
      | none =>
          cases hact
          exact .refl s
      | some data =>
          cases hact
          exact updateProperty_tells htry
  | skillUp index =>
      cases h
      exact skillUp_tells s index
  | learnSkill index =>
      obtain ⟨s₁, hlearn, hact⟩ := bind_eq_ok.1 h
      cases hact
      exact learnSkill_tells hlearn
  | updateExp inventory amount =>
      obtain ⟨⟨player, messages⟩, hup, hact⟩ := bind_eq_ok.1 h
      cases hact
      exact updateExpWriting_tells hup
  | live x y z curHp curMp =>
      cases h
      exact .silent rfl rfl rfl
  | save =>
      cases h
      refine ⟨rfl, ?_, id, ?_⟩
      · intro message hmem
        rw [List.mem_singleton.1 hmem]
        exact ⟨rfl, id⟩
      · rintro record ⟨hplayer, hskills⟩
        exact ⟨hplayer.save, hskills⟩

/-- When a player is left, everything is saved. -/
theorem ShownBy.savedIn {record : Record} (h : s.ShownBy record) :
    s.SavedIn (record.apply (.saveAllProperty s.player.saved)) where
  player := h.player.save
  skills := h.skills
  x := rfl
  y := rfl
  z := rfl
  curHp := (UInt32.toUInt32_toInt32 _).symm
  curMp := (UInt32.toUInt32_toInt32 _).symm
  exp := rfl

end Skilled

end Bango.Characters
