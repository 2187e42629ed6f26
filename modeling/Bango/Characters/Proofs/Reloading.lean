import Bango.Characters.Proofs.Saving

set_option autoImplicit false

/-! # Loading a player from its record

The rows of the skills become the skills again. -/

namespace Bango.Characters

open Bango.Lib

variable {db : SkillDb}

/-- The rows of the skills are made of bytes, and a byte is enough for their number. -/
structure Record.Loadable (record : Record) : Prop where
  bytes : ∀ row ∈ record.skills, ∃ index level, row = .of index level
  length_le : record.skills.length ≤ 255

theorem Record.Loadable.map_pushed {record : Record} (h : record.Loadable) :
    (record.skills.map SkillRow.pushed).map (fun row => SkillRow.of row.1 row.2) = record.skills := by
  rw [List.map_map]
  refine (List.map_congr_left fun row hrow => ?_).trans (List.map_id _)
  obtain ⟨index, level, rfl⟩ := h.bytes row hrow
  simp

namespace Skilled

variable {s s' : Skilled}

/-- The indexes of skills end before 255, so there are fewer of them than that. -/
theorem Inv.length_le (h : s.Inv db) : s.skills.length ≤ 255 := by
  have hsub : s.skills.map Skill.index ⊆ (List.range 85).map UInt8.ofNat := by
    intro index hindex
    obtain ⟨skill, hmem, rfl⟩ := List.mem_map.1 hindex
    obtain ⟨-, -, -, hfind⟩ := createSkill_eq (h.made skill hmem)
    unfold SkillDb.findPlayerSkill at hfind
    split_ifs at hfind with _ hmax
    have hle : skill.index.toNat ≤ 84 := UInt8.le_iff_toNat_le.1 (UInt8.not_lt.1 hmax)
    exact List.mem_map.2 ⟨_, List.mem_range.2 (by omega), UInt8.ofNat_toNat⟩
  have hle := (List.subperm_of_subset h.keyed hsub).length_le
  simp only [List.length_map, List.length_range] at hle
  omega

theorem ShownBy.loadable {record : Record} (h : s.ShownBy record) (hinv : s.Inv db) :
    record.Loadable where
  bytes := by
    intro row hrow
    obtain ⟨skill, -, rfl⟩ := List.mem_map.1 (h.skills.mem_iff.1 hrow)
    exact ⟨_, _, rfl⟩
  length_le := by
    rw [h.skills.length_eq, List.length_map]
    exact hinv.length_le

/-- Each row has become a skill. -/
theorem onLoadSkills_rows {rows : List (UInt8 × UInt8)} (h : onLoadSkills db rows s = .ok s') :
    s'.player = s.player ∧ (s'.skills.map Skill.row).Perm
      (rows.map (fun row => SkillRow.of row.1 row.2) ++ s.skills.map Skill.row) := by
  induction rows generalizing s with
  | nil =>
      cases h
      exact ⟨rfl, List.Perm.refl _⟩
  | cons row rows ih =>
      rw [onLoadSkills] at h
      cases hadd : s.add db row.1 row.2 with
      | none =>
          rw [hadd] at h
          cases h
      | some added =>
          obtain ⟨skill, s₁⟩ := added
          rw [hadd] at h
          obtain ⟨hplayer, hskills⟩ := ih h
          obtain ⟨hmade, -, rfl⟩ := add_eq hadd
          obtain ⟨hindex, hlevel, -, -⟩ := createSkill_eq hmade
          rw [onApply_player] at hplayer
          rw [onApply_skills] at hskills
          refine ⟨hplayer, hskills.trans ?_⟩
          rw [List.map_cons, Skill.row, hindex, hlevel]
          exact List.perm_middle

/-- What is loaded is the player that was asked for. -/
theorem playerId_of_load {user : Skilled} {idaccount idplayer : Int32} {row : PlayerRow}
    {skills : List SkillRow} (h : user.load db idaccount idplayer row skills = .ok s) :
    s.player.data.playerId = idplayer := by
  rw [(onLoadSkills_rows h).1]
  rfl

/-- No skill has been added since the constructor or `ResetStates`. -/
structure IsReset (s : Skilled) : Prop where
  skills : s.skills = []
  nHit : s.nHit = 0

theorem isReset_resetStates (s : Skilled) : s.resetStates.IsReset := ⟨rfl, rfl⟩

variable {user : Skilled} {record : Record} {idplayer : Int32}

theorem load_eq (h : record.Loadable) (hreset : user.IsReset) :
    user.load db record.idaccount idplayer record.row record.skills =
      onLoadSkills db (record.skills.map SkillRow.pushed)
        ⟨user.player.loaded record.row record.idaccount idplayer, [], 0⟩ := by
  have hcount : (UInt8.ofNat record.skills.length).toNat = record.skills.length :=
    UInt8.toNat_ofNat_of_lt (Nat.lt_succ_of_le h.length_le)
  rw [load, hcount, List.take_of_length_le (by rw [List.length_map]), hreset.skills, hreset.nHit]

/-- A player that has been loaded is what the record has. -/
theorem shownBy_load (hloadable : record.Loadable) (hreset : user.IsReset)
    (h : user.load db record.idaccount idplayer record.row record.skills = .ok s) :
    s.ShownBy record ∧ s.Inv db ∧
      s.player = user.player.loaded record.row record.idaccount idplayer := by
  rw [load_eq hloadable hreset] at h
  obtain ⟨hplayer, hskills⟩ := onLoadSkills_rows h
  have hempty : Inv db ⟨user.player.loaded record.row record.idaccount idplayer, [], 0⟩ :=
    ⟨keyed_nil, fun _ hmem => absurd hmem List.not_mem_nil, rfl⟩
  refine ⟨⟨?_, ?_⟩, inv_onLoadSkills hempty h, hplayer⟩
  · rw [hplayer]
    exact ⟨rfl, rfl, rfl⟩
  · rw [List.map_nil, List.append_nil, hloadable.map_pushed] at hskills
    exact hskills.symm

/-- Players of one class with the same rows have the same skills. -/
theorem Inv.perm_of_rows (hinv : s.Inv db) (hinv' : s'.Inv db)
    (hclass : s'.player.data.playerClass = s.player.data.playerClass)
    (h : (s'.skills.map Skill.row).Perm (s.skills.map Skill.row)) : s'.skills.Perm s.skills := by
  have hmake : ∀ t : Skilled, t.Inv db → t.player.data.playerClass = s.player.data.playerClass →
      (t.skills.map Skill.row).filterMap (fun row => s.createSkill db row.pushed.1 row.pushed.2) =
        t.skills := by
    intro t hinv hclass
    rw [List.filterMap_map, List.filterMap_congr (g := some), List.filterMap_some]
    intro skill hmem
    have hpushed : skill.row.pushed = (skill.index, skill.level) := pushed_of skill.index skill.level
    rw [Function.comp_apply, hpushed, ← createSkill_congr hclass]
    exact hinv.made skill hmem
  rw [← hmake s' hinv' hclass, ← hmake s hinv rfl]
  exact h.filterMap _

/-- A player that is loaded from what was saved of it is there again. -/
theorem SavedIn.restored (hinv : s.Inv db) (hsaved : s.SavedIn record) (hloadable : record.Loadable)
    (hreset : user.IsReset)
    (h : user.load db record.idaccount s.player.data.playerId record.row record.skills = .ok s') :
    s.Restored s' := by
  obtain ⟨hshown, hinv', hplayer⟩ := shownBy_load hloadable hreset h
  have htold : s'.player.data.told = s.player.data.told := by
    rw [hsaved.player.told, hplayer]
    rfl
  have hskills := hinv.perm_of_rows hinv' (congrArg (fun data => data.playerClass) htold)
    (hshown.skills.symm.trans hsaved.skills)
  refine ⟨htold, ?_, ?_, ?_, ?_, ?_, ?_, ?_, ?_, hskills, ?_⟩
  · rw [hsaved.player.name, hplayer]
    rfl
  · rw [hsaved.player.map, hplayer]
    rfl
  · rw [hsaved.x, hplayer]
    rfl
  · rw [hsaved.y, hplayer]
    rfl
  · rw [hsaved.z, hplayer]
    rfl
  · rw [hsaved.curHp, hplayer]
    rfl
  · rw [hsaved.curMp, hplayer]
    rfl
  · rw [← hsaved.exp, hplayer]
    rfl
  · rw [hinv'.hit, hinv.hit, hits, hits, (hskills.map _).sum_eq]

end Skilled

end Bango.Characters
