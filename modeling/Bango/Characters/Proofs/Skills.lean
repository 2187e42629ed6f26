import Bango.Characters.Skills
import Bango.Characters.Proofs.Experience

set_option autoImplicit false

/-! # Points and grades

Each grade is paid for with one point (`step_points`), no grade is ever lost (`step_keeps`), and the
bonus of WeaponMastery is the sum of the differences it was told, which telescopes (`Inv.hit`). -/

namespace Bango.Characters

open Bango.Lib

namespace Skilled

variable {db : SkillDb} {inventory : InventoryProperty} {s s' : Skilled} {index : UInt8}

/-! ## The conditions of `CanLearnSkill` -/

variable (db s index) in
/-- What `CanLearnSkill` checks. -/
structure Learnable (init : InitSkill) : Prop where
  find : db.findPlayerSkill s.player.data.playerClass index = some init
  level : init.levelLimit.toInt ≤ s.player.data.level.toNat
  job : s.player.data.job.toUInt32 &&& init.job = init.job
  points : 0 < s.player.data.suPoint.toNat
  required : s.HasRequired init
  below : ∀ skill, s.getByIndex index = some skill → skill.CanLearn

theorem learnable_of_canLearnSkill (h : s.canLearnSkill db index = true) :
    ∃ init, s.Learnable db index init := by
  unfold canLearnSkill at h
  split at h
  · cases h
  · next init hfind =>
      refine ⟨init, ?_⟩
      split_ifs at h with hlevel hjob hpoint hrequired
      refine ⟨hfind, not_lt.1 hlevel, not_not.1 hjob, ?_, hrequired, ?_⟩
      · refine Nat.pos_of_ne_zero fun hzero => hpoint (UInt16.toNat.inj ?_)
        rw [hzero]
        rfl
      · intro skill hskill
        simpa [hskill] using h

/-! ## Grades -/

/-- The level of a skill, and zero where it is not learned. -/
def grade (s : Skilled) (index : UInt8) : Nat :=
  match s.getByIndex index with
  | some skill => skill.level.toNat
  | none => 0

/-- The grades of all skills. -/
def grades (s : Skilled) : Nat := (s.skills.map (·.level.toNat)).sum

/-- What a skill of a level adds to `nHit`. -/
def hit (type : SkillType) (level : UInt8) : Nat :=
  if type = .weaponMastery then level.toNat / 2 else 0

/-- What all skills add to `nHit`. -/
def hits (skills : List Skill) : Nat := (skills.map fun skill => hit skill.type skill.level).sum

theorem onApply_eq (skill : Skill) (previousLevel : UInt8) :
    s.onApply skill previousLevel =
      { s with nHit := s.nHit +
          Int32.ofInt (hit skill.type skill.level - hit skill.type previousLevel) } := by
  unfold onApply hit
  cases skill.type with
  | weaponMastery => rfl
  | behead => simp
  | physicalSkill => simp
  | staggeringBlow => simp
  | skill => simp

@[simp]
theorem onApply_player (skill : Skill) (previousLevel : UInt8) :
    (s.onApply skill previousLevel).player = s.player := by
  rw [onApply_eq]

@[simp]
theorem onApply_skills (skill : Skill) (previousLevel : UInt8) :
    (s.onApply skill previousLevel).skills = s.skills := by
  rw [onApply_eq]

theorem onApply_nHit {skill : Skill} {previousLevel : UInt8} {before : Nat}
    (h : s.nHit = Int32.ofInt before) {after : Nat}
    (hafter : after + hit skill.type previousLevel = before + hit skill.type skill.level) :
    (s.onApply skill previousLevel).nHit = Int32.ofInt after := by
  rw [onApply_eq, h, ← Int32.ofInt_add]
  refine congrArg Int32.ofInt ?_
  omega

/-! ## The invariant -/

variable (db) in
/-- The skills are a map, each was made by `CreateSkill`, and `nHit` is what they add up to. -/
structure Inv (s : Skilled) : Prop where
  keyed : Keyed Skill.index s.skills
  made : ∀ skill ∈ s.skills, s.createSkill db skill.index skill.level = some skill
  hit : s.nHit = Int32.ofInt (hits s.skills)

theorem createSkill_congr (h : s'.player.data.playerClass = s.player.data.playerClass)
    (index level : UInt8) : s'.createSkill db index level = s.createSkill db index level := by
  unfold createSkill
  rw [h]

theorem createSkill_eq {level : UInt8} {skill : Skill} (h : s.createSkill db index level = some skill) :
    skill.index = index ∧ skill.level = level ∧
      skill.type = skillType index s.player.data.playerClass ∧
      db.findPlayerSkill s.player.data.playerClass index = some skill.init := by
  unfold createSkill at h
  split at h
  · cases h
  · next init hfind =>
      cases h
      exact ⟨rfl, rfl, rfl, hfind⟩

theorem createSkill_setLevel {skill : Skill} (h : s.createSkill db skill.index skill.level = some skill)
    (level : UInt8) :
    s.createSkill db (skill.setLevel level).index level = some (skill.setLevel level) := by
  obtain ⟨-, -, htype, hfind⟩ := createSkill_eq h
  have hindex : (skill.setLevel level).index = skill.index := rfl
  rw [hindex, createSkill, hfind, ← htype]
  rfl

theorem add_eq {level : UInt8} {skill : Skill} (h : s.add db index level = some (skill, s')) :
    s.createSkill db index level = some skill ∧ s.getByIndex index = none ∧
      s' = { s with skills := skill :: s.skills } := by
  unfold add at h
  split at h
  · cases h
  · next made hmade =>
      split at h
      · cases h
      · next hnone =>
          cases h
          exact ⟨hmade, hnone, rfl⟩

/-- A skill that is added and applied. -/
theorem Inv.add {level : UInt8} {skill : Skill} (hinv : s.Inv db)
    (h : s.add db index level = some (skill, s')) : (s'.onApply skill 0).Inv db := by
  obtain ⟨hmade, hnone, rfl⟩ := add_eq h
  obtain ⟨hindex, hlevel, -, -⟩ := createSkill_eq hmade
  have hkeyed : Keyed Skill.index (skill :: s.skills) := by
    rw [keyed_cons, hindex]
    exact ⟨ne_of_findKey_eq_none hnone, hinv.keyed⟩
  have hclass : ({ s with skills := skill :: s.skills }.onApply skill 0).player.data.playerClass =
      s.player.data.playerClass := by
    rw [onApply_player]
  have hzero : Skilled.hit skill.type 0 = 0 := by
    unfold Skilled.hit
    split
    · rfl
    · rfl
  have hhit : ({ s with skills := skill :: s.skills } : Skilled).nHit = Int32.ofInt (hits s.skills) :=
    hinv.hit
  refine ⟨by rwa [onApply_skills], ?_, ?_⟩
  · rw [onApply_skills]
    intro other hother
    rw [createSkill_congr hclass]
    rcases List.mem_cons.1 hother with rfl | hmem
    · rw [hindex, hlevel]
      exact hmade
    · exact hinv.made other hmem
  · rw [onApply_skills]
    refine onApply_nHit hhit ?_
    rw [hzero, hits, List.map_cons, List.sum_cons]
    unfold hits
    omega

/-- A skill that is set to a level and applied. -/
theorem Inv.setLevel {skill : Skill} {skills : List Skill} {level : UInt8} (hinv : s.Inv db)
    (hmem : skill ∈ s.skills)
    (hskills : skills = updateKey Skill.index skill.index (·.setLevel level) s.skills) :
    ({ s with skills }.onApply (skill.setLevel level) skill.level).Inv db := by
  subst hskills
  have hhit : ∀ skills, ({ s with skills } : Skilled).nHit = Int32.ofInt (hits s.skills) :=
    fun _ => hinv.hit
  refine ⟨?_, fun x hx => ?_, ?_⟩
  · rw [onApply_skills]
    exact hinv.keyed.updateKey fun _ => rfl
  · rw [onApply_skills] at hx
    rw [createSkill_congr (s := s) (by rw [onApply_player])]
    exact forall_mem_updateKey hinv.made (fun x hmade => createSkill_setLevel hmade level) x hx
  · rw [onApply_skills]
    refine onApply_nHit (hhit _) ?_
    exact hinv.keyed.sum_updateKey hmem (·.setLevel level) fun x => Skilled.hit x.type x.level

theorem inv_onLoadSkills {rows : List (UInt8 × UInt8)} (hinv : s.Inv db)
    (h : onLoadSkills db rows s = .ok s') : s'.Inv db := by
  induction rows generalizing s with
  | nil =>
      cases h
      exact hinv
  | cons row rest ih =>
      unfold onLoadSkills at h
      split at h
      · cases h
      · next skill added hadd => exact ih (hinv.add hadd) h

theorem Loaded.inv (h : s.Loaded db) : s.Inv db := by
  obtain ⟨rows, hload⟩ := h
  refine inv_onLoadSkills ⟨keyed_nil, ?_, rfl⟩ hload
  intro skill hmem
  cases hmem

/-! ## Requests -/

/-- `MaxLevel` lies between 1 and 255 throughout the table. -/
def Bounded (db : SkillDb) : Prop :=
  ∀ key init, db key = some init → 1 ≤ init.maxLevel.toNat ∧ init.maxLevel.toNat ≤ 255

theorem Bounded.find {playerClass : UInt8} {init : InitSkill} (h : Bounded db)
    (hfind : db.findPlayerSkill playerClass index = some init) :
    1 ≤ init.maxLevel.toNat ∧ init.maxLevel.toNat ≤ 255 := by
  unfold SkillDb.findPlayerSkill at hfind
  split_ifs at hfind
  exact h _ init hfind

variable (db s index s') in
/-- What a request that is granted does: a grade is paid for with a point. -/
structure Gain (init : InitSkill) : Prop where
  learnable : s.Learnable db index init
  playerClass : s'.player.data.playerClass = s.player.data.playerClass
  paid : s'.player.data.suPoint.toNat + 1 = s.player.data.suPoint.toNat
  grades : s'.grades = s.grades + 1
  raised : s'.grade index = s.grade index + 1
  others : ∀ other, other ≠ index → s'.getByIndex other = s.getByIndex other
  below : s'.grade index ≤ init.maxLevel.toNat
  inv : s'.Inv db

theorem takePoint_suPoint (h : 0 < s.player.data.suPoint.toNat) :
    s.takePoint.player.data.suPoint.toNat + 1 = s.player.data.suPoint.toNat := by
  have hle : (1 : UInt16) ≤ s.player.data.suPoint := UInt16.le_iff_toNat_le.2 h
  rw [takePoint, UInt16.toNat_sub_of_le _ _ hle, UInt16.toNat_one]
  omega

theorem grade_of_getByIndex {skill : Skill} (h : s.getByIndex index = some skill) :
    s.grade index = skill.level.toNat := by
  unfold grade
  rw [h]

theorem grade_of_none (h : s.getByIndex index = none) : s.grade index = 0 := by
  unfold grade
  rw [h]

theorem takePoint_onApply (skill : Skill) (previousLevel : UInt8) :
    s.takePoint.onApply skill previousLevel = (s.onApply skill previousLevel).takePoint := by
  rw [onApply_eq, onApply_eq]
  rfl

theorem Inv.takePoint (h : s.Inv db) : s.takePoint.Inv db := by
  refine ⟨h.keyed, fun skill hmem => ?_, h.hit⟩
  exact (createSkill_congr rfl skill.index skill.level).trans (h.made skill hmem)

theorem add_of_none {level : UInt8} {skill : Skill} (hmade : s.createSkill db index level = some skill)
    (hnone : s.getByIndex index = none) :
    s.add db index level = some (skill, { s with skills := skill :: s.skills }) := by
  rw [add, hmade]
  simp only [hnone]

/-- A skill is learned. -/
theorem gain_of_add {init : InitSkill} {skill : Skill} (hinv : s.Inv db) (hdb : Bounded db)
    (hlearn : s.Learnable db index init) (hadd : s.add db index 1 = some (skill, s')) :
    Gain db s (s'.takePoint.onApply skill 0) index init := by
  have hinv' : (s'.takePoint.onApply skill 0).Inv db := by
    rw [takePoint_onApply]
    exact (hinv.add hadd).takePoint
  obtain ⟨hmade, hnone, rfl⟩ := add_eq hadd
  obtain ⟨hindex, hlevel, -, -⟩ := createSkill_eq hmade
  have hget : ∀ other,
      ({ s with skills := skill :: s.skills }.takePoint.onApply skill 0).getByIndex other =
        if index = other then some skill else s.getByIndex other := by
    intro other
    rw [getByIndex, onApply_skills, ← hindex]
    exact findKey_cons other skill s.skills
  have hself := (hget index).trans (if_pos rfl)
  refine ⟨hlearn, ?_, ?_, ?_, ?_, fun other hne => ?_, ?_, hinv'⟩
  · rw [onApply_player]
    rfl
  · rw [onApply_player]
    exact takePoint_suPoint hlearn.points
  · rw [grades, onApply_skills]
    change ((skill :: s.skills).map (·.level.toNat)).sum = s.grades + 1
    rw [List.map_cons, List.sum_cons, hlevel, Nat.add_comm]
    rfl
  · rw [grade_of_getByIndex hself, grade_of_none hnone, hlevel]
    rfl
  · rw [hget, if_neg (Ne.symm hne)]
  · rw [grade_of_getByIndex hself, hlevel]
    exact (hdb.find hlearn.find).1

/-- The level of a skill that `CanLearn`. -/
theorem Learnable.level_succ {init : InitSkill} {skill : Skill} (hinv : s.Inv db)
    (hdb : Bounded db) (hlearn : s.Learnable db index init)
    (hget : s.getByIndex index = some skill) :
    (skill.level + 1).toNat = skill.level.toNat + 1 ∧
      skill.level.toNat + 1 ≤ init.maxLevel.toNat := by
  obtain ⟨-, -, -, hfind⟩ := createSkill_eq (hinv.made skill (mem_of_findKey hget))
  rw [key_of_findKey hget, hlearn.find] at hfind
  have hbelow := UInt32.lt_iff_toNat_lt.1 (hlearn.below skill hget)
  rw [← Option.some.inj hfind, UInt8.toNat_toUInt32] at hbelow
  have hmax := (hdb.find hlearn.find).2
  rw [UInt8.toNat_add, UInt8.toNat_one]
  omega

/-- A skill is raised. -/
theorem gain_of_setLevel {init : InitSkill} {skill : Skill} {skills : List Skill}
    (hinv : s.Inv db) (hdb : Bounded db) (hlearn : s.Learnable db index init)
    (hget : s.getByIndex index = some skill)
    (hskills : skills = updateKey Skill.index index (·.setLevel (skill.level + 1)) s.skills) :
    Gain db s
      ({ s with skills }.takePoint.onApply (skill.setLevel (skill.level + 1)) skill.level)
      index init := by
  obtain ⟨hlevel, hmax⟩ := hlearn.level_succ hinv hdb hget
  have hkey : ∀ x : Skill, (x.setLevel (skill.level + 1)).index = x.index := fun _ => rfl
  have hmem : skill ∈ s.skills := mem_of_findKey hget
  have hindex : skill.index = index := key_of_findKey hget
  have hinv' : ({ s with skills }.takePoint.onApply (skill.setLevel (skill.level + 1))
      skill.level).Inv db := by
    rw [takePoint_onApply]
    exact (hinv.setLevel hmem (hindex ▸ hskills)).takePoint
  have hother : ∀ other,
      ({ s with skills }.takePoint.onApply (skill.setLevel (skill.level + 1))
        skill.level).getByIndex other =
        if other = index then (s.getByIndex other).map (·.setLevel (skill.level + 1))
        else s.getByIndex other := by
    intro other
    rw [getByIndex, onApply_skills]
    subst hskills
    exact findKey_updateKey hkey index other s.skills
  have hself : ({ s with skills }.takePoint.onApply (skill.setLevel (skill.level + 1))
      skill.level).getByIndex index = some (skill.setLevel (skill.level + 1)) := by
    rw [hother, if_pos rfl, hget]
    rfl
  have hsum : (skills.map (·.level.toNat)).sum + skill.level.toNat =
      s.grades + (skill.level + 1).toNat := by
    rw [hskills, ← hindex]
    exact hinv.keyed.sum_updateKey hmem (·.setLevel (skill.level + 1)) (·.level.toNat)
  refine ⟨hlearn, ?_, ?_, ?_, ?_, fun other hne => ?_, ?_, hinv'⟩
  · rw [onApply_player]
    rfl
  · rw [onApply_player]
    exact takePoint_suPoint hlearn.points
  · rw [grades, onApply_skills]
    change (skills.map (·.level.toNat)).sum = s.grades + 1
    omega
  · rw [grade_of_getByIndex hself, grade_of_getByIndex hget]
    exact hlevel
  · rw [hother, if_neg hne]
  · rw [grade_of_getByIndex hself]
    exact hlevel.trans_le hmax

theorem onLearnSkill_cases (hinv : s.Inv db) (hdb : Bounded db) (index : UInt8) :
    ∃ s', s.onLearnSkill db index = .ok s' ∧ (s' = s ∨ ∃ init, Gain db s s' index init) := by
  unfold onLearnSkill
  split
  · next hcan =>
      obtain ⟨init, hlearn⟩ := learnable_of_canLearnSkill hcan
      split
      · exact ⟨s, rfl, .inl rfl⟩
      · next hnone =>
          have hmade : s.createSkill db index 1 =
              some { index, type := skillType index s.player.data.playerClass, init, level := 1 } := by
            rw [createSkill, hlearn.find]
          have hadd := add_of_none hmade hnone
          rw [hadd]
          exact ⟨_, rfl, .inr ⟨init, gain_of_add hinv hdb hlearn hadd⟩⟩
  · exact ⟨s, rfl, .inl rfl⟩

theorem onSkillUp_cases (hinv : s.Inv db) (hdb : Bounded db) :
    s.onSkillUp db index = s ∨ ∃ init, Gain db s (s.onSkillUp db index) index init := by
  unfold onSkillUp
  split
  · next hcan =>
      obtain ⟨init, hlearn⟩ := learnable_of_canLearnSkill hcan
      split
      · exact .inl rfl
      · next skill hget => exact .inr ⟨init, gain_of_setLevel hinv hdb hlearn hget rfl⟩
  · exact .inl rfl

/-- What an operation does: nothing, a grade for a point, or a level. -/
theorem step_cases {op : Op} (hinv : s.Inv db) (hdb : Bounded db)
    (h : s.step db inventory op = .ok s') :
    op ≠ .levelUp ∧ (s' = s ∨ ∃ index init, Gain db s s' index init) ∨
      op = .levelUp ∧ ∃ player, s.player.levelUp inventory = .ok player ∧ s' = { s with player } := by
  cases op with
  | onLearnSkill index =>
      obtain ⟨t, ht, hcases⟩ := onLearnSkill_cases hinv hdb index
      cases ht.symm.trans h
      exact .inl ⟨by simp, hcases.imp_right fun ⟨init, hgain⟩ => ⟨index, init, hgain⟩⟩
  | onSkillUp index =>
      cases h
      exact .inl ⟨by simp, (onSkillUp_cases hinv hdb).imp_right fun ⟨init, hgain⟩ =>
        ⟨index, init, hgain⟩⟩
  | levelUp =>
      obtain ⟨player, hplayer, hs⟩ := bind_eq_ok.1 h
      exact .inr ⟨rfl, player, hplayer, (Except.ok.inj hs).symm⟩

theorem step_inv {op : Op} (hinv : s.Inv db) (hdb : Bounded db)
    (h : s.step db inventory op = .ok s') :
    s'.Inv db ∧ s'.player.data.playerClass = s.player.data.playerClass := by
  rcases step_cases hinv hdb h with ⟨-, rfl | ⟨_, _, hgain⟩⟩ | ⟨-, player, hplayer, rfl⟩
  · exact ⟨hinv, rfl⟩
  · exact ⟨hgain.inv, hgain.playerClass⟩
  · have hclass := Player.levelUp_playerClass hplayer
    refine ⟨⟨hinv.keyed, fun skill hmem => ?_, hinv.hit⟩, hclass⟩
    exact (createSkill_congr hclass skill.index skill.level).trans (hinv.made skill hmem)

/-- The points and the grades together grow with the levels. -/
theorem step_points {op : Op} (hinv : s.Inv db) (hdb : Bounded db)
    (h : s.step db inventory op = .ok s')
    (hfit : s.player.data.suPoint.toNat + [op].count .levelUp < 2 ^ 16) :
    s'.player.data.suPoint.toNat + s'.grades =
        s.player.data.suPoint.toNat + s.grades + [op].count .levelUp ∧
      s.grades ≤ s'.grades := by
  rcases step_cases hinv hdb h with ⟨hop, rfl | ⟨_, _, hgain⟩⟩ | ⟨rfl, player, hplayer, rfl⟩
  · rw [List.count_singleton, if_neg (by simpa using hop)]
    exact ⟨rfl, le_refl _⟩
  · rw [List.count_singleton, if_neg (by simpa using hop)]
    have hpaid := hgain.paid
    have hgrades := hgain.grades
    omega
  · obtain ⟨_, _, rfl⟩ := Player.levelUp_eq_ok inventory hplayer
    rw [List.count_singleton_self] at hfit ⊢
    refine ⟨?_, le_refl _⟩
    change (s.player.data.suPoint + 1).toNat + s.grades = _
    rw [UInt16.toNat_add, UInt16.toNat_one]
    omega

variable (s s') in
/-- Skills stay, and their levels do not fall. -/
def Keeps : Prop :=
  ∀ index skill, s.getByIndex index = some skill →
    ∃ skill', s'.getByIndex index = some skill' ∧ skill.level ≤ skill'.level

theorem Keeps.refl (s : Skilled) : Keeps s s :=
  fun _ skill h => ⟨skill, h, UInt8.le_refl _⟩

theorem Keeps.trans {s₁ s₂ s₃ : Skilled} (h : Keeps s₁ s₂) (h' : Keeps s₂ s₃) : Keeps s₁ s₃ := by
  intro index skill hskill
  obtain ⟨skill', hskill', hle⟩ := h index skill hskill
  obtain ⟨skill'', hskill'', hle'⟩ := h' index skill' hskill'
  exact ⟨skill'', hskill'', UInt8.le_trans hle hle'⟩

theorem Gain.keeps {init : InitSkill} (h : Gain db s s' index init) : Keeps s s' := by
  intro other skill hskill
  by_cases hne : other = index
  · subst hne
    have hraised := h.raised
    rw [grade_of_getByIndex hskill] at hraised
    cases hget : s'.getByIndex other with
    | none =>
        rw [grade_of_none hget] at hraised
        cases hraised
    | some skill' =>
        rw [grade_of_getByIndex hget] at hraised
        refine ⟨skill', rfl, UInt8.le_iff_toNat_le.2 ?_⟩
        omega
  · exact ⟨skill, (h.others other hne).trans hskill, UInt8.le_refl _⟩

theorem step_keeps {op : Op} (hinv : s.Inv db) (hdb : Bounded db)
    (h : s.step db inventory op = .ok s') : Keeps s s' := by
  rcases step_cases hinv hdb h with ⟨-, rfl | ⟨_, _, hgain⟩⟩ | ⟨-, player, hplayer, rfl⟩
  · exact Keeps.refl _
  · exact hgain.keeps
  · exact fun _ skill hskill => ⟨skill, hskill, UInt8.le_refl _⟩

theorem HasRequired.mono {init : InitSkill} (h : s.HasRequired init) (hkeeps : Keeps s s') :
    s'.HasRequired init := by
  rcases h with hzero | ⟨required, hget, hle⟩
  · exact .inl hzero
  · obtain ⟨required', hget', hle'⟩ := hkeeps _ required hget
    refine .inr ⟨required', hget', ?_⟩
    rw [UInt32.le_iff_toNat_le, UInt8.toNat_toUInt32] at hle ⊢
    exact hle.trans (UInt8.le_iff_toNat_le.1 hle')

/-! ## Runs -/

theorem run_inv {ops : List Op} (hinv : s.Inv db) (hdb : Bounded db)
    (h : run (step db inventory) s ops = .ok s') :
    s'.Inv db ∧ s'.player.data.playerClass = s.player.data.playerClass ∧ Keeps s s' := by
  induction ops generalizing s with
  | nil =>
      cases h
      exact ⟨hinv, rfl, Keeps.refl _⟩
  | cons op ops ih =>
      cases hstep : s.step db inventory op with
      | ok t =>
          rw [run_cons_ok ops hstep] at h
          obtain ⟨hinv', hclass⟩ := step_inv hinv hdb hstep
          obtain ⟨hlast, hclass', hkeeps⟩ := ih hinv' h
          exact ⟨hlast, hclass'.trans hclass, (step_keeps hinv hdb hstep).trans hkeeps⟩
      | error fault =>
          rw [run_cons_error ops hstep] at h
          cases h

theorem run_points {ops : List Op} (hinv : s.Inv db) (hdb : Bounded db)
    (h : run (step db inventory) s ops = .ok s')
    (hfit : s.player.data.suPoint.toNat + ops.count .levelUp < 2 ^ 16) :
    s'.player.data.suPoint.toNat + s'.grades =
      s.player.data.suPoint.toNat + s.grades + ops.count .levelUp := by
  induction ops generalizing s with
  | nil =>
      cases h
      rfl
  | cons op ops ih =>
      cases hstep : s.step db inventory op with
      | ok t =>
          rw [run_cons_ok ops hstep] at h
          have hcount : (op :: ops).count .levelUp = [op].count .levelUp + ops.count .levelUp := by
            rw [← List.count_append, List.singleton_append]
          rw [hcount] at hfit ⊢
          obtain ⟨hpoints, hgrades⟩ := step_points hinv hdb hstep (by omega)
          have hrest := ih (step_inv hinv hdb hstep).1 h (by omega)
          omega
      | error fault =>
          rw [run_cons_error ops hstep] at h
          cases h

/-- `OnLearnSkill` adds a skill only when its index has none and the table knows it. -/
theorem run_ne_cannotLearnSkill {ops : List Op} (hinv : s.Inv db) (hdb : Bounded db) :
    run (step db inventory) s ops ≠ .error .cannotLearnSkill := by
  rw [Ne, run_eq_error_iff]
  rintro ⟨before, op, after, t, -, hrun, hfail⟩
  have hinv' := (run_inv hinv hdb hrun).1
  cases op with
  | onLearnSkill index =>
      obtain ⟨_, hok, _⟩ := onLearnSkill_cases hinv' hdb index
      cases hok.symm.trans hfail
  | onSkillUp index => cases hfail
  | levelUp =>
      rcases bind_eq_error.1 hfail with hup | ⟨_, _, hret⟩
      · cases Player.levelUp_eq_error hup
      · cases hret

/-! ## The bonus of WeaponMastery -/

theorem skillType_knight :
    skillType index pcKnight = .weaponMastery ↔ index = skWeaponMastery := by
  unfold skillType
  constructor
  · intro h
    split_ifs at h with _ _ hindex
    exact hindex
  · rintro rfl
    rfl

theorem hits_of_forall_ne {skills : List Skill}
    (h : ∀ skill ∈ skills, skill.type ≠ .weaponMastery) : hits skills = 0 := by
  rw [hits, List.sum_eq_zero]
  intro n hn
  obtain ⟨skill, hmem, rfl⟩ := List.mem_map.1 hn
  exact if_neg (h skill hmem)

/-- The only WeaponMastery of a knight is the skill of its index. -/
theorem Inv.hits_knight (hinv : s.Inv db) (hclass : s.player.data.playerClass = pcKnight) :
    hits s.skills = s.grade skWeaponMastery / 2 := by
  have htype : ∀ skill ∈ s.skills, skill.type = .weaponMastery ↔ skill.index = skWeaponMastery := by
    intro skill hmem
    obtain ⟨-, -, htype, -⟩ := createSkill_eq (hinv.made skill hmem)
    rw [htype, hclass, skillType_knight]
  cases hget : s.getByIndex skWeaponMastery with
  | none =>
      rw [grade_of_none hget, hits_of_forall_ne]
      exact fun skill hmem h => ne_of_findKey_eq_none hget skill hmem ((htype skill hmem).1 h)
  | some skill =>
      have hmem : skill ∈ s.skills := mem_of_findKey hget
      have hindex : skill.index = skWeaponMastery := key_of_findKey hget
      have hperm : s.skills.Perm (skill :: s.skills.erase skill) := List.perm_cons_erase hmem
      have hrest : hits (s.skills.erase skill) = 0 := by
        refine hits_of_forall_ne fun other hother h => ?_
        have hne := (keyed_cons.1 ((Keyed.perm hperm).1 hinv.keyed)).1 other hother
        exact hne (((htype other (List.mem_of_mem_erase hother)).1 h).trans hindex.symm)
      rw [hits] at hrest ⊢
      rw [(hperm.map _).sum_eq, List.map_cons, List.sum_cons, hrest, Nat.add_zero,
        grade_of_getByIndex hget]
      exact if_pos ((htype skill hmem).2 hindex)

theorem Inv.nHit_knight (hinv : s.Inv db) (hclass : s.player.data.playerClass = pcKnight) :
    s.nHit.toInt = ↑(s.grade skWeaponMastery / 2) := by
  have hlt : s.grade skWeaponMastery < 256 := by
    unfold grade
    split
    · exact UInt8.toNat_lt _
    · decide
  rw [hinv.hit, hinv.hits_knight hclass]
  exact Int32.toInt_ofInt_of_le (by omega) (by omega)

/-! ## The accounts -/

/-- Over every run of requests and levels of a loaded player, the points that are left and the grades
    that were gained are the points that were given; each grade was within the limits of its skill and
    the skill it requires keeps the grade it requires; the bonus of WeaponMastery is half its level;
    and `OnLearnSkill` never throws. -/
theorem accounts_of_run (db : SkillDb) (inventory : InventoryProperty) (s₀ : Skilled)
    (ops : List Op) (hdb : Bounded db) (hloaded : s₀.Loaded db)
    (hfit : s₀.player.data.suPoint.toNat + ops.count .levelUp < 65536) :
    run (step db inventory) s₀ ops ≠ .error .cannotLearnSkill ∧
    ∀ s, run (step db inventory) s₀ ops = .ok s →
      s.player.data.suPoint.toNat + s.grades =
        s₀.player.data.suPoint.toNat + s₀.grades + ops.count .levelUp ∧
      (s₀.player.data.playerClass = pcKnight →
        s.nHit.toInt = ↑(s.grade skWeaponMastery / 2)) ∧
      ∀ before op after mid mid' index, ops = before ++ op :: after →
        run (step db inventory) s₀ before = .ok mid → mid.step db inventory op = .ok mid' →
        mid.grade index < mid'.grade index →
        ∃ init, mid.Learnable db index init ∧ mid'.grade index ≤ init.maxLevel.toNat ∧
          s.HasRequired init := by
  have hinv := hloaded.inv
  refine ⟨run_ne_cannotLearnSkill hinv hdb, fun s hrun => ⟨run_points hinv hdb hrun hfit, ?_, ?_⟩⟩
  · intro hclass
    obtain ⟨hinv', hclass', -⟩ := run_inv hinv hdb hrun
    exact hinv'.nHit_knight (hclass'.trans hclass)
  · rintro before op after mid mid' index rfl hbefore hstep hgained
    obtain ⟨hmid, -, -⟩ := run_inv hinv hdb hbefore
    rw [run_append_ok _ hbefore, run_cons_ok _ hstep] at hrun
    have hkeeps := (step_keeps hmid hdb hstep).trans (run_inv (step_inv hmid hdb hstep).1 hdb hrun).2.2
    rcases step_cases hmid hdb hstep with ⟨-, rfl | ⟨i, init, hgain⟩⟩ | ⟨-, player, -, rfl⟩
    · exact absurd hgained (Nat.lt_irrefl _)
    · by_cases hindex : index = i
      · subst hindex
        exact ⟨init, hgain.learnable, hgain.below, hgain.learnable.required.mono hkeeps⟩
      · refine absurd hgained ?_
        unfold grade
        rw [hgain.others index hindex]
        exact Nat.lt_irrefl _
    · exact absurd hgained (Nat.lt_irrefl _)

/-- A table that has WeaponMastery only. -/
def masteryDb : SkillDb := fun key =>
  if key = 2 then
    some { levelLimit := 1, job := 1, requiredSkillIndex := 0, requiredSkillGrade := 0, maxLevel := 20 }
  else none

theorem bounded_masteryDb : Bounded masteryDb := by
  intro key init h
  unfold masteryDb at h
  split_ifs at h
  cases h
  decide

/-- Two points go to a skill. -/
theorem accounts_of_run_novice :
    ∃ s, run (step masteryDb ⟨0, 0, 0, 0⟩) ⟨Player.novice, [], 0⟩
        [.levelUp, .levelUp, .onLearnSkill 2, .onSkillUp 2] = .ok s ∧
      s.player.data.suPoint.toNat + s.grades = 2 ∧ s.nHit.toInt = ↑(s.grade skWeaponMastery / 2) ∧
      ∃ init, s.grade 2 ≤ init.maxLevel.toNat ∧ s.HasRequired init := by
  obtain ⟨hnot, haccounts⟩ := accounts_of_run masteryDb ⟨0, 0, 0, 0⟩ ⟨Player.novice, [], 0⟩
    [.levelUp, .levelUp, .onLearnSkill 2, .onSkillUp 2] bounded_masteryDb ⟨[], rfl⟩ (by decide)
  obtain ⟨hpoints, hbonus, hlimits⟩ := haccounts _ rfl
  obtain ⟨init, -, hmax, hrequired⟩ := hlimits [.levelUp, .levelUp, .onLearnSkill 2] (.onSkillUp 2) []
    _ _ 2 rfl rfl rfl (by decide)
  exact ⟨_, rfl, hpoints, hbonus rfl, init, hmax, hrequired⟩

end Skilled

end Bango.Characters
