import Mathlib.Data.List.Chain
import Mathlib.Logic.Basic
import Bango.Monsters.Proofs.Listed

set_option autoImplicit false

/-! # The lives of monsters

A monster of the world is alive, kneeling or dead, and then removed until it is put back. Its HP, the
two bits of its state and its flag say which (`Monster.InPhase`), and its history is one round of that
cycle after another (`Regular`), as long as each new monster has HP and each new id is free. -/

namespace Bango.Monsters

open Bango.Lib Bango.World

/-! ## The cycle -/

/-- Where a monster is in its life. -/
inductive Phase where
  | alive
  | kneeling
  | dead
  | removed
deriving DecidableEq, Repr

/-- What has brought a monster into its phase. A kneeling monster falls without anything being
    distributed again. -/
def Phase.last : Phase → Fact
  | .alive => .spawned
  | .kneeling | .dead => .died
  | .removed => .removed

/-- What has to happen next. -/
def Fact.next : Fact → Fact
  | .spawned => .died
  | .died => .removed
  | .removed => .spawned

/-- Each thing that has happened is the one that had to. -/
def Regular (history : List Fact) : Prop :=
  history.IsChain fun later earlier => later = earlier.next

/-- From a spawn on a monster dies at most once before it is removed, and it has died once when it
    is. The latest comes first. -/
def DiesOnce (history : List Fact) : Prop :=
  ∀ later life earlier, history = later ++ (life ++ .spawned :: earlier) → .removed ∉ life →
    life.count .died ≤ 1 ∧ (later.getLast? = some .removed → life.count .died = 1)

/-- What follows a spawn, up to a removal, is one death if anything. -/
theorem Regular.life_eq {life earlier : List Fact} (h : Regular (life ++ .spawned :: earlier))
    (hin : .removed ∉ life) : life = [] ∨ life = [.died] := by
  rcases List.eq_nil_or_concat life with hnil | ⟨before, last, rfl⟩
  · exact .inl hnil
  · right
    have hlast : last = .died := by
      have happend : before.concat last ++ .spawned :: earlier =
          before ++ last :: .spawned :: earlier := by simp
      rw [happend, Regular, List.isChain_append_cons_cons] at h
      exact h.2.1
    rcases List.eq_nil_or_concat before with rfl | ⟨before', last', rfl⟩
    · rw [hlast]
      rfl
    · -- Only a removal follows a death.
      have happend : (before'.concat last').concat last ++ .spawned :: earlier =
          before' ++ last' :: last :: .spawned :: earlier := by simp
      rw [happend, Regular, List.isChain_append_cons_cons, hlast] at h
      have hremoved : last' = .removed := h.2.1
      simp [hremoved] at hin

theorem Regular.diesOnce {history : List Fact} (h : Regular history) : DiesOnce history := by
  intro later life earlier hhistory hin
  rw [hhistory] at h
  have hlife : Regular (life ++ .spawned :: earlier) := List.IsChain.right_of_append h
  rcases hlife.life_eq hin with rfl | rfl
  · refine ⟨Nat.zero_le _, fun hlater => ?_⟩
    obtain ⟨before, rfl⟩ := List.getLast?_eq_some_iff.1 hlater
    have happend : before ++ [.removed] ++ ([] ++ Fact.spawned :: earlier) =
        before ++ .removed :: .spawned :: earlier := by simp
    rw [happend, Regular, List.isChain_append_cons_cons] at h
    exact nomatch h.2.1
  · exact ⟨Nat.le_refl _, fun _ => rfl⟩

namespace Monster

/-- The health and the flag of a monster in each phase. -/
def InPhase (monster : Monster) : Phase → Prop
  | .alive => 0 < monster.curhp ∧ monster.gstate = 0 ∧ monster.isRemoved = false
  | .kneeling => monster.curhp = 0 ∧ monster.gstate = cgsKnee ∧ monster.isRemoved = false
  | .dead => monster.curhp = 0 ∧ monster.gstate = cgsKo ∧ monster.isRemoved = false
  | .removed => monster.curhp = 0 ∧ monster.gstate = cgsKo ∧ monster.isRemoved = true

/-- A monster is in a phase that its history leads to. -/
def Lives (monster : Monster) (history : List Fact) : Prop :=
  ∃ phase, monster.InPhase phase ∧ history.head? = some phase.last ∧ Regular history

variable {monster : Monster} {phase : Phase} {history : List Fact}

namespace InPhase

theorem isGState_knee (h : monster.InPhase phase) :
    monster.IsGState cgsKnee ↔ phase = .kneeling := by
  unfold IsGState
  cases phase <;> rw [h.2.1] <;> decide

theorem isGState_ko (h : monster.InPhase phase) :
    monster.IsGState cgsKo ↔ phase = .dead ∨ phase = .removed := by
  unfold IsGState
  cases phase <;> rw [h.2.1] <;> decide

theorem curhp_pos_iff (h : monster.InPhase phase) : 0 < monster.curhp ↔ phase = .alive := by
  cases phase with
  | alive => exact iff_of_true h.1 rfl
  | kneeling | dead | removed => exact iff_of_false (by rw [h.1]; decide) nofun

theorem isRemoved_iff (h : monster.InPhase phase) : monster.isRemoved = true ↔ phase = .removed := by
  cases phase <;> simp [h.2.2]

theorem fall (h : monster.InPhase .kneeling) : monster.fall.InPhase .dead := by
  refine ⟨h.1, ?_, h.2.2⟩
  show (monster.gstate ||| cgsKo) &&& ~~~cgsKnee = cgsKo
  rw [h.2.1]
  decide

theorem flagRemoved (h : monster.InPhase .dead) : monster.flagRemoved.InPhase .removed :=
  ⟨h.1, h.2.1, rfl⟩

end InPhase

/-- A monster without HP that has not knelt or fallen yet does so. -/
theorem die_inPhase (hhp : monster.curhp = 0) (hgstate : monster.gstate = 0)
    (hin : monster.isRemoved = false) (now : UInt64) :
    ∃ phase, (monster.die now).InPhase phase ∧ phase.last = .died := by
  unfold die
  split
  · refine ⟨.dead, ⟨hhp, ?_, hin⟩, rfl⟩
    show monster.gstate ||| cgsKo = cgsKo
    rw [hgstate]
    decide
  · refine ⟨.kneeling, ⟨hhp, ?_, hin⟩, rfl⟩
    show monster.gstate ||| cgsKnee = cgsKnee
    rw [hgstate]
    decide

theorem make_inPhase (kind : Kind) {init : InitMonster} (hmaxHp : 0 < init.getMaxHp)
    (id : UInt32) (x y map : Int32) : (make kind init id x y map).InPhase .alive :=
  ⟨hmaxHp, rfl, rfl⟩

theorem restoreInitialState_inPhase (hmaxHp : 0 < monster.init.getMaxHp) (id : UInt32)
    (newX newY : Int32) : (monster.restoreInitialState id newX newY).InPhase .alive :=
  ⟨hmaxHp, rfl, rfl⟩

namespace Lives

/-- The next thing happens. -/
theorem next {monster' : Monster} {fact : Fact} {phase' : Phase} (h : Regular history)
    (hhead : history.head? = some fact) (hphase : monster'.InPhase phase')
    (hnext : phase'.last = fact.next) : monster'.Lives (phase'.last :: history) := by
  refine ⟨phase', hphase, rfl, ?_⟩
  obtain ⟨rest, rfl⟩ := List.head?_eq_some_iff.1 hhead
  exact List.isChain_cons_cons.2 ⟨hnext, h⟩

/-- A kneeling monster falls. -/
theorem fall (h : monster.Lives history) (hknee : monster.IsGState cgsKnee) :
    monster.fall.Lives history := by
  obtain ⟨phase, hphase, hhead, hregular⟩ := h
  obtain rfl := hphase.isGState_knee.1 hknee
  exact ⟨.dead, hphase.fall, hhead, hregular⟩

theorem tick (h : monster.Lives history) (now : UInt64) : (monster.tick now).Lives history := by
  unfold Monster.tick
  split
  · exact h
  · split
    next hfalls => exact h.fall hfalls.1
    next => exact h

end Lives

end Monster

namespace System

variable {s s' : System} {place : Nat}

/-! ## All monsters -/

/-- Every monster is in a phase that its history leads to, and comes back with HP. -/
structure Living (s : System) : Prop where
  lives : ∀ place < s.made, (s.monsters place).Lives (s.history place)
  maxHp : ∀ place < s.made, 0 < (s.monsters place).init.getMaxHp

/-- One monster goes on with its life. -/
theorem Living.change (h : s.Living) (place : Nat) (hmade : s'.made = s.made)
    (hmonsters : ∀ other, other ≠ place → s'.monsters other = s.monsters other)
    (hhistory : ∀ other, other ≠ place → s'.history other = s.history other)
    (hlives : (s'.monsters place).Lives (s'.history place))
    (hinit : (s'.monsters place).init = (s.monsters place).init) : s'.Living where
  lives other hother := by
    by_cases hplace : other = place
    · rwa [hplace]
    · rw [hmonsters other hplace, hhistory other hplace]
      exact h.lives other (hmade ▸ hother)
  maxHp other hother := by
    by_cases hplace : other = place
    · rw [hplace] at hother ⊢
      rw [hinit]
      exact h.maxHp place (hmade ▸ hother)
    · rw [hmonsters other hplace]
      exact h.maxHp other (hmade ▸ hother)

theorem Living.of_eq (h : s.Living) (hmade : s'.made = s.made) (hmonsters : s'.monsters = s.monsters)
    (hhistory : s'.history = s.history) : s'.Living where
  lives place hplace := by
    rw [hmonsters, hhistory]
    exact h.lives place (hmade ▸ hplace)
  maxHp place hplace := by
    rw [hmonsters]
    exact h.maxHp place (hmade ▸ hplace)

/-- The health of a monster changes, and its history does not. -/
theorem Living.setMonster (h : s.Living) {monster : Monster}
    (hlives : monster.Lives (s.history place)) (hinit : monster.init = (s.monsters place).init) :
    (s.setMonster place monster).Living := by
  have hself : (s.setMonster place monster).monsters place = monster := Function.update_self _ _ _
  exact h.change place rfl (fun other hne => Function.update_of_ne hne _ _) (fun _ _ => rfl)
    (hself.symm ▸ hlives) (hself.symm ▸ hinit)

theorem rollLoot_ok {n : Nat} (hfree : FreeIds (· ∈ s.loots) s.nextId n) :
    (s.rollLoot n).2 = true := by
  induction n generalizing s with
  | zero => rfl
  | succ n ih =>
      have hadd : s.addLoot =
          ({ s.assignNewIds 1 with loots := insert s.nextId s.loots }, true) := if_neg hfree.head
      unfold rollLoot
      rw [hadd]
      refine ih (hfree.tail fun id hid => ?_)
      exact (Finset.mem_insert.1 hid).symm

theorem rollLoot_eq (s : System) (n : Nat) :
    ∃ nextId loots, (s.rollLoot n).1 = { s with nextId := nextId, loots := loots } := by
  induction n generalizing s with
  | zero => exact ⟨s.nextId, s.loots, rfl⟩
  | succ n ih =>
      have hadd : ∃ nextId loots, s.addLoot.1 = { s with nextId := nextId, loots := loots } := by
        unfold addLoot
        dsimp only
        split
        · exact ⟨_, _, rfl⟩
        · exact ⟨_, _, rfl⟩
      obtain ⟨nextId, loots, hadd⟩ := hadd
      unfold rollLoot
      split
      next t ht =>
        rw [ht] at hadd
        obtain ⟨nextId', loots', hroll⟩ := ih t
        refine ⟨nextId', loots', ?_⟩
        dsimp only at hadd
        rw [hroll, hadd]
      next t ht =>
        rw [ht] at hadd
        exact ⟨nextId, loots, hadd⟩

/-- The loot finds free ids, so the monster kneels or falls. -/
theorem die_eq (place : Nat) {death : Death} (hfree : FreeIds (· ∈ s.loots) s.nextId death.loots) :
    ∃ nextId loots, s.die place death =
      { s with
        nextId := nextId
        loots := loots
        history := Function.update s.history place (.died :: s.history place)
        monsters := Function.update s.monsters place ((s.monsters place).die death.now) } := by
  have hok : ((s.record place .died).rollLoot death.loots).2 = true := rollLoot_ok hfree
  obtain ⟨nextId, loots, hroll⟩ := rollLoot_eq (s.record place .died) death.loots
  have hpair : (s.record place .died).rollLoot death.loots =
      ({ s.record place .died with nextId := nextId, loots := loots }, true) := Prod.ext hroll hok
  refine ⟨nextId, loots, ?_⟩
  unfold die
  rw [hpair]
  rfl

/-- A living monster is hit, and what is left of its HP decides whether it dies. -/
theorem hit_living (h : s.Living) (hplace : place < s.made) (hnormal : 0 < (s.monsters place).curhp)
    (damage : UInt32) {death : Death} (hfree : FreeIds (· ∈ s.loots) s.nextId death.loots) :
    (s.hit place damage death).Living := by
  obtain ⟨phase, hphase, hhead, hregular⟩ := h.lives place hplace
  obtain rfl := hphase.curhp_pos_iff.1 hnormal
  obtain ⟨-, hgstate, hin⟩ := hphase
  unfold hit
  split
  next => exact h
  next monster hmonster =>
    have hhit : monster = { s.monsters place with curhp := (s.monsters place).curhp - damage } := by
      unfold Monster.receiveDamage at hmonster
      split at hmonster
      · cases hmonster
      · exact (Option.some.inj hmonster).symm
    dsimp only
    split
    next hdies =>
      have hhp : monster.curhp = 0 := UInt32.le_zero_iff.1 hdies
      have hself : (s.setMonster place monster).monsters place = monster :=
        Function.update_self _ _ _
      have hfree' : FreeIds (· ∈ (s.setMonster place monster).loots) s.nextId death.loots := hfree
      obtain ⟨nextId, loots, hdie⟩ := die_eq place hfree'
      rw [hself] at hdie
      obtain ⟨phase, hphase, hlast⟩ := Monster.die_inPhase hhp (by rw [hhit]; exact hgstate)
        (by rw [hhit]; exact hin) death.now
      have hlives := Monster.Lives.next hregular hhead hphase hlast
      rw [hlast] at hlives
      rw [hdie]
      refine h.change place rfl (fun other hne => ?_) (fun other hne => ?_) ?_ ?_
      · exact (Function.update_of_ne hne _ _).trans (Function.update_of_ne hne _ _)
      · exact Function.update_of_ne hne _ _
      · simpa [setMonster] using hlives
      · have hdieInit := congrArg Monster.init (monster.die_stand death.now)
        simpa [setMonster, hhit, Monster.stand] using hdieInit
    next hlives =>
      refine h.setMonster ⟨.alive, ⟨UInt32.not_le.1 hlives, ?_, ?_⟩, hhead, hregular⟩ ?_
      all_goals rw [hhit]
      exacts [hgstate, hin]

theorem removeIfDead_living (h : s.Living) (hlisted : s.Listed) (place : Nat) :
    (s.removeIfDead place).Living := by
  by_cases hdead : s.IsDead place
  · obtain ⟨hplace, -, hin⟩ := hlisted.registered _ place hdead.1
    obtain ⟨phase, hphase, hhead, hregular⟩ := h.lives place hplace
    have hphase' : phase = .dead := by
      rcases hphase.isGState_ko.1 hdead.2 with hphase' | hphase'
      · exact hphase'
      · rw [hphase.isRemoved_iff.2 hphase'] at hin
        cases hin
    rw [hphase'] at hphase hhead
    have hlives := Monster.Lives.next hregular hhead hphase.flagRemoved rfl
    obtain ⟨maps, hremove, -⟩ := removeIfDead_spec hdead
    rw [hremove]
    refine h.change place rfl (fun other hne => Function.update_of_ne hne _ _)
      (fun other hne => Function.update_of_ne hne _ _) ?_ ?_
    · simpa [Phase.last] using hlives
    · simp [Monster.flagRemoved]
  · rwa [removeIfDead_of_not hdead]

/-! ## The world's monsters -/

/-- Every monster that is not removed is registered. -/
def Complete (s : System) : Prop :=
  ∀ place < s.made, (s.monsters place).isRemoved = false →
    s.registered (s.monsters place).id = some place

theorem Complete.keeps (h : s.Complete) (hkeeps : s.Keeps s') : s'.Complete := by
  intro place hplace hin
  rw [hkeeps.made] at hplace
  rw [hkeeps.isRemoved] at hin
  rw [hkeeps.registered, hkeeps.id]
  exact h place hplace hin

theorem Complete.of_eq (h : s.Complete) (hmade : s'.made = s.made)
    (hmonsters : s'.monsters = s.monsters) (hregistered : s'.registered = s.registered) :
    s'.Complete := by
  unfold Complete
  rw [hmade, hmonsters, hregistered]
  exact h

/-- A monster is registered under the next id, which is free. -/
theorem Complete.register (h : s.Complete) {monster : Monster} (hfree : ¬ s.IsTaken s.nextId)
    (hid : monster.id = s.nextId)
    (hmade : ∀ other < s'.made, other ≠ place → other < s.made)
    (hmonsters : s'.monsters = Function.update s.monsters place monster)
    (hregistered : s'.registered = Function.update s.registered s.nextId (some place)) :
    s'.Complete := by
  intro other hother hin
  rw [hmonsters] at hin ⊢
  rw [hregistered]
  by_cases hplace : other = place
  · rw [hplace, Function.update_self, hid, Function.update_self]
  · rw [Function.update_of_ne hplace] at hin ⊢
    have hold := h other (hmade other hother hplace) hin
    rw [Function.update_of_ne fun heq => hfree ?_, hold]
    rw [← heq, IsTaken, hold]
    exact nofun

theorem removeIfDead_complete (h : s.Complete) (place : Nat) : (s.removeIfDead place).Complete := by
  by_cases hdead : s.IsDead place
  · obtain ⟨maps, hremove, -⟩ := removeIfDead_spec hdead
    rw [hremove]
    intro other hother hin
    dsimp only at hother hin ⊢
    by_cases hplace : other = place
    · rw [hplace, Function.update_self] at hin
      cases hin
    · rw [Function.update_of_ne hplace] at hin ⊢
      have hold := h other hother hin
      rw [Function.update_of_ne fun heq => hplace ?_, hold]
      rw [heq, hdead.1] at hold
      exact (Option.some.inj hold).symm
  · rwa [removeIfDead_of_not hdead]

/-- The registry has the monsters that are not removed, and every monster lives its lives. -/
structure Sound (s : System) : Prop where
  listed : s.Listed
  complete : s.Complete
  living : s.Living

variable {db : MonsterDb} {init : GenMonster} {initMonster : InitMonster}

theorem forCharacterInMap_living (h : s.Sound) (map : UInt8) (id : UInt32)
    {callback : Nat → System} (hcallback : ∀ place < s.made, (callback place).Living) :
    (s.forCharacterInMap map id callback).Living := by
  unfold forCharacterInMap
  cases hfound : s.maps (mapOf map) id with
  | none => exact h.living
  | some place => exact hcallback place (h.listed.found_lt hfound)

theorem onAttack_sound (h : s.Sound) (map : UInt8) (id : UInt32) (finalDamage : Int64)
    {death : Death} (hfree : FreeIds (· ∈ s.loots) s.nextId death.loots) :
    (s.onAttack map id finalDamage death).Sound := by
  refine ⟨h.listed.keeps (onAttack_keeps s map id finalDamage death),
    h.complete.keeps (onAttack_keeps s map id finalDamage death),
    forCharacterInMap_living h map id fun place hplace => ?_⟩
  dsimp only
  split
  next => exact h.living
  next hattack =>
    split
    next => exact h.living
    next =>
      exact hit_living h.living hplace (UInt32.not_le.1 (not_not.1 hattack).1) _ hfree

theorem physicalSkill_sound (h : s.Sound) (map : UInt8) (caster id : UInt32) (attack : UInt16)
    {death : Death} (hfree : FreeIds (· ∈ s.loots) s.nextId death.loots) :
    (s.physicalSkill map caster id attack death).Sound := by
  refine ⟨h.listed.keeps (physicalSkill_keeps s map caster id attack death),
    h.complete.keeps (physicalSkill_keeps s map caster id attack death),
    forCharacterInMap_living h map id fun place hplace => ?_⟩
  dsimp only
  split
  next => exact h.living
  next hexecute => exact hit_living h.living hplace (not_not.1 hexecute).1 _ hfree

theorem behead_sound (h : s.Sound) (map : UInt8) (id : UInt32) : (s.behead map id).Sound := by
  refine ⟨h.listed.keeps (behead_keeps s map id),
    h.complete.keeps (behead_keeps s map id),
    forCharacterInMap_living h map id fun place hplace => ?_⟩
  split
  next hbehead => exact h.living.setMonster ((h.living.lives place hplace).fall hbehead.1) rfl
  next => exact h.living

theorem tickMonster_sound (h : s.Sound) (id : UInt32) (now : UInt64) :
    (s.tickMonster id now).Sound := by
  refine ⟨h.listed.keeps (tickMonster_keeps s id now),
    h.complete.keeps (tickMonster_keeps s id now), ?_⟩
  unfold tickMonster
  split
  next => exact h.living
  next place hregistered =>
    have hplace := (h.listed.registered id place hregistered).1
    exact h.living.setMonster ((h.living.lives place hplace).tick now)
      (congrArg Monster.init ((s.monsters place).tick_stand now) :)

theorem removeDeadMonsters_sound (h : s.Sound) : s.removeDeadMonsters.Sound :=
  removeDeadMonsters_inv h fun _ place ht =>
    ⟨ht.listed.removeIfDead place, removeIfDead_complete ht.complete place,
      removeIfDead_living ht.living ht.listed place⟩

theorem createMonster_sound (h : s.Sound) (hdb : db init.monsterIndex.toUInt32 = some initMonster)
    (hmaxHp : 0 < initMonster.getMaxHp) (draw : Draw) (hfree : ¬ s.IsTaken s.nextId) :
    (s.createMonster db init draw).1.Sound := by
  have hlisted := h.listed.createMonster db init draw
  obtain ⟨kind, maps, hcreate, -⟩ := createMonster_spec draw hdb hfree
  rw [hcreate] at hlisted ⊢
  refine ⟨hlisted, h.complete.register hfree rfl (fun other hother hne => ?_) rfl rfl, ?_, ?_⟩
  · exact Nat.lt_of_le_of_ne (Nat.le_of_lt_succ hother) hne
  · intro place hplace
    by_cases hnew : place = s.made
    · simp only [makeMonster, hnew, Function.update_self]
      exact ⟨.alive, Monster.make_inPhase kind hmaxHp _ _ _ _, rfl, List.isChain_singleton _⟩
    · simp only [makeMonster, Function.update_of_ne hnew]
      exact h.living.lives place (Nat.lt_of_le_of_ne (Nat.le_of_lt_succ hplace) hnew)
  · intro place hplace
    by_cases hnew : place = s.made
    · simp only [makeMonster, hnew, Function.update_self]
      exact hmaxHp
    · simp only [makeMonster, Function.update_of_ne hnew]
      exact h.living.maxHp place (Nat.lt_of_le_of_ne (Nat.le_of_lt_succ hplace) hnew)

theorem respawnOnWorld_sound (h : s.Sound) (hplace : place < s.made)
    (hremoved : (s.monsters place).isRemoved = true) (draw : Draw) (hfree : ¬ s.IsTaken s.nextId) :
    (s.respawnOnWorld init place draw).1.Sound := by
  have hlisted := h.listed.respawnOnWorld hplace hremoved init draw
  obtain ⟨phase, hphase, hhead, hregular⟩ := h.living.lives place hplace
  obtain rfl := hphase.isRemoved_iff.1 hremoved
  have hlives := Monster.Lives.next hregular hhead
    (Monster.restoreInitialState_inPhase (h.living.maxHp place hplace) s.nextId
      (init.rect.getRandomX draw) (init.rect.getRandomY draw)) rfl
  obtain ⟨maps, hrespawn, -⟩ := respawnOnWorld_spec place init draw hfree
  rw [hrespawn] at hlisted ⊢
  refine ⟨hlisted, h.complete.register hfree rfl (fun _ hother _ => hother) rfl rfl, ?_⟩
  refine h.living.change place rfl (fun other hne => Function.update_of_ne hne _ _)
    (fun other hne => Function.update_of_ne hne _ _) ?_ ?_
  · simpa [Phase.last] using hlives
  · simp [Monster.restoreInitialState]

/-- New monsters have HP, and the ids that are taken next are free: those of the monsters of a new
    spawn, of the loot of a monster that is hit, and of the monsters that are put back. -/
def Fresh (db : MonsterDb) (s : System) : Event → Prop
  | .addSpawn init _ _ =>
    FreeIds s.IsTaken s.nextId init.amount.toInt.toNat ∧
      (0 < init.amount → ∀ initMonster ∈ db init.monsterIndex.toUInt32, 0 < initMonster.getMaxHp)
  | .onAttack _ _ _ death | .physicalSkill _ _ _ _ death =>
    FreeIds (· ∈ s.loots) s.nextId death.loots
  | .tickSpawn index _ now _ => ∀ spawn ∈ s.spawns[index]?, ¬ spawn.Waits now →
    FreeIds s.IsTaken s.nextId (s.removedCount spawn.areaMonsters)
  | .behead .. | .tickMonster .. | .removeDeadMonsters | .assignNewIds _ | .removeLoot _ => True

instance (db : MonsterDb) (s : System) (event : Event) : Decidable (Fresh db s event) :=
  match event with
  | .addSpawn .. => inferInstanceAs (Decidable (_ ∧ (_ → ∀ initMonster ∈ db _, _)))
  | .onAttack .. | .physicalSkill .. => inferInstanceAs (Decidable (FreeIds _ _ _))
  | .tickSpawn index .. => inferInstanceAs (Decidable (∀ spawn ∈ s.spawns[index]?, _ → _))
  | .behead .. | .tickMonster .. | .removeDeadMonsters | .assignNewIds _ | .removeLoot _ =>
    isTrue trivial

theorem addSpawn_sound (h : s.Sound) {draws : List Draw} {now : UInt64}
    (hfresh : Fresh db s (.addSpawn init draws now)) : (s.addSpawn db init draws now).Sound := by
  unfold addSpawn
  split
  next => exact h
  next hsome =>
    obtain ⟨initMonster, hdb⟩ := Option.ne_none_iff_exists'.1 hsome
    have hcreated : (s.createSpawn db init init.amount.toInt.toNat draws).1.Sound := by
      by_cases hpos : 0 < init.amount
      · refine createSpawn_inv (D := fun _ => True) hdb (fun t draw ht _ hfree => ?_) h
          (fun _ _ => trivial) hfresh.1
        exact createMonster_sound ht hdb (hfresh.2 hpos initMonster hdb) draw hfree
      · have hzero : init.amount.toInt.toNat = 0 := by
          have hle := Int32.le_iff_toInt_le.1 (Int32.not_lt.1 hpos)
          change init.amount.toInt ≤ 0 at hle
          omega
        rw [hzero]
        exact h
    have hlisted := h.listed.addSpawn db init draws now
    unfold addSpawn at hlisted
    rw [if_neg hsome] at hlisted
    exact ⟨hlisted, hcreated.complete.of_eq rfl rfl rfl, hcreated.living.of_eq rfl rfl rfl⟩

theorem tickSpawn_sound (h : s.Sound) {index : Nat} {draws : List Draw} {now setAt : UInt64}
    (hfresh : Fresh db s (.tickSpawn index draws now setAt)) :
    (s.tickSpawn index draws now setAt).Sound := by
  have hlisted := h.listed.tickSpawn index draws now setAt
  rcases s.tickSpawn_cases index draws now setAt with
    ⟨hsame, -⟩ | ⟨spawn, spawn', hspawn, hgoes, -, htick⟩
  · rwa [hsame]
  · have hmem := List.mem_of_getElem? hspawn
    obtain ⟨respawns, hnoted⟩ := s.noted_eq spawn now
    rw [hnoted] at htick
    rw [htick] at hlisted ⊢
    let start := s.setSpawn index { spawn with respawns := respawns }
    have hstart : start.Sound := ⟨h.listed.setSpawn hmem index _ rfl rfl,
      h.complete.of_eq rfl rfl rfl, h.living.of_eq rfl rfl rfl⟩
    -- The loop makes no monsters, so those of the spawn are still made ones.
    have hkept : ∀ t : System, ∀ place ∈ spawn.areaMonsters, ∀ draw : Draw,
        (t.Sound ∧ t.made = s.made) → True → (t.monsters place).isRemoved →
          ¬ t.IsTaken t.nextId → (t.respawnOnWorld spawn.init place draw).1.Sound ∧
            (t.respawnOnWorld spawn.init place draw).1.made = s.made := by
      intro t place hplace draw ⟨ht, hmade⟩ _ hremoved hfree
      have hlt : place < t.made := hmade ▸ h.listed.spawns spawn hmem place hplace
      refine ⟨respawnOnWorld_sound ht hlt hremoved draw hfree, ?_⟩
      obtain ⟨maps, hrespawn, -⟩ := respawnOnWorld_spec place spawn.init draw hfree
      rw [hrespawn]
      exact hmade
    obtain ⟨-, hsound, -⟩ := respawnAll_inv hkept draws (s := start) ⟨hstart, rfl⟩
      (fun _ _ => trivial) (hfresh spawn hspawn hgoes)
    exact ⟨hlisted, hsound.complete.of_eq rfl rfl rfl, hsound.living.of_eq rfl rfl rfl⟩

/-! ## Runs -/

theorem perform_sound (h : s.Sound) {event : Event} (hfresh : Fresh db s event) :
    (s.perform db event).Sound := by
  cases event with
  | addSpawn init draws now => exact addSpawn_sound h hfresh
  | onAttack map id finalDamage death => exact onAttack_sound h map id finalDamage hfresh
  | physicalSkill map caster id attack death => exact physicalSkill_sound h map caster id attack hfresh
  | behead map id => exact behead_sound h map id
  | tickMonster id now => exact tickMonster_sound h id now
  | removeDeadMonsters => exact removeDeadMonsters_sound h
  | tickSpawn index draws now setAt => exact tickSpawn_sound h hfresh
  | assignNewIds n | removeLoot id =>
      exact ⟨h.listed.keeps ⟨rfl, rfl, rfl, rfl, fun _ => rfl⟩, h.complete.of_eq rfl rfl rfl,
        h.living.of_eq rfl rfl rfl⟩

theorem step_sound (event : Event) (h : s.Sound) (hfresh : Fresh db s event)
    (hstep : s.step db event = .ok s') : s'.Sound := by
  unfold step at hstep
  split at hstep
  · have hsound := perform_sound h hfresh
    rw [← Except.ok.inj hstep]
    exact ⟨hsound.listed.keeps ⟨rfl, rfl, rfl, rfl, fun _ => rfl⟩,
      hsound.complete.of_eq rfl rfl rfl, hsound.living.of_eq rfl rfl rfl⟩
  · cases hstep

theorem empty_sound : empty.Sound where
  listed := empty_listed
  complete := by simp [Complete, empty]
  living := ⟨by simp [empty], by simp [empty]⟩

/-- What holds of a monster of a spawn at any time. -/
structure Proper (s : System) (place : Nat) : Prop where
  registered_iff : (∃ id, s.registered id = some place) ↔ (s.monsters place).isRemoved = false
  one_id : ∀ id id', s.registered id = some place → s.registered id' = some place → id = id'
  alive : 0 < (s.monsters place).curhp →
    ¬ (s.monsters place).IsGState cgsKnee ∧ ¬ (s.monsters place).IsGState cgsKo
  dead : ∀ id, s.registered id = some place → (s.monsters place).curhp = 0 →
    Xor ((s.monsters place).IsGState cgsKnee) ((s.monsters place).IsGState cgsKo)
  diesOnce : DiesOnce (s.history place)

theorem Sound.proper (h : s.Sound) (hplace : place < s.made) : s.Proper place := by
  obtain ⟨phase, hphase, -, hregular⟩ := h.living.lives place hplace
  refine ⟨?_, fun id id' hid hid' => ?_, fun hhp => ?_, fun id hid hhp => ?_, hregular.diesOnce⟩
  · constructor
    · rintro ⟨id, hid⟩
      exact (h.listed.registered id place hid).2.2
    · intro hin
      exact ⟨_, h.complete place hplace hin⟩
  · rw [← (h.listed.registered id place hid).2.1, (h.listed.registered id' place hid').2.1]
  · rw [hphase.isGState_knee, hphase.isGState_ko, hphase.curhp_pos_iff.1 hhp]
    decide
  · have hin := (h.listed.registered id place hid).2.2
    rw [hphase.isGState_knee, hphase.isGState_ko]
    cases phase with
    | alive => exact absurd hphase.1 (by rw [hhp]; decide)
    | kneeling => exact .inl ⟨rfl, by decide⟩
    | dead => exact .inr ⟨.inl rfl, by decide⟩
    | removed => exact absurd hphase.2.2 (by rw [hin]; decide)

/-- As long as new monsters have HP and new ids are free, the registry, the bits and the history of
    every monster of a spawn agree. -/
theorem run_proper {events : List Event} (hfresh : Admissible (step db) (Fresh db) empty events)
    (hrun : run (step db) empty events = .ok s) :
    ∀ spawn ∈ s.spawns, ∀ place ∈ spawn.areaMonsters, s.Proper place := by
  intro spawn hspawn place hplace
  have hsound : s.Sound :=
    run_invariant (fun _ event _ h hfresh hstep => step_sound event h hfresh hstep) empty_sound hfresh
      hrun
  exact hsound.proper (hsound.listed.spawns spawn hspawn place hplace)

/-- A monster dies, is beheaded, removed and put back, and is hit again. -/
theorem run_proper_beheaded :
    ∃ s, run (step twoMonsters) empty [.addSpawn (oneMonster 1) [] 0, .onAttack 0 0 500 ⟨1, 2⟩,
      .behead 0 0, .removeDeadMonsters, .tickSpawn 0 [] 3000 3000,
      .physicalSkill 0 7 3 40 ⟨3000, 0⟩] = .ok s ∧
        ∀ spawn ∈ s.spawns, ∀ place ∈ spawn.areaMonsters, s.Proper place := by
  refine Exists.imp (fun s hrun => ⟨hrun, run_proper ?_ hrun⟩) ⟨_, rfl⟩
  decide +kernel

/-- A monster without HP is registered, and neither kneels nor falls. -/
theorem spawned_without_hp :
    ¬ ∀ s, run (step twoMonsters) empty [.addSpawn (oneMonster 2) [] 0] = .ok s →
      ∀ spawn ∈ s.spawns, ∀ place ∈ spawn.areaMonsters, s.Proper place := by
  intro h
  have hproper := h _ rfl _ List.mem_cons_self 0 List.mem_cons_self
  rcases hproper.dead 0 rfl rfl with hknee | hko
  · exact absurd hknee.1 (by decide)
  · exact absurd hko.1 (by decide)

/-- The ids come round, and a monster whose id is taken is neither registered nor removed. -/
theorem spawned_with_taken_id :
    ¬ ∀ s, run (step twoMonsters) empty [.addSpawn (oneMonster 1) [] 0, .assignNewIds 4294967295,
        .addSpawn (oneMonster 1) [] 0] = .ok s →
      ∀ spawn ∈ s.spawns, ∀ place ∈ spawn.areaMonsters, s.Proper place := by
  intro h
  have hproper := h _ rfl _ (List.mem_cons_of_mem _ List.mem_cons_self) 1 List.mem_cons_self
  obtain ⟨id, hid⟩ := hproper.registered_iff.2 rfl
  have honly : ∀ id, Function.update (fun _ : UInt32 => (none : Option Nat)) 0 (some 0) id ≠ some 1 := by
    intro id
    by_cases hzero : id = 0
    · simp [hzero]
    · simp [Function.update_of_ne hzero]
  exact honly id hid

/-- The id of a loot is taken, and the monster that dies of the hit stays without its bits. -/
theorem died_with_taken_loot_id :
    ¬ ∀ s, run (step twoMonsters) empty [.addSpawn (oneMonster 1) [] 0, .addSpawn (oneMonster 1) [] 0,
        .onAttack 0 0 500 ⟨1, 1⟩, .assignNewIds 4294967295, .onAttack 0 1 500 ⟨2, 1⟩] = .ok s →
      ∀ spawn ∈ s.spawns, ∀ place ∈ spawn.areaMonsters, s.Proper place := by
  intro h
  have hproper := h _ rfl _ (List.mem_cons_of_mem _ List.mem_cons_self) 1 List.mem_cons_self
  rcases hproper.dead 1 rfl rfl with hknee | hko
  · exact absurd hknee.1 (by decide)
  · exact absurd hko.1 (by decide)

end System

end Bango.Monsters
