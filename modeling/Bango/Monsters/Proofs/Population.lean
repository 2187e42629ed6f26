import Mathlib.Data.List.Basic
import Bango.Monsters.Summons

set_option autoImplicit false

/-! # How many monsters there are

A spawn makes its monsters when it is constructed and has the same ones from then on: what dies, is
removed and is put back again is still one of them. So a monster belongs to one spawn or has been
summoned (`Populated`), and the world has all monsters of a spawn but for those that wait to be put
back. -/

namespace Bango.Monsters

open Bango.Lib Bango.World

namespace System

variable {db : MonsterDb} {s s' t : System} {init : GenMonster} {initMonster : InitMonster}
  {place : Nat}

/-! ## Making a spawn -/

theorem createMonster_made (hdb : db init.monsterIndex.toUInt32 = some initMonster) (draw : Draw) :
    (s.createMonster db init draw).2 = [s.made] ∧
      (s.createMonster db init draw).1.made = s.made + 1 := by
  simp only [createMonster, hdb, true_and]
  obtain ⟨registered, maps, hadd⟩ := (s.makeMonster (.create initMonster s.nextId
    (init.rect.getRandomX draw) (init.rect.getRandomY draw) init.map)).add_eq s.made
  rw [hadd]
  rfl

theorem createSpawn_made (hdb : db init.monsterIndex.toUInt32 = some initMonster) (n : Nat)
    (draws : List Draw) :
    (s.createSpawn db init n draws).2 = List.range' s.made n ∧
      (s.createSpawn db init n draws).1.made = s.made + n := by
  induction n generalizing s draws with
  | zero => exact ⟨rfl, rfl⟩
  | succ n ih =>
      obtain ⟨hplace, hmade⟩ := createMonster_made (s := s) hdb (draws.headD ⟨0, 0⟩)
      obtain ⟨hplaces, hmade'⟩ := @ih (s.createMonster db init (draws.headD ⟨0, 0⟩)).1 draws.tail
      simp only [createSpawn, hplace, hplaces, hmade, hmade']
      exact ⟨rfl, by omega⟩

/-! ## The monsters of the spawns -/

/-- The records of the spawns, and the places of their monsters. -/
def crews (s : System) : List (GenMonster × List Nat) :=
  s.spawns.map fun spawn => (spawn.init, spawn.areaMonsters)

theorem setSpawn_crews {index : Nat} {spawn spawn' : Spawn} (hspawn : s.spawns[index]? = some spawn)
    (hinit : spawn'.init = spawn.init) (hplaces : spawn'.areaMonsters = spawn.areaMonsters) :
    (s.setSpawn index spawn').crews = s.crews := by
  obtain ⟨hlt, hget⟩ := List.getElem?_eq_some_iff.1 hspawn
  unfold crews setSpawn
  rw [List.map_set, hinit, hplaces, ← hget]
  refine List.ext_getElem? fun i => ?_
  by_cases hi : index = i
  · subst hi
    rw [List.getElem?_set_self (by simpa using hlt), List.getElem?_map, hspawn, hget]
    rfl
  · rw [List.getElem?_set_ne hi]

theorem removeDeadMonsters_made (s : System) : s.removeDeadMonsters.made = s.made := by
  refine removeDeadMonsters_inv (P := fun t => t.made = s.made) rfl fun t place ht => ?_
  by_cases hdead : t.IsDead place
  · obtain ⟨maps, hremove, -⟩ := removeIfDead_spec hdead
    rw [hremove]
    exact ht
  · rwa [removeIfDead_of_not hdead]

theorem respawnAll_made (s : System) (init : GenMonster) (places : List Nat) (draws : List Draw) :
    (s.respawnAll init places draws).1.made = s.made := by
  refine respawnAll_induct (P := fun t => t.made = s.made) (fun t place _ draw ht _ => ?_) rfl draws
  obtain ⟨registered, maps, hrespawn⟩ := t.respawnOnWorld_eq init place draw
  rw [hrespawn]
  exact ht

theorem tickSpawn_crews (s : System) (index : Nat) (draws : List Draw) (now setAt : UInt64) :
    (s.tickSpawn index draws now setAt).crews = s.crews ∧
      (s.tickSpawn index draws now setAt).made = s.made := by
  rcases s.tickSpawn_cases index draws now setAt with
    ⟨hsame, -⟩ | ⟨spawn, spawn', hspawn, -, hspawn', htick⟩
  · rw [hsame]
    exact ⟨rfl, rfl⟩
  · obtain ⟨respawns, hnoted⟩ := s.noted_eq spawn now
    have hlt := (List.getElem?_eq_some_iff.1 hspawn).1
    have hinit : spawn'.init = spawn.init ∧ spawn'.areaMonsters = spawn.areaMonsters := by
      rw [hnoted] at hspawn'
      rcases hspawn' with rfl | rfl <;> exact ⟨rfl, rfl⟩
    have hspawns := respawnAll_spawns (s.setSpawn index (s.noted spawn now)) spawn.init
      spawn.areaMonsters draws
    rw [htick]
    refine ⟨?_, respawnAll_made _ _ _ _⟩
    -- The spawn that is set last is at the place of the one that was set before the loop.
    have hset : (((s.setSpawn index (s.noted spawn now)).respawnAll spawn.init spawn.areaMonsters
        draws).1.setSpawn index spawn').spawns = (s.setSpawn index spawn').spawns := by
      show List.set _ index spawn' = s.spawns.set index spawn'
      rw [hspawns]
      rw [System.setSpawn, List.set_set]
    have hcrews : System.crews _ = System.crews _ := congrArg (List.map _) hset
    rw [hcrews, setSpawn_crews hspawn hinit.1 hinit.2]

theorem addSpawn_crews (s : System) (db : MonsterDb) (init : GenMonster) (draws : List Draw)
    (now : UInt64) :
    s.addSpawn db init draws now = s ∨
      (s.addSpawn db init draws now).crews =
          s.crews ++ [(init, List.range' s.made init.amount.toInt.toNat)] ∧
        (s.addSpawn db init draws now).made = s.made + init.amount.toInt.toNat := by
  unfold addSpawn
  split
  next => exact .inl rfl
  next hsome =>
    right
    obtain ⟨initMonster, hdb⟩ := Option.ne_none_iff_exists'.1 hsome
    obtain ⟨hplaces, hmade⟩ := createSpawn_made (s := s) hdb init.amount.toInt.toNat draws
    refine ⟨?_, hmade⟩
    simp only [crews, createSpawn_spawns, Spawn.setNextSpawnCycle, hplaces, List.map_append,
      List.map_cons, List.map_nil]

/-- A spawn is added with new monsters, or no monster is made and the spawns keep theirs. -/
theorem perform_crews (s : System) (db : MonsterDb) (event : Event) :
    (∃ init : GenMonster,
        (s.perform db event).crews =
          s.crews ++ [(init, List.range' s.made init.amount.toInt.toNat)] ∧
        (s.perform db event).made = s.made + init.amount.toInt.toNat) ∨
      (s.perform db event).crews = s.crews ∧ (s.perform db event).made = s.made := by
  rcases s.perform_cases db event with
    ⟨init, draws, now, rfl⟩ | rfl | ⟨index, draws, now, setAt, rfl⟩ | hkeeps
  · show (∃ _, (s.addSpawn db init draws now).crews = _ ∧ _) ∨
      (s.addSpawn db init draws now).crews = _ ∧ (s.addSpawn db init draws now).made = _
    rcases s.addSpawn_crews db init draws now with hsame | hadded
    · exact .inr (by rw [hsame]; exact ⟨rfl, rfl⟩)
    · exact .inl ⟨init, hadded⟩
  · exact .inr ⟨congrArg (List.map _) s.removeDeadMonsters_spawns, s.removeDeadMonsters_made⟩
  · exact .inr (s.tickSpawn_crews index draws now setAt)
  · exact .inr ⟨congrArg (List.map _) hkeeps.spawns, hkeeps.made⟩

/-- A new monster with HP is registered under a free id. -/
theorem Sound.addMade (h : s.Sound) {monster : Monster} (hphase : monster.InPhase .alive)
    (hid : monster.id = s.nextId) (hmaxHp : 0 < monster.init.getMaxHp)
    (hfree : ¬ s.IsTaken s.nextId) : ((s.makeMonster monster).add s.made).1.Sound := by
  have hself : (s.makeMonster monster).monsters s.made = monster := Function.update_self _ _ _
  have hlisted : ((s.makeMonster monster).add s.made).1.Listed :=
    (h.listed.makeMonster monster).add (Nat.lt_succ_self s.made) (by rw [hself]; exact hphase.2.2)
  have hnone : (s.makeMonster monster).registered ((s.makeMonster monster).monsters s.made).id =
      none := by
    rw [hself, hid]
    exact not_not.1 hfree
  obtain ⟨maps, hadd, -⟩ := add_spec hnone
  rw [hself, hid] at hadd
  rw [hadd] at hlisted ⊢
  refine ⟨hlisted, h.complete.register hfree hid (fun other hother hne => ?_) rfl rfl, ?_, ?_⟩
  · exact Nat.lt_of_le_of_ne (Nat.le_of_lt_succ hother) hne
  · intro place hplace
    by_cases hnew : place = s.made
    · simp only [makeMonster, hnew, Function.update_self]
      exact ⟨.alive, hphase, rfl, List.isChain_singleton _⟩
    · simp only [makeMonster, Function.update_of_ne hnew]
      exact h.living.lives place (Nat.lt_of_le_of_ne (Nat.le_of_lt_succ hplace) hnew)
  · intro place hplace
    by_cases hnew : place = s.made
    · simp only [makeMonster, hnew, Function.update_self]
      exact hmaxHp
    · simp only [makeMonster, Function.update_of_ne hnew]
      exact h.living.maxHp place (Nat.lt_of_le_of_ne (Nat.le_of_lt_succ hplace) hnew)

end System

namespace Summoning

open Bango.Monsters.System

variable {db : MonsterDb} {s s' : Summoning}

/-- Each spawn has as many monsters as its record says, and each monster belongs to one spawn or has
    been summoned. -/
structure Populated (s : Summoning) : Prop where
  amount : ∀ crew ∈ s.system.crews, crew.2.length = crew.1.amount.toInt.toNat
  places : (s.system.crews.flatMap Prod.snd ++ s.summoned).Perm (List.range s.system.made)

theorem Populated.perform (h : s.Populated) (db : MonsterDb) (event : Event) (clock : UInt64) :
    Populated ⟨{ s.system.perform db event with clock := clock }, s.summoned⟩ := by
  rcases s.system.perform_crews db event with ⟨init, hcrews, hmade⟩ | ⟨hcrews, hmade⟩
  · constructor
    · show ∀ crew ∈ (s.system.perform db event).crews, _
      rw [hcrews, List.forall_mem_append, List.forall_mem_singleton]
      exact ⟨h.amount, List.length_range'⟩
    · show ((s.system.perform db event).crews.flatMap Prod.snd ++ s.summoned).Perm
        (List.range (s.system.perform db event).made)
      rw [hcrews, hmade, List.flatMap_append, List.flatMap_singleton, List.range_add,
        List.append_assoc, ← List.range'_eq_map_range]
      exact ((List.perm_append_comm.append_left _).trans (List.append_assoc _ _ _ ▸ .refl _)).trans
        (h.places.append_right _)
  · exact ⟨hcrews ▸ h.amount, by
      show ((s.system.perform db event).crews.flatMap Prod.snd ++ s.summoned).Perm
        (List.range (s.system.perform db event).made)
      rw [hcrews, hmade]
      exact h.places⟩

theorem step_event {event : Event} (h : s.step db (.event event) = .ok s') :
    ∃ clock, s' = ⟨{ s.system.perform db event with clock := clock }, s.summoned⟩ := by
  obtain ⟨system, hsystem, hok⟩ := bind_eq_ok.1 h
  unfold System.step at hsystem
  split at hsystem
  · refine ⟨event.readings.getLastD s.system.clock, ?_⟩
    rw [← Except.ok.inj hok, ← Except.ok.inj hsystem]
  · cases hsystem

theorem Populated.step {deed : Deed} (h : s.Populated) (hstep : s.step db deed = .ok s') :
    s'.Populated := by
  cases deed with
  | event event =>
      obtain ⟨clock, rfl⟩ := step_event hstep
      exact h.perform db event clock
  | summon index x y map =>
      rw [← Except.ok.inj hstep]
      unfold summon
      split
      next => exact h
      next init _ =>
        obtain ⟨registered, maps, hadd⟩ := (s.system.makeMonster
          (.create init s.system.nextId x y map)).add_eq s.system.made
        dsimp only
        rw [hadd]
        refine ⟨h.amount, ?_⟩
        show (s.system.crews.flatMap Prod.snd ++ s.system.made :: s.summoned).Perm
          (List.range (s.system.made + 1))
        rw [List.range_succ]
        exact List.perm_middle.trans ((h.places.cons _).trans (List.perm_append_singleton _ _).symm)

theorem sound_step {deed : Deed} (h : s.system.Sound) (hfresh : s.Fresh db deed)
    (hstep : s.step db deed = .ok s') : s'.system.Sound := by
  cases deed with
  | event event =>
      obtain ⟨system, hsystem, hok⟩ := bind_eq_ok.1 hstep
      rw [← Except.ok.inj hok]
      exact step_sound event h hfresh hsystem
  | summon index x y map =>
      rw [← Except.ok.inj hstep]
      unfold summon
      split
      next => exact h
      next init hinit =>
        obtain ⟨hmaxHp, hfree⟩ := hfresh init hinit
        obtain ⟨kind, hkind⟩ := Monster.create_eq init s.system.nextId x y map
        rw [hkind]
        exact h.addMade (Monster.make_inPhase kind hmaxHp _ _ _ _) rfl hmaxHp hfree

/-! ## The monsters of the world -/

/-- Each spawn has its monsters, and the world has them but for those that wait to be put back. -/
structure Stocked (s : Summoning) : Prop where
  /-- No monster belongs to a spawn twice, to two spawns, or to a spawn although it was summoned. -/
  apart : (s.system.spawns.flatMap Spawn.areaMonsters ++ s.summoned).Nodup
  owned : ∀ id place, s.system.registered id = some place →
    place ∈ s.summoned ∨ ∃ spawn ∈ s.system.spawns, place ∈ spawn.areaMonsters
  amount : ∀ spawn ∈ s.system.spawns, spawn.areaMonsters.length = spawn.init.amount.toInt.toNat
  inWorld : ∀ spawn ∈ s.system.spawns, ∀ place ∈ spawn.areaMonsters,
    (s.system.monsters place).isRemoved = false → ∃! id, s.system.registered id = some place
  removed : ∀ spawn ∈ s.system.spawns, ∀ place ∈ spawn.areaMonsters,
    (s.system.monsters place).isRemoved = true → ∀ id, s.system.registered id ≠ some place
  counted : ∀ spawn ∈ s.system.spawns, ∃ ids : List UInt32, ids.Nodup ∧
    (∀ id, id ∈ ids ↔ ∃ place ∈ spawn.areaMonsters, s.system.registered id = some place) ∧
    ids.length + s.system.removedCount spawn.areaMonsters = spawn.init.amount.toInt.toNat

/-- The ids of the monsters that are not removed. -/
def idsInWorld (s : System) (places : List Nat) : List UInt32 :=
  (places.filter fun place => !(s.monsters place).isRemoved).map fun place => (s.monsters place).id

theorem mem_idsInWorld {s : System} (h : s.Sound) {places : List Nat}
    (hplaces : ∀ place ∈ places, place < s.made) (id : UInt32) :
    id ∈ idsInWorld s places ↔ ∃ place ∈ places, s.registered id = some place := by
  simp only [idsInWorld, List.mem_map, List.mem_filter, Bool.not_eq_true']
  constructor
  · rintro ⟨place, ⟨hplace, hin⟩, rfl⟩
    exact ⟨place, hplace, h.complete place (hplaces place hplace) hin⟩
  · rintro ⟨place, hplace, hfound⟩
    obtain ⟨-, hid, hin⟩ := h.listed.registered id place hfound
    exact ⟨place, ⟨hplace, hin⟩, hid⟩

theorem nodup_idsInWorld {s : System} (h : s.Sound) {places : List Nat}
    (hplaces : ∀ place ∈ places, place < s.made) (hnodup : places.Nodup) :
    (idsInWorld s places).Nodup := by
  refine List.Nodup.map_on ?_ (hnodup.filter _)
  intro place hplace other hother hid
  simp only [List.mem_filter, Bool.not_eq_true'] at hplace hother
  have hfound := h.complete place (hplaces place hplace.1) hplace.2
  rw [hid, h.complete other (hplaces other hother.1) hother.2] at hfound
  exact (Option.some.inj hfound).symm

theorem length_idsInWorld (s : System) (places : List Nat) :
    (idsInWorld s places).length + s.removedCount places = places.length := by
  have hcount : places.length =
      s.removedCount places + places.countP fun place => !(s.monsters place).isRemoved := by
    rw [removedCount, List.length_eq_countP_add_countP fun place => (s.monsters place).isRemoved]
    simp only [Bool.not_eq_true, Bool.decide_eq_false]
  rw [idsInWorld, List.length_map, ← List.countP_eq_length_filter, Nat.add_comm, ← hcount]

/-- A monster that is not removed is registered under its id, and under no other. -/
theorem existsUnique_registered {s : System} (h : s.Sound) {place : Nat} (hplace : place < s.made)
    (hin : (s.monsters place).isRemoved = false) : ∃! id, s.registered id = some place := by
  refine ⟨(s.monsters place).id, h.complete place hplace hin, fun id hfound => ?_⟩
  exact (h.listed.registered id place hfound).2.1.symm

/-- One that is removed is registered under none. -/
theorem registered_ne_of_isRemoved {s : System} (h : s.Sound) {place : Nat}
    (hremoved : (s.monsters place).isRemoved = true) (id : UInt32) :
    s.registered id ≠ some place := by
  intro hfound
  have hin := (h.listed.registered id place hfound).2.2
  rw [hremoved] at hin
  cases hin

theorem Populated.stocked (h : s.Populated) (hsound : s.system.Sound) : s.Stocked := by
  have hplaces : (s.system.spawns.flatMap Spawn.areaMonsters ++ s.summoned).Perm
      (List.range s.system.made) := by
    have hmap : s.system.spawns.flatMap Spawn.areaMonsters = s.system.crews.flatMap Prod.snd := by
      rw [crews, List.flatMap_map]
    exact hmap ▸ h.places
  have hnodup := hplaces.nodup_iff.2 List.nodup_range
  have hamount : ∀ spawn ∈ s.system.spawns,
      spawn.areaMonsters.length = spawn.init.amount.toInt.toNat :=
    fun spawn hspawn => h.amount _ (List.mem_map_of_mem hspawn)
  refine ⟨hnodup, fun id place hfound => ?_, hamount, fun spawn hspawn place hplace hin => ?_,
    fun _ _ _ _ hremoved => registered_ne_of_isRemoved hsound hremoved, fun spawn hspawn => ?_⟩
  · have hlt := (hsound.listed.registered id place hfound).1
    rcases List.mem_append.1 (hplaces.mem_iff.2 (List.mem_range.2 hlt)) with hmem | hmem
    · exact .inr (List.mem_flatMap.1 hmem)
    · exact .inl hmem
  · exact existsUnique_registered hsound (hsound.listed.spawns spawn hspawn place hplace) hin
  · have hlt := hsound.listed.spawns spawn hspawn
    have hown := (List.nodup_flatMap.1 (List.nodup_append.1 hnodup).1).1 spawn hspawn
    refine ⟨idsInWorld s.system spawn.areaMonsters, nodup_idsInWorld hsound hlt hown,
      mem_idsInWorld hsound hlt, ?_⟩
    rw [length_idsInWorld, hamount spawn hspawn]

theorem empty_populated : empty.Populated := ⟨by simp [empty, System.empty, crews], .refl _⟩

/-- As long as new monsters have HP and new ids are free, the monsters of a spawn are as many as its
    record says, and each of them is in the world, under one id, or waits to be put back and is in it
    under none; no other monster is in the world but the summoned ones. -/
theorem run_stocked {deeds : List Deed} (hfresh : Admissible (step db) (Fresh db) empty deeds)
    (hrun : run (step db) empty deeds = .ok s) : s.Stocked := by
  have hsound : s.system.Sound :=
    run_invariant (fun _ _ _ h hfresh hstep => sound_step h hfresh hstep) empty_sound hfresh hrun
  have hpopulated : s.Populated :=
    run_preserves (fun _ _ _ h hstep => h.step hstep) empty_populated hrun
  exact hpopulated.stocked hsound

/-- Two spawns and a summoned monster; one of a spawn dies and is put back, and one of the other and
    the summoned one die. -/
theorem run_stocked_twoSpawns :
    ∃ s, run (step System.twoMonsters) empty
      [.event (.addSpawn (oneMonster 1) [] 0), .event (.addSpawn (oneMonster 1) [] 0),
        .event (.onAttack 0 0 500 ⟨1, 2⟩), .event (.behead 0 0), .summon 1 5 5 0,
        .event .removeDeadMonsters, .event (.tickSpawn 0 [] 3000 3000),
        .event (.onAttack 0 1 500 ⟨3000, 0⟩), .event (.behead 0 1),
        .event (.onAttack 0 4 500 ⟨3000, 0⟩), .event (.behead 0 4),
        .event .removeDeadMonsters] = .ok s ∧ s.Stocked := by
  refine Exists.imp (fun s hrun => ⟨hrun, run_stocked ?_ hrun⟩) ⟨_, rfl⟩
  decide +kernel

end Summoning

end Bango.Monsters
