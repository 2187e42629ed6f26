import Bango.Monsters.Proofs.Steps

set_option autoImplicit false

/-! # Which monsters the world has

In every state, what the registry and the maps have is a monster that has been made and is not removed,
under its own id and in its own map, and no monster belongs to two spawns (`Listed`). -/

namespace Bango.Monsters.System

open Bango.Lib Bango.World

variable {s s' : System} {place : Nat} {db : MonsterDb} {init : GenMonster}

/-- What is registered is not removed and has the id, what a map has is registered and belongs there,
    and the spawns have different monsters. -/
structure Listed (s : System) : Prop where
  registered : ∀ id place, s.registered id = some place →
    place < s.made ∧ (s.monsters place).id = id ∧ (s.monsters place).isRemoved = false
  maps : ∀ i id place, s.maps i id = some place → s.registered id = some place ∧ i = s.mapAt place
  spawns : ∀ spawn ∈ s.spawns, ∀ place ∈ spawn.areaMonsters, place < s.made
  owner : ∀ spawn ∈ s.spawns, ∀ other ∈ s.spawns, ∀ place ∈ spawn.areaMonsters,
    place ∈ other.areaMonsters → other.init = spawn.init

namespace Listed

theorem keeps (h : s.Listed) (hkeeps : s.Keeps s') : s'.Listed where
  registered id place hfound := by
    rw [hkeeps.registered] at hfound
    rw [hkeeps.made, hkeeps.id, hkeeps.isRemoved]
    exact h.registered id place hfound
  maps i id place hfound := by
    rw [hkeeps.maps] at hfound
    unfold mapAt
    rw [hkeeps.registered, hkeeps.map]
    exact h.maps i id place hfound
  spawns := by
    rw [hkeeps.spawns, hkeeps.made]
    exact h.spawns
  owner := by
    rw [hkeeps.spawns]
    exact h.owner

/-- What is found in a map has been made. -/
theorem found_lt (h : s.Listed) {i : Fin mapCount} {id : UInt32}
    (hfound : s.maps i id = some place) : place < s.made :=
  (h.registered id place (h.maps i id place hfound).1).1

/-- A free id is free in all maps. -/
theorem maps_eq_none (h : s.Listed) {id : UInt32} (hfree : ¬ s.IsTaken id) (i : Fin mapCount) :
    s.maps i id = none := by
  cases hfound : s.maps i id with
  | none => rfl
  | some place =>
      have hregistered := (h.maps i id place hfound).1
      rw [not_not.1 hfree] at hregistered
      cases hregistered

/-- The registry and the maps are as they were. -/
theorem of_eq (h : s.Listed) (hmade : s'.made = s.made) (hmonsters : s'.monsters = s.monsters)
    (hregistered : s'.registered = s.registered) (hmaps : s'.maps = s.maps)
    (hspawns : ∀ spawn ∈ s'.spawns, ∀ place ∈ spawn.areaMonsters, place < s.made)
    (howner : ∀ spawn ∈ s'.spawns, ∀ other ∈ s'.spawns, ∀ place ∈ spawn.areaMonsters,
      place ∈ other.areaMonsters → other.init = spawn.init) : s'.Listed where
  registered id place hfound := by
    rw [hregistered] at hfound
    rw [hmade, hmonsters]
    exact h.registered id place hfound
  maps i id place hfound := by
    rw [hmaps] at hfound
    unfold mapAt
    rw [hregistered, hmonsters]
    exact h.maps i id place hfound
  spawns := by
    rw [hmade]
    exact hspawns
  owner := howner

/-- A spawn changes, but for its record and its monsters. -/
theorem setSpawn (h : s.Listed) {spawn : Spawn} (hspawn : spawn ∈ s.spawns) (index : Nat)
    (spawn' : Spawn) (hinit : spawn'.init = spawn.init)
    (hplaces : spawn'.areaMonsters = spawn.areaMonsters) : (s.setSpawn index spawn').Listed := by
  refine h.of_eq rfl rfl rfl rfl (fun other hother => ?_) fun other hother another hanother => ?_
  · obtain ⟨before, hbefore, -, hsame⟩ := setSpawn_mem hspawn hinit hplaces hother
    rw [hsame]
    exact h.spawns before hbefore
  · obtain ⟨before, hbefore, hinit', hsame⟩ := setSpawn_mem hspawn hinit hplaces hother
    obtain ⟨before', hbefore', hinit'', hsame'⟩ := setSpawn_mem hspawn hinit hplaces hanother
    rw [hsame, hsame', hinit', hinit'']
    exact h.owner before hbefore before' hbefore'

theorem makeMonster (h : s.Listed) (monster : Monster) : (s.makeMonster monster).Listed where
  registered id place hfound := by
    have hold := h.registered id place hfound
    have hplace : place ≠ s.made := Nat.ne_of_lt hold.1
    refine ⟨Nat.lt_succ_of_lt hold.1, ?_⟩
    simpa [System.makeMonster, Function.update_of_ne hplace] using hold.2
  maps i id place hfound := by
    have hplace : place ≠ s.made := Nat.ne_of_lt (h.found_lt hfound)
    simpa [System.makeMonster, mapAt, Function.update_of_ne hplace] using h.maps i id place hfound
  spawns spawn hspawn place hplace := Nat.lt_succ_of_lt (h.spawns spawn hspawn place hplace)
  owner := h.owner

/-- A removed monster is in no registry, and may change. -/
theorem restore (h : s.Listed) (hremoved : (s.monsters place).isRemoved = true)
    (monster : Monster) :
    (((s.assignNewIds 1).setMonster place monster).record place .spawned).Listed := by
  have hother : ∀ id other, s.registered id = some other → other ≠ place := by
    rintro id other hfound rfl
    have hin := (h.registered id other hfound).2.2
    rw [hremoved] at hin
    cases hin
  refine ⟨fun id other hfound => ?_, fun i id other hfound => ?_, h.spawns, h.owner⟩
  · simpa [assignNewIds, setMonster, record, Function.update_of_ne (hother id other hfound)] using
      h.registered id other hfound
  · have hold := h.maps i id other hfound
    simpa [assignNewIds, setMonster, record, mapAt,
      Function.update_of_ne (hother id other hold.1)] using hold

/-- `World::Add`, whether it comes to its end or not. -/
theorem add (h : s.Listed) (hplace : place < s.made) (hin : (s.monsters place).isRemoved = false) :
    (s.add place).1.Listed := by
  by_cases hfree : s.registered (s.monsters place).id = none
  · obtain ⟨maps, hadd, hmaps⟩ := add_spec hfree
    rw [hadd]
    refine ⟨fun id other hfound => ?_, fun i id other hfound => ?_, h.spawns, h.owner⟩
    · by_cases hid : id = (s.monsters place).id
      · simp only [hid, Function.update_self] at hfound
        rw [← Option.some.inj hfound, hid]
        exact ⟨hplace, rfl, hin⟩
      · simp only [Function.update_of_ne hid] at hfound
        exact h.registered id other hfound
    · rcases (hmaps i id other).1 hfound with hold | ⟨-, hi, hid, hother, -⟩
      · have hmap := h.maps i id other hold
        have hid : id ≠ (s.monsters place).id := by
          rintro rfl
          rw [hfree] at hmap
          cases hmap.1
        exact ⟨by rw [← hmap.1]; exact Function.update_of_ne hid _ _, hmap.2⟩
      · rw [hi, hid, hother]
        exact ⟨Function.update_self _ _ _, rfl⟩
  · rwa [add_taken hfree]

theorem removeIfDead (h : s.Listed) (place : Nat) : (s.removeIfDead place).Listed := by
  by_cases hdead : s.IsDead place
  · obtain ⟨maps, hremove, hmaps⟩ := removeIfDead_spec hdead
    have hlisted := hdead.1
    rw [hremove]
    -- What is registered after this has another id, and so is another monster.
    have hother : ∀ id other, s.registered id = some other → id ≠ (s.monsters place).id →
        other ≠ place := by
      rintro id other hfound hid rfl
      exact hid (h.registered id other hfound).2.1.symm
    refine ⟨fun id other hfound => ?_, fun i id other hfound => ?_, h.spawns, h.owner⟩
    · by_cases hid : id = (s.monsters place).id
      · simp [hid] at hfound
      · simp only [Function.update_of_ne hid] at hfound
        simpa [Function.update_of_ne (hother id other hfound hid)] using
          h.registered id other hfound
    · obtain ⟨hold, hnot⟩ := (hmaps i id other).1 hfound
      obtain ⟨hreg, hi⟩ := h.maps i id other hold
      have hid : id ≠ (s.monsters place).id := by
        rintro rfl
        rw [hlisted] at hreg
        exact hnot ⟨Option.some.inj hreg ▸ hi, rfl, (Option.some.inj hreg).symm⟩
      simpa [mapAt, Function.update_of_ne hid, Function.update_of_ne (hother id other hreg hid)]
        using ⟨hreg, hi⟩
  · rwa [removeIfDead_of_not hdead]

theorem createMonster (h : s.Listed) (db : MonsterDb) (init : GenMonster) (draw : Draw) :
    (s.createMonster db init draw).1.Listed := by
  rcases s.createMonster_eq db init draw with hnone | ⟨kind, initMonster, hsome⟩
  · rwa [hnone]
  · rw [hsome]
    refine (h.makeMonster _).add (Nat.lt_succ_self s.made) ?_
    simp [System.makeMonster, Monster.make]

theorem respawnOnWorld (h : s.Listed) (hplace : place < s.made)
    (hremoved : (s.monsters place).isRemoved = true) (init : GenMonster) (draw : Draw) :
    (s.respawnOnWorld init place draw).1.Listed := by
  refine (h.restore hremoved _).add hplace ?_
  simp [record, setMonster, Monster.restoreInitialState]

/-! ## Steps -/

theorem addSpawn (h : s.Listed) (db : MonsterDb) (init : GenMonster) (draws : List Draw)
    (now : UInt64) : (s.addSpawn db init draws now).Listed := by
  unfold System.addSpawn
  split
  next => exact h
  next =>
    have hcreated := createSpawn_induct (fun t draw (ht : t.Listed) => ht.createMonster db init draw)
      h init.amount.toInt.toNat draws
    have hspawns := s.createSpawn_spawns db init init.amount.toInt.toNat draws
    obtain ⟨-, hplaces⟩ := s.createSpawn_places db init init.amount.toInt.toNat draws
    -- The new monsters were not made before, so no other spawn has one of them.
    have hnew : ∀ spawn ∈ s.spawns, ∀ place ∈ spawn.areaMonsters,
        place ∉ (s.createSpawn db init init.amount.toInt.toNat draws).2 := by
      intro spawn hspawn place hplace hmade
      exact Nat.not_lt_of_le (hplaces place hmade).1 (h.spawns spawn hspawn place hplace)
    refine hcreated.of_eq rfl rfl rfl rfl (fun spawn hspawn => ?_) fun spawn hspawn other hother => ?_
    · rcases List.mem_append.1 hspawn with hold | hlast
      · exact hcreated.spawns spawn hold
      · rw [List.mem_singleton.1 hlast]
        exact fun place hplace => (hplaces place hplace).2
    · dsimp only at hspawn hother
      rw [hspawns] at hspawn hother
      rcases List.mem_append.1 hspawn with hspawn | hspawn <;>
        rcases List.mem_append.1 hother with hother | hother
      · exact h.owner spawn hspawn other hother
      · rw [List.mem_singleton.1 hother]
        exact fun place hplace hplace' => (hnew spawn hspawn place hplace hplace').elim
      · rw [List.mem_singleton.1 hspawn]
        exact fun place hplace hplace' => (hnew other hother place hplace' hplace).elim
      · rw [List.mem_singleton.1 hspawn, List.mem_singleton.1 hother]
        exact fun _ _ _ => rfl

theorem tickSpawn (h : s.Listed) (index : Nat) (draws : List Draw) (now setAt : UInt64) :
    (s.tickSpawn index draws now setAt).Listed := by
  rcases s.tickSpawn_cases index draws now setAt with
    ⟨hsame, -⟩ | ⟨spawn, spawn', hspawn, -, hspawn', htick⟩
  · rwa [hsame]
  · have hmem := List.mem_of_getElem? hspawn
    obtain ⟨respawns, hnoted⟩ := s.noted_eq spawn now
    rw [hnoted] at hspawn' htick
    rw [htick]
    let start := s.setSpawn index { spawn with respawns := respawns }
    have hstart : start.Listed := h.setSpawn hmem index _ rfl rfl
    have hkept : ∀ t : System, ∀ place ∈ spawn.areaMonsters, ∀ draw,
        (t.Listed ∧ t.made = s.made) → (t.monsters place).isRemoved →
          (t.respawnOnWorld spawn.init place draw).1.Listed ∧
            (t.respawnOnWorld spawn.init place draw).1.made = s.made := by
      intro t place hplace draw ⟨ht, hmade⟩ hremoved
      have hlt : place < t.made := hmade ▸ h.spawns spawn hmem place hplace
      refine ⟨ht.respawnOnWorld hlt hremoved spawn.init draw, ?_⟩
      obtain ⟨registered, maps, hrespawn⟩ := t.respawnOnWorld_eq spawn.init place draw
      rw [hrespawn]
      exact hmade
    have hdone := respawnAll_induct hkept (s := start) ⟨hstart, rfl⟩ draws
    have hnow : { spawn with respawns := respawns } ∈
        (start.respawnAll spawn.init spawn.areaMonsters draws).1.spawns := by
      rw [respawnAll_spawns]
      exact List.mem_set (List.getElem?_eq_some_iff.1 hspawn).1 _
    rcases hspawn' with rfl | rfl
    · exact hdone.1.setSpawn hnow index _ rfl rfl
    · exact hdone.1.setSpawn hnow index _ rfl rfl

end Listed

/-- Whatever happens, the monsters stay listed. -/
theorem perform_listed (h : s.Listed) (db : MonsterDb) (event : Event) :
    (s.perform db event).Listed := by
  rcases s.perform_cases db event with
    ⟨init, draws, now, rfl⟩ | rfl | ⟨index, draws, now, setAt, rfl⟩ | hkeeps
  · exact h.addSpawn db init draws now
  · exact removeDeadMonsters_inv h fun t place ht => ht.removeIfDead place
  · exact h.tickSpawn index draws now setAt
  · exact h.keeps hkeeps

theorem step_listed (event : Event) (h : s.Listed) (hstep : s.step db event = .ok s') :
    s'.Listed := by
  unfold step at hstep
  split at hstep
  · rw [← Except.ok.inj hstep]
    exact (perform_listed h db event).keeps ⟨rfl, rfl, rfl, rfl, fun _ => rfl⟩
  · cases hstep

theorem empty_listed : empty.Listed :=
  ⟨by simp [empty], by simp [empty], by simp [empty], by simp [empty]⟩

end Bango.Monsters.System
