import Bango.Lib.Ids
import Bango.Monsters.System

set_option autoImplicit false

/-! # What a step does to the monsters

Hits and the ticks of monsters leave the registry, the maps and the spawns alone (`Keeps`). The other
operations change one monster at a time, and what each round of a loop keeps, the loop keeps. -/

namespace Bango.Monsters

open Bango.Lib Bango.Space Bango.World

/-- A monster without its state of health. -/
def Monster.stand (monster : Monster) : Monster :=
  { monster with curhp := 0, gstate := 0, deathTime := 0 }

namespace Monster

variable {monster monster' : Monster}

theorem die_stand (monster : Monster) (now : UInt64) : (monster.die now).stand = monster.stand := by
  unfold die
  split <;> rfl

theorem tick_stand (monster : Monster) (now : UInt64) : (monster.tick now).stand = monster.stand := by
  unfold tick
  split
  · rfl
  · split <;> rfl

theorem receiveDamage_stand {damage : UInt32} (h : monster.receiveDamage damage = some monster') :
    monster'.stand = monster.stand := by
  unfold receiveDamage at h
  split at h
  · cases h
  · rw [← Option.some.inj h]
    rfl

/-- Both classes hand on all but the map. -/
theorem create_eq (init : InitMonster) (id : UInt32) (x y map : Int32) :
    ∃ kind, create init id x y map = make kind init id x y 0 := by
  unfold create makeRegular makeBeheadable
  split
  · exact ⟨.regular, rfl⟩
  · split
    · exact ⟨.beheadable, rfl⟩
    · exact ⟨.regular, rfl⟩

end Monster

namespace System

variable {s s' t : System} {place : Nat}

/-! ## What hits leave alone -/

/-- Nothing but the clock, the counter, the loot, the histories and the health of the monsters is
    changed. -/
structure Keeps (s s' : System) : Prop where
  made : s'.made = s.made
  registered : s'.registered = s.registered
  maps : s'.maps = s.maps
  spawns : s'.spawns = s.spawns
  stand : ∀ place, (s'.monsters place).stand = (s.monsters place).stand

namespace Keeps

theorem refl (s : System) : s.Keeps s := ⟨rfl, rfl, rfl, rfl, fun _ => rfl⟩

theorem trans (h : s.Keeps s') (h' : s'.Keeps t) : s.Keeps t where
  made := h'.made.trans h.made
  registered := h'.registered.trans h.registered
  maps := h'.maps.trans h.maps
  spawns := h'.spawns.trans h.spawns
  stand place := (h'.stand place).trans (h.stand place)

theorem id (h : s.Keeps s') (place : Nat) : (s'.monsters place).id = (s.monsters place).id :=
  (congrArg Monster.id (h.stand place) :)

theorem map (h : s.Keeps s') (place : Nat) : (s'.monsters place).map = (s.monsters place).map :=
  (congrArg Monster.map (h.stand place) :)

theorem isRemoved (h : s.Keeps s') (place : Nat) :
    (s'.monsters place).isRemoved = (s.monsters place).isRemoved :=
  (congrArg Monster.isRemoved (h.stand place) :)

theorem init (h : s.Keeps s') (place : Nat) : (s'.monsters place).init = (s.monsters place).init :=
  (congrArg Monster.init (h.stand place) :)

theorem position (h : s.Keeps s') (place : Nat) :
    (s'.monsters place).position = (s.monsters place).position :=
  (congrArg Monster.position (h.stand place) :)

theorem setMonster {monster : Monster} (h : monster.stand = (s.monsters place).stand) :
    s.Keeps (s.setMonster place monster) := by
  refine ⟨rfl, rfl, rfl, rfl, fun other => ?_⟩
  by_cases hplace : other = place
  · rw [hplace]
    simpa [System.setMonster] using h
  · simp [System.setMonster, Function.update_of_ne hplace]

theorem record (s : System) (place : Nat) (fact : Fact) : s.Keeps (s.record place fact) :=
  ⟨rfl, rfl, rfl, rfl, fun _ => rfl⟩

theorem rollLoot (s : System) (n : Nat) : s.Keeps (s.rollLoot n).1 := by
  induction n generalizing s with
  | zero => exact refl s
  | succ n ih =>
      have hadd : s.Keeps s.addLoot.1 := by
        unfold addLoot
        dsimp only
        split <;> exact ⟨rfl, rfl, rfl, rfl, fun _ => rfl⟩
      unfold System.rollLoot
      split
      next t ht =>
        rw [ht] at hadd
        exact hadd.trans (ih t)
      next t ht =>
        rw [ht] at hadd
        exact hadd

end Keeps

theorem die_keeps (s : System) (place : Nat) (death : Death) : s.Keeps (s.die place death) := by
  have hroll := (Keeps.record s place .died).trans (.rollLoot _ death.loots)
  unfold die
  split
  next t ht =>
    rw [ht] at hroll
    exact hroll.trans (.setMonster (Monster.die_stand _ death.now))
  next t ht =>
    rw [ht] at hroll
    exact hroll

theorem hit_keeps (s : System) (place : Nat) (damage : UInt32) (death : Death) :
    s.Keeps (s.hit place damage death) := by
  unfold hit
  split
  next => exact .refl s
  next monster hmonster =>
    have hset := Keeps.setMonster (Monster.receiveDamage_stand hmonster)
    dsimp only
    split
    · exact hset.trans (die_keeps _ place death)
    · exact hset

theorem onAttack_keeps (s : System) (map : UInt8) (id : UInt32) (finalDamage : Int64)
    (death : Death) : s.Keeps (s.onAttack map id finalDamage death) := by
  unfold onAttack forCharacterInMap
  dsimp only
  repeat' split
  all_goals first | exact .refl s | exact hit_keeps s _ _ death

theorem physicalSkill_keeps (s : System) (map : UInt8) (caster id : UInt32) (attack : UInt16)
    (death : Death) : s.Keeps (s.physicalSkill map caster id attack death) := by
  unfold physicalSkill forCharacterInMap
  dsimp only
  repeat' split
  all_goals first | exact .refl s | exact hit_keeps s _ _ death

theorem behead_keeps (s : System) (map : UInt8) (id : UInt32) : s.Keeps (s.behead map id) := by
  unfold behead forCharacterInMap
  dsimp only
  repeat' split
  all_goals first | exact .refl s | exact .setMonster rfl

theorem tickMonster_keeps (s : System) (id : UInt32) (now : UInt64) :
    s.Keeps (s.tickMonster id now) := by
  unfold tickMonster
  split
  · exact .refl s
  · exact .setMonster (Monster.tick_stand _ now)

/-- Three events change more than what `Keeps` leaves open. -/
theorem perform_cases (s : System) (db : MonsterDb) (event : Event) :
    (∃ init draws now, event = .addSpawn init draws now) ∨ event = .removeDeadMonsters ∨
      (∃ index draws now setAt, event = .tickSpawn index draws now setAt) ∨
      s.Keeps (s.perform db event) := by
  cases event with
  | addSpawn init draws now => exact .inl ⟨init, draws, now, rfl⟩
  | onAttack map id finalDamage death =>
      exact .inr (.inr (.inr (onAttack_keeps s map id finalDamage death)))
  | physicalSkill map caster id attack death =>
      exact .inr (.inr (.inr (physicalSkill_keeps s map caster id attack death)))
  | behead map id => exact .inr (.inr (.inr (behead_keeps s map id)))
  | tickMonster id now => exact .inr (.inr (.inr (tickMonster_keeps s id now)))
  | removeDeadMonsters => exact .inr (.inl rfl)
  | tickSpawn index draws now setAt => exact .inr (.inr (.inl ⟨index, draws, now, setAt, rfl⟩))
  | assignNewIds n => exact .inr (.inr (.inr ⟨rfl, rfl, rfl, rfl, fun _ => rfl⟩))
  | removeLoot id => exact .inr (.inr (.inr ⟨rfl, rfl, rfl, rfl, fun _ => rfl⟩))

/-! ## The registry and the maps -/

/-- What a map finds after a monster has been added. -/
theorem mapAdd_spec (s : System) (place : Nat) :
    ∃ maps, s.mapAdd place = { s with maps := maps } ∧ ∀ i id other, maps i id = some other ↔
      s.maps i id = some other ∨ s.maps i id = none ∧ i = s.mapAt place ∧
        id = (s.monsters place).id ∧ other = place ∧
          boundary.InBoundary (s.monsters place).position := by
  unfold mapAdd
  dsimp only
  split
  next hin =>
    refine ⟨_, rfl, fun i id other => ?_⟩
    by_cases hi : i = s.mapAt place
    · by_cases hid : id = (s.monsters place).id
      · rw [hi, hid, Function.update_self, Function.update_self, hin.2]
        simp [hin.1, eq_comm]
      · rw [hi, Function.update_self, Function.update_of_ne hid]
        simp [hid]
    · rw [Function.update_of_ne hi]
      simp [hi]
  next hout =>
    refine ⟨s.maps, rfl, fun i id other => ?_⟩
    rw [iff_self_or]
    rintro ⟨hnone, rfl, rfl, -, hin⟩
    exact (hout ⟨hin, hnone⟩).elim

/-- What a map finds after a monster has been removed. -/
theorem mapRemove_spec (s : System) (place : Nat) :
    ∃ maps, s.mapRemove place = { s with maps := maps } ∧ ∀ i id other, maps i id = some other ↔
      s.maps i id = some other ∧
        ¬ (i = s.mapAt place ∧ id = (s.monsters place).id ∧ other = place) := by
  unfold mapRemove
  dsimp only
  split
  next hfound =>
    refine ⟨_, rfl, fun i id other => ?_⟩
    by_cases hi : i = s.mapAt place
    · by_cases hid : id = (s.monsters place).id
      · rw [hi, hid, Function.update_self, Function.update_self, hfound]
        simp [eq_comm]
      · rw [hi, Function.update_self, Function.update_of_ne hid]
        simp [hid]
    · rw [Function.update_of_ne hi]
      simp [hi]
  next hlost =>
    refine ⟨s.maps, rfl, fun i id other => ?_⟩
    rw [iff_self_and]
    rintro hother ⟨rfl, rfl, rfl⟩
    exact hlost hother

/-- `World::Add` of a monster whose id is free. -/
theorem add_spec (hfree : s.registered (s.monsters place).id = none) :
    ∃ maps, s.add place =
        ({ s with
            registered := Function.update s.registered (s.monsters place).id (some place)
            maps := maps }, true) ∧
      ∀ i id other, maps i id = some other ↔
        s.maps i id = some other ∨ s.maps i id = none ∧ i = s.mapAt place ∧
          id = (s.monsters place).id ∧ other = place ∧
            boundary.InBoundary (s.monsters place).position := by
  obtain ⟨maps, hadd, hmaps⟩ :=
    (s.setRegistered (s.monsters place).id (some place)).mapAdd_spec place
  refine ⟨maps, ?_, hmaps⟩
  unfold add
  rw [if_pos hfree, hadd]
  rfl

/-- Is the monster registered and knocked out? -/
def IsDead (s : System) (place : Nat) : Prop :=
  s.registered (s.monsters place).id = some place ∧ (s.monsters place).IsGState cgsKo

theorem removeIfDead_spec (hdead : s.IsDead place) :
    ∃ maps, s.removeIfDead place =
        { s with
          monsters := Function.update s.monsters place (s.monsters place).flagRemoved
          history := Function.update s.history place (.removed :: s.history place)
          registered := Function.update s.registered (s.monsters place).id none
          maps := maps } ∧
      ∀ i id other, maps i id = some other ↔ s.maps i id = some other ∧
        ¬ (i = s.mapAt place ∧ id = (s.monsters place).id ∧ other = place) := by
  obtain ⟨maps, hremove, hmaps⟩ := mapRemove_spec
    ((s.setMonster place (s.monsters place).flagRemoved).record place .removed) place
  have hdo : s.removeIfDead place = (((s.setMonster place (s.monsters place).flagRemoved).record place
      .removed).mapRemove place).setRegistered (s.monsters place).id none := if_pos hdead
  refine ⟨maps, ?_, fun i id other => ?_⟩
  · rw [hdo, hremove]
    rfl
  · rw [hmaps i id other]
    simp [mapAt, record, setMonster, Monster.flagRemoved]

theorem removeIfDead_of_not (h : ¬ s.IsDead place) : s.removeIfDead place = s := if_neg h

theorem add_taken (h : s.registered (s.monsters place).id ≠ none) : s.add place = (s, false) :=
  if_neg h

/-- `World::Add` changes the registry and the maps at most. -/
theorem add_eq (s : System) (place : Nat) :
    ∃ registered maps, (s.add place).1 = { s with registered := registered, maps := maps } := by
  unfold add
  dsimp only
  split
  · obtain ⟨maps, hadd, -⟩ :=
      (s.setRegistered (s.monsters place).id (some place)).mapAdd_spec place
    exact ⟨_, maps, hadd⟩
  · exact ⟨_, _, rfl⟩

/-- `World::Add` takes nothing off a map. -/
theorem add_maps {i : Fin mapCount} {id : UInt32} {other : Nat} (h : s.maps i id = some other) :
    (s.add place).1.maps i id = some other := by
  by_cases hfree : s.registered (s.monsters place).id = none
  · obtain ⟨maps, hadd, hmaps⟩ := add_spec hfree
    rw [hadd]
    exact (hmaps i id other).2 (.inl h)
  · rwa [add_taken hfree]

/-- What `RemoveDeadMonsters` does to each monster, it does to all. -/
theorem removeDeadMonsters_inv {P : System → Prop} (h : P s)
    (hstep : ∀ t place, P t → P (t.removeIfDead place)) : P s.removeDeadMonsters := by
  unfold removeDeadMonsters
  induction List.range s.made generalizing s with
  | nil => exact h
  | cons place places ih => exact ih (hstep s place h)

theorem removeDeadMonsters_spawns (s : System) : s.removeDeadMonsters.spawns = s.spawns := by
  refine removeDeadMonsters_inv (P := fun t => t.spawns = s.spawns) rfl fun t place ht => ?_
  by_cases hdead : t.IsDead place
  · obtain ⟨maps, hremove, -⟩ := removeIfDead_spec hdead
    rw [hremove]
    exact ht
  · rwa [removeIfDead_of_not hdead]

/-! ## Making monsters and putting them back -/

/-- Does a registered monster have the id? -/
def IsTaken (s : System) (id : UInt32) : Prop := s.registered id ≠ none

instance (s : System) : DecidablePred s.IsTaken := fun _ => inferInstanceAs (Decidable (_ ≠ _))

variable {db : MonsterDb} {init : GenMonster} {initMonster : InitMonster} {draw : Draw}

variable (draw) in
theorem createMonster_spec (hdb : db init.monsterIndex.toUInt32 = some initMonster)
    (hfree : ¬ s.IsTaken s.nextId) :
    ∃ kind maps, s.createMonster db init draw =
        ({ s.makeMonster (.make kind initMonster s.nextId (init.rect.getRandomX draw)
            (init.rect.getRandomY draw) 0) with
          registered := Function.update s.registered s.nextId (some s.made)
          maps := maps }, [s.made]) ∧
      ∀ i id other, maps i id = some other ↔
        s.maps i id = some other ∨ s.maps i id = none ∧ i = 0 ∧ id = s.nextId ∧ other = s.made ∧
          boundary.InBoundary
            ⟨(init.rect.getRandomX draw).toInt, (init.rect.getRandomY draw).toInt⟩ := by
  obtain ⟨kind, hkind⟩ := Monster.create_eq initMonster s.nextId (init.rect.getRandomX draw)
    (init.rect.getRandomY draw) init.map
  let monster := Monster.make kind initMonster s.nextId (init.rect.getRandomX draw)
    (init.rect.getRandomY draw) 0
  have hself : (s.makeMonster monster).monsters s.made = monster := Function.update_self _ _ _
  have hid : ((s.makeMonster monster).monsters s.made).id = s.nextId := by rw [hself]; rfl
  have hmap : (s.makeMonster monster).mapAt s.made = 0 := by unfold mapAt; rw [hself]; rfl
  have hnone : (s.makeMonster monster).registered ((s.makeMonster monster).monsters s.made).id = none :=
    by rw [hid]; exact not_not.1 hfree
  obtain ⟨maps, hadd, hmaps⟩ := add_spec hnone
  rw [hid] at hadd
  rw [hid, hmap, hself] at hmaps
  refine ⟨kind, maps, ?_, hmaps⟩
  unfold createMonster
  simp only [hdb, hkind]
  rw [hadd]
  rfl

variable (place init draw) in
theorem respawnOnWorld_spec (hfree : ¬ s.IsTaken s.nextId) :
    ∃ maps, s.respawnOnWorld init place draw =
        ({ s with
            nextId := s.nextId + 1
            monsters := Function.update s.monsters place ((s.monsters place).restoreInitialState
              s.nextId (init.rect.getRandomX draw) (init.rect.getRandomY draw))
            history := Function.update s.history place (.spawned :: s.history place)
            registered := Function.update s.registered s.nextId (some place)
            maps := maps }, true) ∧
      ∀ i id other, maps i id = some other ↔
        s.maps i id = some other ∨ s.maps i id = none ∧ i = s.mapAt place ∧ id = s.nextId ∧
          other = place ∧ boundary.InBoundary
            ⟨(init.rect.getRandomX draw).toInt, (init.rect.getRandomY draw).toInt⟩ := by
  let monster := (s.monsters place).restoreInitialState s.nextId (init.rect.getRandomX draw)
    (init.rect.getRandomY draw)
  let restored := ((s.assignNewIds 1).setMonster place monster).record place .spawned
  have hself : restored.monsters place = monster := Function.update_self _ _ _
  have hid : (restored.monsters place).id = s.nextId := by rw [hself]; rfl
  have hmap : restored.mapAt place = s.mapAt place := by unfold mapAt; rw [hself]; rfl
  have hnone : restored.registered (restored.monsters place).id = none := by
    rw [hid]
    exact not_not.1 hfree
  obtain ⟨maps, hadd, hmaps⟩ := add_spec hnone
  rw [hid] at hadd
  rw [hid, hmap, hself] at hmaps
  refine ⟨maps, ?_, hmaps⟩
  show restored.add place = _
  rw [hadd]
  rfl

theorem createSpawn_induct {P : System → Prop}
    (hround : ∀ t draw, P t → P (t.createMonster db init draw).1) (h : P s) (n : Nat)
    (draws : List Draw) : P (s.createSpawn db init n draws).1 := by
  induction n generalizing s draws with
  | zero => exact h
  | succ n ih => exact ih (hround s _ h) draws.tail

/-- What each round of `CreateSpawn` keeps when its id is free, the loop keeps. -/
theorem createSpawn_inv {P : System → Prop} {D : Draw → Prop}
    (hdb : db init.monsterIndex.toUInt32 = some initMonster)
    (hround : ∀ t draw, P t → D draw → ¬ t.IsTaken t.nextId → P (t.createMonster db init draw).1)
    {n : Nat} {draws : List Draw} (h : P s) (hdraws : ∀ i < n, D (draws.getD i ⟨0, 0⟩))
    (hfree : FreeIds s.IsTaken s.nextId n) : P (s.createSpawn db init n draws).1 := by
  induction n generalizing s draws with
  | zero => exact h
  | succ n ih =>
      have hhead : D (draws.headD ⟨0, 0⟩) := by
        have hfirst := hdraws 0 (Nat.succ_pos n)
        cases draws <;> exact hfirst
      have hnext := hround s (draws.headD ⟨0, 0⟩) h hhead hfree.head
      obtain ⟨kind, maps, hcreate, -⟩ := createMonster_spec (draws.headD ⟨0, 0⟩) hdb
        hfree.head
      refine ih hnext (fun i hi => ?_) ?_
      · have hlater := hdraws (i + 1) (Nat.succ_lt_succ hi)
        cases draws <;> exact hlater
      · rw [hcreate]
        refine hfree.tail fun id htaken => ?_
        by_cases hid : id = s.nextId
        · exact .inr hid
        · refine .inl fun hnone => htaken ?_
          rw [← hnone]
          exact Function.update_of_ne hid _ _

theorem createMonster_eq (s : System) (db : MonsterDb) (init : GenMonster) (draw : Draw) :
    s.createMonster db init draw = (s, []) ∨ ∃ kind initMonster, s.createMonster db init draw =
      (((s.makeMonster (.make kind initMonster s.nextId (init.rect.getRandomX draw)
        (init.rect.getRandomY draw) 0)).add s.made).1, [s.made]) := by
  unfold createMonster
  split
  · exact .inl rfl
  next initMonster _ =>
    obtain ⟨kind, hkind⟩ := Monster.create_eq initMonster s.nextId (init.rect.getRandomX draw)
      (init.rect.getRandomY draw) init.map
    exact .inr ⟨kind, initMonster, by rw [hkind]⟩

/-- What a round makes is at the next places. -/
theorem createMonster_places (s : System) (db : MonsterDb) (init : GenMonster) (draw : Draw) :
    s.made ≤ (s.createMonster db init draw).1.made ∧
      ∀ place ∈ (s.createMonster db init draw).2,
        s.made ≤ place ∧ place < (s.createMonster db init draw).1.made := by
  rcases s.createMonster_eq db init draw with hnone | ⟨kind, initMonster, hsome⟩
  · rw [hnone]
    exact ⟨Nat.le_refl _, fun place hplace => (List.not_mem_nil hplace).elim⟩
  · obtain ⟨registered, maps, hadd⟩ := (s.makeMonster (.make kind initMonster s.nextId
      (init.rect.getRandomX draw) (init.rect.getRandomY draw) 0)).add_eq s.made
    rw [hsome, hadd]
    refine ⟨Nat.le_succ _, fun place hplace => ?_⟩
    rw [List.mem_singleton.1 hplace]
    exact ⟨Nat.le_refl _, Nat.lt_succ_self _⟩

/-- The monsters of a new spawn are the ones that have been made for it. -/
theorem createSpawn_places (s : System) (db : MonsterDb) (init : GenMonster) (n : Nat)
    (draws : List Draw) :
    s.made ≤ (s.createSpawn db init n draws).1.made ∧
      ∀ place ∈ (s.createSpawn db init n draws).2,
        s.made ≤ place ∧ place < (s.createSpawn db init n draws).1.made := by
  induction n generalizing s draws with
  | zero => exact ⟨Nat.le_refl _, fun place hplace => (List.not_mem_nil hplace).elim⟩
  | succ n ih =>
      obtain ⟨hle, hplaces⟩ := s.createMonster_places db init (draws.headD ⟨0, 0⟩)
      obtain ⟨hle', hplaces'⟩ := ih (s.createMonster db init (draws.headD ⟨0, 0⟩)).1 draws.tail
      refine ⟨Nat.le_trans hle hle', fun place hplace => ?_⟩
      rcases List.mem_append.1 hplace with hfirst | hlater
      · exact ⟨(hplaces place hfirst).1, Nat.lt_of_lt_of_le (hplaces place hfirst).2 hle'⟩
      · exact ⟨Nat.le_trans hle (hplaces' place hlater).1, (hplaces' place hlater).2⟩

/-- How many of the monsters are to be put back. -/
def removedCount (s : System) (places : List Nat) : Nat :=
  places.countP fun place => (s.monsters place).isRemoved

theorem removedCount_cons_removed {places : List Nat} (h : (s.monsters place).isRemoved = true) :
    s.removedCount (place :: places) = s.removedCount places + 1 :=
  List.countP_cons_of_pos (p := fun place => (s.monsters place).isRemoved) h

theorem removedCount_cons_in {places : List Nat} (h : ¬ (s.monsters place).isRemoved = true) :
    s.removedCount (place :: places) = s.removedCount places :=
  List.countP_cons_of_neg (p := fun place => (s.monsters place).isRemoved) h

/-- When a monster is put back, no more are removed than before. -/
theorem removedCount_le {places : List Nat} {monster : Monster} (hin : monster.isRemoved = false)
    (hmonsters : t.monsters = Function.update s.monsters place monster) :
    t.removedCount places ≤ s.removedCount places := by
  refine List.countP_mono_left fun other _ hother => ?_
  rw [hmonsters] at hother
  by_cases hplace : other = place
  · rw [hplace, Function.update_self, hin] at hother
    cases hother
  · rwa [Function.update_of_ne hplace] at hother

theorem respawnAll_induct {P : System → Prop} {places : List Nat}
    (hround : ∀ t, ∀ place ∈ places, ∀ draw, P t → (t.monsters place).isRemoved →
      P (t.respawnOnWorld init place draw).1) (h : P s) (draws : List Draw) :
    P (s.respawnAll init places draws).1 := by
  induction places generalizing s draws with
  | nil => exact h
  | cons place places ih =>
      have hround' := fun t other hother => hround t other (List.mem_cons_of_mem place hother)
      unfold respawnAll
      split
      next hremoved =>
        have hnext := hround s place List.mem_cons_self (draws.headD ⟨0, 0⟩) h hremoved
        split
        next t ht =>
          rw [ht] at hnext
          exact ih hround' hnext draws.tail
        next t ht =>
          rw [ht] at hnext
          exact hnext
      next => exact ih hround' h draws

/-- What each respawn keeps when its id is free, the loop of `Spawn::Tick` keeps. -/
theorem respawnAll_inv {P : System → Prop} {D : Draw → Prop} {places : List Nat}
    (hround : ∀ t, ∀ place ∈ places, ∀ draw, P t → D draw → (t.monsters place).isRemoved →
      ¬ t.IsTaken t.nextId → P (t.respawnOnWorld init place draw).1)
    (draws : List Draw) (h : P s)
    (hdraws : ∀ i < s.removedCount places, D (draws.getD i ⟨0, 0⟩))
    (hfree : FreeIds s.IsTaken s.nextId (s.removedCount places)) :
    (s.respawnAll init places draws).2 = true ∧ P (s.respawnAll init places draws).1 := by
  induction places generalizing s draws with
  | nil => exact ⟨rfl, h⟩
  | cons place places ih =>
      have hround' := fun t other hother => hround t other (List.mem_cons_of_mem place hother)
      unfold respawnAll
      by_cases hremoved : (s.monsters place).isRemoved
      · rw [removedCount_cons_removed hremoved] at hdraws hfree
        have hhead : D (draws.headD ⟨0, 0⟩) := by
          have hfirst := hdraws 0 (Nat.succ_pos _)
          cases draws <;> exact hfirst
        have hnext := hround s place List.mem_cons_self _ h hhead hremoved hfree.head
        obtain ⟨maps, hrespawn, -⟩ := respawnOnWorld_spec place init (draws.headD ⟨0, 0⟩)
          hfree.head
        rw [hrespawn] at hnext
        rw [if_pos hremoved, hrespawn]
        have hcount : (s.respawnOnWorld init place (draws.headD ⟨0, 0⟩)).1.removedCount places ≤
            s.removedCount places := by
          rw [hrespawn]
          exact removedCount_le rfl rfl
        rw [hrespawn] at hcount
        refine ih hround' _ hnext (fun i hi => ?_) ((hfree.tail fun id htaken => ?_).le hcount)
        · have hlater := hdraws (i + 1) (Nat.succ_lt_succ (Nat.lt_of_lt_of_le hi hcount))
          cases draws <;> exact hlater
        · by_cases hid : id = s.nextId
          · exact .inr hid
          · refine .inl fun hnone => htaken ?_
            rw [← hnone]
            exact Function.update_of_ne hid _ _
      · rw [removedCount_cons_in hremoved] at hdraws hfree
        rw [if_neg hremoved]
        exact ih hround' draws h hdraws hfree

/-! ## Spawns -/

theorem createSpawn_spawns (s : System) (db : MonsterDb) (init : GenMonster) (n : Nat)
    (draws : List Draw) : (s.createSpawn db init n draws).1.spawns = s.spawns := by
  refine createSpawn_induct (P := fun t => t.spawns = s.spawns) (fun t draw ht => ?_) rfl n draws
  rcases t.createMonster_eq db init draw with hnone | ⟨kind, initMonster, hsome⟩
  · rwa [hnone]
  · obtain ⟨registered, maps, hadd⟩ := (t.makeMonster (.make kind initMonster t.nextId
      (init.rect.getRandomX draw) (init.rect.getRandomY draw) 0)).add_eq t.made
    rw [hsome, hadd]
    exact ht

theorem respawnOnWorld_eq (s : System) (init : GenMonster) (place : Nat) (draw : Draw) :
    ∃ registered maps, (s.respawnOnWorld init place draw).1 =
      { s with
        nextId := s.nextId + 1
        monsters := Function.update s.monsters place ((s.monsters place).restoreInitialState
          s.nextId (init.rect.getRandomX draw) (init.rect.getRandomY draw))
        history := Function.update s.history place (.spawned :: s.history place)
        registered := registered
        maps := maps } := by
  obtain ⟨registered, maps, hadd⟩ := (((s.assignNewIds 1).setMonster place
    ((s.monsters place).restoreInitialState s.nextId (init.rect.getRandomX draw)
      (init.rect.getRandomY draw))).record place .spawned).add_eq place
  exact ⟨registered, maps, hadd⟩

theorem respawnAll_spawns (s : System) (init : GenMonster) (places : List Nat)
    (draws : List Draw) : (s.respawnAll init places draws).1.spawns = s.spawns := by
  refine respawnAll_induct (P := fun t => t.spawns = s.spawns) (fun t place _ draw ht _ => ?_) rfl
    draws
  obtain ⟨registered, maps, hrespawn⟩ := t.respawnOnWorld_eq init place draw
  rw [hrespawn]
  exact ht

/-- Every spawn is one of before, as far as its record and its monsters go. -/
theorem setSpawn_mem {spawn spawn' : Spawn} (hspawn : spawn ∈ s.spawns)
    (hinit : spawn'.init = spawn.init) (hplaces : spawn'.areaMonsters = spawn.areaMonsters)
    {index : Nat} {other : Spawn} (hother : other ∈ (s.setSpawn index spawn').spawns) :
    ∃ before ∈ s.spawns, other.init = before.init ∧ other.areaMonsters = before.areaMonsters := by
  rcases List.mem_or_eq_of_mem_set hother with hmem | rfl
  · exact ⟨other, hmem, rfl, rfl⟩
  · exact ⟨spawn, hspawn, hinit, hplaces⟩

theorem noted_eq (s : System) (spawn : Spawn) (now : UInt64) :
    ∃ respawns, s.noted spawn now = { spawn with respawns := respawns } := by
  unfold noted
  split <;> exact ⟨_, rfl⟩

/-- A tick does nothing, or notes what is to be put back, puts it back, and sets the next cycle if it
    comes to its end. -/
theorem tickSpawn_cases (s : System) (index : Nat) (draws : List Draw) (now setAt : UInt64) :
    (s.tickSpawn index draws now setAt = s ∧ ∀ spawn ∈ s.spawns[index]?, spawn.Waits now) ∨
      ∃ spawn spawn', s.spawns[index]? = some spawn ∧ ¬ spawn.Waits now ∧
        (spawn' = s.noted spawn now ∨ spawn' = (s.noted spawn now).setNextSpawnCycle setAt) ∧
        s.tickSpawn index draws now setAt =
          ((s.setSpawn index (s.noted spawn now)).respawnAll spawn.init spawn.areaMonsters
            draws).1.setSpawn index spawn' := by
  unfold tickSpawn
  cases hspawn : s.spawns[index]? with
  | none => exact .inl ⟨rfl, nofun⟩
  | some spawn =>
      by_cases hwaits : spawn.Waits now
      · refine .inl ⟨if_pos hwaits, fun other hother => ?_⟩
        rwa [← Option.mem_some_iff.1 hother]
      · right
        have hspawns := respawnAll_spawns (s.setSpawn index (s.noted spawn now)) spawn.init
          spawn.areaMonsters draws
        simp only [if_neg hwaits]
        split
        next t ht =>
          exact ⟨spawn, _, rfl, hwaits, .inr rfl, by rw [ht]⟩
        next t ht =>
          refine ⟨spawn, _, rfl, hwaits, .inl rfl, ?_⟩
          rw [ht] at hspawns ⊢
          -- The spawn that is set is the one that was set before the loop.
          change t.spawns = s.spawns.set index (s.noted spawn now) at hspawns
          show t = { t with spawns := t.spawns.set index (s.noted spawn now) }
          rw [hspawns, List.set_set, ← hspawns]

end System

end Bango.Monsters
