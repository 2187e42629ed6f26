import Mathlib.Data.UInt
import Bango.Monsters.Proofs.Listed

set_option autoImplicit false

/-! # Where monsters stand

Both classes of monsters drop the map they are made for, so every monster is on map 0; and what is drawn
from the rectangle of a record is multiplied by 32 in 32 bits. A monster is where its record says when
that is map 0, the coordinates fit, and its id is free when it is made or put back. -/

namespace Bango.Monsters

open Bango.Lib Bango.Space Bango.World

/-- A map that exists, and a rectangle. -/
structure GenMonster.Valid (init : GenMonster) : Prop where
  map_nonneg : 0 ≤ init.map
  map_lt : init.map < 32
  x1_nonneg : 0 ≤ init.rect.x1
  x1_le : init.rect.x1 ≤ init.rect.x2
  y1_nonneg : 0 ≤ init.rect.y1
  y1_le : init.rect.y1 ≤ init.rect.y2

instance (init : GenMonster) : Decidable init.Valid :=
  decidable_of_iff (0 ≤ init.map ∧ init.map < 32 ∧ 0 ≤ init.rect.x1 ∧ init.rect.x1 ≤ init.rect.x2 ∧
      0 ≤ init.rect.y1 ∧ init.rect.y1 ≤ init.rect.y2)
    ⟨fun ⟨h1, h2, h3, h4, h5, h6⟩ => ⟨h1, h2, h3, h4, h5, h6⟩,
      fun ⟨h1, h2, h3, h4, h5, h6⟩ => ⟨h1, h2, h3, h4, h5, h6⟩⟩

/-- What is drawn from `min` on still is a coordinate from there on, inside of a map, when it is
    multiplied by 32. -/
def Fits (min drawn : UInt32) : Prop := min ≤ drawn % 2 ^ 27 ∧ drawn % 2 ^ 27 ≤ 12800

instance (min drawn : UInt32) : Decidable (Fits min drawn) := inferInstanceAs (Decidable (_ ∧ _))

/-- What is drawn for a monster fits. -/
def RectXY.Lands (rect : RectXY) (draw : Draw) : Prop :=
  Fits rect.x1.toUInt32 (between rect.x1.toUInt32 rect.x2.toUInt32 draw.x) ∧
    Fits rect.y1.toUInt32 (between rect.y1.toUInt32 rect.y2.toUInt32 draw.y)

instance (rect : RectXY) (draw : Draw) : Decidable (rect.Lands draw) :=
  inferInstanceAs (Decidable (_ ∧ _))

/-! ## Coordinates -/

theorem toNat_coordinate {a : Int32} (h : 0 ≤ a) : (a.toUInt32.toNat : Int) = a.toInt := by
  have hle : 0 ≤ a.toInt := Int32.le_iff_toInt_le.1 h
  rw [Int32.toNat_toUInt32_of_le h, ← Int32.toNat_toInt, Int.toNat_of_nonneg hle]

theorem toInt_toInt32_of_lt {a : UInt32} (h : a.toNat < 2 ^ 31) : a.toInt32.toInt = a.toNat := by
  show a.toBitVec.toInt = a.toBitVec.toNat
  refine BitVec.toInt_eq_toNat_of_lt ?_
  change 2 * a.toNat < 2 ^ 32
  omega

/-- A number between two limits stays between them. -/
theorem between_le {min max : UInt32} (hle : min ≤ max) (hmax : max.toNat < 2 ^ 31) (draw : UInt32) :
    (between min max draw).toNat ≤ max.toNat := by
  have hle' := UInt32.le_iff_toNat_le.1 hle
  have hsize : (max - min + 1).toNat = max.toNat - min.toNat + 1 := by
    rw [UInt32.toNat_add, UInt32.toNat_sub_of_le _ _ hle, UInt32.toNat_one]
    omega
  have hmod : draw.toNat % (max.toNat - min.toNat + 1) < max.toNat - min.toNat + 1 :=
    Nat.mod_lt _ (Nat.succ_pos _)
  unfold between
  rw [UInt32.toNat_add, UInt32.toNat_mod, hsize]
  omega

/-- A coordinate that fits is in the rectangle and on the map. -/
theorem Fits.coordinate {min max : Int32} {draw : UInt32} (hmin : 0 ≤ min) (hle : min ≤ max)
    (h : Fits min.toUInt32 (between min.toUInt32 max.toUInt32 draw)) :
    32 * min.toInt ≤ (between min.toUInt32 max.toUInt32 draw * 32).toInt32.toInt ∧
      (between min.toUInt32 max.toUInt32 draw * 32).toInt32.toInt ≤ 32 * max.toInt ∧
      (between min.toUInt32 max.toUInt32 draw * 32).toInt32.toInt ≤ mapWidth := by
  have hmin' := toNat_coordinate hmin
  have hmax' := toNat_coordinate (Int32.le_trans hmin hle)
  have hmax := Int32.toInt_lt max
  have hle' : min.toUInt32 ≤ max.toUInt32 := by
    have hint := Int32.le_iff_toInt_le.1 hle
    rw [UInt32.le_iff_toNat_le]
    omega
  have hdrawn := between_le hle' (by omega) draw
  obtain ⟨hlow, hhigh⟩ := h
  rw [UInt32.le_iff_toNat_le, UInt32.toNat_mod] at hlow hhigh
  change _ ≤ _ % 2 ^ 27 at hlow
  change _ % 2 ^ 27 ≤ 12800 at hhigh
  have hproduct : (between min.toUInt32 max.toUInt32 draw * 32).toNat =
      32 * ((between min.toUInt32 max.toUInt32 draw).toNat % 2 ^ 27) := by
    rw [UInt32.toNat_mul]
    change _ * 32 % 2 ^ 32 = _
    omega
  rw [toInt_toInt32_of_lt (by omega), hproduct]
  have hwidth : mapWidth = 32 * 12800 := rfl
  omega

/-- What is drawn for a monster leads into the rectangle and onto the map. -/
theorem RectXY.Lands.coordinates {init : GenMonster} {draw : Draw} (h : init.rect.Lands draw)
    (hvalid : init.Valid) :
    (32 * init.rect.x1.toInt ≤ (init.rect.getRandomX draw).toInt ∧
      (init.rect.getRandomX draw).toInt ≤ 32 * init.rect.x2.toInt) ∧
    (32 * init.rect.y1.toInt ≤ (init.rect.getRandomY draw).toInt ∧
      (init.rect.getRandomY draw).toInt ≤ 32 * init.rect.y2.toInt) ∧
    boundary.InBoundary ⟨(init.rect.getRandomX draw).toInt, (init.rect.getRandomY draw).toInt⟩ := by
  obtain ⟨hx1, hx2, hx⟩ := h.1.coordinate hvalid.x1_nonneg hvalid.x1_le
  obtain ⟨hy1, hy2, hy⟩ := h.2.coordinate hvalid.y1_nonneg hvalid.y1_le
  have hx0 : 0 ≤ init.rect.x1.toInt := Int32.le_iff_toInt_le.1 hvalid.x1_nonneg
  have hy0 : 0 ≤ init.rect.y1.toInt := Int32.le_iff_toInt_le.1 hvalid.y1_nonneg
  refine ⟨⟨hx1, hx2⟩, ⟨hy1, hy2⟩, ?_⟩
  unfold getRandomX getRandomY Square.InBoundary
  simp only [boundary, Square.left, Square.right, Square.bottom, Square.top]
  omega

namespace System

variable {db : MonsterDb} {s s' t : System} {init : GenMonster} {place : Nat}

/-- A monster is on the map and in the rectangle of a record, and its map finds it unless it is
    removed. -/
structure Placed (s : System) (init : GenMonster) (place : Nat) : Prop where
  map : ((s.monsters place).map.toNat : Int) = init.map.toInt
  x_ge : 32 * init.rect.x1.toInt ≤ (s.monsters place).x.toInt
  x_le : (s.monsters place).x.toInt ≤ 32 * init.rect.x2.toInt
  y_ge : 32 * init.rect.y1.toInt ≤ (s.monsters place).y.toInt
  y_le : (s.monsters place).y.toInt ≤ 32 * init.rect.y2.toInt
  held : (s.monsters place).isRemoved = false →
    s.maps (s.mapAt place) (s.monsters place).id = some place

/-- Each monster of a spawn is where the record of the spawn says. -/
def InPlace (s : System) : Prop :=
  ∀ spawn ∈ s.spawns, spawn.init.Valid → ∀ place ∈ spawn.areaMonsters, s.Placed spawn.init place

/-- The monsters that are made or put back are on map 0, with coordinates that fit, and get free
    ids. -/
def Housed (db : MonsterDb) (s : System) : Event → Prop
  | .addSpawn init draws _ =>
    init.Valid → 0 < init.amount → db init.monsterIndex.toUInt32 ≠ none →
      init.map = 0 ∧ (∀ i < init.amount.toInt.toNat, init.rect.Lands (draws.getD i ⟨0, 0⟩)) ∧
        FreeIds s.IsTaken s.nextId init.amount.toInt.toNat
  | .tickSpawn index draws now _ => ∀ spawn ∈ s.spawns[index]?, spawn.init.Valid →
    ¬ spawn.Waits now →
      (∀ i < s.removedCount spawn.areaMonsters,
        spawn.init.rect.Lands (draws.getD i ⟨0, 0⟩)) ∧
        FreeIds s.IsTaken s.nextId (s.removedCount spawn.areaMonsters)
  | .onAttack .. | .physicalSkill .. | .behead .. | .tickMonster .. | .removeDeadMonsters
  | .assignNewIds _ | .removeLoot _ => True

instance (db : MonsterDb) (s : System) (event : Event) : Decidable (Housed db s event) :=
  match event with
  | .addSpawn .. => inferInstanceAs (Decidable (_ → _ → _ → _ ∧ _ ∧ _))
  | .tickSpawn index .. => inferInstanceAs (Decidable (∀ spawn ∈ s.spawns[index]?, _ → _ → _ ∧ _))
  | .onAttack .. | .physicalSkill .. | .behead .. | .tickMonster .. | .removeDeadMonsters
  | .assignNewIds _ | .removeLoot _ => isTrue trivial

namespace Placed

theorem keeps (h : s.Placed init place) (hkeeps : s.Keeps s') : s'.Placed init place := by
  have hstand := hkeeps.stand place
  have hx : (s'.monsters place).x = (s.monsters place).x := (congrArg Monster.x hstand :)
  have hy : (s'.monsters place).y = (s.monsters place).y := (congrArg Monster.y hstand :)
  have hmap := hkeeps.map place
  obtain ⟨hmap', hx1, hx2, hy1, hy2, hheld⟩ := h
  refine ⟨by rwa [hmap], by rwa [hx], by rwa [hx], by rwa [hy], by rwa [hy], fun hin => ?_⟩
  rw [hkeeps.isRemoved] at hin
  unfold mapAt
  rw [hkeeps.maps, hmap, hkeeps.id]
  exact hheld hin

/-- The monster is as it was, and no map has lost it. -/
theorem grow (h : s.Placed init place) (hmonster : s'.monsters place = s.monsters place)
    (hmaps : ∀ i id, s.maps i id = some place → s'.maps i id = some place) :
    s'.Placed init place := by
  obtain ⟨hmap, hx1, hx2, hy1, hy2, hheld⟩ := h
  have hmap' : s'.mapAt place = s.mapAt place := by
    unfold mapAt
    rw [hmonster]
  constructor
  all_goals rw [hmonster]
  · exact hmap
  · exact hx1
  · exact hx2
  · exact hy1
  · exact hy2
  · rw [hmap']
    exact fun hin => hmaps _ _ (hheld hin)

theorem removeIfDead (h : s.Placed init place) (other : Nat) :
    (s.removeIfDead other).Placed init place := by
  by_cases hdead : s.IsDead other
  · obtain ⟨maps, hremove, hmaps⟩ := removeIfDead_spec hdead
    rw [hremove]
    by_cases hplace : place = other
    · subst hplace
      constructor
      all_goals simp only [Function.update_self, Monster.flagRemoved]
      · exact h.map
      · exact h.x_ge
      · exact h.x_le
      · exact h.y_ge
      · exact h.y_le
      · intro hremoved
        cases hremoved
    · refine h.grow (Function.update_of_ne hplace _ _) fun i id hfound => ?_
      exact (hmaps i id place).2 ⟨hfound, fun hself => hplace hself.2.2⟩
  · rwa [removeIfDead_of_not hdead]

end Placed

/-- A monster of the world after one has been made. -/
theorem createMonster_old (db : MonsterDb) (init : GenMonster) (draw : Draw)
    (hplace : place < s.made) :
    (s.createMonster db init draw).1.monsters place = s.monsters place ∧
      ∀ i id, s.maps i id = some place → (s.createMonster db init draw).1.maps i id = some place := by
  rcases s.createMonster_eq db init draw with hnone | ⟨kind, initMonster, hsome⟩
  · rw [hnone]
    exact ⟨rfl, fun _ _ h => h⟩
  · rw [hsome]
    obtain ⟨registered, maps, hadd⟩ := (s.makeMonster (.make kind initMonster s.nextId
      (init.rect.getRandomX draw) (init.rect.getRandomY draw) 0)).add_eq s.made
    refine ⟨?_, fun i id hfound => add_maps hfound⟩
    rw [hadd]
    exact Function.update_of_ne (Nat.ne_of_lt hplace) _ _

/-- A monster that is made on map 0 with coordinates that fit and a free id is in place. -/
theorem createMonster_placed (h : s.Listed) {initMonster : InitMonster} {draw : Draw}
    (hdb : db init.monsterIndex.toUInt32 = some initMonster) (hvalid : init.Valid)
    (hmap : init.map = 0) (hlands : init.rect.Lands draw) (hfree : ¬ s.IsTaken s.nextId) :
    (s.createMonster db init draw).1.Placed init s.made := by
  obtain ⟨⟨hx1, hx2⟩, ⟨hy1, hy2⟩, hin⟩ := hlands.coordinates hvalid
  obtain ⟨kind, maps, hcreate, hmaps⟩ := createMonster_spec draw hdb hfree
  rw [hcreate]
  constructor
  all_goals simp only [makeMonster, mapAt, Function.update_self, Monster.make]
  · rw [hmap]
    rfl
  · exact hx1
  · exact hx2
  · exact hy1
  · exact hy2
  · intro _
    exact (hmaps _ _ _).2 (.inr ⟨h.maps_eq_none hfree _, rfl, rfl, rfl, hin⟩)

/-- So is a monster that is put back. -/
theorem respawnOnWorld_placed (h : s.Listed) {draw : Draw} (hplaced : s.Placed init place)
    (hvalid : init.Valid) (hlands : init.rect.Lands draw) (hfree : ¬ s.IsTaken s.nextId) :
    (s.respawnOnWorld init place draw).1.Placed init place := by
  obtain ⟨⟨hx1, hx2⟩, ⟨hy1, hy2⟩, hin⟩ := hlands.coordinates hvalid
  obtain ⟨maps, hrespawn, hmaps⟩ := respawnOnWorld_spec place init draw hfree
  rw [hrespawn]
  constructor
  all_goals simp only [mapAt, Function.update_self, Monster.restoreInitialState]
  · exact hplaced.map
  · exact hx1
  · exact hx2
  · exact hy1
  · exact hy2
  · intro _
    exact (hmaps _ _ _).2 (.inr ⟨h.maps_eq_none hfree _, rfl, rfl, rfl, hin⟩)

theorem respawnOnWorld_other (s : System) (init : GenMonster) (draw : Draw) {other : Nat}
    (hne : other ≠ place) :
    (s.respawnOnWorld init place draw).1.monsters other = s.monsters other ∧
      ∀ i id, s.maps i id = some other →
        (s.respawnOnWorld init place draw).1.maps i id = some other := by
  obtain ⟨registered, maps, hrespawn⟩ := s.respawnOnWorld_eq init place draw
  refine ⟨?_, fun i id hfound => add_maps hfound⟩
  rw [hrespawn]
  exact Function.update_of_ne hne _ _

/-! ## Steps -/

/-- The monsters that are made for a new spawn are in place. -/
theorem createSpawn_placed (h : s.Listed) {initMonster : InitMonster} {n : Nat} {draws : List Draw}
    (hdb : db init.monsterIndex.toUInt32 = some initMonster) (hvalid : init.Valid)
    (hmap : init.map = 0) (hlands : ∀ i < n, init.rect.Lands (draws.getD i ⟨0, 0⟩))
    (hfree : FreeIds s.IsTaken s.nextId n) :
    ∀ place ∈ (s.createSpawn db init n draws).2,
      (s.createSpawn db init n draws).1.Placed init place := by
  have hround : ∀ (t : System) (draw : Draw),
      (t.Listed ∧ ∀ place, s.made ≤ place → place < t.made → t.Placed init place) →
        init.rect.Lands draw → ¬ t.IsTaken t.nextId →
          (t.createMonster db init draw).1.Listed ∧ ∀ place, s.made ≤ place →
            place < (t.createMonster db init draw).1.made →
              (t.createMonster db init draw).1.Placed init place := by
    intro t draw ⟨ht, hplaced⟩ hland hnew
    refine ⟨ht.createMonster db init draw, fun place hle hlt => ?_⟩
    obtain ⟨kind, maps, hcreate, -⟩ := createMonster_spec draw hdb hnew
    have hmade : (t.createMonster db init draw).1.made = t.made + 1 := by
      rw [hcreate]
      rfl
    rw [hmade] at hlt
    rcases Nat.lt_succ_iff_lt_or_eq.1 hlt with hbefore | rfl
    · obtain ⟨hsame, hmaps⟩ := t.createMonster_old db init draw hbefore
      exact (hplaced place hle hbefore).grow hsame hmaps
    · exact createMonster_placed ht hdb hvalid hmap hland hnew
  have hnone : ∀ place, s.made ≤ place → place < s.made → s.Placed init place :=
    fun place hle hlt => (Nat.not_lt_of_le hle hlt).elim
  have hdone := createSpawn_inv hdb hround ⟨h, hnone⟩ hlands hfree
  intro place hplace
  obtain ⟨hle, hlt⟩ := (s.createSpawn_places db init n draws).2 place hplace
  exact hdone.2 place hle hlt

/-- The others stay where they are. -/
theorem createSpawn_other (hplace : place < s.made) {other : GenMonster} (h : s.Placed other place)
    (db : MonsterDb) (init : GenMonster) (n : Nat) (draws : List Draw) :
    (s.createSpawn db init n draws).1.Placed other place := by
  have hround : ∀ (t : System) (draw : Draw), (s.made ≤ t.made ∧ t.Placed other place) →
      s.made ≤ (t.createMonster db init draw).1.made ∧
        (t.createMonster db init draw).1.Placed other place := by
    intro t draw ⟨hmade, ht⟩
    obtain ⟨hsame, hmaps⟩ := t.createMonster_old db init draw (Nat.lt_of_lt_of_le hplace hmade)
    exact ⟨Nat.le_trans hmade (t.createMonster_places db init draw).1, ht.grow hsame hmaps⟩
  exact (createSpawn_induct hround ⟨Nat.le_refl _, h⟩ n draws).2

theorem addSpawn_inPlace (h : s.InPlace) (hlisted : s.Listed) {draws : List Draw} {now : UInt64}
    (hhoused : Housed db s (.addSpawn init draws now)) : (s.addSpawn db init draws now).InPlace := by
  unfold addSpawn
  split
  next => exact h
  next hsome =>
    obtain ⟨initMonster, hdb⟩ := Option.ne_none_iff_exists'.1 hsome
    intro spawn hspawn hvalid place hplace
    dsimp only at hspawn
    rw [createSpawn_spawns] at hspawn
    rcases List.mem_append.1 hspawn with hbefore | hnew
    · have hlt := hlisted.spawns spawn hbefore place hplace
      have hold := createSpawn_other hlt (h spawn hbefore hvalid place hplace) db init
        init.amount.toInt.toNat draws
      exact hold.grow rfl fun _ _ hfound => hfound
    · rw [List.mem_singleton.1 hnew] at hvalid hplace ⊢
      change place ∈ (s.createSpawn db init init.amount.toInt.toNat draws).2 at hplace
      -- A spawn with a monster has been asked for one.
      have hpos : 0 < init.amount := by
        by_contra hnot
        have hle := Int32.le_iff_toInt_le.1 (Int32.not_lt.1 hnot)
        change init.amount.toInt ≤ 0 at hle
        rw [Int.toNat_of_nonpos hle] at hplace
        exact List.not_mem_nil hplace
      obtain ⟨hmap, hlands, hfree⟩ := hhoused hvalid hpos hsome
      exact (createSpawn_placed hlisted hdb hvalid hmap hlands hfree place hplace).grow rfl
        fun _ _ hfound => hfound

/-- The spawns of before, with their monsters in the state that the loop has come to. -/
structure Putting (s t : System) : Prop where
  listed : t.Listed
  made : t.made = s.made
  placed : ∀ spawn ∈ s.spawns, spawn.init.Valid → ∀ place ∈ spawn.areaMonsters,
    t.Placed spawn.init place

/-- A removed monster of a spawn is put back, with coordinates that fit and a free id if the record
    is valid. -/
theorem Putting.respawnOnWorld (h : s.Putting t) (hlisted : s.Listed) {spawn : Spawn}
    (hspawn : spawn ∈ s.spawns) (hplace : place ∈ spawn.areaMonsters) {draw : Draw}
    (hremoved : (t.monsters place).isRemoved)
    (hfree : spawn.init.Valid → spawn.init.rect.Lands draw ∧ ¬ t.IsTaken t.nextId) :
    s.Putting (t.respawnOnWorld spawn.init place draw).1 := by
  have hlt : place < t.made := h.made ▸ hlisted.spawns spawn hspawn place hplace
  refine ⟨h.listed.respawnOnWorld hlt hremoved spawn.init draw, ?_, ?_⟩
  · obtain ⟨registered, maps, hrespawn⟩ := t.respawnOnWorld_eq spawn.init place draw
    rw [hrespawn]
    exact h.made
  · intro other hother hvalid place' hplace'
    have hplaced := h.placed other hother hvalid place' hplace'
    by_cases hsame : place' = place
    · rw [hsame] at hplace' hplaced ⊢
      rw [hlisted.owner spawn hspawn other hother place hplace hplace'] at hvalid hplaced ⊢
      exact respawnOnWorld_placed h.listed hplaced hvalid (hfree hvalid).1 (hfree hvalid).2
    · obtain ⟨hstill, hmaps⟩ := t.respawnOnWorld_other spawn.init draw hsame
      exact hplaced.grow hstill hmaps

theorem tickSpawn_inPlace (h : s.InPlace) (hlisted : s.Listed) {index : Nat} {draws : List Draw}
    {now setAt : UInt64} (hhoused : Housed db s (.tickSpawn index draws now setAt)) :
    (s.tickSpawn index draws now setAt).InPlace := by
  rcases s.tickSpawn_cases index draws now setAt with
    ⟨hsame, -⟩ | ⟨spawn, spawn', hspawn, hgoes, hspawn', htick⟩
  · rwa [hsame]
  · have hmem := List.mem_of_getElem? hspawn
    obtain ⟨respawns, hnoted⟩ := s.noted_eq spawn now
    rw [hnoted] at hspawn' htick
    rw [htick]
    let start := s.setSpawn index { spawn with respawns := respawns }
    have hstart : s.Putting start := ⟨hlisted.setSpawn hmem index _ rfl rfl, rfl,
      fun other hother hvalid place hplace =>
        (h other hother hvalid place hplace).grow rfl fun _ _ hfound => hfound⟩
    have hdone : s.Putting (start.respawnAll spawn.init spawn.areaMonsters draws).1 := by
      by_cases hvalid : spawn.init.Valid
      · obtain ⟨hlands, hfree⟩ := hhoused spawn hspawn hvalid hgoes
        refine (respawnAll_inv (P := s.Putting) (D := spawn.init.rect.Lands) (s := start)
          (fun t place hplace draw ht hland hremoved hnew => ?_) draws hstart hlands hfree).2
        exact ht.respawnOnWorld hlisted hmem hplace hremoved fun _ => ⟨hland, hnew⟩
      · refine respawnAll_induct (P := s.Putting) (s := start)
          (fun t place hplace draw ht hremoved => ?_) hstart draws
        exact ht.respawnOnWorld hlisted hmem hplace hremoved fun hvalid' => (hvalid hvalid').elim
    intro other hother hvalid place hplace
    have hspawns : ((start.respawnAll spawn.init spawn.areaMonsters draws).1.setSpawn index
        spawn').spawns = (s.setSpawn index spawn').spawns := by
      show (respawnAll _ _ _ _).1.spawns.set index spawn' = _
      rw [respawnAll_spawns]
      exact List.set_set _
    rw [hspawns] at hother
    have hinit : spawn'.init = spawn.init ∧ spawn'.areaMonsters = spawn.areaMonsters := by
      rcases hspawn' with rfl | rfl <;> exact ⟨rfl, rfl⟩
    obtain ⟨before, hbefore, hsame, hplaces⟩ := setSpawn_mem hmem hinit.1 hinit.2 hother
    rw [hsame] at hvalid ⊢
    rw [hplaces] at hplace
    exact (hdone.placed before hbefore hvalid place hplace).grow rfl fun _ _ hfound => hfound

/-! ## Runs -/

theorem InPlace.keeps (h : s.InPlace) (hkeeps : s.Keeps s') : s'.InPlace := by
  unfold InPlace
  rw [hkeeps.spawns]
  exact fun spawn hspawn hvalid place hplace => (h spawn hspawn hvalid place hplace).keeps hkeeps

theorem removeDeadMonsters_inPlace (h : s.InPlace) : s.removeDeadMonsters.InPlace := by
  have hkept : ∀ spawn ∈ s.spawns, spawn.init.Valid → ∀ place ∈ spawn.areaMonsters,
      s.removeDeadMonsters.Placed spawn.init place := fun spawn hspawn hvalid place hplace =>
    removeDeadMonsters_inv (P := fun t => t.Placed spawn.init place)
      (h spawn hspawn hvalid place hplace) fun t other ht => Placed.removeIfDead ht other
  unfold InPlace
  rwa [removeDeadMonsters_spawns]

theorem perform_inPlace (h : s.InPlace) (hlisted : s.Listed) {event : Event}
    (hhoused : Housed db s event) : (s.perform db event).InPlace := by
  rcases s.perform_cases db event with
    ⟨init, draws, now, rfl⟩ | rfl | ⟨index, draws, now, setAt, rfl⟩ | hkeeps
  · exact addSpawn_inPlace h hlisted hhoused
  · exact removeDeadMonsters_inPlace h
  · exact tickSpawn_inPlace h hlisted hhoused
  · exact h.keeps hkeeps

theorem step_inPlace (event : Event) (h : s.Listed ∧ s.InPlace) (hhoused : Housed db s event)
    (hstep : s.step db event = .ok s') : s'.Listed ∧ s'.InPlace := by
  refine ⟨step_listed event h.1 hstep, ?_⟩
  unfold step at hstep
  split at hstep
  · rw [← Except.ok.inj hstep]
    exact (perform_inPlace h.2 h.1 hhoused).keeps ⟨rfl, rfl, rfl, rfl, fun _ => rfl⟩
  · cases hstep

theorem empty_inPlace : empty.InPlace := by simp [InPlace, empty]

/-- As long as what is made and what is put back is for map 0, fits and gets free ids, every monster
    of a spawn is where its record says. -/
theorem run_inPlace {events : List Event} (hhoused : Admissible (step db) (Housed db) empty events)
    (hrun : run (step db) empty events = .ok s) : s.InPlace := by
  have hkept : ∀ (s : System) event s', (s.Listed ∧ s.InPlace) → Housed db s event →
      s.step db event = .ok s' → s'.Listed ∧ s'.InPlace :=
    fun s event s' h hhoused hstep => step_inPlace event h hhoused hstep
  exact (run_invariant hkept ⟨empty_listed, empty_inPlace⟩ hhoused hrun).2

/-- A monster is made, beheaded, removed and put back elsewhere. -/
theorem run_inPlace_respawned :
    ∃ s, run (step twoMonsters) empty [.addSpawn ⟨1, 0, 1, 1000, ⟨10, 20, 12, 24⟩⟩ [⟨1, 1⟩] 0,
      .onAttack 0 0 500 ⟨1, 2⟩, .behead 0 0, .removeDeadMonsters,
      .tickSpawn 0 [⟨2, 7⟩] 3000 3000] = .ok s ∧ s.InPlace := by
  refine Exists.imp (fun s hrun => ⟨hrun, run_inPlace ?_ hrun⟩) ⟨_, rfl⟩
  decide +kernel

/-- A record for map 1: the monster is on map 0. -/
theorem made_on_another_map :
    ¬ ∀ s, run (step twoMonsters) empty [.addSpawn ⟨1, 1, 1, 1000, ⟨10, 20, 12, 24⟩⟩ [⟨1, 1⟩] 0] =
      .ok s → s.InPlace := by
  intro h
  have hplaced := h _ rfl _ List.mem_cons_self (by decide) 0 List.mem_cons_self
  exact absurd hplaced.map (by decide)

end System

end Bango.Monsters
