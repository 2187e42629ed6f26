import Bango.Space.Proofs.Placed
import Bango.World.Registry

set_option autoImplicit false

/-! # The registries agree

A world `Holds` a set of characters when each of them is stored and listed in its map, and nothing
else is anywhere. Each map operation, as far as it comes to its end, changes that set by one
character or not at all, so the registered characters are the ones held along every admissible run. -/

namespace Bango.World

open Bango.Lib Bango.Space

namespace Registry

variable {maxContainerEntities : Nat} {sight : Int} {boundary : Square} {w w' : Registry}
  {s : Finset Character} {entity : Character}

/-- The maps hold the characters of `s`, each in its own map, and no other. -/
structure Holds (boundary : Square) (w : Registry) (s : Finset Character) : Prop where
  placed : ∀ i, Quad.Placed w.position boundary (w.quad i)
  stored : ∀ i x, x ∈ (w.quad i).entities ↔ x ∈ s ∧ i = mapOf (w.map x)
  entities : ∀ i x, x ∈ w.entities i ↔ x ∈ s ∧ i = mapOf (w.map x)

theorem holds_new (map : Character → UInt8) (position : Character → Point) :
    (new boundary map position).Holds boundary ∅ where
  placed _ := .new boundary
  stored i x := by simp [new]
  entities i x := by simp [new]

/-- One of the maps is exchanged for one that holds what the new set has in it. -/
theorem Holds.setMap {t : Finset Character} {q : Tree} {es : Finset Character}
    (h : w.Holds boundary s) (hq : Quad.Placed w.position boundary q)
    (hmem : ∀ x, x ∈ q.entities ↔ x ∈ t ∧ mapOf (w.map entity) = mapOf (w.map x))
    (hes : ∀ x, x ∈ es ↔ x ∈ t ∧ mapOf (w.map entity) = mapOf (w.map x))
    (hother : ∀ x, mapOf (w.map entity) ≠ mapOf (w.map x) → (x ∈ t ↔ x ∈ s)) :
    (w.setMap entity ⟨q, es, w.position⟩).Holds boundary t := by
  have hkeep : ∀ {i x}, i ≠ mapOf (w.map entity) →
      (x ∈ s ∧ i = mapOf (w.map x) ↔ x ∈ t ∧ i = mapOf (w.map x)) := by
    intro i x hi
    refine and_congr_left fun hx => ?_
    rw [hother x fun heq => hi (hx.trans heq.symm)]
  constructor <;> intro i <;> by_cases hi : i = mapOf (w.map entity)
  · subst hi
    simpa only [Registry.setMap, Function.update_self] using hq
  · simpa only [Registry.setMap, Function.update_of_ne hi] using h.placed i
  · subst hi
    simpa only [Registry.setMap, Function.update_self] using hmem
  · intro x
    simp only [Registry.setMap, Function.update_of_ne hi]
    rw [h.stored, hkeep hi]
  · subst hi
    simpa only [Registry.setMap, Function.update_self] using hes
  · intro x
    simp only [Registry.setMap, Function.update_of_ne hi]
    rw [h.entities, hkeep hi]

theorem mem_insert_here {x : Character} :
    x = entity ∨ (x ∈ s ∧ mapOf (w.map entity) = mapOf (w.map x)) ↔
      x ∈ insert entity s ∧ mapOf (w.map entity) = mapOf (w.map x) := by
  rw [Finset.mem_insert]
  constructor
  · intro h
    rcases h with rfl | ⟨hx, hmap⟩
    · exact ⟨.inl rfl, rfl⟩
    · exact ⟨.inr hx, hmap⟩
  · intro h
    obtain ⟨rfl | hx, hmap⟩ := h
    · exact .inl rfl
    · exact .inr ⟨hx, hmap⟩

theorem Holds.not_stored (h : w.Holds boundary s) (he : entity ∉ s) :
    entity ∉ (w.quad (mapOf (w.map entity))).entities :=
  fun hmem => he ((h.stored _ entity).1 hmem).1

theorem Holds.setMap_insert (h : w.Holds boundary s) (entity : Character) (q : Tree)
    (hdone : Quad.Placed.Inserted w.position boundary (w.quad (mapOf (w.map entity))) entity q) :
    (w.setMap entity ⟨q, insert entity (w.entities (mapOf (w.map entity))), w.position⟩).Holds
      boundary (insert entity s) := by
  refine h.setMap hdone.placed (fun x => ?_) (fun x => ?_) fun x hx => ?_
  · rw [hdone.entities_perm.mem_iff, List.mem_cons, h.stored]
    exact mem_insert_here
  · rw [Finset.mem_insert, h.entities]
    exact mem_insert_here
  · rw [Finset.mem_insert]
    exact or_iff_right fun heq => hx (heq ▸ rfl)

theorem Holds.setMap_erase {q : Tree} (h : w.Holds boundary s)
    (hplaced : Quad.Placed w.position boundary q)
    (hperm : q.entities.Perm ((w.quad (mapOf (w.map entity))).entities.erase entity)) :
    (w.setMap entity ⟨q, (w.entities (mapOf (w.map entity))).erase entity, w.position⟩).Holds
      boundary (s.erase entity) := by
  refine h.setMap hplaced (fun x => ?_) (fun x => ?_) fun x hx => ?_
  · rw [hperm.mem_iff, (h.placed _).nodup.mem_erase_iff, h.stored, Finset.mem_erase, and_assoc]
  · rw [Finset.mem_erase, h.entities, Finset.mem_erase, and_assoc]
  · rw [Finset.mem_erase]
    exact and_iff_right fun heq => hx (heq ▸ rfl)

/-- Nothing has happened to the map. -/
theorem setMap_mapWith (w : Registry) (entity : Character) :
    w.setMap entity (w.mapWith entity) = w := by
  simp [setMap, mapWith]

/-- A character that is not held may have its map and position changed. -/
theorem Holds.relocate (h : w.Holds boundary s) (he : entity ∉ s) (map : UInt8) (p : Point) :
    Holds boundary { w with
      map := Function.update w.map entity map
      position := Function.update w.position entity p } s := by
  have hne : ∀ x ∈ s, x ≠ entity := fun x hx heq => he (heq ▸ hx)
  constructor
  · intro i
    refine (h.placed i).congr fun x hx => ?_
    exact Function.update_of_ne (hne x ((h.stored i x).1 hx).1) p w.position
  · intro i x
    rw [h.stored]
    refine and_congr_right fun hx => ?_
    simp only [Function.update_of_ne (hne x hx)]
  · intro i x
    rw [h.entities]
    refine and_congr_right fun hx => ?_
    simp only [Function.update_of_ne (hne x hx)]

/-- The registered characters are of no concern to the maps. -/
theorem Holds.register (h : w.Holds boundary s) (registered : Finset Character) :
    Holds boundary { w with registered := registered } s := ⟨h.placed, h.stored, h.entities⟩

/-! ## The map operations -/

theorem mapAdd_stored {q : Tree}
    (h : (w.mapWith entity).quad.insert w.position maxContainerEntities entity = .ok q) :
    w.mapAdd maxContainerEntities sight entity = .ok (w.setMap entity
      ⟨q, insert entity (w.entities (mapOf (w.map entity))), w.position⟩) := by
  have hpos : (w.mapWith entity).position = w.position := rfl
  simp only [mapAdd, hpos, h, caught, WorldMap.add, quadtree, Except.toOption]
  rfl

theorem mapAdd_error {f : Fault}
    (h : (w.mapWith entity).quad.insert w.position maxContainerEntities entity = .error f) :
    w.mapAdd maxContainerEntities sight entity = if thrown f then .ok w else .error f := by
  have hpos : (w.mapWith entity).position = w.position := rfl
  simp only [mapAdd, hpos, h, caught, WorldMap.add, quadtree, Except.toOption]
  cases thrown f
  · rfl
  · exact congrArg Except.ok (w.setMap_mapWith entity)

theorem mapRemove_erased {q : Tree}
    (h : (w.mapWith entity).quad.remove w.position maxContainerEntities entity = .ok q) :
    w.mapRemove maxContainerEntities sight entity = .ok (w.setMap entity
      ⟨q, (w.entities (mapOf (w.map entity))).erase entity, w.position⟩) := by
  have hpos : (w.mapWith entity).position = w.position := rfl
  simp only [mapRemove, hpos, h, caught, WorldMap.remove, quadtree, Except.toOption]
  rfl

theorem mapRemove_error {f : Fault}
    (h : (w.mapWith entity).quad.remove w.position maxContainerEntities entity = .error f) :
    w.mapRemove maxContainerEntities sight entity = if thrown f then .ok w else .error f := by
  have hpos : (w.mapWith entity).position = w.position := rfl
  simp only [mapRemove, hpos, h, caught, WorldMap.remove, quadtree, Except.toOption]
  cases thrown f
  · rfl
  · exact congrArg Except.ok (w.setMap_mapWith entity)

/-- `WorldMap::Add` of a character that is not held. -/
theorem Holds.mapAdd (h : w.Holds boundary s) (he : entity ∉ s)
    (hok : w.mapAdd maxContainerEntities sight entity = .ok w') :
    (boundary.InBoundary (w.position entity) → w'.Holds boundary (insert entity s)) ∧
      (¬ boundary.InBoundary (w.position entity) → w' = w) ∧
      w'.registered = w.registered := by
  have hq := h.placed (mapOf (w.map entity))
  rcases hq.insert_spec maxContainerEntities (h.not_stored he) with
    ⟨hout, herr⟩ | ⟨hin, herr | ⟨q, hins, hdone⟩⟩
  · rw [mapAdd_error herr] at hok
    obtain rfl := Except.ok.inj hok
    exact ⟨fun hin => absurd hin hout, fun _ => rfl, rfl⟩
  · rw [mapAdd_error herr] at hok
    cases hok
  · rw [mapAdd_stored hins] at hok
    obtain rfl := Except.ok.inj hok
    exact ⟨fun _ => h.setMap_insert entity q hdone, fun hout => absurd hin hout, rfl⟩

/-- `WorldMap::Remove` of a character that is held. -/
theorem Holds.mapRemove (h : w.Holds boundary s) (he : entity ∈ s)
    (hok : w.mapRemove maxContainerEntities sight entity = .ok w') :
    w'.Holds boundary (s.erase entity) ∧ w'.registered = w.registered ∧ w'.map = w.map ∧
      w'.position = w.position := by
  have hq := h.placed (mapOf (w.map entity))
  have hstored := (h.stored _ entity).2 ⟨he, rfl⟩
  rcases hq.remove_spec maxContainerEntities hstored with herr | ⟨q, hrem, hplaced, hperm⟩
  · rw [mapRemove_error herr] at hok
    cases hok
  · rw [mapRemove_erased hrem] at hok
    obtain rfl := Except.ok.inj hok
    exact ⟨h.setMap_erase hplaced hperm, rfl, rfl, rfl⟩

/-- `WorldMap::Remove` of a character that is not held, where no other stands either. -/
theorem Holds.mapRemove_vacant (h : w.Holds boundary s) (he : entity ∉ s) (hvacant : w.Vacant entity)
    (hok : w.mapRemove maxContainerEntities sight entity = .ok w') : w' = w := by
  have hq := h.placed (mapOf (w.map entity))
  by_cases hin : boundary.InBoundary (w.position entity)
  · rcases hq.remove_vacant maxContainerEntities hin hvacant with herr | herr <;>
      rw [mapRemove_error herr] at hok <;> cases hok
    rfl
  · rw [mapRemove_erased (hq.remove_outside maxContainerEntities hin)] at hok
    obtain rfl := Except.ok.inj hok
    have hes : (w.entities (mapOf (w.map entity))).erase entity =
        w.entities (mapOf (w.map entity)) :=
      Finset.erase_eq_of_notMem fun hmem => he ((h.entities _ entity).1 hmem).1
    rw [hes]
    exact w.setMap_mapWith entity

/-! ## The operations of `World` -/

/-- A map of the world after a move, as far as the registries go: what `Remove` and `Add` would leave,
    except that the entities of the map stay as they are. -/
theorem move_stored {dx dy dz : Int8} {stop : Bool} {q q' : Tree}
    (hrem : (w.mapWith entity).quad.remove w.position maxContainerEntities entity = .ok q)
    (hins : q.insert (Function.update w.position entity (w.target entity dx dy))
      maxContainerEntities entity = .ok q') :
    w.move maxContainerEntities sight entity dx dy dz stop = .ok (w.setMap entity
      ⟨q', w.entities (mapOf (w.map entity)),
        Function.update w.position entity (w.target entity dx dy)⟩) := by
  have hpos : (w.mapWith entity).position = w.position := rfl
  have hins' : q.insert (Function.update w.position entity
      ⟨(w.position entity).x + dx.toInt, (w.position entity).y + dy.toInt⟩)
      maxContainerEntities entity = .ok q' := hins
  simp only [move, hpos, hrem, hins', caught, WorldMap.move, quadtree, Except.toOption, bind,
    Except.bind, hins]
  rfl

theorem move_error {dx dy dz : Int8} {stop : Bool} {f : Fault}
    (hrem : (w.mapWith entity).quad.remove w.position maxContainerEntities entity = .error f) :
    w.move maxContainerEntities sight entity dx dy dz stop = if thrown f then .ok w else .error f := by
  have hpos : (w.mapWith entity).position = w.position := rfl
  simp only [move, hpos, hrem, caught, WorldMap.move, quadtree, Except.toOption]
  cases thrown f
  · rfl
  · exact congrArg Except.ok (w.setMap_mapWith entity)

theorem move_refused {dx dy dz : Int8} {stop : Bool} {q : Tree} {f : Fault}
    (hrem : (w.mapWith entity).quad.remove w.position maxContainerEntities entity = .ok q)
    (hins : q.insert (Function.update w.position entity (w.target entity dx dy))
      maxContainerEntities entity = .error f) :
    w.move maxContainerEntities sight entity dx dy dz stop =
      if thrown f then .ok (w.setMap entity ⟨q, w.entities (mapOf (w.map entity)),
        Function.update w.position entity (w.target entity dx dy)⟩) else .error f := by
  have hpos : (w.mapWith entity).position = w.position := rfl
  have hins' : q.insert (Function.update w.position entity
      ⟨(w.position entity).x + dx.toInt, (w.position entity).y + dy.toInt⟩)
      maxContainerEntities entity = .error f := hins
  simp only [move, hpos, hrem, hins', caught, WorldMap.move, quadtree, Except.toOption, bind,
    Except.bind, hins]
  cases thrown f <;> rfl

/-- `World::Move` of a character that is held. -/
theorem Holds.move (h : w.Holds boundary s) (he : entity ∈ s) {dx dy dz : Int8} {stop : Bool}
    (hin : boundary.InBoundary (w.target entity dx dy))
    (hok : w.move maxContainerEntities sight entity dx dy dz stop = .ok w') :
    w'.Holds boundary s ∧ w'.registered = w.registered := by
  have hq := h.placed (mapOf (w.map entity))
  have hstored := (h.stored _ entity).2 ⟨he, rfl⟩
  rcases hq.remove_spec maxContainerEntities hstored with herr | ⟨q, hrem, hplaced, hperm⟩
  · rw [move_error herr] at hok
    cases hok
  -- as if it were removed, given its new position, and added again
  have herased := (h.setMap_erase hplaced hperm).relocate (Finset.notMem_erase entity s)
    (w.map entity) (w.target entity dx dy)
  have hes : insert entity ((w.entities (mapOf (w.map entity))).erase entity) =
      w.entities (mapOf (w.map entity)) := Finset.insert_erase ((h.entities _ entity).2 ⟨he, rfl⟩)
  have hq' : Quad.Placed (Function.update w.position entity (w.target entity dx dy)) boundary q := by
    simpa [Registry.setMap] using herased.placed (mapOf (w.map entity))
  have hgone : entity ∉ q.entities := by
    rw [hperm.mem_iff]
    exact hq.nodup.not_mem_erase
  rcases hq'.insert_spec maxContainerEntities hgone with ⟨hout, -⟩ | ⟨-, herr | ⟨q', hins, hdone⟩⟩
  · rw [Function.update_self] at hout
    exact absurd hin hout
  · rw [move_refused hrem herr] at hok
    cases hok
  · rw [move_stored hrem hins] at hok
    obtain rfl := Except.ok.inj hok
    refine ⟨?_, rfl⟩
    have hadded := herased.setMap_insert entity q' (by simpa [Registry.setMap] using hdone)
    simpa [Registry.setMap, hes, Finset.insert_erase he] using hadded

/-- `World::Move` of a character that is not held, where no other stands either, and that does not
    step into the map. -/
theorem Holds.move_vacant (h : w.Holds boundary s) (he : entity ∉ s) (hvacant : w.Vacant entity)
    {dx dy dz : Int8} {stop : Bool}
    (hin : boundary.InBoundary (w.position entity) ∨
      ¬ boundary.InBoundary (w.target entity dx dy))
    (hok : w.move maxContainerEntities sight entity dx dy dz stop = .ok w') :
    w'.Holds boundary s ∧ w'.registered = w.registered := by
  have hq := h.placed (mapOf (w.map entity))
  by_cases hold : boundary.InBoundary (w.position entity)
  · rcases hq.remove_vacant maxContainerEntities hold hvacant with herr | herr <;>
      rw [move_error herr] at hok <;> cases hok
    exact ⟨h, rfl⟩
  · have hrem := hq.remove_outside maxContainerEntities hold
    have hmoved := h.relocate he (w.map entity) (w.target entity dx dy)
    have hnew := hin.resolve_left hold
    have hq' : Quad.Placed (Function.update w.position entity (w.target entity dx dy)) boundary
        (w.quad (mapOf (w.map entity))) := by
      simpa using hmoved.placed (mapOf (w.map entity))
    rcases hq'.insert_spec maxContainerEntities (h.not_stored he) with ⟨-, herr⟩ | ⟨hin', -⟩
    · rw [move_refused hrem herr] at hok
      obtain rfl := Except.ok.inj hok
      refine ⟨?_, rfl⟩
      simpa [Registry.setMap] using hmoved
    · rw [Function.update_self] at hin'
      exact absurd hin' hnew

/-- The invariant: the maps hold what is registered. -/
def Tracked (boundary : Square) (w : Registry) : Prop := w.Holds boundary w.registered

theorem Tracked.next {o : Op} (h : w.Tracked boundary) (hguard : Guard boundary w o)
    (hok : step maxContainerEntities sight w o = .ok w') : w'.Tracked boundary := by
  unfold Tracked at h ⊢
  cases o with
  | add entity map p =>
      by_cases he : entity ∈ w.registered
      · simp only [step, if_pos he, Except.ok.injEq] at hok
        rwa [← hok]
      · simp only [step, add, if_neg he, bind_eq_ok] at hok
        obtain ⟨⟨v, e⟩, ⟨u, hadd, hu⟩, hv⟩ := hok
        obtain ⟨rfl, -⟩ := Prod.mk.inj (Except.ok.inj hu)
        obtain rfl := Except.ok.inj hv
        have hplaced := (h.relocate he map p).register (insert entity w.registered)
        obtain ⟨hin, -, hreg⟩ := hplaced.mapAdd he hadd
        rw [hreg]
        refine hin ?_
        simpa using hguard.resolve_left he
  | remove entity =>
      simp only [step, remove, bind_eq_ok] at hok
      obtain ⟨⟨v, e⟩, ⟨u, hrem, hu⟩, hv⟩ := hok
      obtain rfl := Except.ok.inj hv
      by_cases he : entity ∈ w.registered
      · obtain ⟨herased, hreg, -⟩ := h.mapRemove he hrem
        rw [hreg, if_pos he] at hu
        obtain ⟨rfl, -⟩ := Prod.mk.inj (Except.ok.inj hu)
        exact herased.register _
      · -- The map is told to remove what it does not have, and then `World` finds no player.
        have huw := h.mapRemove_vacant he (hguard.resolve_left he) hrem
        rw [huw, if_neg he] at hu
        obtain ⟨rfl, -⟩ := Prod.mk.inj (Except.ok.inj hu)
        exact h
  | move entity dx dy dz stop =>
      rcases hguard with ⟨he, hin⟩ | ⟨he, hvacant, hin⟩
      · obtain ⟨hholds, hreg⟩ := h.move he hin hok
        rwa [hreg]
      · obtain ⟨hholds, hreg⟩ := h.move_vacant he hvacant hin hok
        rwa [hreg]
  | teleport entity x y map =>
      simp only [step, teleport, bind_eq_ok] at hok
      obtain ⟨v, hrem, hadd⟩ := hok
      rcases hguard with ⟨he, hin⟩ | ⟨he, hvacant, hout⟩
      · obtain ⟨herased, hreg, hmap, hposition⟩ := h.mapRemove he hrem
        have hnot := Finset.notMem_erase entity w.registered
        have hmoved := herased.relocate hnot (teleportMap (v.map entity) map) ⟨x, y⟩
        obtain ⟨hadded, -, hreg'⟩ := hmoved.mapAdd hnot hadd
        rw [hreg', hreg]
        have hholds := hadded (by simpa using hin)
        rwa [Finset.insert_erase he] at hholds
      · -- Out of the boundary the quadtree refuses the entity, which so stays unregistered.
        have hvw := h.mapRemove_vacant he hvacant hrem
        rw [hvw] at hadd
        have hmoved := h.relocate he (teleportMap (w.map entity) map) ⟨x, y⟩
        obtain ⟨-, hrefused, hreg'⟩ := hmoved.mapAdd he hadd
        have hw' := hrefused (by simpa using hout)
        rw [hw']
        exact hmoved

/-! ## Along every run -/

theorem Tracked.agrees (h : w.Tracked boundary) (entity : Character) : w.Agrees entity where
  entities := by rw [h.entities, and_iff_left rfl]
  stored := by rw [StoredAt, (h.placed _).leafAt_iff, h.stored, and_iff_left rfl]
  elsewhere i hi :=
    ⟨fun hmem => hi ((h.entities i entity).1 hmem).2, fun hmem => hi ((h.stored i entity).1 hmem).2⟩

theorem tracked_of_run {map : Character → UInt8} {position : Character → Point}
    {before after : List Op}
    (hadm : Admissible (step maxContainerEntities sight) (Guard boundary)
      (new boundary map position) (before ++ after))
    (hrun : run (step maxContainerEntities sight) (new boundary map position) before = .ok w) :
    w.Tracked boundary := by
  have h0 : (new boundary map position).Tracked boundary := holds_new map position
  exact run_invariant (fun _ _ _ hw hguard => hw.next hguard) h0 hadm.of_append hrun

/-- In every run whose operations keep the characters of the world inside their maps, the registries
    agree on every character after every operation. -/
theorem registries_agree {map : Character → UInt8} {position : Character → Point} {ops : List Op}
    (hadm : Admissible (step maxContainerEntities sight) (Guard boundary)
      (new boundary map position) ops) :
    ∀ before after w, ops = before ++ after →
      run (step maxContainerEntities sight) (new boundary map position) before = .ok w →
      ∀ entity, w.Agrees entity := by
  intro before after w hops hrun entity
  subst hops
  exact (tracked_of_run hadm hrun).agrees entity

/-- A player and a monster at one place, another map, and a player that is no longer in the world. -/
def journey : List Op :=
  [.add ⟨.player, 1⟩ 0 ⟨600, 600⟩, .add ⟨.monster, 1⟩ 0 ⟨600, 600⟩, .add ⟨.player, 1⟩ 1 ⟨0, 0⟩,
    .move ⟨.player, 1⟩ 100 0 0 false, .teleport ⟨.player, 1⟩ 259336 258039 5,
    .move ⟨.player, 1⟩ (-1) 1 0 true, .remove ⟨.player, 1⟩, .remove ⟨.player, 1⟩]

theorem registries_agree_journey :
    Admissible (step 32 920) (Guard ⟨⟨0, 0⟩, mapWidth⟩)
        (new ⟨⟨0, 0⟩, mapWidth⟩ (fun _ => 0) fun _ => ⟨0, 0⟩) journey ∧
      ∀ before after w, journey = before ++ after →
        run (step 32 920) (new ⟨⟨0, 0⟩, mapWidth⟩ (fun _ => 0) fun _ => ⟨0, 0⟩) before = .ok w →
        ∀ entity, w.Agrees entity := by
  have hadm : Admissible (step 32 920) (Guard ⟨⟨0, 0⟩, mapWidth⟩)
      (new ⟨⟨0, 0⟩, mapWidth⟩ (fun _ => 0) fun _ => ⟨0, 0⟩) journey := by decide +kernel
  exact ⟨hadm, registries_agree hadm⟩

/-- A player that teleports out of the map is registered and nowhere else. -/
theorem not_agrees_teleport :
    ∃ w, run (step 32 920) (new ⟨⟨0, 0⟩, mapWidth⟩ (fun _ => 0) fun _ => ⟨0, 0⟩)
        [.add ⟨.player, 1⟩ 0 ⟨600, 600⟩, .teleport ⟨.player, 1⟩ (-1) 0 (-1)] = .ok w ∧
      ¬ w.Agrees ⟨.player, 1⟩ := by
  refine ⟨_, rfl, fun h => ?_⟩
  have hlisted := h.entities.1 (by decide)
  exact absurd hlisted (by decide)

end Registry

end Bango.World
