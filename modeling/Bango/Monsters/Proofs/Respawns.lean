import Bango.Monsters.Proofs.Cycle
import Bango.Monsters.Proofs.InPlace
import Bango.Monsters.Proofs.Population

set_option autoImplicit false

/-! # Monsters that are put back

`RemoveDeadMonsters` takes each dead monster off the world. What is removed stays so until its spawn
ticks and does not wait, and then all its monsters are put back with the HP they start with. -/

namespace Bango.Monsters

open Bango.Lib Bango.World

namespace System

variable {db : MonsterDb} {s s' t : System} {init : GenMonster} {place : Nat}

/-! ## What is dead is removed -/

theorem removeIfDead_removed (hremoved : (s.monsters place).isRemoved = true) (other : Nat) :
    ((s.removeIfDead other).monsters place).isRemoved = true := by
  by_cases hdead : s.IsDead other
  · obtain ⟨maps, hremove, -⟩ := removeIfDead_spec hdead
    rw [hremove]
    dsimp only
    by_cases hother : place = other
    · rw [hother, Function.update_self]
      rfl
    · rwa [Function.update_of_ne hother]
  · rwa [removeIfDead_of_not hdead]

theorem IsDead.removed (h : s.IsDead place) :
    ((s.removeIfDead place).monsters place).isRemoved = true := by
  obtain ⟨maps, hremove, -⟩ := removeIfDead_spec h
  rw [hremove]
  dsimp only
  rw [Function.update_self]
  rfl

/-- The other dead monsters are found as before. -/
theorem IsDead.removeIfDead (h : s.IsDead place) {other : Nat} (hne : place ≠ other) :
    (s.removeIfDead other).IsDead place := by
  by_cases hdead : s.IsDead other
  · obtain ⟨maps, hremove, -⟩ := removeIfDead_spec hdead
    have hid : (s.monsters place).id ≠ (s.monsters other).id := by
      intro heq
      have hplace := h.1
      rw [heq, hdead.1] at hplace
      exact hne (Option.some.inj hplace).symm
    rw [hremove]
    unfold IsDead
    dsimp only
    rw [Function.update_of_ne hne, Function.update_of_ne hid]
    exact h
  · rwa [removeIfDead_of_not hdead]

theorem foldl_removeIfDead {places : List Nat} (hmem : place ∈ places)
    (h : s.IsDead place ∨ (s.monsters place).isRemoved = true) :
    ((places.foldl removeIfDead s).monsters place).isRemoved = true := by
  have hstays : ∀ (places : List Nat) {t : System}, (t.monsters place).isRemoved = true →
      ((places.foldl System.removeIfDead t).monsters place).isRemoved = true := by
    intro places
    induction places with
    | nil => exact fun h => h
    | cons other places ih => exact fun h => ih (removeIfDead_removed h other)
  induction places generalizing s with
  | nil => cases hmem
  | cons other places ih =>
      rcases h with hdead | hremoved
      · by_cases hother : place = other
        · subst hother
          exact hstays places hdead.removed
        · have hrest := (List.mem_cons.1 hmem).resolve_left hother
          exact ih hrest (.inl (hdead.removeIfDead hother))
      · exact hstays (other :: places) hremoved

/-- A monster with the bit `CGS_KO` is removed once the dead ones are. -/
theorem removeDeadMonsters_removed (h : s.Sound) (hplace : place < s.made)
    (hko : (s.monsters place).IsGState cgsKo) :
    (s.removeDeadMonsters.monsters place).isRemoved = true := by
  refine foldl_removeIfDead (List.mem_range.2 hplace) ?_
  cases hremoved : (s.monsters place).isRemoved with
  | true => exact .inr rfl
  | false => exact .inl ⟨h.complete place hplace hremoved, hko⟩

/-! ## What is removed stays removed -/

/-- Nothing but a tick of its own spawn that does not wait puts a removed monster back. -/
theorem perform_removed (hplace : place < s.made) (hremoved : (s.monsters place).isRemoved = true)
    {event : Event}
    (hother : ∀ index draws now setAt, event = .tickSpawn index draws now setAt →
      ∀ spawn ∈ s.spawns[index]?, ¬ spawn.Waits now → place ∉ spawn.areaMonsters) :
    ((s.perform db event).monsters place).isRemoved = true := by
  rcases s.perform_cases db event with
    ⟨init, draws, now, rfl⟩ | rfl | ⟨index, draws, now, setAt, rfl⟩ | hkeeps
  · show ((s.addSpawn db init draws now).monsters place).isRemoved = true
    unfold addSpawn
    split
    next => exact hremoved
    next =>
      have hround : ∀ (t : System) (draw : Draw),
          (s.made ≤ t.made ∧ (t.monsters place).isRemoved = true) →
            s.made ≤ (t.createMonster db init draw).1.made ∧
              ((t.createMonster db init draw).1.monsters place).isRemoved = true := by
        intro t draw ⟨hmade, ht⟩
        have hold := (t.createMonster_old db init draw (Nat.lt_of_lt_of_le hplace hmade)).1
        exact ⟨Nat.le_trans hmade (t.createMonster_places db init draw).1, by rw [hold]; exact ht⟩
      exact (createSpawn_induct hround ⟨Nat.le_refl _, hremoved⟩ _ draws).2
  · exact removeDeadMonsters_inv (P := fun t => (t.monsters place).isRemoved = true) hremoved
      fun t other ht => removeIfDead_removed ht other
  · show ((s.tickSpawn index draws now setAt).monsters place).isRemoved = true
    rcases s.tickSpawn_cases index draws now setAt with
      ⟨hsame, -⟩ | ⟨spawn, spawn', hspawn, hdue, -, htick⟩
    · rwa [hsame]
    · have hnot := hother index draws now setAt rfl spawn hspawn hdue
      rw [htick]
      have hstart : ((s.setSpawn index (s.noted spawn now)).monsters place).isRemoved = true := hremoved
      refine respawnAll_induct (P := fun t => (t.monsters place).isRemoved = true)
        (fun t other hmem draw ht _ => ?_) hstart draws
      rw [(t.respawnOnWorld_other spawn.init draw (ne_of_mem_of_not_mem hmem hnot).symm).1]
      exact ht
  · rw [hkeeps.isRemoved]
    exact hremoved

/-- The spawns are ticked one at a time, and one that waits is left as it is. -/
theorem perform_spawns_of_waits {index : Nat} {spawn : Spawn}
    (hspawn : s.spawns[index]? = some spawn) {event : Event}
    (hwaits : ∀ draws now setAt, event = .tickSpawn index draws now setAt → spawn.Waits now) :
    (s.perform db event).spawns[index]? = some spawn := by
  have hlt := (List.getElem?_eq_some_iff.1 hspawn).1
  rcases s.perform_spawns event with ⟨hsame, -⟩ | ⟨init, places, now, -, -, hadded⟩ |
    ⟨other, draws, now, setAt, before, after, rfl, hbefore, hdue, hset, -⟩
  · rw [hsame, hspawn]
  · rw [hadded, List.getElem?_append_left hlt, hspawn]
  · have hne : other ≠ index := by
      rintro rfl
      rw [hspawn, Option.some.injEq] at hbefore
      exact hdue (hbefore ▸ hwaits draws now setAt rfl)
    rw [hset, List.getElem?_set_ne hne, hspawn]

/-! ## What is removed is put back -/

theorem respawnAll_same (hin : (s.monsters place).isRemoved = false) (places : List Nat)
    (draws : List Draw) : (s.respawnAll init places draws).1.monsters place = s.monsters place := by
  refine respawnAll_induct (P := fun t => t.monsters place = s.monsters place)
    (fun t other _ draw ht hremoved => ?_) rfl draws
  have hne : place ≠ other := by
    rintro rfl
    rw [ht, hin] at hremoved
    cases hremoved
  rw [(t.respawnOnWorld_other init draw hne).1, ht]

theorem respawnAll_restored {places : List Nat} (hmem : place ∈ places)
    (hremoved : (s.monsters place).isRemoved = true) {draws : List Draw}
    (hok : (s.respawnAll init places draws).2 = true) :
    ∃ id x y, (s.respawnAll init places draws).1.monsters place =
      (s.monsters place).restoreInitialState id x y := by
  induction places generalizing s draws with
  | nil => cases hmem
  | cons other places ih =>
      unfold respawnAll at hok ⊢
      by_cases hother : (s.monsters other).isRemoved = true
      · rw [if_pos hother] at hok ⊢
        obtain ⟨registered, maps, hrespawn⟩ :=
          s.respawnOnWorld_eq init other (draws.headD ⟨0, 0⟩)
        have hothers : place ≠ other →
            (s.respawnOnWorld init other (draws.headD ⟨0, 0⟩)).1.monsters place = s.monsters place :=
          fun hne => (s.respawnOnWorld_other init _ hne).1
        generalize s.respawnOnWorld init other (draws.headD ⟨0, 0⟩) = respawned at *
        obtain ⟨t, ok⟩ := respawned
        cases ok with
        | false => cases hok
        | true =>
            dsimp only at hok hrespawn hothers ⊢
            by_cases hplace : place = other
            · have hself : t.monsters place = (s.monsters place).restoreInitialState s.nextId
                  (init.rect.getRandomX (draws.headD ⟨0, 0⟩))
                  (init.rect.getRandomY (draws.headD ⟨0, 0⟩)) := by
                rw [hrespawn, hplace]
                exact Function.update_self _ _ _
              rw [respawnAll_same (by rw [hself]; rfl), hself]
              exact ⟨_, _, _, rfl⟩
            · have hsame := hothers hplace
              rw [← hsame] at hremoved ⊢
              exact ih ((List.mem_cons.1 hmem).resolve_left hplace) hremoved hok
      · rw [if_neg hother] at hok ⊢
        have hplace : place ≠ other := fun heq => hother (heq ▸ hremoved)
        exact ih ((List.mem_cons.1 hmem).resolve_left hplace) hremoved hok

/-- A monster with all its HP, neither kneeling nor fallen, that the world finds by its id. -/
structure Restored (s : System) (place : Nat) : Prop where
  curhp : (s.monsters place).curhp = (s.monsters place).init.getMaxHp
  gstate : (s.monsters place).gstate = 0
  registered : s.registered (s.monsters place).id = some place

/-- A tick of a spawn that does not wait puts back what is removed. -/
theorem tickSpawn_restored (h : s.Sound) {index : Nat} {spawn : Spawn} {draws : List Draw}
    {now setAt : UInt64} (hspawn : s.spawns[index]? = some spawn) (hdue : ¬ spawn.Waits now)
    (hfresh : Fresh db s (.tickSpawn index draws now setAt)) (hplace : place ∈ spawn.areaMonsters)
    (hremoved : (s.monsters place).isRemoved = true) :
    (s.tickSpawn index draws now setAt).Restored place := by
  have hsound := tickSpawn_sound h hfresh
  have hmade := (s.tickSpawn_crews index draws now setAt).2
  have hlt := h.listed.spawns spawn (List.mem_of_getElem? hspawn) place hplace
  have hmonster : ∃ id x y, (s.tickSpawn index draws now setAt).monsters place =
      (s.monsters place).restoreInitialState id x y := by
    rcases s.tickSpawn_cases index draws now setAt with
      ⟨-, hwaits⟩ | ⟨spawn', after, hspawn', -, -, htick⟩
    · exact absurd (hwaits spawn hspawn) hdue
    · rw [hspawn, Option.some.injEq] at hspawn'
      subst hspawn'
      rw [htick]
      have hok : ((s.setSpawn index (s.noted spawn now)).respawnAll spawn.init spawn.areaMonsters
          draws).2 = true :=
        (respawnAll_inv (s := s.setSpawn index (s.noted spawn now)) (P := fun _ => True)
          (D := fun _ => True) (fun _ _ _ _ _ _ _ _ => trivial) draws trivial (fun _ _ => trivial)
          (hfresh spawn hspawn hdue)).1
      have hstart : ((s.setSpawn index (s.noted spawn now)).monsters place).isRemoved = true := hremoved
      exact respawnAll_restored hplace hstart hok
  obtain ⟨id, x, y, hmonster⟩ := hmonster
  have hin : ((s.tickSpawn index draws now setAt).monsters place).isRemoved = false := by
    rw [hmonster]
    rfl
  refine ⟨by rw [hmonster]; rfl, by rw [hmonster]; rfl, ?_⟩
  exact hsound.complete place (hmade ▸ hlt) hin

end System

namespace Summoning

open Bango.Monsters.System

variable {db : MonsterDb} {s s' : Summoning} {index : Nat} {spawn : Spawn} {place : Nat}

/-- Two spawns have no monster in common. -/
theorem Populated.not_mem (h : s.Populated) {other : Nat} {spawn' : Spawn}
    (hspawn : s.system.spawns[index]? = some spawn) (hplace : place ∈ spawn.areaMonsters)
    (hspawn' : s.system.spawns[other]? = some spawn') (hne : other ≠ index) :
    place ∉ spawn'.areaMonsters := by
  have hnodup := (List.nodup_append.1 (h.places.nodup_iff.2 List.nodup_range)).1
  rw [crews, List.flatMap_map] at hnodup
  have hpairwise := List.pairwise_iff_getElem.1 (List.nodup_flatMap.1 hnodup).2
  obtain ⟨hlt, hget⟩ := List.getElem?_eq_some_iff.1 hspawn
  obtain ⟨hlt', hget'⟩ := List.getElem?_eq_some_iff.1 hspawn'
  intro hplace'
  rcases Nat.lt_or_gt_of_ne hne with hbefore | hafter
  · have hdisjoint := hpairwise other index hlt' hlt hbefore
    rw [hget, hget'] at hdisjoint
    exact hdisjoint hplace' hplace
  · have hdisjoint := hpairwise index other hlt hlt' hafter
    rw [hget, hget'] at hdisjoint
    exact hdisjoint hplace hplace'

/-- A monster of a spawn is removed. -/
structure Gone (s : Summoning) (index : Nat) (spawn : Spawn) (place : Nat) : Prop where
  sound : s.system.Sound
  populated : s.Populated
  spawn_eq : s.system.spawns[index]? = some spawn
  mem : place ∈ spawn.areaMonsters
  removed : (s.system.monsters place).isRemoved = true

theorem Gone.lt (h : s.Gone index spawn place) : place < s.system.made :=
  h.sound.listed.spawns spawn (List.mem_of_getElem? h.spawn_eq) place h.mem

/-- It stays removed as long as the ticks of its spawn wait. -/
theorem Gone.step {deed : Deed} (h : s.Gone index spawn place) (hfresh : s.Fresh db deed)
    (hwaits : ∀ draws now setAt, deed = .event (.tickSpawn index draws now setAt) → spawn.Waits now)
    (hstep : s.step db deed = .ok s') : s'.Gone index spawn place := by
  suffices hkept : s'.system.spawns[index]? = some spawn ∧
      (s'.system.monsters place).isRemoved = true from
    ⟨sound_step h.sound hfresh hstep, h.populated.step hstep, hkept.1, h.mem, hkept.2⟩
  cases deed with
  | event event =>
      obtain ⟨clock, rfl⟩ := step_event hstep
      have hwaits' : ∀ draws now setAt, event = .tickSpawn index draws now setAt → spawn.Waits now :=
        fun draws now setAt heq => hwaits draws now setAt (by rw [heq])
      refine ⟨perform_spawns_of_waits h.spawn_eq hwaits', perform_removed h.lt h.removed ?_⟩
      rintro other draws now setAt rfl spawn' hspawn' hdue
      have hindex : other ≠ index := by
        rintro rfl
        rw [h.spawn_eq, Option.mem_some_iff] at hspawn'
        exact hdue (hspawn' ▸ hwaits' draws now setAt rfl)
      exact h.populated.not_mem h.spawn_eq h.mem (Option.mem_def.1 hspawn') hindex
  | summon index' x y map =>
      rw [← Except.ok.inj hstep]
      unfold summon
      split
      next => exact ⟨h.spawn_eq, h.removed⟩
      next init _ =>
        obtain ⟨registered, maps, hadd⟩ := (s.system.makeMonster
          (.create init s.system.nextId x y map)).add_eq s.system.made
        dsimp only
        rw [hadd]
        refine ⟨h.spawn_eq, ?_⟩
        show (Function.update s.system.monsters s.system.made _ place).isRemoved = true
        rw [Function.update_of_ne (Nat.ne_of_lt h.lt)]
        exact h.removed

/-- What is dead is removed. -/
theorem gone_of_dead (hsound : s.system.Sound) (hpopulated : s.Populated)
    (hspawn : s.system.spawns[index]? = some spawn) (hplace : place ∈ spawn.areaMonsters)
    (hko : (s.system.monsters place).IsGState cgsKo)
    (hstep : s.step db (.event .removeDeadMonsters) = .ok s') : s'.Gone index spawn place := by
  have hfresh : s.Fresh db (.event .removeDeadMonsters) := by simp only [Fresh, System.Fresh]
  have hsound' := sound_step hsound hfresh hstep
  have hpopulated' := hpopulated.step hstep
  have hlt := hsound.listed.spawns spawn (List.mem_of_getElem? hspawn) place hplace
  obtain ⟨clock, rfl⟩ := step_event hstep
  refine ⟨hsound', hpopulated', ?_, hplace, removeDeadMonsters_removed hsound hlt hko⟩
  exact (congrArg (·[index]?) s.system.removeDeadMonsters_spawns).trans hspawn

/-- It stays removed as long as the ticks of its spawn wait. -/
theorem Gone.later {deeds : List Deed} (h : s.Gone index spawn place)
    (hfresh : Admissible (Summoning.step db) (Fresh db) s deeds)
    (hwaits : ∀ draws now setAt, .event (.tickSpawn index draws now setAt) ∈ deeds →
      spawn.Waits now)
    (hrun : run (Summoning.step db) s deeds = .ok s') : s'.Gone index spawn place := by
  have heach : ∀ deed ∈ deeds, ∀ draws now setAt,
      deed = .event (.tickSpawn index draws now setAt) → spawn.Waits now := by
    rintro deed hdeed draws now setAt rfl
    exact hwaits draws now setAt hdeed
  have hpreserved : ∀ (t : Summoning) deed (t' : Summoning), t.Gone index spawn place →
      (t.Fresh db deed ∧ ∀ draws now setAt,
        deed = .event (.tickSpawn index draws now setAt) → spawn.Waits now) →
      t.step db deed = .ok t' → t'.Gone index spawn place :=
    fun _ _ _ ht hguard hstep => ht.step hguard.1 hguard.2 hstep
  exact run_invariant hpreserved h (hfresh.and_forall heach) hrun

/-- It is put back when its spawn ticks. -/
theorem Gone.restored {draws : List Draw} {now setAt : UInt64} (h : s.Gone index spawn place)
    (hdue : ¬ spawn.Waits now) (hfresh : s.Fresh db (.event (.tickSpawn index draws now setAt)))
    (hstep : s.step db (.event (.tickSpawn index draws now setAt)) = .ok s') :
    s'.system.Restored place := by
  have hfree : System.Fresh db s.system (.tickSpawn index draws now setAt) := hfresh
  obtain ⟨clock, rfl⟩ := step_event hstep
  obtain ⟨hcurhp, hgstate, hregistered⟩ :=
    tickSpawn_restored h.sound h.spawn_eq hdue hfree h.mem h.removed
  exact ⟨hcurhp, hgstate, hregistered⟩

/-- A monster that is dead when `RemoveDeadMonsters` begins is in the world again, with all its HP, after
    the next tick of its spawn that does not wait, whatever happens in between. -/
theorem run_putBack {before between : List Deed} {draws : List Draw} {now setAt : UInt64}
    (hrun : run (step db) empty (before ++ .event .removeDeadMonsters ::
      (between ++ [.event (.tickSpawn index draws now setAt)])) = .ok s')
    (hfresh : Admissible (step db) (Fresh db) empty (before ++ .event .removeDeadMonsters ::
      (between ++ [.event (.tickSpawn index draws now setAt)])))
    (hbefore : run (step db) empty before = .ok s)
    (hspawn : s.system.spawns[index]? = some spawn) (hdue : ¬ spawn.Waits now)
    (hbetween : ∀ draws now setAt, .event (.tickSpawn index draws now setAt) ∈ between →
      spawn.Waits now) :
    ∀ place ∈ spawn.areaMonsters, (s.system.monsters place).IsGState cgsKo →
      s'.system.Restored place := by
  intro place hplace hko
  have hsound : s.system.Sound := run_invariant
    (fun _ _ _ h hfresh hstep => sound_step h hfresh hstep) empty_sound hfresh.of_append hbefore
  have hpopulated : s.Populated :=
    run_preserves (fun _ _ _ h hstep => h.step hstep) empty_populated hbefore
  have hlater := hfresh.append hbefore
  rw [run_append_ok _ hbefore] at hrun
  cases hstep : s.step db (.event .removeDeadMonsters) with
  | error fault =>
      rw [run_cons_error _ hstep] at hrun
      cases hrun
  | ok removed =>
      rw [run_cons_ok _ hstep] at hrun
      have hadm := hlater.2 removed hstep
      have hgone := gone_of_dead hsound hpopulated hspawn hplace hko hstep
      cases hwait : run (step db) removed between with
      | error fault =>
          rw [run_append_error _ hwait] at hrun
          cases hrun
      | ok waited =>
          rw [run_append_ok _ hwait, run_singleton] at hrun
          have hwaited := hgone.later hadm.of_append hbetween hwait
          exact hwaited.restored hdue (hadm.append hwait).1 hrun

/-- A monster is beheaded and removed, another one is summoned, the spawn ticks too early and then
    puts the first one back. -/
theorem run_putBack_beheaded :
    ∃ s', run (step twoMonsters) empty
        ([.event (.addSpawn (oneMonster 1) [] 0), .event (.onAttack 0 0 500 ⟨1, 2⟩),
          .event (.behead 0 0)] ++ .event .removeDeadMonsters ::
            ([.summon 1 5 5 0, .event (.tickSpawn 0 [] 1500 1500)] ++
              [.event (.tickSpawn 0 [] 3000 3000)])) = .ok s' ∧
      s'.system.Restored 0 := by
  refine Exists.imp (fun s' hrun => ⟨hrun, ?_⟩) ⟨_, rfl⟩
  refine run_putBack hrun (by decide +kernel) rfl rfl (by decide +kernel) ?_ 0
    List.mem_cons_self (by decide +kernel)
  rintro draws now setAt hmem
  simp only [List.mem_cons, reduceCtorEq, Deed.event.injEq, Event.tickSpawn.injEq, true_and,
    List.not_mem_nil, or_false, false_or] at hmem
  obtain ⟨-, rfl, -⟩ := hmem
  decide +kernel

end Summoning

end Bango.Monsters
