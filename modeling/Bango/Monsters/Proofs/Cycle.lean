import Bango.Monsters.Proofs.Steps

set_option autoImplicit false

/-! # The cycle of a spawn

`SetNextSpawnCycle` adds the cycle to the time already, and `Spawn::Tick` compares how far the clock
is past that deadline with the cycle again, in unsigned numbers. So a spawn waits in the second cycle
after the last one has been set (`Spawn.waits_iff`), and puts back what is removed in the first. -/

namespace Bango.Monsters

open Bango.Lib

theorem toNat_cycle {cycle : Int32} (h : 0 ≤ cycle) :
    cycle.toInt64.toUInt64.toNat = cycle.toNatClampNeg := by
  have hle : (0 : Int64) ≤ cycle.toInt64 := by
    rw [Int64.le_iff_toInt_le, Int32.toInt_toInt64]
    exact Int32.le_iff_toInt_le.1 h
  rw [Int64.toNat_toUInt64_of_le hle, Int32.toNatClampNeg_toInt64]

/-- A spawn waits in the second cycle after the last one has been set, and at no other time. -/
theorem Spawn.waits_iff {spawn : Spawn} {now : UInt64}
    (hnext : spawn.nextSpawnCycle = spawn.lastSet + spawn.init.spawnCycle.toInt64.toUInt64)
    (hle : spawn.lastSet ≤ now) (hcycle : 0 < spawn.init.spawnCycle) :
    spawn.Waits now ↔ spawn.lastSet.toNat + spawn.init.spawnCycle.toNatClampNeg ≤ now.toNat ∧
      now.toNat < spawn.lastSet.toNat + 2 * spawn.init.spawnCycle.toNatClampNeg := by
  have hpos : 0 ≤ spawn.init.spawnCycle := Int32.le_of_lt hcycle
  have hsmall := spawn.init.spawnCycle.toNatClampNeg_lt
  have hle' := UInt64.le_iff_toNat_le.1 hle
  have hnow := now.toNat_lt
  have hlast := spawn.lastSet.toNat_lt
  unfold Waits CmpLess
  rw [hnext, UInt64.lt_iff_toNat_lt, UInt64.toNat_sub, UInt64.toNat_add, toNat_cycle hpos]
  rw [and_iff_right hpos]
  omega

namespace System

variable {db : MonsterDb} {s s' : System}

/-- Each tick that has put monsters back has come at least one cycle after the previous
    `SetNextSpawnCycle`. -/
def OnCycle (s : System) : Prop :=
  ∀ spawn ∈ s.spawns, 0 < spawn.init.spawnCycle → ∀ respawn ∈ spawn.respawns,
    respawn.previous.toNat + spawn.init.spawnCycle.toNatClampNeg ≤ respawn.time.toNat

/-- No tick finds a removed monster before a cycle has passed. -/
def Due (s : System) (event : Event) : Prop :=
  match event with
  | .tickSpawn index _ now _ => s.OnTime event → ∀ spawn ∈ s.spawns[index]?,
    0 < spawn.init.spawnCycle → s.AnyRemoved spawn →
      spawn.lastSet.toNat + spawn.init.spawnCycle.toNatClampNeg ≤ now.toNat
  | _ => True

instance (s : System) (event : Event) : Decidable (s.Due event) :=
  match event with
  | .tickSpawn index draws now setAt =>
    inferInstanceAs (Decidable (s.OnTime (.tickSpawn index draws now setAt) →
      ∀ spawn ∈ s.spawns[index]?, _ → _ → _))
  | .addSpawn .. | .onAttack .. | .physicalSkill .. | .behead .. | .tickMonster ..
  | .removeDeadMonsters | .assignNewIds _ | .removeLoot _ => isTrue trivial

/-! ## What a step does to the spawns -/

theorem addSpawn_spawns (s : System) (init : GenMonster) (draws : List Draw) (now : UInt64) :
    (s.addSpawn db init draws now).spawns = s.spawns ∨
      ∃ places, (s.addSpawn db init draws now).spawns =
        s.spawns ++ [(Spawn.mk init places 0 0 []).setNextSpawnCycle now] := by
  unfold addSpawn
  split
  · exact .inl rfl
  · refine .inr ⟨(s.createSpawn db init init.amount.toInt.toNat draws).2, ?_⟩
    dsimp only
    rw [createSpawn_spawns]

/-- A step leaves the spawns alone, adds one, or ticks one that does not wait. -/
theorem perform_spawns (s : System) (event : Event) :
    ((s.perform db event).spawns = s.spawns ∧ ∀ index draws now setAt,
        event = .tickSpawn index draws now setAt → ∀ spawn ∈ s.spawns[index]?, spawn.Waits now) ∨
      (∃ init places now, event.readings = [now] ∧ s.Due event ∧ (s.perform db event).spawns =
        s.spawns ++ [(Spawn.mk init places 0 0 []).setNextSpawnCycle now]) ∨
      ∃ index draws now setAt spawn spawn', event = .tickSpawn index draws now setAt ∧
        s.spawns[index]? = some spawn ∧ ¬ spawn.Waits now ∧
        (s.perform db event).spawns = s.spawns.set index spawn' ∧
        (spawn' = s.noted spawn now ∨ spawn' = (s.noted spawn now).setNextSpawnCycle setAt) := by
  cases event with
  | addSpawn init draws now =>
      rcases addSpawn_spawns s init draws now with hsame | ⟨places, hadded⟩
      · exact .inl ⟨hsame, nofun⟩
      · exact .inr (.inl ⟨init, places, now, rfl, trivial, hadded⟩)
  | onAttack map id finalDamage death =>
      exact .inl ⟨(onAttack_keeps s map id finalDamage death).spawns, nofun⟩
  | physicalSkill map caster id attack death =>
      exact .inl ⟨(physicalSkill_keeps s map caster id attack death).spawns, nofun⟩
  | behead map id => exact .inl ⟨(behead_keeps s map id).spawns, nofun⟩
  | tickMonster id now => exact .inl ⟨(tickMonster_keeps s id now).spawns, nofun⟩
  | removeDeadMonsters => exact .inl ⟨removeDeadMonsters_spawns s, nofun⟩
  | assignNewIds n => exact .inl ⟨rfl, nofun⟩
  | removeLoot id => exact .inl ⟨rfl, nofun⟩
  | tickSpawn index draws now setAt =>
      rcases s.tickSpawn_cases index draws now setAt with
        ⟨hsame, hwaits⟩ | ⟨spawn, spawn', hspawn, hgoes, hspawn', htick⟩
      · refine .inl ⟨congrArg System.spawns hsame, fun index' _ _ _ heq => ?_⟩
        cases heq
        exact hwaits
      · refine .inr (.inr ⟨index, draws, now, setAt, spawn, spawn', rfl, hspawn, hgoes, ?_, hspawn'⟩)
        show (s.tickSpawn index draws now setAt).spawns = _
        rw [htick]
        show (respawnAll _ _ _ _).1.spawns.set index spawn' = _
        rw [respawnAll_spawns]
        exact List.set_set _

/-! ## Runs -/

/-- Each deadline is one cycle after the clock at which it was set. -/
structure Timed (s : System) : Prop where
  lastSet_le : ∀ spawn ∈ s.spawns, spawn.lastSet ≤ s.clock
  next : ∀ spawn ∈ s.spawns,
    spawn.nextSpawnCycle = spawn.lastSet + spawn.init.spawnCycle.toInt64.toUInt64

theorem OnTime.le_last {event : Event} (h : s.OnTime event) :
    s.clock ≤ event.readings.getLastD s.clock := by
  have hall := (List.pairwise_cons.1 h).1
  rcases List.eq_nil_or_concat event.readings with hnil | ⟨before, last, hlast⟩
  · rw [hnil]
    exact UInt64.le_refl _
  · have hmem := hall last (by simp [hlast])
    simpa [hlast] using hmem

theorem step_ok {event : Event} (h : s.OnTime event) :
    s.step db event =
      .ok { s.perform db event with clock := event.readings.getLastD s.clock } := if_pos h

theorem onTime_of_step {event : Event} (h : s.step db event = .ok s') : s.OnTime event := by
  by_contra hlate
  rw [step, if_neg hlate] at h
  cases h

/-- A property of each spawn and the clock, when one spawn is replaced. -/
theorem forall_mem_set {P : Spawn → Prop} {spawns : List Spawn} {index : Nat} {spawn : Spawn}
    (hlt : index < spawns.length) (h : ∀ other ∈ spawns, P other) :
    (∀ other ∈ spawns.set index spawn, P other) ↔ P spawn := by
  constructor
  · exact fun hall => hall spawn (List.mem_set hlt spawn)
  · intro hspawn other hother
    rcases List.mem_or_eq_of_mem_set hother with hold | rfl
    · exact h other hold
    · exact hspawn

theorem step_timed (event : Event) (h : s.Timed) (hstep : s.step db event = .ok s') : s'.Timed := by
  have htime := onTime_of_step hstep
  have hle := htime.le_last
  rw [step_ok htime] at hstep
  obtain ⟨hlast, hnext⟩ := h
  have hlast' : ∀ spawn ∈ s.spawns, spawn.lastSet ≤ event.readings.getLastD s.clock :=
    fun spawn hspawn => UInt64.le_trans (hlast spawn hspawn) hle
  rw [← Except.ok.inj hstep]
  rcases s.perform_spawns event with ⟨hsame, -⟩ | ⟨init, places, now, hnow, -, hadded⟩ |
    ⟨index, draws, now, setAt, spawn, spawn', rfl, hspawn, -, hset, hspawn'⟩
  · exact ⟨hsame ▸ hlast', hsame ▸ hnext⟩
  · constructor
    · intro spawn hspawn
      rw [hadded] at hspawn
      rcases List.mem_append.1 hspawn with hold | hnew
      · exact hlast' spawn hold
      · rw [List.mem_singleton.1 hnew, hnow]
        exact UInt64.le_refl _
    · intro spawn hspawn
      rw [hadded] at hspawn
      rcases List.mem_append.1 hspawn with hold | hnew
      · exact hnext spawn hold
      · rw [List.mem_singleton.1 hnew]
        rfl
  · obtain ⟨hlt, -⟩ := List.getElem?_eq_some_iff.1 hspawn
    have hmem := List.mem_of_getElem? hspawn
    obtain ⟨respawns, hnoted⟩ := noted_eq s spawn now
    constructor
    · dsimp only
      rw [hset, forall_mem_set hlt hlast']
      rcases hspawn' with rfl | rfl
      · rw [hnoted]
        exact hlast' spawn hmem
      · exact UInt64.le_refl _
    · dsimp only
      rw [hset, forall_mem_set hlt hnext]
      rcases hspawn' with rfl | rfl
      · rw [hnoted]
        exact hnext spawn hmem
      · rfl

/-- A step keeps to the cycles exactly when it is due. -/
theorem step_onCycle_iff (event : Event) (h : s.Timed) (hcycle : s.OnCycle)
    (hstep : s.step db event = .ok s') : s'.OnCycle ↔ s.Due event := by
  have htime := onTime_of_step hstep
  rw [step_ok htime] at hstep
  rw [← Except.ok.inj hstep]
  unfold OnCycle
  dsimp only
  rcases s.perform_spawns event with ⟨hsame, hwaits⟩ | ⟨init, places, now, hnow, hdue, hadded⟩ |
    ⟨index, draws, now, setAt, spawn, spawn', rfl, hspawn, hgoes, hset, hspawn'⟩
  · rw [hsame]
    refine iff_of_true hcycle ?_
    cases event with
    | tickSpawn index draws now setAt =>
        intro _ spawn hspawn hpos _
        have hmem := List.mem_of_getElem? hspawn
        have hle : spawn.lastSet ≤ now :=
          UInt64.le_trans (h.lastSet_le spawn hmem) ((List.pairwise_cons.1 htime).1 now
            List.mem_cons_self)
        exact ((spawn.waits_iff (h.next spawn hmem) hle hpos).1
          (hwaits index draws now setAt rfl spawn hspawn)).1
    | addSpawn _ _ _ | onAttack _ _ _ _ | physicalSkill _ _ _ _ _ | behead _ _ | tickMonster _ _
    | removeDeadMonsters | assignNewIds _ | removeLoot _ => trivial
  · rw [hadded]
    refine iff_of_true (fun spawn hmem => ?_) hdue
    rcases List.mem_append.1 hmem with hold | hnew
    · exact hcycle spawn hold
    · rw [List.mem_singleton.1 hnew]
      exact fun _ _ hrespawn => (List.not_mem_nil hrespawn).elim
  · obtain ⟨hlt, -⟩ := List.getElem?_eq_some_iff.1 hspawn
    have hmem := List.mem_of_getElem? hspawn
    rw [hset, forall_mem_set hlt hcycle]
    have hrespawns : spawn'.respawns = (s.noted spawn now).respawns := by
      rcases hspawn' with rfl | rfl <;> rfl
    have hinit : spawn'.init = spawn.init := by
      obtain ⟨respawns, hnoted⟩ := noted_eq s spawn now
      rcases hspawn' with rfl | rfl
      · rw [hnoted]
      · rw [hnoted]
        rfl
    rw [hrespawns, hinit]
    have hold := hcycle spawn hmem
    constructor
    · intro hnew _ other hother hpos hremoved
      rw [hspawn, Option.mem_some_iff] at hother
      rw [← hother] at hpos hremoved ⊢
      refine hnew hpos ⟨now, spawn.lastSet⟩ ?_
      rw [noted, if_pos hremoved]
      exact List.mem_cons_self
    · intro hdue hpos respawn hrespawn
      unfold noted at hrespawn
      split at hrespawn
      next hremoved =>
        rcases List.mem_cons.1 hrespawn with rfl | hbefore
        · exact hdue htime spawn hspawn hpos hremoved
        · exact hold hpos respawn hbefore
      next => exact hold hpos respawn hrespawn

theorem empty_timed : empty.Timed := ⟨by simp [empty], by simp [empty]⟩

theorem empty_onCycle : empty.OnCycle := by simp [OnCycle, empty]

/-- Monsters are put back only when a cycle has passed, throughout a run, exactly when no tick of the
    run finds a removed one before. -/
theorem run_onCycle_iff (db : MonsterDb) (events : List Event) :
    (∀ before after s, events = before ++ after → run (step db) empty before = .ok s →
      s.OnCycle) ↔ Admissible (step db) Due empty events := by
  have hkept : ∀ (s : System) event s', (s.Timed ∧ s.OnCycle) → s.Due event →
      s.step db event = .ok s' → s'.Timed ∧ s'.OnCycle := by
    intro s event s' ⟨htimed, hcycle⟩ hdue hstep
    exact ⟨step_timed event htimed hstep, (step_onCycle_iff event htimed hcycle hstep).2 hdue⟩
  have hlost : ∀ (s : System) event, (s.Timed ∧ s.OnCycle) → ¬ s.Due event →
      ∃ s', s.step db event = .ok s' ∧ ¬ s'.OnCycle := by
    intro s event ⟨htimed, hcycle⟩ hnot
    -- Only a tick at its time can come too early.
    have htime : s.OnTime event := by
      by_contra hlate
      refine hnot ?_
      cases event with
      | tickSpawn index draws now setAt => exact fun htime => (hlate htime).elim
      | addSpawn _ _ _ | onAttack _ _ _ _ | physicalSkill _ _ _ _ _ | behead _ _ | tickMonster _ _
      | removeDeadMonsters | assignNewIds _ | removeLoot _ => trivial
    exact ⟨_, step_ok htime,
      fun hcycle' => hnot ((step_onCycle_iff event htimed hcycle (step_ok htime)).1 hcycle')⟩
  exact forall_state_iff_admissible hkept (fun s hs => hs.2) hlost ⟨empty_timed, empty_onCycle⟩

/-- A monster is put back half a cycle after the spawn was made. -/
theorem put_back_early :
    ¬ ∀ s, run (step twoMonsters) empty [.addSpawn (oneMonster 1) [] 0, .onAttack 0 0 500 ⟨1, 0⟩,
      .behead 0 0, .removeDeadMonsters, .tickSpawn 0 [] 500 500] = .ok s → s.OnCycle := by
  intro h
  have hearly := h _ rfl _ List.mem_cons_self (by decide) ⟨500, 0⟩ List.mem_cons_self
  exact absurd hearly (by decide)

end System

end Bango.Monsters
