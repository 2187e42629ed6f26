import Bango.Locks.System

set_option autoImplicit false

/-! # Proper sequences

Every handler releases what it takes, takes no character's mutex twice, takes a map's mutex inside
`World`, and takes a second character's mutex outside `World` only in `LeaveParty`. Inside `World` a
sequence is put together from parts that leave the mutexes as they were (`Neutral`). -/

namespace Bango.Locks

open Bango.Lib

/-- Mutexes of maps are held inside `World`. -/
def MapsInside (held : List Mutex) : Prop := ∀ index, .map index ∈ held → .world ∈ held

/-- May a handler take the mutex next? -/
def MayLock (leader : Option (UInt32 × UInt32)) (held : List Mutex) : Mutex → Prop
  | .world => True
  | .map _ => .world ∈ held
  | .character character => .character character ∉ held ∧
      (.world ∉ held → held = [] ∨
        ∃ id last, leader = some (id, last) ∧ character = .player last ∧
          held = [.character (.player id)])

/-- A handler that has these mutexes can go on with the sequence. -/
def Proper : Option (UInt32 × UInt32) → List Mutex → Sequence → Prop
  | leader, held, [] => leader = none ∧ held = []
  | leader, held, .lock mutex :: left =>
    MayLock leader held mutex ∧ Proper none (mutex :: held) left
  | leader, held, .unlock mutex :: left =>
    leader = none ∧ MapsInside (held.erase mutex) ∧ Proper none (held.erase mutex) left
  | leader, held, .act (.leave id last) :: left =>
    leader = none ∧ held = [.character (.player id)] ∧
      (last ≠ some id → Proper (last.map (id, ·)) held left)
  | leader, held, .act (.join ids) :: left =>
    leader = none ∧ (∀ id ∈ ids, .character (.player id) ∈ held) ∧ Proper none held left
  | leader, held, .act (.remove _) :: left => leader = none ∧ Proper none held left

/-! ## Inside `World` -/

/-- A part of a sequence that can stand anywhere inside `World`, as long as the mutexes of some
    characters are not held. -/
def Neutral (avoid : List Character) (part : Sequence) : Prop :=
  ∀ held left, .world ∈ held → (∀ character ∈ avoid, .character character ∉ held) →
    Proper none held left → Proper none held (part ++ left)

section Neutral

variable {avoid : List Character} {part other : Sequence} {mutex : Mutex} {character : Character}
  {index : Nat}

theorem mapsInside_of_world {held : List Mutex} (h : .world ∈ held) : MapsInside held := fun _ _ => h

theorem neutral_nil : Neutral avoid [] := fun _ _ _ _ hleft => hleft

theorem Neutral.append (h : Neutral avoid part) (hother : Neutral avoid other) :
    Neutral avoid (part ++ other) := by
  intro held left hworld havoid hleft
  rw [List.append_assoc]
  exact h held _ hworld havoid (hother held left hworld havoid hleft)

theorem Neutral.mono {avoid' : List Character} (h : Neutral avoid part)
    (hsubset : ∀ character ∈ avoid, character ∈ avoid') : Neutral avoid' part :=
  fun held left hworld havoid =>
    h held left hworld fun character hmem => havoid character (hsubset character hmem)

theorem neutral_flatten {parts : List Sequence} (h : ∀ part ∈ parts, Neutral avoid part) :
    Neutral avoid parts.flatten := by
  induction parts with
  | nil => exact neutral_nil
  | cons part parts ih =>
      rw [List.flatten_cons]
      exact (h part List.mem_cons_self).append
        (ih fun other hother => h other (List.mem_cons_of_mem part hother))

/-- A mutex is taken and released again around a part. -/
theorem Neutral.locked {inner : List Character} (h : Neutral inner part)
    (hmay : ∀ held, .world ∈ held → (∀ character ∈ avoid, .character character ∉ held) →
      MayLock none held mutex)
    (hinner : ∀ character ∈ inner, character ∈ avoid ∧ mutex ≠ .character character) :
    Neutral avoid (Locks.locked mutex part) := by
  intro held left hworld havoid hleft
  unfold Locks.locked
  rw [List.cons_append, List.append_assoc]
  refine ⟨hmay held hworld havoid, h (mutex :: held) _ (List.mem_cons_of_mem _ hworld) ?_ ?_⟩
  · intro character hcharacter hheld
    obtain ⟨hmem, hne⟩ := hinner character hcharacter
    rcases List.mem_cons.1 hheld with heq | hheld
    · exact hne heq.symm
    · exact havoid character hmem hheld
  · refine ⟨rfl, ?_, ?_⟩
    · rw [List.erase_cons_head]
      exact mapsInside_of_world hworld
    · rw [List.erase_cons_head]
      exact hleft

theorem Neutral.inWorld (h : Neutral avoid part) : Neutral avoid (Locks.inWorld part) :=
  h.locked (fun _ _ _ => trivial) fun _ hmem => ⟨hmem, nofun⟩

theorem Neutral.locked_map (h : Neutral avoid part) : Neutral avoid (Locks.locked (.map index) part) :=
  h.locked (fun _ hworld _ => hworld) fun _ hmem => ⟨hmem, nofun⟩

theorem Neutral.onMap (h : Neutral avoid part) : Neutral avoid (Locks.onMap index part) :=
  h.locked_map.inWorld

theorem Neutral.lockedCharacter {inner : List Character} (h : Neutral inner part)
    (hmem : character ∈ avoid)
    (hinner : ∀ other ∈ inner, other ∈ avoid ∧ other ≠ character) :
    Neutral avoid (Locks.lockedCharacter character part) :=
  h.locked (fun _ hworld havoid => ⟨havoid character hmem, fun hnot => absurd hworld hnot⟩)
    fun other hother => ⟨(hinner other hother).1, fun heq =>
      (hinner other hother).2 (Mutex.character.inj heq).symm⟩

theorem neutral_writeInSight : Neutral avoid (writeInSight index) := neutral_nil.onMap

theorem neutral_replicate {count : Nat} (h : Neutral avoid part) :
    Neutral avoid (List.replicate count part).flatten :=
  neutral_flatten fun other hother => by rwa [List.eq_of_mem_replicate hother]

/-- A function of `World` that is called outside. -/
theorem Neutral.proper (h : Neutral avoid part) {left : Sequence} (hleft : Proper none [] left) :
    Proper none [] (Locks.inWorld part ++ left) := by
  unfold Locks.inWorld Locks.locked
  rw [List.cons_append, List.append_assoc]
  refine ⟨trivial, h [.world] _ List.mem_cons_self (fun _ _ => by simp) ⟨rfl, ?_, ?_⟩⟩
  · simp [MapsInside]
  · simpa using hleft

theorem Neutral.proper_inWorld (h : Neutral avoid part) : Proper none [] (Locks.inWorld part) := by
  rw [← List.append_nil (Locks.inWorld part)]
  exact h.proper ⟨rfl, rfl⟩

theorem Neutral.proper_onMap (h : Neutral avoid part) : Proper none [] (Locks.onMap index part) :=
  h.locked_map.proper_inWorld

end Neutral

/-! ## Handlers -/

theorem neutral_distributeExp (share : Share) :
    Neutral [.player share.id] (distributeExp share) := by
  unfold distributeExp
  have hlevels : Neutral [] (List.replicate share.levels (writeInSight share.map)).flatten :=
    neutral_replicate neutral_writeInSight
  refine Neutral.inWorld ?_
  split
  · exact hlevels.lockedCharacter List.mem_cons_self nofun
  · exact neutral_nil

/-- The characters that `DistributeExp` locks when the target dies. -/
def attackers (shares : List Share) : Character → List Character
  | .player _ => []
  | .monster _ => shares.map fun share => .player share.id

theorem ne_of_mem_attackers {shares : List Share} {target character : Character}
    (h : character ∈ attackers shares target) : character ≠ target := by
  cases target with
  | player id => cases h
  | monster id =>
      obtain ⟨share, _, rfl⟩ := List.mem_map.1 h
      nofun

theorem neutral_die (map : Nat) (shares : List Share) (loots : Nat) (target : Character) :
    Neutral (attackers shares target) (die map shares loots target) := by
  cases target with
  | player id => exact neutral_writeInSight
  | monster id =>
      refine ((neutral_flatten ?_).append (neutral_replicate neutral_nil.onMap)).append
        neutral_writeInSight
      intro part hpart
      obtain ⟨share, hshare, rfl⟩ := List.mem_map.1 hpart
      refine (neutral_distributeExp share).mono fun character hcharacter => ?_
      rw [List.mem_singleton] at hcharacter
      rw [hcharacter]
      exact List.mem_map_of_mem hshare

/-- The attacker's mutex is released first, and the rest happens under the target's. -/
theorem neutral_handOver {inner : List Character} {body : Sequence} {id : UInt32}
    {target : Character} (h : Neutral inner body) (hne : target ≠ .player id)
    (hinner : ∀ character ∈ inner, character ≠ target) :
    Neutral (.player id :: target :: inner)
      (.lock (.character (.player id)) :: .lock (.character target) ::
        .unlock (.character (.player id)) :: (body ++ [.unlock (.character target)])) := by
  intro held left hworld havoid hleft
  have hid := havoid (.player id) List.mem_cons_self
  have htarget := havoid target (List.mem_cons_of_mem _ List.mem_cons_self)
  have herase : (Mutex.character target :: .character (.player id) :: held).erase
      (.character (.player id)) = .character target :: held := by
    rw [List.erase_cons_tail (by simpa using hne), List.erase_cons_head]
  rw [List.cons_append, List.cons_append, List.cons_append, List.append_assoc]
  refine ⟨⟨hid, fun hnot => absurd hworld hnot⟩, ⟨?_, fun hnot => absurd ?_ hnot⟩, rfl, ?_, ?_⟩
  · simpa [htarget] using hne
  · exact List.mem_cons_of_mem _ hworld
  · rw [herase]
    exact mapsInside_of_world (List.mem_cons_of_mem _ hworld)
  · rw [herase]
    refine h _ _ (List.mem_cons_of_mem _ hworld) (fun character hcharacter => ?_) ⟨rfl, ?_, ?_⟩
    · have hnot := havoid character (List.mem_cons_of_mem _ (List.mem_cons_of_mem _ hcharacter))
      simpa [hnot] using hinner character hcharacter
    · rw [List.erase_cons_head]
      exact mapsInside_of_world hworld
    · rw [List.erase_cons_head]
      exact hleft

theorem neutral_attack (id : UInt32) (map : Nat) (target : Character) (blow : Blow)
    (h : ¬ (target = .player id ∧ blow ≠ .notReady)) :
    ∃ avoid, Neutral avoid (attack id map target blow) := by
  have hnil : Neutral [] [] := neutral_nil
  have hsight : Neutral [] (writeInSight map) := neutral_writeInSight
  have hne : blow ≠ .notReady → target ≠ .player id := fun hready htarget => h ⟨htarget, hready⟩
  have hinner : blow ≠ .notReady → ∀ other ∈ [target],
      other ∈ [.player id, target] ∧ other ≠ .player id := by
    intro hready other hother
    rw [List.mem_singleton] at hother
    rw [hother]
    exact ⟨by simp, hne hready⟩
  cases blow with
  | notReady => exact ⟨[.player id], hnil.lockedCharacter List.mem_cons_self nofun⟩
  | cannotAttack =>
      exact ⟨[.player id, target], (hnil.lockedCharacter List.mem_cons_self nofun).lockedCharacter
        List.mem_cons_self (hinner nofun)⟩
  | miss =>
      exact ⟨[.player id, target], (hsight.lockedCharacter List.mem_cons_self nofun).lockedCharacter
        List.mem_cons_self (hinner nofun)⟩
  | negative => exact ⟨_, neutral_handOver hnil (hne nofun) nofun⟩
  | hit => exact ⟨_, neutral_handOver hsight (hne nofun) nofun⟩
  | kill shares loots =>
      have hdie := neutral_die map shares loots target
      exact ⟨_, neutral_handOver (neutral_writeInSight.append hdie) (hne nofun)
        fun _ => ne_of_mem_attackers⟩

theorem neutral_physicalSkill (map : Nat) (target : Character) (cast : Cast) :
    ∃ avoid, Neutral avoid (physicalSkill map target cast) := by
  have hnil : Neutral [] [] := neutral_nil
  have hsight : Neutral [] (writeInSight map) := neutral_writeInSight
  cases cast with
  | cannotExecute => exact ⟨[target], hnil.lockedCharacter List.mem_cons_self nofun⟩
  | hit => exact ⟨[target], hsight.lockedCharacter List.mem_cons_self nofun⟩
  | kill shares loots =>
      refine ⟨target :: attackers shares target,
        ((neutral_die map shares loots target).append neutral_writeInSight).lockedCharacter
          List.mem_cons_self fun other hother => ?_⟩
      exact ⟨List.mem_cons_of_mem _ hother, ne_of_mem_attackers hother⟩

theorem neutral_behead (map : Nat) (target : UInt32) (canExecute : Bool) :
    Neutral [.monster target] (behead map target canExecute) := by
  have hbody : Neutral []
      (if canExecute then writeInSight map ++ writeInSight map else []) := by
    split
    · exact neutral_writeInSight.append neutral_writeInSight
    · exact neutral_nil
  exact hbody.lockedCharacter List.mem_cons_self nofun

theorem proper_onAskParty (id invited : UInt32) (mayInvite met : Bool) :
    Proper none [] (onAskParty id invited mayInvite met) := by
  unfold onAskParty
  split
  next => exact ⟨rfl, rfl⟩
  next hne =>
      cases mayInvite
      all_goals cases met
      all_goals
        simp [lockedPlayer, lockedCharacter, inWorld, locked, Proper, MayLock, MapsInside, hne]

theorem proper_onAskPartyAnswer (id inviter : UInt32) (answer : Answer) :
    Proper none [] (onAskPartyAnswer id inviter answer) := by
  unfold onAskPartyAnswer
  split
  next => exact ⟨rfl, rfl⟩
  next hne =>
      cases answer
      all_goals
        simp [lockedPlayer, lockedCharacter, inWorld, locked, Proper, MayLock, MapsInside, hne]

theorem proper_banFromParty (id banned : UInt32) (ban : Ban) :
    Proper none [] (banFromParty id banned ban) := by
  unfold banFromParty
  split
  next => exact ⟨rfl, rfl⟩
  next hne =>
      cases ban
      all_goals
        simp [lockedPlayer, lockedCharacter, inWorld, locked, Proper, MayLock, MapsInside, hne]

theorem neutral_remove {avoid : List Character} (id : UInt32) :
    Neutral avoid [.act (.remove id)] := fun _ _ _ _ hleft => ⟨rfl, hleft⟩

/-- Called by the command, `BanFromParty` runs inside `World`. -/
theorem neutral_banFromParty (id banned : UInt32) (ban : Ban) :
    Neutral [.player id, .player banned] (banFromParty id banned ban) := by
  have hnil : Neutral [] [] := neutral_nil
  unfold banFromParty
  split
  next => exact neutral_nil
  next hne =>
      have hother : ∀ other ∈ [Character.player banned],
          other ∈ [Character.player id, .player banned] ∧ other ≠ .player id := by
        simpa using hne
      cases ban with
      | notLeader => exact hnil.lockedCharacter List.mem_cons_self nofun
      | notFound => exact hnil.inWorld.lockedCharacter List.mem_cons_self nofun
      | otherParty =>
          exact (hnil.lockedCharacter List.mem_cons_self nofun).inWorld.lockedCharacter
            List.mem_cons_self hother
      | banned =>
          have hbody : Neutral [] [.act (.remove banned)] := neutral_remove banned
          exact (hbody.lockedCharacter List.mem_cons_self nofun).inWorld.lockedCharacter
            List.mem_cons_self hother
      | dissolved =>
          have hbody : Neutral [] ([.act (.remove banned)] ++ [.act (.remove id)]) :=
            (neutral_remove banned).append (neutral_remove id)
          exact (hbody.lockedCharacter List.mem_cons_self nofun).inWorld.lockedCharacter
            List.mem_cons_self hother

theorem proper_leaveParty (id : UInt32) (leave : Leave) {left : Sequence}
    (hleft : Proper none [.character (.player id)] left) :
    Proper none [.character (.player id)] (leaveParty id leave ++ left) := by
  cases leave with
  | noParty => exact hleft
  | left => exact ⟨rfl, rfl, fun _ => hleft⟩
  | last leader hasParty =>
      refine ⟨rfl, rfl, fun hne => ?_⟩
      have hne' : leader ≠ id := fun heq => hne (congrArg some heq)
      cases hasParty
      all_goals
        simp [lockedPlayer, lockedCharacter, inWorld, locked, Proper, MayLock, MapsInside, hne', hleft]

/-- A player leaves its party, and then perhaps the world, under its own mutex. -/
theorem proper_leaving (id : UInt32) (leave : Leave) (body : Sequence)
    (hbody : Proper none [.character (.player id)] (body ++ [.unlock (.character (.player id))])) :
    Proper none [] (lockedPlayer id (leaveParty id leave ++ body)) := by
  unfold lockedPlayer lockedCharacter locked
  rw [List.append_assoc]
  exact ⟨⟨List.not_mem_nil, fun _ => .inl rfl⟩, proper_leaveParty id leave hbody⟩

theorem proper_leaveWorld (id : UInt32) (leave : Leave) (map : Nat) :
    Proper none [] (lockedPlayer id (leaveParty id leave ++ onMap map [])) := by
  refine proper_leaving id leave _ ?_
  simp [onMap, inWorld, locked, Proper, MayLock, MapsInside]

theorem proper_tick (saved : List UInt32) (risen expired dead respawned : List Nat) :
    Proper none [] (Handler.tick saved risen expired dead respawned).sequence := by
  have hnil : Neutral [] [] := neutral_nil
  have hsaved : Neutral (saved.map .player) (saved.flatMap fun id => lockedPlayer id []) := by
    refine neutral_flatten fun part hpart => ?_
    obtain ⟨id, hid, rfl⟩ := List.mem_map.1 hpart
    exact hnil.lockedCharacter (List.mem_map_of_mem hid) nofun
  have hmaps : ∀ (maps : List Nat) (part : Nat → Sequence), (∀ map, Neutral [] (part map)) →
      Neutral [] (maps.flatMap part) := by
    intro maps part hpart
    refine neutral_flatten fun other hother => ?_
    obtain ⟨map, _, rfl⟩ := List.mem_map.1 hother
    exact hpart map
  have hrisen := hmaps risen writeInSight fun _ => neutral_writeInSight
  have hlocked := fun maps => hmaps maps (fun map => locked (.map map) []) fun _ => hnil.locked_map
  have hrespawned : Proper none [] (respawned.flatMap fun map => onMap map []) := by
    induction respawned with
    | nil => exact ⟨rfl, rfl⟩
    | cons map maps ih => exact hnil.locked_map.proper ih
  show Proper none [] (inWorld _ ++ inWorld _ ++ inWorld _ ++ inWorld _ ++ _)
  simp only [List.append_assoc]
  exact hsaved.proper (hrisen.proper ((hlocked expired).proper ((hlocked dead).proper hrespawned)))

/-- Only an attack on oneself takes a mutex that it must not take. -/
theorem sequence_proper {handler : Handler} (h : ¬ handler.AttacksItself) :
    Proper none [] handler.sequence := by
  have hnil : Neutral [] [] := neutral_nil
  cases handler with
  | onAttack id map target =>
      cases target with
      | none => exact hnil.proper_onMap
      | some target =>
          obtain ⟨_, hattack⟩ := neutral_attack id map target.1 target.2 h
          exact hattack.proper_onMap
  | physicalSkill map target =>
      cases target with
      | none => exact hnil.proper_onMap
      | some target =>
          obtain ⟨_, hskill⟩ := neutral_physicalSkill map target.1 target.2
          exact hskill.proper_onMap
  | behead map target =>
      cases target with
      | none => exact hnil.proper_onMap
      | some target => exact (neutral_behead map target.1 target.2).proper_onMap
  | onAskParty id invited mayInvite met => exact proper_onAskParty id invited mayInvite met
  | onAskPartyAnswer id inviter answer => exact proper_onAskPartyAnswer id inviter answer
  | onExileParty id banned ban => exact proper_banFromParty id banned ban
  | expelParty id named =>
      cases named with
      | none => exact hnil.proper_inWorld
      | some named => exact (neutral_banFromParty id named.1 named.2).proper_inWorld
  | onLeaveParty id leave =>
      have hleaving := proper_leaving id leave [] (by simp [Proper, MapsInside])
      rwa [List.append_nil] at hleaving
  | onRestart id ask leave map =>
      cases ask with
      | true => exact ⟨rfl, rfl⟩
      | false => exact proper_leaveWorld id leave map
  | onDisconnected id leave map => exact proper_leaveWorld id leave map
  | tick saved risen expired dead respawned => exact proper_tick saved risen expired dead respawned

end Bango.Locks
