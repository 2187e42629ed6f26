import Bango.Session.Proofs.Steps

set_option autoImplicit false

/-! # Where the maps have the player

The handler of `C2S_START` does not wait for the reply to `C2S_LOADPLAYER`, and the handler of that
reply overwrites the position of a player that is in a map. The maps have the player where it is in
every state of a run exactly when neither happens, and the player does not walk out of its map. -/

namespace Bango.Session

open Bango.Lib Bango.Network Bango.Account Bango.Space

/-! ## The player in its map -/

namespace World

variable {w : World} {k : Nat} {p p' : Point}

theorem mapRemove_of_stored (hstored : w.stored = [(k, p)]) (hp : boundary.InBoundary p)
    (hlisted : w.listed ⊆ {k}) : w.mapRemove k p = { w with stored := [], listed := ∅ } := by
  have herase : w.listed.erase k = ∅ := by
    rw [Finset.erase_eq_empty_iff]
    exact Finset.subset_singleton_iff.1 hlisted
  simp [mapRemove, quadRemove, hp, hstored, herase]

theorem mapRemove_of_empty (hstored : w.stored = []) (hlisted : w.listed = ∅) :
    w.mapRemove k p = { w with stored := [], listed := ∅ } := by
  obtain ⟨registered, stored, listed⟩ := w
  subst hstored hlisted
  by_cases hp : boundary.InBoundary p
  · simp [mapRemove, quadRemove, hp]
  · simp [mapRemove, quadRemove, hp]

theorem mapAdd_of_inBoundary (hp : boundary.InBoundary p) :
    w.mapAdd k p = { w with stored := (k, p) :: w.stored, listed := insert k w.listed } := by
  simp [mapAdd, quadInsert, hp]

theorem mapAdd_of_not_inBoundary (hp : ¬ boundary.InBoundary p) : w.mapAdd k p = w := by
  simp [mapAdd, quadInsert, hp]

@[simp]
theorem registered_mapAdd : (w.mapAdd k p).registered = w.registered := by
  by_cases hp : boundary.InBoundary p
  · rw [mapAdd_of_inBoundary hp]
  · rw [mapAdd_of_not_inBoundary hp]

theorem mapMove_of_stored (hstored : w.stored = [(k, p)]) (hp : boundary.InBoundary p) :
    w.mapMove k p p' =
      (if boundary.InBoundary p' then { w with stored := [(k, p')] } else { w with stored := [] },
        p') := by
  by_cases hp' : boundary.InBoundary p'
  · simp [mapMove, quadRemove, quadInsert, hp, hp', hstored]
  · simp [mapMove, quadRemove, quadInsert, hp, hp', hstored]

theorem mapMove_of_empty (hstored : w.stored = []) :
    w.mapMove k p p' = if boundary.InBoundary p then (w, p)
      else (if boundary.InBoundary p' then { w with stored := [(k, p')] } else w, p') := by
  by_cases hp : boundary.InBoundary p
  · simp [mapMove, quadRemove, hp, hstored]
  · by_cases hp' : boundary.InBoundary p'
    · simp [mapMove, quadRemove, quadInsert, hp, hp', hstored]
    · simp [mapMove, quadRemove, quadInsert, hp, hp']

end World

/-- The maps have the player only when it has been loaded since it last left the world, and where it
    is, so that `Remove` takes it out of them. -/
structure Placed (s : System) : Prop where
  loaded : s.world.registered ∨ s.world.stored ≠ [] ∨ s.world.listed ≠ ∅ → s.loaded
  position : s.world.stored ≠ [] ∨ s.world.listed ≠ ∅ →
    s.world.stored = [(mapIndex s.player.map, s.player.position)]
  removed : (s.world.mapRemove (mapIndex s.player.map) s.player.position).stored = [] ∧
    (s.world.mapRemove (mapIndex s.player.map) s.player.position).listed = ∅

/-- The order of messages that the handlers rely on: the player starts when it has been loaded, and no
    player in a map is loaded again, unless it is where it has been stored. And a player in a map
    does not move out of it. -/
def LoadedFirst (s : System) : Op → Prop
  | .client .start _ =>
    s.connected → .loading ∈ s.player.roles → s.world.registered = false → s.loaded
  | .client (.move x y) _ =>
    s.connected → .ingame ∈ s.player.roles → s.world.listed ≠ ∅ → boundary.InBoundary
      ⟨s.player.position.x + x.toInt, s.player.position.y + y.toInt⟩
  | .deliver =>
    match s.toGame with
    | .loadPlayer uid (some row) :: _ =>
      s.connected → uid = s.player.credentials.uid → s.world.stored ≠ [] →
        mapIndex row.map = mapIndex s.player.map ∧ row.position = s.player.position
    | _ => True
  | .client .. | .disconnect | .database .. => True

/-- The invariant. -/
structure InWorld (s : System) : Prop where
  registered : s.connected → (s.world.registered ↔ .ingame ∈ s.player.roles)
  gone : ¬ s.connected → ¬ s.world.registered
  absent : ¬ s.world.registered → s.world.stored = [] ∧ s.world.listed = ∅
  loaded : s.world.registered → s.loaded
  position : s.world.stored ≠ [] ∨ s.world.listed ≠ ∅ →
    s.world.stored = [(mapIndex s.player.map, s.player.position)]
  inside : ∀ e ∈ s.world.stored, boundary.InBoundary e.2
  listed : s.world.listed ⊆ {mapIndex s.player.map}

namespace InWorld

variable {s s' : System}

/-- The player is stored where it is, or in no map. -/
theorem stored_or_empty (h : InWorld s) :
    (s.world.stored = [(mapIndex s.player.map, s.player.position)] ∧
      boundary.InBoundary s.player.position) ∨ s.world.stored = [] ∧ s.world.listed = ∅ := by
  by_cases hin : s.world.stored ≠ [] ∨ s.world.listed ≠ ∅
  · have hstored := h.position hin
    exact .inl ⟨hstored, h.inside _ (hstored ▸ List.mem_singleton_self _)⟩
  · push Not at hin
    exact .inr hin

/-- `Remove` leaves the player in no map. -/
theorem mapRemove (h : InWorld s) :
    s.world.mapRemove (mapIndex s.player.map) s.player.position =
      { s.world with stored := [], listed := ∅ } := by
  rcases h.stored_or_empty with ⟨hstored, hp⟩ | ⟨hstored, hlisted⟩
  · exact World.mapRemove_of_stored hstored hp h.listed
  · exact World.mapRemove_of_empty hstored hlisted

theorem placed (h : InWorld s) : Placed s where
  loaded hin := by
    refine h.loaded ?_
    by_contra hnot
    obtain ⟨hstored, hlisted⟩ := h.absent hnot
    rcases hin with hin | hin | hin
    · exact hnot hin
    · exact hin hstored
    · exact hin hlisted
  position := h.position
  removed := by
    rw [h.mapRemove]
    exact ⟨rfl, rfl⟩

/-- What the invariant is about. -/
theorem congr (h : InWorld s) (hconnected : s'.connected = s.connected)
    (hworld : s'.world = s.world) (hposition : s'.player.position = s.player.position)
    (hmap : s'.player.map = s.player.map) (hloaded : s'.loaded = s.loaded)
    (hingame : .ingame ∈ s'.player.roles ↔ .ingame ∈ s.player.roles) : InWorld s' := by
  constructor
  all_goals
    simp only [hconnected, hworld, hposition, hmap, hloaded, hingame]
  · exact h.registered
  · exact h.gone
  · exact h.absent
  · exact h.loaded
  · exact h.position
  · exact h.inside
  · exact h.listed

theorem connect (credentials : Credentials) (position : Point) (map : UInt8)
    (activeUsers : List Int32) : InWorld (System.connect credentials position map activeUsers) := by
  constructor <;> simp [System.connect]

theorem onRequest (h : InWorld s) (m : Request) (payload : List UInt8) (memory : Memory) :
    InWorld (s.onRequest m payload memory) := by
  unfold System.onRequest
  cases m <;> simp only <;> split <;>
    refine h.congr rfl rfl rfl rfl rfl ?_ <;>
    simp [System.write]

/-- After `C2S_START` the player is in the world, and in its map where it is. -/
theorem onStart (h : InWorld s) (hconnected : s.connected)
    (hloaded : s.world.registered = false → s.loaded) : InWorld s.onStart := by
  unfold System.onStart System.worldAdd
  by_cases hregistered : s.world.registered
  · simp only [if_pos hregistered]
    exact h
  · obtain ⟨hstored, hlisted⟩ := h.absent hregistered
    have hloaded := hloaded (Bool.eq_false_iff.2 hregistered)
    simp only [if_neg hregistered]
    by_cases hp : boundary.InBoundary s.player.position
    · rw [World.mapAdd_of_inBoundary hp]
      constructor <;> simp [hstored, hlisted, hloaded, hp, hconnected]
    · rw [World.mapAdd_of_not_inBoundary hp]
      constructor <;> simp [hstored, hlisted, hloaded, hconnected]

theorem onRestart (h : InWorld s) (hconnected : s.connected) (hingame : .ingame ∈ s.player.roles)
    (logout : UInt8) : InWorld (s.onRestart logout) := by
  have hregistered := (h.registered hconnected).2 hingame
  unfold System.onRestart System.worldRemove
  rw [h.mapRemove]
  split_ifs
  · exact h
  · simp only [hregistered]
    constructor <;> simp [System.write]

theorem onMove (h : InWorld s) (hregistered : s.world.registered) {x y : Int8}
    (hin : s.world.listed ≠ ∅ →
      boundary.InBoundary ⟨s.player.position.x + x.toInt, s.player.position.y + y.toInt⟩) :
    InWorld (s.onMove x y) := by
  have hloaded := h.loaded hregistered
  have hroles := h.registered
  have hgone := h.gone
  have hlist := h.listed
  unfold System.onMove
  rcases h.stored_or_empty with ⟨hstored, hp⟩ | ⟨hstored, hlisted⟩
  · rw [World.mapMove_of_stored hstored hp]
    by_cases hp' : boundary.InBoundary
        ⟨s.player.position.x + x.toInt, s.player.position.y + y.toInt⟩
    · simp only [if_pos hp']
      constructor <;> simp_all
    · -- only a player that no map lists may move out of the boundary
      have hlisted : s.world.listed = ∅ := by
        by_contra hne
        exact hp' (hin hne)
      simp only [if_neg hp']
      constructor <;> simp_all
  · rw [World.mapMove_of_empty hstored]
    by_cases hp : boundary.InBoundary s.player.position
    · simp only [if_pos hp]
      exact h
    · by_cases hp' : boundary.InBoundary
          ⟨s.player.position.x + x.toInt, s.player.position.y + y.toInt⟩
      · simp only [if_neg hp, if_pos hp']
        constructor <;> simp_all
      · simp only [if_neg hp, if_neg hp']
        constructor <;> simp_all

theorem execute (h : InWorld s) (hconnected : s.connected) {message : C2S} {memory : Memory}
    (hguard : LoadedFirst s (.client message memory)) : InWorld (s.execute message memory) := by
  unfold System.execute
  split_ifs with hrequired
  · cases message with
    | request m payload => exact h.onRequest m payload memory
    | start => exact h.onStart hconnected (hguard hconnected hrequired)
    | restart logout => exact h.onRestart hconnected hrequired logout
    | move x y =>
        exact h.onMove ((h.registered hconnected).2 hrequired) (hguard hconnected hrequired)
  · exact h

theorem onDisconnected (h : InWorld s) (hconnected : s.connected) : InWorld s.onDisconnected := by
  -- the message to the DB server changes nothing of the world
  have hwrite : ∀ t : System, InWorld t → InWorld (if .authorized ∈ t.player.roles then
      t.write (.disconnect t.player.credentials.aid) else t) := by
    intro t ht
    split_ifs
    · exact ht.congr rfl rfl rfl rfl rfl Iff.rfl
    · exact ht
  unfold System.onDisconnected
  by_cases hingame : .ingame ∈ s.player.roles
  · have hregistered := (h.registered hconnected).2 hingame
    unfold System.worldRemove
    rw [h.mapRemove]
    simp only [if_pos hingame, hregistered, if_true]
    refine hwrite { s with
      connected := false
      world := ⟨false, [], ∅⟩
      loaded := s.loaded && !true } ?_
    constructor <;> simp
  · have hregistered : s.world.registered = false := by
      rw [← Bool.not_eq_true]
      exact fun hreg => hingame ((h.registered hconnected).1 hreg)
    obtain ⟨hstored, hlisted⟩ := h.absent (by simp [hregistered])
    simp only [if_neg hingame, if_true]
    refine hwrite { s with connected := false } ?_
    constructor <;> simp [hregistered, hstored, hlisted]

theorem onLoadPlayer (h : InWorld s) {row : PlayerRow}
    (hsame : s.world.stored ≠ [] →
      mapIndex row.map = mapIndex s.player.map ∧ row.position = s.player.position) :
    InWorld (s.onLoadPlayer row) := by
  refine ⟨h.registered, h.gone, h.absent, fun _ => rfl, fun hin => ?_, h.inside, ?_⟩
  · have hstored := h.position hin
    obtain ⟨hmap, hposition⟩ := hsame (by simp [hstored])
    show s.world.stored = [(mapIndex row.map, row.position)]
    rw [hmap, hposition, hstored]
  · show s.world.listed ⊆ {mapIndex row.map}
    by_cases hlisted : s.world.listed = ∅
    · rw [hlisted]
      exact Finset.empty_subset _
    · have hstored := h.position (.inr hlisted)
      rw [(hsame (by simp [hstored])).1]
      exact h.listed

theorem step (h : InWorld s) {o : Op} (hguard : LoadedFirst s o) (hstep : s.step o = .ok s') :
    InWorld s' := by
  cases o with
  | client message memory =>
      obtain ⟨hconnected, -, rfl⟩ := System.step_client hstep
      exact h.execute hconnected hguard
  | disconnect =>
      obtain ⟨hconnected, rfl⟩ := System.step_disconnect hstep
      exact h.onDisconnected hconnected
  | database answers memory =>
      obtain ⟨message, rest, -, rfl⟩ := System.step_database hstep
      exact h.congr rfl rfl rfl rfl rfl Iff.rfl
  | deliver =>
      obtain ⟨reply, rest, hgame, rfl⟩ := System.step_deliver hstep
      have hrest : InWorld { s with toGame := rest } := h.congr rfl rfl rfl rfl rfl Iff.rfl
      split_ifs with hfor
      · cases reply with
        | loadPlayer uid row =>
            cases row with
            | none => exact hrest
            | some row =>
                simp only [LoadedFirst, hgame] at hguard
                exact hrest.onLoadPlayer (hguard hfor.1 hfor.2)
        | login | authorized | secLogin | playerInfo =>
            refine hrest.congr rfl rfl rfl rfl rfl ?_
            simp [System.mem_roles_onReply, D2S.granted]
        | delPlayerInfo | ansNewPlayer | loadItems | skillInfo => exact hrest
      · exact hrest

end InWorld

/-! ## What goes wrong otherwise -/

/-- A step that the handlers do not rely on leads to a state where the maps have a player that has not
    been loaded, or have it elsewhere, or have lost it. -/
theorem not_placed_of_not_loadedFirst {s : System} (h : InWorld s) {o : Op}
    (hguard : ¬ LoadedFirst s o) : ∃ s', s.step o = .ok s' ∧ ¬ Placed s' := by
  cases o with
  | client message memory =>
      cases message with
      | request m payload => exact absurd trivial hguard
      | restart logout => exact absurd trivial hguard
      | start =>
          simp only [LoadedFirst, not_forall] at hguard
          obtain ⟨hconnected, hloading, hregistered, hloaded⟩ := hguard
          refine ⟨s.onStart, ?_, fun hplaced => hloaded ?_⟩
          · simp [System.step, System.execute, System.handle, C2S.Sendable, C2S.required,
              hconnected, hloading]
          · -- `World::Add` has registered a player that nothing has loaded
            have hadded : s.onStart.world.registered ∧ s.onStart.loaded = s.loaded := by
              simp [System.onStart, System.worldAdd, hregistered]
            rw [← hadded.2]
            exact hplaced.loaded (.inl hadded.1)
      | move x y =>
          simp only [LoadedFirst, not_forall] at hguard
          obtain ⟨hconnected, hingame, hlisted, hout⟩ := hguard
          obtain ⟨hstored, hp⟩ := h.stored_or_empty.resolve_right fun hempty => hlisted hempty.2
          refine ⟨s.onMove x y, ?_, fun hplaced => ?_⟩
          · simp [System.step, System.execute, System.handle, C2S.Sendable, C2S.required,
              hconnected, hingame]
          · -- the quadtree has dropped the player, the list of the map has not
            have hmoved : (s.onMove x y).world = { s.world with stored := [] } := by
              unfold System.onMove
              rw [World.mapMove_of_stored hstored hp, if_neg hout]
            have hposition := hplaced.position (.inr (by rw [hmoved]; exact hlisted))
            rw [hmoved] at hposition
            cases hposition
  | disconnect => exact absurd trivial hguard
  | database answers memory => exact absurd trivial hguard
  | deliver =>
      simp only [LoadedFirst] at hguard
      split at hguard
      · next uid row rest hgame =>
          simp only [not_forall] at hguard
          obtain ⟨hconnected, huid, hstored, hother⟩ := hguard
          refine ⟨{ s with toGame := rest }.onLoadPlayer row, ?_, fun hplaced => hother ?_⟩
          · simp only [System.step, hgame]
            rw [if_pos ⟨hconnected, huid⟩]
            rfl
          · -- the quadtree still has the player where it was
            have hbefore := h.position (.inl hstored)
            have hafter : s.world.stored = [(mapIndex row.map, row.position)] :=
              hplaced.position (.inl hstored)
            rw [hbefore, List.cons.injEq, Prod.mk.injEq] at hafter
            exact ⟨hafter.1.1.symm, hafter.1.2.symm⟩
      · exact absurd trivial hguard

/-- In every state of a run the maps have the player only when it has been loaded, and where it is,
    exactly when the run keeps to the order of messages that the handlers rely on. -/
theorem placed_iff (credentials : Credentials) (position : Point) (map : UInt8)
    (activeUsers : List Int32) (ops : List Op) :
    (∀ before after s, ops = before ++ after →
      run System.step (System.connect credentials position map activeUsers) before = .ok s →
      Placed s) ↔
    Admissible System.step LoadedFirst (System.connect credentials position map activeUsers) ops :=
  forall_state_iff_admissible
    (fun _ _ _ (hinv : InWorld _) hguard hstep => hinv.step hguard hstep)
    (fun _ hinv => hinv.placed) (fun _ _ hinv hnot => not_placed_of_not_loadedFirst hinv hnot)
    (.connect credentials position map activeUsers)

/-- The tables, with the account of the login and its one player. -/
def playerAnswers : Answers where
  correctLogin := true
  correctPassword := true
  idaccount := 1
  secondary := some [49, 50, 51, 52, 53, 54, 55, 56]
  changed := 0
  duplicate := false
  count := 1
  row := some ⟨⟨258039, 259336⟩, 0⟩

/-- `C2S_START` sent right behind `C2S_LOADPLAYER`, and then the reply. -/
def earlyStart : List Op :=
  [.client (.request .login [97, 0, 98, 0, 99, 0]) fun _ => 0,
    .database playerAnswers fun _ => 0, .deliver, .deliver,
    .client (.request .loadPlayer [7, 0, 0, 0, 0, 0, 0, 0, 0, 0, 0, 0]) fun _ => 0,
    .client .start fun _ => 0, .deliver,
    .database playerAnswers fun _ => 0, .deliver]

theorem not_placed_earlyStart :
    ¬ ∀ (credentials : Credentials) (position : Point) (map : UInt8) (activeUsers : List Int32)
        (ops : List Op) (s : System),
      run System.step (System.connect credentials position map activeUsers) ops = .ok s →
      Placed s := by
  intro halways
  have hrun : run System.step (System.connect ⟨0, 5⟩ ⟨0, 0⟩ 0 []) earlyStart = .ok _ := rfl
  have hplaced := halways _ _ _ _ _ _ hrun
  exact absurd (hplaced.position (by decide +kernel)) (by decide +kernel)

end Bango.Session
