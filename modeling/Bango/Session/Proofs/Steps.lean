import Bango.Account.Proofs.Relay
import Bango.Session.System

set_option autoImplicit false

/-! # What a step of the session can do

The four kinds of steps taken apart, and what the handlers of the game server leave alone. -/

namespace Bango.Session

open Bango.Lib Bango.Network Bango.Account Bango.Space

/-- The role that a reply gives. -/
def D2S.granted : D2S → Option Role
  | login .. | secLogin _ => some .canRequestSecondary
  | authorized .. => some .authorized
  | playerInfo _ => some .lobby
  | delPlayerInfo _ | ansNewPlayer _ | loadPlayer .. | loadItems _ | skillInfo _ => none

namespace System

variable {s s' : System} {role role' : Role}

/-! ## Steps -/

theorem step_client {message : C2S} {memory : Memory}
    (h : s.step (.client message memory) = .ok s') :
    s.connected ∧ message.Sendable ∧ s' = s.execute message memory := by
  simp only [step] at h
  split_ifs at h with hready
  exact ⟨hready.1, hready.2, (Except.ok.inj h).symm⟩

theorem step_disconnect (h : s.step .disconnect = .ok s') :
    s.connected ∧ s' = s.onDisconnected := by
  simp only [step] at h
  split_ifs at h with hconnected
  exact ⟨hconnected, (Except.ok.inj h).symm⟩

theorem step_database {answers : Answers} {memory : Memory}
    (h : s.step (.database answers memory) = .ok s') :
    ∃ message rest, s.toDb = message :: rest ∧
      s' = { s with
        activeUsers := (serve s.activeUsers answers memory message).2
        toDb := rest
        toGame := s.toGame ++ (serve s.activeUsers answers memory message).1 } := by
  simp only [step] at h
  cases hdb : s.toDb with
  | nil =>
      rw [hdb] at h
      cases h
  | cons message rest =>
      rw [hdb] at h
      exact ⟨message, rest, rfl, (Except.ok.inj h).symm⟩

theorem step_deliver (h : s.step .deliver = .ok s') :
    ∃ reply rest, s.toGame = reply :: rest ∧
      s' = if s.connected ∧ reply.uid = s.player.credentials.uid then
        { s with toGame := rest }.onReply reply else { s with toGame := rest } := by
  simp only [step] at h
  cases hgame : s.toGame with
  | nil =>
      rw [hgame] at h
      cases h
  | cons reply rest =>
      rw [hgame] at h
      exact ⟨reply, rest, rfl, (Except.ok.inj h).symm⟩

/-! ## Roles -/

@[simp]
theorem mem_roles_assign : role' ∈ (s.assign role).player.roles ↔
    role' = role ∨ role' ∈ s.player.roles := Finset.mem_insert

@[simp]
theorem mem_roles_deny : role' ∈ (s.deny role).player.roles ↔
    role' ≠ role ∧ role' ∈ s.player.roles := Finset.mem_erase

@[simp] theorem world_assign : (s.assign role).world = s.world := rfl
@[simp] theorem world_deny : (s.deny role).world = s.world := rfl
@[simp] theorem credentials_assign :
    (s.assign role).player.credentials = s.player.credentials := rfl
@[simp] theorem credentials_deny : (s.deny role).player.credentials = s.player.credentials := rfl
@[simp] theorem connected_assign : (s.assign role).connected = s.connected := rfl
@[simp] theorem connected_deny : (s.deny role).connected = s.connected := rfl
@[simp] theorem position_assign : (s.assign role).player.position = s.player.position := rfl
@[simp] theorem position_deny : (s.deny role).player.position = s.player.position := rfl
@[simp] theorem map_assign : (s.assign role).player.map = s.player.map := rfl
@[simp] theorem map_deny : (s.deny role).player.map = s.player.map := rfl
@[simp] theorem loaded_assign : (s.assign role).loaded = s.loaded := rfl
@[simp] theorem loaded_deny : (s.deny role).loaded = s.loaded := rfl
@[simp] theorem toDb_assign : (s.assign role).toDb = s.toDb := rfl
@[simp] theorem toDb_deny : (s.deny role).toDb = s.toDb := rfl
@[simp] theorem toDb_write (message : S2D) : (s.write message).toDb = s.toDb ++ [message] := rfl

/-! ## Handlers -/

/-- The connection, the session's credentials and the replies in flight are the same. -/
structure SameLink (s s' : System) : Prop where
  connected : s'.connected = s.connected
  credentials : s'.player.credentials = s.player.credentials
  toGame : s'.toGame = s.toGame

namespace SameLink

theorem refl (s : System) : SameLink s s := ⟨rfl, rfl, rfl⟩
theorem assign (s : System) (role : Role) : SameLink s (s.assign role) := ⟨rfl, rfl, rfl⟩
theorem deny (s : System) (role : Role) : SameLink s (s.deny role) := ⟨rfl, rfl, rfl⟩
theorem write (s : System) (message : S2D) : SameLink s (s.write message) := ⟨rfl, rfl, rfl⟩

theorem trans {s s' s'' : System} (h : SameLink s s') (h' : SameLink s' s'') : SameLink s s'' :=
  ⟨h'.connected.trans h.connected, h'.credentials.trans h.credentials, h'.toGame.trans h.toGame⟩

end SameLink

theorem SameLink.onRequest (s : System) (m : Request) (payload : List UInt8) (memory : Memory) :
    SameLink s (s.onRequest m payload memory) := by
  unfold System.onRequest
  cases m <;> simp only <;> split <;> exact ⟨rfl, rfl, rfl⟩

theorem SameLink.onStart (s : System) : SameLink s s.onStart := by
  unfold System.onStart worldAdd
  by_cases hregistered : s.world.registered
  · simp only [if_pos hregistered]
    exact .refl s
  · simp only [if_neg hregistered]
    exact ⟨rfl, rfl, rfl⟩

theorem SameLink.onRestart (s : System) (logout : UInt8) : SameLink s (s.onRestart logout) := by
  unfold System.onRestart worldRemove
  by_cases hlogout : logout = 1
  · rw [if_pos hlogout]
    exact .refl s
  · rw [if_neg hlogout]
    cases s.world.registered <;> exact ⟨rfl, rfl, rfl⟩

theorem SameLink.handle (s : System) (message : C2S) (memory : Memory) :
    SameLink s (s.handle message memory) := by
  cases message with
  | request m payload => exact .onRequest s m payload memory
  | start => exact .onStart s
  | restart logout => exact .onRestart s logout
  | move x y => exact ⟨rfl, rfl, rfl⟩

/-- The roles after a handler. -/
theorem mem_roles_handle {message : C2S} {memory : Memory} :
    role ∈ (s.handle message memory).player.roles →
      role ∈ s.player.roles ∨ role = .loading ∧ (∃ payload, message = .request .loadPlayer payload) ∨
        role = .ingame ∧ message = .start := by
  intro hrole
  cases message with
  | request m payload =>
      simp only [handle, onRequest] at hrole
      cases m with
      | loadPlayer =>
          -- written or not, the request leaves the roles as the handler set them
          have hroles : role ∈ ((s.assign .loading).deny .lobby).player.roles := by
            split at hrole <;> exact hrole
          rw [mem_roles_deny, mem_roles_assign] at hroles
          rcases hroles.2 with rfl | hroles
          · exact .inr (.inl ⟨rfl, payload, rfl⟩)
          · exact .inl hroles
      | login =>
          have hroles : role ∈ (s.deny .canRequestPrimary).player.roles := by
            split at hrole <;> exact hrole
          exact .inl (mem_roles_deny.1 hroles).2
      | secondLogin =>
          have hroles : role ∈ (s.deny .canRequestSecondary).player.roles := by
            split at hrole <;> exact hrole
          exact .inl (mem_roles_deny.1 hroles).2
      | newPlayer | delPlayer | restorePlayer =>
          refine .inl ?_
          split at hrole <;> exact hrole
  | start =>
      simp only [handle, onStart, worldAdd] at hrole
      by_cases hregistered : s.world.registered
      · simp only [if_pos hregistered] at hrole
        exact .inl hrole
      · simp only [if_neg hregistered, mem_roles_deny, mem_roles_assign] at hrole
        rcases hrole.2 with rfl | hroles
        · exact .inr (.inr ⟨rfl, rfl⟩)
        · exact .inl hroles
  | restart logout =>
      refine .inl ?_
      simp only [handle, onRestart, worldRemove] at hrole
      split_ifs at hrole with hlogout
      · exact hrole
      · cases hregistered : s.world.registered with
        | false =>
            simp only [hregistered] at hrole
            exact hrole
        | true =>
            simp only [hregistered] at hrole
            exact (mem_roles_deny.1 hrole).2
  | move x y => exact .inl hrole

/-- The requests after a handler: those before, a forwarded message, or the restart of a player that
    was in the game. -/
theorem mem_toDb_handle {message : C2S} {memory : Memory} {m : S2D}
    (h : m ∈ (s.handle message memory).toDb) :
    m ∈ s.toDb ∨
      (∃ r payload bytes, message = .request r payload ∧
        forwarded r s.player.credentials memory payload = some bytes ∧ m = .forwarded bytes) ∨
      (∃ logout uid aid, message = .restart logout ∧ m = .restart uid aid) := by
  cases message with
  | request r payload =>
      simp only [handle, onRequest] at h
      cases hbytes : forwarded r s.player.credentials memory payload with
      | none =>
          refine .inl ?_
          cases r <;> simp only [credentials_deny, credentials_assign, hbytes] at h <;> exact h
      | some bytes =>
          -- each handler writes the message it has forwarded, and nothing else
          have hmem : m ∈ s.toDb ++ [.forwarded bytes] := by
            cases r <;> simp only [credentials_deny, credentials_assign, hbytes] at h <;> exact h
          rcases List.mem_append.1 hmem with hmem | hmem
          · exact .inl hmem
          · exact .inr (.inl ⟨r, payload, bytes, rfl, hbytes, List.mem_singleton.1 hmem⟩)
  | start =>
      refine .inl ?_
      simp only [handle, onStart, worldAdd] at h
      split_ifs at h <;> exact h
  | restart logout =>
      simp only [handle, onRestart, worldRemove] at h
      split_ifs at h with hlogout
      · exact .inl h
      · cases hregistered : s.world.registered with
        | false =>
            simp only [hregistered] at h
            exact .inl h
        | true =>
            simp only [hregistered, toDb_write] at h
            rcases List.mem_append.1 h with hmem | hmem
            · exact .inl hmem
            · exact .inr (.inr ⟨logout, _, _, rfl, List.mem_singleton.1 hmem⟩)
  | move x y => exact .inl h

/-- Nothing the client sends takes away that the session is authorized. -/
theorem authorized_handle (message : C2S) (memory : Memory)
    (h : .authorized ∈ s.player.roles) : .authorized ∈ (s.handle message memory).player.roles := by
  cases message with
  | request m payload =>
      simp only [handle, onRequest]
      cases m <;> simp only <;> split <;>
        simp only [write, mem_roles_deny, mem_roles_assign, h] <;> decide
  | start =>
      simp only [handle, onStart, worldAdd]
      split_ifs
      · exact h
      · simp only [mem_roles_deny, mem_roles_assign, h]
        decide
  | restart logout =>
      simp only [handle, onRestart, worldRemove]
      split_ifs
      · exact h
      · cases s.world.registered
        · exact h
        · exact mem_roles_deny.2 ⟨by decide, h⟩
  | move x y => exact h

/-! ## The end of the connection -/

/-- The session's roles, its credentials and the replies in flight stay, and the DB server is told at
    most that the account has left. -/
theorem onDisconnected_spec :
    s.onDisconnected.player = s.player ∧ s.onDisconnected.toGame = s.toGame ∧
      (s.onDisconnected.connected → s.connected) ∧
      ∀ m ∈ s.onDisconnected.toDb, m ∈ s.toDb ∨ ∃ aid, m = .disconnect aid := by
  -- the last statement of the handler, on either path to it
  have hwrite : ∀ t : System, t.player = s.player → t.toGame = s.toGame → t.toDb = s.toDb →
      t.connected = false →
      let t' := if .authorized ∈ t.player.roles then
        t.write (.disconnect t.player.credentials.aid) else t
      t'.player = s.player ∧ t'.toGame = s.toGame ∧ (t'.connected → s.connected) ∧
        ∀ m ∈ t'.toDb, m ∈ s.toDb ∨ ∃ aid, m = .disconnect aid := by
    intro t hplayer hgame hdb hconnected
    simp only
    split_ifs
    · refine ⟨hplayer, hgame, fun h => absurd (hconnected.symm.trans h) (by decide), fun m hm => ?_⟩
      rcases List.mem_append.1 hm with hm | hm
      · exact .inl (hdb ▸ hm)
      · exact .inr ⟨_, List.mem_singleton.1 hm⟩
    · exact ⟨hplayer, hgame, fun h => absurd (hconnected.symm.trans h) (by decide),
        fun m hm => .inl (hdb ▸ hm)⟩
  unfold onDisconnected
  by_cases hingame : .ingame ∈ s.player.roles
  · simp only [if_pos hingame]
    cases hpresent : s.worldRemove.2 with
    | true =>
        simp only [if_true]
        exact hwrite { s.worldRemove.1 with connected := false } rfl rfl rfl rfl
    | false =>
        simp only [Bool.false_eq_true, if_false]
        exact ⟨rfl, rfl, id, fun m hm => .inl hm⟩
  · simp only [if_neg hingame, if_true]
    exact hwrite { s with connected := false } rfl rfl rfl rfl

/-! ## Replies -/

theorem mem_roles_onReply {reply : D2S} :
    role ∈ (s.onReply reply).player.roles ↔ reply.granted = some role ∨ role ∈ s.player.roles := by
  cases reply with
  | loadPlayer uid row => cases row <;> simp [onReply, onLoadPlayer, D2S.granted]
  | authorized uid aid =>
      show role ∈ (s.assign .authorized).player.roles ↔ _
      rw [mem_roles_assign]
      simp [D2S.granted, eq_comm]
  | _ => simp [onReply, D2S.granted, eq_comm]

theorem onReply_spec (reply : D2S) :
    (s.onReply reply).connected = s.connected ∧ (s.onReply reply).toGame = s.toGame ∧
      (s.onReply reply).toDb = s.toDb ∧
      (s.onReply reply).player.credentials.uid = s.player.credentials.uid := by
  cases reply with
  | loadPlayer uid row => cases row <;> exact ⟨rfl, rfl, rfl, rfl⟩
  | _ => exact ⟨rfl, rfl, rfl, rfl⟩

end System

end Bango.Session
