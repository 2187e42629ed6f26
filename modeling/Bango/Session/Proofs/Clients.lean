import Bango.Session.Passwords
import Bango.Session.Proofs.Presence

set_option autoImplicit false

/-! # One session among all

The session that is modelled with its world and the sessions that are modelled side by side have the
same handlers: what a step of the system does to its session and writes to the DB server is what the
handler of a `Client` does. -/

namespace Bango.Session

open Bango.Account Bango.Lib Bango.Network

/-- What a step of the system is for its session, with what is written to the DB server. -/
def Client.next (c : Client) (toGame : List D2S) : Op → Client × List S2D
  | .client message memory => c.execute message memory
  | .disconnect => c.onDisconnected
  | .database .. => (c, [])
  | .deliver =>
    match toGame with
    | [] => (c, [])
    | reply :: _ => (if c.leaving = false ∧ reply.uid = c.uid then c.onReply reply else c, [])

namespace System

/-- The session as one of many. -/
def client (s : System) : Client where
  uid := s.player.credentials.uid
  aid := s.player.credentials.aid
  roles := s.player.roles
  leaving := !s.connected
  inWorld := s.world.registered

variable {s s' : System}

/-- The session and the messages to the DB server after a handler. -/
structure Does (s s' : System) (result : Client × List S2D) : Prop where
  client : s'.client = result.1
  toDb : s'.toDb = s.toDb ++ result.2

theorem Does.silent (h : s'.client = s.client) (hmessages : s'.toDb = s.toDb) :
    s.Does s' (s.client, []) :=
  ⟨h, by rw [hmessages, List.append_nil]⟩

theorem does_onRequest (m : Request) (payload : List UInt8) (memory : Memory) :
    s.Does (s.onRequest m payload memory) (s.client.onRequest m payload memory) := by
  have hcredentials : s.player.credentials = ⟨s.client.aid, s.client.uid⟩ := rfl
  unfold onRequest Client.onRequest
  rw [← hcredentials]
  cases hbytes : forwarded m s.player.credentials memory payload with
  | none =>
      cases m <;> simp only [assign, deny, hbytes] <;> exact ⟨rfl, (List.append_nil _).symm⟩
  | some bytes => cases m <;> simp only [assign, deny, hbytes] <;> exact ⟨rfl, rfl⟩

theorem does_onStart : s.Does s.onStart (s.client.onStart, []) := by
  unfold onStart worldAdd Client.onStart
  have hin : s.client.inWorld = s.world.registered := rfl
  rw [hin]
  by_cases hregistered : s.world.registered = true
  · rw [if_pos hregistered, if_pos hregistered]
    exact .silent rfl rfl
  · rw [if_neg hregistered, if_neg hregistered]
    exact ⟨by simp [client, assign, deny, Client.assign, Client.deny, Connection.assign,
      Connection.deny], (List.append_nil _).symm⟩

theorem does_onRestart (logout : UInt8) : s.Does (s.onRestart logout) (s.client.onRestart logout) := by
  unfold onRestart worldRemove Client.onRestart
  have hin : s.client.inWorld = s.world.registered := rfl
  by_cases hlogout : logout = 1
  · rw [if_pos hlogout, if_pos hlogout]
    exact .silent rfl rfl
  · rw [if_neg hlogout, if_neg hlogout, hin]
    cases hregistered : s.world.registered with
    | false =>
        rw [if_neg Bool.false_ne_true]
        exact .silent (by simp [client, hregistered]) rfl
    | true =>
        rw [if_pos rfl]
        exact ⟨rfl, rfl⟩

theorem does_execute (message : C2S) (memory : Memory) :
    s.Does (s.execute message memory) (s.client.execute message memory) := by
  unfold execute Client.execute
  have hroles : s.client.roles = s.player.roles := rfl
  rw [hroles]
  by_cases hrole : message.required ∈ s.player.roles
  · rw [if_pos hrole, if_pos hrole]
    cases message with
    | request m payload => exact does_onRequest m payload memory
    | start => exact does_onStart
    | restart logout => exact does_onRestart logout
    | move x y =>
        refine .silent ?_ rfl
        simp [handle, onMove, client, World.registered_mapMove]
  · rw [if_neg hrole, if_neg hrole]
    exact .silent rfl rfl

theorem client_onReply (reply : D2S) : (s.onReply reply).client = s.client.onReply reply := by
  cases reply with
  | loadPlayer uid row => cases row <;> rfl
  | login | authorized | secLogin | playerInfo | delPlayerInfo | ansNewPlayer | loadItems
  | skillInfo => rfl

theorem toDb_onReply (reply : D2S) : (s.onReply reply).toDb = s.toDb := by
  cases reply with
  | loadPlayer uid row => cases row <;> rfl
  | login | authorized | secLogin | playerInfo | delPlayerInfo | ansNewPlayer | loadItems
  | skillInfo => rfl

/-- The session is not in the world when it is not in the game, as `OnDisconnected` takes it to be. -/
theorem does_onDisconnected (h : .ingame ∉ s.player.roles → s.world.registered = false) :
    s.Does s.onDisconnected s.client.onDisconnected := by
  have hleaves : ∀ t : System, t.player = s.player → t.toDb = s.toDb → t.world.registered = false →
      s.Does
        (if .authorized ∈ t.player.roles then
          { t with connected := false }.write (.disconnect t.player.credentials.aid)
        else { t with connected := false })
        ({ s.client with inWorld := false, leaving := true },
          if .authorized ∈ s.client.roles then [.disconnect s.client.aid] else []) := by
    intro t hplayer hmessages hregistered
    have hroles : s.client.roles = s.player.roles := rfl
    rw [hplayer, hroles]
    by_cases hauthorized : .authorized ∈ s.player.roles
    · rw [if_pos hauthorized, if_pos hauthorized]
      refine ⟨?_, congrArg (· ++ [S2D.disconnect s.player.credentials.aid]) hmessages⟩
      simp [client, write, hregistered]
    · rw [if_neg hauthorized, if_neg hauthorized]
      refine ⟨?_, by rw [hmessages, List.append_nil]⟩
      simp [client, hregistered]
  unfold onDisconnected Client.onDisconnected
  have hroles : s.client.roles = s.player.roles := rfl
  have hin : s.client.inWorld = s.world.registered := rfl
  rw [hroles, hin]
  by_cases hingame : .ingame ∈ s.player.roles
  · have hremove : s.worldRemove = (s.worldRemove.1, s.world.registered) := rfl
    rw [if_pos hingame, hremove]
    dsimp only
    by_cases hregistered : s.world.registered = true
    · have hstays : ¬ (.ingame ∈ s.player.roles ∧ ¬ s.world.registered = true) :=
        fun hand => hand.2 hregistered
      rw [if_pos hregistered, if_neg hstays]
      exact hleaves s.worldRemove.1 rfl rfl rfl
    · rw [if_neg hregistered, if_pos ⟨hingame, hregistered⟩]
      exact .silent (by simp [client, worldRemove, hregistered]) rfl
  · rw [if_neg hingame, if_neg fun hand => hingame hand.1]
    exact hleaves s rfl rfl (h hingame)

/-- What is left of the messages to the DB server when the next one is taken. -/
def unhandled (s : System) : Op → List S2D
  | .database .. => s.toDb.tail
  | .client .. | .disconnect | .deliver => s.toDb

/-- Along every run, a step does to the session and writes to the DB server what the handler of one
    session among many does. -/
theorem run_client {credentials : Credentials} {position : Space.Point} {map : UInt8}
    {activeUsers : List Int32} {ops : List Op} {op : Op}
    (hrun : run System.step (System.connect credentials position map activeUsers) ops = .ok s)
    (hstep : s.step op = .ok s') :
    s'.client = (s.client.next s.toGame op).1 ∧
      s'.toDb = s.unhandled op ++ (s.client.next s.toGame op).2 := by
  have hingame := run_ingame_iff hrun
  cases op with
  | client message memory =>
      unfold step at hstep
      dsimp only at hstep
      split_ifs at hstep
      cases hstep
      obtain ⟨hclient, htoDb⟩ := s.does_execute message memory
      exact ⟨hclient, htoDb⟩
  | disconnect =>
      unfold step at hstep
      dsimp only at hstep
      split_ifs at hstep with hconnected
      cases hstep
      have hregistered : .ingame ∉ s.player.roles → s.world.registered = false := by
        intro hnot
        by_contra hin
        exact hnot (hingame.2 (Bool.eq_true_of_not_eq_false hin)).2
      obtain ⟨hclient, htoDb⟩ := s.does_onDisconnected hregistered
      exact ⟨hclient, htoDb⟩
  | database answers memory =>
      unfold step at hstep
      dsimp only at hstep
      split at hstep
      next => cases hstep
      next message rest hrest =>
        cases hstep
        refine ⟨rfl, ?_⟩
        simp [unhandled, Client.next, hrest]
  | deliver =>
      unfold step at hstep
      dsimp only at hstep
      split at hstep
      next => cases hstep
      next reply rest hrest =>
        cases hstep
        have hfound : (s.client.leaving = false ∧ reply.uid = s.client.uid) ↔
            (s.connected ∧ reply.uid = s.player.credentials.uid) := by
          simp [client]
        simp only [Client.next, hrest, hfound, unhandled, List.append_nil]
        split_ifs
        · exact ⟨client_onReply reply, toDb_onReply reply⟩
        · exact ⟨rfl, rfl⟩

end System

end Bango.Session
