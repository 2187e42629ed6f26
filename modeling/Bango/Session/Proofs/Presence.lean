import Bango.Session.Proofs.Handlers
import Bango.Session.Proofs.InWorld

set_option autoImplicit false

/-! # The session as its handlers see it

The system of a session does to its roles and to `World::m_players` what the handlers do that the
game server calls for its messages. So whatever the DB server answers and whatever comes first, the
session is `INGAME` exactly while the world has its player. -/

namespace Bango.Session

open Bango.Account Bango.Lib Bango.Network

namespace World

variable {w : World} {k : Nat} {p p' : Space.Point}

theorem registered_mapMove : (w.mapMove k p p').1.registered = w.registered := by
  unfold mapMove quadRemove
  split
  next => rfl
  next removed hremoved =>
    have hsame : removed.registered = w.registered := by
      split at hremoved
      next =>
        split at hremoved
        next =>
          rw [← Option.some.inj hremoved]
        next => cases hremoved
      next => rw [← Option.some.inj hremoved]
    unfold quadInsert
    by_cases hinside : boundary.InBoundary p'
    · rw [if_pos hinside]
      exact hsame
    · rw [if_neg hinside]
      exact hsame

end World

/-! ## Messages as packets -/

namespace C2S

/-- The type of a message. -/
def protocol : C2S → Protocol
  | request .login _ => .login
  | request .secondLogin _ => .secondLogin
  | request .newPlayer _ => .newPlayer
  | request .delPlayer _ => .delPlayer
  | request .restorePlayer _ => .restorePlayer
  | request .loadPlayer _ => .loadPlayer
  | start => .start
  | restart _ => .restart
  | move .. => .moveOn

def handler : C2S → Handler
  | request .login _ => .onLogin
  | request .secondLogin _ => .onSecondaryLogin
  | request .newPlayer _ => .onNewPlayer
  | request .delPlayer _ => .onDeletePlayer
  | request .restorePlayer _ => .onRestorePlayer
  | request .loadPlayer _ => .onLoadPlayer
  | start => .onStart
  | restart _ => .onRestart
  | move .. => .onMove false

/-- A packet of the message's type, with what `OnRestart` reads. -/
def packet (message : C2S) : Packet :=
  let p := (Packet.new fun _ => 0).changeType message.protocol.type
  match message with
  | restart logout => p.push [logout]
  | request .. | start | move .. => p

theorem packet_type (message : C2S) : message.packet.type = message.protocol.type := by
  cases message <;> rfl

/-- The grant table of the server is that of the messages. -/
theorem gameServer_protocol (message : C2S) :
    gameServer message.protocol.type = some ⟨message.handler, {message.required}, ∅⟩ := by
  cases message with
  | request m payload => cases m <;> rfl
  | start => rfl
  | restart logout => rfl
  | move x y => rfl

theorem execute_packet (message : C2S) (roles : Roles) :
    gameServer.execute roles message.packet.type =
      if message.required ∈ roles then some message.handler else none := by
  unfold Callbacks.execute
  rw [packet_type, gameServer_protocol]
  simp [Authorized]

end C2S

namespace Presence

variable {p : Presence} {s s' : System}

/-- The session and the world as the handlers see them. -/
structure Follows (p : Presence) (s : System) : Prop where
  connected : p.connected = s.connected
  roles : p.roles = s.player.roles
  present : p.present = s.world.registered

namespace Follows

theorem assign (h : p.Follows s) (role : Role) : (p.assign role).Follows (s.assign role) :=
  ⟨h.connected, congrArg (Roles.assign · role) h.roles, h.present⟩

theorem deny (h : p.Follows s) (role : Role) : (p.deny role).Follows (s.deny role) :=
  ⟨h.connected, congrArg (Roles.deny · role) h.roles, h.present⟩

theorem write (h : p.Follows s) (message : S2D) : p.Follows (s.write message) :=
  ⟨h.connected, h.roles, h.present⟩

theorem onRequest (h : p.Follows s) (m : Request) (payload : List UInt8) (memory : Memory) :
    (p.handle (C2S.request m payload).handler (C2S.request m payload).packet).Follows
      (s.onRequest m payload memory) := by
  have hlogin := h.deny .canRequestPrimary
  have hsecondLogin := h.deny .canRequestSecondary
  have hloadPlayer := (h.assign .loading).deny .lobby
  unfold System.onRequest
  cases m with
  | login =>
      dsimp only
      split
      next => exact hlogin
      next => exact hlogin.write _
  | secondLogin =>
      dsimp only
      split
      next => exact hsecondLogin
      next => exact hsecondLogin.write _
  | loadPlayer =>
      dsimp only
      split
      next => exact hloadPlayer
      next => exact hloadPlayer.write _
  | newPlayer =>
      dsimp only
      split
      next => exact h
      next => exact h.write _
  | delPlayer =>
      dsimp only
      split
      next => exact h
      next => exact h.write _
  | restorePlayer =>
      dsimp only
      split
      next => exact h
      next => exact h.write _

theorem onStart (h : p.Follows s) : p.onStart.Follows s.onStart := by
  unfold Presence.onStart System.onStart System.worldAdd
  rw [h.present]
  by_cases hregistered : s.world.registered = true
  · rw [if_pos hregistered, if_pos hregistered]
    exact h
  · rw [if_neg hregistered, if_neg hregistered]
    have hroles : (p.roles.assign .ingame).deny .loading =
        (s.player.roles.assign .ingame).deny .loading := by
      rw [h.roles]
    refine ⟨h.connected, hroles, ?_⟩
    simp [Presence.assign, Presence.deny]

theorem onRestart (h : p.Follows s) (logout : UInt8) :
    (p.onRestart (C2S.restart logout).packet).Follows (s.onRestart logout) := by
  have hread : ((C2S.restart logout).packet.pop 1).1 = [logout] := rfl
  unfold Presence.onRestart System.onRestart System.worldRemove
  rw [hread, h.present]
  by_cases hlogout : logout = 1
  · subst hlogout
    exact h
  · rw [if_neg hlogout, if_neg fun heq => hlogout (List.head_eq_of_cons_eq heq)]
    cases hregistered : s.world.registered with
    | false => exact ⟨h.connected, h.roles, h.present.trans hregistered⟩
    | true => exact ⟨h.connected, congrArg (Roles.deny · .ingame) h.roles, rfl⟩

theorem handle (h : p.Follows s) (message : C2S) (memory : Memory) :
    (p.handle message.handler message.packet).Follows (s.handle message memory) := by
  cases message with
  | request m payload => exact h.onRequest m payload memory
  | start => exact h.onStart
  | restart logout => exact h.onRestart logout
  | move x y =>
      refine ⟨h.connected, h.roles, h.present.trans ?_⟩
      exact World.registered_mapMove.symm

theorem execute (h : p.Follows s) (message : C2S) (memory : Memory) :
    (p.execute message.packet).Follows (s.execute message memory) := by
  unfold Presence.execute System.execute
  rw [C2S.execute_packet, h.roles]
  by_cases hrequired : message.required ∈ s.player.roles
  · rw [if_pos hrequired, if_pos hrequired]
    have hcall : Follows ⟨p.connected, s.player.roles, p.present,
        (message.handler, s.player.roles) :: p.called⟩ s := ⟨h.connected, rfl, h.present⟩
    exact hcall.handle message memory
  · rw [if_neg hrequired, if_neg hrequired]
    exact h

theorem onReply (h : p.Follows s) (reply : D2S) : (p.onReply reply).Follows (s.onReply reply) := by
  cases reply with
  | login uid answer => exact h.assign _
  | secLogin uid => exact h.assign _
  | authorized uid aid =>
      have hassign := h.assign .authorized
      exact ⟨hassign.connected, hassign.roles, hassign.present⟩
  | playerInfo uid => exact h.assign _
  | loadPlayer uid row =>
      cases row with
      | none => exact h
      | some row => exact ⟨h.connected, h.roles, h.present⟩
  | _ => exact h

theorem onDisconnected (h : p.Follows s) : p.onDisconnected.Follows s.onDisconnected := by
  have hwrite (t : System) (q : Presence) (ht : q.Follows t) :
      q.Follows (if .authorized ∈ t.player.roles then
        t.write (.disconnect t.player.credentials.aid) else t) := by
    split
    · exact ht.write _
    · exact ht
  unfold Presence.onDisconnected System.onDisconnected
  rw [h.roles, h.present]
  by_cases hingame : .ingame ∈ s.player.roles
  · rw [if_pos hingame, if_pos hingame]
    unfold System.worldRemove
    cases hregistered : s.world.registered with
    | false =>
        rw [if_neg Bool.false_ne_true]
        exact ⟨h.connected, h.roles, h.present.trans hregistered⟩
    | true =>
        rw [if_pos rfl]
        exact hwrite _ _ ⟨rfl, rfl, rfl⟩
  · rw [if_neg hingame, if_neg hingame]
    exact hwrite _ _ ⟨rfl, rfl, rfl⟩

/-- What the system does in a step, the handlers do. -/
theorem step {op : Op} (h : p.Follows s) (hstep : s.step op = .ok s') :
    ∃ events p', run Presence.step p events = .ok p' ∧ p'.Follows s' := by
  cases op with
  | client message memory =>
      unfold System.step at hstep
      dsimp only at hstep
      split at hstep
      next hready =>
        refine ⟨[.message message.packet], p.execute message.packet, ?_, ?_⟩
        · exact run_singleton.2 (if_pos (h.connected.trans hready.1))
        · rw [← Except.ok.inj hstep]
          exact h.execute message memory
      next => cases hstep
  | disconnect =>
      unfold System.step at hstep
      dsimp only at hstep
      split at hstep
      next hconnected =>
        refine ⟨[.disconnect], p.onDisconnected, ?_, ?_⟩
        · exact run_singleton.2 (if_pos (h.connected.trans hconnected))
        · rw [← Except.ok.inj hstep]
          exact h.onDisconnected
      next => cases hstep
  | database answers memory =>
      refine ⟨[], p, rfl, ?_⟩
      unfold System.step at hstep
      dsimp only at hstep
      split at hstep
      next => cases hstep
      next =>
        rw [← Except.ok.inj hstep]
        exact ⟨h.connected, h.roles, h.present⟩
  | deliver =>
      unfold System.step at hstep
      dsimp only at hstep
      split at hstep
      next => cases hstep
      next reply rest hrest =>
        have hpopped : p.Follows { s with toGame := rest } := ⟨h.connected, h.roles, h.present⟩
        rw [← Except.ok.inj hstep]
        split
        next hfound =>
          refine ⟨[.reply reply], p.onReply reply, ?_, hpopped.onReply reply⟩
          exact run_singleton.2 (congrArg Except.ok (if_pos (h.connected.trans hfound.1)))
        next => exact ⟨[], p, rfl, hpopped⟩

end Follows

theorem IngameIff.run {events : List Event} {p' : Presence} (h : p.IngameIff)
    (hrun : Lib.run Presence.step p events = .ok p') : p'.IngameIff :=
  run_preserves (fun _ _ _ hp => hp.step) h hrun

end Presence

/-- After any run of the system, the session is connected and `INGAME` exactly when the world has its
    player. -/
theorem System.run_ingame_iff {credentials : Credentials} {position : Space.Point} {map : UInt8}
    {activeUsers : List Int32} {ops : List Op} {s : System}
    (hrun : run System.step (System.connect credentials position map activeUsers) ops = .ok s) :
    s.connected ∧ .ingame ∈ s.player.roles ↔ s.world.registered := by
  have hkept : ∀ (t : System) (op : Op) (t' : System), (∃ p : Presence, p.Follows t ∧ p.IngameIff) →
      t.step op = .ok t' → ∃ p : Presence, p.Follows t' ∧ p.IngameIff := by
    intro t op t' ⟨p, hfollows, hingame⟩ hstep
    obtain ⟨events, p', hevents, hfollows'⟩ := hfollows.step hstep
    exact ⟨p', hfollows', hingame.run hevents⟩
  obtain ⟨p, hfollows, hingame⟩ := run_preserves hkept
    ⟨Presence.fresh, ⟨rfl, rfl, rfl⟩, Presence.fresh_ingameIff⟩ hrun
  rw [← hfollows.connected, ← hfollows.roles, ← hfollows.present]
  exact hingame

end Bango.Session
