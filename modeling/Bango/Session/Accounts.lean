import Bango.Lib.Keyed
import Bango.Session.System

set_option autoImplicit false

/-! # All sessions and the active accounts

The sessions of the game server, as far as logging in goes, with the DB server's `m_active_users` and
the messages in flight on the two links. The end of a connection is two steps: `OnDisconnected` is
called first, and the session leaves the game server's list later. -/

namespace Bango.Session

open Bango.Lib

/-- What the game server writes to the DB server. -/
inductive LoginS2D where
  /-- `S2D_LOGIN`: the strings of the client and the session's id -/
  | login (login passwd mac : List UInt8) (uid : UInt32)
  | disconnect (aid : Int32)
deriving DecidableEq, Repr

/-- A session of the game server. -/
structure Connection where
  uid : UInt32
  aid : Int32
  roles : Roles
  /-- `OnDisconnected` has been called. -/
  leaving : Bool
deriving DecidableEq

namespace Connection

variable (c : Connection)

def assign (role : Role) : Connection := { c with roles := c.roles.assign role }

def deny (role : Role) : Connection := { c with roles := c.roles.deny role }

/-- The handlers of `DBListener`, for the session they are for. -/
def onReply (reply : D2S) : Connection :=
  match reply with
  | .login _ _ | .secLogin _ => c.assign .canRequestSecondary
  | .authorized _ aid => { c.assign .authorized with aid }
  | .playerInfo _ => c.assign .lobby
  | .loadPlayer _ _ | .delPlayerInfo _ | .ansNewPlayer _ | .loadItems _ | .skillInfo _ => c

/-- The session is connected and `AUTHORIZED` for an account. -/
def AuthorizedFor (aid : Int32) : Prop :=
  c.leaving = false ∧ .authorized ∈ c.roles ∧ c.aid = aid

instance (aid : Int32) : Decidable (c.AuthorizedFor aid) :=
  inferInstanceAs (Decidable (_ ∧ _ ∧ _))

end Connection

/-- The two servers and their links. -/
structure Servers where
  /-- `g_max_uid` -/
  maxUid : Nat
  /-- `m_sessions` -/
  sessions : List Connection
  /-- `m_active_users` -/
  activeUsers : List Int32
  toDb : List LoginS2D
  toGame : List D2S
deriving DecidableEq

namespace Servers

/-- Both servers have just started. -/
def start : Servers := ⟨0, [], [], [], []⟩

variable (s : Servers)

/-- `server::start` for a new client, with `User::User` and `OnConnected`. The account id is not
    initialised. -/
def connect (aid : Int32) : Servers :=
  { s with
    maxUid := s.maxUid + 1
    sessions := s.sessions ++ [⟨UInt32.ofNat s.maxUid, aid, {.canRequestPrimary}, false⟩] }

/-- `server::execute` of a `C2S_LOGIN`, with `User::OnLogin`. -/
def onLogin (c : Connection) (login passwd mac : List UInt8) : Servers :=
  if .canRequestPrimary ∈ c.roles then
    { s with
      sessions := updateKey (·.uid) c.uid (·.deny .canRequestPrimary) s.sessions
      toDb := s.toDb ++ [.login login passwd mac c.uid] }
  else s

/-- `Player::OnDisconnected` of a player that is not in game. -/
def onDisconnected (c : Connection) : Servers :=
  { s with
    sessions := updateKey (·.uid) c.uid (fun c => { c with leaving := true }) s.sessions
    toDb := if .authorized ∈ c.roles then s.toDb ++ [.disconnect c.aid] else s.toDb }

/-- The DB server handles a message: its replies, and the active users. -/
def serve (activeUsers : List Int32) (answers : Answers) : LoginS2D → List D2S × List Int32
  | .login _ _ _ uid => Session.login activeUsers answers uid
  | .disconnect aid => ([], activeUsers.erase aid)

/-- What happens next. -/
inductive Op where
  /-- a client connects; its uninitialised account id -/
  | connect (aid : Int32)
  /-- `C2S_LOGIN` -/
  | login (uid : UInt32) (login passwd mac : List UInt8)
  | disconnect (uid : UInt32)
  /-- The session leaves the game server's list. -/
  | forget (uid : UInt32)
  /-- The DB server handles the next message; what it finds in the tables. -/
  | database (answers : Answers)
  /-- The game server handles the next reply. -/
  | deliver

/-- One step. Session ids do not repeat, and only connected sessions send and disconnect. -/
def step : Op → Except Idle Servers
  | .connect aid => if s.maxUid < 2 ^ 32 then .ok (s.connect aid) else .error .idle
  | .login uid login passwd mac =>
    match findKey (·.uid) uid s.sessions with
    | none => .error .idle
    | some c => if c.leaving then .error .idle else .ok (s.onLogin c login passwd mac)
  | .disconnect uid =>
    match findKey (·.uid) uid s.sessions with
    | none => .error .idle
    | some c => if c.leaving then .error .idle else .ok (s.onDisconnected c)
  | .forget uid =>
    match findKey (·.uid) uid s.sessions with
    | none => .error .idle
    | some c =>
      if c.leaving then .ok { s with sessions := eraseKey (·.uid) uid s.sessions }
      else .error .idle
  | .database answers =>
    match s.toDb with
    | [] => .error .idle
    | message :: rest =>
      let (replies, activeUsers) := serve s.activeUsers answers message
      .ok { s with activeUsers, toDb := rest, toGame := s.toGame ++ replies }
  | .deliver =>
    match s.toGame with
    | [] => .error .idle
    | reply :: rest =>
      .ok { s with
        sessions := updateKey (·.uid) reply.uid (·.onReply reply) s.sessions
        toGame := rest }

/-- An account is active only while a connected session is authorized for it, or a message that grants
    or releases it is in flight. -/
def Released (aid : Int32) : Prop :=
  (∀ c ∈ s.sessions, ¬ c.AuthorizedFor aid) → (∀ uid, .authorized uid aid ∉ s.toGame) →
    .disconnect aid ∉ s.toDb → aid ∉ s.activeUsers

/-- Each `D2S_AUTHORIZED` finds its session connected. -/
def Delivered : Op → Prop
  | .deliver =>
    match s.toGame with
    | .authorized uid _ :: _ => ∃ c ∈ s.sessions, c.uid = uid ∧ c.leaving = false
    | _ => True
  | _ => True

instance (o : Op) : Decidable (s.Delivered o) := by
  unfold Delivered
  split
  · split <;> infer_instance
  · infer_instance

end Servers

end Bango.Session
