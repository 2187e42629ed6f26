import Bango.Network.Callbacks
import Bango.Session.System

set_option autoImplicit false

/-! # The handlers of the game server

Every message type that `main` registers, with its handler and the role it grants for it. A session
is followed as far as its roles and `World::m_players` go: of the handlers only those of `User`,
`OnStart` and `OnRestart` change them. -/

namespace Bango.Session

open Bango.Account Bango.Lib Bango.Network

/-! ## Registration -/

/-- `C2S_PROTOCOL`, as far as it is handled. -/
inductive Protocol where
  | connect | ansCode | login | secondLogin | newPlayer | delPlayer | restorePlayer | loadPlayer
  | start | restart | gameExit | moveOn | moveEnd | chatting | putOnItem | putOffItem | useItem
  | trashItem | rest | teleport | updateProperty | playerAnimation | attack | askParty | ansAskParty
  | exileParty | leaveParty | pickUpItem | skillUp | learnSkill | skill | preSkill
deriving DecidableEq, Repr

def Protocol.type : Protocol → UInt8
  | connect => 9
  | ansCode => 4
  | login => 8
  | secondLogin => 10
  | newPlayer => 6
  | delPlayer => 3
  | restorePlayer => 7
  | loadPlayer => 5
  | start => 14
  | restart => 141
  | gameExit => 56
  | moveOn => 95
  | moveEnd => 147
  | chatting => 42
  | putOnItem => 101
  | putOffItem => 58
  | useItem => 65
  | trashItem => 98
  | rest => 49
  | teleport => 122
  | updateProperty => 160
  | playerAnimation => 47
  | attack => 17
  | askParty => 91
  | ansAskParty => 18
  | exileParty => 171
  | leaveParty => 89
  | pickUpItem => 175
  | skillUp => 174
  | learnSkill => 62
  | skill => 118
  | preSkill => 82

/-- The member functions of `User` and `Player` that are registered. -/
inductive Handler where
  | onConnect | onCodeAnswer | onLogin | onSecondaryLogin | onNewPlayer | onDeletePlayer
  | onRestorePlayer | onLoadPlayer | onStart | onRestart | onExit
  | onMove (stop : Bool)
  | onChatting | onPutOnItem | onPutOffItem | onUseItem | onTrashItem | onRest | onTeleportAnswer
  | onUpdateProperty | onPlayerAnimation | onAttack | onAskParty | onAskPartyAnswer | onExileParty
  | onLeaveParty | onPickUpItem | onSkillUp | onLearnSkill | onSkill | onPreSkill
deriving DecidableEq, Repr

/-- The calls of `when` in `main`. -/
def registrations : List (Protocol × Handler) :=
  [(.connect, .onConnect), (.ansCode, .onCodeAnswer), (.login, .onLogin),
    (.secondLogin, .onSecondaryLogin), (.newPlayer, .onNewPlayer), (.delPlayer, .onDeletePlayer),
    (.restorePlayer, .onRestorePlayer), (.loadPlayer, .onLoadPlayer),
    (.start, .onStart), (.restart, .onRestart), (.gameExit, .onExit), (.moveOn, .onMove false),
    (.moveEnd, .onMove true), (.chatting, .onChatting), (.putOnItem, .onPutOnItem),
    (.putOffItem, .onPutOffItem), (.useItem, .onUseItem), (.trashItem, .onTrashItem),
    (.rest, .onRest), (.teleport, .onTeleportAnswer), (.updateProperty, .onUpdateProperty),
    (.playerAnimation, .onPlayerAnimation), (.attack, .onAttack), (.askParty, .onAskParty),
    (.ansAskParty, .onAskPartyAnswer), (.exileParty, .onExileParty), (.leaveParty, .onLeaveParty),
    (.pickUpItem, .onPickUpItem), (.skillUp, .onSkillUp), (.learnSkill, .onLearnSkill),
    (.skill, .onSkill), (.preSkill, .onPreSkill)]

/-- The call of `grant` in `main`. -/
def grants : List (Protocol × Role) :=
  [(.login, .canRequestPrimary), (.secondLogin, .canRequestSecondary),
    (.newPlayer, .lobby), (.delPlayer, .lobby), (.restorePlayer, .lobby), (.loadPlayer, .lobby),
    (.start, .loading),
    (.restart, .ingame), (.moveOn, .ingame), (.moveEnd, .ingame), (.chatting, .ingame),
    (.putOnItem, .ingame), (.putOffItem, .ingame), (.useItem, .ingame), (.trashItem, .ingame),
    (.teleport, .ingame), (.rest, .ingame), (.teleport, .ingame), (.updateProperty, .ingame),
    (.playerAnimation, .ingame), (.attack, .ingame), (.askParty, .ingame), (.ansAskParty, .ingame),
    (.leaveParty, .ingame), (.exileParty, .ingame)]

/-- The handlers by message type. -/
def handlers : List (UInt8 × Handler) := registrations.map fun entry => (entry.1.type, entry.2)

/-- The required roles by message type. -/
def granted : List (UInt8 × Roles) := grants.map fun entry => (entry.1.type, {entry.2})

/-- `Socket::GameServer()`, as `main` sets it up. -/
def gameServer : Callbacks Handler Role := (Callbacks.empty.register handlers).grant granted

/-- Does the handler act on the player in the world? -/
def Handler.ActsInWorld : Handler → Prop
  | onConnect | onCodeAnswer | onLogin | onSecondaryLogin | onNewPlayer | onDeletePlayer
  | onRestorePlayer | onLoadPlayer | onStart | onExit => False
  | onRestart | onMove _ | onChatting | onPutOnItem | onPutOffItem | onUseItem | onTrashItem | onRest
  | onTeleportAnswer | onUpdateProperty | onPlayerAnimation | onAttack | onAskParty
  | onAskPartyAnswer | onExileParty | onLeaveParty | onPickUpItem | onSkillUp | onLearnSkill | onSkill
  | onPreSkill => True

instance : DecidablePred Handler.ActsInWorld := fun handler =>
  match handler with
  | .onConnect | .onCodeAnswer | .onLogin | .onSecondaryLogin | .onNewPlayer | .onDeletePlayer
  | .onRestorePlayer | .onLoadPlayer | .onStart | .onExit => isFalse id
  | .onRestart | .onMove _ | .onChatting | .onPutOnItem | .onPutOffItem | .onUseItem | .onTrashItem
  | .onRest | .onTeleportAnswer | .onUpdateProperty | .onPlayerAnimation | .onAttack | .onAskParty
  | .onAskPartyAnswer | .onExileParty | .onLeaveParty | .onPickUpItem | .onSkillUp | .onLearnSkill
  | .onSkill | .onPreSkill => isTrue trivial

/-! ## The session -/

/-- A session and its player's entry in `World::m_players`. -/
structure Presence where
  /-- The session is in the game server's list. -/
  connected : Bool
  roles : Roles
  /-- `World::m_players` has the player. -/
  present : Bool
  /-- For specifications: the handlers called so far, and the roles of the session at the time. -/
  called : List (Handler × Roles)

namespace Presence

/-- A new connection, after `OnConnected`. -/
def fresh : Presence where
  connected := true
  roles := {.canRequestPrimary}
  present := false
  called := []

variable (s : Presence)

def assign (role : Role) : Presence := { s with roles := s.roles.assign role }

def deny (role : Role) : Presence := { s with roles := s.roles.deny role }

/-- `Player::OnStart`; `World::Add` throws when the player is in the world. -/
def onStart : Presence :=
  if s.present then s else ({ s with present := true }.assign .ingame).deny .loading

/-- `Player::OnRestart`; `World::Remove` throws when the player is not in the world. -/
def onRestart (p : Packet) : Presence :=
  if (p.pop 1).1 = [1] then s
  else if s.present then { s with present := false }.deny .ingame
  else s

/-- What a handler does to the roles and to `World::m_players`. -/
def handle (handler : Handler) (p : Packet) : Presence :=
  match handler with
  | .onLogin => s.deny .canRequestPrimary
  | .onSecondaryLogin => s.deny .canRequestSecondary
  | .onLoadPlayer => (s.assign .loading).deny .lobby
  | .onStart => s.onStart
  | .onRestart => s.onRestart p
  | .onConnect | .onCodeAnswer | .onNewPlayer | .onDeletePlayer | .onRestorePlayer | .onExit
  | .onMove _ | .onChatting | .onPutOnItem | .onPutOffItem | .onUseItem | .onTrashItem | .onRest
  | .onTeleportAnswer | .onUpdateProperty | .onPlayerAnimation | .onAttack | .onAskParty
  | .onAskPartyAnswer | .onExileParty | .onLeaveParty | .onPickUpItem | .onSkillUp | .onLearnSkill
  | .onSkill | .onPreSkill => s

/-- `server::execute`. -/
def execute (p : Packet) : Presence :=
  match gameServer.execute s.roles p.type with
  | none => s
  | some handler => { s with called := (handler, s.roles) :: s.called }.handle handler p

/-- The handlers of `DBListener`, for the session that they find by its id. -/
def onReply : D2S → Presence
  | .login _ _ | .secLogin _ => s.assign .canRequestSecondary
  | .authorized _ _ => s.assign .authorized
  | .playerInfo _ => s.assign .lobby
  | .loadPlayer _ _ | .delPlayerInfo _ | .ansNewPlayer _ | .loadItems _ | .skillInfo _ => s

/-- `Player::OnDisconnected`, and the session's removal from the list unless `World::Remove` throws. -/
def onDisconnected : Presence :=
  if .ingame ∈ s.roles then
    if s.present then { s with present := false, connected := false } else s
  else { s with connected := false }

/-- What happens to the session. -/
inductive Event where
  /-- A message of the client comes. -/
  | message (p : Packet)
  /-- A reply of the DB server comes for the session. -/
  | reply (reply : D2S)
  | disconnect

def step (s : Presence) : Event → Except Idle Presence
  | .message p => if s.connected then .ok (s.execute p) else .error .idle
  | .reply reply => .ok (if s.connected then s.onReply reply else s)
  | .disconnect => if s.connected then .ok s.onDisconnected else .error .idle

end Presence

end Bango.Session
