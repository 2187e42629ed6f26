import Mathlib.Data.Finset.Basic
import Bango.Account.Requests
import Bango.Lib.Runs
import Bango.Space.Geometry

set_option autoImplicit false

/-! # A session, its player and the DB server

One client's session on the game server, with the messages between the game server and the DB server
in flight in both directions. A step is a message of the client, the end of the connection, the DB
server handling the next request, or the game server handling the next reply. -/

namespace Bango.Session

open Bango.Lib Bango.Network Bango.Account Bango.Space

/-! ## Roles -/

/-- The role bits of `User`. -/
inductive Role where
  | canRequestPrimary | canRequestSecondary | lobby | loading | ingame | authorized
deriving DecidableEq, Repr

/-- `authorizable::m_roles`. -/
abbrev Roles : Type := Finset Role

namespace Roles

/-- `authorizable::assign`. -/
def assign (roles : Roles) (role : Role) : Roles := insert role roles

/-- `authorizable::deny`. -/
def deny (roles : Roles) (role : Role) : Roles := roles.erase role

end Roles

/-! ## The player in the world -/

/-- The maps as far as the player is concerned. -/
structure World where
  /-- `World::m_players` has the player. -/
  registered : Bool
  /-- Where quadtrees store the player: the map and the position there. -/
  stored : List (Nat × Point)
  /-- The maps whose `m_entities` have the player. -/
  listed : Finset Nat
deriving DecidableEq

/-- The boundary of a map's quadtree. -/
def boundary : Square := ⟨⟨0, 0⟩, mapWidth⟩

/-- The map that `World::Map` takes for an id. -/
def mapIndex (id : UInt8) : Nat := if id ≥ 32 then 0 else id.toNat

namespace World

variable (w : World)

/-- `quad::insert` of the player; outside the boundary it throws. -/
def quadInsert (map : Nat) (p : Point) : Option World :=
  if boundary.InBoundary p then some { w with stored := (map, p) :: w.stored } else none

/-- `quad::remove` of the player: nothing outside the boundary, and otherwise it throws when the
    quadtree does not store the player where it is. -/
def quadRemove (map : Nat) (p : Point) : Option World :=
  if boundary.InBoundary p then
    if (map, p) ∈ w.stored then some { w with stored := w.stored.erase (map, p) } else none
  else some w

/-- `WorldMap::Add`. -/
def mapAdd (map : Nat) (p : Point) : World :=
  match w.quadInsert map p with
  | none => w
  | some w => { w with listed := insert map w.listed }

/-- `WorldMap::Remove`. -/
def mapRemove (map : Nat) (p : Point) : World :=
  match w.quadRemove map p with
  | none => w
  | some w => { w with listed := w.listed.erase map }

/-- `WorldMap::Move`, with the player's position afterwards. -/
def mapMove (map : Nat) (p p' : Point) : World × Point :=
  match w.quadRemove map p with
  | none => (w, p)
  | some w =>
    match w.quadInsert map p' with
    | none => (w, p')
    | some w => (w, p')

end World

/-! ## Messages -/

/-- `LOGIN_ANS`, as far as the DB server answers it. -/
inductive LoginAns where
  | ok | wrongId | wrongPwd | sameUser | createSecondary
deriving DecidableEq, Repr

/-- The columns of a player's row that place it in the world. -/
structure PlayerRow where
  position : Point
  map : UInt8
deriving DecidableEq, Repr

/-- What the game server writes to the DB server for the session. -/
inductive S2D where
  /-- a request of the client with the credentials appended -/
  | forwarded (bytes : List UInt8)
  | restart (uid : UInt32) (aid : Int32)
  | disconnect (aid : Int32)
deriving DecidableEq, Repr

/-- What the DB server writes to the game server. -/
inductive D2S where
  | login (uid : UInt32) (answer : LoginAns)
  | authorized (uid : UInt32) (aid : Int32)
  | secLogin (uid : UInt32)
  | playerInfo (uid : UInt32)
  | delPlayerInfo (uid : UInt32)
  | ansNewPlayer (uid : UInt32)
  /-- answer 0 with the player's row, or answer 1 -/
  | loadPlayer (uid : UInt32) (row : Option PlayerRow)
  | loadItems (uid : UInt32)
  | skillInfo (uid : UInt32)
deriving DecidableEq, Repr

/-- What the client sends, as far as it changes roles or the player's place in the world. -/
inductive C2S where
  | request (m : Request) (payload : List UInt8)
  | start
  | restart (logout : UInt8)
  /-- `C2S_MOVE_ON` and `C2S_MOVE_END` -/
  | move (x y : Int8)
deriving DecidableEq, Repr

/-- The grant table of the game server. -/
def C2S.required : C2S → Role
  | request .login _ => .canRequestPrimary
  | request .secondLogin _ => .canRequestSecondary
  | request .newPlayer _ | request .delPlayer _ | request .restorePlayer _
  | request .loadPlayer _ => .lobby
  | start => .loading
  | restart _ | move .. => .ingame

/-! ## The state -/

/-- The session and its player. -/
structure Player where
  roles : Roles
  credentials : Credentials
  /-- `m_x`, `m_y` -/
  position : Point
  /-- `m_map` -/
  map : UInt8
deriving DecidableEq

structure System where
  /-- The session is in the game server's list. -/
  connected : Bool
  player : Player
  world : World
  /-- `m_active_users` -/
  activeUsers : List Int32
  toDb : List S2D
  toGame : List D2S
  /-- For specifications: since it was last removed from the world, the player has been loaded. -/
  loaded : Bool
deriving DecidableEq

/-- A new connection. The account id, position and map are not initialised. -/
def System.connect (credentials : Credentials) (position : Point) (map : UInt8)
    (activeUsers : List Int32) : System where
  connected := true
  player := { roles := {.canRequestPrimary}, credentials, position, map }
  world := { registered := false, stored := [], listed := ∅ }
  activeUsers
  toDb := []
  toGame := []
  loaded := false

namespace System

variable (s : System)

/-! ## The game server -/

def assign (role : Role) : System :=
  { s with player := { s.player with roles := s.player.roles.assign role } }

def deny (role : Role) : System :=
  { s with player := { s.player with roles := s.player.roles.deny role } }

/-- `Socket::DBClient().write`. -/
def write (message : S2D) : System := { s with toDb := s.toDb ++ [message] }

/-- `User::OnLogin`, `OnSecondaryLogin`, `OnNewPlayer`, `OnDeletePlayer`, `OnRestorePlayer`,
    `OnLoadPlayer`. -/
def onRequest (m : Request) (payload : List UInt8) (memory : Memory) : System :=
  let s :=
    match m with
    | .login => s.deny .canRequestPrimary
    | .secondLogin => s.deny .canRequestSecondary
    | .loadPlayer => (s.assign .loading).deny .lobby
    | _ => s
  match forwarded m s.player.credentials memory payload with
  | none => s
  | some bytes => s.write (.forwarded bytes)

/-- `World::Add`, which throws when the player is in the world. -/
def worldAdd : Option System :=
  if s.world.registered then none
  else some { s with world :=
    { s.world with registered := true }.mapAdd (mapIndex s.player.map) s.player.position }

/-- `World::Remove`, which throws when the player was not in the world. -/
def worldRemove : System × Bool :=
  let w := s.world.mapRemove (mapIndex s.player.map) s.player.position
  ({ s with
      world := { w with registered := false }
      loaded := s.loaded && !s.world.registered }, s.world.registered)

/-- `Player::OnStart`. -/
def onStart : System :=
  match s.worldAdd with
  | none => s
  | some s => (s.assign .ingame).deny .loading

/-- `Player::OnRestart`. -/
def onRestart (logout : UInt8) : System :=
  if logout = 1 then s
  else
    match s.worldRemove with
    | (s, false) => s
    | (s, true) =>
      (s.deny .ingame).write (.restart s.player.credentials.uid s.player.credentials.aid)

/-- `Player::OnMove`. -/
def onMove (x y : Int8) : System :=
  let (world, position) := s.world.mapMove (mapIndex s.player.map) s.player.position
    ⟨s.player.position.x + x.toInt, s.player.position.y + y.toInt⟩
  { s with world, player := { s.player with position } }

/-- The handler of a message. -/
def handle (message : C2S) (memory : Memory) : System :=
  match message with
  | .request m payload => s.onRequest m payload memory
  | .start => s.onStart
  | .restart logout => s.onRestart logout
  | .move x y => s.onMove x y

/-- `server::execute`. -/
def execute (message : C2S) (memory : Memory) : System :=
  if message.required ∈ s.player.roles then s.handle message memory else s

/-- `Player::OnDisconnected`, and the session's removal from the list unless the handler throws. -/
def onDisconnected : System :=
  let (s, present) := if .ingame ∈ s.player.roles then s.worldRemove else (s, true)
  if present then
    let s := { s with connected := false }
    if .authorized ∈ s.player.roles then s.write (.disconnect s.player.credentials.aid) else s
  else s

/-- `Player::OnLoadPlayer`. -/
def onLoadPlayer (row : PlayerRow) : System :=
  { s with player := { s.player with position := row.position, map := row.map }, loaded := true }

/-- The handlers of `DBListener`, for the session that they find by its id. -/
def onReply : D2S → System
  | .login _ _ | .secLogin _ => s.assign .canRequestSecondary
  | .authorized _ aid =>
    let s := s.assign .authorized
    { s with player := { s.player with credentials := { s.player.credentials with aid } } }
  | .playerInfo _ => s.assign .lobby
  | .loadPlayer _ (some row) => s.onLoadPlayer row
  | .loadPlayer _ none | .delPlayerInfo _ | .ansNewPlayer _ | .loadItems _ | .skillInfo _ => s

end System

/-- The session a reply is for. -/
def D2S.uid : D2S → UInt32
  | login uid _ | authorized uid _ | secLogin uid | playerInfo uid | delPlayerInfo uid
  | ansNewPlayer uid | loadPlayer uid _ | loadItems uid | skillInfo uid => uid

/-! ## The DB server -/

/-- What the tables answer to the queries of one handler. -/
structure Answers where
  /-- the first two columns of the query of `Login` -/
  correctLogin : Bool
  correctPassword : Bool
  idaccount : Int32
  /-- `secondary`, unless `get_str` throws for want of a string -/
  secondary : Option (List UInt8)
  /-- the rows that an `UPDATE` or `INSERT` changes -/
  changed : Nat
  /-- the two columns of the query of `NewPlayer` -/
  duplicate : Bool
  count : Nat
  /-- the row that `LoadPlayer` finds -/
  row : Option PlayerRow
deriving Repr

/-- `SendPlayerList`. -/
def sendPlayerList (id : UInt32) : List D2S := [.playerInfo id, .delPlayerInfo id]

/-- `MAX_CHARACTER`. -/
def maxCharacter : Nat := 5

/-- `DatabaseManager::Login`, which the repository compiles without the secondary password: the
    replies, and the active users. -/
def login (activeUsers : List Int32) (a : Answers) (id : UInt32) : List D2S × List Int32 :=
  if ¬ a.correctLogin then ([.login id .wrongId], activeUsers)
  else if ¬ a.correctPassword then ([.login id .wrongPwd], activeUsers)
  else if a.idaccount ∈ activeUsers then ([.login id .sameUser], activeUsers)
  else
    let replies :=
      match a.secondary with
      | none => []
      | some [] => [.login id .createSecondary]
      | some (_ :: _) => sendPlayerList id
    (.authorized id a.idaccount :: replies, a.idaccount :: activeUsers)

/-- The other handlers of `DatabaseManager`. -/
def replies (a : Answers) : DbRequest → List D2S
  | .login .. => []
  | .secondaryLogin password c =>
    match a.secondary with
    | none => []
    | some result => if password ≠ result then [.secLogin c.uid] else sendPlayerList c.uid
  | .secondaryCreate _ secondary c =>
    if ¬ Validate secondary then []
    else if a.changed = 0 then [.secLogin c.uid]
    else [.login c.uid .ok]
  | .secondaryChange _ newPass c =>
    if ¬ Validate newPass then []
    else if a.changed = 0 then [.secLogin c.uid]
    else [.login c.uid .ok]
  | .newPlayer _ c =>
    if a.duplicate then [.ansNewPlayer c.uid]
    else if a.count ≥ maxCharacter then [.ansNewPlayer c.uid]
    else if a.changed ≠ 1 then []
    else sendPlayerList c.uid
  | .deletePlayer _ c | .restorePlayer _ c =>
    if a.changed = 0 then [] else sendPlayerList c.uid
  | .loadPlayer _ _ _ c =>
    match a.row with
    | none => [.loadPlayer c.uid none]
    | some row => [.loadPlayer c.uid (some row), .loadItems c.uid, .skillInfo c.uid]

/-- The DB server handles a request: its replies, and the active users. -/
def serve (activeUsers : List Int32) (a : Answers) (memory : Memory) :
    S2D → List D2S × List Int32
  | .forwarded bytes =>
    match readRequest memory bytes with
    | none => ([], activeUsers)
    | some (.login _ _ _ id) => login activeUsers a id
    | some request => (replies a request, activeUsers)
  | .restart uid _ => (sendPlayerList uid, activeUsers)
  | .disconnect aid => ([], activeUsers.erase aid)

/-! ## Steps -/

/-- An operation of the system, with what the code finds in uninitialised packets and in the tables. -/
inductive Op where
  | client (message : C2S) (memory : Memory)
  | disconnect
  | database (answers : Answers) (memory : Memory)
  | deliver

/-- There is nothing to handle. -/
inductive Idle where
  | idle
deriving DecidableEq, Repr

/-- Does the message fit into a packet? -/
def C2S.Sendable : C2S → Prop
  | request _ payload => payload.length + 3 ≤ maxPacketLength
  | start | restart _ | move .. => True

instance (message : C2S) : Decidable message.Sendable :=
  match message with
  | .request _ _ => inferInstanceAs (Decidable (_ ≤ _))
  | .start | .restart _ | .move .. => isTrue trivial

def System.step (s : System) : Op → Except Idle System
  | .client message memory =>
    if s.connected ∧ message.Sendable then .ok (s.execute message memory) else .error .idle
  | .disconnect => if s.connected then .ok s.onDisconnected else .error .idle
  | .database answers memory =>
    match s.toDb with
    | [] => .error .idle
    | message :: rest =>
      let (replies, activeUsers) := serve s.activeUsers answers memory message
      .ok { s with activeUsers, toDb := rest, toGame := s.toGame ++ replies }
  | .deliver =>
    match s.toGame with
    | [] => .error .idle
    | reply :: rest =>
      let s := { s with toGame := rest }
      .ok (if s.connected ∧ reply.uid = s.player.credentials.uid then s.onReply reply else s)

end Bango.Session
