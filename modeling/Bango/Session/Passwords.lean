import Bango.Session.Accounts

set_option autoImplicit false

/-! # Passwords

All sessions of the game server, and the DB server with its table of accounts, as far as passwords
decide who gets to the lobby. A client chooses the bytes of its requests, so that a request can name a
session and an account that are not its own. What a session does is what the one of `System` does, and
the runs are, as far as logging in goes, those of `Servers`. -/

namespace Bango.Session

open Bango.Lib Bango.Network Bango.Account

/-! ## The table of accounts -/

/-- A row of the table `account`. -/
structure AccountRow where
  idaccount : Int32
  login : List UInt8
  password : List UInt8
  /-- `NULL` until it is created -/
  secondary : Option (List UInt8)
deriving DecidableEq, Repr

/-- How a query compares a column with a string. -/
abbrev Collation : Type := List UInt8 → List UInt8 → Bool

/-- The row has the password that the request states. Of the secondary login this is what the handler
    checks, and of the others the condition of the query. -/
def AccountRow.Opens (collate : Collation) (row : AccountRow) : DbRequest → Prop
  | .login login passwd _ _ => collate row.login login ∧ collate row.password passwd
  | .secondaryLogin password c => row.idaccount = c.aid ∧ row.secondary = some password
  | .secondaryCreate password _ c => row.idaccount = c.aid ∧ collate row.password password
  | .secondaryChange oldPass _ c =>
    row.idaccount = c.aid ∧ ∃ secondary ∈ row.secondary, collate secondary oldPass
  | .newPlayer .. | .deletePlayer .. | .restorePlayer .. | .loadPlayer .. => False

instance AccountRow.decidableOpens (collate : Collation) (row : AccountRow) (request : DbRequest) :
    Decidable (row.Opens collate request) :=
  match request with
  | .login .. | .secondaryLogin .. | .secondaryCreate .. | .secondaryChange .. =>
    inferInstanceAs (Decidable (_ ∧ _))
  | .newPlayer .. | .deletePlayer .. | .restorePlayer .. | .loadPlayer .. => isFalse id

/-- The secondary password that the `UPDATE` of a request sets, unless the handler returns before. -/
def newSecondary : DbRequest → Option (List UInt8)
  | .secondaryCreate _ secondary _ => if Validate secondary then some secondary else none
  | .secondaryChange _ newPass _ => if Validate newPass then some newPass else none
  | .login .. | .secondaryLogin .. | .newPlayer .. | .deletePlayer .. | .restorePlayer ..
  | .loadPlayer .. => none

/-- The row after the `UPDATE` of a request. -/
def AccountRow.update (collate : Collation) (request : DbRequest) (row : AccountRow) : AccountRow :=
  match newSecondary request with
  | none => row
  | some secondary =>
    if row.Opens collate request then { row with secondary := some secondary } else row

/-- What the tables answer to a request. The answers of the other tables are given. -/
def Answers.about (others : Answers) (collate : Collation) (accounts : List AccountRow)
    (request : DbRequest) : Answers :=
  match request with
  | .login login _ _ _ =>
    let row := accounts.find? fun row => row.Opens collate request
    { others with
      correctLogin := accounts.any fun row => collate row.login login
      correctPassword := row.isSome
      idaccount := (row.map (·.idaccount)).getD 0
      secondary := row.bind (·.secondary) }
  | .secondaryLogin _ c =>
    { others with secondary := (findKey (·.idaccount) c.aid accounts).bind (·.secondary) }
  | .secondaryCreate .. | .secondaryChange .. =>
    { others with changed := accounts.countP fun row => row.update collate request ≠ row }
  | .newPlayer .. | .deletePlayer .. | .restorePlayer .. | .loadPlayer .. => others

/-! ## The game server -/

/-- A session of the game server. -/
structure Client extends Connection where
  /-- `World::m_players` has the player. -/
  inWorld : Bool
deriving DecidableEq

namespace Client

variable (c : Client)

def assign (role : Role) : Client := { c with toConnection := c.toConnection.assign role }

def deny (role : Role) : Client := { c with toConnection := c.toConnection.deny role }

/-- The handlers of `DBListener`. -/
def onReply (reply : D2S) : Client := { c with toConnection := c.toConnection.onReply reply }

/-- `User::OnLogin`, `OnSecondaryLogin`, `OnNewPlayer`, `OnDeletePlayer`, `OnRestorePlayer`,
    `OnLoadPlayer`: the session, and what is written to the DB server. -/
def onRequest (m : Request) (payload : List UInt8) (memory : Memory) : Client × List S2D :=
  let c' :=
    match m with
    | .login => c.deny .canRequestPrimary
    | .secondLogin => c.deny .canRequestSecondary
    | .loadPlayer => (c.assign .loading).deny .lobby
    | .newPlayer | .delPlayer | .restorePlayer => c
  match forwarded m ⟨c.aid, c.uid⟩ memory payload with
  | none => (c', [])
  | some bytes => (c', [.forwarded bytes])

/-- `Player::OnStart`; `World::Add` throws when the player is in the world. -/
def onStart : Client :=
  if c.inWorld then c else ({ c with inWorld := true }.assign .ingame).deny .loading

/-- `Player::OnRestart`; `World::Remove` throws when the player is not in the world. -/
def onRestart (logout : UInt8) : Client × List S2D :=
  if logout = 1 then (c, [])
  else if c.inWorld then
    ({ c with inWorld := false }.deny .ingame, [.restart c.uid c.aid])
  else (c, [])

/-- The handler of a message. -/
def handle (message : C2S) (memory : Memory) : Client × List S2D :=
  match message with
  | .request m payload => c.onRequest m payload memory
  | .start => (c.onStart, [])
  | .restart logout => c.onRestart logout
  | .move _ _ => (c, [])

/-- `server::execute`. -/
def execute (message : C2S) (memory : Memory) : Client × List S2D :=
  if message.required ∈ c.roles then c.handle message memory else (c, [])

/-- `Player::OnDisconnected`, and the session's removal from the list is to follow unless
    `World::Remove` throws. -/
def onDisconnected : Client × List S2D :=
  if .ingame ∈ c.roles ∧ ¬ c.inWorld then (c, [])
  else
    ({ c with inWorld := false, leaving := true },
      if .authorized ∈ c.roles then [.disconnect c.aid] else [])

end Client

/-! ## The DB server -/

/-- A message to the DB server. -/
structure Sent where
  /-- For specifications: the session whose handler has written it. -/
  sender : UInt32
  message : S2D
deriving DecidableEq

/-- The request that the DB server reads of a message. -/
def S2D.request (memory : Memory) : S2D → Option DbRequest
  | .forwarded bytes => readRequest memory bytes
  | .restart .. | .disconnect _ => none

/-- A request that the DB server has handled, and the rows it has found. -/
structure Handled where
  sender : UInt32
  request : DbRequest
  accounts : List AccountRow
deriving DecidableEq

/-! ## The two servers -/

structure Gate where
  /-- `g_max_uid` -/
  maxUid : Nat
  /-- `m_sessions` -/
  sessions : List Client
  /-- `m_active_users` -/
  activeUsers : List Int32
  /-- the table `account` -/
  accounts : List AccountRow
  toDb : List Sent
  toGame : List D2S
  /-- For specifications: the requests that the DB server has handled. -/
  log : List Handled
deriving DecidableEq

namespace Gate

/-- Both servers have just started. -/
def start (accounts : List AccountRow) : Gate := ⟨0, [], [], accounts, [], [], []⟩

variable (s : Gate)

/-- A new connection. The account id is not initialised. -/
def connect (aid : Int32) : Gate :=
  { s with
    maxUid := s.maxUid + 1
    sessions := s.sessions ++
      [⟨⟨UInt32.ofNat s.maxUid, aid, {.canRequestPrimary}, false⟩, false⟩] }

/-- A handler has changed a session and written messages to the DB server. -/
def update (uid : UInt32) (result : Client × List S2D) : Gate :=
  { s with
    sessions := updateKey (·.uid) uid (fun _ => result.1) s.sessions
    toDb := s.toDb ++ result.2.map fun message => ⟨uid, message⟩ }

/-- The DB server handles a message. -/
def database (collate : Collation) (others : Answers) (memory : Memory) (sent : Sent) : Gate :=
  match sent.message.request memory with
  | none =>
    let (replies, activeUsers) := serve s.activeUsers others memory sent.message
    { s with activeUsers, toGame := s.toGame ++ replies }
  | some request =>
    let answers := others.about collate s.accounts request
    let (replies, activeUsers) := serve s.activeUsers answers memory sent.message
    { s with
      activeUsers
      accounts := s.accounts.map (·.update collate request)
      toGame := s.toGame ++ replies
      log := s.log ++ [⟨sent.sender, request, s.accounts⟩] }

/-- What happens next. -/
inductive Op where
  /-- a client connects; its uninitialised account id -/
  | connect (aid : Int32)
  /-- a message of a client -/
  | client (uid : UInt32) (message : C2S) (memory : Memory)
  | disconnect (uid : UInt32)
  /-- The session leaves the game server's list. -/
  | forget (uid : UInt32)
  /-- The DB server handles the next message; what it finds in the other tables. -/
  | database (others : Answers) (memory : Memory)
  /-- The game server handles the next reply. -/
  | deliver

/-- One step. Session ids do not repeat, and only connected sessions send and disconnect. -/
def step (collate : Collation) : Op → Except Idle Gate
  | .connect aid => if s.maxUid < 2 ^ 32 then .ok (s.connect aid) else .error .idle
  | .client uid message memory =>
    match findKey (·.uid) uid s.sessions with
    | none => .error .idle
    | some c =>
      if c.leaving = false ∧ message.Sendable then .ok (s.update uid (c.execute message memory))
      else .error .idle
  | .disconnect uid =>
    match findKey (·.uid) uid s.sessions with
    | none => .error .idle
    | some c => if c.leaving then .error .idle else .ok (s.update uid c.onDisconnected)
  | .forget uid =>
    match findKey (·.uid) uid s.sessions with
    | none => .error .idle
    | some c =>
      if c.leaving then .ok { s with sessions := eraseKey (·.uid) uid s.sessions }
      else .error .idle
  | .database others memory =>
    match s.toDb with
    | [] => .error .idle
    | sent :: rest => .ok ({ s with toDb := rest }.database collate others memory sent)
  | .deliver =>
    match s.toGame with
    | [] => .error .idle
    | reply :: rest =>
      .ok { s with
        sessions := updateKey (·.uid) reply.uid (·.onReply reply) s.sessions
        toGame := rest }

end Gate

/-! ## Who is let in -/

/-- The session that a request names. -/
def named : DbRequest → UInt32
  | .login _ _ _ id => id
  | .secondaryLogin _ c | .secondaryCreate _ _ c | .secondaryChange _ _ c | .newPlayer _ c
  | .deletePlayer _ c | .restorePlayer _ c | .loadPlayer _ _ _ c => c.uid

/-- A row that the request found has the password that the request states. -/
def Handled.Opens (collate : Collation) (h : Handled) : Prop :=
  ∃ row ∈ h.accounts, row.Opens collate h.request

instance Handled.decidableOpens (collate : Collation) (h : Handled) : Decidable (h.Opens collate) :=
  inferInstanceAs (Decidable (∃ row ∈ h.accounts, _))

/-- The request logs a session in to an account, with the password of a row of the account. -/
def Handled.LogsIn (collate : Collation) (uid : UInt32) (aid : Int32) (h : Handled) : Prop :=
  (∃ login passwd mac, h.request = .login login passwd mac uid) ∧
    ∃ row ∈ h.accounts, row.idaccount = aid ∧ row.Opens collate h.request

/-- The request sets the secondary password of an account, and states the password or the secondary
    password of a row of the account. -/
def Handled.Sets (collate : Collation) (aid : Int32) (secondary : List UInt8) (h : Handled) : Prop :=
  newSecondary h.request = some secondary ∧
    ∃ row ∈ h.accounts, row.idaccount = aid ∧ row.Opens collate h.request

/-- A row is as it was at the start, but for a secondary password that a handled request has set. -/
structure AccountRow.Kept (collate : Collation) (log : List Handled) (before row : AccountRow) :
    Prop where
  idaccount : row.idaccount = before.idaccount
  login : row.login = before.login
  password : row.password = before.password
  secondary : row.secondary = before.secondary ∨ ∃ secondary, row.secondary = some secondary ∧
    Validate secondary ∧ ∃ h ∈ log, h.Sets collate row.idaccount secondary

/-- The request opens the lobby for the session it names: it states a right password, or it is about
    a player and comes from a session that has been let in. -/
def Handled.LetsIn (collate : Collation) (inside : List UInt32) (h : Handled) : Prop :=
  match h.request with
  | .login .. | .secondaryLogin .. => h.Opens collate
  | .newPlayer .. | .deletePlayer .. | .restorePlayer .. => h.sender ∈ inside
  | .secondaryCreate .. | .secondaryChange .. | .loadPlayer .. => False

instance (collate : Collation) (inside : List UInt32) (h : Handled) :
    Decidable (h.LetsIn collate inside) := by
  unfold Handled.LetsIn
  split <;> infer_instance

/-- The sessions that the handled requests have let in, one after the other. -/
def letIn (collate : Collation) (log : List Handled) : List UInt32 :=
  log.foldl (fun inside h => if h.LetsIn collate inside then inside ++ [named h.request] else inside)
    []

end Bango.Session
