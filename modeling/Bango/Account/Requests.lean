import Bango.Network.Pops

set_option autoImplicit false

/-! # Requests forwarded to the DB server

The handlers of `User` forward six client messages to the DB server with the session's credentials
appended to whatever the client has sent, and the handlers of `DatabaseManager` read the credentials
back at the place where the client's fields should end. -/

namespace Bango.Account

open Bango.Lib Bango.Network

/-- `User::CREDENTIALS`. -/
structure Credentials where
  /-- `AID`, the account -/
  aid : Int32
  /-- `UID`, the session -/
  uid : UInt32
deriving DecidableEq, Repr

namespace Credentials

def uidBytes (c : Credentials) : List UInt8 := le 4 c.uid.toNat

/-- The struct as `push` copies it. -/
def bytes (c : Credentials) : List UInt8 := le 4 c.aid.toUInt32.toNat ++ c.uidBytes

end Credentials

/-- The client messages that are forwarded. -/
inductive Request where
  | login | secondLogin | newPlayer | delPlayer | restorePlayer | loadPlayer
deriving DecidableEq, Repr

/-- `C2S_PROTOCOL`. -/
def Request.c2s : Request → UInt8
  | login => 8
  | secondLogin => 10
  | newPlayer => 6
  | delPlayer => 3
  | restorePlayer => 7
  | loadPlayer => 5

/-- `S2D_PROTOCOL`. -/
def Request.s2d : Request → UInt8
  | login => 0
  | secondLogin => 3
  | newPlayer => 6
  | delPlayer => 5
  | restorePlayer => 8
  | loadPlayer => 7

/-- The fields of a new player, as both servers pop them. -/
structure NewPlayer where
  name : List UInt8
  job : UInt8
  str : UInt16
  hth : UInt16
  int_ : UInt16
  wis : UInt16
  dex : UInt16
  face : UInt8
  hair : UInt8
deriving DecidableEq, Repr

def popNewPlayer : Pops NewPlayer := do
  let name ← .str
  let job ← .popU8
  let str ← .popU16
  let hth ← .popU16
  let int_ ← .popU16
  let wis ← .popU16
  let dex ← .popU16
  let face ← .popU8
  let hair ← .popU8
  return { name, job, str, hth, int_, wis, dex, face, hair }

/-! ## The game server -/

/-- `CLASS_NUM`. -/
def classNum : UInt8 := 5

/-- `NEWPLAYER_ANS`, as far as the game server answers itself. -/
inductive NewPlayerAns where
  | error | wrongClass | wrongProperty
deriving DecidableEq, Repr

/-- What a handler does with a request. -/
inductive Handled where
  /-- the bytes are written to the DB server -/
  | forwarded (bytes : List UInt8)
  /-- `S2C_ANS_NEWPLAYER` is written to the client -/
  | answered (answer : NewPlayerAns)

/-- Appending a value and writing the packet to the DB server under a new type. -/
def forward (p : Packet) (value : List UInt8) (type : UInt8) : Handled :=
  .forwarded ((p.push value).changeType type).bytes

/-- The checks of `User::OnNewPlayer`. -/
def NewPlayer.rejection (n : NewPlayer) : Option NewPlayerAns :=
  if n.name = [] ∨ n.name.length > 14 then some .error
  else if n.job ≥ classNum then some .wrongClass
  else if n.str.toNat + n.hth.toNat + n.int_.toNat + n.wis.toNat + n.dex.toNat ≠ 5 then
    some .wrongProperty
  else if n.hair > 6 ∨ n.face > 6 then some .wrongProperty
  else none

/-- `User::OnNewPlayer`: the packet is read from a copy. -/
def onNewPlayer (c : Credentials) (p : Packet) : Except PacketFault Handled :=
  match popNewPlayer.run p with
  | .error f => .error f
  | .ok (n, _) =>
    match n.rejection with
    | some answer => .ok (.answered answer)
    | none => .ok (forward p c.bytes Request.newPlayer.s2d)

/-- `User::OnLogin`, `OnSecondaryLogin`, `OnNewPlayer`, `OnDeletePlayer`, `OnRestorePlayer`,
    `OnLoadPlayer`. -/
def onRequest (c : Credentials) : Request → Packet → Except PacketFault Handled
  | .login, p => .ok (forward p c.uidBytes Request.login.s2d)
  | .newPlayer, p => onNewPlayer c p
  | m, p => .ok (forward p c.bytes m.s2d)

/-! ## The DB server -/

/-- What a handler of the DB server has read when it has read the credentials. -/
inductive DbRequest where
  | login (login passwd mac : List UInt8) (id : UInt32)
  | secondaryLogin (password : List UInt8) (credentials : Credentials)
  | secondaryCreate (password secondary : List UInt8) (credentials : Credentials)
  | secondaryChange (oldPass newPass : List UInt8) (credentials : Credentials)
  | newPlayer (player : NewPlayer) (credentials : Credentials)
  | deletePlayer (idplayer : Int32) (credentials : Credentials)
  | restorePlayer (idplayer : Int32) (credentials : Credentials)
  | loadPlayer (idplayer idguild showHonorGrade : Int32) (credentials : Credentials)
deriving DecidableEq, Repr

/-- Are the credentials that were read those of the session? `Login` reads the session id only. -/
def DbRequest.ReadsOwn (c : Credentials) : DbRequest → Prop
  | login _ _ _ id => id = c.uid
  | secondaryLogin _ credentials
  | secondaryCreate _ _ credentials
  | secondaryChange _ _ credentials
  | newPlayer _ credentials
  | deletePlayer _ credentials
  | restorePlayer _ credentials
  | loadPlayer _ _ _ credentials => credentials = c

instance (c : Credentials) (request : DbRequest) : Decidable (request.ReadsOwn c) :=
  match request with
  | .login _ _ _ id => inferInstanceAs (Decidable (id = c.uid))
  | .secondaryLogin _ credentials
  | .secondaryCreate _ _ credentials
  | .secondaryChange _ _ credentials
  | .newPlayer _ credentials
  | .deletePlayer _ credentials
  | .restorePlayer _ credentials
  | .loadPlayer _ _ _ credentials => inferInstanceAs (Decidable (credentials = c))

/-- `idaccount` and `id`, which the handlers pop one after the other. -/
def popCredentials : Pops Credentials := do
  let idaccount ← .popI32
  let id ← .popU32
  return ⟨idaccount, id⟩

/-- `DatabaseManager::Validate`. -/
def Validate (password : List UInt8) : Prop :=
  password.length = 8 ∧ ∀ c ∈ password, 48 ≤ c ∧ c ≤ 57

instance (password : List UInt8) : Decidable (Validate password) :=
  inferInstanceAs (Decidable (_ ∧ _))

/-- `DatabaseManager::Login`. -/
def dbLogin : Pops (Option DbRequest) := do
  let login ← .str
  let passwd ← .str
  let mac ← .str
  let id ← .popU32
  return some (.login login passwd mac id)

/-- `DatabaseManager::SecondaryLogin`. -/
def secondaryLogin : Pops (Option DbRequest) := do
  let password ← .str
  if Validate password then
    let _ ← .popI32
    let credentials ← popCredentials
    return some (.secondaryLogin password credentials)
  else
    return none

/-- `DatabaseManager::SecondaryCreate`. -/
def secondaryCreate : Pops (Option DbRequest) := do
  let password ← .str
  let secondary ← .str
  let credentials ← popCredentials
  return some (.secondaryCreate password secondary credentials)

/-- `DatabaseManager::SecondaryChange`. -/
def secondaryChange : Pops (Option DbRequest) := do
  let oldPass ← .str
  let newPass ← .str
  let credentials ← popCredentials
  return some (.secondaryChange oldPass newPass credentials)

/-- The handler of `S2D_SECONDARY_LOGIN`: `SL_LOGIN`, `SL_CREATE_PASSWORD`, `SL_CHANGE_PASSWORD`. -/
def secondary : Pops (Option DbRequest) := do
  let selector ← .popU8
  if selector = 0 then secondaryLogin
  else if selector = 1 then secondaryCreate
  else if selector = 2 then secondaryChange
  else return none

/-- `DatabaseManager::NewPlayer`. -/
def dbNewPlayer : Pops (Option DbRequest) := do
  let player ← popNewPlayer
  let credentials ← popCredentials
  return some (.newPlayer player credentials)

/-- `DatabaseManager::DeletePlayer`. -/
def deletePlayer : Pops (Option DbRequest) := do
  let idplayer ← .popI32
  let credentials ← popCredentials
  return some (.deletePlayer idplayer credentials)

/-- `DatabaseManager::RestorePlayer`. -/
def restorePlayer : Pops (Option DbRequest) := do
  let idplayer ← .popI32
  let credentials ← popCredentials
  return some (.restorePlayer idplayer credentials)

/-- `DatabaseManager::LoadPlayer`. -/
def loadPlayer : Pops (Option DbRequest) := do
  let idplayer ← .popI32
  let idguild ← .popI32
  let showHonorGrade ← .popI32
  let credentials ← popCredentials
  return some (.loadPlayer idplayer idguild showHonorGrade credentials)

/-- The handler the DB server has registered for a type. -/
def dbHandler (type : UInt8) : Pops (Option DbRequest) :=
  if type = Request.login.s2d then dbLogin
  else if type = Request.secondLogin.s2d then secondary
  else if type = Request.newPlayer.s2d then dbNewPlayer
  else if type = Request.delPlayer.s2d then deletePlayer
  else if type = Request.restorePlayer.s2d then restorePlayer
  else if type = Request.loadPlayer.s2d then loadPlayer
  else return none

/-! ## From the client to the DB server -/

/-- The packet a client makes of a payload. -/
def wire (type : UInt8) (payload : List UInt8) : List UInt8 :=
  le 2 (payload.length + 3) ++ [type] ++ payload

/-- What the game server writes to the DB server for a client's request, if it writes anything. The
    memory is the uninitialised buffer of the packet it makes. -/
def forwarded (m : Request) (c : Credentials) (memory : Memory) (payload : List UInt8) :
    Option (List UInt8) :=
  match Packet.ofVector memory (wire m.c2s payload) with
  | .error _ => none
  | .ok p =>
    match onRequest c m p with
    | .ok (.forwarded bytes) => some bytes
    | .ok (.answered _) | .error _ => none

/-- What the DB server reads of the bytes it is sent, unless the handler throws before the credentials
    are read. -/
def readRequest (memory : Memory) (bytes : List UInt8) : Option DbRequest :=
  match Packet.ofVector memory bytes with
  | .error _ => none
  | .ok p =>
    match (dbHandler p.type).run p with
    | .error _ => none
    | .ok (request, _) => request

/-- What the DB server reads of a client's request. -/
def relay (m : Request) (c : Credentials) (memory memory' : Memory) (payload : List UInt8) :
    Option DbRequest :=
  (forwarded m c memory payload).bind (readRequest memory')

end Bango.Account
