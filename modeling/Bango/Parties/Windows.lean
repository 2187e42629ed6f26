import Bango.Parties.System

set_option autoImplicit false

/-! # What the clients are told of parties

The client of a player shows the party in a window. All it knows is what the handlers write: the list of
members in `S2C_PARTYINFO`, and messages. Here is what each handler writes, in the order of the source;
of a member's name, class, level and HP only its id is kept. -/

namespace Bango.Parties

open Bango.Lib

/-- The packets of the handlers of parties. -/
inductive Notice where
  /-- `S2C_PARTYINFO` -/
  | partyInfo (members : List UInt32)
  /-- `S2C_ASKPARTY` -/
  | askParty (inviter : UInt32)
  /-- `S2C_MESSAGE` with `MSG_PARTYISFULL` -/
  | partyIsFull
  | exiledFromParty
  | leftParty
  | endParty
  | becomePartyHead
  | noRightOfPartyHead
  /-- `S2C_MESSAGEV` with `MSG_JOINEDINPARTY`; the others name a player too. -/
  | memberJoinedInParty (player : UInt32)
  | memberExiledFromParty (player : UInt32)
  | memberLeftParty (player : UInt32)
  | joinedInOtherParty (player : UInt32)
  | askJoinParty (player : UInt32)
  | rejectJoinParty (player : UInt32)
deriving DecidableEq, Repr

/-! ## A party -/

namespace Party

variable (party : Party)

/-- `WriteToAll`. -/
def writeToAll (notice : Notice) : List (UInt32 × Notice) := party.members.map (·, notice)

/-- `SendPartyInfo`. -/
def sendPartyInfo : List (UInt32 × Notice) := party.writeToAll (.partyInfo party.members)

/-- A packet to the leader. -/
def writeToLeader (notice : Notice) : List (UInt32 × Notice) :=
  party.getLeader.toList.map (·, notice)

/-- What `AddMember` writes. -/
def addMemberWrites (player : UInt32) : List (UInt32 × Notice) :=
  if party.IsFull then [(player, .partyIsFull)]
  else
    (if party.members ≠ [] then party.writeToAll (.memberJoinedInParty player) else []) ++
      (party.addMember player).1.sendPartyInfo

/-- What `RemoveMember` writes once the player is off the list. -/
def removedWrites (player : UInt32) (isKicked wasLeaverPartyLeader : Bool) :
    List (UInt32 × Notice) :=
  (if isKicked then
    (player, .exiledFromParty) :: party.writeToAll (.memberExiledFromParty player)
  else (player, .leftParty) :: party.writeToAll (.memberLeftParty player)) ++
    if party.getSize = 1 then party.writeToLeader .endParty
    else if party.getSize > 1 then
      party.sendPartyInfo ++
        if wasLeaverPartyLeader then party.writeToLeader .becomePartyHead else []
    else []

/-- What `RemoveMember` writes. -/
def removeMemberWrites (player : UInt32) (isKicked : Bool) : List (UInt32 × Notice) :=
  match party.removeMember player with
  | .ok left => left.removedWrites player isKicked (party.IsLeader player)
  | .error _ => []

end Party

/-- What `Party::Party` writes. -/
def Party.makeWrites (id leader player : UInt32) : List (UInt32 × Notice) :=
  let party := Party.mk id []
  party.addMemberWrites leader ++ (party.addMember leader).1.addMemberWrites player

/-! ## Handlers -/

namespace System

variable (s : System)

/-- What `RemoveMember` of the party at a place writes. -/
def removeMemberWrites (place : Nat) (id : UInt32) (isKicked : Bool) : List (UInt32 × Notice) :=
  (s.parties place).removeMemberWrites id isKicked

def dissolveWrites (place : Nat) : List (UInt32 × Notice) :=
  if (s.parties place).getSize = 1 then
    match (s.parties place).getLeader with
    | none => []
    | some leader =>
      match (s.players leader).party with
      | none => []
      | some ofLeader => (s.removeParty ofLeader).removeMemberWrites ofLeader leader false
  else []

/-- What `LeaveParty` writes. No caller of it kicks the player. -/
def leavePartyWrites (id : UInt32) : List (UInt32 × Notice) :=
  match (s.players id).party with
  | none => []
  | some place =>
    s.removeMemberWrites place id false ++
      match s.removeMember place id with
      | .ok s => s.dissolveWrites place
      | .error _ => []

/-- What `OnAskParty` writes. -/
def onAskPartyWrites (id invited : UInt32) (inSight : Bool) : List (UInt32 × Notice) :=
  if invited = id then []
  else if s.HasParty id ∧ ¬ s.IsPartyLeader id then [(id, .noRightOfPartyHead)]
  else if invited ∉ s.inWorld then []
  else if ¬ inSight then []
  else if s.HasParty invited then [(id, .joinedInOtherParty invited)]
  else [(id, .askJoinParty invited), (invited, .askParty id)]

def acceptWrites (id inviter : UInt32) : List (UInt32 × Notice) :=
  match (s.players inviter).party with
  | none => Party.makeWrites (UInt32.ofNat s.made) inviter id
  | some place =>
    if s.IsPartyLeader inviter then (s.parties place).addMemberWrites id else []

/-- What `OnAskPartyAnswer` writes. -/
def onAskPartyAnswerWrites (id : UInt32) (answer : Bool) (inviter : UInt32) (inSight : Bool) :
    List (UInt32 × Notice) :=
  if inviter = id then []
  else if s.HasParty id then []
  else if inviter ≠ (s.players id).partyInviterId then []
  else if inviter ∉ s.inWorld then []
  else
    let s := s.resetPartyInviterId id
    if ¬ inSight then []
    else if answer = false then [(inviter, .rejectJoinParty id)]
    else s.acceptWrites id inviter

def banWrites (id banned : UInt32) (place : Nat) : List (UInt32 × Notice) :=
  s.removeMemberWrites place banned false ++
    match s.removeMember place banned with
    | .ok s =>
      let s := s.resetParty banned
      if (s.parties place).getSize = 1 then s.removeMemberWrites place id false else []
    | .error _ => []

/-- What `BanFromParty` writes: its call of `RemoveMember` leaves `is_kicked` at false. -/
def banFromPartyWrites (id banned : UInt32) : List (UInt32 × Notice) :=
  if banned = id then []
  else if ¬ s.IsPartyLeader id then []
  else if banned ∉ s.inWorld then []
  else
    match (s.players id).party, (s.players banned).party with
    | some place, some other => if other ≠ place then [] else s.banWrites id banned place
    | _, _ => []

/-! ## Runs -/

/-- What a handler writes. -/
def handleWrites (id : UInt32) : Op → List (UInt32 × Notice)
  | .onAskParty invited inSight => s.onAskPartyWrites id invited inSight
  | .onAskPartyAnswer answer inviter inSight => s.onAskPartyAnswerWrites id answer inviter inSight
  | .onLeaveParty => s.leavePartyWrites id
  | .banFromParty banned => s.banFromPartyWrites id banned
  | .onRestart ask => if ask then [] else s.leavePartyWrites id
  | .onDisconnected => s.leavePartyWrites id

/-- What a step writes, in order. -/
def writes : Event → List (UInt32 × Notice)
  | .onStart _ => []
  | .handle id op => if id ∈ s.inWorld then s.handleWrites id op else []

end System

/-- All players and parties, with what has been written to the clients so far. -/
structure Watched where
  system : System
  written : List (UInt32 × Notice)

namespace Watched

/-- No player has entered the world yet. -/
def empty : Watched := ⟨.empty, []⟩

def step (w : Watched) (event : System.Event) : Except Thrown Watched := do
  let s ← w.system.step event
  return ⟨s, w.written ++ w.system.writes event⟩

end Watched

/-! ## What it is for -/

/-- The packets written to a player. -/
def noticesOf (id : UInt32) (written : List (UInt32 × Notice)) : List Notice :=
  (written.filter (·.1 = id)).map Prod.snd

/-- The window of a client: the list of members it has been told last, until it is told that the player
    is in the party no longer. -/
def shows : Option (List UInt32) → Notice → Option (List UInt32)
  | _, .partyInfo members => some members
  | _, .exiledFromParty | _, .leftParty | _, .endParty => none
  | window, _ => window

/-- The window of a player's client. -/
def Watched.windowOf (w : Watched) (id : UInt32) : Option (List UInt32) :=
  (noticesOf id w.written).foldl shows none

/-- The members of a player's party, the leader first. -/
def System.partyOf (s : System) (id : UInt32) : Option (List UInt32) :=
  (s.players id).party.map fun place => (s.parties place).members

end Bango.Parties
