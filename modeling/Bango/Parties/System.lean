import Mathlib.Data.Finset.Erase
import Mathlib.Data.Finset.Insert
import Mathlib.Logic.Function.Basic
import Bango.Lib.Runs

set_option autoImplicit false

/-! # Parties

A party lists its members, and each player points to its party. The handlers of the game server keep
the two in step, each under the locks of the players it changes; here a handler is one step. What is
written to the clients is left out, and so is the highest level of a party, which only a party's own
bookkeeping reads. -/

namespace Bango.Parties

open Bango.Lib

/-! ## A party -/

/-- `MIN_PARTY_SIZE`. -/
def minPartySize : UInt8 := 2

/-- `MAX_PARTY_SIZE`. -/
def maxPartySize : UInt8 := 8

/-- `Party`. -/
structure Party where
  /-- `m_id` -/
  id : UInt32
  /-- `m_members_list`, by the ids of the players -/
  members : List UInt32
deriving DecidableEq, Repr

/-- How a handler ends early. -/
inductive Thrown where
  /-- "Finding player to remove from party failed." -/
  | notAMember
  | nullPointer
deriving DecidableEq, Repr

namespace Party

variable (party : Party)

/-- `GetSize`. -/
def getSize : UInt8 := UInt8.ofNat party.members.length

/-- `GetLeader`; `none` is a null pointer. -/
def getLeader : Option UInt32 := party.members.head?

/-- `IsLeader`. -/
def IsLeader (player : UInt32) : Prop := party.getLeader = some player

instance (player : UInt32) : Decidable (party.IsLeader player) := inferInstanceAs (Decidable (_ = _))

/-- `IsFull`. -/
def IsFull : Prop := maxPartySize ≤ party.getSize

instance : Decidable party.IsFull := inferInstanceAs (Decidable (_ ≤ _))

/-- `AddMember`: the party, and whether the player has been added. -/
def addMember (player : UInt32) : Party × Bool :=
  if party.IsFull then (party, false)
  else ({ party with members := party.members ++ [player] }, true)

/-- `RemoveMember`. -/
def removeMember (player : UInt32) : Except Thrown Party :=
  if player ∈ party.members then
    .ok { party with members := party.members.filter (· ≠ player) }
  else .error .notAMember

end Party

/-- `Party::Party`, with the next id. -/
def Party.make (id leader player : UInt32) : Party :=
  let party := (Party.mk id []).addMember leader
  (party.1.addMember player).1

/-! ## All players and parties -/

/-- A player, as far as parties go. -/
structure Player where
  /-- `m_party`, the place of the party -/
  party : Option Nat := none
  /-- `m_party_id` -/
  partyId : UInt32 := 0
  /-- `m_party_inviter_id` -/
  partyInviterId : UInt32 := 0
deriving DecidableEq, Repr

structure System where
  /-- `World`'s `m_players` -/
  inWorld : Finset UInt32
  /-- All players, in the world or not, by their ids. -/
  players : UInt32 → Player
  /-- How many parties have been made. A party is at the place of its number, and the last 32 bits of
      it are its id. -/
  made : Nat
  parties : Nat → Party
  /-- `World`'s `m_parties`, by the ids of the parties -/
  registered : UInt32 → Option Nat

namespace System

/-- No player has entered the world yet. -/
def empty : System where
  inWorld := ∅
  players _ := {}
  made := 0
  parties place := ⟨UInt32.ofNat place, []⟩
  registered _ := none

variable (s : System)

def setPlayer (id : UInt32) (player : Player) : System :=
  { s with players := Function.update s.players id player }

def setPartyAt (place : Nat) (party : Party) : System :=
  { s with parties := Function.update s.parties place party }

/-- `SetPartyInviterID`. -/
def setPartyInviterId (id inviter : UInt32) : System :=
  s.setPlayer id { s.players id with partyInviterId := inviter }

/-- `ResetPartyInviterID`. -/
def resetPartyInviterId (id : UInt32) : System := s.setPartyInviterId id 0

/-- `SetParty`. -/
def setParty (id : UInt32) (place : Nat) : System :=
  s.setPlayer id { s.players id with party := some place, partyId := (s.parties place).id }

/-- `ResetParty`. -/
def resetParty (id : UInt32) : System :=
  s.setPlayer id { s.players id with party := none, partyId := 0 }

/-- `HasParty`. -/
def HasParty (id : UInt32) : Prop := (s.players id).party ≠ none

instance (id : UInt32) : Decidable (s.HasParty id) := inferInstanceAs (Decidable (_ ≠ _))

/-- `IsPartyLeader`. -/
def IsPartyLeader (id : UInt32) : Prop :=
  ∃ place ∈ (s.players id).party, (s.parties place).IsLeader id

instance (id : UInt32) : Decidable (s.IsPartyLeader id) :=
  inferInstanceAs (Decidable (∃ place ∈ (s.players id).party, _))

/-- `World::AddParty`. -/
def addParty (place : Nat) : System :=
  let id := (s.parties place).id
  if s.registered id = none then
    { s with registered := Function.update s.registered id (some place) }
  else s

/-- `World::RemoveParty`. -/
def removeParty (place : Nat) : System :=
  { s with registered := Function.update s.registered (s.parties place).id none }

/-- `std::make_shared<Party>`: the party is at the place `made`. -/
def makeParty (leader player : UInt32) : System :=
  { s.setPartyAt s.made (.make (UInt32.ofNat s.made) leader player) with made := s.made + 1 }

/-- `RemoveMember` of the party at a place. -/
def removeMember (place : Nat) (id : UInt32) : Except Thrown System := do
  let party ← (s.parties place).removeMember id
  return s.setPartyAt place party

/-- `World::Remove`. -/
def leaveWorld (id : UInt32) : System := { s with inWorld := s.inWorld.erase id }

/-! ## Handlers -/

/-- What `LeaveParty` does with a party that only one member is left of. -/
def dissolve (place : Nat) : Except Thrown System :=
  if (s.parties place).getSize = 1 then
    match (s.parties place).getLeader with
    | none => .error .nullPointer
    | some leader =>
      match (s.players leader).party with
      | none => .ok s
      | some ofLeader => do
        let s ← (s.removeParty ofLeader).removeMember ofLeader leader
        return s.resetParty leader
  else .ok s

/-- `LeaveParty`. -/
def leaveParty (id : UInt32) : Except Thrown System :=
  match (s.players id).party with
  | none => .ok s
  | some place => do
    let s ← s.removeMember place id
    let s ← s.dissolve place
    return s.resetParty id

/-- `OnAskParty`. -/
def onAskParty (id invited : UInt32) (inSight : Bool) : System :=
  if invited = id then s
  else if s.HasParty id ∧ ¬ s.IsPartyLeader id then s
  else if invited ∉ s.inWorld then s
  else if ¬ inSight then s
  else if s.HasParty invited then s
  else s.setPartyInviterId invited id

/-- The players form a party, or the player joins that of the inviter. -/
def accept (id inviter : UInt32) : System :=
  match (s.players inviter).party with
  | none =>
    let place := s.made
    (((s.makeParty inviter id).setParty inviter place).setParty id place).addParty place
  | some place =>
    if s.IsPartyLeader inviter then
      let added := (s.parties place).addMember id
      let s := s.setPartyAt place added.1
      if added.2 then s.setParty id place else s
    else s

/-- `OnAskPartyAnswer`. -/
def onAskPartyAnswer (id : UInt32) (answer : Bool) (inviter : UInt32) (inSight : Bool) : System :=
  if inviter = id then s
  else if s.HasParty id then s
  else if inviter ≠ (s.players id).partyInviterId then s
  else if inviter ∉ s.inWorld then s
  else
    let s := s.resetPartyInviterId id
    if ¬ inSight then s
    else if answer = false then s
    else s.accept id inviter

/-- What `BanFromParty` does with a member of the leader's party. -/
def ban (id banned : UInt32) (place : Nat) : Except Thrown System := do
  let s ← s.removeMember place banned
  let s := s.resetParty banned
  if (s.parties place).getSize = 1 then
    let s ← s.removeMember place id
    return s.resetParty id
  else return s

/-- `BanFromParty`. -/
def banFromParty (id banned : UInt32) : Except Thrown System :=
  if banned = id then .ok s
  else if ¬ s.IsPartyLeader id then .ok s
  else if banned ∉ s.inWorld then .ok s
  else
    match (s.players id).party, (s.players banned).party with
    | some place, some other => if other ≠ place then .ok s else s.ban id banned place
    | _, _ => .ok s

/-- `OnRestart`, where `ask` is whether the client only asks if it may; `ResetStates` leaves the
    party. -/
def onRestart (id : UInt32) (ask : Bool) : Except Thrown System :=
  if ask then .ok s
  else do
    let s ← s.leaveParty id
    return s.leaveWorld id

/-- `OnDisconnected` of a player that is in the world. -/
def onDisconnected (id : UInt32) : Except Thrown System := do
  let s ← s.leaveParty id
  return s.leaveWorld id

/-! ## Runs -/

/-- A handler that runs for a player. Another player is in sight or not, as the two stand then. -/
inductive Op where
  | onAskParty (invited : UInt32) (inSight : Bool)
  | onAskPartyAnswer (answer : Bool) (inviter : UInt32) (inSight : Bool)
  | onLeaveParty
  | banFromParty (banned : UInt32)
  | onRestart (ask : Bool)
  | onDisconnected
deriving DecidableEq, Repr

/-- What happens next: a player enters the world, or a handler runs for a player. -/
inductive Event where
  | onStart (id : UInt32)
  | handle (id : UInt32) (op : Op)
deriving DecidableEq, Repr

/-- A handler. -/
def handle (id : UInt32) : Op → Except Thrown System
  | .onAskParty invited inSight => .ok (s.onAskParty id invited inSight)
  | .onAskPartyAnswer answer inviter inSight => .ok (s.onAskPartyAnswer id answer inviter inSight)
  | .onLeaveParty => s.leaveParty id
  | .banFromParty banned => s.banFromParty id banned
  | .onRestart ask => s.onRestart id ask
  | .onDisconnected => s.onDisconnected id

/-- One step. The server refuses the packets of a player that is not in the world. -/
def step : Event → Except Thrown System
  | .onStart id => .ok { s with inWorld := insert id s.inWorld }
  | .handle id op => if id ∈ s.inWorld then s.handle id op else .ok s

/-- The lists of members and the players' pointers agree, and parties have the size they should. -/
structure Consistent : Prop where
  party_iff : ∀ id place, (s.players id).party = some place ↔ id ∈ (s.parties place).members
  unique : ∀ id place other, id ∈ (s.parties place).members → id ∈ (s.parties other).members →
    place = other
  nodup : ∀ place, (s.parties place).members.Nodup
  size : ∀ id place, (s.players id).party = some place →
    minPartySize.toNat ≤ (s.parties place).members.length ∧
      (s.parties place).members.length ≤ maxPartySize.toNat

end System

end Bango.Parties
