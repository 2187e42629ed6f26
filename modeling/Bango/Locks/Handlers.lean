import Bango.Lib.Locks

set_option autoImplicit false

/-! # The mutexes that a handler takes

A handler goes through a sequence of acquisitions and releases, in which only what it is called with
and what it finds make a difference: each such outcome is an argument here. `World`'s functions hold
its mutex while they run their callback, `ForEachSpawn` apart, and those of a `WorldMap` the map's. -/

namespace Bango.Locks

open Bango.Lib

/-! ## Mutexes -/

/-- A character that handlers lock. Ids of players and monsters are from one range. -/
inductive Character where
  | player (id : UInt32)
  | monster (id : UInt32)
deriving DecidableEq, Repr

/-- `World`'s `m_entities_rmtx`, a map's `m_rmtx` and a character's `m_mtx`. -/
inductive Mutex where
  | world
  | map (index : Nat)
  | character (character : Character)
deriving DecidableEq, Repr

/-- `std::recursive_mutex`, not `std::mutex`. -/
def Mutex.Recursive : Mutex → Prop
  | .world | .map _ => True
  | .character _ => False

instance : DecidablePred Mutex.Recursive
  | .world => isTrue trivial
  | .map _ => isTrue trivial
  | .character _ => isFalse not_false

/-- What a handler does to the list of members of a party, under the mutexes of these players. -/
inductive PartyAction where
  /-- A player leaves its party; the member that is left if there is only one. -/
  | leave (id : UInt32) (last : Option UInt32)
  | join (ids : List UInt32)
  | remove (id : UInt32)
deriving DecidableEq, Repr

abbrev Sequence : Type := List (Action Mutex PartyAction)

/-- Take a mutex for as long as something else is done. -/
def locked (mutex : Mutex) (body : Sequence) : Sequence := .lock mutex :: (body ++ [.unlock mutex])

/-- A function of `World`. -/
def inWorld (body : Sequence) : Sequence := locked .world body

/-- A function of `World` that calls one of a map: `Add`, `Remove`, `WriteInSight`,
    `ForCharacterInMap`. -/
def onMap (map : Nat) (body : Sequence) : Sequence := inWorld (locked (.map map) body)

/-- `Character::Lock`. -/
def lockedCharacter (character : Character) (body : Sequence) : Sequence :=
  locked (.character character) body

/-- `Lock` of a player. -/
def lockedPlayer (id : UInt32) (body : Sequence) : Sequence := lockedCharacter (.player id) body

/-- `Character::WriteInSight`. -/
def writeInSight (map : Nat) : Sequence := onMap map []

/-! ## Dying -/

/-- A player that has hit a dying monster: is it in the world, and how many levels does it gain? -/
structure Share where
  id : UInt32
  found : Bool
  map : Nat
  levels : Nat
deriving DecidableEq, Repr

/-- `DistributeExp` for one player; `LevelUp` shows a visual effect. -/
def distributeExp (share : Share) : Sequence :=
  inWorld <|
    if share.found then
      lockedPlayer share.id (List.replicate share.levels (writeInSight share.map)).flatten
    else []

/-- `Die`; of a monster the players that have hit it, and how much it drops. -/
def die (map : Nat) (shares : List Share) (loots : Nat) : Character → Sequence
  | .player _ => writeInSight map
  | .monster _ =>
    shares.flatMap distributeExp ++ (List.replicate loots (onMap map [])).flatten ++ writeInSight map

/-! ## Fighting -/

/-- How an attack on a character ends. -/
inductive Blow where
  /-- without a weapon, or too soon after the last one -/
  | notReady
  | cannotAttack
  | miss
  | negative
  | hit
  | kill (shares : List Share) (loots : Nat)
deriving DecidableEq, Repr

/-- The callback of `OnAttack`. The player's own mutex is released before the target's. -/
def attack (id : UInt32) (map : Nat) (target : Character) : Blow → Sequence
  | .notReady => lockedPlayer id []
  | .cannotAttack => lockedPlayer id (lockedCharacter target [])
  | .miss => lockedPlayer id (lockedCharacter target (writeInSight map))
  | .negative => .lock (.character (.player id)) :: .lock (.character target) ::
      .unlock (.character (.player id)) :: [.unlock (.character target)]
  | .hit => .lock (.character (.player id)) :: .lock (.character target) ::
      .unlock (.character (.player id)) :: (writeInSight map ++ [.unlock (.character target)])
  | .kill shares loots => .lock (.character (.player id)) :: .lock (.character target) ::
      .unlock (.character (.player id)) ::
        (writeInSight map ++ die map shares loots target ++ [.unlock (.character target)])

/-- How a physical skill ends. -/
inductive Cast where
  | cannotExecute
  | hit
  | kill (shares : List Share) (loots : Nat)
deriving DecidableEq, Repr

/-- The callback of `PhysicalSkill::Execute`. -/
def physicalSkill (map : Nat) (target : Character) : Cast → Sequence
  | .cannotExecute => lockedCharacter target []
  | .hit => lockedCharacter target (writeInSight map)
  | .kill shares loots => lockedCharacter target (die map shares loots target ++ writeInSight map)

/-- The callback of `Behead::Execute`. -/
def behead (map : Nat) (target : UInt32) (canExecute : Bool) : Sequence :=
  lockedCharacter (.monster target)
    (if canExecute then writeInSight map ++ writeInSight map else [])

/-! ## Parties -/

/-- `OnAskParty`: may the player invite others, and is the invited one in the world and in sight? -/
def onAskParty (id invited : UInt32) (mayInvite met : Bool) : Sequence :=
  if invited = id then []
  else
    lockedPlayer id <|
      if mayInvite then inWorld (if met then lockedPlayer invited [] else []) else []

/-- How an invitation ends. -/
inductive Answer where
  /-- The player is in a party, or was not invited by the other one. -/
  | ignored
  /-- The inviter is not in the world or not in sight, or is refused. -/
  | refused
  /-- The inviter is in a full party or does not lead it. -/
  | failed
  | joined
  | founded
deriving DecidableEq, Repr

/-- `OnAskPartyAnswer`. -/
def onAskPartyAnswer (id inviter : UInt32) (answer : Answer) : Sequence :=
  if inviter = id then []
  else
    lockedPlayer id <|
      match answer with
      | .ignored => []
      | .refused => inWorld []
      | .failed => inWorld (lockedPlayer inviter [])
      | .joined => inWorld (lockedPlayer inviter [.act (.join [id])])
      | .founded => inWorld (lockedPlayer inviter (.act (.join [inviter, id]) :: inWorld []))

/-- How a ban ends. -/
inductive Ban where
  | notLeader
  /-- The other player is not in the world. -/
  | notFound
  | otherParty
  | banned
  /-- Only the leader was left. -/
  | dissolved
deriving DecidableEq, Repr

/-- `BanFromParty`. -/
def banFromParty (id banned : UInt32) (ban : Ban) : Sequence :=
  if banned = id then []
  else
    lockedPlayer id <|
      match ban with
      | .notLeader => []
      | .notFound => inWorld []
      | .otherParty => inWorld (lockedPlayer banned [])
      | .banned => inWorld (lockedPlayer banned [.act (.remove banned)])
      | .dissolved => inWorld (lockedPlayer banned [.act (.remove banned), .act (.remove id)])

/-- How a player leaves its party. -/
inductive Leave where
  | noParty
  | left
  /-- One member is left, and does it still point to its party? -/
  | last (leader : UInt32) (hasParty : Bool)
deriving DecidableEq, Repr

/-- `LeaveParty`. -/
def leaveParty (id : UInt32) : Leave → Sequence
  | .noParty => []
  | .left => [.act (.leave id none)]
  | .last leader hasParty =>
    .act (.leave id (some leader)) ::
      lockedPlayer leader (if hasParty then inWorld [] ++ [.act (.remove leader)] else [])

/-! ## Handlers -/

/-- A handler with the arguments and the outcome. -/
inductive Handler where
  /-- what `ForCharacterInMap` finds under the id that the client supplies -/
  | onAttack (id : UInt32) (map : Nat) (target : Option (Character × Blow))
  | physicalSkill (map : Nat) (target : Option (Character × Cast))
  | behead (map : Nat) (target : Option (UInt32 × Bool))
  | onAskParty (id invited : UInt32) (mayInvite met : Bool)
  | onAskPartyAnswer (id inviter : UInt32) (answer : Answer)
  | onExileParty (id banned : UInt32) (ban : Ban)
  /-- the command `/expelparty`, with the player of that name -/
  | expelParty (id : UInt32) (named : Option (UInt32 × Ban))
  | onLeaveParty (id : UInt32) (leave : Leave)
  | onRestart (id : UInt32) (ask : Bool) (leave : Leave) (map : Nat)
  | onDisconnected (id : UInt32) (leave : Leave) (map : Nat)
  /-- the players to be saved, and the maps of the monsters that stop kneeling, of the loots that
      expire, of the dead monsters and of the monsters that come back -/
  | tick (saved : List UInt32) (risen expired dead respawned : List Nat)
deriving DecidableEq, Repr

/-- The actions of a handler, in their order. -/
def Handler.sequence : Handler → Sequence
  | .onAttack id map target =>
    onMap map <|
      match target with
      | none => []
      | some (character, blow) => attack id map character blow
  | .physicalSkill map target =>
    onMap map <|
      match target with
      | none => []
      | some (character, cast) => Locks.physicalSkill map character cast
  | .behead map target =>
    onMap map <|
      match target with
      | none => []
      | some (monster, canExecute) => Locks.behead map monster canExecute
  | .onAskParty id invited mayInvite met => Locks.onAskParty id invited mayInvite met
  | .onAskPartyAnswer id inviter answer => Locks.onAskPartyAnswer id inviter answer
  | .onExileParty id banned ban => banFromParty id banned ban
  | .expelParty id named =>
    inWorld <|
      match named with
      | none => []
      | some (banned, ban) => banFromParty id banned ban
  | .onLeaveParty id leave => lockedPlayer id (leaveParty id leave)
  | .onRestart id ask leave map =>
    if ask then [] else lockedPlayer id (leaveParty id leave ++ onMap map [])
  | .onDisconnected id leave map => lockedPlayer id (leaveParty id leave ++ onMap map [])
  | .tick saved risen expired dead respawned =>
    inWorld (saved.flatMap fun id => lockedPlayer id []) ++
      inWorld (risen.flatMap writeInSight) ++
      inWorld (expired.flatMap fun map => locked (.map map) []) ++
      inWorld (dead.flatMap fun map => locked (.map map) []) ++
      -- `ForEachSpawn` takes no mutex of its own
      respawned.flatMap fun map => onMap map []

/-- An `OnAttack` that finds the attacker itself, and goes on to attack it. -/
def Handler.AttacksItself : Handler → Prop
  | .onAttack id _ (some (character, blow)) => character = .player id ∧ blow ≠ .notReady
  | _ => False

instance : DecidablePred Handler.AttacksItself
  | .onAttack _ _ (some _) => inferInstanceAs (Decidable (_ ∧ _))
  | .onAttack _ _ none => isFalse not_false
  | .physicalSkill .. => isFalse not_false
  | .behead .. => isFalse not_false
  | .onAskParty .. => isFalse not_false
  | .onAskPartyAnswer .. => isFalse not_false
  | .onExileParty .. => isFalse not_false
  | .expelParty .. => isFalse not_false
  | .onLeaveParty .. => isFalse not_false
  | .onRestart .. => isFalse not_false
  | .onDisconnected .. => isFalse not_false
  | .tick .. => isFalse not_false

end Bango.Locks
