import Bango.Monsters.Hostility
import Bango.Parties.System

set_option autoImplicit false

/-! # Who shares in the experience

`DistributeExp` asks each attacker that is in the world for the id of its party, takes 0 for no party,
and adds the damage of the others up by that id. -/

namespace Bango.Parties.System

open Bango.Lib Bango.Monsters

variable (s : System)

/-- `ForPlayer`, and `GetPartyID` of the player it finds. -/
def getPartyId (id : UInt32) : Option UInt32 :=
  if id ∈ s.inWorld then some (s.players id).partyId else none

/-- The loop in `DistributeExp`. -/
def distributeExp (hostilityMap : List (UInt32 × UInt64)) (totalHostility : UInt64) (exp : UInt32) :
    Distribution :=
  distribution hostilityMap totalHostility exp s.getPartyId

/-! ## What it is for -/

/-- The damage done by the members of a party, as a 64-bit sum. -/
def damageOf (hostilityMap : List (UInt32 × UInt64)) (place : Nat) : UInt64 :=
  ((hostilityMap.filter fun a => (s.players a.1).party = some place).map Prod.snd).foldl (· + ·) 0

/-- Of the attackers in the world those in no party are paid, and the damage of each party is in an
    entry of its own. -/
structure PaysParties (hostilityMap : List (UInt32 × UInt64)) (totalHostility : UInt64)
    (exp : UInt32) (d : Distribution) : Prop where
  solo_iff : ∀ a ∈ hostilityMap, a.1 ∈ s.inWorld →
    ((a.1, expShare a.2 totalHostility exp) ∈ d.solo ↔ ¬ s.HasParty a.1)
  gathered : ∃ entryOf : Nat → UInt32,
    (∀ a ∈ hostilityMap, ∀ b ∈ hostilityMap, ∀ place other, (s.players a.1).party = some place →
      (s.players b.1).party = some other → entryOf place = entryOf other → place = other) ∧
    ∀ a ∈ hostilityMap, ∀ place, (s.players a.1).party = some place →
      entryOf place ∈ d.partyContainer.map Prod.fst ∧
        amountAt (entryOf place) d.partyContainer = s.damageOf hostilityMap place

/-- The ids tell the parties of the attackers apart, and from no party: counted from the start of the
    server, none of them is the first one or 2^32 or more of them later, and no two are a multiple of
    2^32 apart. -/
def ToldApart (hostilityMap : List (UInt32 × UInt64)) : Prop :=
  ∀ a ∈ hostilityMap, ∀ place, (s.players a.1).party = some place →
    place % UInt32.size ≠ 0 ∧
      ∀ b ∈ hostilityMap, ∀ other, (s.players b.1).party = some other →
        place % UInt32.size = other % UInt32.size → place = other

end Bango.Parties.System
