import Mathlib.Algebra.Order.Floor.Semifield
import Mathlib.Data.Rat.Floor
import Mathlib.Data.UInt
import Bango.Lib.Amounts
import Bango.Lib.Runs
import Bango.Monsters.Monster

set_option autoImplicit false

/-! # Who did the damage

`hostility_map` and `total_hostility` of a monster: every hit is added to both, and at the death of the
monster `DistributeExp` pays each attacker a share and starts both anew. `total_hostility` has no
initializer, so what it holds in a new monster is a parameter. The monster is locked by the handlers,
which take one step each. -/

namespace Bango.Monsters

open Bango.Lib

/-! ## Experience -/

/-- `exp_share * m_init->Exp`, with the share as an exact fraction; `none` is a division by zero. -/
def expShare (damage totalHostility : UInt64) (exp : UInt32) : Option ℕ :=
  if totalHostility = 0 then none
  else some ⌊(damage.toNat : ℚ) / totalHostility.toNat * exp.toNat⌋₊

/-- What `DistributeExp` has done when its loop is over. -/
structure Distribution where
  /-- The attackers whose share went to `UpdateExp`, with the share. -/
  solo : List (UInt32 × Option ℕ)
  /-- `party_container`, by the ids of the parties -/
  partyContainer : List (UInt32 × UInt64)

/-- One round of the loop in `DistributeExp`. `getPartyId` finds the attackers that are in the world,
    and their `GetPartyID`. -/
def Distribution.add (d : Distribution) (totalHostility : UInt64) (exp : UInt32)
    (getPartyId : UInt32 → Option UInt32) (entry : UInt32 × UInt64) : Distribution :=
  match getPartyId entry.1 with
  | none => d
  | some partyId =>
    if partyId ≠ 0 then { d with partyContainer := addAt partyId entry.2 d.partyContainer }
    else { d with solo := d.solo ++ [(entry.1, expShare entry.2 totalHostility exp)] }

/-- The loop in `DistributeExp` over `hostility_map`. -/
def distribution (hostilityMap : List (UInt32 × UInt64)) (totalHostility : UInt64) (exp : UInt32)
    (getPartyId : UInt32 → Option UInt32) : Distribution :=
  hostilityMap.foldl (fun d entry => d.add totalHostility exp getPartyId entry) ⟨[], []⟩

/-! ## The monster -/

/-- `Monster`, with who did it damage. -/
structure Victim where
  monster : Monster
  /-- `m_init->Exp` -/
  exp : UInt32
  hostilityMap : List (UInt32 × UInt64)
  totalHostility : UInt64
  /-- What has been distributed at each of its deaths, which the code does not keep. -/
  distributed : List Distribution

namespace Victim

/-- `CreateMonster`; what `total_hostility` holds then is what was in its memory. -/
def create (init : InitMonster) (exp : UInt32) (id : UInt32) (x y map : Int32)
    (totalHostility : UInt64) : Victim where
  monster := .create init id x y map
  exp := exp
  hostilityMap := []
  totalHostility := totalHostility
  distributed := []

variable (v : Victim)

/-- `Monster::ReceiveDamage`. What `Character::ReceiveDamage` throws leaves everything as it is. -/
def receiveDamage (id damage : UInt32) : Victim :=
  match v.monster.receiveDamage damage with
  | none => v
  | some monster =>
    { v with
      monster := monster
      hostilityMap := addAt id damage.toUInt64 v.hostilityMap
      totalHostility := v.totalHostility + damage.toUInt64 }

/-- `DistributeExp`. -/
def distributeExp (getPartyId : UInt32 → Option UInt32) : Victim :=
  { v with
    distributed :=
      distribution v.hostilityMap v.totalHostility v.exp getPartyId :: v.distributed
    hostilityMap := []
    totalHostility := 0 }

/-- `Die` of the class, after that of `Monster`. -/
def die (getPartyId : UInt32 → Option UInt32) (now : UInt64) : Victim :=
  let v := v.distributeExp getPartyId
  { v with monster := v.monster.die now }

/-- `RestoreInitialState`, which leaves the hostility alone. -/
def restoreInitialState (id : UInt32) (newX newY : Int32) : Victim :=
  { v with monster := v.monster.restoreInitialState id newX newY }

/-- A call. -/
inductive Op where
  | receiveDamage (id damage : UInt32)
  | die (getPartyId : UInt32 → Option UInt32) (now : UInt64)
  | restoreInitialState (id : UInt32) (newX newY : Int32)

/-- One call; each comes to its end. -/
def step : Op → Except Empty Victim
  | .receiveDamage id damage => .ok (v.receiveDamage id damage)
  | .die getPartyId now => .ok (v.die getPartyId now)
  | .restoreInitialState id newX newY => .ok (v.restoreInitialState id newX newY)

/-! ## What the two are for -/

/-- The sum of the damages in `hostility_map`. -/
def recorded : ℕ := (v.hostilityMap.map fun entry => entry.2.toNat).sum

end Victim

/-- The shares have been paid, and are no more than the experience there is. -/
def Distribution.Within (d : Distribution) (exp : UInt32) : Prop :=
  ∃ shares : List ℕ, d.solo.map Prod.snd = shares.map some ∧ shares.sum ≤ exp.toNat

/-- The total is that of the recorded damages, and no death has paid too much. -/
structure Victim.Accounted (v : Victim) : Prop where
  total_eq : v.totalHostility.toNat = v.recorded
  paid : ∀ d ∈ v.distributed, d.Within v.exp

namespace Victim

/-- A call that keeps the accounts: damage does not make the recorded sum too large for 64 bits, unless
    the attacker's own entry wraps around as well, and at a death an attacker who is in the world and
    in no party means that some damage was recorded. -/
def Keeps (v : Victim) : Op → Prop
  | .receiveDamage id damage => damage ≤ v.monster.curhp →
    v.recorded + damage.toNat < UInt64.size ∨
      UInt64.size ≤ (amountAt id v.hostilityMap).toNat + damage.toNat
  | .die getPartyId _ => (∃ entry ∈ v.hostilityMap, getPartyId entry.1 = some 0) → v.recorded ≠ 0
  | .restoreInitialState .. => True

end Victim

end Bango.Monsters
