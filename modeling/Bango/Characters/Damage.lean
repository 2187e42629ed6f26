import Mathlib.Data.Nat.Notation

set_option autoImplicit false

/-! # Damage

What is left of a character that is hit, by an attack of a player (`Player::OnAttack`) and by a
physical skill (`PhysicalSkill::Execute`). The two convert the damage through integers of different
widths on its way to `ReceiveDamage`. -/

namespace Bango.Characters

/-- `Character`, as far as it hits and is hit. -/
structure Target where
  id : UInt32
  map : UInt8
  curhp : UInt32
deriving DecidableEq, Repr

namespace Target

variable (target : Target)

/-- `IsNormal`. -/
def IsNormal : Prop := target.curhp > 0

instance : Decidable target.IsNormal := inferInstanceAs (Decidable (_ > _))

/-- `ReceiveDamage`; `none` is "damage is higher than current HP". -/
def receiveDamage (damage : UInt32) : Option Target :=
  if damage > target.curhp then none else some { target with curhp := target.curhp - damage }

/-- `ReceiveDamage` and the test after it: what is left, and whether `Die` is called. -/
def hit (damage : UInt32) : Option (Target × Bool) :=
  (target.receiveDamage damage).map fun target => (target, target.curhp ≤ 0)

/-- `OnAttack` from the final damage on. -/
def onAttack (damage : Int64) : Option (Target × Bool) :=
  if damage < 0 then some (target, false)
  else
    let damage :=
      if damage.toUInt64 > target.curhp.toUInt64 then target.curhp.toUInt64.toInt64 else damage
    target.hit damage.toUInt64.toUInt32

/-- `PhysicalSkill::CanExecute`. -/
def CanExecute (caster : Target) : Prop :=
  caster.IsNormal ∧ target.IsNormal ∧ caster.map = target.map ∧ caster.id ≠ target.id

instance (caster : Target) : Decidable (target.CanExecute caster) :=
  inferInstanceAs (Decidable (_ ∧ _ ∧ _ ∧ _))

/-- What `PhysicalSkill::Execute` makes of the attack before `ReceiveDamage` takes it. -/
def skillDamage (attack : UInt16) : UInt32 :=
  let damage := attack.toInt16
  let damage :=
    if damage.toInt64.toUInt64 > target.curhp.toUInt64 then target.curhp.toUInt16.toInt16 else damage
  damage.toInt32.toUInt32

/-- `PhysicalSkill::Execute` for the target it has found, with what `GetAttack` gives. -/
def execute (caster : Target) (attack : UInt16) : Option (Target × Bool) :=
  if ¬ target.CanExecute caster then some (target, false)
  else target.hit (target.skillDamage attack)

/-! ## What a hit is for -/

/-- The damage is taken off as far as there is HP, and the target dies when nothing is left. -/
def Struck (damage : ℕ) (result : Option (Target × Bool)) : Prop :=
  ∃ curhp : UInt32, curhp.toNat = target.curhp.toNat - min damage target.curhp.toNat ∧
    result = some ({ target with curhp }, decide (curhp = 0))

end Target

end Bango.Characters
