import Bango.Monsters.Proofs.Lives

set_option autoImplicit false

/-! # Summoned monsters

`/mob` makes a monster that no spawn has: once it is dead and removed, nothing puts it back. -/

namespace Bango.Monsters

open Bango.Lib

/-- The world, and which monsters have been summoned. -/
structure Summoning where
  system : System
  /-- their places -/
  summoned : List Nat

/-- What happens next. -/
inductive Deed where
  | event (event : Event)
  /-- `Monster::Summon` -/
  | summon (index : UInt32) (x y map : Int32)
deriving DecidableEq, Repr

namespace Summoning

variable (db : MonsterDb) (s : Summoning)

/-- `Monster::Summon`. What `CreateMonster` and `World::Add` throw is caught by the command. -/
def summon (index : UInt32) (x y map : Int32) : Summoning :=
  match db index with
  | none => s
  | some init =>
    let made := s.system.makeMonster (.create init s.system.nextId x y map)
    ⟨(made.add s.system.made).1, s.system.made :: s.summoned⟩

/-- One step. -/
def step : Deed → Except ClockFault Summoning
  | .event event => do
    let system ← s.system.step db event
    return { s with system }
  | .summon index x y map => return s.summon db index x y map

/-- Nothing has been made yet. -/
def empty : Summoning := ⟨.empty, []⟩

/-- New monsters have HP, and the ids that are taken next are free. -/
def Fresh : Deed → Prop
  | .event event => System.Fresh db s.system event
  | .summon index _ _ _ => ∀ init ∈ db index, 0 < init.getMaxHp ∧ ¬ s.system.IsTaken s.system.nextId

instance (deed : Deed) : Decidable (s.Fresh db deed) :=
  match deed with
  | .event event => inferInstanceAs (Decidable (System.Fresh db s.system event))
  | .summon index _ _ _ => inferInstanceAs (Decidable (∀ init ∈ db index, _))

end Summoning

end Bango.Monsters
