import Mathlib.Order.Interval.Finset.Nat
import Bango.Lib.Runs
import Bango.Lib.Thresholds
import Bango.Loots.System

set_option autoImplicit false

/-! # Chances

How `Group` and `ItemGroup` get their entries. The chance of an entry in a file is cumulative, in
thousandths, and is its key in the map that the rolls look into. The prefix of a loot, which no pickup
reads, is left out. -/

namespace Bango.Loots

open Bango.Lib

/-- How an entry is refused. -/
inductive Refusal where
  /-- "Invalid amount of values in brackets" -/
  | invalidAmount
  /-- "Group index: … not found" -/
  | groupNotFound
  /-- "Chance value is higher than 1000" -/
  | higherThan1000
  /-- "Chance value is lower than previous chance value" -/
  | notHigherThanPrevious
deriving DecidableEq, Repr

section Entries

variable {α : Type} (chance : α → UInt32)

/-- `GetMaxMapKey`. -/
def getMaxMapKey (entries : List α) : UInt32 :=
  match entries.getLast? with
  | none => 0
  | some entry => chance entry

/-- `ValidateGroupInfo` and `ValidateLootInfo`. -/
def validate (entries : List α) (entry : α) : Except Refusal Unit :=
  if chance entry > 1000 then .error .higherThan1000
  else if chance entry ≤ getMaxMapKey chance entries then .error .notHigherThanPrevious
  else .ok ()

/-- How `AssignItemGroup` and `AssignGroup` go on with an entry: leading ones without a chance are
    ignored. -/
def assign (entries : List α) (entry : α) : Except Refusal (List α) :=
  if getMaxMapKey chance entries = 0 ∧ chance entry = 0 then .ok entries
  else do
    validate chance entries entry
    return insertSorted (fun entry => (chance entry).toNat) entry entries

end Entries

/-- `geon_index`. -/
def geonIndex : UInt32 := 31

/-- The `LootInfo` of the values in a bracket. -/
def lootInfo : List UInt32 → Option LootInfo
  | [chance, amount] => some ⟨geonIndex, chance, amount⟩
  | [chance, index, _] => some ⟨index, chance, 1⟩
  | [chance, index, _, amount] => some ⟨index, chance, amount⟩
  | _ => none

/-- `AssignGroup`. -/
def Group.assignGroup (group : Group) (values : List UInt32) : Except Refusal Group :=
  match lootInfo values with
  | none => .error .invalidAmount
  | some info => assign LootInfo.chance group info

/-- `AssignItemGroup`. -/
def Tables.assignItemGroup (tables : Tables) (itemGroup : ItemGroup) (values : List UInt32) :
    Except Refusal ItemGroup :=
  match values with
  | [chance, index] =>
    if tables.groups index = none then .error .groupNotFound
    else assign GroupInfo.chance itemGroup ⟨index, chance⟩
  | _ => .error .invalidAmount

/-- `rolled_group_it` of `RollGroup`. -/
def ItemGroup.rolled (itemGroup : ItemGroup) (draw : UInt32) : Option GroupInfo :=
  itemGroup.find? (Monsters.between 1 1000 draw < ·.chance)

/-- The generator gives this for a roll of a thousand. -/
def drawOf (roll : ℕ) : UInt32 := .ofNat (roll - 1)

/-! ## What the chances are for -/

/-- A roll selects the entry whose part of the thousand it is in, and nothing when it is above all of
    them. -/
structure Cumulative {α : Type} (chance : α → UInt32) (entries : List α) (roll : UInt32)
    (selected : Option α) : Prop where
  entry_iff : ∀ before entry after, entries = before ++ entry :: after →
    (selected = some entry ↔ getMaxMapKey chance before < roll ∧ roll ≤ chance entry)
  none_iff : selected = none ↔ getMaxMapKey chance entries < roll

/-- How many of the rolls from 1 to 1000 select an entry. -/
def winningRolls {α : Type} [DecidableEq α] (select : UInt32 → Option α) (entry : α) : ℕ :=
  ((Finset.Icc 1 1000).filter fun roll => select (drawOf roll) = some entry).card

/-- The rolls and the numbers of winning rolls are those of the cumulative chances, except where a roll
    is one of the chances, and for the first entry. -/
structure CumulativeExcept {α : Type} [DecidableEq α] (chance : α → UInt32) (entries : List α)
    (select : UInt32 → Option α) : Prop where
  cumulative_iff : ∀ draw, Cumulative chance entries (Monsters.between 1 1000 draw) (select draw) ↔
    ∀ entry ∈ entries, Monsters.between 1 1000 draw ≠ chance entry
  winningRolls_iff : ∀ before entry after, entries = before ++ entry :: after →
    (winningRolls select entry = (chance entry).toNat - (getMaxMapKey chance before).toNat ↔
      before ≠ [])

end Bango.Loots
