import Mathlib.Algebra.BigOperators.Group.Finset.Basic
import Mathlib.Data.Finset.Insert
import Mathlib.Data.Fintype.Defs
import Mathlib.Logic.Function.Basic
import Bango.Items.Inventory
import Bango.Lib.Cells
import Bango.Lib.Runs

set_option autoImplicit false

/-! # What a player wears

The inventory with all that it keeps about the items that are put on: the slots and the ride with the
items themselves, the indexes that other players see, and the sums of the items' specialties. -/

namespace Bango.Items

open Bango.Lib

instance : Fintype WearState where
  elems := {.weapon, .shield, .helmet, .upperArmor, .lowerArmor, .gauntlet, .boots, .pet, .ring,
    .necklace, .trinket, .resistNecklace2, .transform}
  complete slot := by cases slot <;> decide

/-! ## Specialties -/

/-- A property that is summed over the items worn: the keys of `m_stats` and `m_resists`, and the
    counters that have names of their own. -/
inductive Counter where
  | str | hth | int | wis | dex
  | hp | mp | defense | hit | dodge | absorb
  | minAttack | maxAttack | minMagic | maxMagic
  | fire | ice | litning | curse | palsy
deriving DecidableEq, Repr

/-- `InitItem::Specialty`. -/
structure Specialty where
  amount : Counter → UInt32 := fun _ => 0
  attackSpeed : UInt32 := 0

/-- `Specialty` of all items of an index. -/
abbrev SpecialtyDb : Type := UInt16 → Specialty

/-! ## The inventory -/

/-- What an `Item::Ptr` gives that never changes: the local id, and the `InitItem` with its index. -/
structure Worn where
  localId : UInt32
  index : UInt16
  init : InitItem
deriving DecidableEq, Repr

/-- The item as a slot or `m_ride` points to it. -/
def Item.worn (item : Item) : Worn := ⟨item.localId, item.info.index, item.init⟩

theorem Item.localId_addInfo (info : UInt32) (item : Item) :
    (item.addInfo info).localId = item.localId := rfl

theorem Item.localId_subInfo (info : UInt32) (item : Item) :
    (item.subInfo info).localId = item.localId := rfl

theorem Item.localId_updateNum (num : UInt32) (item : Item) :
    (item.updateNum num).localId = item.localId := rfl

theorem Item.localId_updateIid (iid : Nat) (item : Item) :
    (item.updateIid iid).localId = item.localId := rfl

/-- `EQUIPMENT_SIZE`. -/
def equipmentSize : Nat := 37

/-- `Inventory`. -/
structure FullInventory where
  items : List Item
  keyed : Keyed Item.localId items
  /-- `m_equipment.Index` -/
  equipment : List UInt16
  equipment_length : equipment.length = equipmentSize
  wearItems : WearState → Option Worn
  ride : Option Worn
  counters : Counter → UInt16
  /-- `m_aspeed` -/
  attackSpeed : UInt16

namespace FullInventory

/-- A new inventory, as its constructor's `Reset` leaves it. -/
def empty : FullInventory where
  items := []
  keyed := keyed_nil
  equipment := List.replicate equipmentSize 0
  equipment_length := List.length_replicate
  wearItems _ := none
  ride := none
  counters _ := 0
  attackSpeed := 0

variable (specialty : SpecialtyDb) (db : ItemDb) (inv : FullInventory)

/-- `AddVisibleIndex`. -/
def addVisibleIndex (index : UInt16) : FullInventory :=
  { inv with
    equipment := fillCell 0 index inv.equipment
    equipment_length := length_fillCell.trans inv.equipment_length }

/-- `RemoveVisibleIndex`. -/
def removeVisibleIndex (index : UInt16) : FullInventory :=
  { inv with
    equipment := clearCells 0 index inv.equipment
    equipment_length := length_clearCells.trans inv.equipment_length }

/-- `ApplySpecialty`. -/
def applySpecialty (item : Worn) : FullInventory :=
  { inv with
    counters := fun counter =>
      inv.counters counter + ((specialty item.index).amount counter).toUInt16
    attackSpeed :=
      if item.init.itemClass = .weapon then (specialty item.index).attackSpeed.toUInt16
      else inv.attackSpeed }

/-- `FreeSpecialty`. -/
def freeSpecialty (item : Worn) : FullInventory :=
  { inv with
    counters := fun counter =>
      inv.counters counter - ((specialty item.index).amount counter).toUInt16
    attackSpeed := if item.init.itemClass = .weapon then 0 else inv.attackSpeed }

/-- Put an item on a slot, or nothing. -/
def wear (slot : WearState) (item : Option Worn) : FullInventory :=
  { inv with wearItems := Function.update inv.wearItems slot item }

/-- `FindByLocalID`. -/
def findByLocalId (localId : UInt32) : Option Item := findKey Item.localId localId inv.items

/-- An item comes on a slot. The index of its `InitItem` is the one it was found by. -/
def putOnSlot (slot : WearState) (item : Item) : FullInventory :=
  ((inv.wear slot (some item.worn)).addVisibleIndex item.info.index).applySpecialty specialty
    item.worn

/-- An item comes off its slot. -/
def putOffSlot (slot : WearState) (item : Item) : FullInventory :=
  ((inv.wear slot none).removeVisibleIndex item.info.index).freeSpecialty specialty item.worn

/-- An item becomes the ride. -/
def mount (item : Item) : FullInventory :=
  { inv with ride := some item.worn }.addVisibleIndex item.info.index

/-- The player gets off an item. -/
def dismount (item : Item) : FullInventory :=
  { inv with ride := none }.removeVisibleIndex item.info.index

/-- Change the item of a local id in place, as the shared pointers to it do. -/
def modify (localId : UInt32) (f : Item → Item) (hf : ∀ item, (f item).localId = item.localId) :
    FullInventory :=
  { inv with
    items := updateKey Item.localId localId f inv.items
    keyed := inv.keyed.updateKey hf }

/-- What `Insert` does for an item that comes from the table and is put on. -/
def applyPutOn (item : Item) : Except Fault FullInventory := do
  let inv ←
    if item.init.wearable ∧ item.IsPutOn then
      match item.init.wearId with
      | none => .error .assertion
      | some slot => .ok (inv.putOnSlot specialty slot item)
    else .ok inv
  return if item.init.itemClass = .ride ∧ item.IsPutOn then inv.mount item else inv

/-- `Insert` of an item with the next local id; without an `InitItem`, or when the local id is taken,
    it returns a null pointer. -/
def insert (localId : UInt32) (info : ItemInfo) : Except Fault (FullInventory × Option Item) :=
  match db info.index with
  | none => .ok (inv, none)
  | some init =>
    let item : Item := { localId, init, info }
    if h : ∀ other ∈ inv.items, other.localId ≠ localId then do
      let inv := { inv with items := item :: inv.items, keyed := keyed_cons.2 ⟨h, inv.keyed⟩ }
      let inv ← inv.applyPutOn specialty item
      return (inv, some item)
    else .ok (inv, none)

/-- `Trash`: the inventory, and whether the item is gone. -/
def trash (localId : UInt32) : FullInventory × Bool :=
  match inv.findByLocalId localId with
  | none => (inv, false)
  | some item =>
    if item.IsPutOn then (inv, false)
    else
      ({ inv with
        items := eraseKey Item.localId localId inv.items
        keyed := inv.keyed.eraseKey localId }, true)

/-- Is the item, of which the slot holds nothing or an item, a two-handed sword? -/
def IsSword2Hand (item : Option Worn) : Prop := item.map (·.init.kind) = some .sword2Hand

instance (item : Option Worn) : Decidable (IsSword2Hand item) := inferInstanceAs (Decidable (_ = _))

/-- May an item of this kind be worn, with a shield or a two-handed sword on already? -/
def FreeHands (kind : ItemSubclass) : Prop :=
  (kind = .sword2Hand → inv.wearItems .shield = none) ∧
    (kind = .shield → ¬ IsSword2Hand (inv.wearItems .weapon))

instance (kind : ItemSubclass) : Decidable (inv.FreeHands kind) := inferInstanceAs (Decidable (_ ∧ _))

/-- `PutOn`: the inventory, and the item as it is now. -/
def putOn (localId : UInt32) : FullInventory × Option Item :=
  match inv.findByLocalId localId with
  | none => (inv, none)
  | some item =>
    let put := inv.modify localId (·.addInfo itemPutOn) (Item.localId_addInfo itemPutOn)
    if item.IsPutOn then (inv, none)
    else if item.init.itemClass = .ride then
      if inv.ride ≠ none then (inv, none)
      else (put.mount item, some (item.addInfo itemPutOn))
    else if ¬ item.init.wearable then (inv, none)
    else
      match item.init.wearId with
      | none => (inv, none)
      | some slot =>
        if ¬ inv.FreeHands item.init.kind then (inv, none)
        else if inv.wearItems slot ≠ none then (inv, none)
        else (put.putOnSlot specialty slot item, some (item.addInfo itemPutOn))

/-- `PutOff`: the inventory, and the item as it is now. -/
def putOff (localId : UInt32) : Except Fault (FullInventory × Option Item) :=
  match inv.findByLocalId localId with
  | none => .ok (inv, none)
  | some item =>
    let put := inv.modify localId (·.subInfo itemPutOn) (Item.localId_subInfo itemPutOn)
    if ¬ item.IsPutOn then .ok (inv, none)
    else if item.init.itemClass = .ride then
      if inv.ride = none then .ok (inv, none)
      else .ok (put.dismount item, some (item.subInfo itemPutOn))
    else if ¬ item.init.wearable then .error .assertion
    else
      match item.init.wearId with
      | none => .error .assertion
      | some slot =>
        if inv.wearItems slot = none then .error .assertion
        else .ok (put.putOffSlot specialty slot item, some (item.subInfo itemPutOn))

/-! ## Agreement -/

/-- What an item on a slot adds to a counter. -/
def amountOf (counter : Counter) : Option Worn → Nat
  | none => 0
  | some item => ((specialty item.index).amount counter).toNat

/-- The attack speed of an item on a slot. -/
def attackSpeedOf : Option Worn → Nat
  | none => 0
  | some item => (specialty item.index).attackSpeed.toNat

/-- All that the inventory keeps about the items put on agrees with the items. -/
structure Dressed : Prop where
  isPutOn_iff : ∀ item ∈ inv.items, item.IsPutOn ↔
    inv.ride = some item.worn ∨
      ∃ slot, item.init.wearId = some slot ∧ inv.wearItems slot = some item.worn
  ride_mem : ∀ worn, inv.ride = some worn → ∃ item ∈ inv.items, item.worn = worn
  slot_mem : ∀ slot worn, inv.wearItems slot = some worn →
    worn.init.wearId = some slot ∧ ∃ item ∈ inv.items, item.worn = worn
  unshared : ∀ item ∈ inv.items, ∀ other ∈ inv.items, item.IsPutOn → other.IsPutOn →
    item.init.itemClass ≠ .ride → other.init.itemClass ≠ .ride →
    item.init.wearId = other.init.wearId → item = other
  hands : ∀ slot slot' sword shield, inv.wearItems slot = some sword →
    inv.wearItems slot' = some shield → sword.init.kind = .sword2Hand →
    shield.init.kind ≠ .shield
  visible : (filled 0 inv.equipment).Perm
    (filled 0 ((inv.items.filter (·.IsPutOn)).map (·.info.index)))
  visible_nodup : (filled 0 inv.equipment).Nodup
  counters : ∀ counter, (inv.counters counter).toNat =
    (∑ slot, amountOf specialty counter (inv.wearItems slot)) % 2 ^ 16
  attackSpeed : inv.attackSpeed.toNat = attackSpeedOf specialty (inv.wearItems .weapon) % 2 ^ 16

/-- Exactly the items of class `IC_WEAPON` have a kind that is worn as the weapon. -/
def WeaponsOnly (db : ItemDb) : Prop :=
  ∀ index init, db index = some init → (init.itemClass = .weapon ↔ init.wearId = some .weapon)

/-! ## Runs -/

/-- An operation, with the local id that it is given. -/
inductive Op where
  | insert (localId : UInt32) (info : ItemInfo)
  | putOn (localId : UInt32)
  | putOff (localId : UInt32)
  | trash (localId : UInt32)
deriving DecidableEq, Repr

/-- What is inserted is not put on. -/
def Op.Unworn : Op → Prop
  | .insert _ info => info.info &&& itemPutOn = 0
  | _ => True

instance (op : Op) : Decidable op.Unworn := by
  unfold Op.Unworn
  split <;> infer_instance

/-- An operation: the inventory, and whether the operation was possible. -/
def apply : Op → Except Fault (FullInventory × Bool)
  | .insert localId info =>
    (inv.insert specialty db localId info).map fun result => (result.1, result.2.isSome)
  | .putOn localId =>
    let result := inv.putOn specialty localId
    .ok (result.1, result.2.isSome)
  | .putOff localId =>
    (inv.putOff specialty localId).map fun result => (result.1, result.2.isSome)
  | .trash localId => .ok (inv.trash localId)

def step (op : Op) : Except Fault FullInventory := (inv.apply specialty db op).map Prod.fst

end FullInventory

end Bango.Items
