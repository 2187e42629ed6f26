import Bango.Lib.Keyed

set_option autoImplicit false

/-! # The inventory of a player

The items that a player has in the game server's memory, with what it wears and rides. -/

namespace Bango.Items

open Bango.Lib

/-! ## Items -/

/-- `ITEM_CLASS`, or an attribute that is not in it. -/
inductive ItemClass where
  | weapon | defense | ornament | general | quest | money | transform | pet | yinyang | ride | other
deriving DecidableEq, Repr

/-- `ITEM_SUBCLASS`, as far as it decides where an item is worn. -/
inductive ItemSubclass where
  | sword | sword2Hand | wand | bow | dagger | soul | shield
  | helmet | upperArmor | lowerArmor | gauntlet | boots
  | ring | necklace | resistNecklace2 | trinket | cocoon | egg | other
deriving DecidableEq, Repr

/-- `WEAR_STATE`, as far as items are worn there. -/
inductive WearState where
  | weapon | shield | helmet | upperArmor | lowerArmor | gauntlet | boots | pet
  | ring | necklace | trinket | resistNecklace2 | transform
deriving DecidableEq, Repr

/-- `FindWearId`; `none` is -1. -/
def findWearId : ItemSubclass → Option WearState
  | .sword | .sword2Hand | .wand | .bow | .dagger | .soul => some .weapon
  | .shield => some .shield
  | .helmet => some .helmet
  | .upperArmor => some .upperArmor
  | .lowerArmor => some .lowerArmor
  | .gauntlet => some .gauntlet
  | .boots => some .boots
  | .ring => some .ring
  | .necklace => some .necklace
  | .resistNecklace2 => some .resistNecklace2
  | .trinket => some .trinket
  | .cocoon => some .transform
  | .egg => some .pet
  | .other => none

/-- `PC_ALL`. -/
def pcAll : UInt8 := 5

/-- `ITEM_PUTON`. -/
def itemPutOn : UInt32 := 1

/-- What `InitItem` says about all items of an index. -/
structure InitItem where
  itemClass : ItemClass := .weapon
  kind : ItemSubclass := .sword
  endurance : UInt8 := 0
  limitLevel : UInt8 := 1
  limitClass : UInt8 := pcAll
  plural : Bool := false
  wearable : Bool := false
deriving DecidableEq, Repr

/-- `WearId`, which `InitItem::set` takes from the kind. -/
def InitItem.wearId (init : InitItem) : Option WearState := findWearId init.kind

/-- `InitItem::DB()`. -/
abbrev ItemDb : Type := UInt16 → Option InitItem

/-- `ITEMINFO`, as far as it is ever given a value here. An id of the table is positive, and 0 stands
    for none. -/
structure ItemInfo where
  index : UInt16
  iid : Nat := 0
  info : UInt32 := 0
  num : UInt32 := 0
  curEnd : UInt8 := 0
deriving DecidableEq, Repr

structure Item where
  localId : UInt32
  init : InitItem
  info : ItemInfo
deriving DecidableEq, Repr

namespace Item

variable (item : Item)

/-- `UpdateNum`. -/
def updateNum (num : UInt32) : Item := { item with info := { item.info with num } }

/-- `UpdateIID`. -/
def updateIid (iid : Nat) : Item := { item with info := { item.info with iid } }

/-- `AddInfo`. -/
def addInfo (info : UInt32) : Item :=
  { item with info := { item.info with info := item.info.info ||| info } }

/-- `SubInfo`. -/
def subInfo (info : UInt32) : Item :=
  { item with info := { item.info with info := item.info.info &&& ~~~info } }

/-- Is the item put on? -/
def IsPutOn : Prop := item.info.info &&& itemPutOn ≠ 0

instance : Decidable item.IsPutOn := inferInstanceAs (Decidable (_ ≠ _))

end Item

/-! ## The inventory -/

/-- `m_items` maps local ids to items; of what a slot or `m_ride` points to only the kind is read. -/
structure Inventory where
  items : List Item
  wearItems : WearState → Option ItemSubclass
  ride : Bool
  keyed : Keyed Item.localId items

/-- An assertion fails or a null pointer is dereferenced. -/
inductive Fault where
  | assertion | nullPointer
deriving DecidableEq, Repr

namespace Inventory

/-- A new inventory, as its constructor's `Reset` leaves it. -/
def empty : Inventory := ⟨[], fun _ => none, false, keyed_nil⟩

variable (inv : Inventory)

/-- `FindByIndex`. Of several items with the index, `met` says which one the iteration of the
    unordered map meets first. -/
def findByIndex (met : Nat) (index : UInt16) : Option Item :=
  let found := inv.items.filter (·.info.index = index)
  found[met % found.length]?

/-- `FindByLocalID`. -/
def findByLocalId (localId : UInt32) : Option Item := findKey Item.localId localId inv.items

/-- `GetIID`. -/
def getIid (localId : UInt32) : Nat :=
  match inv.findByLocalId localId with
  | some item => item.info.iid
  | none => 0

/-- Change the item of a local id in place, as the shared pointers to it do. -/
def modify (localId : UInt32) (f : Item → Item) (hf : ∀ item, (f item).localId = item.localId) :
    Inventory :=
  { inv with
    items := updateKey Item.localId localId f inv.items
    keyed := inv.keyed.updateKey hf }

/-- `UpdateItemIID`. -/
def updateItemIid (localId : UInt32) (iid : Nat) : Inventory :=
  inv.modify localId (·.updateIid iid) fun _ => rfl

/-- Put a kind of item on a slot, or nothing. -/
def wear (slot : WearState) (kind : Option ItemSubclass) : Inventory :=
  { inv with wearItems := fun other => if other = slot then kind else inv.wearItems other }

/-- What `Insert` does for an item that comes from the table and is put on. -/
def applyPutOn (item : Item) : Except Fault Inventory :=
  let ridden := { inv with ride := inv.ride || item.init.itemClass = .ride }
  if ¬ item.IsPutOn then .ok inv
  else if ¬ item.init.wearable then .ok ridden
  else
    match item.init.wearId with
    | none => .error .assertion
    | some slot => .ok (ridden.wear slot (some item.init.kind))

/-- `Insert` of an item with the next local id; without an `InitItem`, or when the local id is taken,
    it returns a null pointer. -/
def insert (db : ItemDb) (localId : UInt32) (info : ItemInfo) :
    Except Fault (Inventory × Option Item) :=
  match db info.index with
  | none => .ok (inv, none)
  | some init =>
    let item : Item := { localId, init, info }
    if h : ∀ other ∈ inv.items, other.localId ≠ localId then
      let inv := { inv with items := item :: inv.items, keyed := keyed_cons.2 ⟨h, inv.keyed⟩ }
      match inv.applyPutOn item with
      | .error fault => .error fault
      | .ok inv => .ok (inv, some item)
    else .ok (inv, none)

/-- `Trash`. -/
def trash (localId : UInt32) : Option Inventory :=
  match inv.findByLocalId localId with
  | none => none
  | some item =>
    if item.IsPutOn then none
    else some { inv with
      items := eraseKey Item.localId localId inv.items
      keyed := inv.keyed.eraseKey localId }

/-- May an item of this kind be worn, with a shield or a two-handed sword on already? -/
def FreeHands (kind : ItemSubclass) : Prop :=
  (kind = .sword2Hand → inv.wearItems .shield = none) ∧
    (kind = .shield → inv.wearItems .weapon ≠ some .sword2Hand)

instance (kind : ItemSubclass) : Decidable (inv.FreeHands kind) := inferInstanceAs (Decidable (_ ∧ _))

/-- `PutOn`: the item, as it is now, and the inventory. -/
def putOn (localId : UInt32) : Option (Item × Inventory) :=
  match inv.findByLocalId localId with
  | none => none
  | some item =>
    let put := (item.addInfo itemPutOn, inv.modify localId (·.addInfo itemPutOn) fun _ => rfl)
    if item.IsPutOn then none
    else if item.init.itemClass = .ride then
      if inv.ride then none else some (put.1, { put.2 with ride := true })
    else if ¬ item.init.wearable then none
    else
      match item.init.wearId with
      | none => none
      | some slot =>
        if ¬ inv.FreeHands item.init.kind then none
        else if inv.wearItems slot ≠ none then none
        else some (put.1, put.2.wear slot (some item.init.kind))

/-- `PutOff`: the item, as it is now, and the inventory. -/
def putOff (localId : UInt32) : Except Fault (Option (Item × Inventory)) :=
  match inv.findByLocalId localId with
  | none => .ok none
  | some item =>
    let put := (item.subInfo itemPutOn, inv.modify localId (·.subInfo itemPutOn) fun _ => rfl)
    if ¬ item.IsPutOn then .ok none
    else if item.init.itemClass = .ride then
      if inv.ride then .ok (some (put.1, { put.2 with ride := false })) else .ok none
    else if ¬ item.init.wearable then .error .assertion
    else
      match item.init.wearId with
      | none => .error .assertion
      | some slot =>
        if inv.wearItems slot = none then .error .assertion
        else .ok (some (put.1, put.2.wear slot none))

end Inventory

end Bango.Items
