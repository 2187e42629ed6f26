import Bango.Items.Equipment

set_option autoImplicit false

/-! # The inventory without what is worn

Of a slot the player's other handlers read no more than the kind of the item on it, and of the ride
whether there is one. `Inventory` is the full inventory without the rest: its operations are those of
the full one. -/

namespace Bango.Items

open Bango.Lib

namespace FullInventory

/-- What the other handlers read. -/
def toInventory (inv : FullInventory) : Inventory where
  items := inv.items
  wearItems slot := (inv.wearItems slot).map (·.init.kind)
  ride := inv.ride.isSome
  keyed := inv.keyed

variable (specialty : SpecialtyDb) (db : ItemDb) (inv : FullInventory) (localId : UInt32)

theorem wear_toInventory (slot : WearState) (worn : Option Worn) :
    (inv.wear slot worn).toInventory = inv.toInventory.wear slot (worn.map (·.init.kind)) := by
  unfold wear toInventory Inventory.wear
  congr 1
  funext other
  by_cases hslot : other = slot
  · simp [hslot]
  · simp [hslot]

theorem putOnSlot_toInventory (slot : WearState) (item : Item) :
    (inv.putOnSlot specialty slot item).toInventory =
      inv.toInventory.wear slot (some item.init.kind) :=
  inv.wear_toInventory slot (some item.worn)

theorem putOffSlot_toInventory (slot : WearState) (item : Item) :
    (inv.putOffSlot specialty slot item).toInventory = inv.toInventory.wear slot none :=
  inv.wear_toInventory slot none

theorem freeHands_toInventory (kind : ItemSubclass) :
    inv.toInventory.FreeHands kind ↔ inv.FreeHands kind := by
  simp [Inventory.FreeHands, FreeHands, IsSword2Hand, toInventory]

theorem slot_toInventory (slot : WearState) :
    inv.toInventory.wearItems slot = none ↔ inv.wearItems slot = none :=
  Option.map_eq_none_iff

theorem trash_toInventory :
    inv.toInventory.trash localId =
      if (inv.trash localId).2 then some (inv.trash localId).1.toInventory else none := by
  have hfind : inv.toInventory.findByLocalId localId = inv.findByLocalId localId := rfl
  unfold Inventory.trash trash
  rw [hfind]
  cases inv.findByLocalId localId with
  | none => rfl
  | some item =>
      dsimp only
      split
      · rfl
      · rfl

theorem putOn_toInventory :
    inv.toInventory.putOn localId =
      (inv.putOn specialty localId).2.map fun item =>
        (item, (inv.putOn specialty localId).1.toInventory) := by
  have hfind : inv.toInventory.findByLocalId localId = inv.findByLocalId localId := rfl
  unfold Inventory.putOn putOn
  rw [hfind]
  cases inv.findByLocalId localId with
  | none => rfl
  | some item =>
      dsimp only
      by_cases hput : item.IsPutOn
      · rw [if_pos hput, if_pos hput]
        rfl
      rw [if_neg hput, if_neg hput]
      by_cases hclass : item.init.itemClass = .ride
      · rw [if_pos hclass, if_pos hclass]
        cases hride : inv.ride with
        | none =>
            simp only [toInventory, hride]
            rfl
        | some worn =>
            simp only [toInventory, hride]
            rfl
      rw [if_neg hclass, if_neg hclass]
      by_cases hwearable : item.init.wearable = true
      · rw [if_neg (not_not.2 hwearable), if_neg (not_not.2 hwearable)]
        cases item.init.wearId with
        | none => rfl
        | some slot =>
            dsimp only
            by_cases hhands : inv.FreeHands item.init.kind
            · have hhands' := (inv.freeHands_toInventory item.init.kind).2 hhands
              rw [if_neg (not_not.2 hhands), if_neg (not_not.2 hhands')]
              have hslot := inv.slot_toInventory slot
              by_cases hfree : inv.wearItems slot = none
              · rw [if_neg (not_not.2 hfree), if_neg (not_not.2 (hslot.2 hfree))]
                exact congrArg some (congrArg _
                  (putOnSlot_toInventory specialty (inv.modify localId _ _) slot item).symm)
              · rw [if_pos hfree, if_pos (mt hslot.1 hfree)]
                rfl
            · rw [if_pos hhands, if_pos (mt (inv.freeHands_toInventory item.init.kind).1 hhands)]
              rfl
      · rw [if_pos hwearable, if_pos hwearable]
        rfl

theorem putOff_toInventory :
    inv.toInventory.putOff localId =
      (inv.putOff specialty localId).map fun result =>
        result.2.map fun item => (item, result.1.toInventory) := by
  have hfind : inv.toInventory.findByLocalId localId = inv.findByLocalId localId := rfl
  unfold Inventory.putOff putOff
  rw [hfind]
  cases inv.findByLocalId localId with
  | none => rfl
  | some item =>
      dsimp only
      by_cases hput : item.IsPutOn
      · rw [if_neg (not_not.2 hput), if_neg (not_not.2 hput)]
        by_cases hclass : item.init.itemClass = .ride
        · rw [if_pos hclass, if_pos hclass]
          cases hride : inv.ride with
          | none =>
              simp only [toInventory, hride]
              rfl
          | some worn =>
              simp only [toInventory, hride]
              rfl
        rw [if_neg hclass, if_neg hclass]
        by_cases hwearable : item.init.wearable = true
        · rw [if_neg (not_not.2 hwearable), if_neg (not_not.2 hwearable)]
          cases item.init.wearId with
          | none => rfl
          | some slot =>
              dsimp only
              have hslot := inv.slot_toInventory slot
              by_cases hfree : inv.wearItems slot = none
              · rw [if_pos hfree, if_pos (hslot.2 hfree)]
                rfl
              · rw [if_neg hfree, if_neg (mt hslot.1 hfree)]
                exact congrArg Except.ok (congrArg some (congrArg _
                  (putOffSlot_toInventory specialty (inv.modify localId _ _) slot item).symm))
        · rw [if_pos hwearable, if_pos hwearable]
          rfl
      · rw [if_pos hput, if_pos hput]
        rfl

theorem mount_toInventory (item : Item) :
    (inv.mount item).toInventory = { inv.toInventory with ride := true } := rfl

theorem applyPutOn_toInventory (item : Item) :
    inv.toInventory.applyPutOn item = (inv.applyPutOn specialty item).map toInventory := by
  unfold Inventory.applyPutOn applyPutOn
  by_cases hput : item.IsPutOn
  · by_cases hwearable : item.init.wearable = true
    · cases hslot : item.init.wearId with
      | none =>
          simp [hput, hwearable]
          rfl
      | some slot =>
          have hwear := putOnSlot_toInventory specialty inv slot item
          by_cases hclass : item.init.itemClass = .ride
          · simp [hput, hwearable, hclass]
            refine congrArg Except.ok ?_
            rw [mount_toInventory, hwear]
            rfl
          · simp [hput, hwearable, hclass]
            exact congrArg Except.ok hwear.symm
    · by_cases hclass : item.init.itemClass = .ride
      · simp [hput, hwearable, hclass]
        rfl
      · simp [hput, hwearable, hclass]
        rfl
  · simp [hput]
    rfl

theorem insert_toInventory (info : ItemInfo) :
    inv.toInventory.insert db localId info =
      (inv.insert specialty db localId info).map fun result => (result.1.toInventory, result.2) := by
  unfold Inventory.insert insert
  cases db info.index with
  | none => rfl
  | some init =>
      dsimp only
      by_cases hfresh : ∀ other ∈ inv.toInventory.items, other.localId ≠ localId
      · have hfresh' : ∀ other ∈ inv.items, other.localId ≠ localId := hfresh
        have happly := applyPutOn_toInventory specialty
          { inv with
            items := ⟨localId, init, info⟩ :: inv.items
            keyed := keyed_cons.2 ⟨hfresh', inv.keyed⟩ } ⟨localId, init, info⟩
        rw [dif_pos hfresh, dif_pos hfresh']
        simp only [toInventory] at happly ⊢
        rw [happly]
        cases applyPutOn specialty _ (⟨localId, init, info⟩ : Item) with
        | error fault => rfl
        | ok inv => rfl
      · have hfresh' : ¬ ∀ other ∈ inv.items, other.localId ≠ localId := hfresh
        rw [dif_neg hfresh, dif_neg hfresh']
        rfl

end FullInventory

end Bango.Items
