import Mathlib.Algebra.BigOperators.Group.Finset.Piecewise
import Mathlib.Data.Fintype.Option
import Bango.Items.Equipment

set_option autoImplicit false

/-! # What is worn, kept five times

The flag of an item, the slots and the ride, the visible indexes, the counters and the attack speed
are changed together by four moves: getting on and off a ride, and putting an item on a slot or taking
it off. -/

namespace Bango.Items

open Bango.Lib

/-! ## Items -/

namespace Item

variable {item other : Item}

theorem isPutOn_addInfo : (item.addInfo itemPutOn).IsPutOn := by
  intro h
  have hand : (item.info.info ||| itemPutOn) &&& itemPutOn =
      item.info.info &&& itemPutOn ||| itemPutOn &&& itemPutOn :=
    UInt32.toBitVec_inj.1 BitVec.and_or_distrib_right
  have hzero : item.info.info &&& itemPutOn ||| itemPutOn &&& itemPutOn = 0 := hand.symm.trans h
  exact absurd (UInt32.or_eq_zero_iff.1 hzero).2 (by decide)

theorem not_isPutOn_subInfo : ¬ (item.subInfo itemPutOn).IsPutOn := by
  show ¬ (item.info.info &&& ~~~itemPutOn) &&& itemPutOn ≠ 0
  rw [UInt32.and_assoc]
  simp

/-- What a slot points to does not change with the item's flags. -/
@[simp]
theorem worn_addInfo (info : UInt32) : (item.addInfo info).worn = item.worn := rfl

@[simp]
theorem worn_subInfo (info : UInt32) : (item.subInfo info).worn = item.worn := rfl

theorem init_eq_of_worn_eq (h : item.worn = other.worn) : item.init = other.init :=
  congrArg Worn.init h

theorem index_eq_of_worn_eq (h : item.worn = other.worn) : item.info.index = other.info.index :=
  congrArg Worn.index h

end Item

namespace FullInventory

variable {specialty : SpecialtyDb} {db : ItemDb} {inv inv' : FullInventory} {item item' other : Item}
  {localId : UInt32} {slot : WearState}

/-! ## Where the items are -/

theorem eq_of_localId_eq (hitem : item ∈ inv.items) (hother : other ∈ inv.items)
    (hlocal : item.localId = other.localId) : item = other :=
  List.inj_on_of_nodup_map inv.keyed hitem hother hlocal

theorem eq_of_worn_eq (hitem : item ∈ inv.items) (hother : other ∈ inv.items)
    (hworn : item.worn = other.worn) : item = other :=
  eq_of_localId_eq hitem hother (congrArg Worn.localId hworn)

/-- The items are from the table; the ride and the slots hold those that are put on. -/
structure Placed (db : ItemDb) (inv : FullInventory) : Prop where
  fromDb : ∀ item ∈ inv.items, db item.info.index = some item.init
  ride_iff : ∀ item ∈ inv.items,
    inv.ride = some item.worn ↔ item.IsPutOn ∧ item.init.itemClass = .ride
  slot_iff : ∀ item ∈ inv.items, ∀ slot, inv.wearItems slot = some item.worn ↔
    item.IsPutOn ∧ item.init.itemClass ≠ .ride ∧ item.init.wearId = some slot
  wearable : ∀ item ∈ inv.items, item.IsPutOn → item.init.itemClass ≠ .ride →
    item.init.wearable = true ∧ ∃ slot, item.init.wearId = some slot
  ride_mem : ∀ worn, inv.ride = some worn → ∃ item ∈ inv.items, item.worn = worn
  slot_mem : ∀ slot worn, inv.wearItems slot = some worn → ∃ item ∈ inv.items, item.worn = worn
  hands : inv.wearItems .shield ≠ none → ¬ IsSword2Hand (inv.wearItems .weapon)

/-- One item is changed in place, but not what pointers to it give. -/
structure Replaced (inv inv' : FullInventory) (item item' : Item) : Prop where
  worn : item'.worn = item.worn
  perm : ∃ rest, inv.items.Perm (item :: rest) ∧ inv'.items.Perm (item' :: rest)

theorem Replaced.mem (h : Replaced inv inv' item item') : item ∈ inv.items := by
  obtain ⟨rest, hperm, _⟩ := h.perm
  exact hperm.mem_iff.2 List.mem_cons_self

theorem Replaced.mem_iff (h : Replaced inv inv' item item') :
    other ∈ inv'.items ↔ other = item' ∨ other ∈ inv.items ∧ other.worn ≠ item.worn := by
  obtain ⟨rest, hperm, hperm'⟩ := h.perm
  have hkeyed := (keyed_cons.1 ((Keyed.perm hperm).1 inv.keyed)).1
  rw [hperm'.mem_iff, hperm.mem_iff, List.mem_cons, List.mem_cons]
  constructor
  · rintro (rfl | hrest)
    · exact .inl rfl
    · exact .inr ⟨.inr hrest, fun hworn => hkeyed other hrest (congrArg Worn.localId hworn)⟩
  · rintro (rfl | ⟨rfl | hrest, hworn⟩)
    · exact .inl rfl
    · exact absurd rfl hworn
    · exact .inr hrest

theorem replaced_modify {f : Item → Item} {hf : ∀ item, (f item).localId = item.localId}
    (hitem : item ∈ inv.items) (hlocal : item.localId = localId) (hworn : (f item).worn = item.worn) :
    Replaced inv (inv.modify localId f hf) item (f item) where
  worn := hworn
  perm := by
    have hperm := List.perm_cons_erase hitem
    refine ⟨inv.items.erase item, hperm, ?_⟩
    rw [← hlocal]
    exact inv.keyed.updateKey_perm hperm f

/-- The ride and the slots change for the one item only. -/
theorem Placed.replace (h : inv.Placed db) (hrep : Replaced inv inv' item item')
    (hride : ∀ worn, worn ≠ item.worn → (inv'.ride = some worn ↔ inv.ride = some worn))
    (hslot : ∀ slot worn, worn ≠ item.worn →
      (inv'.wearItems slot = some worn ↔ inv.wearItems slot = some worn))
    (hride_iff : inv'.ride = some item.worn ↔ item'.IsPutOn ∧ item.init.itemClass = .ride)
    (hslot_iff : ∀ slot, inv'.wearItems slot = some item.worn ↔
      item'.IsPutOn ∧ item.init.itemClass ≠ .ride ∧ item.init.wearId = some slot)
    (hwearable : item'.IsPutOn → item.init.itemClass ≠ .ride →
      item.init.wearable = true ∧ ∃ slot, item.init.wearId = some slot)
    (hhands : inv'.wearItems .shield ≠ none → ¬ IsSword2Hand (inv'.wearItems .weapon)) :
    inv'.Placed db where
  fromDb other hother := by
    rcases hrep.mem_iff.1 hother with rfl | ⟨hmem, _⟩
    · rw [Item.index_eq_of_worn_eq hrep.worn, Item.init_eq_of_worn_eq hrep.worn]
      exact h.fromDb item hrep.mem
    · exact h.fromDb other hmem
  ride_iff other hother := by
    rcases hrep.mem_iff.1 hother with rfl | ⟨hmem, hne⟩
    · rw [hrep.worn, Item.init_eq_of_worn_eq hrep.worn]
      exact hride_iff
    · rw [hride other.worn hne]
      exact h.ride_iff other hmem
  slot_iff other hother slot := by
    rcases hrep.mem_iff.1 hother with rfl | ⟨hmem, hne⟩
    · rw [hrep.worn, Item.init_eq_of_worn_eq hrep.worn]
      exact hslot_iff slot
    · rw [hslot slot other.worn hne]
      exact h.slot_iff other hmem slot
  wearable other hother := by
    rcases hrep.mem_iff.1 hother with rfl | ⟨hmem, _⟩
    · rw [Item.init_eq_of_worn_eq hrep.worn]
      exact hwearable
    · exact h.wearable other hmem
  ride_mem worn hworn := by
    by_cases hne : worn = item.worn
    · exact ⟨item', hrep.mem_iff.2 (.inl rfl), hrep.worn.trans hne.symm⟩
    · obtain ⟨other, hmem, rfl⟩ := h.ride_mem worn ((hride worn hne).1 hworn)
      exact ⟨other, hrep.mem_iff.2 (.inr ⟨hmem, hne⟩), rfl⟩
  slot_mem slot worn hworn := by
    by_cases hne : worn = item.worn
    · exact ⟨item', hrep.mem_iff.2 (.inl rfl), hrep.worn.trans hne.symm⟩
    · obtain ⟨other, hmem, rfl⟩ := h.slot_mem slot worn ((hslot slot worn hne).1 hworn)
      exact ⟨other, hrep.mem_iff.2 (.inr ⟨hmem, hne⟩), rfl⟩
  hands := hhands

/-- Where an item is worn; `none` is the ride. -/
def place (item : Item) : Option WearState :=
  if item.init.itemClass = .ride then none else item.init.wearId

/-- No place is shared. -/
theorem Placed.eq_of_place_eq (h : inv.Placed db) (hitem : item ∈ inv.items) (hother : other ∈ inv.items)
    (hput : item.IsPutOn) (hput' : other.IsPutOn) (hplace : place item = place other) :
    item = other := by
  unfold place at hplace
  by_cases hride : item.init.itemClass = .ride
  · by_cases hride' : other.init.itemClass = .ride
    · have hworn := (h.ride_iff item hitem).2 ⟨hput, hride⟩
      have hworn' := (h.ride_iff other hother).2 ⟨hput', hride'⟩
      exact eq_of_worn_eq hitem hother (Option.some.inj (hworn.symm.trans hworn'))
    · obtain ⟨_, slot, hslot⟩ := h.wearable other hother hput' hride'
      rw [if_pos hride, if_neg hride', hslot] at hplace
      cases hplace
  · obtain ⟨_, slot, hslot⟩ := h.wearable item hitem hput hride
    by_cases hride' : other.init.itemClass = .ride
    · rw [if_neg hride, if_pos hride', hslot] at hplace
      cases hplace
    · rw [if_neg hride, if_neg hride', hslot] at hplace
      have hworn := (h.slot_iff item hitem slot).2 ⟨hput, hride, hslot⟩
      have hworn' := (h.slot_iff other hother slot).2 ⟨hput', hride', hplace.symm⟩
      exact eq_of_worn_eq hitem hother (Option.some.inj (hworn.symm.trans hworn'))

/-- Items of one index are worn in one place, so that no two of them are. -/
theorem Placed.eq_of_index_eq (h : inv.Placed db) (hitem : item ∈ inv.items)
    (hother : other ∈ inv.items) (hput : item.IsPutOn) (hput' : other.IsPutOn)
    (hindex : item.info.index = other.info.index) : item = other := by
  have hinit := h.fromDb item hitem
  rw [hindex, h.fromDb other hother, Option.some.injEq] at hinit
  exact h.eq_of_place_eq hitem hother hput hput' (by unfold place; rw [hinit])

theorem items_nodup (inv : FullInventory) : inv.items.Nodup := inv.keyed.of_map

theorem Placed.nodup_places (h : inv.Placed db) :
    ((inv.items.filter (·.IsPutOn)).map place).Nodup := by
  refine (inv.items_nodup.filter _).map_on fun item hitem other hother hplace => ?_
  rw [List.mem_filter, decide_eq_true_eq] at hitem hother
  exact h.eq_of_place_eq hitem.1 hother.1 hitem.2 hother.2 hplace

/-- There are fewer places than cells for visible indexes. -/
theorem length_worn_lt {items : List Item} (h : ((items.filter (·.IsPutOn)).map place).Nodup) :
    (items.filter (·.IsPutOn)).length < equipmentSize := by
  have hle := h.length_le_card
  rw [List.length_map] at hle
  exact Nat.lt_of_le_of_lt hle (by decide)

theorem Placed.length_worn_lt (h : inv.Placed db) :
    (inv.items.filter (·.IsPutOn)).length < equipmentSize :=
  FullInventory.length_worn_lt h.nodup_places

theorem Placed.nodup_worn_indexes (h : inv.Placed db) :
    ((inv.items.filter (·.IsPutOn)).map (·.info.index)).Nodup := by
  refine (inv.items_nodup.filter _).map_on fun item hitem other hother hindex => ?_
  rw [List.mem_filter, decide_eq_true_eq] at hitem hother
  exact h.eq_of_index_eq hitem.1 hother.1 hitem.2 hother.2 hindex

/-! ## Visible indexes -/

/-- The visible indexes are those of the items put on. -/
def Visible (inv : FullInventory) : Prop :=
  (filled 0 inv.equipment).Perm (filled 0 ((inv.items.filter (·.IsPutOn)).map (·.info.index)))

theorem Visible.length_lt (h : inv.Visible) (hplaced : inv.Placed db) :
    (filled 0 inv.equipment).length < inv.equipment.length := by
  rw [List.Perm.length_eq h, inv.equipment_length]
  refine Nat.lt_of_le_of_lt (List.length_filter_le _ _) ?_
  rw [List.length_map]
  exact hplaced.length_worn_lt

/-- An item is put on, and its index becomes visible. -/
theorem Visible.fill (h : inv.Visible) (hplaced : inv.Placed db)
    (hrep : Replaced inv inv' item item') (hoff : ¬ item.IsPutOn) (hon : item'.IsPutOn)
    (hequipment : inv'.equipment = fillCell 0 item.info.index inv.equipment) : inv'.Visible := by
  obtain ⟨rest, hperm, hperm'⟩ := hrep.perm
  have hbefore := (hperm.filter (·.IsPutOn)).map (·.info.index)
  have hafter := (hperm'.filter (·.IsPutOn)).map (·.info.index)
  rw [List.filter_cons_of_neg (by simpa using hoff)] at hbefore
  rw [List.filter_cons_of_pos (by simpa using hon), List.map_cons,
    Item.index_eq_of_worn_eq hrep.worn] at hafter
  have hvisible := List.Perm.trans h (hbefore.filter _)
  refine List.Perm.trans ?_ (hafter.filter _).symm
  rw [hequipment]
  by_cases hzero : item.info.index = 0
  · rw [hzero, filled_fillCell_blank, List.filter_cons_of_neg (by simp)]
    exact hvisible
  · rw [List.filter_cons_of_pos (by simpa using hzero)]
    exact (filled_fillCell hzero (h.length_lt hplaced)).trans (hvisible.cons _)

/-- An item is put off, and its index, which no other item has that is put on, is not visible any
    more. -/
theorem Visible.clear (h : inv.Visible) (hplaced : inv.Placed db)
    (hrep : Replaced inv inv' item item') (hon : item.IsPutOn) (hoff : ¬ item'.IsPutOn)
    (hequipment : inv'.equipment = clearCells 0 item.info.index inv.equipment) : inv'.Visible := by
  obtain ⟨rest, hperm, hperm'⟩ := hrep.perm
  have hbefore := (hperm.filter (·.IsPutOn)).map (·.info.index)
  have hafter := (hperm'.filter (·.IsPutOn)).map (·.info.index)
  rw [List.filter_cons_of_pos (by simpa using hon), List.map_cons] at hbefore
  rw [List.filter_cons_of_neg (by simpa using hoff)] at hafter
  have hnodup := hbefore.nodup_iff.1 hplaced.nodup_worn_indexes
  have hvisible := (List.Perm.trans h (hbefore.filter _)).filter (· ≠ item.info.index)
  refine List.Perm.trans ?_ (hafter.filter _).symm
  rw [hequipment, filled_clearCells]
  refine hvisible.trans (.of_eq ?_)
  rw [List.filter_comm, List.filter_cons_of_neg (by simp)]
  congr 1
  refine List.filter_eq_self.2 fun index hindex => decide_eq_true fun heq => ?_
  exact (List.nodup_cons.1 hnodup).1 (heq ▸ hindex)

/-! ## Counters -/

/-- The counters hold the sums over the slots, and the attack speed is the worn weapon's. -/
structure Counted (specialty : SpecialtyDb) (inv : FullInventory) : Prop where
  counters : ∀ counter, (inv.counters counter).toNat =
    (∑ slot, amountOf specialty counter (inv.wearItems slot)) % 2 ^ 16
  attackSpeed : inv.attackSpeed.toNat = attackSpeedOf specialty (inv.wearItems .weapon) % 2 ^ 16

theorem amountOf_none (counter : Counter) : amountOf specialty counter none = 0 := rfl

theorem amountOf_worn (counter : Counter) : amountOf specialty counter (some item.worn) =
    ((specialty item.info.index).amount counter).toNat := rfl

/-- The sum over the slots changes by what changes on one of them. -/
theorem sum_update_add (f : Option Worn → Nat) (wearItems : WearState → Option Worn)
    (slot : WearState) (worn : Option Worn) :
    ∑ other, f (Function.update wearItems slot worn other) + f (wearItems slot) =
      ∑ other, f (wearItems other) + f worn := by
  have hupdate : (fun other => f (Function.update wearItems slot worn other)) =
      Function.update (f ∘ wearItems) slot (f worn) := Function.comp_update f wearItems slot worn
  rw [hupdate, Finset.sum_update_of_mem (Finset.mem_univ slot), Finset.sdiff_singleton_eq_erase]
  have hsum := Finset.add_sum_erase Finset.univ (f ∘ wearItems) (Finset.mem_univ slot)
  simp only [Function.comp_apply] at hsum ⊢
  omega

theorem Counted.putOnSlot (h : inv.Counted specialty) (hfree : inv.wearItems slot = none)
    (hweapon : item.init.itemClass = .weapon ↔ slot = .weapon) :
    (inv.putOnSlot specialty slot item).Counted specialty where
  counters counter := by
    have hsum := sum_update_add (amountOf specialty counter) inv.wearItems slot (some item.worn)
    rw [hfree, amountOf_none, amountOf_worn] at hsum
    have hcounter := h.counters counter
    show (inv.counters counter + ((specialty item.info.index).amount counter).toUInt16).toNat =
      (∑ other, amountOf specialty counter (Function.update inv.wearItems slot (some item.worn) other))
        % 2 ^ 16
    rw [UInt16.toNat_add, UInt32.toNat_toUInt16]
    omega
  attackSpeed := by
    show (if item.init.itemClass = .weapon then
        (specialty item.info.index).attackSpeed.toUInt16 else inv.attackSpeed).toNat =
      attackSpeedOf specialty (Function.update inv.wearItems slot (some item.worn) .weapon) % 2 ^ 16
    by_cases hslot : slot = .weapon
    · rw [if_pos (hweapon.2 hslot), hslot, Function.update_self, UInt32.toNat_toUInt16]
      rfl
    · rw [if_neg (mt hweapon.1 hslot), Function.update_of_ne (Ne.symm hslot)]
      exact h.attackSpeed

theorem Counted.putOffSlot (h : inv.Counted specialty) (hworn : inv.wearItems slot = some item.worn)
    (hweapon : item.init.itemClass = .weapon ↔ slot = .weapon) :
    (inv.putOffSlot specialty slot item).Counted specialty where
  counters counter := by
    have hsum := sum_update_add (amountOf specialty counter) inv.wearItems slot none
    rw [hworn, amountOf_none, amountOf_worn] at hsum
    have hcounter := h.counters counter
    show (inv.counters counter - ((specialty item.info.index).amount counter).toUInt16).toNat =
      (∑ other, amountOf specialty counter (Function.update inv.wearItems slot none other)) % 2 ^ 16
    rw [UInt16.toNat_sub, UInt32.toNat_toUInt16]
    omega
  attackSpeed := by
    show (if item.init.itemClass = .weapon then 0 else inv.attackSpeed).toNat =
      attackSpeedOf specialty (Function.update inv.wearItems slot none .weapon) % 2 ^ 16
    by_cases hslot : slot = .weapon
    · rw [if_pos (hweapon.2 hslot), hslot, Function.update_self]
      rfl
    · rw [if_neg (mt hweapon.1 hslot), Function.update_of_ne (Ne.symm hslot)]
      exact h.attackSpeed

end FullInventory

end Bango.Items
