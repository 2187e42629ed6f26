import Bango.Items.Proofs.Moves

set_option autoImplicit false

/-! # Reloading an inventory

Wearing is implemented twice: `PutOn` puts an item on, and `Insert` does so for an item that comes with
its flag set. Both leave what the items put on say, in whatever order they come, as long as no item
that is ridden could be worn too. -/

namespace Bango.Items

open Bango.Lib

namespace FullInventory

variable {specialty : SpecialtyDb} {db : ItemDb} {inv inv' : FullInventory} {item : Item}
  {items items' : List Item} {slot : WearState}

/-! ## Reloading -/

/-- `Insert` of the `ITEMINFO` of an item, as a new item with its own local id. -/
def load (specialty : SpecialtyDb) (db : ItemDb) (inv : FullInventory) (entry : UInt32 × Item) :
    Except Fault FullInventory :=
  (inv.insert specialty db entry.1 entry.2.info).map Prod.fst

/-- The same items, by their indexes, are worn on slots and ridden, and others see the same indexes;
    the counters are the same. -/
structure SameWorn (inv inv' : FullInventory) : Prop where
  slots : ∀ slot, (inv'.wearItems slot).map Worn.index = (inv.wearItems slot).map Worn.index
  ride : inv'.ride.map Worn.index = inv.ride.map Worn.index
  visible : (filled 0 inv'.equipment).Perm (filled 0 inv.equipment)
  counters : inv'.counters = inv.counters

/-- Loaded into a new inventory in any order, the items bring no assertion to fail and lead to an
    inventory with the property. -/
def Reloads (specialty : SpecialtyDb) (db : ItemDb) (inv : FullInventory) (P : FullInventory → Prop) :
    Prop :=
  ∀ order : List (UInt32 × Item), (order.map Prod.snd).Perm inv.items →
    (order.map Prod.fst).Nodup → ∃ inv', run (load specialty db) empty order = .ok inv' ∧ P inv'

/-- What is ridden is not `Wearable`. -/
def RideOnly (inv : FullInventory) : Prop :=
  ∀ worn, inv.ride = some worn → worn.init.wearable = false

/-- Every item of class `IC_WEAPON` that is worn on a slot has the attack speed that is kept. -/
def OneSpeed (specialty : SpecialtyDb) (inv : FullInventory) : Prop :=
  ∀ slot worn, inv.wearItems slot = some worn → worn.init.itemClass = .weapon →
    (specialty worn.index).attackSpeed.toUInt16 = inv.attackSpeed

/-! ## What items say about an inventory -/

/-- What the inventory keeps about items that are put on is what the given items say. -/
structure Wears (specialty : SpecialtyDb) (inv : FullInventory) (items : List Item) : Prop where
  slots : ∀ slot index, (inv.wearItems slot).map Worn.index = some index ↔
    ∃ item ∈ items, item.OnSlot ∧ item.init.wearId = some slot ∧ item.info.index = index
  ride : ∀ index, inv.ride.map Worn.index = some index ↔
    ∃ item ∈ items, item.IsPutOn ∧ item.init.itemClass = .ride ∧ item.info.index = index
  visible : (filled 0 inv.equipment).Perm
    (filled 0 ((items.filter (·.IsPutOn)).map (·.info.index)))
  counters : ∀ counter, (inv.counters counter).toNat = wornSum specialty counter items % 2 ^ 16

theorem Kept.wears (h : inv.Kept specialty db) : inv.Wears specialty inv.items where
  slots slot index := by
    rw [Option.map_eq_some_iff]
    constructor
    · rintro ⟨worn, hworn, rfl⟩
      obtain ⟨item, hitem, rfl⟩ := h.arranged.placed.slot_mem slot worn hworn
      obtain ⟨hon, hclass, hslot⟩ := (h.arranged.placed.slot_iff item hitem slot).1 hworn
      exact ⟨item, hitem, ⟨hon, hclass⟩, hslot, rfl⟩
    · rintro ⟨item, hitem, ⟨hon, hclass⟩, hslot, rfl⟩
      exact ⟨item.worn, (h.arranged.placed.slot_iff item hitem slot).2 ⟨hon, hclass, hslot⟩, rfl⟩
  ride index := by
    rw [Option.map_eq_some_iff]
    constructor
    · rintro ⟨worn, hworn, rfl⟩
      obtain ⟨item, hitem, rfl⟩ := h.arranged.placed.ride_mem worn hworn
      obtain ⟨hon, hclass⟩ := (h.arranged.placed.ride_iff item hitem).1 hworn
      exact ⟨item, hitem, hon, hclass, rfl⟩
    · rintro ⟨item, hitem, hon, hclass, rfl⟩
      exact ⟨item.worn, (h.arranged.placed.ride_iff item hitem).2 ⟨hon, hclass⟩, rfl⟩
  visible := h.arranged.visible
  counters := h.summed

namespace Wears

theorem perm (h : inv.Wears specialty items) (hperm : items.Perm items') :
    inv.Wears specialty items' where
  slots slot index := by
    rw [h.slots slot index]
    simp only [hperm.mem_iff]
  ride index := by
    rw [h.ride index]
    simp only [hperm.mem_iff]
  visible := h.visible.trans (((hperm.filter _).map _).filter _)
  counters counter := by
    rw [h.counters counter, wornSum_perm hperm]

/-- The same items say the same. -/
theorem same (h : inv.Wears specialty items) (h' : inv'.Wears specialty items) : SameWorn inv inv' where
  slots slot := Option.ext fun index => (h'.slots slot index).trans (h.slots slot index).symm
  ride := Option.ext fun index => (h'.ride index).trans (h.ride index).symm
  visible := h'.visible.trans h.visible.symm
  counters := funext fun counter =>
    UInt16.toNat_inj.1 ((h'.counters counter).trans (h.counters counter).symm)

theorem empty : FullInventory.empty.Wears specialty [] where
  slots slot index := by simp [FullInventory.empty]
  ride index := by simp [FullInventory.empty]
  visible := by simp [FullInventory.empty, filled]
  counters counter := rfl

/-- There is a cell for one more visible index. -/
theorem length_lt (h : inv.Wears specialty items)
    (hplaces : ((items.filter (·.IsPutOn)).map place).Nodup) :
    (filled 0 inv.equipment).length < inv.equipment.length := by
  rw [h.visible.length_eq, inv.equipment_length]
  refine Nat.lt_of_le_of_lt (List.length_filter_le _ _) ?_
  rw [List.length_map]
  exact length_worn_lt hplaces

theorem visible_fill (h : inv.Wears specialty items)
    (hplaces : ((items.filter (·.IsPutOn)).map place).Nodup) (hon : item.IsPutOn) :
    (filled 0 (fillCell 0 item.info.index inv.equipment)).Perm
      (filled 0 (((item :: items).filter (·.IsPutOn)).map (·.info.index))) := by
  rw [List.filter_cons_of_pos (by simpa using hon), List.map_cons]
  unfold filled
  by_cases hzero : item.info.index = 0
  · rw [hzero, List.filter_cons_of_neg (by simp)]
    exact (List.Perm.of_eq filled_fillCell_blank).trans h.visible
  · rw [List.filter_cons_of_pos (by simpa using hzero)]
    exact (filled_fillCell hzero (h.length_lt hplaces)).trans (h.visible.cons _)

/-- An item comes that is not put on. -/
theorem cons_off (h : inv.Wears specialty items) (hoff : ¬ item.IsPutOn) :
    inv.Wears specialty (item :: items) where
  slots slot index := by
    rw [h.slots slot index, List.exists_mem_cons_iff]
    exact (or_iff_right fun hitem => hoff hitem.1.1).symm
  ride index := by
    rw [h.ride index, List.exists_mem_cons_iff]
    exact (or_iff_right fun hitem => hoff hitem.1).symm
  visible := by
    rw [List.filter_cons_of_neg (by simpa using hoff)]
    exact h.visible
  counters counter := by
    rw [h.counters counter, wornSum_cons_of_not fun hon => hoff hon.1]

/-- An item comes that is ridden, when no other is. -/
theorem cons_ride (h : inv.Wears specialty items)
    (hplaces : (((item :: items).filter (·.IsPutOn)).map place).Nodup) (hon : item.IsPutOn)
    (hclass : item.init.itemClass = .ride) {localId : UInt32} :
    (inv.mount { item with localId }).Wears specialty (item :: items) := by
  rw [List.filter_cons_of_pos (by simpa using hon), List.map_cons, List.nodup_cons] at hplaces
  refine ⟨fun slot index => ?_, fun index => ?_, h.visible_fill hplaces.2 hon, fun counter => ?_⟩
  · rw [List.exists_mem_cons_iff]
    exact (h.slots slot index).trans (or_iff_right fun hitem => hitem.1.2 hclass).symm
  · show some item.info.index = some index ↔ _
    rw [Option.some.injEq, List.exists_mem_cons_iff]
    constructor
    · exact fun hindex => .inl ⟨hon, hclass, hindex⟩
    · rintro (⟨-, -, hindex⟩ | ⟨other, hother, hon', hclass', -⟩)
      · exact hindex
      · refine (hplaces.1 (List.mem_map.2 ⟨other, ?_, ?_⟩)).elim
        · exact List.mem_filter.2 ⟨hother, decide_eq_true hon'⟩
        · unfold place
          rw [if_pos hclass, if_pos hclass']
  · rw [wornSum_cons_of_not fun hslot => hslot.2 hclass]
    exact h.counters counter

/-- An item comes that is worn on a slot, when no other is worn there. -/
theorem cons_slot (h : inv.Wears specialty items)
    (hplaces : (((item :: items).filter (·.IsPutOn)).map place).Nodup) (hon : item.OnSlot)
    (hslot : item.init.wearId = some slot) {localId : UInt32} :
    (inv.putOnSlot specialty slot { item with localId }).Wears specialty (item :: items) := by
  have hput : item.IsPutOn := hon.1
  rw [List.filter_cons_of_pos (by simpa using hput), List.map_cons, List.nodup_cons] at hplaces
  refine ⟨fun other index => ?_, fun index => ?_, h.visible_fill hplaces.2 hput, fun counter => ?_⟩
  · show (Function.update inv.wearItems slot (some ⟨localId, item.info.index, item.init⟩) other).map
      Worn.index = some index ↔ _
    rw [List.exists_mem_cons_iff]
    by_cases hother : other = slot
    · subst hother
      rw [Function.update_self, Option.map_some, Option.some.injEq]
      constructor
      · exact fun hindex => .inl ⟨hon, hslot, hindex⟩
      · rintro (⟨-, -, hindex⟩ | ⟨worn, hworn, hon', hslot', -⟩)
        · exact hindex
        · refine (hplaces.1 (List.mem_map.2 ⟨worn, ?_, ?_⟩)).elim
          · exact List.mem_filter.2 ⟨hworn, decide_eq_true hon'.1⟩
          · unfold place
            rw [if_neg hon.2, if_neg hon'.2, hslot, hslot']
    · rw [Function.update_of_ne hother, h.slots other index]
      refine (or_iff_right fun hitem => hother ?_).symm
      exact (Option.some.inj (hslot.symm.trans hitem.2.1)).symm
  · rw [List.exists_mem_cons_iff]
    exact (h.ride index).trans (or_iff_right fun hitem => hon.2 hitem.2.1).symm
  · have hbefore := h.counters counter
    rw [wornSum_cons_of_onSlot hon]
    show (inv.counters counter + ((specialty item.info.index).amount counter).toUInt16).toNat = _
    rw [UInt16.toNat_add, UInt32.toNat_toUInt16]
    omega

end Wears

/-! ## One item -/

/-- The attack speeds of the weapons that are put on. -/
def speeds (specialty : SpecialtyDb) (items : List Item) : List UInt16 :=
  (items.filter fun item => item.IsPutOn ∧ item.init.itemClass = .weapon).map
    fun item => (specialty item.info.index).attackSpeed.toUInt16

theorem speeds_cons_of_weapon (hon : item.IsPutOn) (hclass : item.init.itemClass = .weapon) :
    speeds specialty (item :: items) =
      (specialty item.info.index).attackSpeed.toUInt16 :: speeds specialty items := by
  unfold speeds
  rw [List.filter_cons_of_pos (by simp [hon, hclass]), List.map_cons]

theorem speeds_cons_of_not (h : item.IsPutOn → item.init.itemClass ≠ .weapon) :
    speeds specialty (item :: items) = speeds specialty items := by
  unfold speeds
  rw [List.filter_cons_of_neg (by simpa using h)]

/-- What the inventory is after the entries, the last one first. -/
structure Loaded (specialty : SpecialtyDb) (seen : List (UInt32 × Item)) (inv : FullInventory) : Prop
    where
  ids : ∀ item ∈ inv.items, item.localId ∈ seen.map Prod.fst
  wears : inv.Wears specialty (seen.map Prod.snd)
  attackSpeed : inv.attackSpeed = (speeds specialty (seen.map Prod.snd)).headD 0

/-- What is to be known of an item that is loaded. -/
structure Loadable (db : ItemDb) (item : Item) : Prop where
  fromDb : db item.info.index = some item.init
  wearable : item.IsPutOn → item.init.itemClass ≠ .ride →
    item.init.wearable = true ∧ ∃ slot, item.init.wearId = some slot
  rideOnly : item.IsPutOn → item.init.itemClass = .ride → item.init.wearable = false

/-- An item without its place in the inventory. -/
def withItem (inv : FullInventory) (item : Item)
    (hfresh : ∀ other ∈ inv.items, other.localId ≠ item.localId) : FullInventory :=
  { inv with items := item :: inv.items, keyed := keyed_cons.2 ⟨hfresh, inv.keyed⟩ }

theorem load_eq_applyPutOn {localId : UInt32} (hdb : db item.info.index = some item.init)
    (hfresh : ∀ other ∈ inv.items, other.localId ≠ localId) :
    load specialty db inv (localId, item) =
      (inv.withItem { item with localId } hfresh).applyPutOn specialty { item with localId } := by
  unfold load insert
  dsimp only
  rw [hdb]
  dsimp only
  rw [dif_pos hfresh]
  show (((inv.withItem { item with localId } hfresh).applyPutOn specialty { item with localId }) >>= _ :
    Except Fault _).map Prod.fst = _
  cases (inv.withItem { item with localId } hfresh).applyPutOn specialty { item with localId } with
  | error fault => rfl
  | ok t => rfl

theorem applyPutOn_ride (hon : item.IsPutOn) (hclass : item.init.itemClass = .ride)
    (hwearable : item.init.wearable = false) :
    inv.applyPutOn specialty item = .ok (inv.mount item) := by
  unfold applyPutOn
  rw [if_neg (by simp [hwearable])]
  exact congrArg Except.ok (if_pos ⟨hclass, hon⟩)

theorem applyPutOn_slot (hon : item.OnSlot) (hwearable : item.init.wearable = true)
    (hslot : item.init.wearId = some slot) :
    inv.applyPutOn specialty item = .ok (inv.putOnSlot specialty slot item) := by
  unfold applyPutOn
  rw [if_pos ⟨hwearable, hon.1⟩, hslot]
  exact congrArg Except.ok (if_neg fun hride => hon.2 hride.1)

/-- An item that is loaded says what the inventory keeps, whichever way `Insert` takes for it. -/
theorem load_spec {seen : List (UInt32 × Item)} {localId : UInt32} (h : Loaded specialty seen inv)
    (hid : localId ∉ seen.map Prod.fst) (hitem : Loadable db item)
    (hplaces : (((item :: seen.map Prod.snd).filter (·.IsPutOn)).map place).Nodup) :
    ∃ inv', load specialty db inv (localId, item) = .ok inv' ∧
      Loaded specialty ((localId, item) :: seen) inv' := by
  have hfresh : ∀ other ∈ inv.items, other.localId ≠ localId := fun other hother heq =>
    hid (heq ▸ h.ids other hother)
  have hids : ∀ other ∈ (inv.withItem { item with localId } hfresh).items,
      other.localId ∈ (((localId, item) :: seen).map Prod.fst) :=
    List.forall_mem_cons.2 ⟨List.mem_cons_self,
      fun other hother => List.mem_cons_of_mem _ (h.ids other hother)⟩
  have hwears : (inv.withItem { item with localId } hfresh).Wears specialty (seen.map Prod.snd) :=
    ⟨h.wears.slots, h.wears.ride, h.wears.visible, h.wears.counters⟩
  by_cases hon : item.IsPutOn
  · by_cases hclass : item.init.itemClass = .ride
    · refine ⟨_, (load_eq_applyPutOn hitem.fromDb hfresh).trans
        (applyPutOn_ride hon hclass (hitem.rideOnly hon hclass)),
        hids, hwears.cons_ride hplaces hon hclass, ?_⟩
      rw [List.map_cons, speeds_cons_of_not fun _ => by rw [hclass]; decide]
      exact h.attackSpeed
    · obtain ⟨hwearable, slot, hslot⟩ := hitem.wearable hon hclass
      refine ⟨_, (load_eq_applyPutOn hitem.fromDb hfresh).trans
        (applyPutOn_slot ⟨hon, hclass⟩ hwearable hslot),
        hids, hwears.cons_slot hplaces ⟨hon, hclass⟩ hslot, ?_⟩
      show (if item.init.itemClass = .weapon then
        (specialty item.info.index).attackSpeed.toUInt16 else inv.attackSpeed) = _
      rw [List.map_cons]
      by_cases hweapon : item.init.itemClass = .weapon
      · rw [if_pos hweapon, speeds_cons_of_weapon hon hweapon]
        rfl
      · rw [if_neg hweapon, speeds_cons_of_not fun _ => hweapon]
        exact h.attackSpeed
  · refine ⟨_, (load_eq_applyPutOn hitem.fromDb hfresh).trans (applyPutOn_of_not hon), hids,
      hwears.cons_off hon, ?_⟩
    rw [List.map_cons, speeds_cons_of_not fun hput => absurd hput hon]
    exact h.attackSpeed

/-! ## All items -/

theorem Kept.loadable (h : inv.Kept specialty db) (hride : inv.RideOnly) (hitem : item ∈ inv.items) :
    Loadable db item where
  fromDb := h.arranged.placed.fromDb item hitem
  wearable := h.arranged.placed.wearable item hitem
  rideOnly hon hclass := hride item.worn ((h.arranged.placed.ride_iff item hitem).2 ⟨hon, hclass⟩)

/-- In any order the items are loaded, and the inventory is as the items say. -/
theorem Kept.load (h : inv.Kept specialty db) (hride : inv.RideOnly) {order : List (UInt32 × Item)}
    (hperm : (order.map Prod.snd).Perm inv.items) (hids : (order.map Prod.fst).Nodup) :
    ∃ inv', run (load specialty db) empty order = .ok inv' ∧ Loaded specialty order.reverse inv' := by
  have hplaces : (((order.map Prod.snd).filter (·.IsPutOn)).map place).Nodup :=
    (((hperm.filter _).map _).nodup_iff).2 h.arranged.placed.nodup_places
  refine run_ok_of_progress (fun seen inv => Loaded specialty seen.reverse inv) ?_ ?_
  · exact ⟨by simp [empty], Wears.empty, rfl⟩
  · rintro seen ⟨localId, item⟩ rest t horder ht
    have hsub : (seen ++ [(localId, item)]).Sublist order := by
      rw [← horder]
      exact (List.Sublist.refl seen).append (List.singleton_sublist.2 List.mem_cons_self)
    have hmem : item ∈ order.map Prod.snd :=
      List.mem_map.2 ⟨(localId, item), hsub.subset (by simp), rfl⟩
    -- The invariant has the entries in reverse.
    have hreverse : ((localId, item) :: seen.reverse).Perm (seen ++ [(localId, item)]) :=
      ((List.reverse_perm seen).cons _).trans (List.perm_append_singleton _ _).symm
    have hfresh : ((((localId, item) :: seen.reverse).map Prod.fst)).Nodup :=
      ((hreverse.map _).nodup_iff).2 (hids.sublist (hsub.map _))
    have hplaces' : ((((item :: seen.reverse.map Prod.snd).filter (·.IsPutOn)).map place)).Nodup :=
      ((((hreverse.map Prod.snd).filter _).map place).nodup_iff).2
        (hplaces.sublist (((hsub.map Prod.snd).filter _).map place))
    rw [List.reverse_append, List.reverse_singleton, List.singleton_append]
    exact load_spec ht (List.nodup_cons.1 hfresh).1 (h.loadable hride (hperm.mem_iff.1 hmem)) hplaces'

/-- Any item can come last. -/
theorem exists_order_last (hitem : item ∈ inv.items) :
    ∃ before : List (UInt32 × Item), ((before ++ [(item.localId, item)]).map Prod.snd).Perm inv.items ∧
      ((before ++ [(item.localId, item)]).map Prod.fst).Nodup := by
  refine ⟨(inv.items.erase item).map fun other => (other.localId, other), ?_, ?_⟩
  · rw [List.map_append, List.map_map]
    have hids : ((inv.items.erase item).map (Prod.snd ∘ fun other => (other.localId, other))) =
        inv.items.erase item := List.map_id _
    rw [hids]
    exact (List.perm_append_singleton item _).trans (List.perm_cons_erase hitem).symm
  · rw [List.map_append, List.map_map]
    have hperm := (List.perm_append_singleton item (inv.items.erase item)).trans
      (List.perm_cons_erase hitem).symm
    have hkeyed := (Keyed.perm hperm).2 inv.keyed
    unfold Keyed at hkeyed
    rw [List.map_append] at hkeyed
    exact hkeyed

/-! ## Items that could be ridden and worn -/

theorem items_applyPutOn (h : inv.applyPutOn specialty item = .ok inv') : inv'.items = inv.items := by
  have hmount (t : FullInventory) :
      (if item.init.itemClass = .ride ∧ item.IsPutOn then t.mount item else t).items = t.items := by
    split <;> rfl
  unfold applyPutOn at h
  by_cases hworn : item.init.wearable = true ∧ item.IsPutOn
  · rw [if_pos hworn] at h
    cases hslot : item.init.wearId with
    | none =>
        rw [hslot] at h
        cases h
    | some slot =>
        rw [hslot] at h
        rw [← Except.ok.inj h]
        exact hmount _
  · rw [if_neg hworn] at h
    rw [← Except.ok.inj h]
    exact hmount inv

theorem localId_load {entry : UInt32 × Item}
    (h : FullInventory.load specialty db inv entry = .ok inv') :
    ∀ other ∈ inv'.items, other ∈ inv.items ∨ other.localId = entry.1 := by
  unfold FullInventory.load insert at h
  cases hdb : db entry.2.info.index with
  | none =>
      rw [hdb] at h
      rw [← Except.ok.inj h]
      exact fun other hother => .inl hother
  | some init =>
      rw [hdb] at h
      dsimp only at h
      split at h
      next hfresh =>
        generalize happly : applyPutOn specialty _ _ = result at h
        cases result with
        | error fault => cases h
        | ok t =>
            rw [← Except.ok.inj h]
            intro other hother
            change other ∈ t.items at hother
            rw [items_applyPutOn happly] at hother
            rcases List.mem_cons.1 hother with rfl | hold
            · exact .inr rfl
            · exact .inl hold
      next =>
        rw [← Except.ok.inj h]
        exact fun other hother => .inl hother

theorem localId_run_load {order : List (UInt32 × Item)}
    (h : run (FullInventory.load specialty db) empty order = .ok inv) :
    ∀ other ∈ inv.items, other.localId ∈ order.map Prod.fst := by
  refine run_inv_of_progress (fun seen inv => ∀ other ∈ inv.items, other.localId ∈ seen.map Prod.fst)
    (by simp [empty]) (fun seen entry rest t t' _ ht hload other hother => ?_) h
  rw [List.map_append, List.mem_append]
  rcases localId_load hload other hother with hold | hnew
  · exact .inl (ht other hold)
  · exact .inr (by simp [hnew])

/-- A `Wearable` item that comes with its flag set is worn on a slot, also when it is ridden. -/
theorem slot_of_load {localId : UInt32} (hdb : db item.info.index = some item.init)
    (hfresh : ∀ other ∈ inv.items, other.localId ≠ localId) (hon : item.IsPutOn)
    (hwearable : item.init.wearable = true)
    (h : FullInventory.load specialty db inv (localId, item) = .ok inv') :
    ∃ slot, item.init.wearId = some slot ∧
      (inv'.wearItems slot).map Worn.index = some item.info.index := by
  rw [load_eq_applyPutOn hdb hfresh] at h
  unfold applyPutOn at h
  rw [if_pos ⟨hwearable, hon⟩] at h
  cases hslot : item.init.wearId with
  | none =>
      rw [hslot] at h
      cases h
  | some slot =>
      rw [hslot] at h
      refine ⟨slot, rfl, ?_⟩
      have hworn : Function.update (inv.withItem { item with localId } hfresh).wearItems slot
          (some ⟨localId, item.info.index, item.init⟩) slot =
            some ⟨localId, item.info.index, item.init⟩ := Function.update_self ..
      rw [← Except.ok.inj h]
      split
      next => exact congrArg (Option.map Worn.index) hworn
      next => exact congrArg (Option.map Worn.index) hworn

/-- An inventory is reloaded as it was exactly when its ride is not `Wearable`. -/
theorem Kept.reloads_iff (h : inv.Kept specialty db) :
    inv.Reloads specialty db (SameWorn inv) ↔ inv.RideOnly := by
  constructor
  · intro hreloads worn hworn
    by_contra hwearable
    obtain ⟨item, hitem, rfl⟩ := h.arranged.placed.ride_mem worn hworn
    obtain ⟨hon, hclass⟩ := (h.arranged.placed.ride_iff item hitem).1 hworn
    -- The ride comes last, and takes a slot that no ride has been on.
    obtain ⟨before, hperm, hids⟩ := exists_order_last hitem
    obtain ⟨inv', hrun, hsame⟩ := hreloads _ hperm hids
    cases hbefore : run (FullInventory.load specialty db) empty before with
    | error fault =>
        rw [run_append_error _ hbefore] at hrun
        cases hrun
    | ok t =>
        rw [run_append_ok _ hbefore, run_singleton] at hrun
        have hfresh : ∀ other ∈ t.items, other.localId ≠ item.localId := by
          intro other hother heq
          rw [List.map_append, List.nodup_append] at hids
          exact hids.2.2 _ (localId_run_load hbefore other hother) _ (List.mem_singleton_self _) heq
        obtain ⟨slot, hslot, hindex⟩ := slot_of_load (h.arranged.placed.fromDb item hitem) hfresh hon
          (Bool.eq_true_of_not_eq_false hwearable) hrun
        rw [hsame.slots slot, h.wears.slots] at hindex
        obtain ⟨other, hother, hotherOn, -, hindex⟩ := hindex
        have hinit := h.arranged.placed.fromDb other hother
        rw [hindex, h.arranged.placed.fromDb item hitem, Option.some.injEq] at hinit
        rw [hinit] at hclass
        exact hotherOn.2 hclass
  · intro hride order hperm hids
    obtain ⟨inv', hrun, hloaded⟩ := h.load hride hperm hids
    have hreverse : (order.reverse.map Prod.snd).Perm inv.items :=
      ((List.reverse_perm order).map _).trans hperm
    exact ⟨inv', hrun, h.wears.same (hloaded.wears.perm hreverse)⟩

/-! ## Attack speeds -/

theorem mem_speeds {speed : UInt16} : speed ∈ speeds specialty items ↔
    ∃ item ∈ items, (item.IsPutOn ∧ item.init.itemClass = .weapon) ∧
      (specialty item.info.index).attackSpeed.toUInt16 = speed := by
  simp [speeds, and_assoc]

/-- The weapons on slots agree on the attack speed that is kept. -/
theorem Kept.speed_eq (h : inv.Kept specialty db) (hspeed : inv.OneSpeed specialty)
    (hperm : items.Perm inv.items) : (speeds specialty items).headD 0 = inv.attackSpeed := by
  cases hspeeds : speeds specialty items with
  | nil =>
      refine (h.idle fun item hitem hon hclass => ?_).symm
      have hmem : (specialty item.info.index).attackSpeed.toUInt16 ∈ speeds specialty items :=
        mem_speeds.2 ⟨item, hperm.mem_iff.2 hitem, ⟨hon, hclass⟩, rfl⟩
      rw [hspeeds] at hmem
      exact List.not_mem_nil hmem
  | cons speed rest =>
      have hmem : speed ∈ speeds specialty items := hspeeds ▸ List.mem_cons_self
      obtain ⟨item, hitem, ⟨hon, hclass⟩, rfl⟩ := mem_speeds.1 hmem
      have hitem := hperm.mem_iff.1 hitem
      have hnotRide : item.init.itemClass ≠ .ride := by rw [hclass]; decide
      obtain ⟨-, slot, hslot⟩ := h.arranged.placed.wearable item hitem hon hnotRide
      exact hspeed slot item.worn
        ((h.arranged.placed.slot_iff item hitem slot).2 ⟨hon, hnotRide, hslot⟩) hclass

/-- With the attack speed too, exactly when all weapons on slots have the one that is kept. -/
theorem Kept.reloads_speed_iff (h : inv.Kept specialty db) :
    inv.Reloads specialty db (fun inv' => SameWorn inv inv' ∧ inv'.attackSpeed = inv.attackSpeed) ↔
      inv.RideOnly ∧ inv.OneSpeed specialty := by
  constructor
  · intro hreloads
    have hride : inv.RideOnly := h.reloads_iff.1 fun order hperm hids =>
      (hreloads order hperm hids).imp fun inv' hinv' => ⟨hinv'.1, hinv'.2.1⟩
    refine ⟨hride, fun slot worn hworn hclass => ?_⟩
    obtain ⟨item, hitem, rfl⟩ := h.arranged.placed.slot_mem slot worn hworn
    have hon := ((h.arranged.placed.slot_iff item hitem slot).1 hworn).1
    -- The weapon comes last, and sets the attack speed.
    obtain ⟨before, hperm, hids⟩ := exists_order_last hitem
    obtain ⟨inv', hrun, -, hsame⟩ := hreloads _ hperm hids
    obtain ⟨inv'', hrun', hloaded⟩ := h.load hride hperm hids
    rw [hrun, Except.ok.injEq] at hrun'
    subst hrun'
    have hspeed := hloaded.attackSpeed
    rw [List.reverse_append, List.reverse_singleton, List.singleton_append, List.map_cons,
      speeds_cons_of_weapon hon hclass, hsame] at hspeed
    exact hspeed.symm
  · rintro ⟨hride, hspeed⟩ order hperm hids
    obtain ⟨inv', hrun, hloaded⟩ := h.load hride hperm hids
    have hreverse : (order.reverse.map Prod.snd).Perm inv.items :=
      ((List.reverse_perm order).map _).trans hperm
    refine ⟨inv', hrun, h.wears.same (hloaded.wears.perm hreverse), ?_⟩
    rw [hloaded.attackSpeed]
    exact h.speed_eq hspeed hreverse

/-! ## Runs -/

/-- After any run, an inventory is reloaded as it was exactly when its ride is not `Wearable`, and with
    its attack speed exactly when, besides, all items of class `IC_WEAPON` on slots have it. -/
theorem run_reloads_iff (specialty : SpecialtyDb) (db : ItemDb) (ops : List Op)
    (hops : ∀ op ∈ ops, op.Unworn) (inv : FullInventory)
    (hrun : run (step specialty db) empty ops = .ok inv) :
    (inv.Reloads specialty db (SameWorn inv) ↔ inv.RideOnly) ∧
      (inv.Reloads specialty db
          (fun inv' => SameWorn inv inv' ∧ inv'.attackSpeed = inv.attackSpeed) ↔
        inv.RideOnly ∧ inv.OneSpeed specialty) :=
  have hkept : inv.Kept specialty db := run_kept hops hrun
  ⟨hkept.reloads_iff, hkept.reloads_speed_iff⟩

/-- A sword and a shield that are put on are reloaded. -/
theorem run_reloads_swordAndShield :
    ∃ inv, run (step (fun _ => { amount := fun _ => 3, attackSpeed := 10 }) swordAndShield) empty
        [.insert 1 { index := 1 }, .insert 2 { index := 2 }, .putOn 1, .putOn 2] = .ok inv ∧
      inv.Reloads (fun _ => { amount := fun _ => 3, attackSpeed := 10 }) swordAndShield
        (fun inv' => SameWorn inv inv' ∧ inv'.attackSpeed = inv.attackSpeed) := by
  refine ⟨_, rfl, (run_reloads_iff _ _ [.insert 1 { index := 1 }, .insert 2 { index := 2 }, .putOn 1,
    .putOn 2] (by decide) _ rfl).2.2 ⟨?_, ?_⟩⟩
  · intro worn hworn
    cases hworn
  · intro slot worn hworn hclass
    cases slot <;> cases hworn <;> rfl

/-- A ride that is `Wearable`, but has no kind that is worn. -/
def wearableRide : ItemDb := fun index =>
  if index = 1 then some { itemClass := .ride, kind := .other, wearable := true } else none

/-- `PutOn` makes it the ride; `Insert` looks for its slot. -/
theorem reload_assertion :
    ∃ inv, run (step (fun _ => {}) wearableRide) empty [.insert 1 { index := 1 }, .putOn 1] = .ok inv ∧
      ∃ order : List (UInt32 × Item), (order.map Prod.snd).Perm inv.items ∧
        (order.map Prod.fst).Nodup ∧
        run (FullInventory.load (fun _ => {}) wearableRide) empty order = .error .assertion := by
  refine ⟨_, rfl, [(2, ⟨1, { itemClass := .ride, kind := .other, wearable := true },
    { index := 1, info := 1 }⟩)], ?_, ?_, ?_⟩
  · exact .of_eq rfl
  · decide
  · rfl

end FullInventory

end Bango.Items
