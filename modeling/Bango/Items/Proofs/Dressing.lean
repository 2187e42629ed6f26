import Bango.Items.Proofs.Dressed

set_option autoImplicit false

/-! # Operations on what is worn

Each operation is refused and changes nothing, or makes one of the moves, or adds or removes an item
that is not put on. -/

namespace Bango.Items

open Bango.Lib

namespace FullInventory

variable {specialty : SpecialtyDb} {db : ItemDb} {inv : FullInventory} {item : Item}
  {localId : UInt32} {slot : WearState}

/-- Where the items are, and what others see of them. -/
structure Arranged (db : ItemDb) (inv : FullInventory) : Prop where
  placed : inv.Placed db
  visible : inv.Visible

/-- Where the items are, what others see of them, and what they add up to. -/
structure Sound (specialty : SpecialtyDb) (db : ItemDb) (inv : FullInventory) : Prop where
  placed : inv.Placed db
  visible : inv.Visible
  counted : inv.Counted specialty

theorem Sound.arranged (h : inv.Sound specialty db) : inv.Arranged db := ⟨h.placed, h.visible⟩

/-! ## Moves -/

/-- The item of a local id is flagged as put on. -/
def flag (inv : FullInventory) (localId : UInt32) : FullInventory :=
  inv.modify localId (·.addInfo itemPutOn) (Item.localId_addInfo itemPutOn)

/-- The item of a local id is flagged as put off. -/
def unflag (inv : FullInventory) (localId : UInt32) : FullInventory :=
  inv.modify localId (·.subInfo itemPutOn) (Item.localId_subInfo itemPutOn)

theorem Arranged.mount (h : inv.Arranged db) (hitem : item ∈ inv.items)
    (hlocal : item.localId = localId) (hoff : ¬ item.IsPutOn) (hclass : item.init.itemClass = .ride)
    (hfree : inv.ride = none) : ((inv.flag localId).mount item).Arranged db := by
  have hmodify : Replaced inv (inv.flag localId) item (item.addInfo itemPutOn) :=
    replaced_modify hitem hlocal rfl
  have hrep : Replaced inv ((inv.flag localId).mount item) item (item.addInfo itemPutOn) :=
    ⟨hmodify.worn, hmodify.perm⟩
  constructor
  · refine h.placed.replace hrep ?_ (fun _ _ _ => Iff.rfl) ?_ ?_ ?_ h.placed.hands
    · intro worn hne
      rw [hfree]
      exact iff_of_false (fun heq => hne (Option.some.inj heq).symm) nofun
    · exact iff_of_true rfl ⟨Item.isPutOn_addInfo, hclass⟩
    · intro slot
      exact iff_of_false (fun hworn => hoff ((h.placed.slot_iff item hitem slot).1 hworn).1)
        fun hput => hput.2.1 hclass
    · exact fun _ hride => absurd hclass hride
  · exact h.visible.fill h.placed hrep hoff Item.isPutOn_addInfo rfl

theorem Arranged.dismount (h : inv.Arranged db) (hitem : item ∈ inv.items)
    (hlocal : item.localId = localId) (hon : item.IsPutOn) (hclass : item.init.itemClass = .ride) :
    ((inv.unflag localId).dismount item).Arranged db := by
  have hmodify : Replaced inv (inv.unflag localId) item (item.subInfo itemPutOn) :=
    replaced_modify hitem hlocal rfl
  have hrep : Replaced inv ((inv.unflag localId).dismount item) item (item.subInfo itemPutOn) :=
    ⟨hmodify.worn, hmodify.perm⟩
  have hride := (h.placed.ride_iff item hitem).2 ⟨hon, hclass⟩
  constructor
  · refine h.placed.replace hrep ?_ (fun _ _ _ => Iff.rfl) ?_ ?_ ?_ h.placed.hands
    · intro worn hne
      rw [hride]
      exact iff_of_false nofun fun heq => hne (Option.some.inj heq).symm
    · exact iff_of_false nofun fun hput => Item.not_isPutOn_subInfo hput.1
    · intro slot
      exact iff_of_false
        (fun hworn => ((h.placed.slot_iff item hitem slot).1 hworn).2.1 hclass)
        fun hput => Item.not_isPutOn_subInfo hput.1
    · exact fun hput => absurd hput Item.not_isPutOn_subInfo
  · exact h.visible.clear h.placed hrep hon Item.not_isPutOn_subInfo rfl

theorem findWearId_eq_shield {kind : ItemSubclass} (h : findWearId kind = some .shield) :
    kind = .shield := by
  cases kind
  all_goals first | rfl | cases h

/-- With the hands free, a shield and a two-handed sword do not come together. -/
theorem hands_update (hhands : inv.wearItems .shield ≠ none → ¬ IsSword2Hand (inv.wearItems .weapon))
    (hfree : inv.FreeHands item.init.kind) (hslot : item.init.wearId = some slot)
    (hshield : Function.update inv.wearItems slot (some item.worn) .shield ≠ none) :
    ¬ IsSword2Hand (Function.update inv.wearItems slot (some item.worn) .weapon) := by
  by_cases hweapon : slot = .weapon
  · subst hweapon
    rw [Function.update_of_ne (by decide)] at hshield
    rw [Function.update_self]
    exact fun hsword => hshield (hfree.1 (Option.some.inj hsword))
  · rw [Function.update_of_ne (Ne.symm hweapon)]
    by_cases hslot' : slot = .shield
    · subst hslot'
      exact hfree.2 (findWearId_eq_shield hslot)
    · rw [Function.update_of_ne (Ne.symm hslot')] at hshield
      exact hhands hshield

/-- Putting an item off brings no shield and two-handed sword together. -/
theorem hands_update_none
    (hhands : inv.wearItems .shield ≠ none → ¬ IsSword2Hand (inv.wearItems .weapon))
    (hshield : Function.update inv.wearItems slot none .shield ≠ none) :
    ¬ IsSword2Hand (Function.update inv.wearItems slot none .weapon) := by
  by_cases hweapon : slot = .weapon
  · rw [hweapon, Function.update_self]
    nofun
  · rw [Function.update_of_ne (Ne.symm hweapon)]
    refine hhands fun hnone => hshield ?_
    by_cases hslot : slot = .shield
    · rw [hslot, Function.update_self]
    · rwa [Function.update_of_ne (Ne.symm hslot)]

theorem WeaponsOnly.iff (hdb : WeaponsOnly db) (h : inv.Placed db) (hitem : item ∈ inv.items)
    (hslot : item.init.wearId = some slot) : item.init.itemClass = .weapon ↔ slot = .weapon := by
  rw [hdb item.info.index item.init (h.fromDb item hitem), hslot, Option.some.injEq]

theorem Arranged.putOnSlot (h : inv.Arranged db) (hitem : item ∈ inv.items)
    (hlocal : item.localId = localId) (hoff : ¬ item.IsPutOn) (hclass : item.init.itemClass ≠ .ride)
    (hwearable : item.init.wearable = true) (hslot : item.init.wearId = some slot)
    (hhands : inv.FreeHands item.init.kind) (hfree : inv.wearItems slot = none) :
    ((inv.flag localId).putOnSlot specialty slot item).Arranged db := by
  have hmodify : Replaced inv (inv.flag localId) item (item.addInfo itemPutOn) :=
    replaced_modify hitem hlocal rfl
  have hrep : Replaced inv ((inv.flag localId).putOnSlot specialty slot item) item
      (item.addInfo itemPutOn) := ⟨hmodify.worn, hmodify.perm⟩
  constructor
  · refine h.placed.replace hrep (fun _ _ => Iff.rfl) ?_ ?_ ?_ (fun _ _ => ⟨hwearable, slot, hslot⟩)
      (hands_update h.placed.hands hhands hslot)
    · intro other worn hne
      show Function.update inv.wearItems slot (some item.worn) other = some worn ↔ _
      by_cases hother : other = slot
      · rw [hother, Function.update_self, hfree]
        exact iff_of_false (fun heq => hne (Option.some.inj heq).symm) nofun
      · rw [Function.update_of_ne hother]
    · exact iff_of_false (fun hworn => hoff ((h.placed.ride_iff item hitem).1 hworn).1)
        fun hput => hclass hput.2
    · intro other
      show Function.update inv.wearItems slot (some item.worn) other = some item.worn ↔ _
      rw [hslot, Option.some.injEq]
      by_cases hother : other = slot
      · rw [hother, Function.update_self]
        exact iff_of_true rfl ⟨Item.isPutOn_addInfo, hclass, rfl⟩
      · rw [Function.update_of_ne hother]
        exact iff_of_false (fun hworn => hoff ((h.placed.slot_iff item hitem other).1 hworn).1)
          fun hput => hother hput.2.2.symm
  · exact h.visible.fill h.placed hrep hoff Item.isPutOn_addInfo rfl

theorem Arranged.putOffSlot (h : inv.Arranged db) (hitem : item ∈ inv.items)
    (hlocal : item.localId = localId) (hon : item.IsPutOn) (hclass : item.init.itemClass ≠ .ride)
    (hslot : item.init.wearId = some slot) :
    ((inv.unflag localId).putOffSlot specialty slot item).Arranged db := by
  have hmodify : Replaced inv (inv.unflag localId) item (item.subInfo itemPutOn) :=
    replaced_modify hitem hlocal rfl
  have hrep : Replaced inv ((inv.unflag localId).putOffSlot specialty slot item) item
      (item.subInfo itemPutOn) := ⟨hmodify.worn, hmodify.perm⟩
  have hworn := (h.placed.slot_iff item hitem slot).2 ⟨hon, hclass, hslot⟩
  constructor
  · refine h.placed.replace hrep (fun _ _ => Iff.rfl) ?_ ?_ ?_
      (fun hput => absurd hput Item.not_isPutOn_subInfo) (hands_update_none h.placed.hands)
    · intro other worn hne
      show Function.update inv.wearItems slot none other = some worn ↔ _
      by_cases hother : other = slot
      · rw [hother, Function.update_self, hworn]
        exact iff_of_false nofun fun heq => hne (Option.some.inj heq).symm
      · rw [Function.update_of_ne hother]
    · exact iff_of_false (fun hride => hclass ((h.placed.ride_iff item hitem).1 hride).2)
        fun hput => Item.not_isPutOn_subInfo hput.1
    · intro other
      show Function.update inv.wearItems slot none other = some item.worn ↔ _
      refine iff_of_false (fun heq => ?_) fun hput => Item.not_isPutOn_subInfo hput.1
      by_cases hother : other = slot
      · rw [hother, Function.update_self] at heq
        cases heq
      · -- It is worn on its own slot only.
        rw [Function.update_of_ne hother] at heq
        have hslot' := ((h.placed.slot_iff item hitem other).1 heq).2.2
        rw [hslot, Option.some.injEq] at hslot'
        exact hother hslot'.symm
  · exact h.visible.clear h.placed hrep hon Item.not_isPutOn_subInfo rfl

/-! ## Items that are not put on -/

/-- An item with a fresh local id is put on nowhere. -/
theorem Placed.worn_ne (h : inv.Placed db) (hfresh : ∀ other ∈ inv.items, other.localId ≠ item.localId) :
    inv.ride ≠ some item.worn ∧ ∀ slot, inv.wearItems slot ≠ some item.worn := by
  constructor
  · intro hride
    obtain ⟨other, hother, hworn⟩ := h.ride_mem item.worn hride
    exact hfresh other hother (congrArg Worn.localId hworn)
  · intro slot hslot
    obtain ⟨other, hother, hworn⟩ := h.slot_mem slot item.worn hslot
    exact hfresh other hother (congrArg Worn.localId hworn)

theorem Arranged.cons (h : inv.Arranged db) (hdb : db item.info.index = some item.init)
    (hfresh : ∀ other ∈ inv.items, other.localId ≠ item.localId) (hoff : ¬ item.IsPutOn) :
    Arranged db
      { inv with items := item :: inv.items, keyed := keyed_cons.2 ⟨hfresh, inv.keyed⟩ } := by
  obtain ⟨hride, hslot⟩ := h.placed.worn_ne hfresh
  constructor
  · exact {
      fromDb := List.forall_mem_cons.2 ⟨hdb, h.placed.fromDb⟩
      ride_iff := List.forall_mem_cons.2
        ⟨iff_of_false hride fun hput => hoff hput.1, h.placed.ride_iff⟩
      slot_iff := List.forall_mem_cons.2
        ⟨fun slot => iff_of_false (hslot slot) fun hput => hoff hput.1, h.placed.slot_iff⟩
      wearable := List.forall_mem_cons.2 ⟨fun hput => absurd hput hoff, h.placed.wearable⟩
      ride_mem := fun worn hworn => by
        obtain ⟨other, hother, rfl⟩ := h.placed.ride_mem worn hworn
        exact ⟨other, List.mem_cons_of_mem _ hother, rfl⟩
      slot_mem := fun slot worn hworn => by
        obtain ⟨other, hother, rfl⟩ := h.placed.slot_mem slot worn hworn
        exact ⟨other, List.mem_cons_of_mem _ hother, rfl⟩
      hands := h.placed.hands }
  · unfold Visible
    rw [List.filter_cons_of_neg (by simpa using hoff)]
    exact h.visible

theorem Arranged.erase (h : inv.Arranged db) (hitem : item ∈ inv.items)
    (hlocal : item.localId = localId) (hoff : ¬ item.IsPutOn) :
    Arranged db
      { inv with
        items := eraseKey Item.localId localId inv.items
        keyed := inv.keyed.eraseKey localId } := by
  -- An item that is put on is another one, and stays.
  have hkept : ∀ other ∈ inv.items, other.IsPutOn →
      other ∈ eraseKey Item.localId localId inv.items := by
    intro other hother hput
    refine mem_eraseKey.2 ⟨hother, fun heq => hoff ?_⟩
    rwa [← eq_of_localId_eq hother hitem (heq.trans hlocal.symm)]
  constructor
  · exact {
      fromDb := fun other hother => h.placed.fromDb other (mem_eraseKey.1 hother).1
      ride_iff := fun other hother => h.placed.ride_iff other (mem_eraseKey.1 hother).1
      slot_iff := fun other hother => h.placed.slot_iff other (mem_eraseKey.1 hother).1
      wearable := fun other hother => h.placed.wearable other (mem_eraseKey.1 hother).1
      ride_mem := fun worn hworn => by
        obtain ⟨other, hother, rfl⟩ := h.placed.ride_mem worn hworn
        exact ⟨other, hkept other hother ((h.placed.ride_iff other hother).1 hworn).1, rfl⟩
      slot_mem := fun slot worn hworn => by
        obtain ⟨other, hother, rfl⟩ := h.placed.slot_mem slot worn hworn
        exact ⟨other, hkept other hother ((h.placed.slot_iff other hother slot).1 hworn).1, rfl⟩
      hands := h.placed.hands }
  · have hperm := List.perm_cons_erase hitem
    have herased := inv.keyed.eraseKey_perm hperm
    rw [hlocal] at herased
    have hfilter := hperm.filter (·.IsPutOn)
    rw [List.filter_cons_of_neg (by simpa using hoff)] at hfilter
    have hworn := hfilter.trans (herased.filter (·.IsPutOn)).symm
    refine List.Perm.trans h.visible ?_
    exact (hworn.map (·.info.index)).filter _

/-! ## Operations -/

/-- An operation that is possible keeps the inventory sound, and one that is not changes nothing. -/
def Outcome (specialty : SpecialtyDb) (db : ItemDb) (inv inv' : FullInventory) (possible : Bool) : Prop :=
  inv'.Sound specialty db ∧ (possible = false → inv' = inv)

theorem mem_of_findByLocalId (h : inv.findByLocalId localId = some item) :
    item ∈ inv.items ∧ item.localId = localId :=
  ⟨mem_of_findKey h, key_of_findKey h⟩

theorem applyPutOn_of_not (hoff : ¬ item.IsPutOn) : inv.applyPutOn specialty item = .ok inv := by
  simp [applyPutOn, hoff]

/-- A change of the inventory that an operation makes. -/
inductive Move (specialty : SpecialtyDb) (db : ItemDb) (inv : FullInventory) : FullInventory → Prop
  | insert (item : Item) (hdb : db item.info.index = some item.init)
      (hfresh : ∀ other ∈ inv.items, other.localId ≠ item.localId) (hoff : ¬ item.IsPutOn) :
      Move specialty db inv
        { inv with items := item :: inv.items, keyed := keyed_cons.2 ⟨hfresh, inv.keyed⟩ }
  | trash (item : Item) (hitem : item ∈ inv.items) (hoff : ¬ item.IsPutOn) :
      Move specialty db inv
        { inv with
          items := eraseKey Item.localId item.localId inv.items
          keyed := inv.keyed.eraseKey item.localId }
  | mount (item : Item) (hitem : item ∈ inv.items) (hoff : ¬ item.IsPutOn)
      (hclass : item.init.itemClass = .ride) (hfree : inv.ride = none) :
      Move specialty db inv ((inv.flag item.localId).mount item)
  | dismount (item : Item) (hitem : item ∈ inv.items) (hon : item.IsPutOn)
      (hclass : item.init.itemClass = .ride) :
      Move specialty db inv ((inv.unflag item.localId).dismount item)
  | putOnSlot (item : Item) (slot : WearState) (hitem : item ∈ inv.items) (hoff : ¬ item.IsPutOn)
      (hclass : item.init.itemClass ≠ .ride) (hwearable : item.init.wearable = true)
      (hslot : item.init.wearId = some slot) (hhands : inv.FreeHands item.init.kind)
      (hfree : inv.wearItems slot = none) :
      Move specialty db inv ((inv.flag item.localId).putOnSlot specialty slot item)
  | putOffSlot (item : Item) (slot : WearState) (hitem : item ∈ inv.items) (hon : item.IsPutOn)
      (hclass : item.init.itemClass ≠ .ride) (hslot : item.init.wearId = some slot) :
      Move specialty db inv ((inv.unflag item.localId).putOffSlot specialty slot item)

/-- What an operation may do: nothing or, when it is possible, a move. -/
def Moved (specialty : SpecialtyDb) (db : ItemDb) (inv inv' : FullInventory) (possible : Bool) : Prop :=
  inv' = inv ∨ possible = true ∧ Move specialty db inv inv'

theorem Moved.refused {possible : Bool} : Moved specialty db inv inv possible := .inl rfl

theorem Move.done {inv' : FullInventory} (h : Move specialty db inv inv') :
    Moved specialty db inv inv' true := .inr ⟨rfl, h⟩

theorem insert_moved {inv' : FullInventory} {info : ItemInfo} {result : Option Item}
    (hinfo : info.info &&& itemPutOn = 0)
    (h : inv.insert specialty db localId info = .ok (inv', result)) :
    Moved specialty db inv inv' result.isSome := by
  unfold insert at h
  cases hdb : db info.index with
  | none =>
      rw [hdb] at h
      cases h
      exact .refused
  | some init =>
      rw [hdb] at h
      dsimp only at h
      split at h
      next hfresh =>
          have hoff : ¬ Item.IsPutOn ⟨localId, init, info⟩ := fun hput => hput hinfo
          rw [applyPutOn_of_not hoff] at h
          cases h
          exact (Move.insert ⟨localId, init, info⟩ hdb hfresh hoff).done
      next =>
          cases h
          exact .refused

theorem trash_moved (localId : UInt32) :
    Moved specialty db inv (inv.trash localId).1 (inv.trash localId).2 := by
  unfold trash
  cases hfind : inv.findByLocalId localId with
  | none => exact .refused
  | some item =>
      obtain ⟨hitem, rfl⟩ := mem_of_findByLocalId hfind
      dsimp only
      split
      next => exact .refused
      next hoff => exact (Move.trash item hitem hoff).done

theorem putOn_moved (localId : UInt32) :
    Moved specialty db inv (inv.putOn specialty localId).1
      (inv.putOn specialty localId).2.isSome := by
  unfold putOn
  cases hfind : inv.findByLocalId localId with
  | none => exact .refused
  | some item =>
      obtain ⟨hitem, rfl⟩ := mem_of_findByLocalId hfind
      dsimp only
      split
      next => exact .refused
      next hoff =>
          split
          next hclass =>
              split
              next => exact .refused
              next hfree => exact (Move.mount item hitem hoff hclass (not_not.1 hfree)).done
          next hclass =>
              split
              next => exact .refused
              next hwearable =>
                  split
                  next => exact .refused
                  next slot hslot =>
                      split
                      next => exact .refused
                      next hhands =>
                          split
                          next => exact .refused
                          next hfree =>
                              exact (Move.putOnSlot item slot hitem hoff hclass
                                (not_not.1 hwearable) hslot (not_not.1 hhands) (not_not.1 hfree)).done

theorem putOff_moved {inv' : FullInventory} {result : Option Item}
    (h : inv.putOff specialty localId = .ok (inv', result)) :
    Moved specialty db inv inv' result.isSome := by
  unfold putOff at h
  cases hfind : inv.findByLocalId localId with
  | none =>
      rw [hfind] at h
      cases h
      exact .refused
  | some item =>
      rw [hfind] at h
      obtain ⟨hitem, rfl⟩ := mem_of_findByLocalId hfind
      dsimp only at h
      split at h
      next =>
          cases h
          exact .refused
      next hon =>
          split at h
          next hclass =>
              split at h
              next =>
                  cases h
                  exact .refused
              next =>
                  cases h
                  exact (Move.dismount item hitem (not_not.1 hon) hclass).done
          next hclass =>
              split at h
              next => cases h
              next =>
                  split at h
                  next => cases h
                  next slot hslot =>
                      split at h
                      next => cases h
                      next =>
                          cases h
                          exact (Move.putOffSlot item slot hitem (not_not.1 hon) hclass hslot).done

theorem apply_moved {inv' : FullInventory} {op : Op} {possible : Bool} (hop : op.Unworn)
    (h : inv.apply specialty db op = .ok (inv', possible)) : Moved specialty db inv inv' possible := by
  cases op with
  | insert localId info =>
      simp only [apply] at h
      cases hinsert : inv.insert specialty db localId info with
      | error fault =>
          rw [hinsert] at h
          cases h
      | ok result =>
          rw [hinsert] at h
          cases h
          exact insert_moved hop hinsert
  | putOn localId =>
      cases h
      exact putOn_moved localId
  | putOff localId =>
      simp only [apply] at h
      cases hputOff : inv.putOff specialty localId with
      | error fault =>
          rw [hputOff] at h
          cases h
      | ok result =>
          rw [hputOff] at h
          cases h
          exact putOff_moved hputOff
  | trash localId =>
      obtain ⟨rfl, rfl⟩ := Prod.mk.inj (Except.ok.inj h)
      exact trash_moved localId

/-- Of an item that is put on, `PutOff` finds what it asserts. -/
theorem exists_putOff (h : inv.Placed db) (localId : UInt32) :
    ∃ result, inv.putOff specialty localId = .ok result := by
  unfold putOff
  cases hfind : inv.findByLocalId localId with
  | none => exact ⟨_, rfl⟩
  | some item =>
      obtain ⟨hitem, hlocal⟩ := mem_of_findByLocalId hfind
      dsimp only
      split
      next => exact ⟨_, rfl⟩
      next hon =>
          split
          next hclass =>
              split
              next => exact ⟨_, rfl⟩
              next => exact ⟨_, rfl⟩
          next hclass =>
              have hon := not_not.1 hon
              obtain ⟨hwearable, slot, hslot⟩ := h.wearable item hitem hon hclass
              have hworn := (h.slot_iff item hitem slot).2 ⟨hon, hclass, hslot⟩
              have htaken : inv.wearItems slot ≠ none := by simp [hworn]
              simp only [hwearable, not_true_eq_false, if_false, hslot, if_neg htaken]
              exact ⟨_, rfl⟩

theorem exists_insert (localId : UInt32) {info : ItemInfo} (hinfo : info.info &&& itemPutOn = 0) :
    ∃ result, inv.insert specialty db localId info = .ok result := by
  unfold insert
  cases hdb : db info.index with
  | none => exact ⟨_, rfl⟩
  | some init =>
      dsimp only
      split
      next hfresh =>
          rw [applyPutOn_of_not fun hput => hput hinfo]
          exact ⟨_, rfl⟩
      next => exact ⟨_, rfl⟩

theorem exists_apply (h : inv.Placed db) {op : Op} (hop : op.Unworn) :
    ∃ inv' possible, inv.apply specialty db op = .ok (inv', possible) := by
  cases op with
  | insert localId info =>
      obtain ⟨result, hok⟩ : ∃ result, inv.insert specialty db localId info = .ok result :=
        exists_insert localId hop
      exact ⟨result.1, result.2.isSome, by simp only [apply, hok]; rfl⟩
  | putOn localId => exact ⟨_, _, rfl⟩
  | putOff localId =>
      obtain ⟨result, hok⟩ : ∃ result, inv.putOff specialty localId = .ok result :=
        exists_putOff h localId
      exact ⟨result.1, result.2.isSome, by simp only [apply, hok]; rfl⟩
  | trash localId => exact ⟨_, _, rfl⟩

theorem Arranged.move {inv' : FullInventory} (h : inv.Arranged db) (hmove : Move specialty db inv inv') :
    inv'.Arranged db := by
  cases hmove with
  | insert item hdb hfresh hoff => exact h.cons hdb hfresh hoff
  | trash item hitem hoff => exact h.erase hitem rfl hoff
  | mount item hitem hoff hclass hfree => exact h.mount hitem rfl hoff hclass hfree
  | dismount item hitem hon hclass => exact h.dismount hitem rfl hon hclass
  | putOnSlot item slot hitem hoff hclass hwearable hslot hhands hfree =>
      exact h.putOnSlot hitem rfl hoff hclass hwearable hslot hhands hfree
  | putOffSlot item slot hitem hon hclass hslot => exact h.putOffSlot hitem rfl hon hclass hslot

theorem Sound.move {inv' : FullInventory} (h : inv.Sound specialty db) (hdb : WeaponsOnly db)
    (hmove : Move specialty db inv inv') : inv'.Sound specialty db := by
  obtain ⟨hplaced, hvisible⟩ := h.arranged.move hmove
  refine ⟨hplaced, hvisible, ?_⟩
  have hsame : ∀ t : FullInventory, t.counters = inv.counters → t.attackSpeed = inv.attackSpeed →
      t.wearItems = inv.wearItems → t.Counted specialty := by
    intro t hcounters hspeed hworn
    refine ⟨?_, ?_⟩
    · rw [hcounters, hworn]
      exact h.counted.counters
    · rw [hspeed, hworn]
      exact h.counted.attackSpeed
  cases hmove with
  | insert item hitem hfresh hoff => exact hsame _ rfl rfl rfl
  | trash item hitem hoff => exact hsame _ rfl rfl rfl
  | mount item hitem hoff hclass hfree => exact hsame _ rfl rfl rfl
  | dismount item hitem hon hclass => exact hsame _ rfl rfl rfl
  | putOnSlot item slot hitem hoff hclass hwearable hslot hhands hfree =>
      have hflag : (inv.flag item.localId).Counted specialty := hsame _ rfl rfl rfl
      exact hflag.putOnSlot hfree (hdb.iff h.placed hitem hslot)
  | putOffSlot item slot hitem hon hclass hslot =>
      have hunflag : (inv.unflag item.localId).Counted specialty := hsame _ rfl rfl rfl
      have hworn := (h.placed.slot_iff item hitem slot).2 ⟨hon, hclass, hslot⟩
      exact hunflag.putOffSlot hworn (hdb.iff h.placed hitem hslot)

theorem apply_spec (h : inv.Sound specialty db) (hdb : WeaponsOnly db) {op : Op} (hop : op.Unworn) :
    ∃ inv' possible, inv.apply specialty db op = .ok (inv', possible) ∧
      Outcome specialty db inv inv' possible := by
  obtain ⟨inv', possible, hok⟩ := exists_apply h.placed hop
  refine ⟨inv', possible, hok, ?_⟩
  rcases apply_moved hop hok with rfl | ⟨hpossible, hmove⟩
  · exact ⟨h, fun _ => rfl⟩
  · exact ⟨h.move hdb hmove, fun hnot => absurd hpossible (by simp [hnot])⟩

/-! ## Runs -/

theorem empty_arranged (db : ItemDb) : empty.Arranged db where
  placed :=
    { fromDb := by simp [empty]
      ride_iff := by simp [empty]
      slot_iff := by simp [empty]
      wearable := by simp [empty]
      ride_mem := by simp [empty]
      slot_mem := by simp [empty]
      hands := fun hshield => absurd rfl hshield }
  visible := by
    simp [Visible, filled, empty]

theorem empty_sound : empty.Sound specialty db where
  placed := (empty_arranged db).placed
  visible := (empty_arranged db).visible
  counted :=
    { counters := by simp [empty, amountOf_none]
      attackSpeed := by simp [empty, attackSpeedOf] }

theorem Sound.dressed (h : inv.Sound specialty db) : inv.Dressed specialty where
  isPutOn_iff item hitem := by
    rw [h.placed.ride_iff item hitem]
    simp only [h.placed.slot_iff item hitem]
    constructor
    · intro hput
      by_cases hclass : item.init.itemClass = .ride
      · exact .inl ⟨hput, hclass⟩
      · obtain ⟨_, slot, hslot⟩ := h.placed.wearable item hitem hput hclass
        exact .inr ⟨slot, hslot, hput, hclass, hslot⟩
    · rintro (⟨hput, _⟩ | ⟨_, _, hput, _⟩)
      · exact hput
      · exact hput
  ride_mem := h.placed.ride_mem
  slot_mem slot worn hworn := by
    obtain ⟨item, hitem, rfl⟩ := h.placed.slot_mem slot worn hworn
    exact ⟨((h.placed.slot_iff item hitem slot).1 hworn).2.2, item, hitem, rfl⟩
  unshared item hitem other hother hput hput' hclass hclass' hslot :=
    h.placed.eq_of_place_eq hitem hother hput hput'
      (by unfold place; rw [if_neg hclass, if_neg hclass', hslot])
  hands slot slot' sword shield hsword hshield hkind hkind' := by
    obtain ⟨item, hitem, rfl⟩ := h.placed.slot_mem slot sword hsword
    obtain ⟨other, hother, rfl⟩ := h.placed.slot_mem slot' shield hshield
    have hslot := ((h.placed.slot_iff item hitem slot).1 hsword).2.2
    have hslot' := ((h.placed.slot_iff other hother slot').1 hshield).2.2
    have hweapon : slot = .weapon := by
      rw [InitItem.wearId, show item.init.kind = .sword2Hand from hkind] at hslot
      exact (Option.some.inj hslot).symm
    have hshield' : slot' = .shield := by
      rw [InitItem.wearId, show other.init.kind = .shield from hkind'] at hslot'
      exact (Option.some.inj hslot').symm
    rw [hweapon] at hsword
    rw [hshield'] at hshield
    refine h.placed.hands (by rw [hshield]; nofun) ?_
    rw [hsword]
    exact congrArg some hkind
  visible := h.visible
  visible_nodup := (List.Perm.nodup_iff h.visible).2 (h.placed.nodup_worn_indexes.filter _)
  counters := h.counted.counters
  attackSpeed := h.counted.attackSpeed

/-- Whatever the operations of a run, and whether or not they were possible, all views of what is worn
    agree after it. -/
theorem run_dressed (specialty : SpecialtyDb) (db : ItemDb) (hdb : WeaponsOnly db) (ops : List Op)
    (hops : ∀ op ∈ ops, op.Unworn) :
    ∃ inv, run (step specialty db) empty ops = .ok inv ∧ inv.Dressed specialty ∧
      (∀ item ∈ inv.items, item.IsPutOn → inv.trash item.localId = (inv, false)) ∧
      ∀ op : Op, op.Unworn → ∃ inv' possible,
        inv.apply specialty db op = .ok (inv', possible) ∧ (possible = false → inv' = inv) := by
  have hadm : Admissible (step specialty db) (fun _ op => op.Unworn) empty ops :=
    .of_forall (fun _ op hop => hops op hop) empty
  obtain ⟨inv, hrun, hsound⟩ := run_ok_of_admissible
    (fun inv op (h : inv.Sound specialty db) hop => by
      obtain ⟨inv', possible, hok, houtcome⟩ := apply_spec h hdb hop
      exact ⟨inv', by simp only [step, hok]; rfl, houtcome.1⟩) empty_sound hadm
  refine ⟨inv, hrun, hsound.dressed, ?_, ?_⟩
  · intro item hitem hput
    have hfind : inv.findByLocalId item.localId = some item := inv.keyed.findKey_eq hitem
    simp only [trash, hfind, if_pos hput]
  · intro op hop
    obtain ⟨inv', possible, hok, houtcome⟩ := apply_spec hsound hdb hop
    exact ⟨inv', possible, hok, houtcome.2⟩

/-- A sword, and a shield. -/
def swordAndShield : ItemDb := fun index =>
  if index = 1 then some { itemClass := .weapon, kind := .sword, wearable := true }
  else if index = 2 then some { itemClass := .defense, kind := .shield, wearable := true }
  else none

theorem weaponsOnly_swordAndShield : WeaponsOnly swordAndShield := by
  intro index init h
  unfold swordAndShield at h
  split at h
  · cases h
    decide
  · split at h
    · cases h
      decide
    · cases h

/-- A player puts on a sword, a shield that the sword leaves a hand for, and takes the sword off. -/
theorem run_dressed_swordAndShield :
    ∃ inv, run (step (fun _ => { amount := fun _ => 3, attackSpeed := 10 }) swordAndShield) empty
        [.insert 1 { index := 1 }, .insert 2 { index := 2 }, .putOn 1, .putOn 2, .putOff 1] = .ok inv ∧
      inv.Dressed (fun _ => { amount := fun _ => 3, attackSpeed := 10 }) := by
  obtain ⟨inv, hrun, hdressed, _⟩ := run_dressed (fun _ => { amount := fun _ => 3, attackSpeed := 10 })
    swordAndShield weaponsOnly_swordAndShield
    [.insert 1 { index := 1 }, .insert 2 { index := 2 }, .putOn 1, .putOn 2, .putOff 1] (by decide)
  exact ⟨inv, hrun, hdressed⟩

/-- Of an attack speed that takes more than 16 bits, `m_aspeed` keeps the last 16. -/
theorem run_attackSpeed_ne :
    WeaponsOnly swordAndShield ∧
      ∃ inv worn, run (step (fun _ => { attackSpeed := 65537 }) swordAndShield) empty
          [.insert 1 { index := 1 }, .putOn 1] = .ok inv ∧
        inv.wearItems .weapon = some worn ∧ inv.attackSpeed = 1 ∧
        attackSpeedOf (fun _ => { attackSpeed := 65537 }) (some worn) = 65537 :=
  ⟨weaponsOnly_swordAndShield, _, _, rfl, rfl, rfl, rfl⟩

end FullInventory

end Bango.Items
