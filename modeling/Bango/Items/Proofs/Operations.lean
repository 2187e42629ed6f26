import Bango.Items.Proofs.Settling

set_option autoImplicit false

/-! # What an item operation does

An operation of the player leaves the items alone, changes one and reports the change, removes one and
reports it, or creates one and reports it. -/

namespace Bango.Items

open Bango.Lib

/-! ## The inventory -/

namespace Inventory

variable {inv inv' : Inventory} {localId : UInt32} {item item' : Item}

theorem mem_of_findByIndex {met : Nat} {index : UInt16} (h : inv.findByIndex met index = some item) :
    item ∈ inv.items :=
  (List.mem_filter.1 (List.mem_of_getElem? h)).1

theorem index_of_findByIndex {met : Nat} {index : UInt16}
    (h : inv.findByIndex met index = some item) : item.info.index = index := by
  simpa using (List.mem_filter.1 (List.mem_of_getElem? h)).2

theorem getIid_eq (h : inv.findByLocalId localId = some item) : inv.getIid localId = item.info.iid := by
  simp [getIid, h]

theorem trash_spec (h : inv.trash localId = some inv') :
    ∃ item, inv.findByLocalId localId = some item ∧
      inv'.items = eraseKey Item.localId localId inv.items := by
  unfold trash at h
  cases hfind : inv.findByLocalId localId with
  | none => simp [hfind] at h
  | some item =>
      simp only [hfind] at h
      split at h
      · cases h
      · cases h
        exact ⟨item, rfl, rfl⟩

/-- `PutOn` marks an item that is not put on yet. -/
theorem putOn_spec (h : inv.putOn localId = some (item', inv')) :
    ∃ item, inv.findByLocalId localId = some item ∧ ¬ item.IsPutOn ∧ item' = item.addInfo itemPutOn ∧
      inv'.items = updateKey Item.localId localId (·.addInfo itemPutOn) inv.items := by
  unfold putOn at h
  cases hfind : inv.findByLocalId localId with
  | none => simp [hfind] at h
  | some item =>
      simp only [hfind] at h
      split at h
      · cases h
      · next hput =>
        refine ⟨item, rfl, hput, ?_⟩
        split at h
        · -- a ride
          split at h
          · cases h
          · cases h
            exact ⟨rfl, rfl⟩
        · split at h
          · cases h
          · split at h
            · cases h
            · -- a slot, which has to be free
              split at h
              · cases h
              · split at h
                · cases h
                · cases h
                  exact ⟨rfl, rfl⟩

/-- `PutOff` unmarks an item that is put on. -/
theorem putOff_spec (h : inv.putOff localId = .ok (some (item', inv'))) :
    ∃ item, inv.findByLocalId localId = some item ∧ item.IsPutOn ∧ item' = item.subInfo itemPutOn ∧
      inv'.items = updateKey Item.localId localId (·.subInfo itemPutOn) inv.items := by
  unfold putOff at h
  cases hfind : inv.findByLocalId localId with
  | none => simp [hfind] at h
  | some item =>
      simp only [hfind] at h
      split at h
      · cases h
      · next hput =>
        refine ⟨item, rfl, Decidable.not_not.1 hput, ?_⟩
        split at h
        · -- a ride
          split at h
          · cases h
            exact ⟨rfl, rfl⟩
          · cases h
        · split at h
          · cases h
          · split at h
            · cases h
            · -- a slot, which has to be taken
              split at h
              · cases h
              · cases h
                exact ⟨rfl, rfl⟩

/-- `Insert` of an item that is not put on, with a free local id. -/
theorem insert_of_free {db : ItemDb} {info : ItemInfo} {init : InitItem}
    (hdb : db info.index = some init) (hinfo : info.info &&& itemPutOn = 0)
    (hfree : ∀ other ∈ inv.items, other.localId ≠ localId) :
    inv.insert db localId info =
      .ok ({ inv with
        items := ⟨localId, init, info⟩ :: inv.items, keyed := keyed_cons.2 ⟨hfree, inv.keyed⟩ },
        some ⟨localId, init, info⟩) := by
  have hput : ¬ Item.IsPutOn ⟨localId, init, info⟩ := fun hput => hput hinfo
  unfold insert
  simp only [hdb, dif_pos hfree, applyPutOn, if_pos hput]

theorem insert_of_taken {db : ItemDb} {info : ItemInfo}
    (htaken : ¬ ∀ other ∈ inv.items, other.localId ≠ localId) :
    inv.insert db localId info = .ok (inv, none) := by
  unfold insert
  cases db info.index with
  | none => rfl
  | some init => exact dif_neg htaken

end Inventory

/-! ## The flags -/

theorem or_putOn_ne {info : UInt32} (h : info &&& itemPutOn = 0) : info ||| itemPutOn ≠ info := by
  intro heq
  have hand : (info ||| itemPutOn) &&& itemPutOn = itemPutOn :=
    calc (info ||| itemPutOn) &&& itemPutOn
        = info &&& itemPutOn ||| itemPutOn &&& itemPutOn :=
          UInt32.toBitVec_inj.1 BitVec.and_or_distrib_right
      _ = itemPutOn := by rw [h]; rfl
  rw [heq, h] at hand
  exact absurd hand (by decide)

theorem and_not_putOn_ne {info : UInt32} (h : info &&& itemPutOn ≠ 0) :
    info &&& ~~~itemPutOn ≠ info := by
  intro heq
  apply h
  rw [← heq, UInt32.and_assoc]
  exact UInt32.and_zero

/-! ## Reports -/

/-- The game server goes from `s` to `s'` and writes a message. -/
structure Sends (s s' : System) (message : S2D) : Prop where
  pid : s'.player.pid = s.player.pid
  uid : s'.player.uid = s.player.uid
  toDb : s'.toDb = s.toDb ++ [message]
  toGame : s'.toGame = s.toGame
  table : s'.table = s.table

/-- A message about an item of an id makes the row of the item that of another, if there is such a
    row, and changes nothing otherwise. -/
structure Reports (message : S2D) (item item' : Item) : Prop where
  iid : item'.info.iid = item.info.iid
  localId : item'.localId = item.localId
  sent : ∀ pid next, item.info.iid < next → message.Sent pid next
  isInsert : message.isInsert = false
  row : ∀ pid rows rest, Keyed Row.iditem rows → rows.Perm (item.row pid :: rest) →
    (message.change rows).Perm (item'.row pid :: rest)
  unknown : ∀ rows, (∀ row ∈ rows, row.iditem ≠ item.info.iid) → message.change rows = rows

theorem reports_num (item : Item) (num : UInt32) :
    Reports (.updateItemNum item.info.iid num) item (item.updateNum num) where
  iid := rfl
  localId := rfl
  sent _ _ h := h
  isInsert := rfl
  row _ _ _ hkeyed hperm := hkeyed.updateKey_perm hperm _
  unknown _ h := updateKey_of_forall_ne h

theorem reports_info (item : Item) (info : UInt32) :
    Reports (.updateItemInfo item.info.iid info) item
      { item with info := { item.info with info } } where
  iid := rfl
  localId := rfl
  sent _ _ h := h
  isInsert := rfl
  row _ _ _ hkeyed hperm := hkeyed.updateKey_perm hperm _
  unknown _ h := updateKey_of_forall_ne h

/-- An item is changed, and the change reported. -/
structure Edits (s s' : System) (item item' : Item) : Prop where
  mem : item ∈ s.items
  items : ∀ rest, s.items.Perm (item :: rest) → s'.items.Perm (item' :: rest)
  sends : ∃ message, Sends s s' message ∧ Reports message item item'

/-- An item is removed, and the removal reported. -/
structure Removes (s s' : System) (item : Item) : Prop where
  mem : item ∈ s.items
  items : ∀ rest, s.items.Perm (item :: rest) → s'.items.Perm rest
  sends : Sends s s' (.trashItem item.info.iid)

/-- An item without an id is created, and the item reported. -/
structure Creates (s s' : System) (item : Item) : Prop where
  items : s'.items = item :: s.items
  iid : item.info.iid = 0
  sends : Sends s s' (.insertItem item.info s.player.pid s.player.uid item.localId)

/-- The player's items, messages and rows are as they were. -/
structure Keeps (s s' : System) : Prop where
  pid : s'.player.pid = s.player.pid
  uid : s'.player.uid = s.player.uid
  items : s'.items = s.items
  toDb : s'.toDb = s.toDb
  toGame : s'.toGame = s.toGame
  rows : s'.rows = s.rows
  next : s.table.next ≤ s'.table.next

variable {db : ItemDb} {s s' : System} {item : Item} {localId : UInt32}

theorem Keeps.refl (s : System) : Keeps s s := ⟨rfl, rfl, rfl, rfl, rfl, rfl, Nat.le_refl _⟩

theorem Keeps.level (s : System) (level : UInt8) :
    Keeps s { s with player := { s.player with level } } :=
  ⟨rfl, rfl, rfl, rfl, rfl, rfl, Nat.le_refl _⟩

theorem Keeps.otherItem (s : System) : Keeps s { s with maxLocalId := s.maxLocalId + 1 } :=
  ⟨rfl, rfl, rfl, rfl, rfl, rfl, Nat.le_refl _⟩

theorem mem_of_findByLocalId (h : s.player.inventory.findByLocalId localId = some item) :
    item ∈ s.items ∧ item.localId = localId :=
  ⟨mem_of_findKey h, key_of_findKey h⟩

theorem edits_of_updateKey {inventory : Inventory} {f : Item → Item} {message : S2D}
    (hmem : item ∈ s.items) (hreports : Reports message item (f item))
    (hitems : inventory.items = updateKey Item.localId item.localId f s.items) :
    Edits s ((s.withInventory inventory).write message) item (f item) where
  mem := hmem
  items rest hperm := by
    show inventory.items.Perm _
    rw [hitems]
    exact s.player.inventory.keyed.updateKey_perm hperm f
  sends := ⟨message, ⟨rfl, rfl, rfl, rfl, rfl⟩, hreports⟩

/-! ## The condition -/

/-- The index and the endurance of a new item of the index fit into their columns, if the next local id
    is free for it. -/
def System.Storable (db : ItemDb) (s : System) (index : UInt16) : Prop :=
  ∀ init ∈ db index, (∀ item ∈ s.items, item.localId ≠ s.maxLocalId + 1) →
    index < 32768 ∧ init.endurance < 128

instance (index : UInt16) : Decidable (s.Storable db index) :=
  inferInstanceAs (Decidable (∀ _ ∈ _, _))

/-- An item is changed or removed only when it has got its id, and a new item fits into the table. -/
def IdFirst (db : ItemDb) (s : System) : Op → Prop
  | .insertItem met index num =>
    match s.player.inventory.findByIndex met index with
    | some item => if item.init.plural then item.info.iid ≠ 0 ∨ num = 0 else s.Storable db index
    | none => s.Storable db index
  | .trashItem localId =>
    match s.player.inventory.trash localId with
    | some _ => s.player.inventory.getIid localId ≠ 0
    | none => True
  | .putOn localId =>
    match s.tryPutOn localId with
    | some (item, _) => item.info.iid ≠ 0
    | none => True
  | .putOff localId =>
    match s.player.inventory.putOff localId with
    | .ok (some (item, _)) => item.info.iid ≠ 0
    | .ok none | .error _ => True
  | .level _ | .otherItem | .database | .otherMessage _ | .deliver => True

instance (o : Op) : Decidable (IdFirst db s o) :=
  match o with
  | .insertItem met index num =>
    match h : s.player.inventory.findByIndex met index with
    | some item =>
      decidable_of_iff (if item.init.plural then item.info.iid ≠ 0 ∨ num = 0 else s.Storable db index)
        (by simp only [IdFirst, h])
    | none => decidable_of_iff (s.Storable db index) (by simp only [IdFirst, h])
  | .trashItem localId =>
    match h : s.player.inventory.trash localId with
    | some _ => decidable_of_iff (s.player.inventory.getIid localId ≠ 0) (by simp only [IdFirst, h])
    | none => isTrue (by simp only [IdFirst, h])
  | .putOn localId =>
    match h : s.tryPutOn localId with
    | some (item, _) => decidable_of_iff (item.info.iid ≠ 0) (by simp only [IdFirst, h])
    | none => isTrue (by simp only [IdFirst, h])
  | .putOff localId =>
    match h : s.player.inventory.putOff localId with
    | .ok (some (item, _)) => decidable_of_iff (item.info.iid ≠ 0) (by simp only [IdFirst, h])
    | .ok none | .error _ => isTrue (by simp only [IdFirst, h])
  | .level _ | .otherItem | .database | .otherMessage _ | .deliver => isTrue trivial

/-! ## Operations -/

/-- The item that is created. -/
def System.newItem (s : System) (init : InitItem) (index : UInt16) (num : UInt32) : Item where
  localId := s.maxLocalId + 1
  init := init
  info := { index, curEnd := init.endurance, num := if init.plural then num else 1 }

variable {index : UInt16} {num : UInt32}

theorem createItem_of_none (hdb : db index = none) : s.createItem db index num = .ok s := by
  simp [System.createItem, hdb]

theorem createItem_of_free (num : UInt32) {init : InitItem} (hdb : db index = some init)
    (hfree : ∀ item ∈ s.items, item.localId ≠ s.maxLocalId + 1) :
    ∃ s', s.createItem db index num = .ok s' ∧ Creates s s' (s.newItem init index num) := by
  let item := s.newItem init index num
  let inventory : Inventory := { s.player.inventory with
    items := item :: s.items, keyed := keyed_cons.2 ⟨hfree, s.player.inventory.keyed⟩ }
  -- a new item has no flags, so `Insert` puts it on nothing
  have hinsert : s.player.inventory.insert db (s.maxLocalId + 1) item.info =
      .ok (inventory, some item) := Inventory.insert_of_free hdb UInt32.zero_and hfree
  have hcreate : s.createItem db index num =
      .ok (({ s.withInventory inventory with maxLocalId := s.maxLocalId + 1 }).write
        (.insertItem item.info s.player.pid s.player.uid item.localId)) := by
    simp only [System.createItem, System.insert, hdb, Option.isSome_some, if_true]
    simp only [item, System.newItem] at hinsert
    rw [hinsert]
    rfl
  exact ⟨_, hcreate, rfl, rfl, ⟨rfl, rfl, rfl, rfl, rfl⟩⟩

theorem createItem_of_taken {init : InitItem} (hdb : db index = some init)
    (htaken : ¬ ∀ item ∈ s.items, item.localId ≠ s.maxLocalId + 1) :
    s.createItem db index num = .error .nullPointer := by
  simp only [System.createItem, System.insert, hdb, Option.isSome_some, if_true]
  rw [Inventory.insert_of_taken htaken]

/-- What an operation of the player does, and what the condition says about it. -/
inductive Effect (s s' : System) (good : Prop) : Prop where
  | keeps (h : Keeps s s') (hgood : good)
  | edits {item item' : Item} (h : Edits s s' item item')
    (hgood : good ↔ item.info.iid ≠ 0 ∨ item' = item)
    (hcontent : item' ≠ item → item'.info.content ≠ item.info.content)
  | removes {item : Item} (h : Removes s s' item) (hgood : good ↔ item.info.iid ≠ 0)
  | creates {item : Item} (h : Creates s s' item) (hgood : good ↔ item.info.Fits)

theorem createItem_effect (h : s.createItem db index num = .ok s') :
    Effect s s' (s.Storable db index) := by
  cases hdb : db index with
  | none =>
      rw [createItem_of_none hdb] at h
      cases h
      exact .keeps (.refl s) (by simp [System.Storable, hdb])
  | some init =>
      by_cases hfree : ∀ item ∈ s.items, item.localId ≠ s.maxLocalId + 1
      · obtain ⟨t, ht, hcreates⟩ := createItem_of_free num hdb hfree
        rw [ht] at h
        cases h
        refine .creates hcreates ?_
        constructor
        · exact fun hgood => hgood init hdb hfree
        · rintro hfits init' hinit' -
          obtain rfl := Option.some.inj (hdb.symm.trans hinit')
          exact hfits
      · rw [createItem_of_taken hdb hfree] at h
        cases h

theorem insertItem_effect {met : Nat} (h : s.insertItem db met index num = .ok s') :
    Effect s s' (IdFirst db s (.insertItem met index num)) := by
  unfold System.insertItem at h
  cases hfind : s.player.inventory.findByIndex met index with
  | none =>
      simp only [IdFirst, hfind] at h ⊢
      exact createItem_effect h
  | some item =>
      by_cases hplural : item.init.plural
      · simp only [hfind, hplural, if_true, Except.ok.injEq] at h
        subst h
        -- the quantity is what changes
        have hcontent : (item.updateNum (item.info.num + num)).info.content = item.info.content →
            num = 0 := fun h =>
          UInt32.add_eq_left.1 (congrArg (fun content : Content => content.2.1) h)
        have hnum : item.updateNum (item.info.num + num) = item ↔ num = 0 := by
          constructor
          · exact fun h => hcontent (congrArg (fun item : Item => item.info.content) h)
          · rintro rfl
            simp [Item.updateNum]
        refine .edits (edits_of_updateKey (Inventory.mem_of_findByIndex hfind) (reports_num item _) rfl)
          ?_ fun hne h => hne (hnum.2 (hcontent h))
        simp only [IdFirst, hfind, hplural, if_true, hnum]
      · simp only [IdFirst, hfind, hplural] at h ⊢
        exact createItem_effect h

theorem trashItem_effect : Effect s (s.trashItem localId) (IdFirst db s (.trashItem localId)) := by
  cases htrash : s.player.inventory.trash localId with
  | none =>
      simp only [System.trashItem, IdFirst, htrash]
      exact .keeps (.refl s) trivial
  | some inventory =>
      obtain ⟨item, hfind, hitems⟩ := Inventory.trash_spec htrash
      obtain ⟨hmem, rfl⟩ := mem_of_findByLocalId hfind
      simp only [System.trashItem, IdFirst, htrash, Inventory.getIid_eq hfind]
      refine .removes ⟨hmem, fun rest hperm => ?_, ⟨rfl, rfl, rfl, rfl, rfl⟩⟩ Iff.rfl
      show inventory.items.Perm rest
      rw [hitems]
      exact s.player.inventory.keyed.eraseKey_perm hperm

/-- What other flags of an item do. -/
theorem flags_effect {inventory : Inventory} {f : Item → Item} {info : UInt32} (hmem : item ∈ s.items)
    (hf : f item = { item with info := { item.info with info } }) (hinfo : info ≠ item.info.info)
    (hitems : inventory.items = updateKey Item.localId item.localId f s.items) :
    Effect s ((s.withInventory inventory).write (.updateItemInfo (f item).info.iid (f item).info.info))
      ((f item).info.iid ≠ 0) := by
  have hreports : Reports (.updateItemInfo (f item).info.iid (f item).info.info) item (f item) := by
    rw [hf]
    exact reports_info item info
  have hcontent : (f item).info.content ≠ item.info.content := by
    rw [hf]
    exact fun h => hinfo (congrArg (fun content : Content => content.2.2) h)
  refine .edits (edits_of_updateKey hmem hreports hitems) ?_ fun _ => hcontent
  -- other flags make another item, whether or not a row has its id
  have hne : f item ≠ item := fun h => hcontent (by rw [h])
  simp only [hreports.iid, hne, or_false]

theorem onPutOnItem_effect : Effect s (s.onPutOnItem localId) (IdFirst db s (.putOn localId)) := by
  cases hput : s.tryPutOn localId with
  | none =>
      simp only [System.onPutOnItem, IdFirst, hput]
      exact .keeps (.refl s) trivial
  | some put =>
      obtain ⟨item', inventory⟩ := put
      have hputOn : s.player.inventory.putOn localId = some (item', inventory) := by
        unfold System.tryPutOn at hput
        repeat' split at hput
        · cases hput
        · cases hput
        · cases hput
        · exact hput
      obtain ⟨item, hfind, hoff, rfl, hitems⟩ := Inventory.putOn_spec hputOn
      obtain ⟨hmem, rfl⟩ := mem_of_findByLocalId hfind
      simp only [System.onPutOnItem, IdFirst, hput]
      exact flags_effect hmem rfl (or_putOn_ne (Decidable.not_not.1 hoff)) hitems

theorem onPutOffItem_effect (h : s.onPutOffItem localId = .ok s') :
    Effect s s' (IdFirst db s (.putOff localId)) := by
  cases hput : s.player.inventory.putOff localId with
  | error fault => simp [System.onPutOffItem, hput] at h
  | ok put =>
      cases put with
      | none =>
          simp only [System.onPutOffItem, hput, Except.ok.injEq] at h
          subst h
          simp only [IdFirst, hput]
          exact .keeps (.refl s) trivial
      | some put =>
          obtain ⟨item', inventory⟩ := put
          obtain ⟨item, hfind, hon, rfl, hitems⟩ := Inventory.putOff_spec hput
          obtain ⟨hmem, rfl⟩ := mem_of_findByLocalId hfind
          simp only [System.onPutOffItem, hput, Except.ok.injEq] at h
          subst h
          simp only [IdFirst, hput]
          exact flags_effect hmem rfl (and_not_putOn_ne hon) hitems

theorem ok_of_mapError {ε ε' α : Type} {f : ε → ε'} {x : Except ε α} {a : α}
    (h : x.mapError f = .ok a) : x = .ok a := by
  cases x with
  | ok b => simpa [Except.mapError] using h
  | error e => simp [Except.mapError] at h

/-- What a step that delivers nothing does. -/
theorem step_effect {o : Op} (ho : ¬ o.IsDelivery) (h : s.step db o = .ok s') :
    Effect s s' (IdFirst db s o) := by
  cases o with
  | insertItem met index num => exact insertItem_effect (ok_of_mapError h)
  | trashItem localId =>
      cases h
      exact trashItem_effect
  | putOn localId =>
      cases h
      exact onPutOnItem_effect
  | putOff localId => exact onPutOffItem_effect (ok_of_mapError h)
  | level level =>
      cases h
      exact .keeps (.level s level) trivial
  | otherItem =>
      cases h
      exact .keeps (.otherItem s) trivial
  | otherMessage message =>
      by_cases hforeign : message.Foreign s.player.pid s.table.rows
      · simp only [System.step, hforeign, if_true, Except.ok.injEq] at h
        subst h
        exact .keeps ⟨rfl, rfl, rfl, rfl, rfl, ItemTable.rowsOf_handle_of_foreign hforeign,
          ItemTable.next_le_handle⟩ trivial
      · simp [System.step, hforeign] at h
  | database | deliver => exact absurd trivial ho

theorem exists_createItem (h : ¬ s.Storable db index) (num : UInt32) :
    ∃ s', s.createItem db index num = .ok s' := by
  cases hdb : db index with
  | none => exact ⟨s, createItem_of_none hdb⟩
  | some init =>
      by_cases hfree : ∀ item ∈ s.items, item.localId ≠ s.maxLocalId + 1
      · obtain ⟨s', hs', -⟩ := createItem_of_free num hdb hfree
        exact ⟨s', hs'⟩
      · exact absurd (by simp [System.Storable, hdb, hfree]) h

/-- An operation that does not meet the condition is carried out. -/
theorem exists_step {o : Op} (h : ¬ IdFirst db s o) : ∃ s', s.step db o = .ok s' := by
  cases o with
  | insertItem met index num =>
      have hinsert : ∃ s', s.insertItem db met index num = .ok s' := by
        unfold System.insertItem
        cases hfind : s.player.inventory.findByIndex met index with
        | none =>
            simp only [IdFirst, hfind] at h
            exact exists_createItem h num
        | some item =>
            by_cases hplural : item.init.plural
            · simp [hplural]
            · simp only [IdFirst, hfind, hplural] at h ⊢
              exact exists_createItem h num
      obtain ⟨s', hs'⟩ := hinsert
      exact ⟨s', by simp [System.step, hs', Except.mapError]⟩
  | trashItem localId => exact ⟨s.trashItem localId, rfl⟩
  | putOn localId => exact ⟨s.onPutOnItem localId, rfl⟩
  | putOff localId =>
      cases hput : s.player.inventory.putOff localId with
      | error fault => exact absurd (by simp [IdFirst, hput]) h
      | ok put =>
          cases put with
          | none => exact absurd (by simp [IdFirst, hput]) h
          | some put =>
              obtain ⟨item, inventory⟩ := put
              exact ⟨_, by simp only [System.step, System.onPutOffItem, hput]; rfl⟩
  | level | otherItem | database | otherMessage | deliver => exact absurd trivial h

end Bango.Items
