import Bango.Items.Proofs.Linked

set_option autoImplicit false

/-! # The table agrees with the items

From the items that the player had when it was loaded, every run in which items are changed only when
they have got their ids, and new items fit into the table, keeps the rows and the items together; and
no other run does. -/

namespace Bango.Items

open Bango.Lib

variable {db : ItemDb} {s s' : System}

/-! ## Loading -/

/-- The items are those of the rows, and no message is in flight. -/
structure Loaded (s : System) : Prop where
  quiet : s.Quiet
  items : (s.items.map (Item.row s.player.pid)).Perm s.rows

theorem Loaded.linked (h : Loaded s) : Linked s s.items [] [] where
  items := by simp
  knows item hitem := by
    have hrow : item.row s.player.pid ∈ s.rows := h.items.mem_iff.1 (List.mem_map_of_mem hitem)
    exact Nat.ne_of_gt (ItemTable.pos_of_mem_rowsOf hrow)
  waits := by simp
  rows := by
    rw [h.quiet.1]
    simpa using h.items.symm
  replies := h.quiet.2
  inserts := by
    rw [h.quiet.1]
    rfl
  fits := by simp
  sent := by
    unfold System.AllSent
    rw [h.quiet.1]
    simp

theorem Inventory.items_applyPutOn {inv inv' : Inventory} {item : Item}
    (h : inv.applyPutOn item = .ok inv') : inv'.items = inv.items := by
  unfold applyPutOn at h
  split at h
  · cases h
    rfl
  · split at h
    · cases h
      rfl
    · split at h
      · cases h
      · cases h
        rfl

/-- `Insert` adds the item or nothing. -/
theorem Inventory.items_insert {inv inv' : Inventory} {localId : UInt32} {info : ItemInfo}
    {item : Option Item} (h : inv.insert db localId info = .ok (inv', item)) :
    inv'.items.map Item.info = info :: inv.items.map Item.info ∨ inv'.items = inv.items := by
  unfold insert at h
  split at h
  · cases h
    exact .inr rfl
  · simp only at h
    split at h
    · split at h
      · cases h
      · next inv'' hput =>
        cases h
        rw [items_applyPutOn hput]
        exact .inl rfl
    · cases h
      exact .inr rfl

/-- Only the inventory and the next local id may differ. -/
def Refilled (s s' : System) : Prop :=
  ∃ inventory maxLocalId, s' = { s.withInventory inventory with maxLocalId }

theorem insert_spec {info : ItemInfo} {item : Option Item} (h : s.insert db info = .ok (s', item)) :
    Refilled s s' ∧
      (s'.items.map Item.info = info :: s.items.map Item.info ∨ s'.items = s.items) := by
  unfold System.insert at h
  generalize (if (db info.index).isSome then s.maxLocalId + 1 else s.maxLocalId) = maxLocalId at h
  simp only at h
  split at h
  · cases h
  · next inventory item' hinsert =>
    cases h
    exact ⟨⟨inventory, maxLocalId, rfl⟩, Inventory.items_insert hinsert⟩

/-- `OnLoadItems` adds some of the items. -/
theorem onLoadItems_spec {infos : List ItemInfo} (h : System.onLoadItems db infos s = .ok s') :
    Refilled s s' ∧ ∃ loaded, loaded.Sublist infos ∧
      (s'.items.map Item.info).Perm (loaded ++ s.items.map Item.info) := by
  induction infos generalizing s with
  | nil =>
      cases h
      exact ⟨⟨s'.player.inventory, s'.maxLocalId, rfl⟩, [], List.Sublist.refl _, List.Perm.refl _⟩
  | cons info infos ih =>
      unfold System.onLoadItems at h
      split at h
      · cases h
      · next t item hinsert =>
        obtain ⟨⟨inventory, maxLocalId, rfl⟩, hitems⟩ := insert_spec hinsert
        obtain ⟨⟨inventory', maxLocalId', rfl⟩, loaded, hsub, hperm⟩ := ih h
        refine ⟨⟨inventory', maxLocalId', rfl⟩, ?_⟩
        -- an item is dropped when the tables do not have its index
        rcases hitems with hadded | hdropped
        · refine ⟨info :: loaded, hsub.cons_cons info, hperm.trans ?_⟩
          rw [hadded]
          exact List.perm_middle
        · rw [hdropped] at hperm
          exact ⟨loaded, hsub.cons info, hperm⟩

/-- A player whose items have all been loaded into its empty inventory. -/
theorem loaded_of_onLoadItems (hquiet : s.Quiet) (hempty : s.items = [])
    (h : System.onLoadItems db (s.table.loadItems s.player.pid) s = .ok s')
    (hall : s'.items.length = s.rows.length) : Loaded s' := by
  obtain ⟨⟨inventory, maxLocalId, rfl⟩, loaded, hsub, hperm⟩ := onLoadItems_spec h
  rw [hempty, List.map_nil, List.append_nil] at hperm
  have hlength : loaded.length = (s.table.loadItems s.player.pid).length := by
    rw [← hperm.length_eq, List.length_map, hall, ItemTable.loadItems, List.length_map]
    rfl
  -- as many items as rows: none has been dropped
  obtain rfl := hsub.eq_of_length hlength
  have hrows := hperm.map fun info => info.row s.player.pid info.iid
  rw [List.map_map, ItemTable.loadItems, List.map_map] at hrows
  refine ⟨hquiet, hrows.trans (.of_eq ?_)⟩
  -- each row is that of its item
  conv_rhs => rw [← List.map_id (System.rows _)]
  refine List.map_congr_left fun row hrow => ?_
  have hpid : row.idplayer = s.player.pid := of_decide_eq_true (List.mem_filter.1 hrow).2
  show row.itemInfo.row s.player.pid row.iditem = row
  rw [← hpid]
  rfl

/-! ## Runs -/

/-- The invariant. -/
def Together (s : System) : Prop :=
  ∃ known answered awaited, Linked s known answered awaited

/-- In every state of a run the rows will be the items, once no message is in flight, exactly when items
    are changed and removed only when they have got their ids, and new items fit into the table. -/
theorem settles_iff_idFirst (hloaded : Loaded s) (ops : List Op) :
    (∀ before after s', ops = before ++ after → run (System.step db) s before = .ok s' →
      s'.Settles db) ↔
    Admissible (System.step db) (IdFirst db) s ops := by
  refine forall_state_iff_admissible (fun t o t' ht hgood hstep => ?_) (fun t ht => ?_)
    (fun t o ht hbad => ?_) (show Together s from ⟨s.items, [], [], hloaded.linked⟩)
  · obtain ⟨known, answered, awaited, hlinked⟩ := ht
    exact hlinked.step hgood hstep
  · obtain ⟨known, answered, awaited, hlinked⟩ := ht
    exact hlinked.settles
  · obtain ⟨known, answered, awaited, hlinked⟩ := ht
    obtain ⟨t', hstep⟩ := exists_step hbad
    exact ⟨t', hstep, hlinked.not_settles hbad hstep⟩

/-- A potion, of which there may be many, and a sword. -/
def potionAndSword : ItemDb := fun index =>
  if index = 47 then some { itemClass := .general, kind := .other, plural := true }
  else if index = 1 then some { endurance := 4, wearable := true }
  else none

/-- A player with a sword, the only row of the table. -/
def swordBearer : System where
  player := {
    pid := 7, uid := 5, playerClass := 0, level := 1
    inventory := {
      items := [⟨1, { endurance := 4, wearable := true }, { index := 1, iid := 1, num := 1, curEnd := 4 }⟩]
      wearItems := fun _ => none
      ride := false
      keyed := by decide } }
  maxLocalId := 1
  toDb := []
  toGame := []
  table := {
    rows := [⟨1, 7, 1, 1, 0, 4⟩]
    next := 2
    keyed := by decide
    positive := by decide
    bounded := by decide
    next_pos := by decide }

/-- The same player before its items are loaded. -/
def swordless : System :=
  { swordBearer with
    player := { swordBearer.player with inventory := .empty }
    maxLocalId := 0 }

theorem settles_iff_idFirst_swordBearer :
    System.onLoadItems potionAndSword (swordless.table.loadItems 7) swordless = .ok swordBearer ∧
    ∀ before after s', [Op.insertItem 0 47 3, .putOn 1, .database, .deliver, .insertItem 0 47 2,
        .database, .database, .trashItem 2] = before ++ after →
      run (System.step potionAndSword) swordBearer before = .ok s' → s'.Settles potionAndSword := by
  have hload : System.onLoadItems potionAndSword (swordless.table.loadItems 7) swordless =
      .ok swordBearer := rfl
  have hloaded : Loaded swordBearer := loaded_of_onLoadItems (by decide) rfl hload rfl
  exact ⟨hload, (settles_iff_idFirst hloaded _).2 (by decide +kernel)⟩

/-- Two potions picked up one after the other, the second before the first has got its id. -/
theorem not_agrees_earlyRaise :
    ¬ ∀ (db : ItemDb) (s : System) (ops : List Op) (s' : System), Loaded s →
      run (System.step db) s ops = .ok s' → s'.Quiet → s'.Agrees := by
  intro halways
  have hrun : run (System.step potionAndSword) swordBearer
      [.insertItem 0 47 1, .insertItem 0 47 1, .database, .database, .deliver] = .ok _ := rfl
  have hagrees := halways _ _ _ _ ⟨by decide, by decide⟩ hrun (by decide +kernel)
  exact absurd hagrees (by decide +kernel)

end Bango.Items
