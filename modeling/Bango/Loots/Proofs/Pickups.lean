import Bango.Items.Proofs.Operations
import Bango.Loots.System

set_option autoImplicit false

/-! # What a pickup brings

A loot leaves the world once. A pickup removes it whatever `InsertItem` has done: an index without an
`InitItem` gives nothing, an item that is not plural comes alone, and a stack is counted in 32 bits. -/

namespace Bango.Loots

open Bango.Lib Bango.Items

variable {tables : Tables} {index : UInt16} {num : UInt32}

/-! ## Quantities -/

theorem quantity_perm {items items' : List Item} (h : items.Perm items') :
    quantity items index = quantity items' index :=
  ((h.filter _).map _).sum_eq

/-- One more item of the index. -/
theorem quantity_cons {item : Item} (h : item.info.index = index) (items : List Item) :
    quantity (item :: items) index = item.info.num.toNat + quantity items index := by
  simp [quantity, h]

/-- The number of an item is all that changes in the quantity of its index. -/
theorem quantity_updateNum {inventory : Inventory} {item : Item} (hmem : item ∈ inventory.items)
    (hindex : item.info.index = index) (num : UInt32) :
    quantity (updateKey Item.localId item.localId (·.updateNum num) inventory.items) index +
      item.info.num.toNat = quantity inventory.items index + num.toNat := by
  have hperm := List.perm_cons_erase hmem
  rw [quantity_perm hperm, quantity_perm (inventory.keyed.updateKey_perm hperm (·.updateNum num)),
    quantity_cons hindex, quantity_cons (by exact hindex)]
  show num.toNat + _ + _ = _
  omega

end Bango.Loots

namespace Bango.Items.System

open Bango.Lib Bango.Loots

variable {db : ItemDb} {s s' : System} {index : UInt16} {num : UInt32}

/-- A new item comes in the whole number. -/
def CreatesWhole (db : ItemDb) (s : System) (index : UInt16) (num : UInt32) : Prop :=
  match db index with
  | none => num = 0
  | some init =>
    (∀ item ∈ s.player.inventory.items, item.localId ≠ s.maxLocalId + 1) → init.plural ∨ num = 1

instance (index : UInt16) (num : UInt32) : Decidable (CreatesWhole db s index num) := by
  unfold CreatesWhole
  split <;> infer_instance

/-- The whole number comes into the inventory. -/
def InsertsWhole (db : ItemDb) (s : System) (met : Nat) (index : UInt16) (num : UInt32) : Prop :=
  match s.player.inventory.findByIndex met index with
  | none => CreatesWhole db s index num
  | some item =>
    if item.init.plural then item.info.num.toNat + num.toNat < 2 ^ 32
    else CreatesWhole db s index num

instance (met : Nat) (index : UInt16) (num : UInt32) : Decidable (InsertsWhole db s met index num) := by
  unfold InsertsWhole
  split <;> infer_instance

/-- What a new item adds to the quantity of its index. -/
theorem createItem_quantity_iff (h : s.createItem db index num = .ok s') :
    quantity s'.player.inventory.items index = quantity s.player.inventory.items index + num.toNat ↔
      CreatesWhole db s index num := by
  unfold CreatesWhole
  cases hdb : db index with
  | none =>
      rw [createItem_of_none hdb] at h
      rw [← Except.ok.inj h, ← UInt32.toNat_inj]
      show _ ↔ num.toNat = 0
      omega
  | some init =>
      dsimp only
      by_cases hfree : ∀ item ∈ s.player.inventory.items, item.localId ≠ s.maxLocalId + 1
      · obtain ⟨t, ht, hcreates⟩ := createItem_of_free num hdb hfree
        rw [ht] at h
        have hitems : s'.player.inventory.items =
            s.newItem init index num :: s.player.inventory.items := by
          rw [← Except.ok.inj h]
          exact hcreates.items
        have hnew : quantity s'.player.inventory.items index =
            (if init.plural then num else 1).toNat + quantity s.player.inventory.items index := by
          rw [hitems, quantity_cons (by rfl)]
          rfl
        rw [hnew, iff_true_intro hfree, true_imp_iff, ← UInt32.toNat_inj]
        by_cases hplural : init.plural
        · simp only [hplural, if_true, true_or, iff_true]
          omega
        · simp only [hplural, Bool.false_eq_true, if_false, false_or]
          omega
      · rw [createItem_of_taken hdb hfree] at h
        cases h

/-- What is picked up adds its number to the quantity of its index exactly when the whole number
    comes into the inventory. -/
theorem insertItem_quantity_iff {met : Nat} (h : s.insertItem db met index num = .ok s') :
    quantity s'.player.inventory.items index = quantity s.player.inventory.items index + num.toNat ↔
      InsertsWhole db s met index num := by
  unfold insertItem at h
  unfold InsertsWhole
  cases hfind : s.player.inventory.findByIndex met index with
  | none =>
      simp only [hfind] at h
      exact createItem_quantity_iff h
  | some item =>
      by_cases hplural : item.init.plural
      · simp only [hfind, hplural, if_true, Except.ok.injEq] at h ⊢
        have hsum := quantity_updateNum (Inventory.mem_of_findByIndex hfind)
          (Inventory.index_of_findByIndex hfind) (item.info.num + num)
        have hlt := (item.info.num).toNat_lt
        have hadd : (item.info.num + num).toNat = (item.info.num.toNat + num.toNat) % 2 ^ 32 :=
          UInt32.toNat_add _ _
        subst h
        show quantity (updateKey _ _ _ _) index = _ ↔ _
        omega
      · simp only [hfind, hplural] at h ⊢
        exact createItem_quantity_iff h

/-- `InsertItem` comes to its end when it would not bring the whole number. -/
theorem exists_insertItem {met : Nat} (h : ¬ InsertsWhole db s met index num) :
    ∃ s', s.insertItem db met index num = .ok s' := by
  have hcreate : ¬ CreatesWhole db s index num → ∃ s', s.createItem db index num = .ok s' := by
    intro hnot
    unfold CreatesWhole at hnot
    cases hdb : db index with
    | none => exact ⟨s, createItem_of_none hdb⟩
    | some init =>
        simp only [hdb, Classical.not_imp] at hnot
        obtain ⟨t, ht, -⟩ := createItem_of_free num hdb hnot.1
        exact ⟨t, ht⟩
  unfold InsertsWhole at h
  unfold insertItem
  cases hfind : s.player.inventory.findByIndex met index with
  | none =>
      simp only [hfind] at h
      exact hcreate h
  | some item =>
      by_cases hplural : item.init.plural
      · simp only [hplural, if_true]
        exact ⟨_, rfl⟩
      · simp only [hfind, hplural] at h ⊢
        exact hcreate h

end Bango.Items.System

namespace Bango.Loots.System

open Bango.Lib Bango.Items

variable {tables : Tables} {s s' : System} {place : Nat}

/-! ## Where the loots are -/

/-- Each loot has a place, and is registered under its id until it leaves. -/
structure Tracked (s : System) : Prop where
  registered : ∀ id place, s.registered id = some place →
    place < s.made ∧ (s.loots place).id = id
  left_lt : ∀ leaving ∈ s.left, leaving.loot < s.made
  once : (s.left.map Leaving.loot).Nodup
  here_iff : ∀ place < s.made, s.registered (s.loots place).id = some place ↔
    ∀ leaving ∈ s.left, leaving.loot ≠ place

/-- Each pickup has added the number of the loot to what the player had. -/
def PickedUpWhole (s : System) : Prop :=
  ∀ leaving ∈ s.left, ∀ player before after, leaving.way = .pickedUp player before after →
    after = before + (s.loots leaving.loot).itemInfo.num.toNat

namespace Tracked

theorem addLoot (h : s.Tracked) (info : LootInfo) (now : UInt64) : (s.addLoot info now).1.Tracked := by
  unfold System.addLoot
  dsimp only
  split
  next hfree =>
    have hold : ∀ place < s.made,
        Function.update s.loots s.made (.make info s.nextId now) place = s.loots place :=
      fun place hlt => Function.update_of_ne (Nat.ne_of_lt hlt) _ _
    refine ⟨fun id place hfound => ?_, fun leaving hmem => ?_, h.once, fun place hlt => ?_⟩
    · by_cases hid : id = s.nextId
      · simp only [hid, Function.update_self, Option.some.injEq] at hfound
        rw [← hfound, hid]
        refine ⟨Nat.lt_succ_self _, ?_⟩
        dsimp only
        rw [Function.update_self]
        rfl
      · simp only [Function.update_of_ne hid] at hfound
        obtain ⟨hlt, hself⟩ := h.registered id place hfound
        exact ⟨Nat.lt_succ_of_lt hlt, (congrArg Loot.id (hold place hlt)).trans hself⟩
    · exact Nat.lt_succ_of_lt (h.left_lt leaving hmem)
    · dsimp only
      rcases Nat.lt_succ_iff_lt_or_eq.1 hlt with hbefore | rfl
      · rw [hold place hbefore, ← h.here_iff place hbefore]
        by_cases hid : (s.loots place).id = s.nextId
        · -- The new loot has taken over the id of one that has left.
          rw [hid, Function.update_self, hfree]
          simp only [Option.some.injEq, reduceCtorEq, iff_false]
          exact (Nat.ne_of_lt hbefore).symm
        · rw [Function.update_of_ne hid]
      · rw [Function.update_self]
        refine iff_of_true (Function.update_self _ _ _) fun leaving hmem => ?_
        exact Nat.ne_of_lt (h.left_lt leaving hmem)
  next => exact ⟨h.registered, h.left_lt, h.once, h.here_iff⟩

/-- A registered loot leaves. -/
theorem remove (h : s.Tracked) (hhere : s.registered (s.loots place).id = some place) (way : Way) :
    (s.remove place way).Tracked := by
  have hplace := (h.registered _ place hhere).1
  have hnot := (h.here_iff place hplace).1 hhere
  refine ⟨fun id other hfound => ?_, ?_, ?_, fun other hlt => ?_⟩
  · by_cases hid : id = (s.loots place).id
    · simp [System.remove, hid] at hfound
    · simp only [System.remove, Function.update_of_ne hid] at hfound
      exact h.registered id other hfound
  · exact List.forall_mem_cons.2 ⟨hplace, h.left_lt⟩
  · refine List.nodup_cons.2 ⟨fun hmem => ?_, h.once⟩
    obtain ⟨leaving, hleaving, heq⟩ := List.mem_map.1 hmem
    exact hnot leaving hleaving heq
  · have hiff := h.here_iff other hlt
    show Function.update s.registered (s.loots place).id none (s.loots other).id = some other ↔
      ∀ leaving ∈ ⟨place, way⟩ :: s.left, leaving.loot ≠ other
    rw [List.forall_mem_cons, ← hiff]
    by_cases hid : (s.loots other).id = (s.loots place).id
    · rw [hid, Function.update_self, hhere, Option.some.injEq]
      exact iff_of_false nofun fun hboth => hboth.1 hboth.2
    · rw [Function.update_of_ne hid]
      refine (and_iff_right ?_).symm
      rintro rfl
      exact hid rfl

end Tracked

/-! ## Steps -/

/-- What the invariant says. -/
structure Sound (s : System) : Prop where
  tracked : s.Tracked
  whole : s.PickedUpWhole

namespace Sound

theorem addLoot (h : s.Sound) (info : LootInfo) (now : UInt64) : (s.addLoot info now).1.Sound := by
  refine ⟨h.tracked.addLoot info now, ?_⟩
  unfold System.addLoot
  dsimp only
  split
  · intro leaving hmem player before after hway
    have hold := h.whole leaving hmem player before after hway
    dsimp only
    rwa [Function.update_of_ne (Nat.ne_of_lt (h.tracked.left_lt leaving hmem))]
  · exact h.whole

theorem addLoots (h : s.Sound) (now : Nat → UInt64) (infos : List LootInfo) :
    (s.addLoots now infos).Sound := by
  induction infos generalizing s with
  | nil => exact h
  | cons info infos ih =>
      have hadd := h.addLoot info (now s.made)
      unfold System.addLoots
      split
      next t ht =>
        rw [ht] at hadd
        exact ih hadd
      next t ht =>
        rw [ht] at hadd
        exact hadd

theorem removeExpiredLoot (h : s.Sound) (now : Nat → UInt64) : (s.removeExpiredLoot now).Sound := by
  unfold System.removeExpiredLoot
  induction List.range s.made generalizing s with
  | nil => exact h
  | cons place places ih =>
      have hplace : (s.removeIfExpired now place).Sound := by
        unfold removeIfExpired
        split
        next hexpired =>
          exact ⟨h.tracked.remove hexpired.1 .expired, List.forall_mem_cons.2 ⟨nofun, h.whole⟩⟩
        next => exact h
      exact ih hplace

end Sound

/-- The loot that is picked up comes whole into the inventory. -/
def Fits (tables : Tables) (s : System) : Event → Prop
  | .onPickUpItem player id met => ∀ place ∈ s.registered id,
    Items.System.InsertsWhole tables.items (s.itemsOf player) met (s.loots place).itemInfo.index
      (s.loots place).itemInfo.num
  | .rollLoot .. | .removeExpiredLoot _ | .assignNewIds _ => True

/-- A pickup comes whole exactly when it fits. -/
theorem onPickUpItem_sound_iff (h : s.Sound) {player : Nat} {id : UInt32} {met : Nat}
    (hstep : s.onPickUpItem tables player id met = .ok s') :
    s'.Tracked ∧ (s'.PickedUpWhole ↔ Fits tables s (.onPickUpItem player id met)) := by
  unfold onPickUpItem at hstep
  cases hfound : s.registered id with
  | none =>
      simp only [hfound] at hstep
      rw [← Except.ok.inj hstep]
      refine ⟨h.tracked, iff_of_true h.whole ?_⟩
      simp [Fits, hfound]
  | some place =>
      simp only [hfound] at hstep
      cases hinsert : (s.itemsOf player).insertItem tables.items met (s.loots place).itemInfo.index
          (s.loots place).itemInfo.num with
      | error fault => simp [hinsert] at hstep
      | ok items =>
          simp only [hinsert] at hstep
          have hquantity := Items.System.insertItem_quantity_iff hinsert
          have htracked : (s.withItems player items).Tracked :=
            ⟨h.tracked.registered, h.tracked.left_lt, h.tracked.once, h.tracked.here_iff⟩
          have hhere : (s.withItems player items).registered
              ((s.withItems player items).loots place).id = some place := by
            show s.registered (s.loots place).id = some place
            rw [(h.tracked.registered id place hfound).2, hfound]
          rw [← Except.ok.inj hstep]
          refine ⟨htracked.remove hhere _, ?_⟩
          have hfits : Fits tables s (.onPickUpItem player id met) ↔
              quantity items.player.inventory.items (s.loots place).itemInfo.index =
                quantity (s.players player).inventory.items (s.loots place).itemInfo.index +
                  (s.loots place).itemInfo.num.toNat := by
            rw [show (s.players player) = (s.itemsOf player).player from rfl, hquantity]
            simp [Fits, hfound]
          rw [hfits]
          constructor
          · intro hwhole
            exact hwhole _ List.mem_cons_self player _ _ rfl
          · intro hgrown
            refine List.forall_mem_cons.2 ⟨fun other before after hway => ?_, h.whole⟩
            obtain ⟨-, rfl, rfl⟩ := Way.pickedUp.inj hway
            exact hgrown

theorem step_sound (event : Event) (h : s.Sound) (hfits : Fits tables s event)
    (hstep : s.step tables event = .ok s') : s'.Sound := by
  cases event with
  | rollLoot itemGroups draws now =>
      rw [← Except.ok.inj hstep]
      exact h.addLoots now _
  | onPickUpItem player id met =>
      obtain ⟨htracked, hiff⟩ := onPickUpItem_sound_iff h hstep
      exact ⟨htracked, hiff.2 hfits⟩
  | removeExpiredLoot now =>
      rw [← Except.ok.inj hstep]
      exact h.removeExpiredLoot now
  | assignNewIds n =>
      rw [← Except.ok.inj hstep]
      exact ⟨⟨h.tracked.registered, h.tracked.left_lt, h.tracked.once, h.tracked.here_iff⟩, h.whole⟩

theorem start_sound (players : Nat → Player) (items : Items.System) (nextId : UInt32) :
    (start players items nextId).Sound :=
  ⟨⟨by simp [start], by simp [start], List.nodup_nil, by simp [start]⟩, by simp [PickedUpWhole, start]⟩

/-! ## Runs -/

/-- What holds of the loots at any time. -/
structure Proper (s : System) : Prop where
  /-- No loot leaves twice. -/
  once : (s.left.map Leaving.loot).Nodup
  /-- A loot that has not left is on the map. -/
  here_iff : ∀ place < s.made, s.registered (s.loots place).id = some place ↔
    ∀ leaving ∈ s.left, leaving.loot ≠ place
  /-- What has been picked up has come whole. -/
  whole : s.PickedUpWhole

/-- Throughout a run no loot leaves twice, and what is picked up comes whole into the inventory,
    exactly when each pickup fits. -/
theorem run_proper_iff (tables : Tables) (players : Nat → Player) (items : Items.System)
    (nextId : UInt32) (events : List Event) :
    (∀ before after s, events = before ++ after →
      run (step tables) (start players items nextId) before = .ok s → s.Proper) ↔
        Admissible (step tables) (Fits tables) (start players items nextId) events := by
  have hkept : ∀ (s : System) (event : Event) (s' : System), s.Sound → Fits tables s event →
      s.step tables event = .ok s' → s'.Sound := fun _ event _ => step_sound event
  refine forall_state_iff_admissible hkept
    (fun s h => ⟨h.tracked.once, h.tracked.here_iff, h.whole⟩) ?_ (start_sound players items nextId)
  intro s event h hnot
  cases event with
  | onPickUpItem player id met =>
      -- A pickup that does not fit still comes to its end, and the loot is gone.
      have hends : ∃ s', s.onPickUpItem tables player id met = .ok s' := by
        unfold onPickUpItem
        cases hfound : s.registered id with
        | none => exact ⟨s, rfl⟩
        | some place =>
            simp only [Fits, hfound, Option.mem_def, Option.some.injEq, forall_eq'] at hnot
            obtain ⟨items, hitems⟩ := Items.System.exists_insertItem hnot
            exact ⟨_, by dsimp only; rw [hitems]⟩
      obtain ⟨s', hs'⟩ := hends
      exact ⟨s', hs', fun hproper => hnot ((onPickUpItem_sound_iff h hs').2.1 hproper.whole)⟩
  | rollLoot itemGroups draws now => exact (hnot trivial).elim
  | removeExpiredLoot now => exact (hnot trivial).elim
  | assignNewIds n => exact (hnot trivial).elim

/-- A group that drops three items of index 7 at once, which are not plural. -/
def threeSwords : Tables where
  items index := if index = 7 then some {} else none
  groups index := if index = 1 then some [⟨7, 1000, 3⟩] else none
  itemGroups index := if index = 1 then some [⟨1, 1000⟩] else none

/-- A player without items. -/
def newcomer : Items.System where
  player := { pid := 7, uid := 5, playerClass := 0, level := 1, inventory := .empty }
  maxLocalId := 0
  toDb := []
  toGame := []
  table := ⟨[], 1, keyed_nil, nofun, nofun, Nat.one_pos⟩

/-- The loot is gone, and one of the three items has come. -/
theorem two_swords_lost :
    ¬ ∀ s, run (step threeSwords) (start (fun _ => newcomer.player) newcomer 0)
      [.rollLoot [⟨1, 1⟩] [⟨0, 0⟩] (fun _ => 0), .onPickUpItem 0 0 0] = .ok s → s.Proper := by
  intro h
  have hwhole := (h _ rfl).whole _ List.mem_cons_self 0 0 1 rfl
  exact absurd hwhole (by decide)

end Bango.Loots.System
