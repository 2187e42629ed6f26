import Bango.Loots.Database
import Bango.Loots.Proofs.Chances
import Bango.Processor.Proofs.Database

set_option autoImplicit false

/-! # What the loot tables refer to

A bracket that is accepted adds its entry at the end, so the entries of a record follow the file. The
groups are there before the item groups are read, and these before the monsters: what was found then is
found by every roll. -/

namespace Bango.Loots

open Bango.Lib Bango.Processor

/-! ## Entries -/

section Entries

variable {α : Type} {info : List UInt32 → Option α} {chance : α → UInt32}
  {values brackets : List (List UInt32)} {entries entries' : List α} {bracket : List UInt32} {entry : α}

theorem inOrder_nil : InOrder info chance [] [] := ⟨by simp, rfl, .nil, by simp⟩

theorem InOrder.table (h : InOrder info chance values entries) : Table chance entries where
  increasing := h.increasing
  pos entry hentry := UInt32.le_iff_toNat_le.1 (h.range entry hentry).1
  le_thousand entry hentry := UInt32.le_iff_toNat_le.1 (h.range entry hentry).2

/-- Only an empty map has no key above zero. -/
theorem Table.eq_nil (h : Table chance entries) (hmax : getMaxMapKey chance entries = 0) :
    entries = [] := by
  unfold getMaxMapKey at hmax
  cases hlast : entries.getLast? with
  | none => exact List.getLast?_eq_none_iff.1 hlast
  | some entry =>
      simp only [hlast] at hmax
      have hpos := h.pos entry (List.mem_of_getLast? hlast)
      rw [hmax] at hpos
      exact absurd hpos (Nat.lt_irrefl 0)

theorem InOrder.assign (h : InOrder info chance values entries) (hinfo : info bracket = some entry)
    (hok : assign chance entries entry = .ok entries') :
    InOrder info chance (values ++ [bracket]) entries' := by
  obtain ⟨htable, hentries⟩ := h.table.assign hok
  have hinfos : (values ++ [bracket]).filterMap info = values.filterMap info ++ [entry] := by
    rw [List.filterMap_append, List.filterMap_cons_some hinfo, List.filterMap_nil]
  constructor
  · intro b hb
    rcases List.mem_append.1 hb with hbefore | hnew
    · exact h.accepted b hbefore
    · rw [List.mem_singleton.1 hnew, hinfo]
      exact Option.some_ne_none entry
  · rw [hinfos, List.dropWhile_append, ← h.entries_eq]
    rcases hentries with ⟨hmax, hzero, rfl⟩ | ⟨hchance, rfl⟩
    · have hnil := h.table.eq_nil hmax
      simp [hnil, hzero]
    · cases entries with
      | nil => simp [hchance]
      | cons y ys => simp
  · exact htable.increasing
  · intro y hy
    exact ⟨UInt32.le_iff_toNat_le.2 (htable.pos y hy), UInt32.le_iff_toNat_le.2 (htable.le_thousand y hy)⟩

/-- The brackets of a row. -/
theorem InOrder.run {step : List α → List UInt32 → Except Refusal (List α)}
    (hstep : ∀ entries bracket entries', step entries bracket = .ok entries' →
      ∃ entry, info bracket = some entry ∧ Loots.assign chance entries entry = .ok entries')
    (h : InOrder info chance values entries) (hrun : Lib.run step entries brackets = .ok entries') :
    InOrder info chance (values ++ brackets) entries' := by
  refine run_inv_of_progress
    (fun seen entries => InOrder info chance (values ++ seen) entries) (by simpa using h) ?_ hrun
  intro seen bracket _ entries entries' _ hinv hok
  obtain ⟨entry, hinfo, hassign⟩ := hstep _ _ _ hok
  rw [← List.append_assoc]
  exact hinv.assign hinfo hassign

variable {floatToInt : List UInt8 → Int32} {labels : List Int32}
  {step : List α → List UInt32 → Except Refusal (List α)} {record record' : Record α} {row param : Var}

/-- A row of a record. -/
theorem InOrder.setEntries (hindex : aIndex ∉ labels)
    (hstep : ∀ entries bracket entries', step entries bracket = .ok entries' →
      ∃ entry, info bracket = some entry ∧ Loots.assign chance entries entry = .ok entries')
    (h : InOrder info chance values record.entries)
    (hok : setEntries floatToInt labels step record row = .ok record') :
    InOrder info chance (values ++ rowValues floatToInt labels row) record'.entries := by
  unfold Loots.setEntries at hok
  unfold rowValues
  dsimp only at hok
  split_ifs at hok with hnumber hlabel
  · cases hok
    rwa [hnumber, if_neg hindex, List.append_nil]
  · obtain ⟨entries, hrun, hrecord⟩ := bind_eq_ok.1 hok
    cases hrecord
    rw [if_pos hlabel]
    exact h.run hstep hrun
  · cases hok
    rwa [if_neg hlabel, List.append_nil]

/-- The rows of a record. -/
theorem inOrder_of_readRecord (hindex : aIndex ∉ labels)
    (hstep : ∀ entries bracket entries', step entries bracket = .ok entries' →
      ∃ entry, info bracket = some entry ∧ Loots.assign chance entries entry = .ok entries')
    (hread : readRecord (setEntries floatToInt labels step) ⟨0, []⟩ param = .ok record) :
    InOrder info chance (recordValues floatToInt labels param) record.entries := by
  refine run_inv_of_progress (fun seen record =>
    InOrder info chance (seen.flatMap (rowValues floatToInt labels)) record.entries) inOrder_nil ?_ hread
  intro seen row _ record record' _ hinv hok
  rw [List.flatMap_append, List.flatMap_singleton]
  exact hinv.setEntries hindex hstep hok

/-- What every assignment preserves holds of the entries of a record that is read. -/
theorem entries_preserve {Inv : List α → Prop} (h0 : Inv [])
    (hstep : ∀ entries bracket entries', Inv entries → step entries bracket = .ok entries' →
      Inv entries')
    (hread : readRecord (setEntries floatToInt labels step) ⟨0, []⟩ param = .ok record) :
    Inv record.entries := by
  have hset : ∀ (record : Record α) (row : Var) (record' : Record α), Inv record.entries →
      setEntries floatToInt labels step record row = .ok record' → Inv record'.entries := by
    intro record row record' hinv hok
    unfold setEntries at hok
    dsimp only at hok
    split_ifs at hok
    · cases hok
      exact hinv
    · obtain ⟨entries, hrun, hrecord⟩ := bind_eq_ok.1 hok
      cases hrecord
      exact run_preserves hstep hinv hrun
    · cases hok
      exact hinv
  exact run_preserves hset h0 hread

end Entries

/-! ## Setting -/

section

variable {floatToInt : List UInt8 → Int32} {tables : Tables} {param : Var}

theorem lootInfo_of_assignGroup (group : Group) (bracket : List UInt32) (group' : Group)
    (hok : group.assignGroup bracket = .ok group') :
    ∃ entry, lootInfo bracket = some entry ∧ assign LootInfo.chance group entry = .ok group' := by
  unfold Group.assignGroup at hok
  split at hok
  · cases hok
  · next entry hinfo => exact ⟨entry, hinfo, hok⟩

theorem groupInfo_of_assignItemGroup (itemGroup : ItemGroup) (bracket : List UInt32)
    (itemGroup' : ItemGroup) (hok : tables.assignItemGroup itemGroup bracket = .ok itemGroup') :
    ∃ entry, groupInfo bracket = some entry ∧
      assign GroupInfo.chance itemGroup entry = .ok itemGroup' := by
  unfold Tables.assignItemGroup at hok
  split at hok
  · next chance index =>
      split_ifs at hok
      exact ⟨⟨index, chance⟩, rfl, hok⟩
  · cases hok

theorem inOrder_group {group : Record LootInfo}
    (hread : readRecord (setGroup floatToInt) ⟨0, []⟩ param = .ok group) :
    InOrder lootInfo LootInfo.chance (recordValues floatToInt [icMoney, aItem] param) group.entries :=
  inOrder_of_readRecord (by decide) lootInfo_of_assignGroup hread

/-- What an item group refers to was found when it was set. -/
theorem inOrder_itemGroup {itemGroup : Record GroupInfo}
    (hread : readRecord (setItemGroup floatToInt tables) ⟨0, []⟩ param = .ok itemGroup) :
    InOrder groupInfo GroupInfo.chance (recordValues floatToInt [aGroup] param) itemGroup.entries ∧
      ∀ info ∈ itemGroup.entries, tables.groups info.index ≠ none := by
  have hempty : ItemGroup.Table tables [] := ⟨table_nil, by simp⟩
  have htable := entries_preserve hempty (fun _ _ _ => ItemGroup.Table.assign) hread
  exact ⟨inOrder_of_readRecord (by decide) groupInfo_of_assignItemGroup hread, htable.found⟩

/-- What a monster refers to was found when it was set. -/
theorem itemGroups_initMonster {monster : Record MonsterItemGroup}
    (hread : readRecord (setInitMonster floatToInt tables) ⟨0, []⟩ param = .ok monster) :
    ∀ group ∈ monster.entries, tables.itemGroups group.index ≠ none := by
  have hset : ∀ (monster : Record MonsterItemGroup) (row : Var) (monster' : Record MonsterItemGroup),
      (∀ group ∈ monster.entries, tables.itemGroups group.index ≠ none) →
      setInitMonster floatToInt tables monster row = .ok monster' →
      ∀ group ∈ monster'.entries, tables.itemGroups group.index ≠ none := by
    intro monster row monster' h hok
    unfold setInitMonster at hok
    dsimp only at hok
    split_ifs at hok with hindex hitemGroup hmissing
    · cases hok
      exact h
    · cases hok
      exact h
    · cases hok
      intro group hgroup
      rcases List.mem_append.1 hgroup with hbefore | hnew
      · exact h group hbefore
      · rw [List.mem_singleton.1 hnew]
        exact hmissing
    · cases hok
      exact h
  exact run_preserves hset (by simp) hread

end

/-! ## Rolling -/

section

variable {tables : Tables}

theorem rollGroupErrors_eq_nil {itemGroup : ItemGroup}
    (h : ∀ info ∈ itemGroup, tables.groups info.index ≠ none) (draw : UInt32) :
    tables.rollGroupErrors itemGroup draw = [] := by
  unfold Tables.rollGroupErrors
  split
  · rfl
  · next info hrolled => exact if_neg (h info (List.mem_of_find?_eq_some hrolled))

theorem rollManyErrors_eq_nil {itemGroup : ItemGroup}
    (h : ∀ info ∈ itemGroup, tables.groups info.index ≠ none) (n : Nat) (draws : List Roll) :
    tables.rollManyErrors itemGroup n draws = [] := by
  induction n generalizing draws with
  | zero => rfl
  | succ n ih =>
      rw [Tables.rollManyErrors, rollGroupErrors_eq_nil h, ih]
      rfl

theorem rollAllErrors_eq_nil
    (hgroups : ∀ k itemGroup, tables.itemGroups k = some itemGroup →
      ∀ info ∈ itemGroup, tables.groups info.index ≠ none)
    {groups : List MonsterItemGroup}
    (hitemGroups : ∀ group ∈ groups, tables.itemGroups group.index ≠ none) (draws : List Roll) :
    tables.rollAllErrors groups draws = [] := by
  induction groups generalizing draws with
  | nil => rfl
  | cons group groups ih =>
      obtain ⟨hgroup, hothers⟩ := List.forall_mem_cons.1 hitemGroups
      obtain ⟨itemGroup, hfound⟩ := Option.ne_none_iff_exists'.1 hgroup
      rw [Tables.rollAllErrors]
      simp only [hfound]
      rw [rollManyErrors_eq_nil (hgroups _ _ hfound), ih hothers]
      rfl

end

/-! ## Loading -/

section

variable {floatToInt : List UInt8 → Int32} {items : Items.ItemDb}
  {itemGroupFile initMonsterFile : Option (List UInt8)} {dbs : Databases}

theorem groups_eq_none_iff {k : UInt32} :
    (dbs.tables items).groups k = none ↔ findKey Record.index k dbs.groups = none := by
  simp [Databases.tables]

theorem itemGroups_eq_none_iff {k : UInt32} :
    (dbs.tables items).itemGroups k = none ↔ findKey Record.index k dbs.itemGroups = none := by
  simp [Databases.tables]

/-- For all files, when the loads throw nothing: each database has the first of the matching records
    under each index, the entries are in the order of the file with chances that increase from 1 to
    1000, all references are found, and so no roll comes to an error. -/
theorem loadAll_sound
    (hload : loadAll floatToInt items itemGroupFile initMonsterFile = .ok dbs) :
    dbs.Sound floatToInt items itemGroupFile initMonsterFile := by
  obtain ⟨⟨_, groups⟩, hgroups, hload⟩ := bind_eq_ok.1 hload
  obtain ⟨⟨_, itemGroups⟩, hitemGroups, hload⟩ := bind_eq_ok.1 hload
  obtain ⟨⟨_, initMonsters⟩, hinitMonsters, hload⟩ := bind_eq_ok.1 hload
  obtain rfl := Except.ok.inj hload
  -- the groups do not change after their load, nor the item groups after theirs
  let dbs : Databases := ⟨groups, itemGroups, initMonsters⟩
  have hgroupRecords : FirstRecords Record.index groupFilter
      (fun param group => readRecord (setGroup floatToInt) ⟨0, []⟩ param = .ok group ∧
        InOrder lootInfo LootInfo.chance (recordValues floatToInt [icMoney, aItem] param)
          group.entries) itemGroupFile dbs.groups :=
    firstRecords_of_loadDatabase (fun _ _ hread => ⟨hread, inOrder_group hread⟩) hgroups
  have hitemGroupRecords : FirstRecords Record.index itemGroupFilter
      (fun param itemGroup =>
        readRecord (setItemGroup floatToInt (dbs.tables items)) ⟨0, []⟩ param = .ok itemGroup ∧
        InOrder groupInfo GroupInfo.chance (recordValues floatToInt [aGroup] param)
          itemGroup.entries) itemGroupFile dbs.itemGroups :=
    firstRecords_of_loadDatabase (fun _ _ hread => ⟨hread, (inOrder_itemGroup hread).1⟩) hitemGroups
  have hmonsterRecords : FirstRecords Record.index []
      (fun param monster =>
        readRecord (setInitMonster floatToInt (dbs.tables items)) ⟨0, []⟩ param = .ok monster)
      initMonsterFile dbs.initMonsters :=
    firstRecords_of_loadDatabase (fun _ _ hread => hread) hinitMonsters
  have hgroupsFound : ∀ k itemGroup, findKey Record.index k dbs.itemGroups = some itemGroup →
      ∀ info ∈ itemGroup.entries, (dbs.tables items).groups info.index ≠ none := by
    intro k itemGroup hfind
    obtain ⟨param, hread, -⟩ := hitemGroupRecords.exists_form hfind
    exact (inOrder_itemGroup hread).2
  have hitemGroupsFound : ∀ k monster, findKey Record.index k dbs.initMonsters = some monster →
      ∀ group ∈ monster.entries, (dbs.tables items).itemGroups group.index ≠ none := by
    intro k monster hfind
    obtain ⟨param, hread⟩ := hmonsterRecords.exists_form hfind
    exact itemGroups_initMonster hread
  refine ⟨hgroupRecords, hitemGroupRecords, hmonsterRecords, fun k itemGroup hfind info hinfo => ?_,
    fun k monster hfind group hgroup => ?_,
    fun k itemGroup hfind => rollGroupErrors_eq_nil (hgroupsFound k itemGroup hfind),
    fun k monster hfind => rollAllErrors_eq_nil (fun j itemGroup hj => ?_)
      (hitemGroupsFound k monster hfind)⟩
  · exact groups_eq_none_iff.not.1 (hgroupsFound k itemGroup hfind info hinfo)
  · exact itemGroups_eq_none_iff.not.1 (hitemGroupsFound k monster hfind group hgroup)
  · obtain ⟨found, hfound, rfl⟩ := Option.map_eq_some_iff.1 hj
    exact hgroupsFound j found hfound

/-- A group, and an item group of it. -/
def smallGroups : List UInt8 :=
  "(group (index 1) (money (0 7) (300 5)))(itemgroup (index 2) (group (900 1)))".toUTF8.toList

/-- A monster with the item group and another one that is not there. -/
def smallMonsters : List UInt8 :=
  "(monster (index 3) (itemgroup 2 1) (itemgroup 9 1))".toUTF8.toList

theorem loadAll_sound_small :
    ∃ dbs, loadAll (fun _ => 0) (fun _ => none) (some smallGroups) (some smallMonsters) = .ok dbs ∧
      dbs.Sound (fun _ => 0) (fun _ => none) (some smallGroups) (some smallMonsters) := by
  have hload : loadAll (fun _ => 0) (fun _ => none) (some smallGroups) (some smallMonsters) =
      .ok ⟨[⟨1, [⟨31, 300, 5⟩]⟩], [⟨2, [⟨1, 900⟩]⟩], [⟨3, [⟨2, 1⟩]⟩]⟩ := by decide +kernel
  exact ⟨_, hload, loadAll_sound hload⟩

end

end Bango.Loots
