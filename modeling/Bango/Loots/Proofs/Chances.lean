import Bango.Loots.Chances

set_option autoImplicit false

/-! # Rolls and chances

The accepted chances increase, so the entry that `upper_bound` finds is the one between whose
predecessor's chance, inclusive, and its own, exclusive, the roll lies: each part of the thousand is
moved down by one. -/

namespace Bango.Loots

open Bango.Lib

/-! ## Rolls -/

theorem between_toNat (draw : UInt32) :
    (Monsters.between 1 1000 draw).toNat = 1 + draw.toNat % 1000 := by
  have hmod := Nat.mod_lt draw.toNat (by decide : 0 < 1000)
  have hsub : (1000 - 1 + 1 : UInt32) = 1000 := by decide
  rw [Monsters.between, hsub, UInt32.toNat_add, UInt32.toNat_mod]
  show (1 + draw.toNat % 1000) % 4294967296 = 1 + draw.toNat % 1000
  omega

theorem between_drawOf {roll : ℕ} (hone : 1 ≤ roll) (hmax : roll ≤ 1000) :
    (Monsters.between 1 1000 (drawOf roll)).toNat = roll := by
  rw [between_toNat, drawOf, UInt32.toNat_ofNat']
  omega

/-! ## Entries -/

section Entries

variable {α : Type} {chance : α → UInt32} {entries before after : List α} {entry : α}

theorem lastKey_eq (chance : α → UInt32) (entries : List α) :
    lastKey (fun entry => (chance entry).toNat) 0 entries = (getMaxMapKey chance entries).toNat := by
  unfold lastKey getMaxMapKey
  cases entries.getLast? with
  | none => rfl
  | some entry => rfl

/-- The chances increase, and are positive and at most 1000. -/
structure Table (chance : α → UInt32) (entries : List α) : Prop where
  increasing : Increasing (fun entry => (chance entry).toNat) entries
  pos : ∀ entry ∈ entries, 0 < (chance entry).toNat
  le_thousand : ∀ entry ∈ entries, (chance entry).toNat ≤ 1000

theorem table_nil : Table chance [] := ⟨List.Pairwise.nil, by simp, by simp⟩

theorem validate_eq_ok :
    validate chance entries entry = .ok () ↔
      (chance entry).toNat ≤ 1000 ∧
        (getMaxMapKey chance entries).toNat < (chance entry).toNat := by
  have hthousand : (1000 : UInt32).toNat = 1000 := rfl
  unfold validate
  split_ifs with hhigh hlow
  · simp only [false_iff, not_and]
    intro hle
    rw [gt_iff_lt, UInt32.lt_iff_toNat_lt] at hhigh
    omega
  · simp only [false_iff, not_and]
    intro _
    rw [UInt32.le_iff_toNat_le] at hlow
    omega
  · rw [gt_iff_lt, UInt32.lt_iff_toNat_lt] at hhigh
    rw [UInt32.le_iff_toNat_le] at hlow
    simp only [true_iff]
    omega

/-- What is not ignored comes last, with a chance above the others. -/
theorem Table.assign (h : Table chance entries) {entries' : List α}
    (hok : assign chance entries entry = .ok entries') :
    Table chance entries' ∧
      (getMaxMapKey chance entries = 0 ∧ chance entry = 0 ∧ entries' = entries ∨
        chance entry ≠ 0 ∧ entries' = entries ++ [entry]) := by
  unfold Loots.assign at hok
  split_ifs at hok with hignored
  · cases hok
    exact ⟨h, .inl ⟨hignored.1, hignored.2, rfl⟩⟩
  · obtain ⟨_, hvalid, hinsert⟩ := bind_eq_ok.1 hok
    cases hinsert
    obtain ⟨hmax, hlast⟩ := validate_eq_ok.1 hvalid
    have hlower : ∀ y ∈ entries, (chance y).toNat < (chance entry).toNat := by
      intro y hy
      have hle := h.increasing.key_le_lastKey 0 hy
      rw [lastKey_eq] at hle
      exact Nat.lt_of_le_of_lt hle hlast
    have hchance : chance entry ≠ 0 := by
      intro hzero
      rw [hzero] at hlast
      exact Nat.not_lt_zero _ hlast
    rw [insertSorted_eq_append hlower]
    refine ⟨⟨h.increasing.append_singleton hlower, fun y hy => ?_, fun y hy => ?_⟩,
      .inr ⟨hchance, rfl⟩⟩
    · rcases List.mem_append.1 hy with hbefore | hnew
      · exact h.pos y hbefore
      · rw [List.mem_singleton.1 hnew]
        omega
    · rcases List.mem_append.1 hy with hbefore | hnew
      · exact h.le_thousand y hbefore
      · rw [List.mem_singleton.1 hnew]
        exact hmax

/-! ## Selection -/

variable {select : UInt32 → Option α}

/-- What `upper_bound` of a roll does. -/
def Searches (chance : α → UInt32) (entries : List α) (select : UInt32 → Option α) : Prop :=
  ∀ draw, select draw = entries.find? (Monsters.between 1 1000 draw < chance ·)

theorem Searches.eq_some_iff (hsearch : Searches chance entries select) (h : Table chance entries)
    (heq : entries = before ++ entry :: after) (draw : UInt32) :
    select draw = some entry ↔
      (getMaxMapKey chance before).toNat ≤ (Monsters.between 1 1000 draw).toNat ∧
        (Monsters.between 1 1000 draw).toNat < (chance entry).toNat := by
  have hincreasing := h.increasing
  rw [heq] at hincreasing
  have hbefore : Increasing (fun entry => (chance entry).toNat) before :=
    (List.pairwise_append.1 hincreasing).1
  rw [hsearch draw, heq, hincreasing.find?_eq_some_iff (k := (Monsters.between 1 1000 draw).toNat)
    (fun y => by rw [decide_eq_true_iff, UInt32.lt_iff_toNat_lt]),
    hbefore.forall_le_iff (Nat.zero_le _), lastKey_eq]

theorem Searches.eq_none_iff (hsearch : Searches chance entries select) (h : Table chance entries)
    (draw : UInt32) :
    select draw = none ↔
      (getMaxMapKey chance entries).toNat ≤ (Monsters.between 1 1000 draw).toNat := by
  have hnone : entries.find? (Monsters.between 1 1000 draw < chance ·) = none ↔
      ∀ y ∈ entries, (chance y).toNat ≤ (Monsters.between 1 1000 draw).toNat :=
    find?_eq_none_iff_le fun y => by rw [decide_eq_true_iff, UInt32.lt_iff_toNat_lt]
  rw [hsearch draw, hnone, h.increasing.forall_le_iff (Nat.zero_le _), lastKey_eq]

/-- The chance before an entry is below its own, and zero before the first one only. -/
theorem Table.before_lt (h : Table chance entries) (heq : entries = before ++ entry :: after) :
    (getMaxMapKey chance before).toNat < (chance entry).toNat ∧
      ((getMaxMapKey chance before).toNat = 0 ↔ before = []) := by
  have hincreasing := h.increasing
  rw [heq] at hincreasing
  have hpos := h.pos
  rw [← lastKey_eq]
  rcases lastKey_eq_or (fun entry => (chance entry).toNat) 0 before with
    ⟨hnil, hzero⟩ | ⟨last, hlast, hkey⟩
  · rw [hzero]
    exact ⟨hpos entry (heq ▸ List.mem_append_right _ List.mem_cons_self), iff_of_true rfl hnil⟩
  · rw [hkey]
    have hlastPos := hpos last (heq ▸ List.mem_append_left _ hlast)
    have hne : before ≠ [] := List.ne_nil_of_mem hlast
    exact ⟨(List.pairwise_append.1 hincreasing).2.2 last hlast entry List.mem_cons_self,
      iff_of_false hlastPos.ne' hne⟩

/-- The last chance is one of the chances, or zero. -/
theorem getMaxMapKey_ne {roll : UInt32} (hroll : 0 < roll.toNat)
    (h : ∀ entry ∈ entries, roll ≠ chance entry) :
    (getMaxMapKey chance entries).toNat ≠ roll.toNat := by
  rw [← lastKey_eq]
  rcases lastKey_eq_or (fun entry => (chance entry).toNat) 0 entries with
    ⟨-, hzero⟩ | ⟨last, hlast, hkey⟩
  · rw [hzero]
    exact hroll.ne
  · rw [hkey]
    exact fun heq => h last hlast (UInt32.toNat_inj.1 heq.symm)

/-- The selection is that of the cumulative chances if and only if the roll is none of them. -/
theorem Searches.cumulative_iff (hsearch : Searches chance entries select) (h : Table chance entries)
    (draw : UInt32) :
    Cumulative chance entries (Monsters.between 1 1000 draw) (select draw) ↔
      ∀ entry ∈ entries, Monsters.between 1 1000 draw ≠ chance entry := by
  constructor
  · intro hcumulative entry hmem heq
    obtain ⟨before, after, hsplit⟩ := List.mem_iff_append.1 hmem
    -- a roll that is the chance of an entry should select it, and is not below it
    have hselected := hcumulative.entry_iff before entry after hsplit
    rw [hsearch.eq_some_iff h hsplit, UInt32.lt_iff_toNat_lt, UInt32.le_iff_toNat_le, heq]
      at hselected
    have hbefore := (h.before_lt hsplit).1
    omega
  · intro hnot
    have hroll : 0 < (Monsters.between 1 1000 draw).toNat := by
      rw [between_toNat]
      omega
    refine ⟨fun before entry after hsplit => ?_, ?_⟩
    · have hbefore := getMaxMapKey_ne hroll fun y hy =>
        hnot y (hsplit ▸ List.mem_append_left _ hy)
      have hentry : (Monsters.between 1 1000 draw).toNat ≠ (chance entry).toNat := fun heq =>
        hnot entry (hsplit ▸ List.mem_append_right _ List.mem_cons_self) (UInt32.toNat_inj.1 heq)
      rw [hsearch.eq_some_iff h hsplit, UInt32.lt_iff_toNat_lt, UInt32.le_iff_toNat_le]
      omega
    · have hlast := getMaxMapKey_ne hroll hnot
      rw [hsearch.eq_none_iff h, UInt32.lt_iff_toNat_lt]
      omega

/-- An entry wins the rolls from the chance before it on and below its own. -/
theorem Searches.winningRolls_eq [DecidableEq α] (hsearch : Searches chance entries select)
    (h : Table chance entries) (heq : entries = before ++ entry :: after) :
    winningRolls select entry =
      (chance entry).toNat - max 1 (getMaxMapKey chance before).toNat := by
  have hmax := h.le_thousand entry (heq ▸ List.mem_append_right _ List.mem_cons_self)
  have hwins : (Finset.Icc 1 1000).filter (fun roll => select (drawOf roll) = some entry) =
      Finset.Ico (max 1 (getMaxMapKey chance before).toNat) (chance entry).toNat := by
    ext roll
    rw [Finset.mem_filter, Finset.mem_Icc, Finset.mem_Ico, hsearch.eq_some_iff h heq]
    constructor
    · rintro ⟨⟨hone, hthousand⟩, hwin⟩
      rw [between_drawOf hone hthousand] at hwin
      omega
    · intro hwin
      have hone : 1 ≤ roll := by omega
      have hthousand : roll ≤ 1000 := by omega
      rw [between_drawOf hone hthousand]
      omega
  rw [winningRolls, hwins, Nat.card_Ico]

theorem Searches.cumulativeExcept [DecidableEq α] (hsearch : Searches chance entries select)
    (h : Table chance entries) : CumulativeExcept chance entries select where
  cumulative_iff := hsearch.cumulative_iff h
  winningRolls_iff before entry after heq := by
    obtain ⟨hlt, hzero⟩ := h.before_lt heq
    rw [hsearch.winningRolls_eq h heq, Ne, ← hzero]
    omega

end Entries

/-! ## Groups and item groups -/

theorem Group.table {group group' : Group} {values : List UInt32}
    (h : Table LootInfo.chance group) (hok : group.assignGroup values = .ok group') :
    Table LootInfo.chance group' := by
  unfold assignGroup at hok
  split at hok
  · cases hok
  · exact (h.assign hok).1

/-- The entries of an item group, which refer to groups that there are. -/
structure ItemGroup.Table (tables : Tables) (itemGroup : ItemGroup) : Prop extends
    Loots.Table GroupInfo.chance itemGroup where
  found : ∀ info ∈ itemGroup, tables.groups info.index ≠ none

theorem ItemGroup.Table.assign {tables : Tables} {itemGroup itemGroup' : ItemGroup}
    {values : List UInt32} (h : itemGroup.Table tables)
    (hok : tables.assignItemGroup itemGroup values = .ok itemGroup') : itemGroup'.Table tables := by
  unfold Tables.assignItemGroup at hok
  split at hok
  · next chance index =>
      split_ifs at hok with hfound
      obtain ⟨htable, hentries⟩ := h.toTable.assign hok
      refine ⟨htable, fun info hinfo => ?_⟩
      rcases hentries with ⟨-, -, rfl⟩ | ⟨-, rfl⟩
      · exact h.found info hinfo
      · rcases List.mem_append.1 hinfo with hbefore | hnew
        · exact h.found info hbefore
        · rw [List.mem_singleton.1 hnew]
          exact hfound
  · cases hok

/-- `RollGroup` gives the group of the entry that it selects. -/
theorem ItemGroup.Table.rollGroup {tables : Tables} {itemGroup : ItemGroup}
    (h : itemGroup.Table tables) (draw : UInt32) :
    (tables.rollGroup itemGroup draw = none ↔ itemGroup.rolled draw = none) ∧
      ∀ info, itemGroup.rolled draw = some info →
        tables.rollGroup itemGroup draw = tables.groups info.index := by
  have heq : tables.rollGroup itemGroup draw =
      (itemGroup.rolled draw).bind fun info => tables.groups info.index := by
    rw [Tables.rollGroup, ItemGroup.rolled]
    split
    · next hnone => rw [hnone, Option.bind_none]
    · next info hsome => rw [hsome, Option.bind_some]
  cases hrolled : itemGroup.rolled draw with
  | none =>
      rw [hrolled, Option.bind_none] at heq
      exact ⟨iff_of_true heq rfl, fun info hinfo => by cases hinfo⟩
  | some info =>
      rw [hrolled, Option.bind_some] at heq
      have hfound : tables.groups info.index ≠ none := h.found info (List.mem_of_find?_eq_some hrolled)
      refine ⟨iff_of_false (heq ▸ hfound) (by simp), fun info' hinfo' => ?_⟩
      rw [heq, Option.some.inj hinfo']

/-- For all entries that are accepted: the rolls select as the cumulative chances say, except where a
    roll is one of them, and each entry has as many winning rolls as its part of the thousand, except
    the first. -/
theorem Tables.assigned_cumulativeExcept (tables : Tables) :
    (∀ brackets group, run Group.assignGroup [] brackets = .ok group →
        CumulativeExcept LootInfo.chance group group.rollLoot) ∧
      ∀ brackets itemGroup, run tables.assignItemGroup [] brackets = .ok itemGroup →
        CumulativeExcept GroupInfo.chance itemGroup itemGroup.rolled ∧
          ∀ draw, (tables.rollGroup itemGroup draw = none ↔ itemGroup.rolled draw = none) ∧
            ∀ info, itemGroup.rolled draw = some info →
              tables.rollGroup itemGroup draw = tables.groups info.index := by
  constructor
  · intro brackets group hrun
    have htable : Table LootInfo.chance group :=
      run_preserves (fun _ _ _ => Group.table) table_nil hrun
    have hsearch : Searches LootInfo.chance group group.rollLoot := fun _ => rfl
    exact hsearch.cumulativeExcept htable
  · intro brackets itemGroup hrun
    have htable : itemGroup.Table tables :=
      run_preserves (fun _ _ _ => ItemGroup.Table.assign) ⟨table_nil, by simp⟩ hrun
    have hsearch : Searches GroupInfo.chance itemGroup itemGroup.rolled := fun _ => rfl
    exact ⟨hsearch.cumulativeExcept htable.toTable, htable.rollGroup⟩

/-- Two entries, the second for all rolls that are left: the roll 300 goes to the wrong one. -/
theorem Tables.assigned_cumulativeExcept_two :
    CumulativeExcept LootInfo.chance [⟨31, 300, 5⟩, ⟨7, 1000, 1⟩]
        (Group.rollLoot [⟨31, 300, 5⟩, ⟨7, 1000, 1⟩]) ∧
      ¬ Cumulative LootInfo.chance [⟨31, 300, 5⟩, ⟨7, 1000, 1⟩] 300
        (Group.rollLoot [⟨31, 300, 5⟩, ⟨7, 1000, 1⟩] (drawOf 300)) ∧
      Group.rollLoot [⟨31, 300, 5⟩, ⟨7, 1000, 1⟩] (drawOf 999) ≠ none ∧
      winningRolls (Group.rollLoot [⟨31, 300, 5⟩, ⟨7, 1000, 1⟩]) ⟨7, 1000, 1⟩ = 700 := by
  have hexcept := (Tables.assigned_cumulativeExcept ⟨fun _ => none, fun _ => none, fun _ => none⟩).1
    [[300, 5], [1000, 7, 0]] _ rfl
  have hroll : Monsters.between 1 1000 (drawOf 300) = 300 := by decide
  refine ⟨hexcept, fun h => ?_, fun hnone => ?_, ?_⟩
  · rw [← hroll] at h
    exact (hexcept.cumulative_iff (drawOf 300)).1 h ⟨31, 300, 5⟩ List.mem_cons_self hroll
  · have hcumulative := (hexcept.cumulative_iff (drawOf 999)).2 (by decide)
    exact absurd (hcumulative.none_iff.1 hnone) (by decide)
  · exact (hexcept.winningRolls_iff [⟨31, 300, 5⟩] ⟨7, 1000, 1⟩ [] rfl).2 (List.cons_ne_nil _ _)

/-- An entry with a chance of all 1000 rolls does not win the roll 1000. -/
theorem not_cumulative_thousand :
    ¬ ∀ brackets group, run Group.assignGroup [] brackets = .ok group →
      ∀ draw, Cumulative LootInfo.chance group (Monsters.between 1 1000 draw)
        (group.rollLoot draw) := by
  intro h
  have hcumulative := h [[1000, 5]] [⟨31, 1000, 5⟩] rfl 999
  have hselected := (hcumulative.entry_iff [] ⟨31, 1000, 5⟩ [] rfl).2 (by decide)
  exact absurd hselected (by decide)

end Bango.Loots
