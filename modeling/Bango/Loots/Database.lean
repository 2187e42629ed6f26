import Bango.Loots.Chances
import Bango.Processor.Database

set_option autoImplicit false

/-! # Loot tables from files

How `Group`, `ItemGroup` and `InitMonster` are set from their records, and the loads of `main`. Of a
monster its index and its item groups are kept, which its other rows do not touch. -/

namespace Bango.Loots

open Bango.Lib Bango.Processor

/-! ## Attributes -/

def icMoney : Int32 := 5
def aIndex : Int32 := 19
def aItem : Int32 := 103
def aGroup : Int32 := 134
def aItemGroup : Int32 := 135

/-- The part of `g_attributes` with these numbers. `money` shares its number with three other words, and
    `index` with one. -/
def attributes : List (List UInt8 × Int32) :=
  [("money".toUTF8.toList, icMoney), ("upperarmor".toUTF8.toList, 5), ("all".toUTF8.toList, 5),
    ("damage".toUTF8.toList, 5), ("index".toUTF8.toList, aIndex), ("cocoon".toUTF8.toList, 19),
    ("item".toUTF8.toList, aItem), ("group".toUTF8.toList, aGroup),
    ("itemgroup".toUTF8.toList, aItemGroup)]

/-- `FindAttribute`, in any case; `-1` stands for the numbers of the other attributes too. -/
def findAttribute (name : List UInt8) : Int32 :=
  match attributes.find? (·.1 = name.map tolower) with
  | some (_, number) => number
  | none => -1

/-! ## Records -/

/-- `Group`, `ItemGroup` and `InitMonster`: the index, and the entries of their map or vector. -/
structure Record (α : Type) where
  index : UInt32
  entries : List α
deriving DecidableEq, Repr

section

variable (floatToInt : List UInt8 → Int32)

/-- `values_from_bracket` of `GetValuesFromBrackets`. The `car` of what is neither a list nor `nil` is
    `nil`, and so is its `cdr`. -/
def valuesFromBracket : Var → List UInt32
  | .list xs => xs.map (Var.toUInt32 floatToInt)
  | .atom _ => [0]

/-- The values of the calls of `GetValuesFromBrackets` while there are brackets. -/
def valuesFromBrackets : Var → List (List UInt32)
  | .list xs => xs.map (valuesFromBracket floatToInt)
  | .atom _ => [[]]

/-- What `Group::set` and `ItemGroup::set` do with a row: it has the index, or brackets that are assigned
    one after the other, or says nothing of either. -/
def setEntries {α : Type} (labels : List Int32)
    (assign : List α → List UInt32 → Except Refusal (List α)) (record : Record α) (param : Var) :
    Except Refusal (Record α) :=
  let number := findAttribute param.car.getString
  let param := param.cdr
  if number = aIndex then .ok { record with index := param.car.toUInt32 floatToInt }
  else if number ∈ labels then do
    let entries ← run assign record.entries (valuesFromBrackets floatToInt param)
    return { record with entries }
  else .ok record

/-- `Group::set`. -/
def setGroup : Record LootInfo → Var → Except Refusal (Record LootInfo) :=
  setEntries floatToInt [icMoney, aItem] Group.assignGroup

variable (tables : Tables)

/-- `ItemGroup::set`. -/
def setItemGroup : Record GroupInfo → Var → Except Refusal (Record GroupInfo) :=
  setEntries floatToInt [aGroup] tables.assignItemGroup

/-- `InitMonster::set`. -/
def setInitMonster (monster : Record MonsterItemGroup) (param : Var) :
    Except Refusal (Record MonsterItemGroup) :=
  let number := findAttribute param.car.getString
  let param := param.cdr
  if number = aIndex then .ok { monster with index := param.car.toUInt32 floatToInt }
  else if number = aItemGroup then
    let itemGroupIndex := param.car.toUInt32 floatToInt
    let numberOfRolls := param.cdr.car.toUInt32 floatToInt
    if tables.itemGroups itemGroupIndex = none then .ok monster
    else .ok { monster with entries := monster.entries ++ [⟨itemGroupIndex, numberOfRolls⟩] }
  else .ok monster

end

/-! ## The loads of `main` -/

/-- `Group::DB()`, `ItemGroup::DB()` and `InitMonster::DB()`. -/
structure Databases where
  groups : List (Record LootInfo)
  itemGroups : List (Record GroupInfo)
  initMonsters : List (Record MonsterItemGroup)
deriving DecidableEq, Repr

/-- `Group::Find` and `ItemGroup::Find` in the databases. -/
def Databases.tables (items : Items.ItemDb) (dbs : Databases) : Tables where
  items := items
  groups index := (findKey Record.index index dbs.groups).map Record.entries
  itemGroups index := (findKey Record.index index dbs.itemGroups).map Record.entries

section

variable (floatToInt : List UInt8 → Int32) (items : Items.ItemDb)
  (itemGroupFile initMonsterFile : Option (List UInt8))

/-- The names that the records of `ItemGroup.txt` are filtered by. -/
def groupFilter : List UInt8 := "group".toUTF8.toList
def itemGroupFilter : List UInt8 := "itemgroup".toUTF8.toList

/-- The loads of `ItemGroup.txt`, twice, and `InitMonster.txt`. Nothing is loaded after one that
    throws. -/
def loadAll : Except Refusal Databases := do
  let (_, groups) ←
    loadDatabase Record.index (setGroup floatToInt) ⟨0, []⟩ groupFilter itemGroupFile
  let tables := Databases.tables items ⟨groups, [], []⟩
  let (_, itemGroups) ←
    loadDatabase Record.index (setItemGroup floatToInt tables) ⟨0, []⟩ itemGroupFilter itemGroupFile
  let tables := Databases.tables items ⟨groups, itemGroups, []⟩
  let (_, initMonsters) ←
    loadDatabase Record.index (setInitMonster floatToInt tables) ⟨0, []⟩ [] initMonsterFile
  return ⟨groups, itemGroups, initMonsters⟩

end

/-! ## What is not found -/

/-- The errors that the rolls log. -/
inductive NotFound where
  /-- "Group index: … not found" -/
  | group (index : UInt32)
  /-- "ItemGroup of index … not found." -/
  | itemGroup (index : UInt32)
deriving DecidableEq, Repr

namespace Tables

variable (tables : Tables)

/-- What `ItemGroup::RollGroup` logs. -/
def rollGroupErrors (itemGroup : ItemGroup) (draw : UInt32) : List NotFound :=
  match itemGroup.rolled draw with
  | none => []
  | some info => if tables.groups info.index = none then [.group info.index] else []

/-- What is logged in `rollMany`. -/
def rollManyErrors (itemGroup : ItemGroup) : Nat → List Roll → List NotFound
  | 0, _ => []
  | n + 1, draws =>
    tables.rollGroupErrors itemGroup (draws.headD ⟨0, 0⟩).group ++
      rollManyErrors itemGroup n draws.tail

/-- What `Monster::RollLoot` logs, in `rollAll`. -/
def rollAllErrors : List MonsterItemGroup → List Roll → List NotFound
  | [], _ => []
  | group :: groups, draws =>
    match tables.itemGroups group.index with
    | none => .itemGroup group.index :: rollAllErrors groups draws
    | some itemGroup =>
      tables.rollManyErrors itemGroup group.numberOfRolls.toNat draws ++
        rollAllErrors groups (draws.drop group.numberOfRolls.toNat)

end Tables

/-! ## What the databases are for -/

section

variable (floatToInt : List UInt8 → Int32)

/-- The values of the brackets in a row with one of some attributes. -/
def rowValues (labels : List Int32) (row : Var) : List (List UInt32) :=
  if findAttribute row.car.getString ∈ labels then valuesFromBrackets floatToInt row.cdr else []

/-- The values of the brackets in such rows of a record, in the order of the file. -/
def recordValues (labels : List Int32) (param : Var) : List (List UInt32) :=
  param.cdr.items.flatMap (rowValues floatToInt labels)

/-- The entries are those of the brackets, in the order of the file and without those before the first
    chance, and their chances increase from 1 to 1000. -/
structure InOrder {α : Type} (info : List UInt32 → Option α) (chance : α → UInt32)
    (values : List (List UInt32)) (entries : List α) : Prop where
  accepted : ∀ bracket ∈ values, info bracket ≠ none
  entries_eq : entries = (values.filterMap info).dropWhile fun entry => chance entry = 0
  increasing : entries.Pairwise fun entry later => chance entry < chance later
  range : ∀ entry ∈ entries, 1 ≤ chance entry ∧ chance entry ≤ 1000

/-- The `GroupInfo` of the values in a bracket. -/
def groupInfo : List UInt32 → Option GroupInfo
  | [chance, index] => some ⟨index, chance⟩
  | _ => none

variable (items : Items.ItemDb) (itemGroupFile initMonsterFile : Option (List UInt8))

/-- Each database has the first matching record of each index; the entries are in the order of the file;
    what they refer to is there, so that no roll comes to a place where something is not found. -/
structure Databases.Sound (dbs : Databases) : Prop where
  groups : FirstRecords Record.index groupFilter
    (fun param group => readRecord (setGroup floatToInt) ⟨0, []⟩ param = .ok group ∧
      InOrder lootInfo LootInfo.chance (recordValues floatToInt [icMoney, aItem] param) group.entries)
    itemGroupFile dbs.groups
  itemGroups : FirstRecords Record.index itemGroupFilter
    (fun param itemGroup =>
      readRecord (setItemGroup floatToInt (dbs.tables items)) ⟨0, []⟩ param = .ok itemGroup ∧
      InOrder groupInfo GroupInfo.chance (recordValues floatToInt [aGroup] param) itemGroup.entries)
    itemGroupFile dbs.itemGroups
  initMonsters : FirstRecords Record.index []
    (fun param monster =>
      readRecord (setInitMonster floatToInt (dbs.tables items)) ⟨0, []⟩ param = .ok monster)
    initMonsterFile dbs.initMonsters
  groups_found : ∀ k itemGroup, findKey Record.index k dbs.itemGroups = some itemGroup →
    ∀ info ∈ itemGroup.entries, findKey Record.index info.index dbs.groups ≠ none
  itemGroups_found : ∀ k monster, findKey Record.index k dbs.initMonsters = some monster →
    ∀ group ∈ monster.entries, findKey Record.index group.index dbs.itemGroups ≠ none
  rollGroup : ∀ k itemGroup, findKey Record.index k dbs.itemGroups = some itemGroup →
    ∀ draw, (dbs.tables items).rollGroupErrors itemGroup.entries draw = []
  rollLoot : ∀ k monster, findKey Record.index k dbs.initMonsters = some monster →
    ∀ draws, (dbs.tables items).rollAllErrors monster.entries draws = []

end

end Bango.Loots
