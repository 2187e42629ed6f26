import Bango.Lib.Keyed
import Bango.Lib.Runs
import Bango.Session.System

set_option autoImplicit false

/-! # The players of the accounts

The table `player`, as the DB server changes it when players are created, deleted and restored: each
request is handled at once, and its statements are operations on the table. The columns that no
statement here reads are left out. -/

namespace Bango.Session

open Bango.Account Bango.Lib

/-- A row of the table `player`. -/
structure PlayerRecord where
  idplayer : Int32
  idaccount : Int32
  name : List UInt8
  deleted : Bool
deriving DecidableEq, Repr

/-- The table, and the next `AUTO_INCREMENT` value. -/
structure PlayerTable where
  rows : List PlayerRecord
  next : Nat
  keyed : Keyed PlayerRecord.idplayer rows
  bounded : ∀ row ∈ rows, row.idplayer.toInt < next

/-- What the database adds. -/
structure Database where
  /-- what comparisons of names look at, by the collation of the column -/
  collate : List UInt8 → List UInt8
  /-- Do the other columns and the foreign key accept the new row? -/
  accepts : NewPlayer → Int32 → Bool

/-- What is written to the game server. -/
inductive PlayerAnswer where
  /-- `NA_OCCUPIEDID` -/
  | occupiedId
  /-- `NA_OVERPLAYERNUM` -/
  | overPlayerNum
  /-- `SendPlayerList` -/
  | playerList
deriving DecidableEq, Repr

namespace PlayerTable

variable (db : Database) (table : PlayerTable)

/-- `EXISTS(SELECT 1 FROM player WHERE name=?)`. -/
def Occupied (name : List UInt8) : Prop := ∃ row ∈ table.rows, db.collate row.name = db.collate name

instance (name : List UInt8) : Decidable (table.Occupied db name) :=
  inferInstanceAs (Decidable (∃ row ∈ _, _))

/-- `SELECT COUNT(*) FROM player WHERE idaccount=? AND deleted=0`. -/
def count (idaccount : Int32) : Nat :=
  table.rows.countP fun row => row.idaccount = idaccount ∧ row.deleted = false

/-- `INSERT INTO player`, with its `UNIQUE(name)`. -/
def insertRow (n : NewPlayer) (idaccount : Int32) : Option PlayerTable :=
  if h : table.next < 2 ^ 31 ∧ db.accepts n idaccount ∧ ¬ table.Occupied db n.name then
    have hnext : (Int32.ofNat table.next).toInt = table.next := Int32.toInt_ofNat_of_lt h.1
    some
      { rows := ⟨Int32.ofNat table.next, idaccount, n.name, false⟩ :: table.rows
        next := table.next + 1
        keyed := keyed_cons.2 ⟨fun row hrow hid => by
          have hlt := table.bounded row hrow
          rw [hid, hnext] at hlt
          exact Int.lt_irrefl _ hlt, table.keyed⟩
        bounded := List.forall_mem_cons.2 ⟨by rw [hnext]; omega, fun row hrow => by
          have hlt := table.bounded row hrow
          omega⟩ }
  else none

/-- `WHERE idaccount=? AND idplayer=? AND deleted=?`. -/
def Selects (idaccount idplayer : Int32) (deleted : Bool) (row : PlayerRecord) : Prop :=
  row.idaccount = idaccount ∧ row.idplayer = idplayer ∧ row.deleted = deleted

instance (idaccount idplayer : Int32) (deleted : Bool) :
    DecidablePred (Selects idaccount idplayer deleted) :=
  fun _ => inferInstanceAs (Decidable (_ ∧ _ ∧ _))

/-- `UPDATE player SET deleted=…` where it is the other way. -/
def setDeleted (idaccount idplayer : Int32) (deleted : Bool) : PlayerTable where
  rows := table.rows.map fun row =>
    if Selects idaccount idplayer (!deleted) row then { row with deleted } else row
  next := table.next
  keyed := by
    have hkeys : (table.rows.map fun row =>
        if Selects idaccount idplayer (!deleted) row then { row with deleted } else row).map
          PlayerRecord.idplayer = table.rows.map PlayerRecord.idplayer := by
      rw [List.map_map]
      refine List.map_congr_left fun row _ => ?_
      simp only [Function.comp_apply]
      split <;> rfl
    unfold Keyed
    rw [hkeys]
    exact table.keyed
  bounded := by
    intro row hrow
    obtain ⟨old, hold, rfl⟩ := List.mem_map.1 hrow
    have hlt := table.bounded old hold
    split
    · exact hlt
    · exact hlt

/-- How many rows the update changes. -/
def affected (idaccount idplayer : Int32) (deleted : Bool) : Nat :=
  table.rows.countP fun row => Selects idaccount idplayer (!deleted) row

/-! ## Requests -/

/-- `DatabaseManager::NewPlayer`. -/
def newPlayer (n : NewPlayer) (idaccount : Int32) : PlayerTable × Option PlayerAnswer :=
  if table.Occupied db n.name then (table, some .occupiedId)
  else if table.count idaccount ≥ maxCharacter then (table, some .overPlayerNum)
  else
    match table.insertRow db n idaccount with
    | none => (table, none)
    | some table => (table, some .playerList)

/-- `DatabaseManager::DeletePlayer`. -/
def deletePlayer (idplayer idaccount : Int32) : PlayerTable × Option PlayerAnswer :=
  (table.setDeleted idaccount idplayer true,
    if table.affected idaccount idplayer true = 0 then none else some .playerList)

/-- `DatabaseManager::RestorePlayer`. -/
def restorePlayer (idplayer idaccount : Int32) : PlayerTable × Option PlayerAnswer :=
  (table.setDeleted idaccount idplayer false,
    if table.affected idaccount idplayer false = 0 then none else some .playerList)

end PlayerTable

/-- A request about the players of an account. -/
inductive PlayerRequest where
  | newPlayer (n : NewPlayer) (idaccount : Int32)
  | deletePlayer (idplayer idaccount : Int32)
  | restorePlayer (idplayer idaccount : Int32)
deriving DecidableEq, Repr

/-- A request is handled. -/
def PlayerTable.step (db : Database) (table : PlayerTable) :
    PlayerRequest → Except Empty PlayerTable
  | .newPlayer n idaccount => .ok (table.newPlayer db n idaccount).1
  | .deletePlayer idplayer idaccount => .ok (table.deletePlayer idplayer idaccount).1
  | .restorePlayer idplayer idaccount => .ok (table.restorePlayer idplayer idaccount).1

end Bango.Session
