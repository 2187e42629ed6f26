import Bango.Session.Players

set_option autoImplicit false

/-! # Accounts keep to `MAX_CHARACTER`

`NewPlayer` counts the players of the account before it inserts one more, `RestorePlayer` does not.
Each account keeps to the limit exactly when every player that is restored finds room, and names stay
unique in any case. -/

namespace Bango.Session

open Bango.Account Bango.Lib

namespace PlayerTable

variable {db : Database} {table : PlayerTable}

/-! ## What the statements do -/

/-- An update changes one row, or none. -/
theorem setDeleted_cases (table : PlayerTable) (idaccount idplayer : Int32) (deleted : Bool) :
    ((∀ row ∈ table.rows, ¬ Selects idaccount idplayer (!deleted) row) ∧
        (table.setDeleted idaccount idplayer deleted).rows = table.rows) ∨
      ∃ row rest, Selects idaccount idplayer (!deleted) row ∧ table.rows.Perm (row :: rest) ∧
        (table.setDeleted idaccount idplayer deleted).rows.Perm ({ row with deleted } :: rest) := by
  by_cases hsome : ∃ row ∈ table.rows, Selects idaccount idplayer (!deleted) row
  · obtain ⟨row, hrow, hselects⟩ := hsome
    have hperm := List.perm_cons_erase hrow
    have hothers : ∀ other ∈ table.rows.erase row,
        ¬ Selects idaccount idplayer (!deleted) other := by
      intro other hother hsame
      refine (keyed_cons.1 ((Keyed.perm hperm).1 table.keyed)).1 other hother ?_
      rw [hsame.2.1, hselects.2.1]
    refine .inr ⟨row, table.rows.erase row, hselects, hperm, ?_⟩
    refine (hperm.map _).trans ?_
    rw [List.map_cons, if_pos hselects]
    refine .of_eq (congrArg _ ?_)
    conv_rhs => rw [← List.map_id (table.rows.erase row)]
    exact List.map_congr_left fun other hother => if_neg (hothers other hother)
  · have hnone : ∀ row ∈ table.rows, ¬ Selects idaccount idplayer (!deleted) row :=
      fun row hrow hselects => hsome ⟨row, hrow, hselects⟩
    refine .inl ⟨hnone, ?_⟩
    show table.rows.map _ = table.rows
    conv_rhs => rw [← List.map_id table.rows]
    exact List.map_congr_left fun row hrow => if_neg (hnone row hrow)

theorem setDeleted_names (idaccount idplayer : Int32) (deleted : Bool) :
    ((table.setDeleted idaccount idplayer deleted).rows.map PlayerRecord.name).Perm
      (table.rows.map PlayerRecord.name) := by
  rcases setDeleted_cases table idaccount idplayer deleted with
    ⟨-, hrows⟩ | ⟨row, rest, -, hperm, hrows⟩
  · rw [hrows]
  · exact (hrows.map PlayerRecord.name).trans (hperm.map PlayerRecord.name).symm

theorem count_of_perm {rows : List PlayerRecord} (h : table.rows.Perm rows) (idaccount : Int32) :
    table.count idaccount =
      rows.countP fun row => row.idaccount = idaccount ∧ row.deleted = false :=
  h.countP_eq _

/-- A player that is deleted no longer counts. -/
theorem count_delete_le (idaccount idplayer other : Int32) :
    (table.setDeleted idaccount idplayer true).count other ≤ table.count other := by
  rcases setDeleted_cases table idaccount idplayer true with
    ⟨-, hrows⟩ | ⟨row, rest, -, hperm, hrows⟩
  · exact (congrArg (List.countP _) hrows).le
  · rw [count_of_perm hrows, count_of_perm hperm, List.countP_cons_of_neg (by simp)]
    exact (List.sublist_cons_self row rest).countP_le

/-- A player that is restored counts again. -/
theorem count_restore (table : PlayerTable) (idaccount idplayer other : Int32) :
    (table.setDeleted idaccount idplayer false).count other = table.count other +
      if other = idaccount ∧ ∃ row ∈ table.rows, Selects idaccount idplayer true row then 1 else 0 := by
  rcases setDeleted_cases table idaccount idplayer false with
    ⟨hnone, hrows⟩ | ⟨row, rest, hselects, hperm, hrows⟩
  · rw [if_neg fun hand => hand.2.elim fun row hrow => hnone row hrow.1 hrow.2]
    exact congrArg (List.countP _) hrows
  · have hdeleted : row.deleted = true := hselects.2.2
    have hmem : row ∈ table.rows := hperm.mem_iff.2 List.mem_cons_self
    rw [count_of_perm hrows, count_of_perm hperm, List.countP_cons,
      List.countP_cons_of_neg (by simp [hdeleted])]
    by_cases hother : other = idaccount
    · have hcounts : row.idaccount = other := hselects.1.trans hother.symm
      rw [if_pos (decide_eq_true ⟨hcounts, rfl⟩), if_pos ⟨hother, row, hmem, hselects⟩]
    · have hcounts : row.idaccount ≠ other := fun heq => hother (heq.symm.trans hselects.1)
      rw [if_neg (by simp [hcounts]), if_neg fun hand => hother hand.1]

theorem insertRow_rows {n : NewPlayer} {idaccount : Int32} {table' : PlayerTable}
    (h : table.insertRow db n idaccount = some table') :
    ¬ table.Occupied db n.name ∧
      table'.rows = ⟨Int32.ofNat table.next, idaccount, n.name, false⟩ :: table.rows := by
  unfold insertRow at h
  split at h
  next hconditions =>
    rw [← Option.some.inj h]
    exact ⟨hconditions.2.2, rfl⟩
  next => cases h

/-- What `NewPlayer` does to the table: nothing, or a row for an account that has room. -/
theorem newPlayer_cases (db : Database) (table : PlayerTable) (n : NewPlayer) (idaccount : Int32) :
    (table.newPlayer db n idaccount).1 = table ∨
      (¬ table.Occupied db n.name ∧ table.count idaccount < maxCharacter ∧
        (table.newPlayer db n idaccount).1.rows =
          ⟨Int32.ofNat table.next, idaccount, n.name, false⟩ :: table.rows) := by
  unfold newPlayer
  split
  · exact .inl rfl
  · split
    · exact .inl rfl
    next hroom =>
      cases hinsert : table.insertRow db n idaccount with
      | none => exact .inl rfl
      | some table' =>
          obtain ⟨hfree, hrows⟩ := insertRow_rows hinsert
          exact .inr ⟨hfree, Nat.lt_of_not_le hroom, hrows⟩

/-! ## The rules -/

/-- What is to hold of the table. -/
structure Lawful (db : Database) (table : PlayerTable) : Prop where
  limit : ∀ idaccount, table.count idaccount ≤ maxCharacter
  unique : (table.rows.map fun row => db.collate row.name).Nodup

theorem unique_of_names {table' : PlayerTable}
    (h : (table'.rows.map PlayerRecord.name).Perm (table.rows.map PlayerRecord.name))
    (hunique : (table.rows.map fun row => db.collate row.name).Nodup) :
    (table'.rows.map fun row => db.collate row.name).Nodup := by
  have hcollated := h.map db.collate
  rw [List.map_map, List.map_map] at hcollated
  exact hcollated.nodup_iff.2 hunique

namespace Lawful

theorem newPlayer (h : Lawful db table) (n : NewPlayer) (idaccount : Int32) :
    Lawful db (table.newPlayer db n idaccount).1 := by
  rcases newPlayer_cases db table n idaccount with hsame | ⟨hfree, hroom, hrows⟩
  · rwa [hsame]
  · refine ⟨fun other => ?_, ?_⟩
    · have hlimit := h.limit other
      rw [count_of_perm (.of_eq hrows), List.countP_cons]
      change table.count other + _ ≤ maxCharacter
      split
      next hcounts =>
        simp only [and_true, decide_eq_true_eq] at hcounts
        rw [← hcounts]
        exact hroom
      next => exact hlimit
    · rw [hrows, List.map_cons, List.nodup_cons]
      refine ⟨fun hmem => hfree ?_, h.unique⟩
      obtain ⟨row, hrow, hname⟩ := List.mem_map.1 hmem
      exact ⟨row, hrow, hname⟩

theorem deletePlayer (h : Lawful db table) (idplayer idaccount : Int32) :
    Lawful db (table.deletePlayer idplayer idaccount).1 :=
  ⟨fun other => (count_delete_le idaccount idplayer other).trans (h.limit other),
    unique_of_names (setDeleted_names idaccount idplayer true) h.unique⟩

end Lawful

/-- A player that is restored comes to an account that has room for it. -/
def HasRoom (table : PlayerTable) : PlayerRequest → Prop
  | .restorePlayer idplayer idaccount =>
    (∃ row ∈ table.rows, Selects idaccount idplayer true row) → table.count idaccount < maxCharacter
  | .newPlayer .. | .deletePlayer .. => True

instance (table : PlayerTable) : DecidablePred table.HasRoom
  | .restorePlayer .. => inferInstanceAs (Decidable ((∃ row ∈ _, _) → _))
  | .newPlayer .. | .deletePlayer .. => isTrue trivial

theorem restorePlayer_lawful_iff (h : Lawful db table) (idplayer idaccount : Int32) :
    Lawful db (table.restorePlayer idplayer idaccount).1 ↔
      table.HasRoom (.restorePlayer idplayer idaccount) := by
  have hcount (other : Int32) := count_restore table idaccount idplayer other
  constructor
  · intro hlawful hrestored
    have hlimit := hlawful.limit idaccount
    change (table.setDeleted idaccount idplayer false).count idaccount ≤ maxCharacter at hlimit
    rw [hcount idaccount, if_pos ⟨rfl, hrestored⟩] at hlimit
    exact hlimit
  · intro hroom
    refine ⟨fun other => ?_, unique_of_names (setDeleted_names idaccount idplayer false) h.unique⟩
    change (table.setDeleted idaccount idplayer false).count other ≤ maxCharacter
    rw [hcount other]
    split
    next hrestored =>
      rw [hrestored.1]
      exact hroom hrestored.2
    next => exact h.limit other

/-! ## Runs -/

/-- Through a run of requests no account has more than `MAX_CHARACTER` players and names are unique,
    exactly when each player is restored to an account that has room. -/
theorem run_lawful_iff (db : Database) (start : PlayerTable) (hstart : Lawful db start)
    (requests : List PlayerRequest) :
    (∀ before after table, requests = before ++ after →
      run (PlayerTable.step db) start before = .ok table → Lawful db table) ↔
        Admissible (PlayerTable.step db) HasRoom start requests := by
  refine forall_state_iff_admissible (fun table request table' h hroom hstep => ?_)
    (fun _ h => h) (fun table request h hnot => ?_) hstart
  · cases request with
    | newPlayer n idaccount =>
        rw [← Except.ok.inj hstep]
        exact h.newPlayer n idaccount
    | deletePlayer idplayer idaccount =>
        rw [← Except.ok.inj hstep]
        exact h.deletePlayer idplayer idaccount
    | restorePlayer idplayer idaccount =>
        rw [← Except.ok.inj hstep]
        exact (restorePlayer_lawful_iff h idplayer idaccount).2 hroom
  · cases request with
    | newPlayer n idaccount => exact (hnot trivial).elim
    | deletePlayer idplayer idaccount => exact (hnot trivial).elim
    | restorePlayer idplayer idaccount =>
        exact ⟨_, rfl, fun hlawful =>
          hnot ((restorePlayer_lawful_iff h idplayer idaccount).1 hlawful)⟩

/-- The table after `build.sql`. -/
def empty : PlayerTable where
  rows := []
  next := 1
  keyed := keyed_nil
  bounded := by simp

theorem empty_lawful (db : Database) : Lawful db empty := ⟨fun _ => Nat.zero_le _, List.nodup_nil⟩

/-- A database that compares names as they are. -/
def plainDatabase : Database := ⟨id, fun _ _ => true⟩

/-- A new player with a name of one letter. -/
def playerCalled (letter : UInt8) : NewPlayer := ⟨[letter], 0, 1, 1, 1, 1, 1, 0, 0⟩

/-- A player is deleted and restored. -/
theorem run_lawful_restored :
    ∃ table, run (PlayerTable.step plainDatabase) empty
      [.newPlayer (playerCalled 97) 1, .deletePlayer 1 1, .restorePlayer 1 1] = .ok table ∧
      Lawful plainDatabase table := by
  refine Exists.imp (fun table hrun => ⟨hrun, (run_lawful_iff plainDatabase empty
    (empty_lawful plainDatabase) _).2 ?_ _ [] table (List.append_nil _).symm hrun⟩) ⟨_, rfl⟩
  decide +kernel

/-- A player is deleted, a sixth one is created, and the deleted one is restored. -/
theorem sixth_player :
    ∃ table, run (PlayerTable.step plainDatabase) empty
      [.newPlayer (playerCalled 97) 1, .newPlayer (playerCalled 98) 1, .newPlayer (playerCalled 99) 1,
        .newPlayer (playerCalled 100) 1, .newPlayer (playerCalled 101) 1, .deletePlayer 1 1,
        .newPlayer (playerCalled 102) 1, .restorePlayer 1 1] = .ok table ∧
      maxCharacter < table.count 1 :=
  ⟨_, rfl, by decide +kernel⟩

end PlayerTable

end Bango.Session
