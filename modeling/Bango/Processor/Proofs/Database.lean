import Mathlib.Data.List.Forall2
import Bango.Processor.Database

set_option autoImplicit false

/-! # What is loaded

The records of a file with the name are read one after the other, and the first one with an index stays
in the database. A load that throws has no result. -/

namespace Bango.Processor

open Bango.Lib

variable {α ε : Type} {index : α → UInt32} {set : α → Var → Except ε α} {empty : α}
  {nameFilter : List UInt8} {Record : Var → α → Prop} {file : Option (List UInt8)} {db : List α}

/-- The records of a run over some forms. -/
theorem exists_records_of_run {db' : List α} {forms : List Var}
    (hrun : run (loadRecord index set empty nameFilter) db forms = .ok db') :
    ∃ records, List.Forall₂ (fun param temp => readRecord set empty param = .ok temp)
        (forms.filter (HasName nameFilter ·)) records ∧
      db' = records.foldl (insertKey index) db := by
  induction forms generalizing db with
  | nil =>
      rw [run_nil, Except.ok.injEq] at hrun
      exact ⟨[], .nil, hrun.symm⟩
  | cons param forms ih =>
      by_cases hname : HasName nameFilter param
      · rw [List.filter_cons, if_pos (decide_eq_true hname)]
        cases hread : readRecord set empty param with
        | error e =>
            have hstep : loadRecord index set empty nameFilter db param = .error e := by
              rw [loadRecord, if_pos hname, hread]
              rfl
            rw [run_cons_error forms hstep] at hrun
            cases hrun
        | ok temp =>
            have hstep : loadRecord index set empty nameFilter db param =
                .ok (insertKey index db temp) := by
              rw [loadRecord, if_pos hname, hread]
              rfl
            rw [run_cons_ok forms hstep] at hrun
            obtain ⟨records, hrecords, hdb⟩ := ih hrun
            exact ⟨temp :: records, .cons hread hrecords, hdb⟩
      · rw [List.filter_cons, if_neg (by simpa using hname)]
        have hstep : loadRecord index set empty nameFilter db param = .ok db := by
          rw [loadRecord, if_neg hname]
        rw [run_cons_ok forms hstep] at hrun
        exact ih hrun

/-- What holds of each record that is read holds of the records of the database. -/
theorem firstRecords_of_loadDatabase {opened : Bool}
    (hread : ∀ param temp, readRecord set empty param = .ok temp → Record param temp)
    (hload : loadDatabase index set empty nameFilter file = .ok (opened, db)) :
    FirstRecords index nameFilter Record file db := by
  unfold loadDatabase at hload
  unfold FirstRecords
  cases hfile : loadFile file with
  | none =>
      simp only [hfile, Except.ok.injEq, Prod.mk.injEq] at hload
      rw [← hload.2]
      exact ⟨[], .nil, fun k => rfl⟩
  | some forms =>
      simp only [hfile] at hload
      obtain ⟨db', hrun, hdb⟩ := bind_eq_ok.1 hload
      obtain ⟨-, rfl⟩ := Prod.mk.inj (Except.ok.inj hdb)
      obtain ⟨records, hrecords, rfl⟩ := exists_records_of_run hrun
      refine ⟨records, hrecords.imp fun param temp => hread param temp, fun k => ?_⟩
      rw [findKey_foldl_insertKey, List.nil_append]

/-- A record of the database comes from a form of the file. -/
theorem FirstRecords.exists_form (h : FirstRecords index nameFilter Record file db) {k : UInt32}
    {temp : α} (hfind : findKey index k db = some temp) : ∃ param, Record param temp := by
  obtain ⟨records, hrecords, hdb⟩ := h
  rw [hdb] at hfind
  have hmem := mem_of_findKey hfind
  clear hfind hdb
  generalize ((loadFile file).getD []).filter (HasName nameFilter ·) = forms at hrecords
  induction hrecords with
  | nil => cases hmem
  | @cons param _ _ _ hrecord _ ih =>
      rcases List.mem_cons.1 hmem with rfl | hmem
      · exact ⟨param, hrecord⟩
      · exact ih hmem

end Bango.Processor
