import Bango.Space.Proofs.Remove

set_option autoImplicit false

/-! # When merging is safe

Every tree a run reaches is well formed, so a run comes to the null container of a divided quad
exactly when it removes a blocked entity. A blocked entity needs a divided quad with no more than
`maxContainerEntities` distinct positions, and `insert` makes one when it divides a full leaf for an
entity at a position the leaf already counts. -/

namespace Bango.Space.Quad

open Bango.Lib

variable {T α : Type} [EntityContainer T α] [DecidableEq α] [LawfulEntityContainer T]
  {pos : α → Point} {maxContainerEntities : Nat}

/-- What a guarded operation does to a well-formed tree: the removal of a blocked entity reaches a
    null container, anything else does to the entities what it does to the multiset. -/
theorem WellFormed.step_spec {b : Square} {q : Quad T} {o : Op α}
    (hw : HalvesEvenly maxContainerEntities b.width) (hq : WellFormed pos maxContainerEntities b q)
    (hguard : Guard pos q o) :
    ((∃ e, o = .remove e ∧ Blocked pos maxContainerEntities q e) ∧
        step pos maxContainerEntities q o = .error .nullContainer) ∨
      ((¬ ∃ e, o = .remove e ∧ Blocked pos maxContainerEntities q e) ∧
        ∃ q', step pos maxContainerEntities q o = .ok q' ∧
          WellFormed pos maxContainerEntities b q' ∧
          (q'.entities : Multiset α) = o.apply (q.entities : Multiset α)) := by
  cases o with
  | insert e =>
      obtain ⟨hin, hnew⟩ := hguard
      rw [hq.boundary_eq] at hin
      obtain ⟨q', hq', hdone⟩ := insert_spec hw hq hin hnew
      refine .inr ⟨?_, q', hq', hdone.wellFormed, Multiset.coe_eq_coe.2 hdone.entities_perm⟩
      intro ⟨e', he', _⟩
      cases he'
  | remove e =>
      rcases remove_spec hq hguard with ⟨hblocked, herr⟩ | ⟨hfree, q', hq', hwf, hperm⟩
      · exact .inl ⟨⟨e, rfl, hblocked⟩, herr⟩
      · refine .inr ⟨?_, q', hq', hwf, Multiset.coe_eq_coe.2 hperm⟩
        intro ⟨e', he', hblocked⟩
        cases he'
        exact hfree hblocked

theorem WellFormed.step_ok {b : Square} {q q' : Quad T} {o : Op α}
    (hw : HalvesEvenly maxContainerEntities b.width) (hq : WellFormed pos maxContainerEntities b q)
    (hguard : Guard pos q o) (hstep : step pos maxContainerEntities q o = .ok q') :
    WellFormed pos maxContainerEntities b q' ∧
      (q'.entities : Multiset α) = o.apply (q.entities : Multiset α) := by
  rcases hq.step_spec hw hguard with ⟨-, herr⟩ | ⟨-, r, hr, hwf, hstored⟩
  · cases herr.symm.trans hstep
  · have hqr : Except.ok r = Except.ok q' := hr.symm.trans hstep
    rw [← Except.ok.inj hqr]
    exact ⟨hwf, hstored⟩

/-- The only failure is the removal of a blocked entity. -/
theorem WellFormed.step_error_iff {b : Square} {q : Quad T} {o : Op α} {f : Fault}
    (hw : HalvesEvenly maxContainerEntities b.width) (hq : WellFormed pos maxContainerEntities b q)
    (hguard : Guard pos q o) :
    step pos maxContainerEntities q o = .error f ↔
      f = .nullContainer ∧ ∃ e, o = .remove e ∧ Blocked pos maxContainerEntities q e := by
  rcases hq.step_spec hw hguard with ⟨hblocked, herr⟩ | ⟨hfree, r, hr, -⟩
  · rw [herr, Except.error.injEq]
    constructor
    · intro h
      exact ⟨h.symm, hblocked⟩
    · intro h
      exact h.1.symm
  · rw [hr]
    constructor
    · intro h
      cases h
    · intro h
      exact absurd h.2 hfree

/-- Every tree an admissible run reaches is well formed. -/
theorem wellFormed_of_run {b : Square} {q : Quad T} {ops : List (Op α)}
    (hw : HalvesEvenly maxContainerEntities b.width)
    (hadm : Admissible (step pos maxContainerEntities) (Guard pos) (new b : Quad T) ops)
    (hrun : run (step pos maxContainerEntities) (new b : Quad T) ops = .ok q) :
    WellFormed pos maxContainerEntities b q :=
  run_invariant (fun _ _ _ hq hguard hstep => (hq.step_ok hw hguard hstep).1) (.new b) hadm hrun

/-- How an admissible run fails: it removes an entity that is blocked in the tree it has reached. -/
theorem run_error_iff {b : Square} {ops : List (Op α)} {f : Fault}
    (hw : HalvesEvenly maxContainerEntities b.width)
    (hadm : Admissible (step pos maxContainerEntities) (Guard pos) (new b : Quad T) ops) :
    run (step pos maxContainerEntities) (new b : Quad T) ops = .error f ↔
      f = .nullContainer ∧ ∃ before e after q, ops = before ++ .remove e :: after ∧
        run (step pos maxContainerEntities) (new b : Quad T) before = .ok q ∧
        Blocked pos maxContainerEntities q e := by
  rw [run_eq_error_iff]
  constructor
  · intro ⟨before, o, after, q, hops, hrun, hfail⟩
    rw [hops] at hadm
    have hq := wellFormed_of_run hw hadm.of_append hrun
    obtain ⟨hf, e, rfl, hblocked⟩ := (hq.step_error_iff hw (hadm.append hrun).1).1 hfail
    exact ⟨hf, before, e, after, q, hops, hrun, hblocked⟩
  · intro ⟨hf, before, e, after, q, hops, hrun, hblocked⟩
    rw [hops] at hadm
    have hq := wellFormed_of_run hw hadm.of_append hrun
    exact ⟨before, .remove e, after, q, hops, hrun,
      (hq.step_error_iff hw (hadm.append hrun).1).2 ⟨hf, e, rfl, hblocked⟩⟩

/-- With a root width that is a power of two, `_merge` never gets a null container in a run exactly
    when the run removes no blocked entity. -/
theorem merge_safe_iff {n : Nat} {b : Square} (hw : b.width = 2 ^ n) {ops : List (Op α)}
    (hadm : Admissible (step pos maxContainerEntities) (Guard pos) (new b : Quad T) ops) :
    run (step pos maxContainerEntities) (new b : Quad T) ops ≠ .error .nullContainer ↔
      ∀ before e after q, ops = before ++ .remove e :: after →
        run (step pos maxContainerEntities) (new b : Quad T) before = .ok q →
        ¬ Blocked pos maxContainerEntities q e := by
  rw [Ne, run_error_iff (hw ▸ .of_two_pow n) hadm]
  constructor
  · intro h before e after q hops hrun hblocked
    exact h ⟨rfl, before, e, after, q, hops, hrun, hblocked⟩
  · intro h ⟨_, before, e, after, q, hops, hrun, hblocked⟩
    exact h before e after q hops hrun hblocked

/-- Entities 0 and 1 share the corner of the map, entity 2 stands at the opposite one. -/
def sharedCorner (e : Nat) : Point := if e < 2 then ⟨0, 0⟩ else ⟨4, 4⟩

/-- Dividing a leaf for the second entity of one position, then removing the lone third entity. -/
theorem merge_unsafe :
    Admissible (step sharedCorner 1) (Guard sharedCorner)
        (new ⟨⟨0, 0⟩, 4⟩ : Quad (ListContainer Nat))
        [.insert 0, .insert 1, .insert 2, .remove 2] ∧
      run (step sharedCorner 1) (new ⟨⟨0, 0⟩, 4⟩ : Quad (ListContainer Nat))
        [.insert 0, .insert 1, .insert 2, .remove 2] = .error .nullContainer := by
  constructor
  · decide
  · decide

theorem merge_safe_sharedCorner :
    run (step sharedCorner 2) (new ⟨⟨0, 0⟩, 2 ^ 2⟩ : Quad (ListContainer Nat))
        [.insert 0, .insert 1, .insert 2, .remove 2] ≠ .error .nullContainer ↔
      ∀ before e after q, [.insert 0, .insert 1, .insert 2, .remove 2] = before ++ .remove e :: after →
        run (step sharedCorner 2) (new ⟨⟨0, 0⟩, 2 ^ 2⟩ : Quad (ListContainer Nat)) before = .ok q →
        ¬ Blocked sharedCorner 2 q e :=
  merge_safe_iff rfl (by decide)

end Bango.Space.Quad
