import Mathlib.Init

set_option autoImplicit false

/-! # Runs of a fallible step function

A deterministic system is a step function `σ → ο → Except ε σ`: an operation either moves the state
or fails. A run applies a list of operations and stops at the first failure. An operation may be
subject to a guard in the state it meets (`Admissible`), and an invariant of every admissible step
is an invariant of every admissible run (`run_invariant`). -/

namespace Bango.Lib

variable {σ ο ε : Type}

@[simp]
theorem ok_bind {α β : Type} (a : α) (f : α → Except ε β) : (.ok a >>= f) = f a := rfl

@[simp]
theorem error_bind {α β : Type} (e : ε) (f : α → Except ε β) : (.error e >>= f) = .error e := rfl

/-- A computation that goes on after another one comes to its end when both do. -/
theorem bind_eq_ok {α β : Type} {x : Except ε α} {f : α → Except ε β} {b : β} :
    x >>= f = .ok b ↔ ∃ a, x = .ok a ∧ f a = .ok b := by
  cases x with
  | ok a =>
      constructor
      · intro h
        exact ⟨a, rfl, h⟩
      · intro h
        obtain ⟨a', ha, hb⟩ := h
        rwa [Except.ok.inj ha]
  | error f => simp [bind, Except.bind]

/-- A computation that goes on after another one fails when one of the two does. -/
theorem bind_eq_error {α β : Type} {x : Except ε α} {f : α → Except ε β} {e : ε} :
    x >>= f = .error e ↔ x = .error e ∨ ∃ a, x = .ok a ∧ f a = .error e := by
  cases x with
  | ok a => simp [bind, Except.bind]
  | error e' => simp [bind, Except.bind]

/-- Run a list of operations; the first failure ends the run. -/
def run (step : σ → ο → Except ε σ) : σ → List ο → Except ε σ
  | s, [] => .ok s
  | s, o :: os =>
    match step s o with
    | .ok s' => run step s' os
    | .error f => .error f

/-- Every operation of the run meets its guard in the state it is applied to. -/
def Admissible (step : σ → ο → Except ε σ) (guard : σ → ο → Prop) : σ → List ο → Prop
  | _, [] => True
  | s, o :: os => guard s o ∧ ∀ s', step s o = .ok s' → Admissible step guard s' os

variable {step : σ → ο → Except ε σ} {guard : σ → ο → Prop}

/-- Whether a computation fails with `f` can be decided without comparing states. -/
instance decidableEqError [DecidableEq ε] (x : Except ε σ) (f : ε) : Decidable (x = .error f) :=
  match x with
  | .ok _ => isFalse nofun
  | .error g => decidable_of_iff (g = f) (by simp)

instance Admissible.decidable [∀ s o, Decidable (guard s o)] :
    ∀ s ops, Decidable (Admissible step guard s ops)
  | _, [] => isTrue trivial
  | s, o :: os =>
    have : Decidable (∀ s', step s o = .ok s' → Admissible step guard s' os) :=
      match step s o with
      | .ok t =>
        match decidable t os with
        | isTrue ht => isTrue fun _ hs => Except.ok.inj hs ▸ ht
        | isFalse ht => isFalse fun hall => ht (hall t rfl)
      | .error _ => isTrue nofun
    inferInstanceAs (Decidable (_ ∧ _))

@[simp]
theorem run_nil (s : σ) : run step s [] = .ok s := rfl

theorem run_cons_ok {s s' : σ} {o : ο} (os : List ο) (h : step s o = .ok s') :
    run step s (o :: os) = run step s' os := by
  simp only [run, h]

theorem run_cons_error {s : σ} {o : ο} {f : ε} (os : List ο) (h : step s o = .error f) :
    run step s (o :: os) = .error f := by
  simp only [run, h]

theorem run_singleton {s s' : σ} {o : ο} : run step s [o] = .ok s' ↔ step s o = .ok s' := by
  cases h : step s o with
  | ok t => rw [run_cons_ok [] h, run_nil]
  | error f => simp [run_cons_error [] h]

theorem run_append_ok {s s' : σ} {os : List ο} (ps : List ο) (h : run step s os = .ok s') :
    run step s (os ++ ps) = run step s' ps := by
  induction os generalizing s with
  | nil =>
      simp only [run_nil, Except.ok.injEq] at h
      rw [h, List.nil_append]
  | cons o os ih =>
      cases hstep : step s o with
      | ok t =>
          rw [run_cons_ok os hstep] at h
          rw [List.cons_append, run_cons_ok (os ++ ps) hstep]
          exact ih h
      | error f =>
          rw [run_cons_error os hstep] at h
          cases h

theorem run_append_error {s : σ} {os : List ο} {f : ε} (ps : List ο)
    (h : run step s os = .error f) : run step s (os ++ ps) = .error f := by
  induction os generalizing s with
  | nil => cases h
  | cons o os ih =>
      cases hstep : step s o with
      | ok t =>
          rw [run_cons_ok os hstep] at h
          rw [List.cons_append, run_cons_ok (os ++ ps) hstep]
          exact ih h
      | error g =>
          rw [run_cons_error os hstep] at h
          rw [List.cons_append, run_cons_error (os ++ ps) hstep, h]

/-- A run fails exactly when one of its operations fails in the state the earlier ones lead to. -/
theorem run_eq_error_iff {s : σ} {ops : List ο} {f : ε} :
    run step s ops = .error f ↔
      ∃ before o after s', ops = before ++ o :: after ∧ run step s before = .ok s' ∧
        step s' o = .error f := by
  constructor
  · intro h
    induction ops generalizing s with
    | nil => cases h
    | cons o os ih =>
        cases hstep : step s o with
        | ok t =>
            rw [run_cons_ok os hstep] at h
            obtain ⟨before, o', after, s', rfl, hrun, hfail⟩ := ih h
            exact ⟨o :: before, o', after, s', rfl, by rw [run_cons_ok before hstep, hrun], hfail⟩
        | error g =>
            rw [run_cons_error os hstep] at h
            cases h
            exact ⟨[], o, os, s, rfl, rfl, hstep⟩
  · rintro ⟨before, o, after, s', rfl, hrun, hfail⟩
    rw [run_append_ok (o :: after) hrun, run_cons_error after hfail]

theorem Admissible.append {s s' : σ} {os ps : List ο} (h : Admissible step guard s (os ++ ps))
    (hrun : run step s os = .ok s') : Admissible step guard s' ps := by
  induction os generalizing s with
  | nil =>
      simp only [run_nil, Except.ok.injEq] at hrun
      rwa [hrun] at h
  | cons o os ih =>
      cases hstep : step s o with
      | ok t =>
          rw [run_cons_ok os hstep] at hrun
          exact ih (h.2 t hstep) hrun
      | error f =>
          rw [run_cons_error os hstep] at hrun
          cases hrun

theorem Admissible.append_intro {s : σ} {os ps : List ο} (h : Admissible step guard s os)
    (hnext : ∀ s', run step s os = .ok s' → Admissible step guard s' ps) :
    Admissible step guard s (os ++ ps) := by
  induction os generalizing s with
  | nil => exact hnext s rfl
  | cons o os ih =>
      refine ⟨h.1, fun t ht => ih (h.2 t ht) fun s' hs' => hnext s' ?_⟩
      rw [run_cons_ok os ht, hs']

theorem Admissible.of_append {s : σ} {os ps : List ο} (h : Admissible step guard s (os ++ ps)) :
    Admissible step guard s os := by
  induction os generalizing s with
  | nil => trivial
  | cons o os ih => exact ⟨h.1, fun s' hs' => ih (h.2 s' hs')⟩

theorem Admissible.of_forall {ops : List ο} (h : ∀ s, ∀ o ∈ ops, guard s o) (s : σ) :
    Admissible step guard s ops := by
  induction ops generalizing s with
  | nil => trivial
  | cons o os ih =>
      exact ⟨h s o List.mem_cons_self,
        fun s' _ => ih (fun t p hp => h t p (List.mem_cons_of_mem o hp)) s'⟩

theorem Admissible.and_forall {P : ο → Prop} {s : σ} {ops : List ο} (h : Admissible step guard s ops)
    (hops : ∀ o ∈ ops, P o) : Admissible step (fun s o => guard s o ∧ P o) s ops := by
  induction ops generalizing s with
  | nil => trivial
  | cons o os ih =>
      rw [List.forall_mem_cons] at hops
      exact ⟨⟨h.1, hops.1⟩, fun s' hs' => ih (h.2 s' hs') hops.2⟩

/-- Operations that bring every state closer to a final one lead to a final one. -/
theorem exists_run_to {Final : σ → Prop} {P : ο → Prop} (distance : σ → Nat)
    (h : ∀ s, ¬ Final s → ∃ o s', P o ∧ step s o = .ok s' ∧ distance s' < distance s) (s : σ) :
    ∃ ops s', (∀ o ∈ ops, P o) ∧ run step s ops = .ok s' ∧ Final s' := by
  induction hn : distance s using Nat.strongRecOn generalizing s with
  | ind n ih =>
      rcases Classical.em (Final s) with hfinal | hnot
      · exact ⟨[], s, fun _ ho => (List.not_mem_nil ho).elim, rfl, hfinal⟩
      · obtain ⟨o, t, ho, hstep, hlt⟩ := h s hnot
        obtain ⟨ops, s', hops, hrun, hfinal⟩ := ih (distance t) (hn ▸ hlt) t rfl
        refine ⟨o :: ops, s', fun p hp => ?_, by rw [run_cons_ok ops hstep, hrun], hfinal⟩
        rcases List.mem_cons.1 hp with rfl | hmem
        · exact ho
        · exact hops p hmem

/-- What every admissible step preserves holds after every admissible run. -/
theorem run_invariant {Inv : σ → Prop}
    (hstep : ∀ s o s', Inv s → guard s o → step s o = .ok s' → Inv s') {s s' : σ} {ops : List ο}
    (hinv : Inv s) (hadm : Admissible step guard s ops) (hrun : run step s ops = .ok s') :
    Inv s' := by
  induction ops generalizing s with
  | nil =>
      simp only [run_nil, Except.ok.injEq] at hrun
      rwa [← hrun]
  | cons o os ih =>
      cases ho : step s o with
      | ok t =>
          rw [run_cons_ok os ho] at hrun
          exact ih (hstep s o t hinv hadm.1 ho) (hadm.2 t ho) hrun
      | error f =>
          rw [run_cons_error os ho] at hrun
          cases hrun

/-- What every step preserves holds after every run. -/
theorem run_preserves {Inv : σ → Prop}
    (hstep : ∀ s o s', Inv s → step s o = .ok s' → Inv s') {s s' : σ} {ops : List ο}
    (hinv : Inv s) (hrun : run step s ops = .ok s') : Inv s' := by
  have hadm : Admissible step (fun _ _ => True) s ops := .of_forall (fun _ _ _ => trivial) s
  exact run_invariant (fun s o s' hs _ => hstep s o s' hs) hinv hadm hrun

/-- When each guarded step succeeds and keeps the invariant, so does each admissible run. -/
theorem run_ok_of_admissible {Inv : σ → Prop}
    (hstep : ∀ s o, Inv s → guard s o → ∃ s', step s o = .ok s' ∧ Inv s') {s : σ} {ops : List ο}
    (h0 : Inv s) (hadm : Admissible step guard s ops) :
    ∃ s', run step s ops = .ok s' ∧ Inv s' := by
  induction ops generalizing s with
  | nil => exact ⟨s, rfl, h0⟩
  | cons o os ih =>
      obtain ⟨t, ht, hinv⟩ := hstep s o h0 hadm.1
      rw [run_cons_ok os ht]
      exact ih hinv (hadm.2 t ht)

/-- A property holds in all states of a run exactly when each step of it meets the guard, if the guard
    keeps an invariant that has the property, and each step that does not meet it loses the
    property. -/
theorem forall_state_iff_admissible {Inv P : σ → Prop}
    (hstep : ∀ s o s', Inv s → guard s o → step s o = .ok s' → Inv s') (hinv : ∀ s, Inv s → P s)
    (hexact : ∀ s o, Inv s → ¬ guard s o → ∃ s', step s o = .ok s' ∧ ¬ P s') {s : σ} {ops : List ο}
    (h0 : Inv s) :
    (∀ before after s', ops = before ++ after → run step s before = .ok s' → P s') ↔
      Admissible step guard s ops := by
  constructor
  · intro h
    induction ops generalizing s with
    | nil => trivial
    | cons o os ih =>
        have hguard : guard s o := Classical.byContradiction fun hnot => by
          obtain ⟨s', hs', hP⟩ := hexact s o h0 hnot
          exact hP (h [o] os s' rfl (run_singleton.2 hs'))
        refine ⟨hguard, fun s' hs' => ih (hstep s o s' h0 hguard hs') ?_⟩
        intro before after t hos hrun
        exact h (o :: before) after t (by rw [hos, List.cons_append])
          (by rw [run_cons_ok before hs', hrun])
  · intro hadm before after s' hops hrun
    rw [hops] at hadm
    exact hinv s' (run_invariant hstep h0 hadm.of_append hrun)

/-- A run in which every step succeeds and extends the invariant of the operations done so far. -/
theorem run_ok_of_progress (Inv : List ο → σ → Prop) {s : σ} {ops : List ο} (h0 : Inv [] s)
    (hstep : ∀ seen o rest t, seen ++ o :: rest = ops → Inv seen t →
      ∃ t', step t o = .ok t' ∧ Inv (seen ++ [o]) t') :
    ∃ s', run step s ops = .ok s' ∧ Inv ops s' := by
  suffices hgen : ∀ todo seen t, seen ++ todo = ops → Inv seen t →
      ∃ s', run step t todo = .ok s' ∧ Inv ops s' from hgen ops [] s rfl h0
  intro todo
  induction todo with
  | nil =>
      intro seen t hops hinv
      rw [List.append_nil] at hops
      exact ⟨t, rfl, hops ▸ hinv⟩
  | cons o rest ih =>
      intro seen t hops hinv
      obtain ⟨t', ht', hinv'⟩ := hstep seen o rest t hops hinv
      obtain ⟨s', hs', hfinal⟩ := ih (seen ++ [o]) t' (by simp [hops]) hinv'
      exact ⟨s', by rw [run_cons_ok rest ht', hs'], hfinal⟩

/-- What every step of a run that comes to its end adds to the invariant of the operations before. -/
theorem run_inv_of_progress (Inv : List ο → σ → Prop) {s s' : σ} {ops : List ο} (h0 : Inv [] s)
    (hstep : ∀ seen o rest t t', seen ++ o :: rest = ops → Inv seen t → step t o = .ok t' →
      Inv (seen ++ [o]) t')
    (hrun : run step s ops = .ok s') : Inv ops s' := by
  suffices hgen : ∀ todo seen t, seen ++ todo = ops → Inv seen t → run step t todo = .ok s' →
      Inv ops s' from hgen ops [] s rfl h0 hrun
  intro todo
  induction todo with
  | nil =>
      intro seen t hops hinv hrun
      rw [List.append_nil] at hops
      rw [run_nil, Except.ok.injEq] at hrun
      rwa [← hops, ← hrun]
  | cons o rest ih =>
      intro seen t hops hinv hrun
      cases ho : step t o with
      | error f =>
          rw [run_cons_error rest ho] at hrun
          cases hrun
      | ok t' =>
          rw [run_cons_ok rest ho] at hrun
          exact ih (seen ++ [o]) t' (by simp [hops]) (hstep seen o rest t t' hops hinv ho) hrun

/-- A run in which every guarded step extends the invariant of the operations done so far or fails in one
    of some ways does one or the other. -/
theorem run_progress_or_error (Inv : List ο → σ → Prop) {F : ε → Prop} {s : σ} {ops : List ο}
    (hstep : ∀ seen o t, Inv seen t → guard t o →
      (∃ t', step t o = .ok t' ∧ Inv (seen ++ [o]) t') ∨ ∃ f, step t o = .error f ∧ F f)
    (h0 : Inv [] s) (hadm : Admissible step guard s ops) :
    (∃ s', run step s ops = .ok s' ∧ Inv ops s') ∨ ∃ f, run step s ops = .error f ∧ F f := by
  suffices hgen : ∀ todo seen t, seen ++ todo = ops → Inv seen t → Admissible step guard t todo →
      (∃ s', run step t todo = .ok s' ∧ Inv ops s') ∨ ∃ f, run step t todo = .error f ∧ F f from
    hgen ops [] s rfl h0 hadm
  intro todo
  induction todo with
  | nil =>
      intro seen t hops hinv _
      rw [List.append_nil] at hops
      exact .inl ⟨t, rfl, hops ▸ hinv⟩
  | cons o rest ih =>
      intro seen t hops hinv hadm
      rcases hstep seen o t hinv hadm.1 with ⟨t', ht', hinv'⟩ | ⟨f, hfail, hf⟩
      · rw [run_cons_ok rest ht']
        exact ih (seen ++ [o]) t' (by simp [hops]) hinv' (hadm.2 t' ht')
      · exact .inr ⟨f, run_cons_error rest hfail, hf⟩

variable (guard) in
/-- A run whose states are images of a folded value: each operation folds in its argument. -/
theorem run_map_eq_foldl {τ ι : Type} (op : ι → ο) (image : τ → σ) (next : τ → ι → τ)
    (Inv : τ → List ι → Prop)
    (hstep : ∀ t i is, Inv t (i :: is) → guard (image t) (op i) ∧
      step (image t) (op i) = .ok (image (next t i)) ∧ Inv (next t i) is)
    {t : τ} {is : List ι} (h0 : Inv t is) :
    Admissible step guard (image t) (is.map op) ∧
      run step (image t) (is.map op) = .ok (image (is.foldl next t)) := by
  induction is generalizing t with
  | nil => exact ⟨trivial, rfl⟩
  | cons i is ih =>
      obtain ⟨hguard, hok, hinv⟩ := hstep t i is h0
      obtain ⟨hadm, hrun⟩ := ih hinv
      refine ⟨⟨hguard, fun s' hs' => ?_⟩, by rw [List.map_cons, run_cons_ok _ hok, hrun]; rfl⟩
      rw [hok] at hs'
      rw [← Except.ok.inj hs']
      exact hadm

/-- A run in which a step either keeps the invariant or fails with `f` does one or the other. -/
theorem run_ok_or_error {Inv : σ → Prop} {f : ε} {ops : List ο}
    (hstep : ∀ s, ∀ o ∈ ops, Inv s → (∃ s', step s o = .ok s' ∧ Inv s') ∨ step s o = .error f)
    {s : σ} (h0 : Inv s) :
    (∃ s', run step s ops = .ok s' ∧ Inv s') ∨ run step s ops = .error f := by
  induction ops generalizing s with
  | nil => exact .inl ⟨s, rfl, h0⟩
  | cons o os ih =>
      rcases hstep s o List.mem_cons_self h0 with ⟨t, ht, hinv⟩ | herr
      · rw [run_cons_ok os ht]
        exact ih (fun s o ho => hstep s o (List.mem_cons_of_mem _ ho)) hinv
      · exact .inr (run_cons_error os herr)

/-- When `f` is the only way to fail and some operation always fails, the run fails with `f`. -/
theorem run_error_of_mem {f : ε} {ops : List ο} (honly : ∀ s o g, step s o = .error g → g = f)
    {o : ο} (ho : o ∈ ops) (hfail : ∀ s, step s o = .error f) (s : σ) :
    run step s ops = .error f := by
  induction ops generalizing s with
  | nil => cases ho
  | cons p ps ih =>
      cases hp : step s p with
      | error g =>
          rw [run_cons_error ps hp, honly s p g hp]
      | ok t =>
          rw [run_cons_ok ps hp]
          rcases List.mem_cons.1 ho with rfl | hmem
          · rw [hfail s] at hp
            cases hp
          · exact ih hmem t

end Bango.Lib
