import Bango.Locks.System

set_option autoImplicit false

/-! # Deadlocks that do happen

A worker that is not disturbed takes the mutexes at the front of its sequence one after another. So an
attack on oneself always ends with waiting for oneself, and a handler that keeps a character's mutex
while it waits for `World`'s can be met by one that takes the two the other way round. -/

namespace Bango.Locks.System

open Bango.Lib Relation

variable {T : Type} [DecidableEq T] [Fintype T] {s : System T} {t u : T}

/-! ## Taking mutexes -/

theorem step_lock {mutex : Mutex} {left : Sequence} {held : List Mutex}
    (hworker : s.workers t = ⟨.lock mutex :: left, held⟩)
    (hgrantable : Grantable Mutex.Recursive s.workers t mutex) :
    ∃ s', s.step (.advance t) = .ok s' ∧
      s'.workers = Function.update s.workers t ⟨left, mutex :: held⟩ := by
  refine ⟨{ s.goOn t left (mutex :: held) with leader := Function.update s.leader t none }, ?_, rfl⟩
  unfold step advance
  dsimp only
  rw [hworker]
  exact if_pos hgrantable

/-- A worker takes different mutexes that nobody has, one after another. -/
theorem run_locks {mutexes held : List Mutex} {left : Sequence}
    (hworker : s.workers t = ⟨mutexes.map .lock ++ left, held⟩)
    (hfree : ∀ mutex ∈ mutexes, ∀ v, mutex ∉ (s.workers v).held) (hnodup : mutexes.Nodup) :
    ∃ s', run step s (List.replicate mutexes.length (.advance t)) = .ok s' ∧
      s'.workers = Function.update s.workers t ⟨left, mutexes.reverse ++ held⟩ := by
  induction mutexes generalizing s held with
  | nil =>
      refine ⟨s, rfl, (Function.update_eq_self_iff.2 ?_).symm⟩
      exact hworker.symm
  | cons mutex mutexes ih =>
      obtain ⟨hnot, hnodup⟩ := List.nodup_cons.1 hnodup
      obtain ⟨s₁, hstep, hworkers⟩ := step_lock hworker
        fun v hv => absurd hv (hfree mutex List.mem_cons_self v)
      have hworker₁ : s₁.workers t = ⟨mutexes.map .lock ++ left, mutex :: held⟩ := by
        rw [hworkers, Function.update_self]
        rfl
      -- The first mutex is not among the others, so that these are still free.
      have hfree₁ : ∀ other ∈ mutexes, ∀ v, other ∉ (s₁.workers v).held := by
        intro other hother v hv
        rw [hworkers] at hv
        by_cases hvt : v = t
        · rw [hvt, Function.update_self] at hv
          rcases List.mem_cons.1 hv with rfl | hv
          · exact hnot hother
          · refine hfree other (List.mem_cons_of_mem _ hother) t ?_
            rwa [hworker]
        · rw [Function.update_of_ne hvt] at hv
          exact hfree other (List.mem_cons_of_mem _ hother) v hv
      obtain ⟨s', hrun, hworkers'⟩ := ih hworker₁ hfree₁ hnodup
      refine ⟨s', ?_, ?_⟩
      · rw [List.length_cons, List.replicate_succ, run_cons_ok _ hstep]
        exact hrun
      · rw [hworkers', hworkers, Function.update_idem, List.reverse_cons, List.append_assoc]
        rfl

/-- An idle worker gets a handler and takes the mutexes at the front of its sequence. -/
theorem run_dispatch_locks {handler : Handler} {mutexes : List Mutex} {left : Sequence}
    (hidle : s.workers t = ⟨[], []⟩) (hsequence : handler.sequence = mutexes.map .lock ++ left)
    (hfree : ∀ mutex ∈ mutexes, ∀ v, mutex ∉ (s.workers v).held) (hnodup : mutexes.Nodup) :
    ∃ s', run step s (.dispatch t handler :: List.replicate mutexes.length (.advance t)) = .ok s' ∧
      s'.workers = Function.update s.workers t ⟨left, mutexes.reverse⟩ := by
  have hstep : step s (.dispatch t handler) = .ok (s.goOn t handler.sequence (s.workers t).held) :=
    if_pos (congrArg Worker.left hidle)
  have hworker : (s.goOn t handler.sequence (s.workers t).held).workers t =
      ⟨mutexes.map .lock ++ left, []⟩ := by
    rw [← hsequence, hidle]
    exact Function.update_self ..
  have hfree' : ∀ mutex ∈ mutexes, ∀ v,
      mutex ∉ ((s.goOn t handler.sequence (s.workers t).held).workers v).held := by
    intro mutex hmem v
    show mutex ∉ (Function.update s.workers t _ v).held
    by_cases hvt : v = t
    · rw [hvt, Function.update_self]
      exact hfree mutex hmem t
    · rw [Function.update_of_ne hvt]
      exact hfree mutex hmem v
  obtain ⟨s', hrun, hworkers⟩ := run_locks hworker hfree' hnodup
  refine ⟨s', ?_, ?_⟩
  · rw [run_cons_ok _ hstep, hrun]
  · rw [hworkers, List.append_nil]
    exact Function.update_idem ..

/-! ## Attacks on oneself -/

/-- `OnAttack` takes the player's own mutex inside the map's and `World`'s, and then the target's. -/
theorem sequence_onAttack (id : UInt32) (map : Nat) (target : Character) {blow : Blow}
    (hblow : blow ≠ .notReady) :
    ∃ left, (Handler.onAttack id map (some (target, blow))).sequence =
      [.world, .map map, .character (.player id)].map .lock ++ .lock (.character target) :: left := by
  cases blow with
  | notReady => exact absurd rfl hblow
  | cannotAttack => exact ⟨_, rfl⟩
  | miss => exact ⟨_, rfl⟩
  | negative => exact ⟨_, rfl⟩
  | hit => exact ⟨_, rfl⟩
  | kill shares loots => exact ⟨_, rfl⟩

/-- Whoever attacks itself waits for itself, even with no one else there. -/
theorem attacksItself_deadlocked (inParty : Finset UInt32) (t : T) {handler : Handler}
    (h : handler.AttacksItself) :
    ∃ s, run step (start inParty) (.dispatch t handler :: List.replicate 3 (.advance t)) = .ok s ∧
      s.Deadlocked := by
  cases handler with
  | onAttack id map target =>
      obtain _ | ⟨target, blow⟩ := target
      · exact h.elim
      obtain ⟨rfl, hblow⟩ := h
      obtain ⟨left, hsequence⟩ := sequence_onAttack id map (.player id) hblow
      obtain ⟨s, hrun, hworkers⟩ := run_dispatch_locks (s := start inParty) (t := t) rfl hsequence
        (fun _ _ _ => List.not_mem_nil) (by simp)
      refine ⟨s, hrun, .inl ⟨t, .character (.player id), left, ?_, ?_, not_false⟩⟩
      · rw [hworkers, Function.update_self]
      · rw [hworkers, Function.update_self]
        exact List.mem_reverse.2 (by simp)
  | _ => exact h.elim

/-! ## Crossing handlers -/

/-- One handler keeps a character's mutex while it waits for `World`'s, and the other one takes the
    character's inside `World`. -/
theorem crossing_deadlocked (inParty : Finset UInt32) (htu : t ≠ u) {handler other : Handler}
    {character : Character} {mutexes : List Mutex} {left left' : Sequence}
    (hsequence : handler.sequence = [.character character].map .lock ++ .lock .world :: left)
    (hother : other.sequence = mutexes.map .lock ++ .lock (.character character) :: left')
    (hworld : .world ∈ mutexes) (hnot : .character character ∉ mutexes) (hnodup : mutexes.Nodup) :
    ∃ s, run step (start inParty) ((.dispatch t handler :: [.advance t]) ++
        (.dispatch u other :: List.replicate mutexes.length (.advance u))) = .ok s ∧
      s.Deadlocked := by
  obtain ⟨s, hrun, hworkers⟩ := run_dispatch_locks (s := start inParty) (t := t) rfl hsequence
    (fun _ _ _ => List.not_mem_nil) (List.nodup_singleton _)
  have hidle : s.workers u = ⟨[], []⟩ := by
    rw [hworkers, Function.update_of_ne htu.symm]
    rfl
  have hfree : ∀ mutex ∈ mutexes, ∀ v, mutex ∉ (s.workers v).held := by
    intro mutex hmem v hv
    rw [hworkers] at hv
    by_cases hvt : v = t
    · rw [hvt, Function.update_self] at hv
      rw [List.mem_singleton.1 hv] at hmem
      exact hnot hmem
    · rw [Function.update_of_ne hvt] at hv
      exact absurd hv List.not_mem_nil
  obtain ⟨s', hrun', hworkers'⟩ := run_dispatch_locks hidle hother hfree hnodup
  have ht : s'.workers t = ⟨.lock .world :: left, [.character character]⟩ := by
    rw [hworkers', Function.update_of_ne htu, hworkers, Function.update_self]
    rfl
  have hu : s'.workers u = ⟨.lock (.character character) :: left', mutexes.reverse⟩ := by
    rw [hworkers', Function.update_self]
  -- The first worker waits for the second one's `World`, and the second one for the first's character.
  have htu' : WaitsFor s'.workers t u := by
    refine ⟨htu, .world, left, ?_, ?_⟩
    · rw [ht]
    · rw [hu]
      exact List.mem_reverse.2 hworld
  have hut' : WaitsFor s'.workers u t := by
    refine ⟨htu.symm, .character character, left', ?_, ?_⟩
    · rw [hu]
    · rw [ht]
      exact List.mem_singleton_self _
  refine ⟨s', ?_, .inr ⟨t, .tail (.single htu') hut'⟩⟩
  have hrun₁ : run step (start inParty) (.dispatch t handler :: [.advance t]) = .ok s := hrun
  rw [run_append_ok _ hrun₁, hrun']

/-- `OnAskParty` takes the player's own mutex first, and then `World`'s. -/
theorem sequence_onAskParty {id invited : UInt32} (hne : invited ≠ id) (met : Bool) :
    ∃ left, (Handler.onAskParty id invited true met).sequence =
      [.character (.player id)].map .lock ++ .lock .world :: left := by
  refine ⟨(if met then lockedPlayer invited [] else []) ++
    [.unlock .world, .unlock (.character (.player id))], ?_⟩
  show onAskParty id invited true met = _
  unfold onAskParty
  rw [if_neg hne]
  cases met
  all_goals rfl

/-- A player is attacked while it invites another one. -/
theorem attack_askParty_deadlocked (inParty : Finset UInt32) (htu : t ≠ u) {id target invited : UInt32}
    (map : Nat) (met : Bool) {blow : Blow} (hinvited : invited ≠ target) (htarget : target ≠ id)
    (hblow : blow ≠ .notReady) :
    ∃ s, run step (start inParty) ((.dispatch t (.onAskParty target invited true met) ::
        [.advance t]) ++ (.dispatch u (.onAttack id map (some (.player target, blow))) ::
          List.replicate 3 (.advance u))) = .ok s ∧ s.Deadlocked := by
  obtain ⟨_, hsequence⟩ := sequence_onAskParty hinvited met
  obtain ⟨_, hother⟩ := sequence_onAttack id map (.player target) hblow
  refine crossing_deadlocked inParty htu hsequence hother List.mem_cons_self ?_ (by simp)
  simpa using htarget

/-- One worker is enough for an attack on oneself; an attack and an invitation take two. -/
theorem run_deadlocked :
    (∃ s : System Bool, run step (start ∅) (.dispatch true
        (.onAttack 1 0 (some (.player 1, .miss))) :: List.replicate 3 (.advance true)) = .ok s ∧
          s.Deadlocked) ∧
      ∃ s : System Bool, run step (start ∅) ((.dispatch false (.onAskParty 2 1 true true) ::
        [.advance false]) ++ (.dispatch true (.onAttack 1 0 (some (.player 2, .hit))) ::
          List.replicate 3 (.advance true))) = .ok s ∧ s.Deadlocked := by
  constructor
  · have hitself : (Handler.onAttack 1 0 (some (.player 1, .miss))).AttacksItself := ⟨rfl, nofun⟩
    exact attacksItself_deadlocked ∅ true hitself
  · have hinvited : (1 : UInt32) ≠ 2 := by decide
    have hblow : Blow.hit ≠ .notReady := nofun
    exact attack_askParty_deadlocked ∅ Bool.false_ne_true 0 true hinvited hinvited.symm hblow

end Bango.Locks.System
