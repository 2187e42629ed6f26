import Bango.Locks.Proofs.DeadlockFree

set_option autoImplicit false

/-! # Every step keeps the invariant

A step changes one worker. It goes on with its sequence, under mutexes that no one else has, or begins
with a sequence that no other one crosses. -/

namespace Bango.Locks.System

open Bango.Lib

variable {T : Type} {s s' : System T} {t : T}

/-! ## Leaders -/

theorem Follows.mono {u : T} (hleader : ∀ v id last, s'.leader v = some (id, last) →
    s.leader v = some (id, last)) (h : s'.Follows t u) : s.Follows t u := by
  obtain ⟨id, last, last', ht, hu⟩ := h
  exact ⟨id, last, last', hleader t _ _ ht, hleader u _ _ hu⟩

/-- The others have none of the mutexes of a worker. -/
theorem Inv.not_held (h : s.Inv) {mutex : Mutex} (hmem : mutex ∈ (s.workers t).held) (u : T)
    (hne : u ≠ t) : mutex ∉ (s.workers u).held :=
  fun hu => hne (h.exclusive u t mutex hu hmem)

theorem start_inv (inParty : Finset UInt32) : (start inParty : System T).Inv where
  proper _ := ⟨rfl, rfl⟩
  mapsInside _ _ hmem := absurd hmem List.not_mem_nil
  exclusive _ _ _ hmem := absurd hmem List.not_mem_nil
  uncrossed _ _ _ := fun ⟨_, hmem, _⟩ => absurd hmem List.not_mem_nil
  leader_left _ _ _ hleader := nomatch hleader
  acyclic := by
    have hnone : Acyclic fun _ _ : T => False := fun _ hcycle => by
      obtain ⟨_, hfalse, _⟩ := Relation.TransGen.head'_iff.1 hcycle
      exact hfalse
    refine hnone.mono fun _ _ hfollows => ?_
    obtain ⟨_, _, _, hleader, _⟩ := hfollows
    exact nomatch hleader

/-! ## One worker -/

variable [DecidableEq T]

/-- The invariant is about the worker that changes, and about the others' leaders only where players
    come to be in a party. -/
theorem Inv.change (h : s.Inv) {worker : Worker Mutex PartyAction}
    (hworkers : s'.workers = Function.update s.workers t worker)
    (hothers : ∀ u, u ≠ t → s'.leader u = s.leader u)
    (hproper : Proper (s'.leader t) worker.held worker.left)
    (hmaps : MapsInside worker.held)
    (hexclusive : ∀ u, u ≠ t → ∀ mutex ∈ worker.held, mutex ∉ (s.workers u).held)
    (huncrossed : ∀ u, u ≠ t →
      ¬ Crosses worker (s.workers u) ∧ ¬ Crosses (s.workers u) worker)
    (hparty : ∀ u, u ≠ t → ∀ id last, s.leader u = some (id, last) → id ∉ s'.inParty)
    (hleader : ∀ id last, s'.leader t = some (id, last) →
      id ∉ s'.inParty ∧ .character (.player id) ∈ worker.held)
    (hacyclic : Acyclic s'.Follows) : s'.Inv := by
  have hforall : ∀ p : T → Worker Mutex PartyAction → Prop, p t worker →
      (∀ u, u ≠ t → p u (s.workers u)) → ∀ u, p u (s'.workers u) := by
    intro p ht hu
    rw [hworkers]
    exact (Function.forall_update_iff s.workers p).2 ⟨ht, hu⟩
  refine ⟨?_, ?_, ?_, ?_, ?_, hacyclic⟩
  · refine hforall (fun u w => Proper (s'.leader u) w.held w.left) hproper fun u hne => ?_
    rw [hothers u hne]
    exact h.proper u
  · exact hforall (fun _ w => MapsInside w.held) hmaps fun u _ => h.mapsInside u
  · refine hforall (fun u w => ∀ v mutex, mutex ∈ w.held → mutex ∈ (s'.workers v).held → u = v)
      ?_ fun u hut => ?_
    · refine hforall (fun v w => ∀ mutex, mutex ∈ worker.held → mutex ∈ w.held → t = v)
        (fun _ _ _ => rfl) fun v hvt mutex ht hv => ?_
      exact absurd hv (hexclusive v hvt mutex ht)
    · refine hforall (fun v w => ∀ mutex, mutex ∈ (s.workers u).held → mutex ∈ w.held → u = v)
        (fun mutex hu ht => ?_) fun v _ => h.exclusive u v
      exact absurd hu (hexclusive u hut mutex ht)
  · refine hforall (fun u w => ∀ v, u ≠ v → ¬ Crosses w (s'.workers v)) ?_ fun u hut => ?_
    · exact hforall (fun v w => t ≠ v → ¬ Crosses worker w) (fun hne => absurd rfl hne)
        fun v hvt _ => (huncrossed v hvt).1
    · exact hforall (fun v w => u ≠ v → ¬ Crosses (s.workers u) w)
        (fun _ => (huncrossed u hut).2) fun v _ => h.uncrossed u v
  · refine hforall (fun u w => ∀ id last, s'.leader u = some (id, last) →
      id ∉ s'.inParty ∧ .character (.player id) ∈ w.held) hleader fun u hne id last hu => ?_
    rw [hothers u hne] at hu
    exact ⟨hparty u hne id last hu, (h.leader_left u id last hu).2⟩

/-! ## Going on -/

/-- A worker goes on after its next action, with the mutexes that this leaves it. -/
theorem Inv.goOn (h : s.Inv) {action : Action Mutex PartyAction} {left : Sequence}
    (hleft : (s.workers t).left = action :: left)
    (hworkers : s'.workers = (s.goOn t left (heldAfter (s.workers t).held action)).workers)
    (hothers : ∀ u, u ≠ t → s'.leader u = s.leader u)
    (hproper : Proper (s'.leader t) (heldAfter (s.workers t).held action) left)
    (hmaps : MapsInside (heldAfter (s.workers t).held action))
    (hexclusive : ∀ u, u ≠ t → ∀ mutex ∈ heldAfter (s.workers t).held action,
      mutex ∉ (s.workers u).held)
    (hparty : ∀ u, u ≠ t → ∀ id last, s.leader u = some (id, last) → id ∉ s'.inParty)
    (hleader : ∀ id last, s'.leader t = some (id, last) →
      id ∉ s'.inParty ∧ .character (.player id) ∈ heldAfter (s.workers t).held action)
    (hacyclic : Acyclic s'.Follows) : s'.Inv := by
  refine h.change hworkers hothers hproper hmaps hexclusive (fun u hne => ?_) hparty hleader hacyclic
  have hself := h.uncrossed t u hne.symm
  have hother := h.uncrossed u t hne
  unfold Crosses at hself hother
  rw [hleft] at hself hother
  -- What is still to come only gets less.
  constructor
  · rintro ⟨mutex, hinside, houtside⟩
    exact hself ⟨mutex, insideWorld_cons_subset hinside, houtside⟩
  · rintro ⟨mutex, hinside, houtside⟩
    exact hother ⟨mutex, hinside, outsideWorld_cons_subset houtside⟩

section Actions

variable {left : Sequence} {mutex : Mutex} {id : UInt32}

/-- What can be locked next is never a map outside `World`. -/
theorem mapsInside_lock {leader : Option (UInt32 × UInt32)} {held : List Mutex}
    (hmay : MayLock leader held mutex) (h : MapsInside held) : MapsInside (mutex :: held) := by
  intro index hmem
  rcases List.mem_cons.1 hmem with rfl | hmem
  · exact List.mem_cons_of_mem _ hmay
  · exact List.mem_cons_of_mem _ (h index hmem)

theorem Inv.lock (h : s.Inv) (hleft : (s.workers t).left = .lock mutex :: left)
    (hgrantable : Grantable Mutex.Recursive s.workers t mutex) :
    Inv { s.goOn t left (mutex :: (s.workers t).held) with
      leader := Function.update s.leader t none } := by
  have hproper := h.proper t
  rw [hleft] at hproper
  obtain ⟨hmay, hproper⟩ := hproper
  have hnone : Function.update s.leader t none t = none := Function.update_self ..
  refine h.goOn hleft rfl (fun u hne => Function.update_of_ne hne _ _) ?_
    (mapsInside_lock hmay (h.mapsInside t)) ?_ (fun u _ id last hu => (h.leader_left u id last hu).1)
    (fun _ _ ht => nomatch hnone.symm.trans ht) ?_
  · show Proper (Function.update s.leader t none t) _ _
    rw [hnone]
    exact hproper
  · intro u hne other hmem hu
    rcases List.mem_cons.1 hmem with rfl | hmem
    · exact hne (hgrantable u hu).1
    · exact h.not_held hmem u hne hu
  · refine h.acyclic.mono fun u v => Follows.mono fun w id last hw => ?_
    by_cases hwt : w = t
    · rw [hwt] at hw
      exact nomatch hnone.symm.trans hw
    · rwa [← Function.update_of_ne hwt none s.leader]

/-- A worker that does not wait for a leader changes who is in a party: only players whose mutexes it
    has come to be in one. -/
theorem Inv.goOn_inParty (h : s.Inv) {action : Action Mutex PartyAction} {inParty : Finset UInt32}
    (hleft : (s.workers t).left = action :: left)
    (hsubset : heldAfter (s.workers t).held action ⊆ (s.workers t).held)
    (hnone : s.leader t = none)
    (hproper : Proper none (heldAfter (s.workers t).held action) left)
    (hmaps : MapsInside (heldAfter (s.workers t).held action))
    (hjoined : ∀ id ∈ inParty, id ∉ s.inParty →
      .character (.player id) ∈ (s.workers t).held) :
    Inv { s.goOn t left (heldAfter (s.workers t).held action) with inParty := inParty } := by
  refine h.goOn hleft rfl (fun _ _ => rfl) ?_ hmaps (fun u hne other hmem =>
    h.not_held (hsubset hmem) u hne) ?_ (fun _ _ ht => nomatch hnone.symm.trans ht) h.acyclic
  · show Proper (s.leader t) _ _
    rwa [hnone]
  · intro u hne id last hu hmem
    obtain ⟨hleftParty, hheld⟩ := h.leader_left u id last hu
    exact h.not_held (hjoined id hmem hleftParty) u hne hheld

theorem Inv.unlock (h : s.Inv) (hleft : (s.workers t).left = .unlock mutex :: left) :
    (s.goOn t left ((s.workers t).held.erase mutex)).Inv := by
  have hproper := h.proper t
  rw [hleft] at hproper
  obtain ⟨hnone, hmaps, hproper⟩ := hproper
  exact h.goOn_inParty hleft List.erase_subset hnone hproper hmaps
    fun id hmem hnot => absurd hmem hnot

theorem Inv.act (h : s.Inv) {action : PartyAction} {inParty : Finset UInt32}
    (hleft : (s.workers t).left = .act action :: left) (hnone : s.leader t = none)
    (hproper : Proper none (s.workers t).held left)
    (hjoined : ∀ id ∈ inParty, id ∉ s.inParty →
      .character (.player id) ∈ (s.workers t).held) :
    Inv { s.goOn t left (s.workers t).held with inParty := inParty } :=
  h.goOn_inParty hleft (List.Subset.refl _) hnone hproper (h.mapsInside t) hjoined

/-- The last member is in the party still, so that no worker has it as a player that has left. -/
theorem Inv.leave_last (h : s.Inv) {last : UInt32}
    (hleft : (s.workers t).left = .act (.leave id (some last)) :: left)
    (hlast : last ∈ s.inParty.erase id) :
    Inv { s.goOn t left (s.workers t).held with
      inParty := s.inParty.erase id
      leader := Function.update s.leader t (some (id, last)) } := by
  obtain ⟨hne, hinParty⟩ := Finset.mem_erase.1 hlast
  have hproper := h.proper t
  rw [hleft] at hproper
  obtain ⟨_, hheld, hproper⟩ := hproper
  have hself : Function.update s.leader t (some (id, last)) t = some (id, last) :=
    Function.update_self ..
  have hother : ∀ {u}, u ≠ t → Function.update s.leader t (some (id, last)) u = s.leader u :=
    fun hut => Function.update_of_ne hut _ _
  have hsink : ∀ u, ¬ Follows { s.goOn t left (s.workers t).held with
      inParty := s.inParty.erase id
      leader := Function.update s.leader t (some (id, last)) } t u := by
    rintro u ⟨other, last', last'', ht, hu⟩
    obtain ⟨_, rfl⟩ := Prod.mk.inj (Option.some.inj (hself.symm.trans ht))
    by_cases hut : u = t
    · rw [hut] at hu
      exact hne (congrArg Prod.fst (Option.some.inj (hself.symm.trans hu))).symm
    · exact (h.leader_left u last last'' ((hother hut).symm.trans hu)).1 hinParty
  refine h.goOn hleft rfl (fun u hut => hother hut) ?_ (h.mapsInside t)
    (fun u hut other hmem => h.not_held hmem u hut)
    (fun u _ other last' hu hmem => (h.leader_left u other last' hu).1 (Finset.mem_of_mem_erase hmem))
    ?_ (h.acyclic.add_sink hsink ?_)
  · show Proper (Function.update s.leader t (some (id, last)) t) _ _
    rw [hself]
    exact hproper fun heq => hne (Option.some.inj heq)
  · intro other last' ht
    obtain ⟨rfl, _⟩ := Prod.mk.inj (Option.some.inj (hself.symm.trans ht))
    refine ⟨Finset.notMem_erase _ _, ?_⟩
    show _ ∈ (s.workers t).held
    rw [hheld]
    exact List.mem_singleton_self _
  · intro u v hvt hfollows
    by_cases hut : u = t
    · rw [hut] at hfollows
      exact absurd hfollows (hsink v)
    · obtain ⟨other, last', last'', hu, hv⟩ := hfollows
      exact ⟨other, last', last'', (hother hut).symm.trans hu, (hother hvt).symm.trans hv⟩

end Actions

/-! ## Steps and runs -/

theorem Inv.dispatch (h : s.Inv) {handler : Handler} (hidle : (s.workers t).left = [])
    (hallowed : s.Allowed (.dispatch t handler)) :
    (s.goOn t handler.sequence (s.workers t).held).Inv := by
  obtain ⟨hitself, huncrossed⟩ := hallowed
  have hproper := h.proper t
  rw [hidle] at hproper
  obtain ⟨hnone, hheld⟩ := hproper
  rw [hheld]
  refine h.change rfl (fun _ _ => rfl) ?_ ?_ ?_ huncrossed
    (fun u _ id last hu => (h.leader_left u id last hu).1)
    (fun _ _ ht => nomatch hnone.symm.trans ht) h.acyclic
  · show Proper (s.leader t) _ _
    rw [hnone]
    exact sequence_proper hitself
  · exact fun _ hmem => absurd hmem List.not_mem_nil
  · exact fun _ _ _ hmem => absurd hmem List.not_mem_nil

variable [Fintype T]

theorem Inv.advance (h : s.Inv) (hadvance : s.advance t = .ok s') : s'.Inv := by
  have hproper := h.proper t
  unfold System.advance at hadvance
  dsimp only at hadvance
  split at hadvance
  next => exact nomatch hadvance
  next mutex left hleft =>
      split at hadvance
      next hgrantable =>
          cases hadvance
          exact h.lock hleft hgrantable
      next => exact nomatch hadvance
  next mutex left hleft =>
      cases hadvance
      exact h.unlock hleft
  next id left hleft =>
      cases hadvance
      rw [hleft] at hproper
      obtain ⟨hnone, _, hproper⟩ := hproper
      exact h.act hleft hnone (hproper nofun) fun other hmem hnot =>
        absurd (Finset.mem_of_mem_erase hmem) hnot
  next id last left hleft =>
      split at hadvance
      next hlast =>
          cases hadvance
          exact h.leave_last hleft hlast
      next => exact nomatch hadvance
  next ids left hleft =>
      cases hadvance
      rw [hleft] at hproper
      obtain ⟨hnone, hheld, hproper⟩ := hproper
      refine h.act hleft hnone hproper fun id hmem hnot => hheld id ?_
      rcases Finset.mem_union.1 hmem with hmem | hmem
      · exact absurd hmem hnot
      · exact List.mem_toFinset.1 hmem
  next id left hleft =>
      cases hadvance
      rw [hleft] at hproper
      exact h.act hleft hproper.1 hproper.2 fun other hmem hnot =>
        absurd (Finset.mem_of_mem_erase hmem) hnot

theorem Inv.step {event : Event T} (h : s.Inv) (hallowed : s.Allowed event)
    (hstep : s.step event = .ok s') : s'.Inv := by
  cases event with
  | dispatch t handler =>
      unfold System.step at hstep
      dsimp only at hstep
      split at hstep
      next hidle =>
          cases hstep
          exact h.dispatch hidle hallowed
      next => exact nomatch hstep
  | advance t => exact h.advance hstep

/-- No worker waits for itself and none wait for each other, as long as no player attacks itself and
    no handler begins while one is running that crosses it. -/
theorem run_not_deadlocked {inParty : Finset UInt32} {events : List (Event T)}
    (hadmissible : Admissible step Allowed (start inParty) events)
    (hrun : run step (start inParty) events = .ok s) : ¬ s.Deadlocked :=
  (run_invariant (fun _ _ _ h hallowed hstep => h.step hallowed hstep) (start_inv inParty)
    hadmissible hrun).not_deadlocked

theorem run_not_deadlocked_attackAndAskParty :
    ∃ s : System Bool, run step (start ∅) [.dispatch false (.onAttack 1 0 (some (.monster 4, .hit))),
        .advance false, .advance false, .dispatch true (.onAskParty 2 3 true true), .advance true,
        .advance false] = .ok s ∧ ¬ s.Deadlocked := by
  refine Exists.imp (fun s hrun => ⟨hrun, run_not_deadlocked ?_ hrun⟩) ⟨_, rfl⟩
  decide

end Bango.Locks.System
