import Bango.Locks.Proofs.Proper

set_option autoImplicit false

/-! # Runs without a deadlock

While no running handlers cross, a worker inside `World` waits for no worker that waits itself. So a
cycle could only consist of workers that wait for the leader of a party they have left, and each of
these leaders would have left its party after the one that waits for it. -/

namespace Bango.Locks

open Bango.Lib Relation

/-! ## What is still to come of a sequence -/

section Sequences

variable {held : List Mutex} {action : Action Mutex PartyAction} {left : Sequence} {mutex : Mutex}
  {character : Character}

theorem insideWorld_cons_subset :
    insideWorld (heldAfter held action) left ⊆ insideWorld held (action :: left) := by
  intro other hother
  cases action with
  | lock mutex =>
      cases mutex with
      | world => exact hother
      | map index => exact hother
      | character character =>
          unfold insideWorld
          dsimp only
          split
          · exact List.mem_cons_of_mem _ hother
          · exact hother
  | unlock mutex => exact hother
  | act action => exact hother

theorem outsideWorld_cons_subset :
    outsideWorld (heldAfter held action) left ⊆ outsideWorld held (action :: left) := by
  intro other hother
  cases action with
  | lock mutex =>
      unfold outsideWorld
      dsimp only
      split
      · exact hother
      · exact List.mem_append_right _ hother
  | unlock mutex => exact hother
  | act action => exact hother

theorem mem_insideWorld (hworld : .world ∈ held) :
    .character character ∈ insideWorld held (.lock (.character character) :: left) := by
  unfold insideWorld
  dsimp only
  rw [if_pos hworld]
  exact List.mem_cons_self

theorem mem_outsideWorld {other : Mutex} (hworld : .world ∉ held) (hmem : mutex ∈ held) :
    mutex ∈ outsideWorld held (.lock other :: left) := by
  unfold outsideWorld
  dsimp only
  rw [if_neg hworld]
  exact List.mem_append_left _ hmem

end Sequences

namespace System

variable {T : Type} {s s' : System T} {t u : T}

/-! ## The invariant -/

/-- The leader that a worker is about to lock has left the party itself, in another worker. -/
def Follows (s : System T) (t u : T) : Prop :=
  ∃ id last last', s.leader t = some (id, last) ∧ s.leader u = some (last, last')

structure Inv (s : System T) : Prop where
  proper : ∀ t, Proper (s.leader t) (s.workers t).held (s.workers t).left
  mapsInside : ∀ t, MapsInside (s.workers t).held
  exclusive : Exclusive s.workers
  uncrossed : ∀ t u, t ≠ u → ¬ Crosses (s.workers t) (s.workers u)
  leader_left : ∀ t id last, s.leader t = some (id, last) →
    id ∉ s.inParty ∧ .character (.player id) ∈ (s.workers t).held
  acyclic : Acyclic s.Follows

/-! ## No deadlock -/

/-- The next action is to take a mutex. -/
def Waits (s : System T) (t : T) : Prop := ∃ mutex left, (s.workers t).left = .lock mutex :: left

theorem waits_of_waitsFor (h : WaitsFor s.workers t u) : s.Waits t := by
  obtain ⟨_, mutex, left, hleft, _⟩ := h
  exact ⟨mutex, left, hleft⟩

theorem Inv.mayLock (h : s.Inv) {mutex : Mutex} {left : Sequence}
    (hleft : (s.workers t).left = .lock mutex :: left) :
    MayLock (s.leader t) (s.workers t).held mutex := by
  have hproper := h.proper t
  rw [hleft] at hproper
  exact hproper.1

theorem Inv.not_waitsForItself (h : s.Inv) : ¬ WaitsForItself Mutex.Recursive s.workers t := by
  rintro ⟨mutex, left, hleft, hheld, hrecursive⟩
  cases mutex with
  | world => exact hrecursive trivial
  | map index => exact hrecursive trivial
  | character character => exact (h.mayLock hleft).1 hheld

/-- A worker inside `World` waits for no one that waits. -/
theorem Inv.not_world_of_waitsFor (h : s.Inv) (hwaits : WaitsFor s.workers t u) (hu : s.Waits u) :
    .world ∉ (s.workers t).held := by
  obtain ⟨hne, mutex, left, hleft, hheld⟩ := hwaits
  intro hworld
  have hworld' : .world ∉ (s.workers u).held := fun hmem => hne (h.exclusive t u .world hworld hmem)
  cases mutex with
  | world => exact hworld' hheld
  | map index => exact hworld' (h.mapsInside u index hheld)
  | character character =>
      obtain ⟨other, left', hleft'⟩ := hu
      -- Otherwise the one would cross the other.
      refine h.uncrossed t u hne ⟨.character character, ?_, ?_⟩
      · rw [hleft]
        exact mem_insideWorld hworld
      · rw [hleft']
        exact mem_outsideWorld hworld' hheld

/-- Outside `World` a worker that has a mutex waits for the leader of the party that its player has
    left. -/
theorem Inv.leader_of_waitsFor (h : s.Inv) (hwaits : WaitsFor s.workers t u)
    (ht : .world ∉ (s.workers t).held) (hu : .world ∉ (s.workers u).held)
    (hheld : (s.workers t).held ≠ []) :
    ∃ id last, s.leader t = some (id, last) ∧
      (s.workers t).held = [.character (.player id)] ∧
      .character (.player last) ∈ (s.workers u).held := by
  obtain ⟨_, mutex, left, hleft, hmem⟩ := hwaits
  have hmay := h.mayLock hleft
  cases mutex with
  | world => exact absurd hmem hu
  | map index => exact absurd hmay ht
  | character character =>
      rcases hmay.2 ht with hnil | ⟨id, last, hleader, rfl, hlist⟩
      · exact absurd hnil hheld
      · exact ⟨id, last, hleader, hlist, hmem⟩

theorem held_ne_nil_of_waitsFor (h : WaitsFor s.workers t u) : (s.workers u).held ≠ [] := by
  obtain ⟨_, mutex, _, _, hmem⟩ := h
  exact List.ne_nil_of_mem hmem

/-- Someone waits on each worker of a cycle, and it waits itself. -/
theorem waits_of_reflTransGen (h : ReflTransGen (WaitsFor s.workers) t u) (hu : s.Waits u) :
    s.Waits t := by
  rcases h.cases_head with rfl | ⟨v, hv, _⟩
  · exact hu
  · exact waits_of_waitsFor hv

theorem Inv.follows_of_cycle (h : s.Inv) (htu : WaitsFor s.workers t u)
    (hut : TransGen (WaitsFor s.workers) u t) : s.Follows t u := by
  obtain ⟨v, huv, hvt⟩ := TransGen.head'_iff.1 hut
  obtain ⟨w, _, hwt⟩ := TransGen.tail'_iff.1 hut
  have hu := waits_of_waitsFor huv
  have hv := waits_of_reflTransGen hvt (waits_of_waitsFor htu)
  have hworld_t := h.not_world_of_waitsFor htu hu
  have hworld_u := h.not_world_of_waitsFor huv hv
  -- The worker that `u` waits for is on the cycle as well.
  have hworld_v : .world ∉ (s.workers v).held := by
    rcases hvt.cases_head with rfl | ⟨x, hvx, hxt⟩
    · exact hworld_t
    · exact h.not_world_of_waitsFor hvx (waits_of_reflTransGen hxt (waits_of_waitsFor htu))
  obtain ⟨id, last, hleader, _, hmem⟩ :=
    h.leader_of_waitsFor htu hworld_t hworld_u (held_ne_nil_of_waitsFor hwt)
  obtain ⟨id', last', hleader', hlist, _⟩ :=
    h.leader_of_waitsFor huv hworld_u hworld_v (held_ne_nil_of_waitsFor htu)
  rw [hlist, List.mem_singleton, Mutex.character.injEq, Character.player.injEq] at hmem
  subst hmem
  exact ⟨id, last, last', hleader, hleader'⟩

theorem Inv.not_deadlocked (h : s.Inv) : ¬ s.Deadlocked := by
  rintro (⟨t, hitself⟩ | ⟨t, hcycle⟩)
  · exact h.not_waitsForItself hitself
  · exact h.acyclic.of_steps (fun t u => h.follows_of_cycle) t hcycle

end System

end Bango.Locks
