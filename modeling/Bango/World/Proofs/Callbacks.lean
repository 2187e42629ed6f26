import Mathlib.Data.Finset.Basic
import Bango.World.Map

set_option autoImplicit false

/-! # The callbacks of one operation

The loops of `WorldMap` over the containers of a query as one loop over the characters around, and
what the views are after callbacks that are appearances only, or disappearances only. -/

namespace Bango.World

open Bango.Lib Bango.Space

/-! ## Delivering callbacks -/

/-- The view that an appearance changes. -/
def Event.appeared : Event → Option (Character × Character)
  | .appear p e _ => if e.kind = .loot then none else some (p, e)
  | _ => none

/-- The view that a disappearance changes. -/
def Event.disappeared : Event → Option (Character × Character)
  | .disappear p e => if e.kind = .loot then none else some (p, e)
  | _ => none

/-- The view that a move is about. -/
def Event.moved : Event → Option (Character × Character)
  | .move p e .. => if e.kind = .loot then none else some (p, e)
  | _ => none

theorem deliver_of_appeared {views : Views} {ev : Event} {x : Character × Character}
    (h : ev.appeared = some x) (hx : x ∉ views) : deliver views ev = .ok (insert x views) := by
  cases ev with
  | appear p e spawn =>
      simp only [Event.appeared] at h
      by_cases hloot : e.kind = .loot
      · simp [hloot] at h
      · rw [if_neg hloot] at h
        obtain rfl := Option.some.inj h
        simp only [deliver, if_neg hloot, if_neg hx]
  | disappear => cases h
  | move => cases h

theorem deliver_of_disappeared {views : Views} {ev : Event} {x : Character × Character}
    (h : ev.disappeared = some x) (hx : x ∈ views) : deliver views ev = .ok (views.erase x) := by
  cases ev with
  | disappear p e =>
      simp only [Event.disappeared] at h
      by_cases hloot : e.kind = .loot
      · simp [hloot] at h
      · rw [if_neg hloot] at h
        obtain rfl := Option.some.inj h
        simp only [deliver, if_neg hloot, if_pos hx]
  | appear => cases h
  | move => cases h

theorem deliver_of_neither {views : Views} {ev : Event} (happ : ev.appeared = none)
    (hdis : ev.disappeared = none) (hmoved : ∀ x ∈ ev.moved, x ∈ views) :
    deliver views ev = .ok views := by
  cases ev with
  | appear p e spawn =>
      by_cases hloot : e.kind = .loot
      · simp only [deliver, if_pos hloot]
      · simp [Event.appeared, hloot] at happ
  | disappear p e =>
      by_cases hloot : e.kind = .loot
      · simp only [deliver, if_pos hloot]
      · simp [Event.disappeared, hloot] at hdis
  | move p e dx dy dz stop =>
      by_cases hloot : e.kind = .loot
      · simp only [deliver, if_pos hloot]
      · have hseen : (p, e) ∈ views := hmoved (p, e) (by simp [Event.moved, hloot])
        simp only [deliver, if_neg hloot, if_pos hseen]

/-- What the callbacks of a list move: what the first one moves, and the rest. -/
theorem moved_cons {views : Views} {ev : Event} {events : List Event}
    (h : ∀ x ∈ (ev :: events).filterMap Event.moved, x ∈ views) :
    (∀ x ∈ ev.moved, x ∈ views) ∧ ∀ x ∈ events.filterMap Event.moved, x ∈ views := by
  constructor
  · intro x hx
    exact h x (List.mem_filterMap.2 ⟨ev, List.mem_cons_self, hx⟩)
  · intro x hx
    obtain ⟨ev', hmem, hmoved⟩ := List.mem_filterMap.1 hx
    exact h x (List.mem_filterMap.2 ⟨ev', List.mem_cons_of_mem ev hmem, hmoved⟩)

/-- Appearances of different characters, none of them in view, are added to the views. What moves
    meanwhile has been in view before. -/
theorem run_deliver_appears (views : Views) {events : List Event}
    (hdis : events.filterMap Event.disappeared = [])
    (hmoved : ∀ x ∈ events.filterMap Event.moved, x ∈ views)
    (hnodup : (events.filterMap Event.appeared).Nodup)
    (hnew : ∀ x ∈ events.filterMap Event.appeared, x ∉ views) :
    ∃ views', run deliver views events = .ok views' ∧
      ∀ x, x ∈ views' ↔ x ∈ views ∨ x ∈ events.filterMap Event.appeared := by
  induction events generalizing views with
  | nil => exact ⟨views, rfl, by simp⟩
  | cons ev events ih =>
      rw [List.filterMap_eq_nil_iff, List.forall_mem_cons, ← List.filterMap_eq_nil_iff] at hdis
      cases happ : ev.appeared with
      | none =>
          rw [List.filterMap_cons_none happ] at hnodup hnew ⊢
          rw [run_cons_ok events (deliver_of_neither happ hdis.1 (moved_cons hmoved).1)]
          exact ih _ hdis.2 (moved_cons hmoved).2 hnodup hnew
      | some x =>
          rw [List.filterMap_cons_some happ] at hnodup hnew ⊢
          obtain ⟨hx, hnodup⟩ := List.nodup_cons.1 hnodup
          rw [run_cons_ok events (deliver_of_appeared happ (hnew x List.mem_cons_self))]
          have hnew' : ∀ y ∈ events.filterMap Event.appeared, y ∉ insert x views := by
            intro y hy hin
            rcases Finset.mem_insert.1 hin with rfl | hin
            · exact hx hy
            · exact hnew y (List.mem_cons_of_mem x hy) hin
          have hmoved' : ∀ y ∈ events.filterMap Event.moved, y ∈ insert x views := fun y hy =>
            Finset.mem_insert_of_mem ((moved_cons hmoved).2 y hy)
          obtain ⟨views', hrun, hmem⟩ := ih _ hdis.2 hmoved' hnodup hnew'
          refine ⟨views', hrun, fun y => ?_⟩
          rw [hmem, Finset.mem_insert, List.mem_cons]
          tauto

/-- Disappearances of different characters, all of them in view, are taken from the views. -/
theorem run_deliver_disappears (views : Views) {events : List Event}
    (happ : events.filterMap Event.appeared = [])
    (hmoved : events.filterMap Event.moved = [])
    (hnodup : (events.filterMap Event.disappeared).Nodup)
    (hold : ∀ x ∈ events.filterMap Event.disappeared, x ∈ views) :
    ∃ views', run deliver views events = .ok views' ∧
      ∀ x, x ∈ views' ↔ x ∈ views ∧ x ∉ events.filterMap Event.disappeared := by
  induction events generalizing views with
  | nil => exact ⟨views, rfl, by simp⟩
  | cons ev events ih =>
      rw [List.filterMap_eq_nil_iff, List.forall_mem_cons, ← List.filterMap_eq_nil_iff] at happ hmoved
      cases hdis : ev.disappeared with
      | none =>
          rw [List.filterMap_cons_none hdis] at hnodup hold ⊢
          have hstill : ∀ x ∈ ev.moved, x ∈ views := by simp [hmoved.1]
          rw [run_cons_ok events (deliver_of_neither happ.1 hdis hstill)]
          exact ih _ happ.2 hmoved.2 hnodup hold
      | some x =>
          rw [List.filterMap_cons_some hdis] at hnodup hold ⊢
          obtain ⟨hx, hnodup⟩ := List.nodup_cons.1 hnodup
          rw [run_cons_ok events (deliver_of_disappeared hdis (hold x List.mem_cons_self))]
          have hold' : ∀ y ∈ events.filterMap Event.disappeared, y ∈ views.erase x := by
            intro y hy
            refine Finset.mem_erase.2 ⟨?_, hold y (List.mem_cons_of_mem x hy)⟩
            intro heq
            exact hx (heq ▸ hy)
          obtain ⟨views', hrun, hmem⟩ := ih _ happ.2 hmoved.2 hnodup hold'
          refine ⟨views', hrun, fun y => ?_⟩
          rw [hmem, Finset.mem_erase, List.mem_cons]
          tauto

/-! ## The loops over a container -/

namespace Container

/-- All characters of a container, in the order of the loops. -/
def all (c : Container) : List Character := c.players ++ c.npcs ++ c.monsters ++ c.loots

/-- Each character is filed under its type. -/
structure Typed (c : Container) : Prop where
  players : ∀ x ∈ c.players, x.kind = .player
  npcs : ∀ x ∈ c.npcs, x.kind = .npc
  monsters : ∀ x ∈ c.monsters, x.kind = .monster
  loots : ∀ x ∈ c.loots, x.kind = .loot

end Container

/-- The callbacks about one character around `entity`: other players are told of `entity`, and
    `entity` is told of the others when it is a player. -/
def visit (entity : Character) (onPlayer onOther onLoot : Character → List Event)
    (x : Character) : List Event :=
  match x.kind with
  | .player => onPlayer x
  | .npc | .monster => if entity.kind = .player then onOther x else []
  | .loot => if entity.kind = .player then onLoot x else []

theorem loops_eq_visit {c : Container} (hc : c.Typed) (entity : Character)
    (onPlayer onOther onLoot : Character → List Event) :
    (c.players.flatMap onPlayer ++
      if entity.kind ≠ .player then []
      else c.npcs.flatMap onOther ++ c.monsters.flatMap onOther ++ c.loots.flatMap onLoot) =
      c.all.flatMap (visit entity onPlayer onOther onLoot) := by
  have hplayers : c.players.flatMap (visit entity onPlayer onOther onLoot) =
      c.players.flatMap onPlayer :=
    List.flatMap_congr fun x hx => by simp only [visit, hc.players x hx]
  have hnpcs : c.npcs.flatMap (visit entity onPlayer onOther onLoot) =
      c.npcs.flatMap fun x => if entity.kind = .player then onOther x else [] :=
    List.flatMap_congr fun x hx => by simp only [visit, hc.npcs x hx]
  have hmonsters : c.monsters.flatMap (visit entity onPlayer onOther onLoot) =
      c.monsters.flatMap fun x => if entity.kind = .player then onOther x else [] :=
    List.flatMap_congr fun x hx => by simp only [visit, hc.monsters x hx]
  have hloots : c.loots.flatMap (visit entity onPlayer onOther onLoot) =
      c.loots.flatMap fun x => if entity.kind = .player then onLoot x else [] :=
    List.flatMap_congr fun x hx => by simp only [visit, hc.loots x hx]
  unfold Container.all
  simp only [List.flatMap_append, hplayers, hnpcs, hmonsters, hloots]
  by_cases h : entity.kind = .player
  · simp [h]
  · simp [h]

theorem loops_eq_visit_of_no_loots {c : Container} (hc : c.Typed) (entity : Character)
    (onPlayer onOther : Character → List Event) :
    (c.players.flatMap onPlayer ++
      if entity.kind ≠ .player then [] else c.npcs.flatMap onOther ++ c.monsters.flatMap onOther) =
      c.all.flatMap (visit entity onPlayer onOther fun _ => []) := by
  have hloops := loops_eq_visit hc entity onPlayer onOther fun _ => []
  have hnone : (c.loots.flatMap fun _ => []) = ([] : List Event) := by simp
  rwa [hnone, List.append_nil] at hloops

theorem loop_eq_visit {c : Container} (hc : c.Typed) (entity : Character)
    (onPlayer : Character → List Event) :
    c.players.flatMap onPlayer = c.all.flatMap (visit entity onPlayer (fun _ => []) fun _ => []) := by
  rw [← loops_eq_visit_of_no_loots hc]
  simp

/-! ## Who is told of whom -/

/-- The views that two characters in sight of each other are in: each in the other's, if the other is
    a player. -/
def meeting (entity x : Character) : List (Character × Character) :=
  (if x.kind = .player ∧ entity.kind ≠ .loot then [(x, entity)] else []) ++
  if entity.kind = .player ∧ x.kind ≠ .loot then [(entity, x)] else []

theorem mem_meeting {entity x : Character} {v : Character × Character} :
    v ∈ meeting entity x ↔
      (v = (x, entity) ∨ v = (entity, x)) ∧ v.1.kind = .player ∧ v.2.kind ≠ .loot := by
  unfold meeting
  constructor
  · intro h
    rcases List.mem_append.1 h with h | h
    · split_ifs at h with hk
      · obtain rfl := List.mem_singleton.1 h
        exact ⟨.inl rfl, hk⟩
      · cases h
    · split_ifs at h with hk
      · obtain rfl := List.mem_singleton.1 h
        exact ⟨.inr rfl, hk⟩
      · cases h
  · intro h
    obtain ⟨rfl | rfl, hk⟩ := h
    · exact List.mem_append_left _ (by rw [if_pos hk]; exact List.mem_singleton_self _)
    · exact List.mem_append_right _ (by rw [if_pos hk]; exact List.mem_singleton_self _)

theorem meeting_sublist (entity x : Character) :
    (meeting entity x).Sublist [(x, entity), (entity, x)] := by
  unfold meeting
  split_ifs <;> simp

/-- What `entity` is in the view of, when the views of `entity` itself do not count. -/
def seenBy (entity x : Character) : List (Character × Character) :=
  if x.kind = .player ∧ entity.kind ≠ .loot then [(x, entity)] else []

theorem mem_seenBy {entity x : Character} {v : Character × Character} :
    v ∈ seenBy entity x ↔ v = (x, entity) ∧ v.1.kind = .player ∧ v.2.kind ≠ .loot := by
  unfold seenBy
  split_ifs with hk
  · rw [List.mem_singleton]
    exact ⟨fun h => ⟨h, h ▸ hk⟩, And.left⟩
  · simp only [List.not_mem_nil, false_iff, not_and]
    rintro rfl hplayer
    exact fun hloot => hk ⟨hplayer, hloot⟩

theorem meeting_of_seenBy {entity x : Character} {v : Character × Character}
    (h : v ∈ seenBy entity x) : v ∈ meeting entity x :=
  mem_meeting.2 ⟨.inl (mem_seenBy.1 h).1, (mem_seenBy.1 h).2⟩

theorem seenBy_sublist (entity x : Character) :
    (seenBy entity x).Sublist [(x, entity), (entity, x)] := by
  unfold seenBy
  split_ifs <;> simp

/-- A loop over different characters changes different views. -/
theorem nodup_flatMap_of_sublist {entity : Character} {around : List Character}
    (hnodup : around.Nodup) (hentity : entity ∉ around)
    {f : Character → List (Character × Character)}
    (hf : ∀ x ∈ around, (f x).Sublist [(x, entity), (entity, x)]) : (around.flatMap f).Nodup := by
  rw [List.nodup_flatMap]
  have hne : ∀ x ∈ around, x ≠ entity := fun x hx heq => hentity (heq ▸ hx)
  constructor
  · intro x hx
    refine (hf x hx).nodup ?_
    have := hne x hx
    simp [this]
  · refine List.Pairwise.imp_of_mem (fun {x y} hx hy hxy v hvx hvy => ?_) hnodup
    -- a view of both would have `entity` on one side and `x` and `y` on the other
    have hv := (hf x hx).subset hvx
    have hv' := (hf y hy).subset hvy
    have hxe := hne x hx
    have hye := hne y hy
    simp only [List.mem_cons, List.not_mem_nil, or_false] at hv hv'
    rcases hv with rfl | rfl <;> rcases hv' with h | h <;> cases h
    · exact hxy rfl
    · exact hxe rfl
    · exact hye rfl
    · exact hxy rfl

end Bango.World
