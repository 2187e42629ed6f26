import Bango.World.Proofs.Callbacks

set_option autoImplicit false

/-! # The callbacks of one query

What the map relies on in the quadtree (`Quadtree.IsSet`), and which views change when the callbacks
of a query are delivered. -/

namespace Bango.World

open Bango.Lib Bango.Space

variable {Q : Type} {tree : Quadtree Q} {sight : Int} {boundary : Square}
  {Stores : Q → (Character → Point) → Finset Character → Prop}

/-- All characters that a query hands over. -/
def Quadtree.around (tree : Quadtree Q) (q : Q) (center : Point) (radius : Int) : List Character :=
  (tree.query q center radius).flatMap Container.all

/-- The quadtree is a set of characters with complete range queries. `Stores q position s` says that
    `q` stores the characters of `s` at their positions. -/
structure Quadtree.IsSet (tree : Quadtree Q) (boundary : Square)
    (Stores : Q → (Character → Point) → Finset Character → Prop) : Prop where
  /-- Only the positions of stored characters matter. -/
  congr : ∀ {q position position' s}, Stores q position s →
    (∀ x ∈ s, position' x = position x) → Stores q position' s
  insert : ∀ {q position s e}, Stores q position s → e ∉ s → boundary.InBoundary (position e) →
    ∃ q', tree.insert position e q = some q' ∧ Stores q' position (Insert.insert e s)
  remove : ∀ {q position s e}, Stores q position s → e ∈ s →
    ∃ q', tree.remove position e q = some q' ∧ Stores q' position (s.erase e)
  /-- A query hands over each stored character in its range, -/
  complete : ∀ {q position s}, Stores q position s → ∀ center radius, ∀ x ∈ s,
    InSight radius (position x) center → x ∈ tree.around q center radius
  /-- nothing else but stored characters, -/
  stored : ∀ {q position s}, Stores q position s → ∀ center radius,
    ∀ x ∈ tree.around q center radius, x ∈ s
  /-- each of them once, -/
  nodup : ∀ {q position s}, Stores q position s → ∀ center radius,
    (tree.around q center radius).Nodup
  /-- and under its type. -/
  typed : ∀ {q position s}, Stores q position s → ∀ center radius,
    ∀ c ∈ tree.query q center radius, c.Typed

/-! ## The callbacks of a query -/

section

variable {m : WorldMap Q} {entity : Character}

/-- A loop over the containers of a query is a loop over the characters around. -/
theorem filterMap_query {change : Event → Option (Character × Character)} {q : Q} {center : Point}
    {radius : Int} {events : Container → List Event}
    {f : Character → List (Character × Character)}
    (h : ∀ c ∈ tree.query q center radius, (events c).filterMap change = c.all.flatMap f) :
    ((tree.query q center radius).flatMap events).filterMap change =
      (tree.around q center radius).flatMap f := by
  unfold Quadtree.around
  rw [List.filterMap_flatMap, List.flatMap_assoc]
  exact List.flatMap_congr h

theorem appeared_addEvents {c : Container} (hc : c.Typed) :
    (m.addEvents sight entity c).filterMap Event.appeared = c.all.flatMap fun x =>
      if InSight sight (m.position x) (m.position entity) then meeting entity x else [] := by
  unfold WorldMap.addEvents
  rw [loops_eq_visit hc, List.filterMap_flatMap]
  refine List.flatMap_congr fun x _ => ?_
  by_cases hsight : InSight sight (m.position x) (m.position entity)
  · cases hx : x.kind <;> cases he : entity.kind <;>
      simp [visit, meeting, Event.appeared, hsight, hx, he]
  · cases hx : x.kind <;> simp [visit, hsight, hx]

theorem disappeared_addEvents {c : Container} (hc : c.Typed) :
    (m.addEvents sight entity c).filterMap Event.disappeared = c.all.flatMap fun _ => [] := by
  unfold WorldMap.addEvents
  rw [loops_eq_visit hc, List.filterMap_flatMap]
  refine List.flatMap_congr fun x _ => ?_
  by_cases hsight : InSight sight (m.position x) (m.position entity)
  · cases hx : x.kind <;> cases he : entity.kind <;>
      simp [visit, Event.disappeared, hsight, hx, he]
  · cases hx : x.kind <;> simp [visit, hsight, hx]

theorem moved_addEvents {c : Container} (hc : c.Typed) :
    (m.addEvents sight entity c).filterMap Event.moved = c.all.flatMap fun _ => [] := by
  unfold WorldMap.addEvents
  rw [loops_eq_visit hc, List.filterMap_flatMap]
  refine List.flatMap_congr fun x _ => ?_
  by_cases hsight : InSight sight (m.position x) (m.position entity)
  · cases hx : x.kind <;> cases he : entity.kind <;> simp [visit, Event.moved, hsight, hx, he]
  · cases hx : x.kind <;> simp [visit, hsight, hx]

/-- Only players are told of a removal. -/
theorem disappeared_removeEvents {c : Container} (hc : c.Typed) :
    (m.removeEvents sight entity c).filterMap Event.disappeared = c.all.flatMap fun x =>
      if InSight sight (m.position x) (m.position entity) then seenBy entity x else [] := by
  unfold WorldMap.removeEvents
  rw [loop_eq_visit hc entity, List.filterMap_flatMap]
  refine List.flatMap_congr fun x _ => ?_
  by_cases hsight : InSight sight (m.position x) (m.position entity)
  · cases hx : x.kind <;> cases he : entity.kind <;>
      simp [visit, seenBy, Event.disappeared, hsight, hx, he]
  · cases hx : x.kind <;> simp [visit, hsight, hx]

theorem appeared_removeEvents {c : Container} (hc : c.Typed) :
    (m.removeEvents sight entity c).filterMap Event.appeared = c.all.flatMap fun _ => [] := by
  unfold WorldMap.removeEvents
  rw [loop_eq_visit hc entity, List.filterMap_flatMap]
  refine List.flatMap_congr fun x _ => ?_
  by_cases hsight : InSight sight (m.position x) (m.position entity)
  · cases hx : x.kind <;> simp [visit, Event.appeared, hsight, hx]
  · cases hx : x.kind <;> simp [visit, hsight, hx]

theorem moved_removeEvents {c : Container} (hc : c.Typed) :
    (m.removeEvents sight entity c).filterMap Event.moved = c.all.flatMap fun _ => [] := by
  unfold WorldMap.removeEvents
  rw [loop_eq_visit hc entity, List.filterMap_flatMap]
  refine List.flatMap_congr fun x _ => ?_
  by_cases hsight : InSight sight (m.position x) (m.position entity)
  · cases hx : x.kind <;> simp [visit, Event.moved, hsight, hx]
  · cases hx : x.kind <;> simp [visit, hsight, hx]

theorem disappeared_moveOldEvents {c : Container} (hc : c.Typed) (old new : Point) :
    (m.moveOldEvents sight entity old new c).filterMap Event.disappeared = c.all.flatMap fun x =>
      if InSight sight (m.position x) old ∧ ¬ InSight sight (m.position x) new then
        meeting entity x else [] := by
  unfold WorldMap.moveOldEvents
  rw [loops_eq_visit hc, List.filterMap_flatMap]
  refine List.flatMap_congr fun x _ => ?_
  by_cases hsight : InSight sight (m.position x) old ∧ ¬ InSight sight (m.position x) new
  · cases hx : x.kind <;> cases he : entity.kind <;>
      simp [visit, meeting, Event.disappeared, hsight, hx, he]
  · cases hx : x.kind <;> simp [visit, hsight, hx]

theorem appeared_moveOldEvents {c : Container} (hc : c.Typed) (old new : Point) :
    (m.moveOldEvents sight entity old new c).filterMap Event.appeared =
      c.all.flatMap fun _ => [] := by
  unfold WorldMap.moveOldEvents
  rw [loops_eq_visit hc, List.filterMap_flatMap]
  refine List.flatMap_congr fun x _ => ?_
  by_cases hsight : InSight sight (m.position x) old ∧ ¬ InSight sight (m.position x) new
  · cases hx : x.kind <;> cases he : entity.kind <;>
      simp [visit, Event.appeared, hsight, hx, he]
  · cases hx : x.kind <;> simp [visit, hsight, hx]

theorem moved_moveOldEvents {c : Container} (hc : c.Typed) (old new : Point) :
    (m.moveOldEvents sight entity old new c).filterMap Event.moved = c.all.flatMap fun _ => [] := by
  unfold WorldMap.moveOldEvents
  rw [loops_eq_visit hc, List.filterMap_flatMap]
  refine List.flatMap_congr fun x _ => ?_
  by_cases hsight : InSight sight (m.position x) old ∧ ¬ InSight sight (m.position x) new
  · cases hx : x.kind <;> cases he : entity.kind <;> simp [visit, Event.moved, hsight, hx, he]
  · cases hx : x.kind <;> simp [visit, hsight, hx]

theorem appeared_moveNewEvents {c : Container} (hc : c.Typed) (old new : Point)
    (dx dy dz : Int8) (stop : Bool) :
    (m.moveNewEvents sight entity old new dx dy dz stop c).filterMap Event.appeared =
      c.all.flatMap fun x =>
        if ¬ InSight sight (m.position x) old ∧ InSight sight (m.position x) new then
          meeting entity x else [] := by
  unfold WorldMap.moveNewEvents
  rw [loops_eq_visit_of_no_loots hc, List.filterMap_flatMap]
  refine List.flatMap_congr fun x _ => ?_
  by_cases hold : InSight sight (m.position x) old
  · cases hx : x.kind <;> simp [visit, Event.appeared, hold, hx]
  · by_cases hnew : InSight sight (m.position x) new
    · cases hx : x.kind <;> cases he : entity.kind <;>
        simp [visit, meeting, Event.appeared, hold, hnew, hx, he]
    · cases hx : x.kind <;> simp [visit, hold, hnew, hx]

theorem disappeared_moveNewEvents {c : Container} (hc : c.Typed) (old new : Point)
    (dx dy dz : Int8) (stop : Bool) :
    (m.moveNewEvents sight entity old new dx dy dz stop c).filterMap Event.disappeared =
      c.all.flatMap fun _ => [] := by
  unfold WorldMap.moveNewEvents
  rw [loops_eq_visit_of_no_loots hc, List.filterMap_flatMap]
  refine List.flatMap_congr fun x _ => ?_
  by_cases hold : InSight sight (m.position x) old
  · cases hx : x.kind <;> simp [visit, Event.disappeared, hold, hx]
  · by_cases hnew : InSight sight (m.position x) new
    · cases hx : x.kind <;> cases he : entity.kind <;>
        simp [visit, Event.disappeared, hold, hnew, hx, he]
    · cases hx : x.kind <;> simp [visit, hold, hnew, hx]

/-- Only players that had the character in sight, and still have, are told of the move. -/
theorem moved_moveNewEvents {c : Container} (hc : c.Typed) (old new : Point)
    (dx dy dz : Int8) (stop : Bool) :
    (m.moveNewEvents sight entity old new dx dy dz stop c).filterMap Event.moved =
      c.all.flatMap fun x =>
        if InSight sight (m.position x) old ∧ InSight sight (m.position x) new then
          seenBy entity x else [] := by
  unfold WorldMap.moveNewEvents
  rw [loops_eq_visit_of_no_loots hc, List.filterMap_flatMap]
  refine List.flatMap_congr fun x _ => ?_
  by_cases hold : InSight sight (m.position x) old
  · by_cases hnew : InSight sight (m.position x) new
    · cases hx : x.kind <;> cases he : entity.kind <;>
        simp [visit, seenBy, Event.moved, hold, hnew, hx, he]
    · cases hx : x.kind <;> simp [visit, hold, hnew, hx]
  · by_cases hnew : InSight sight (m.position x) new
    · cases hx : x.kind <;> cases he : entity.kind <;>
        simp [visit, Event.moved, hold, hnew, hx, he]
    · cases hx : x.kind <;> simp [visit, hold, hnew, hx]

end

/-! ## One query -/

namespace Quadtree.IsSet

variable {q : Q} {position : Character → Point} {s : Finset Character} {entity : Character}
  {center : Point} {events : Container → List Event} {views : Views}
  {f g : Character → List (Character × Character)}

/-- In range, what a query hands over is what is stored. -/
theorem exists_around_iff (htree : tree.IsSet boundary Stores) (hq : Stores q position s)
    {R : Character → Prop} :
    (∃ x ∈ tree.around q center sight, InSight sight (position x) center ∧ R x) ↔
      ∃ x ∈ s, InSight sight (position x) center ∧ R x := by
  constructor
  · intro h
    obtain ⟨x, hx, hin, hR⟩ := h
    exact ⟨x, htree.stored hq center sight x hx, hin, hR⟩
  · intro h
    obtain ⟨x, hx, hin, hR⟩ := h
    exact ⟨x, htree.complete hq center sight x hx hin, hin, hR⟩

theorem nodup_changes (htree : tree.IsSet boundary Stores) (hq : Stores q position s)
    (he : entity ∉ s) (hsub : ∀ x, (f x).Sublist [(x, entity), (entity, x)]) :
    ((tree.around q center sight).flatMap f).Nodup :=
  nodup_flatMap_of_sublist (htree.nodup hq center sight)
    (fun h => he (htree.stored hq center sight entity h)) fun x _ => hsub x

variable (sight center events views) in
/-- A query whose callbacks are appearances, and moves of what is in view. -/
theorem run_appears (htree : tree.IsSet boundary Stores) (hq : Stores q position s)
    (he : entity ∉ s) (hsub : ∀ x, (f x).Sublist [(x, entity), (entity, x)])
    (happ : ∀ c : Container, c.Typed → (events c).filterMap Event.appeared = c.all.flatMap f)
    (hdis : ∀ c : Container, c.Typed →
      (events c).filterMap Event.disappeared = c.all.flatMap fun _ => [])
    (hmoved : ∀ c : Container, c.Typed → (events c).filterMap Event.moved = c.all.flatMap g)
    (hnew : ∀ x ∈ s, ∀ v ∈ f x, v ∉ views) (hseen : ∀ x ∈ s, ∀ v ∈ g x, v ∈ views) :
    ∃ views', run deliver views ((tree.query q center sight).flatMap events) = .ok views' ∧
      ∀ v, v ∈ views' ↔ v ∈ views ∨ ∃ x ∈ tree.around q center sight, v ∈ f x := by
  have htyped := htree.typed hq center sight
  have happs := filterMap_query fun c hc => happ c (htyped c hc)
  have hdiss := filterMap_query fun c hc => hdis c (htyped c hc)
  have hmoves := filterMap_query fun c hc => hmoved c (htyped c hc)
  rw [List.flatMap_eq_nil_iff.2 fun _ _ => rfl] at hdiss
  obtain ⟨views', hrun, hmem⟩ := run_deliver_appears views hdiss
    (by
      intro v hv
      rw [hmoves] at hv
      obtain ⟨x, hx, hvx⟩ := List.mem_flatMap.1 hv
      exact hseen x (htree.stored hq center sight x hx) v hvx)
    (by rw [happs]; exact htree.nodup_changes hq he hsub)
    (by
      intro v hv
      rw [happs] at hv
      obtain ⟨x, hx, hvx⟩ := List.mem_flatMap.1 hv
      exact hnew x (htree.stored hq center sight x hx) v hvx)
  refine ⟨views', hrun, fun v => ?_⟩
  rw [hmem, happs, List.mem_flatMap]

variable (sight center events views) in
/-- A query whose callbacks are disappearances. -/
theorem run_disappears (htree : tree.IsSet boundary Stores) (hq : Stores q position s)
    (he : entity ∉ s) (hsub : ∀ x, (f x).Sublist [(x, entity), (entity, x)])
    (happ : ∀ c : Container, c.Typed →
      (events c).filterMap Event.appeared = c.all.flatMap fun _ => [])
    (hdis : ∀ c : Container, c.Typed → (events c).filterMap Event.disappeared = c.all.flatMap f)
    (hmoved : ∀ c : Container, c.Typed →
      (events c).filterMap Event.moved = c.all.flatMap fun _ => [])
    (hold : ∀ x ∈ s, ∀ v ∈ f x, v ∈ views) :
    ∃ views', run deliver views ((tree.query q center sight).flatMap events) = .ok views' ∧
      ∀ v, v ∈ views' ↔ v ∈ views ∧ ¬ ∃ x ∈ tree.around q center sight, v ∈ f x := by
  have htyped := htree.typed hq center sight
  have happs := filterMap_query fun c hc => happ c (htyped c hc)
  have hdiss := filterMap_query fun c hc => hdis c (htyped c hc)
  have hmoves := filterMap_query fun c hc => hmoved c (htyped c hc)
  rw [List.flatMap_eq_nil_iff.2 fun _ _ => rfl] at happs hmoves
  obtain ⟨views', hrun, hmem⟩ := run_deliver_disappears views happs hmoves
    (by rw [hdiss]; exact htree.nodup_changes hq he hsub)
    (by
      intro v hv
      rw [hdiss] at hv
      obtain ⟨x, hx, hvx⟩ := List.mem_flatMap.1 hv
      exact hold x (htree.stored hq center sight x hx) v hvx)
  refine ⟨views', hrun, fun v => ?_⟩
  rw [hmem, hdiss, List.mem_flatMap]

end Quadtree.IsSet

/-! ## What is in sight -/

theorem inSight_comm {p r : Point} : InSight sight p r ↔ InSight sight r p := by
  unfold InSight
  rw [Point.distance_comm]

/-- `v.1` is a player and `v.2` another character but loot, both on the map, and in sight. -/
def Sees (sight : Int) (position : Character → Point) (s : Finset Character)
    (v : Character × Character) : Prop :=
  v.1 ∈ s ∧ v.2 ∈ s ∧ v.1 ≠ v.2 ∧ v.1.kind = .player ∧ v.2.kind ≠ .loot ∧
    InSight sight (position v.1) (position v.2)

section

variable {position position' : Character → Point} {s : Finset Character}
  {entity : Character} {v : Character × Character}

theorem sees_congr (h : ∀ x ∈ s, position' x = position x) :
    Sees sight position' s v ↔ Sees sight position s v := by
  unfold Sees
  constructor
  · intro hv
    obtain ⟨h1, h2, hne, hp, hl, hsight⟩ := hv
    rw [h _ h1, h _ h2] at hsight
    exact ⟨h1, h2, hne, hp, hl, hsight⟩
  · intro hv
    obtain ⟨h1, h2, hne, hp, hl, hsight⟩ := hv
    rw [← h _ h1, ← h _ h2] at hsight
    exact ⟨h1, h2, hne, hp, hl, hsight⟩

/-- One character more meets those in its sight. -/
theorem sees_insert (he : entity ∉ s) :
    Sees sight position (insert entity s) v ↔ Sees sight position s v ∨
      ∃ x ∈ s, InSight sight (position x) (position entity) ∧ v ∈ meeting entity x := by
  constructor
  · intro hv
    obtain ⟨h1, h2, hne, hp, hl, hsight⟩ := hv
    rcases Finset.mem_insert.1 h1 with h1 | h1
    · rcases Finset.mem_insert.1 h2 with h2 | h2
      · exact absurd (h1.trans h2.symm) hne
      · rw [h1, inSight_comm] at hsight
        exact .inr ⟨v.2, h2, hsight, mem_meeting.2 ⟨.inr (Prod.ext h1 rfl), hp, hl⟩⟩
    · rcases Finset.mem_insert.1 h2 with h2 | h2
      · rw [h2] at hsight
        exact .inr ⟨v.1, h1, hsight, mem_meeting.2 ⟨.inl (Prod.ext rfl h2), hp, hl⟩⟩
      · exact .inl ⟨h1, h2, hne, hp, hl, hsight⟩
  · intro h
    rcases h with ⟨h1, h2, hne, hp, hl, hsight⟩ | ⟨x, hx, hsight, hv⟩
    · exact ⟨Finset.mem_insert_of_mem h1, Finset.mem_insert_of_mem h2, hne, hp, hl, hsight⟩
    · have hxe : x ≠ entity := fun h => he (h ▸ hx)
      obtain ⟨rfl | rfl, hp, hl⟩ := mem_meeting.1 hv
      · exact ⟨Finset.mem_insert_of_mem hx, Finset.mem_insert_self entity s, hxe, hp, hl, hsight⟩
      · exact ⟨Finset.mem_insert_self entity s, Finset.mem_insert_of_mem hx, hxe.symm, hp, hl,
          inSight_comm.1 hsight⟩

end

end Bango.World
