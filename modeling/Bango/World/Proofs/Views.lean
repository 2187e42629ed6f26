import Bango.World.Proofs.Queries

set_option autoImplicit false

/-! # What players see is what is in their sight

Over any quadtree that stores a set of characters and answers range queries completely, the callbacks
of `Add`, `Move` and `Remove` keep each player's view equal to what is within `m_sight` of it. -/

namespace Bango.World

open Bango.Lib Bango.Space

variable {Q : Type} {tree : Quadtree Q} {sight : Int} {boundary : Square}
  {Stores : Q → (Character → Point) → Finset Character → Prop}

/-- What callers of the map see to: a character that is added is not on the map, one that is moved or
    removed is, or the quadtree throws and nothing is done. No position is outside the boundary. -/
def Op.Guard (tree : Quadtree Q) (boundary : Square) (w : Watched Q) : Op → Prop
  | .add entity at_ => entity ∉ w.map.entities ∧ boundary.InBoundary at_
  | .move entity dx dy _ _ =>
    (entity ∈ w.map.entities ∧ boundary.InBoundary
      ⟨(w.map.position entity).x + dx.toInt, (w.map.position entity).y + dy.toInt⟩) ∨
    tree.remove w.map.position entity w.map.quad = none
  | .remove entity =>
    entity ∈ w.map.entities ∨ tree.remove w.map.position entity w.map.quad = none

instance (w : Watched Q) (o : Op) : Decidable (o.Guard tree boundary w) :=
  match o with
  | .add _ _ => inferInstanceAs (Decidable (_ ∧ _))
  | .move .. => inferInstanceAs (Decidable (_ ∨ _))
  | .remove _ => inferInstanceAs (Decidable (_ ∨ _))

/-- The invariant: the quadtree holds what is on the map, and views are what is in sight. -/
structure Consistent (sight : Int)
    (Stores : Q → (Character → Point) → Finset Character → Prop) (w : Watched Q) : Prop where
  stores : Stores w.map.quad w.map.position w.map.entities
  views : ∀ v, v ∈ w.views ↔ Sees sight w.map.position w.map.entities v

/-- Changing the position of a character that is not stored changes no stored position. -/
theorem update_of_not_mem {position : Character → Point} {s : Finset Character}
    {entity : Character} (he : entity ∉ s) (p : Point) :
    ∀ x ∈ s, Function.update position entity p x = position x := by
  intro x hx
  have hne : x ≠ entity := fun h => he (h ▸ hx)
  exact Function.update_of_ne hne p position

theorem sublist_of_ite {P : Prop} [Decidable P] {entity x : Character}
    {l : List (Character × Character)} (h : l.Sublist [(x, entity), (entity, x)]) :
    (if P then l else []).Sublist [(x, entity), (entity, x)] := by
  split_ifs
  · exact h
  · exact List.nil_sublist _

theorem mem_ite_nil {α : Type} {P : Prop} [Decidable P] {l : List α} {a : α} :
    a ∈ (if P then l else []) ↔ P ∧ a ∈ l := by
  split_ifs with h <;> simp [h]

theorem not_mem_of_meeting {position : Character → Point} {s : Finset Character}
    {entity x : Character} {v : Character × Character} (he : entity ∉ s)
    (hv : v ∈ meeting entity x) : ¬ Sees sight position s v := by
  intro hsees
  obtain ⟨rfl | rfl, -⟩ := mem_meeting.1 hv
  · exact he hsees.2.1
  · exact he hsees.1

/-! ## The operations, where the quadtree does not throw -/

namespace WorldMap

variable {m : WorldMap Q} {entity : Character} {quad quad' : Q}

theorem add_of_insert (h : tree.insert m.position entity m.quad = some quad) :
    m.add tree sight entity = ({ m with quad, entities := insert entity m.entities },
      (tree.query m.quad (m.position entity) sight).flatMap (m.addEvents sight entity)) := by
  simp only [add, h]

theorem remove_of_remove (h : tree.remove m.position entity m.quad = some quad) :
    m.remove tree sight entity false = ({ m with quad, entities := m.entities.erase entity },
      (tree.query quad (m.position entity) sight).flatMap
        (WorldMap.removeEvents sight { m with quad, entities := m.entities.erase entity } entity)) := by
  simp [remove, h]

theorem move_of_remove {dx dy dz : Int8} {stop : Bool} {center : Point}
    {position : Character → Point}
    (h : tree.remove m.position entity m.quad = some quad)
    (hcenter : center = ⟨(m.position entity).x + dx.toInt, (m.position entity).y + dy.toInt⟩)
    (hposition : position = Function.update m.position entity center)
    (hinsert : tree.insert position entity quad = some quad') :
    m.move tree sight entity dx dy dz stop = ({ m with quad := quad', position },
      (tree.query quad (m.position entity) sight).flatMap
        (moveOldEvents sight { m with quad, position } entity (m.position entity) center) ++
      (tree.query quad center sight).flatMap
        (moveNewEvents sight { m with quad, position } entity (m.position entity) center
          dx dy dz stop)) := by
  subst hcenter hposition
  simp only [move, h, hinsert]

end WorldMap

namespace Watched

variable {w : Watched Q} {entity : Character} {m : WorldMap Q} {events : List Event}
  {views : Views}

theorem step_add {p : Point}
    (h : WorldMap.add tree sight
      { w.map with position := Function.update w.map.position entity p } entity = (m, events))
    (hrun : run deliver w.views events = .ok views) :
    w.step tree sight (.add entity p) = .ok ⟨m, views⟩ := by
  simp only [step, h, hrun]
  rfl

theorem step_move {dx dy dz : Int8} {stop : Bool}
    (h : w.map.move tree sight entity dx dy dz stop = (m, events))
    (hrun : run deliver w.views events = .ok views) :
    w.step tree sight (.move entity dx dy dz stop) = .ok ⟨m, views⟩ := by
  simp only [step, h, hrun]
  rfl

theorem step_remove (h : w.map.remove tree sight entity false = (m, events))
    (hrun : run deliver w.views events = .ok views) :
    w.step tree sight (.remove entity) = .ok ⟨m, views.filter fun x => x.1 ≠ entity⟩ := by
  simp only [step, h, hrun]
  rfl

end Watched

/-! ## Each operation keeps views equal to what is in sight -/

/-- Each view of a meeting tells who has been met. -/
theorem meeting_unique {entity x y : Character} {v : Character × Character} (hx : x ≠ entity)
    (hvx : v ∈ meeting entity x) (hvy : v ∈ meeting entity y) : x = y := by
  obtain ⟨hx' | hx', -⟩ := mem_meeting.1 hvx <;> obtain ⟨hy' | hy', -⟩ := mem_meeting.1 hvy
  · exact congrArg Prod.fst (hx'.symm.trans hy')
  · exact absurd (congrArg Prod.fst (hx'.symm.trans hy')) hx
  · exact absurd (congrArg Prod.snd (hx'.symm.trans hy')) hx
  · exact congrArg Prod.snd (hx'.symm.trans hy')

/-- Those left behind are taken from what was met, and those that come into sight are added: what is
    met then is what is in sight. -/
theorem met_iff {s : Finset Character} {seen : Prop} {old new met : Character → Prop}
    (hunique : ∀ x ∈ s, ∀ y ∈ s, met x → met y → x = y) (hseen : seen → ∀ x ∈ s, ¬ met x) :
    ((seen ∨ ∃ x ∈ s, old x ∧ met x) ∧ ¬ ∃ x ∈ s, old x ∧ ¬ new x ∧ met x) ∨
        (∃ x ∈ s, new x ∧ ¬ old x ∧ met x) ↔
      seen ∨ ∃ x ∈ s, new x ∧ met x := by
  by_cases h : ∃ x ∈ s, met x
  · obtain ⟨x, hx, hmet⟩ := h
    have honly : ∀ P : Character → Prop, (∃ y ∈ s, P y ∧ met y) ↔ P x := by
      intro P
      constructor
      · intro hy
        obtain ⟨y, hy, hP, hmety⟩ := hy
        rwa [hunique x hx y hy hmet hmety]
      · exact fun hP => ⟨x, hx, hP, hmet⟩
    have hnot : ¬ seen := fun hs => hseen hs x hx hmet
    have honly₂ : ∀ P R : Character → Prop, (∃ y ∈ s, P y ∧ R y ∧ met y) ↔ P x ∧ R x := by
      intro P R
      rw [← honly fun y => P y ∧ R y]
      simp only [and_assoc]
    rw [honly old, honly new, honly₂ old fun y => ¬ new y, honly₂ new fun y => ¬ old y]
    tauto
  · push Not at h
    have hnone : ∀ P : Character → Prop, ¬ ∃ y ∈ s, P y ∧ met y := by
      intro P hy
      obtain ⟨y, hy, -, hmet⟩ := hy
      exact h y hy hmet
    have hnone₂ : ∀ P R : Character → Prop, ¬ ∃ y ∈ s, P y ∧ R y ∧ met y := by
      intro P R hy
      obtain ⟨y, hy, -, -, hmet⟩ := hy
      exact h y hy hmet
    have hold := hnone₂ old fun y => ¬ new y
    have hnew := hnone₂ new fun y => ¬ old y
    have := hnone old
    have := hnone new
    tauto

namespace Consistent

variable {w : Watched Q} {entity : Character}

theorem add (htree : tree.IsSet boundary Stores) (h : Consistent sight Stores w) {p : Point}
    (he : entity ∉ w.map.entities) (hp : boundary.InBoundary p) :
    ∃ w', w.step tree sight (.add entity p) = .ok w' ∧ Consistent sight Stores w' := by
  let position := Function.update w.map.position entity p
  have hsame : ∀ x ∈ w.map.entities, position x = w.map.position x := update_of_not_mem he p
  have hat : position entity = p := Function.update_self ..
  have hstores := htree.congr h.stores hsame
  obtain ⟨q', hq', hstores'⟩ := htree.insert hstores he (by rwa [hat])
  let m : WorldMap Q := { w.map with position }
  obtain ⟨views', hrun, hmem⟩ := htree.run_appears sight (position entity) (m.addEvents sight entity)
    w.views hstores he
    (fun x => sublist_of_ite (meeting_sublist entity x)) (fun c hc => appeared_addEvents hc)
    (fun c hc => disappeared_addEvents hc) (fun c hc => moved_addEvents hc)
    (fun x _ v hv => by
      rw [h.views]
      exact not_mem_of_meeting he (mem_ite_nil.1 hv).2)
    (fun _ _ _ hv => by cases hv)
  refine ⟨⟨⟨q', insert entity w.map.entities, position⟩, views'⟩, ?_, hstores', fun v => ?_⟩
  · exact Watched.step_add (WorldMap.add_of_insert (m := m) hq') hrun
  · simp only [hmem, mem_ite_nil]
    rw [h.views, ← sees_congr hsame, sees_insert he, htree.exists_around_iff hstores]

theorem remove (htree : tree.IsSet boundary Stores) (h : Consistent sight Stores w)
    (he : entity ∈ w.map.entities) :
    ∃ w', w.step tree sight (.remove entity) = .ok w' ∧ Consistent sight Stores w' := by
  obtain ⟨q', hq', hstores⟩ := htree.remove h.stores he
  have hrest : entity ∉ w.map.entities.erase entity := Finset.notMem_erase entity _
  have hviews : ∀ v, v ∈ w.views ↔ Sees sight w.map.position (w.map.entities.erase entity) v ∨
      ∃ x ∈ w.map.entities.erase entity,
        InSight sight (w.map.position x) (w.map.position entity) ∧ v ∈ meeting entity x := by
    intro v
    rw [h.views, ← sees_insert hrest, Finset.insert_erase he]
  let m : WorldMap Q := { w.map with quad := q', entities := w.map.entities.erase entity }
  obtain ⟨views', hrun, hmem⟩ := htree.run_disappears sight (w.map.position entity)
    (m.removeEvents sight entity) w.views
    hstores hrest (fun x => sublist_of_ite (seenBy_sublist entity x))
    (fun c hc => appeared_removeEvents hc) (fun c hc => disappeared_removeEvents hc)
    (fun c hc => moved_removeEvents hc)
    (fun x hx v hv => by
      obtain ⟨hsight, hv⟩ := mem_ite_nil.1 hv
      exact (hviews v).2 (.inr ⟨x, hx, hsight, meeting_of_seenBy hv⟩))
  have htold : ∀ v, v ∈ views' ↔ v ∈ w.views ∧ ¬ ∃ x ∈ w.map.entities.erase entity,
      InSight sight (w.map.position x) (w.map.position entity) ∧ v ∈ seenBy entity x := by
    intro v
    rw [hmem]
    simp only [mem_ite_nil]
    exact and_congr_right' (not_congr (htree.exists_around_iff hstores))
  refine ⟨_, Watched.step_remove (WorldMap.remove_of_remove hq') hrun, hstores, fun v => ?_⟩
  rw [Finset.mem_filter, htold, hviews]
  constructor
  · intro hv
    obtain ⟨⟨hsees | ⟨x, hx, hsight, hvx⟩, hnot⟩, hne⟩ := hv
    · exact hsees
    · -- a view of another player, who has been told
      obtain ⟨hpair, hkinds⟩ := mem_meeting.1 hvx
      rcases hpair with hpair | hpair
      · exact absurd ⟨x, hx, hsight, mem_seenBy.2 ⟨hpair, hkinds⟩⟩ hnot
      · exact absurd (congrArg Prod.fst hpair) hne
  · intro hsees
    refine ⟨⟨.inl hsees, ?_⟩, fun heq => hrest (heq ▸ hsees.1)⟩
    rintro ⟨x, -, -, hvx⟩
    exact not_mem_of_meeting hrest (meeting_of_seenBy hvx) hsees

theorem move (htree : tree.IsSet boundary Stores) (h : Consistent sight Stores w)
    {dx dy dz : Int8} {stop : Bool} (he : entity ∈ w.map.entities)
    (hp : boundary.InBoundary
      ⟨(w.map.position entity).x + dx.toInt, (w.map.position entity).y + dy.toInt⟩) :
    ∃ w', w.step tree sight (.move entity dx dy dz stop) = .ok w' ∧
      Consistent sight Stores w' := by
  obtain ⟨q', hq', hstores⟩ := htree.remove h.stores he
  have hrest : entity ∉ w.map.entities.erase entity := Finset.notMem_erase entity _
  generalize hcenter :
    (⟨(w.map.position entity).x + dx.toInt, (w.map.position entity).y + dy.toInt⟩ : Point) = center
    at hp
  generalize hposition : Function.update w.map.position entity center = position
  have hsame : ∀ x ∈ w.map.entities.erase entity, position x = w.map.position x := by
    rw [← hposition]
    exact update_of_not_mem hrest center
  have hat : position entity = center := by
    rw [← hposition, Function.update_self]
  have hstores' := htree.congr hstores hsame
  obtain ⟨q'', hq'', hstores''⟩ := htree.insert hstores' hrest (by rwa [hat])
  rw [Finset.insert_erase he] at hstores''
  -- what the character meets, before and after, of those that stay where they are
  have hviews : ∀ v, v ∈ w.views ↔ Sees sight position (w.map.entities.erase entity) v ∨
      ∃ x ∈ w.map.entities.erase entity,
        InSight sight (position x) (w.map.position entity) ∧ v ∈ meeting entity x := by
    intro v
    rw [h.views, ← Finset.insert_erase he, sees_insert hrest, ← sees_congr hsame,
      Finset.insert_erase he]
    refine or_congr_right (exists_congr fun x => and_congr_right fun hx => ?_)
    rw [hsame x hx]
  have hviews' : ∀ v, Sees sight position w.map.entities v ↔
      Sees sight position (w.map.entities.erase entity) v ∨
      ∃ x ∈ w.map.entities.erase entity,
        InSight sight (position x) center ∧ v ∈ meeting entity x := by
    intro v
    rw [← Finset.insert_erase he, sees_insert hrest, hat, Finset.insert_erase he]
  let m : WorldMap Q := { w.map with quad := q', position }
  obtain ⟨views₁, hrun₁, hmem₁⟩ := htree.run_disappears sight (w.map.position entity)
    (m.moveOldEvents sight entity (w.map.position entity) center) w.views
    hstores' hrest (fun x => sublist_of_ite (meeting_sublist entity x))
    (fun c hc => appeared_moveOldEvents hc _ _) (fun c hc => disappeared_moveOldEvents hc _ _)
    (fun c hc => moved_moveOldEvents hc _ _)
    (fun x hx v hv => by
      obtain ⟨hsight, hv⟩ := mem_ite_nil.1 hv
      exact (hviews v).2 (.inr ⟨x, hx, hsight.1, hv⟩))
  have hne : ∀ x ∈ w.map.entities.erase entity, x ≠ entity := fun x hx h => hrest (h ▸ hx)
  have htold₁ : ∀ v, v ∈ views₁ ↔ v ∈ w.views ∧ ¬ ∃ x ∈ w.map.entities.erase entity,
      InSight sight (position x) (w.map.position entity) ∧
        ¬ InSight sight (position x) center ∧ v ∈ meeting entity x := by
    intro v
    rw [hmem₁]
    simp only [mem_ite_nil, and_assoc]
    exact and_congr_right' (not_congr (htree.exists_around_iff hstores'))
  obtain ⟨views₂, hrun₂, hmem₂⟩ := htree.run_appears sight center
    (m.moveNewEvents sight entity (w.map.position entity) center dx dy dz stop) views₁
    hstores' hrest (fun x => sublist_of_ite (meeting_sublist entity x))
    (fun c hc => appeared_moveNewEvents hc _ _ _ _ _ _)
    (fun c hc => disappeared_moveNewEvents hc _ _ _ _ _ _)
    (fun c hc => moved_moveNewEvents hc _ _ _ _ _ _)
    (fun x hx v hv hin => by
      obtain ⟨⟨hold, -⟩, hv⟩ := mem_ite_nil.1 hv
      rcases (hviews v).1 ((htold₁ v).1 hin).1 with hsees | ⟨y, hy, hsight, hvy⟩
      · exact not_mem_of_meeting hrest hv hsees
      · exact hold (meeting_unique (hne x hx) hv hvy ▸ hsight))
    (fun x hx v hv => by
      -- who is told of the move has had the character in sight, and has not lost it
      obtain ⟨⟨hold, hnew⟩, hv⟩ := mem_ite_nil.1 hv
      have hmet : v ∈ meeting entity x := meeting_of_seenBy hv
      refine (htold₁ v).2 ⟨(hviews v).2 (.inr ⟨x, hx, hold, hmet⟩), ?_⟩
      rintro ⟨y, -, -, hleft, hvy⟩
      exact hleft (meeting_unique (hne x hx) hmet hvy ▸ hnew))
  have htold₂ : ∀ v, v ∈ views₂ ↔ v ∈ views₁ ∨ ∃ x ∈ w.map.entities.erase entity,
      InSight sight (position x) center ∧
        ¬ InSight sight (position x) (w.map.position entity) ∧ v ∈ meeting entity x := by
    intro v
    rw [hmem₂, ← htree.exists_around_iff hstores']
    simp only [mem_ite_nil, and_assoc, and_left_comm, m]
  refine ⟨_, Watched.step_move
    (WorldMap.move_of_remove hq' hcenter.symm hposition.symm hq'')
    (run_append_ok _ hrun₁ ▸ hrun₂), hstores'', fun v => ?_⟩
  rw [htold₂, htold₁, hviews, hviews']
  exact met_iff (fun x hx y _ hvx hvy => meeting_unique (hne x hx) hvx hvy)
    (fun hsees x _ hvx => not_mem_of_meeting hrest hvx hsees)

/-- An operation on a character the quadtree does not store does nothing. -/
theorem step (htree : tree.IsSet boundary Stores) (h : Consistent sight Stores w) {o : Op}
    (hguard : o.Guard tree boundary w) :
    ∃ w', w.step tree sight o = .ok w' ∧ Consistent sight Stores w' := by
  cases o with
  | add entity p => exact h.add htree hguard.1 hguard.2
  | move entity dx dy dz stop =>
      rcases hguard with ⟨he, hp⟩ | hnone
      · exact h.move htree he hp
      · have hmove : w.map.move tree sight entity dx dy dz stop = (w.map, []) := by
          simp only [WorldMap.move, hnone]
        exact ⟨_, Watched.step_move hmove rfl, h⟩
  | remove entity =>
      by_cases he : entity ∈ w.map.entities
      · exact h.remove htree he
      · have hmove : w.map.remove tree sight entity false = (w.map, []) := by
          simp only [WorldMap.remove, hguard.resolve_left he]
        refine ⟨_, Watched.step_remove hmove rfl, h.stores, fun v => ?_⟩
        rw [Finset.mem_filter, h.views]
        exact and_iff_left_of_imp fun hsees heq => he (heq ▸ hsees.1)

end Consistent

/-- From an empty map, after each operation of a run each player's view is what is in its sight, and
    no callback has been unexpected. -/
theorem views_eq_sight (htree : tree.IsSet boundary Stores) {quad : Q}
    {position : Character → Point} (hempty : Stores quad position ∅) {ops : List Op}
    (hadm : Admissible (Watched.step tree sight) (Op.Guard tree boundary) ⟨⟨quad, ∅, position⟩, ∅⟩
      ops) :
    ∀ before after, ops = before ++ after →
      ∃ w, run (Watched.step tree sight) ⟨⟨quad, ∅, position⟩, ∅⟩ before = .ok w ∧
        ∀ p ∈ w.map.entities, ∀ e ∈ w.map.entities, p.kind = .player → e.kind ≠ .loot → e ≠ p →
          ((p, e) ∈ w.views ↔ ((w.map.position p).distance (w.map.position e) : Int) ≤ sight) := by
  intro before after hops
  rw [hops] at hadm
  have h0 : Consistent sight Stores (⟨⟨quad, ∅, position⟩, ∅⟩ : Watched Q) :=
    ⟨hempty, fun v => by simp [Sees]⟩
  obtain ⟨w, hrun, hw⟩ := run_ok_of_admissible
    (fun w o (hinv : Consistent sight Stores w) hguard => hinv.step htree hguard) h0 hadm.of_append
  refine ⟨w, hrun, fun p hp e he hplayer hloot hne => ?_⟩
  rw [hw.views]
  exact ⟨fun hsees => hsees.2.2.2.2.2, fun hsight => ⟨hp, he, hne.symm, hplayer, hloot, hsight⟩⟩

/-! ## A quadtree of one leaf -/

/-- A quadtree that has not been divided: its characters are in one container. -/
def leafTree (boundary : Square) : Quadtree (List Character) where
  insert position e q := if boundary.InBoundary (position e) then some (e :: q) else none
  remove _ e q := if e ∈ q then some (q.erase e) else none
  query q _ _ := [{
    players := q.filter (·.kind = .player)
    npcs := q.filter (·.kind = .npc)
    monsters := q.filter (·.kind = .monster)
    loots := q.filter (·.kind = .loot) }]

theorem mem_around_leafTree {q : List Character} {center : Point} {radius : Int} {x : Character} :
    x ∈ (leafTree boundary).around q center radius ↔ x ∈ q := by
  cases hx : x.kind <;> simp [Quadtree.around, leafTree, Container.all, hx]

theorem nodup_around_leafTree {q : List Character} (h : q.Nodup) (center : Point) (radius : Int) :
    ((leafTree boundary).around q center radius).Nodup := by
  have hkind : ∀ k k' : Kind, k ≠ k' → ∀ x ∈ q.filter (·.kind = k), x ∉ q.filter (·.kind = k') := by
    intro k k' hne x hx hx'
    simp only [List.mem_filter, decide_eq_true_eq] at hx hx'
    exact hne (hx.2.symm.trans hx'.2)
  simp only [Quadtree.around, leafTree, Container.all, List.flatMap_cons, List.flatMap_nil,
    List.append_nil, List.nodup_append', List.disjoint_append_left]
  refine ⟨⟨⟨h.filter _, h.filter _, ?_⟩, h.filter _, ?_, ?_⟩, h.filter _, ⟨?_, ?_⟩, ?_⟩ <;>
    exact fun x hx hx' => hkind _ _ (by decide) x hx hx'

theorem isSet_leafTree (boundary : Square) : (leafTree boundary).IsSet boundary
    fun q _ s => q.Nodup ∧ ∀ x, x ∈ q ↔ x ∈ s where
  congr h _ := h
  insert {q position s e} h he hp := by
    refine ⟨e :: q, if_pos hp, List.nodup_cons.2 ⟨fun hq => he ((h.2 e).1 hq), h.1⟩, fun x => ?_⟩
    rw [List.mem_cons, Finset.mem_insert, h.2]
  remove {q position s e} h he := by
    refine ⟨q.erase e, if_pos ((h.2 e).2 he), h.1.erase e, fun x => ?_⟩
    rw [h.1.mem_erase_iff, Finset.mem_erase, h.2]
  complete h _ _ x hx _ := mem_around_leafTree.2 ((h.2 x).2 hx)
  stored h _ _ x hx := (h.2 x).1 (mem_around_leafTree.1 hx)
  nodup h center radius := nodup_around_leafTree h.1 center radius
  typed _ _ _ c hc := by
    obtain rfl := List.mem_singleton.1 hc
    exact ⟨fun x hx => by simpa using (List.mem_filter.1 hx).2,
      fun x hx => by simpa using (List.mem_filter.1 hx).2,
      fun x hx => by simpa using (List.mem_filter.1 hx).2,
      fun x hx => by simpa using (List.mem_filter.1 hx).2⟩

/-- Two players and a monster: one player walks out of the other's sight and back, and both are
    removed. -/
def walk : List Op :=
  [.add ⟨.player, 1⟩ ⟨600, 600⟩, .add ⟨.monster, 1⟩ ⟨700, 600⟩, .add ⟨.player, 2⟩ ⟨1500, 600⟩,
    .move ⟨.player, 2⟩ 100 0 0 false, .move ⟨.player, 2⟩ (-100) 0 0 true, .move ⟨.monster, 1⟩ 0 50 0 true,
    .remove ⟨.player, 1⟩, .remove ⟨.player, 1⟩, .remove ⟨.player, 2⟩]

theorem views_eq_sight_walk :
    Admissible (Watched.step (leafTree ⟨⟨0, 0⟩, 50 * 8192⟩) 920)
      (Op.Guard (leafTree ⟨⟨0, 0⟩, 50 * 8192⟩) ⟨⟨0, 0⟩, 50 * 8192⟩)
      ⟨⟨[], ∅, fun _ => ⟨0, 0⟩⟩, ∅⟩ walk ∧
    ∀ before after, walk = before ++ after →
      ∃ w, run (Watched.step (leafTree ⟨⟨0, 0⟩, 50 * 8192⟩) 920) ⟨⟨[], ∅, fun _ => ⟨0, 0⟩⟩, ∅⟩ before =
          .ok w ∧
        ∀ p ∈ w.map.entities, ∀ e ∈ w.map.entities, p.kind = .player → e.kind ≠ .loot → e ≠ p →
          ((p, e) ∈ w.views ↔ ((w.map.position p).distance (w.map.position e) : Int) ≤ 920) := by
  have hadm : Admissible (Watched.step (leafTree ⟨⟨0, 0⟩, 50 * 8192⟩) 920)
      (Op.Guard (leafTree ⟨⟨0, 0⟩, 50 * 8192⟩) ⟨⟨0, 0⟩, 50 * 8192⟩)
      ⟨⟨[], ∅, fun _ => ⟨0, 0⟩⟩, ∅⟩ walk := by decide +kernel
  exact ⟨hadm, views_eq_sight (isSet_leafTree ⟨⟨0, 0⟩, 50 * 8192⟩) (by simp) hadm⟩

end Bango.World
