import Bango.World.Proofs.Settled
import Bango.World.Sight

set_option autoImplicit false

/-! # What players see, in the whole world

The callbacks of an operation concern one character, so those on one map leave the views of the others
alone (`deliver_union`). On its map each operation does what it does on the settled tree, where views
are what is in sight; so they are along every run that comes to no null pointer (`run_views`), and what
is written in sight of a character reaches those that see it (`run_writeInSight`). -/

namespace Bango.World

open Bango.Lib Bango.Space

/-! ## Whom the callbacks are about -/

/-- Is the callback made for the character, or about it? -/
def Event.Concerns (entity : Character) : Event → Prop
  | .appear p e _ | .disappear p e | .move p e .. => p = entity ∨ e = entity

section

variable {Q : Type} {tree : Quadtree Q} {sight : Int} {m : WorldMap Q} {entity : Character}

/-- Every list of callbacks that one rule makes is about the character when the rule says so. -/
theorem concerns_flatMap {α : Type} {l : List α} {f : α → List Event}
    (h : ∀ x, ∀ ev ∈ f x, ev.Concerns entity) : ∀ ev ∈ l.flatMap f, ev.Concerns entity := by
  intro ev hev
  obtain ⟨x, -, hx⟩ := List.mem_flatMap.1 hev
  exact h x ev hx

theorem concerns_append {l l' : List Event} (h : ∀ ev ∈ l, ev.Concerns entity)
    (h' : ∀ ev ∈ l', ev.Concerns entity) : ∀ ev ∈ l ++ l', ev.Concerns entity :=
  List.forall_mem_append.2 ⟨h, h'⟩

theorem concerns_addEvents (c : Container) :
    ∀ ev ∈ m.addEvents sight entity c, ev.Concerns entity := by
  unfold WorldMap.addEvents
  refine concerns_append (concerns_flatMap fun x => ?_) ?_
  · split_ifs <;> simp [Event.Concerns]
  · split_ifs
    · simp
    · refine concerns_append (concerns_append (concerns_flatMap fun x => ?_)
        (concerns_flatMap fun x => ?_)) (concerns_flatMap fun x => ?_) <;>
      split_ifs <;> simp [Event.Concerns]

theorem concerns_add : ∀ ev ∈ (m.add tree sight entity).2, ev.Concerns entity := by
  have hevents : ∀ ev ∈ (tree.query m.quad (m.position entity) sight).flatMap
      (m.addEvents sight entity), ev.Concerns entity :=
    concerns_flatMap fun c => concerns_addEvents c
  unfold WorldMap.add
  dsimp only
  split <;> exact hevents

theorem concerns_remove : ∀ ev ∈ (m.remove tree sight entity false).2, ev.Concerns entity := by
  unfold WorldMap.remove
  split
  · simp
  · rw [if_neg Bool.false_ne_true]
    refine concerns_flatMap fun c => concerns_flatMap fun x => ?_
    split_ifs <;> simp [Event.Concerns]

theorem concerns_moveOldEvents (old new : Point) (c : Container) :
    ∀ ev ∈ m.moveOldEvents sight entity old new c, ev.Concerns entity := by
  unfold WorldMap.moveOldEvents
  dsimp only
  refine concerns_append (concerns_flatMap fun x => ?_) ?_
  · split_ifs <;> simp [Event.Concerns]
  · split_ifs
    · simp
    · refine concerns_append (concerns_append (concerns_flatMap fun x => ?_)
        (concerns_flatMap fun x => ?_)) (concerns_flatMap fun x => ?_) <;>
      split_ifs <;> simp [Event.Concerns]

theorem concerns_moveNewEvents (old new : Point) (dx dy dz : Int8) (stop : Bool) (c : Container) :
    ∀ ev ∈ m.moveNewEvents sight entity old new dx dy dz stop c, ev.Concerns entity := by
  unfold WorldMap.moveNewEvents
  dsimp only
  refine concerns_append (concerns_flatMap fun x => ?_) ?_
  · split_ifs <;> simp [Event.Concerns]
  · split_ifs
    · simp
    · refine concerns_append (concerns_flatMap fun x => ?_) (concerns_flatMap fun x => ?_) <;>
      split_ifs <;> simp [Event.Concerns]

theorem concerns_move {dx dy dz : Int8} {stop : Bool} :
    ∀ ev ∈ (m.move tree sight entity dx dy dz stop).2, ev.Concerns entity := by
  unfold WorldMap.move
  split
  · simp
  · dsimp only
    split <;>
    exact concerns_append (concerns_flatMap fun c => concerns_moveOldEvents _ _ c)
      (concerns_flatMap fun c => concerns_moveNewEvents _ _ dx dy dz stop c)

end

/-- What concerns a character leaves the views of the others alone. -/
theorem deliver_union {entity : Character} {views views' others : Views} {ev : Event}
    (hothers : ∀ v ∈ others, v.1 ≠ entity ∧ v.2 ≠ entity) (hev : ev.Concerns entity)
    (h : deliver views ev = .ok views') : deliver (views ∪ others) ev = .ok (views' ∪ others) := by
  have hnot : ∀ p e, (p = entity ∨ e = entity) → (p, e) ∉ others := by
    intro p e hpe hmem
    exact hpe.elim (hothers (p, e) hmem).1 (hothers (p, e) hmem).2
  cases ev with
  | appear p e spawn =>
      simp only [deliver] at h ⊢
      split at h
      next hloot => rw [if_pos hloot, Except.ok.inj h]
      next hloot =>
          split at h
          next => cases h
          next hnew =>
              have hnew' : (p, e) ∉ views ∪ others := by simp [hnew, hnot p e hev]
              rw [if_neg hloot, if_neg hnew', ← Except.ok.inj h, Finset.insert_union]
  | disappear p e =>
      simp only [deliver] at h ⊢
      split at h
      next hloot => rw [if_pos hloot, Except.ok.inj h]
      next hloot =>
          split at h
          next hold =>
              rw [if_neg hloot, if_pos (Finset.mem_union_left _ hold), ← Except.ok.inj h,
                Finset.erase_union_distrib, Finset.erase_eq_of_notMem (hnot p e hev)]
          next => cases h
  | move p e dx dy dz stop =>
      simp only [deliver] at h ⊢
      split at h
      next hloot => rw [if_pos hloot, Except.ok.inj h]
      next hloot =>
          split at h
          next hold => rw [if_neg hloot, if_pos (Finset.mem_union_left _ hold), Except.ok.inj h]
          next => cases h

theorem run_deliver_union {entity : Character} {views views' others : Views} {events : List Event}
    (hothers : ∀ v ∈ others, v.1 ≠ entity ∧ v.2 ≠ entity)
    (hevents : ∀ ev ∈ events, ev.Concerns entity) (h : run deliver views events = .ok views') :
    run deliver (views ∪ others) events = .ok (views' ∪ others) := by
  induction events generalizing views with
  | nil => rw [run_nil, Except.ok.inj h]
  | cons ev events ih =>
      cases hev : deliver views ev with
      | error f =>
          rw [run_cons_error events hev] at h
          cases h
      | ok t =>
          rw [run_cons_ok events hev] at h
          rw [run_cons_ok events (deliver_union hothers (hevents ev List.mem_cons_self) hev)]
          exact ih (fun ev' hmem => hevents ev' (List.mem_cons_of_mem ev hmem)) h

/-! ## One map -/

section

variable {Q : Type} {tree : Quadtree Q} {sight : Int} {w w' : Watched Q} {entity : Character}

theorem Watched.of_step_add {p : Point} (hstep : w.step tree sight (.add entity p) = .ok w') :
    w'.map = (WorldMap.add tree sight
        { w.map with position := Function.update w.map.position entity p } entity).1 ∧
      run deliver w.views (WorldMap.add tree sight
        { w.map with position := Function.update w.map.position entity p } entity).2 =
          .ok w'.views := by
  obtain ⟨views, hrun, hw⟩ := bind_eq_ok.1 hstep
  rw [← Except.ok.inj hw]
  exact ⟨rfl, hrun⟩

theorem Watched.of_step_remove (hstep : w.step tree sight (.remove entity) = .ok w') :
    w'.map = (w.map.remove tree sight entity false).1 ∧
      ∃ views, run deliver w.views (w.map.remove tree sight entity false).2 = .ok views ∧
        w'.views = views.filter fun v => v.1 ≠ entity := by
  obtain ⟨views, hrun, hw⟩ := bind_eq_ok.1 hstep
  rw [← Except.ok.inj hw]
  exact ⟨rfl, views, hrun, rfl⟩

theorem Watched.of_step_move {dx dy dz : Int8} {stop : Bool}
    (hstep : w.step tree sight (.move entity dx dy dz stop) = .ok w') :
    w'.map = (w.map.move tree sight entity dx dy dz stop).1 ∧
      run deliver w.views (w.map.move tree sight entity dx dy dz stop).2 = .ok w'.views := by
  obtain ⟨views, hrun, hw⟩ := bind_eq_ok.1 hstep
  rw [← Except.ok.inj hw]
  exact ⟨rfl, hrun⟩

end

namespace Watching

variable {maxContainerEntities : Nat} {sight : Int} {boundary : Square} {s s' : Watching}
  {held : Finset Character} {entity : Character}

/-- The maps hold the characters of a set, and each player sees what is in its sight on its map. -/
structure Shows (boundary : Square) (sight : Int) (held : Finset Character) (s : Watching) : Prop where
  holds : s.registry.Holds boundary held
  views : ∀ v, v ∈ s.views ↔ ∃ i, Sees sight s.registry.position (s.registry.entities i) v

theorem Shows.not_mem_entities (h : s.Shows boundary sight held) {i : Fin mapCount}
    (hi : i ≠ mapOf (s.registry.map entity)) : entity ∉ s.registry.entities i :=
  fun hmem => hi ((h.holds.entities i entity).1 hmem).2

/-- The callbacks on one map, with the views of the players on all of them. -/
theorem Shows.run_deliver (h : s.Shows boundary sight held) {events : List Event}
    (hevents : ∀ ev ∈ events, ev.Concerns entity) {P : Views → Prop}
    (hhere : ∀ here : Views, (∀ v, v ∈ here ↔ Sees sight s.registry.position
        (s.registry.entities (mapOf (s.registry.map entity))) v) →
      ∃ views, run deliver here events = .ok views ∧ P views) :
    ∃ views views', run deliver s.views events = .ok views' ∧ P views ∧ ∀ v, v ∈ views' ↔
      v ∈ views ∨ ∃ i ≠ mapOf (s.registry.map entity),
        Sees sight s.registry.position (s.registry.entities i) v := by
  classical
  let here := s.views.filter fun v => Sees sight s.registry.position
    (s.registry.entities (mapOf (s.registry.map entity))) v
  let others := s.views.filter fun v => ∃ i ≠ mapOf (s.registry.map entity),
    Sees sight s.registry.position (s.registry.entities i) v
  have hsplit : s.views = here ∪ others := by
    ext v
    rw [Finset.mem_union, Finset.mem_filter, Finset.mem_filter, ← and_or_left]
    refine (and_iff_left_of_imp fun hv => ?_).symm
    obtain ⟨i, hi⟩ := (h.views v).1 hv
    by_cases heq : i = mapOf (s.registry.map entity)
    · exact .inl (heq ▸ hi)
    · exact .inr ⟨i, heq, hi⟩
  have hothers : ∀ v ∈ others, v.1 ≠ entity ∧ v.2 ≠ entity := by
    intro v hv
    obtain ⟨-, i, hi, hsees⟩ := Finset.mem_filter.1 hv
    have hout : entity ∉ s.registry.entities i := h.not_mem_entities hi
    exact ⟨fun heq => hout (heq ▸ hsees.1), fun heq => hout (heq ▸ hsees.2.1)⟩
  obtain ⟨views, hrun, hP⟩ := hhere here fun v => by
    rw [Finset.mem_filter]
    exact and_iff_right_of_imp fun hv => (h.views v).2 ⟨_, hv⟩
  refine ⟨views, views ∪ others, ?_, hP, fun v => ?_⟩
  · rw [hsplit]
    exact run_deliver_union hothers hevents hrun
  · rw [Finset.mem_union, Finset.mem_filter]
    exact or_congr_right (and_iff_right_of_imp fun ⟨i, _, hi⟩ => (h.views v).2 ⟨i, hi⟩)

/-- The map of a character, as the operations on one map see it. -/
theorem Shows.consistent (h : s.Shows boundary sight held) (entity : Character) {here : Views}
    (hhere : ∀ v, v ∈ here ↔ Sees sight s.registry.position
      (s.registry.entities (mapOf (s.registry.map entity))) v) :
    Consistent sight (Stored boundary) ⟨s.registry.mapWith entity, here⟩ where
  stores := ⟨h.holds.placed _, fun x =>
    (h.holds.stored _ x).trans (h.holds.entities _ x).symm⟩
  views := hhere

/-- The views after an operation on one map are those on the new maps. -/
theorem Shows.views_update {position' : Character → Point} {es : Finset Character}
    {views views' : Views} (h : s.Shows boundary sight held)
    (hsame : ∀ x, x ≠ entity → position' x = s.registry.position x)
    (hviews : ∀ v, v ∈ views ↔ Sees sight position' es v)
    (hviews' : ∀ v, v ∈ views' ↔ v ∈ views ∨ ∃ i ≠ mapOf (s.registry.map entity),
      Sees sight s.registry.position (s.registry.entities i) v) (v : Character × Character) :
    v ∈ views' ↔ ∃ i, Sees sight position'
      (Function.update s.registry.entities (mapOf (s.registry.map entity)) es i) v := by
  have hother : ∀ i ≠ mapOf (s.registry.map entity),
      (Sees sight position' (s.registry.entities i) v ↔
        Sees sight s.registry.position (s.registry.entities i) v) := by
    intro i hi
    refine sees_congr fun x hx => hsame x ?_
    rintro rfl
    exact h.not_mem_entities hi hx
  rw [hviews', hviews]
  constructor
  · rintro (hsees | ⟨i, hi, hsees⟩)
    · exact ⟨_, by rwa [Function.update_self]⟩
    · refine ⟨i, ?_⟩
      rw [Function.update_of_ne hi]
      exact (hother i hi).2 hsees
  · rintro ⟨i, hsees⟩
    by_cases hi : i = mapOf (s.registry.map entity)
    · rw [hi, Function.update_self] at hsees
      exact .inl hsees
    · rw [Function.update_of_ne hi] at hsees
      exact .inr ⟨i, hi, (hother i hi).1 hsees⟩

/-- An operation ends at a null pointer, or the clients expect its callbacks and the views are what is
    in sight. -/
def Settles (boundary : Square) (sight : Int) (held : Finset Character)
    (registry : Except Fault Registry) (result : Except Stop Watching) : Prop :=
  (∃ f, result = .error (.fault f)) ∨
    ∃ s', result = .ok s' ∧ registry = .ok s'.registry ∧ s'.Shows boundary sight held

variable (maxContainerEntities) in
theorem Shows.mapAdd (h : s.Shows boundary sight held) (he : entity ∉ held)
    (hin : boundary.InBoundary (s.registry.position entity)) :
    Settles boundary sight (insert entity held)
      (s.registry.mapAdd maxContainerEntities sight entity)
      (s.mapAdd maxContainerEntities sight entity) := by
  rcases (h.holds.placed _).insert_spec maxContainerEntities (h.holds.not_stored he) with
    ⟨hout, -⟩ | ⟨-, herr | ⟨q, hins, -⟩⟩
  · exact absurd hin hout
  · refine .inl ⟨.nullInner, ?_⟩
    simp only [Watching.mapAdd, Registry.mapAdd_error herr]
    rfl
  have hnot : entity ∉ (s.registry.mapWith entity).entities := fun hmem =>
    he ((h.holds.entities _ entity).1 hmem).1
  have hdeliver : ∃ views views' : Views,
      run deliver s.views ((s.registry.mapWith entity).add (quadtree maxContainerEntities) sight
        entity).2 = .ok views' ∧
      (∀ v, v ∈ views ↔ Sees sight s.registry.position
        (insert entity (s.registry.entities (mapOf (s.registry.map entity)))) v) ∧
      ∀ v, v ∈ views' ↔ v ∈ views ∨ ∃ i ≠ mapOf (s.registry.map entity),
        Sees sight s.registry.position (s.registry.entities i) v := by
    refine h.run_deliver concerns_add fun here hhere => ?_
    obtain ⟨w', hstep, hcons⟩ := (h.consistent entity hhere).add
      (isSet_settled maxContainerEntities boundary) hnot hin
    obtain ⟨hmap, hrun⟩ := Watched.of_step_add hstep
    have hsame : Function.update (s.registry.mapWith entity).position entity
        (s.registry.position entity) = (s.registry.mapWith entity).position :=
      Function.update_eq_self entity s.registry.position
    dsimp only at hmap hrun
    rw [hsame, add_settled hins] at hmap hrun
    refine ⟨w'.views, hrun, fun v => ?_⟩
    rw [hcons.views, hmap,
      WorldMap.add_of_insert (m := s.registry.mapWith entity) (quadtree_insert hins)]
    rfl
  obtain ⟨views, views', hrun, hviews, hviews'⟩ := hdeliver
  have hregistry : s.registry.mapAdd maxContainerEntities sight entity = _ :=
    Registry.mapAdd_stored hins
  refine .inr ⟨⟨_, views'⟩, ?_, hregistry, ?_⟩
  · simp only [Watching.mapAdd, hregistry, Watching.deliverAll, hrun]
    rfl
  · refine ⟨(h.holds.mapAdd he hregistry).1 hin, ?_⟩
    exact h.views_update (fun _ _ => rfl) hviews hviews'

variable (maxContainerEntities) in
theorem Shows.mapRemove (h : s.Shows boundary sight held) (he : entity ∈ held) :
    Settles boundary sight (held.erase entity)
      (s.registry.mapRemove maxContainerEntities sight entity)
      (s.mapRemove maxContainerEntities sight entity) := by
  have hstored := (h.holds.stored _ entity).2 ⟨he, rfl⟩
  rcases (h.holds.placed _).remove_spec maxContainerEntities hstored with
    herr | ⟨q, hrem, -, -⟩
  · refine .inl ⟨.nullContainer, ?_⟩
    simp only [Watching.mapRemove, Registry.mapRemove_error herr]
    rfl
  have hmem : entity ∈ (s.registry.mapWith entity).entities :=
    (h.holds.entities _ entity).2 ⟨he, rfl⟩
  have hdeliver : ∃ views views' : Views,
      run deliver s.views ((s.registry.mapWith entity).remove (quadtree maxContainerEntities) sight
        entity false).2 = .ok views' ∧
      (∀ v, v ∈ views.filter (fun v => v.1 ≠ entity) ↔ Sees sight s.registry.position
        ((s.registry.entities (mapOf (s.registry.map entity))).erase entity) v) ∧
      ∀ v, v ∈ views' ↔ v ∈ views ∨ ∃ i ≠ mapOf (s.registry.map entity),
        Sees sight s.registry.position (s.registry.entities i) v := by
    refine h.run_deliver concerns_remove fun here hhere => ?_
    obtain ⟨w', hstep, hcons⟩ := (h.consistent entity hhere).remove
      (isSet_settled maxContainerEntities boundary) hmem
    obtain ⟨hmap, views, hrun, hviews⟩ := Watched.of_step_remove hstep
    dsimp only at hmap hrun
    rw [remove_settled hrem] at hmap hrun
    refine ⟨views, hrun, fun v => ?_⟩
    rw [← hviews, hcons.views, hmap,
      WorldMap.remove_of_remove (m := s.registry.mapWith entity) (quadtree_remove hrem)]
    rfl
  obtain ⟨views, views', hrun, hviews, hviews'⟩ := hdeliver
  have hregistry : s.registry.mapRemove maxContainerEntities sight entity = _ :=
    Registry.mapRemove_erased hrem
  refine .inr ⟨⟨_, views'.filter fun v => v.1 ≠ entity⟩, ?_, hregistry, ?_⟩
  · simp only [Watching.mapRemove, hregistry, Watching.deliverAll, hrun]
    rfl
  · refine ⟨(h.holds.mapRemove he hregistry).1, ?_⟩
    refine h.views_update (fun _ _ => rfl) hviews fun v => ?_
    rw [Finset.mem_filter, Finset.mem_filter, hviews', or_and_right]
    refine or_congr_right (and_iff_left_of_imp ?_)
    rintro ⟨i, hi, hsees⟩ heq
    exact h.not_mem_entities hi (heq ▸ hsees.1)

variable (maxContainerEntities) in
theorem Shows.move (h : s.Shows boundary sight held) (he : entity ∈ held) {dx dy : Int8}
    (hin : boundary.InBoundary (s.registry.target entity dx dy)) (dz : Int8) (stop : Bool) :
    Settles boundary sight held
      (s.registry.move maxContainerEntities sight entity dx dy dz stop)
      (s.move maxContainerEntities sight entity dx dy dz stop) := by
  have hstored := (h.holds.stored _ entity).2 ⟨he, rfl⟩
  rcases (h.holds.placed _).remove_spec maxContainerEntities hstored with
    herr | ⟨q, hrem, hplaced, hperm⟩
  · refine .inl ⟨.nullContainer, ?_⟩
    simp only [Watching.move, Registry.move_error herr]
    rfl
  have hmem : entity ∈ (s.registry.mapWith entity).entities :=
    (h.holds.entities _ entity).2 ⟨he, rfl⟩
  have hgone : entity ∉ q.entities := by
    rw [hperm.mem_iff]
    exact (h.holds.placed _).nodup.not_mem_erase
  have hplaced' : Quad.Placed (Function.update s.registry.position entity
      (s.registry.target entity dx dy)) boundary q := by
    refine hplaced.congr fun x hx => Function.update_of_ne ?_ _ _
    rintro rfl
    exact hgone hx
  rcases hplaced'.insert_spec maxContainerEntities hgone with
    ⟨hout, -⟩ | ⟨-, herr | ⟨q', hins, -⟩⟩
  · rw [Function.update_self] at hout
    exact absurd hin hout
  · refine .inl ⟨.nullInner, ?_⟩
    simp only [Watching.move, Registry.move_refused hrem herr]
    rfl
  have hdeliver : ∃ views views' : Views,
      run deliver s.views ((s.registry.mapWith entity).move (quadtree maxContainerEntities) sight
        entity dx dy dz stop).2 = .ok views' ∧
      (∀ v, v ∈ views ↔ Sees sight (Function.update s.registry.position entity
        (s.registry.target entity dx dy)) (s.registry.entities (mapOf (s.registry.map entity))) v) ∧
      ∀ v, v ∈ views' ↔ v ∈ views ∨ ∃ i ≠ mapOf (s.registry.map entity),
        Sees sight s.registry.position (s.registry.entities i) v := by
    refine h.run_deliver concerns_move fun here hhere => ?_
    obtain ⟨w', hstep, hcons⟩ := (h.consistent entity hhere).move
      (isSet_settled maxContainerEntities boundary) hmem hin
    obtain ⟨hmap, hrun⟩ := Watched.of_step_move hstep
    rw [move_settled hrem hins] at hmap hrun
    refine ⟨w'.views, hrun, fun v => ?_⟩
    rw [hcons.views, hmap, WorldMap.move_of_remove (m := s.registry.mapWith entity)
      (quadtree_remove hrem) rfl rfl (quadtree_insert hins)]
    rfl
  obtain ⟨views, views', hrun, hviews, hviews'⟩ := hdeliver
  have hregistry : s.registry.move maxContainerEntities sight entity dx dy dz stop = _ :=
    Registry.move_stored hrem hins
  refine .inr ⟨⟨_, views'⟩, ?_, hregistry, ?_⟩
  · simp only [Watching.move, hregistry, Watching.deliverAll, hrun]
    rfl
  · refine ⟨(h.holds.move he hin hregistry).1, fun v => ?_⟩
    have hupdate := h.views_update (fun x hx => Function.update_of_ne hx _ _) hviews hviews' v
    exact hupdate

/-! ## The operations of the world -/

/-- A character that is on no map may be given a place, and be registered or not. -/
theorem Shows.relocate (h : s.Shows boundary sight held) (he : entity ∉ held)
    (registered : Finset Character) (map : UInt8) (p : Point) :
    Shows boundary sight held { s with
      registry := { s.registry with
        registered
        map := Function.update s.registry.map entity map
        position := Function.update s.registry.position entity p } } where
  holds := (h.holds.relocate he map p).register registered
  views v := by
    rw [h.views]
    refine exists_congr fun i => (sees_congr fun x hx => ?_).symm
    refine Function.update_of_ne ?_ _ _
    rintro rfl
    exact he ((h.holds.entities i x).1 hx).1

theorem Shows.register (h : s.Shows boundary sight held) (registered : Finset Character) :
    Shows boundary sight held { s with registry := { s.registry with registered } } :=
  ⟨h.holds.register registered, h.views⟩

/-- The maps hold what is registered, and the views are what is in sight. -/
def Fine (boundary : Square) (sight : Int) (s : Watching) : Prop :=
  s.Shows boundary sight s.registry.registered

theorem Fine.step {o : Registry.Op} (h : s.Fine boundary sight) (hguard : s.Guard boundary o) :
    (∃ f, s.step maxContainerEntities sight o = .error (.fault f)) ∨
      ∃ s', s.step maxContainerEntities sight o = .ok s' ∧
        Registry.step maxContainerEntities sight s.registry o = .ok s'.registry ∧
        s'.Fine boundary sight := by
  unfold Fine at h ⊢
  cases o with
  | add entity map p =>
      by_cases he : entity ∈ s.registry.registered
      · refine .inr ⟨s, ?_, ?_, h⟩
        · simp only [Watching.step, if_pos he]
        · simp only [Registry.step, if_pos he]
      have henter := h.relocate he (insert entity s.registry.registered) map p
      have hin : boundary.InBoundary ((s.enter entity map p).registry.position entity) := by
        have hp : boundary.InBoundary p := hguard
        simpa [enter] using hp
      rcases henter.mapAdd maxContainerEntities he hin with
        ⟨f, hf⟩ | ⟨s', hs', hregistry, hshows⟩
      · refine .inl ⟨f, ?_⟩
        simp only [Watching.step, if_neg he]
        exact hf
      · refine .inr ⟨s', ?_, ?_, ?_⟩
        · simp only [Watching.step, if_neg he]
          exact hs'
        · simp only [Registry.step, Registry.add, if_neg he]
          dsimp only at hregistry
          rw [hregistry]
          rfl
        · rw [(henter.holds.mapAdd he hregistry).2.2]
          exact hshows
  | remove entity =>
      rcases h.mapRemove maxContainerEntities hguard with
        ⟨f, hf⟩ | ⟨t, ht, hregistry, hshows⟩
      · refine .inl ⟨f, ?_⟩
        simp only [Watching.step, hf]
        rfl
      have hregistered := (h.holds.mapRemove hguard hregistry).2.1
      refine .inr ⟨t.leave entity, ?_, ?_, ?_⟩
      · simp only [Watching.step, ht]
        rfl
      · have hmem : entity ∈ t.registry.registered := hregistered ▸ hguard
        simp only [Registry.step, Registry.remove, hregistry, ok_bind, if_pos hmem]
        rfl
      · rw [leave, hregistered]
        exact hshows.register _
  | move entity dx dy dz stop =>
      rcases h.move maxContainerEntities hguard.1 hguard.2 dz stop with
        ⟨f, hf⟩ | ⟨t, ht, hregistry, hshows⟩
      · exact .inl ⟨f, hf⟩
      · refine .inr ⟨t, ht, hregistry, ?_⟩
        rw [(h.holds.move hguard.1 hguard.2 hregistry).2]
        exact hshows
  | teleport entity x y map =>
      rcases h.mapRemove maxContainerEntities hguard.1 with
        ⟨f, hf⟩ | ⟨t, ht, hregistry, hshows⟩
      · refine .inl ⟨f, ?_⟩
        simp only [Watching.step, hf]
        rfl
      have hregistered := (h.holds.mapRemove hguard.1 hregistry).2.1
      have hnot := Finset.notMem_erase entity s.registry.registered
      have hmoved := hshows.relocate hnot t.registry.registered
        (Registry.teleportMap (t.registry.map entity) map) ⟨x, y⟩
      have hin : boundary.InBoundary ((t.relocate entity x y map).registry.position entity) := by
        simpa [Watching.relocate] using hguard.2
      rcases hmoved.mapAdd maxContainerEntities hnot hin with
        ⟨f, hf⟩ | ⟨s', hs', hregistry', hshows'⟩
      · refine .inl ⟨f, ?_⟩
        simp only [Watching.step, ht]
        exact hf
      · refine .inr ⟨s', ?_, ?_, ?_⟩
        · simp only [Watching.step, ht]
          exact hs'
        · simp only [Registry.step, Registry.teleport, hregistry, ok_bind]
          exact hregistry'
        · have hsame := (hmoved.holds.mapAdd hnot hregistry').2.2
          rw [hsame]
          dsimp only
          rw [hregistered]
          rwa [Finset.insert_erase hguard.1] at hshows'

/-! ## Along every run -/

theorem Fine.run {ops : List Registry.Op} (h : s.Fine boundary sight)
    (hadm : Admissible (Watching.step maxContainerEntities sight) (Guard boundary) s ops)
    (hrun : run (Watching.step maxContainerEntities sight) s ops = .ok s') :
    s'.Fine boundary sight ∧
      run (Registry.step maxContainerEntities sight) s.registry ops = .ok s'.registry := by
  induction ops generalizing s with
  | nil =>
      rw [run_nil, Except.ok.injEq] at hrun
      rw [← hrun]
      exact ⟨h, rfl⟩
  | cons o ops ih =>
      rcases h.step hadm.1 with ⟨f, hf⟩ | ⟨t, ht, hregistry, hfine⟩
      · rw [run_cons_error ops hf] at hrun
        cases hrun
      · rw [run_cons_ok ops ht] at hrun
        rw [run_cons_ok ops hregistry]
        exact ih hfine (hadm.2 t ht) hrun

theorem Fine.inView_iff (h : s.Fine boundary sight) (p e : Character) :
    (p, e) ∈ s.views ↔ s.registry.InView sight p e := by
  rw [h.views]
  constructor
  · rintro ⟨i, hp, he, hne, hplayer, hloot, hsight⟩
    obtain ⟨hp, hpi⟩ := (h.holds.entities i p).1 hp
    obtain ⟨he, hei⟩ := (h.holds.entities i e).1 he
    exact ⟨hp, he, hne, hplayer, hloot, hpi.symm.trans hei, hsight⟩
  · intro hview
    exact ⟨_, (h.holds.entities _ p).2 ⟨hview.player_mem, rfl⟩,
      (h.holds.entities _ e).2 ⟨hview.entity_mem, hview.same_map⟩, hview.ne, hview.kind,
      hview.not_loot, hview.near⟩

theorem new_fine (map : Character → UInt8) (position : Character → Point) :
    (new boundary map position).Fine boundary sight where
  holds := Registry.holds_new map position
  views v := by simp [new, Registry.new, Sees]

/-- Player 2 teleports to player 1, who walks off; a third one is on another map. -/
def visit : List Registry.Op :=
  [.add ⟨.player, 1⟩ 0 ⟨600, 600⟩, .add ⟨.monster, 1⟩ 0 ⟨700, 600⟩, .add ⟨.player, 3⟩ 1 ⟨600, 600⟩,
    .add ⟨.player, 2⟩ 0 ⟨9000, 600⟩, .teleport ⟨.player, 2⟩ 1500 600 (-1),
    .move ⟨.player, 1⟩ (-100) 0 0 false, .teleport ⟨.player, 3⟩ 600 600 0, .remove ⟨.player, 1⟩]

/-- The monster is still in the world then, where it was. -/
theorem visit_ok :
    ∃ s, run (Watching.step 32 920) (new ⟨⟨0, 0⟩, mapWidth⟩ (fun _ => 0) fun _ => ⟨0, 0⟩) visit =
        .ok s ∧
      ⟨.monster, 1⟩ ∈ s.registry.registered ∧ s.registry.position ⟨.monster, 1⟩ = ⟨700, 600⟩ := by
  have hany : (run (Watching.step 32 920) (new ⟨⟨0, 0⟩, mapWidth⟩ (fun _ => 0) fun _ => ⟨0, 0⟩)
      visit).toOption.any (fun s => decide (⟨.monster, 1⟩ ∈ s.registry.registered ∧
        s.registry.position ⟨.monster, 1⟩ = ⟨700, 600⟩)) = true := by decide +kernel
  cases hrun : run (Watching.step 32 920) (new ⟨⟨0, 0⟩, mapWidth⟩ (fun _ => 0) fun _ => ⟨0, 0⟩)
      visit with
  | error f =>
      rw [hrun] at hany
      cases hany
  | ok s =>
      rw [hrun] at hany
      exact ⟨s, rfl, of_decide_eq_true hany⟩

theorem visit_admissible :
    Admissible (Watching.step 32 920) (Guard ⟨⟨0, 0⟩, mapWidth⟩)
      (new ⟨⟨0, 0⟩, mapWidth⟩ (fun _ => 0) fun _ => ⟨0, 0⟩) visit := by decide +kernel

/-- The square in which `WriteInSight` looks for players does not leave `int`. -/
theorem fits_of_inBoundary {center : IntPoint}
    (h : (⟨⟨0, 0⟩, mapWidth⟩ : Square).InBoundary center.toPoint) :
    WorldMap.Fits center mapSight := by
  have hsight : mapSight.toNat = 920 := rfl
  simp only [Square.InBoundary, Square.left, Square.right, Square.bottom, Square.top,
    IntPoint.toPoint, mapWidth] at h
  unfold WorldMap.Fits
  rw [hsight]
  omega

/-- What is written in sight of a character reaches, once each, the players that see it, and the
    character itself when it is a player. -/
theorem run_writeInSight {map : Character → UInt8} {position : Character → Point}
    {ops : List Registry.Op}
    (hadm : Admissible (Watching.step maxContainerEntities 920) (Guard ⟨⟨0, 0⟩, mapWidth⟩)
      (new ⟨⟨0, 0⟩, mapWidth⟩ map position) ops)
    (hrun : run (Watching.step maxContainerEntities 920) (new ⟨⟨0, 0⟩, mapWidth⟩ map position) ops =
      .ok s)
    (he : entity ∈ s.registry.registered) (hloot : entity.kind ≠ .loot) {center : IntPoint}
    (hcenter : center.toPoint = s.registry.position entity) :
    (s.writeInSight entity center).Nodup ∧
      ∀ p, p ∈ s.writeInSight entity center ↔
        p.kind = .player ∧ (p = entity ∨ (p, entity) ∈ s.views) := by
  obtain ⟨hfine, -⟩ := (new_fine map position).run hadm hrun
  have hplaced : Quad.Placed (s.registry.mapWith entity).position ⟨⟨0, 0⟩, mapWidth⟩
      (s.registry.mapWith entity).quad := hfine.holds.placed _
  have hin : (⟨⟨0, 0⟩, mapWidth⟩ : Square).InBoundary center.toPoint := by
    rw [hcenter]
    exact hplaced.entity_inside ((hfine.holds.stored _ entity).2 ⟨he, rfl⟩)
  have hfits := fits_of_inBoundary hin
  unfold writeInSight
  rw [forEachPlayerAround_eq]
  refine ⟨nodup_forEachAround hplaced, fun p => ?_⟩
  rw [mem_forEachAround hplaced.shaped]
  constructor
  · rintro ⟨hvisited, -, hasked, hnear⟩
    have hplayer := (asked_player p.kind).1 hasked
    obtain ⟨hp, hmap⟩ := (hfine.holds.stored _ p).1 hvisited.stored
    refine ⟨hplayer, ?_⟩
    by_cases hself : p = entity
    · exact .inl hself
    · rw [hcenter] at hnear
      exact .inr ((hfine.inView_iff p entity).2 ⟨hp, he, hself, hplayer, hloot, hmap.symm, hnear⟩)
  · rintro ⟨hplayer, hsees⟩
    have hstored : p ∈ (s.registry.mapWith entity).quad.entities ∧
        (s.registry.position p).distance center.toPoint ≤ mapSight.toNat := by
      rw [hcenter]
      rcases hsees with rfl | hsees
      · refine ⟨(hfine.holds.stored _ p).2 ⟨he, rfl⟩, ?_⟩
        simp [Point.distance]
      · have hview := (hfine.inView_iff p entity).1 hsees
        have hnear := hview.near
        exact ⟨(hfine.holds.stored _ p).2 ⟨hview.player_mem, hview.same_map.symm⟩,
          by exact_mod_cast hnear⟩
    refine ⟨visited_of_fits hplaced hstored.1 hfits hstored.2, ?_, ?_, ?_⟩
    · rw [hplayer]
      decide
    · exact (asked_player p.kind).2 hplayer
    · exact Int.ofNat_le.2 hstored.2

theorem run_writeInSight_visit :
    ∃ s, run (Watching.step 32 920) (new ⟨⟨0, 0⟩, mapWidth⟩ (fun _ => 0) fun _ => ⟨0, 0⟩) visit =
        .ok s ∧
      (s.writeInSight ⟨.monster, 1⟩ ⟨700, 600⟩).Nodup ∧
        ∀ p, p ∈ s.writeInSight ⟨.monster, 1⟩ ⟨700, 600⟩ ↔
          p.kind = .player ∧ (p = ⟨.monster, 1⟩ ∨ (p, ⟨.monster, 1⟩) ∈ s.views) := by
  obtain ⟨s, hrun, hmem, hposition⟩ := visit_ok
  exact ⟨s, hrun, run_writeInSight visit_admissible hrun hmem (by decide) (by rw [hposition]; rfl)⟩

end Watching

end Bango.World
