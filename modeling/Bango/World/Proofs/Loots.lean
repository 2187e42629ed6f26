import Bango.Space.Proofs.Placed
import Bango.World.Proofs.Views
import Bango.World.Registry

set_option autoImplicit false

/-! # The loots a player sees

A player that moves is told of the loots it leaves behind, and of none it comes near: its view of
loots stays what is in sight exactly when no loot comes into sight. `Add` announces all of them. -/

namespace Bango.World

open Bango.Lib Bango.Space

variable {maxContainerEntities : Nat} {sight : Int} {boundary : Square}

/-- `m_on_appear` adds to the player's view of loots, `m_on_disappear` deletes from it. -/
def viewLoot (player : Character) (view : Finset Character) : Event → Finset Character
  | .appear p e _ => if p = player ∧ e.kind = .loot then insert e view else view
  | .disappear p e => if p = player ∧ e.kind = .loot then view.erase e else view
  | .move .. => view

/-- The player's view of loots after some callbacks. -/
def lootView (player : Character) (view : Finset Character) (events : List Event) :
    Finset Character :=
  events.foldl (viewLoot player) view

namespace WorldMap

/-- The stored loots within `m_sight` of a point. -/
def lootsInSight (sight : Int) (m : WorldMap Tree) (p : Point) : Finset Character :=
  m.quad.entities.toFinset.filter fun e => e.kind = .loot ∧ InSight sight (m.position e) p

/-- Where `Move` takes a character. -/
def target (m : WorldMap Tree) (entity : Character) (deltaX deltaY : Int8) : Point :=
  ⟨(m.position entity).x + deltaX.toInt, (m.position entity).y + deltaY.toInt⟩

end WorldMap

variable {m : WorldMap Tree} {player loot : Character} {view : Finset Character}
  {events : List Event} {q : Tree}

/-! ## Views of loot -/

/-- Without appearances of loot. -/
theorem mem_lootView_of_disappear
    (h : ∀ e spawn, e.kind = .loot → Event.appear player e spawn ∉ events)
    (hloot : loot.kind = .loot) :
    loot ∈ lootView player view events ↔ loot ∈ view ∧ Event.disappear player loot ∉ events := by
  unfold lootView
  induction events generalizing view with
  | nil => simp
  | cons ev events ih =>
      have htail : ∀ e spawn, e.kind = .loot → Event.appear player e spawn ∉ events :=
        fun e spawn he hmem => h e spawn he (List.mem_cons_of_mem ev hmem)
      rw [List.foldl_cons, ih htail, List.mem_cons, not_or, ← and_assoc]
      refine and_congr_left fun _ => ?_
      cases ev with
      | appear p e spawn =>
          have hnot : ¬ (p = player ∧ e.kind = .loot) := fun hpe =>
            h e spawn hpe.2 (hpe.1 ▸ List.mem_cons_self)
          simp [viewLoot, hnot]
      | disappear p e =>
          by_cases hpe : p = player ∧ e.kind = .loot
          · simp only [viewLoot, if_pos hpe, Finset.mem_erase]
            rw [and_comm, hpe.1]
            refine and_congr_right fun _ => not_congr ?_
            constructor
            · intro heq
              rw [heq]
            · intro heq
              exact (Event.disappear.inj heq).2
          · have hne : Event.disappear player loot ≠ .disappear p e := by
              intro heq
              obtain ⟨rfl, rfl⟩ := Event.disappear.inj heq
              exact hpe ⟨rfl, hloot⟩
            simp only [viewLoot, if_neg hpe, and_iff_left hne]
      | move => simp [viewLoot]

/-- Without disappearances of loot. -/
theorem mem_lootView_of_appear
    (h : ∀ e, e.kind = .loot → Event.disappear player e ∉ events) (hloot : loot.kind = .loot) :
    loot ∈ lootView player view events ↔
      loot ∈ view ∨ ∃ spawn, Event.appear player loot spawn ∈ events := by
  unfold lootView
  induction events generalizing view with
  | nil => simp
  | cons ev events ih =>
      have htail : ∀ e, e.kind = .loot → Event.disappear player e ∉ events :=
        fun e he hmem => h e he (List.mem_cons_of_mem ev hmem)
      simp only [List.foldl_cons, ih htail, List.mem_cons, exists_or, ← or_assoc]
      refine or_congr_left ?_
      cases ev with
      | disappear p e =>
          have hnot : ¬ (p = player ∧ e.kind = .loot) := fun hpe =>
            h e hpe.2 (hpe.1 ▸ List.mem_cons_self)
          simp [viewLoot, hnot]
      | appear p e spawn =>
          by_cases hpe : p = player ∧ e.kind = .loot
          · simp only [viewLoot, if_pos hpe, Finset.mem_insert, Event.appear.injEq]
            rw [or_comm, hpe.1]
            simp
          · have hne : ∀ s, Event.appear player loot s ≠ .appear p e spawn := by
              intro s heq
              obtain ⟨rfl, rfl, -⟩ := Event.appear.inj heq
              exact hpe ⟨rfl, hloot⟩
            simp [viewLoot, hpe, hne]
      | move => simp [viewLoot]

theorem lootView_subset (h : ∀ e ∈ view, e.kind = .loot) :
    ∀ e ∈ lootView player view events, e.kind = .loot := by
  unfold lootView
  induction events generalizing view with
  | nil => exact h
  | cons ev events ih =>
      refine ih fun e he => ?_
      cases ev with
      | appear p e' spawn =>
          simp only [viewLoot] at he
          split_ifs at he with hpe
          · rcases Finset.mem_insert.1 he with rfl | he
            · exact hpe.2
            · exact h e he
          · exact h e he
      | disappear p e' =>
          simp only [viewLoot] at he
          split_ifs at he with hpe
          · exact h e (Finset.mem_of_mem_erase he)
          · exact h e he
      | move => exact h e he

/-! ## The callbacks about loot -/

section

variable {c : Container} {old new : Point} {dx dy dz : Int8} {stop spawn : Bool}

/-- A callback that is made for `loot` only, when `P` holds. -/
theorem mem_visits_iff (hplayer : player.kind = .player) {ev : Event} {P : Prop}
    {onPlayer onOther onLoot : Character → List Event} (hloot : loot.kind = .loot)
    (hplayers : ∀ x, x.kind = .player → ev ∉ onPlayer x)
    (hothers : ∀ x, x.kind ≠ .loot → ev ∉ onOther x)
    (hloots : ∀ x, ev ∈ onLoot x ↔ x = loot ∧ P) :
    ev ∈ c.all.flatMap (visit player onPlayer onOther onLoot) ↔ loot ∈ c.all ∧ P := by
  rw [List.mem_flatMap]
  constructor
  · intro h
    obtain ⟨x, hx, hev⟩ := h
    cases hk : x.kind with
    | player =>
        simp only [visit, hk] at hev
        exact absurd hev (hplayers x hk)
    | npc =>
        simp only [visit, hk, if_pos hplayer] at hev
        exact absurd hev (hothers x (by simp [hk]))
    | monster =>
        simp only [visit, hk, if_pos hplayer] at hev
        exact absurd hev (hothers x (by simp [hk]))
    | loot =>
        simp only [visit, hk, if_pos hplayer] at hev
        obtain ⟨rfl, hP⟩ := (hloots x).1 hev
        exact ⟨hx, hP⟩
  · intro h
    obtain ⟨hmem, hP⟩ := h
    refine ⟨loot, hmem, ?_⟩
    simp only [visit, hloot, if_pos hplayer]
    exact (hloots loot).2 ⟨rfl, hP⟩

/-- A callback that is never made. -/
theorem not_mem_visits (hplayer : player.kind = .player) {ev : Event}
    {onPlayer onOther onLoot : Character → List Event}
    (hplayers : ∀ x, x.kind = .player → ev ∉ onPlayer x)
    (hothers : ∀ x, x.kind ≠ .loot → ev ∉ onOther x) (hloots : ∀ x, ev ∉ onLoot x) :
    ev ∉ c.all.flatMap (visit player onPlayer onOther onLoot) := by
  have hnone : ∀ x, ev ∈ onLoot x ↔ x = ⟨.loot, 0⟩ ∧ False := fun x => by simp [hloots x]
  rw [mem_visits_iff hplayer rfl hplayers hothers hnone]
  exact And.right

theorem ne_of_kinds {x y : Character} {k : Kind} (hx : x.kind ≠ k) (hy : y.kind = k) : x ≠ y :=
  fun h => hx (h ▸ hy)

theorem disappear_mem_moveOldEvents (hc : c.Typed) (hplayer : player.kind = .player)
    (hloot : loot.kind = .loot) :
    .disappear player loot ∈ m.moveOldEvents sight player old new c ↔
      loot ∈ c.all ∧ InSight sight (m.position loot) old ∧
        ¬ InSight sight (m.position loot) new := by
  have hne : player ≠ loot := ne_of_kinds (by simp [hplayer]) hloot
  unfold WorldMap.moveOldEvents
  rw [loops_eq_visit hc]
  refine mem_visits_iff hplayer hloot (fun x hx => ?_) (fun x hx => ?_) fun x => ?_
  · have hx' : x ≠ loot := ne_of_kinds (by simp [hx]) hloot
    simp [hne.symm, hx'.symm]
  · simp [(ne_of_kinds hx hloot).symm]
  · rw [mem_ite_nil, List.mem_singleton, Event.disappear.injEq, and_comm]
    constructor
    · rintro ⟨⟨-, rfl⟩, hleaves⟩
      exact ⟨rfl, hleaves⟩
    · rintro ⟨rfl, hleaves⟩
      exact ⟨⟨rfl, rfl⟩, hleaves⟩

theorem appear_mem_addEvents (hc : c.Typed) (hplayer : player.kind = .player)
    (hloot : loot.kind = .loot) :
    .appear player loot spawn ∈ m.addEvents sight player c ↔
      loot ∈ c.all ∧ InSight sight (m.position loot) (m.position player) ∧ spawn = false := by
  have hne : player ≠ loot := ne_of_kinds (by simp [hplayer]) hloot
  unfold WorldMap.addEvents
  rw [loops_eq_visit hc]
  refine mem_visits_iff hplayer hloot (fun x hx => ?_) (fun x hx => ?_) fun x => ?_
  · have hx' : x ≠ loot := ne_of_kinds (by simp [hx]) hloot
    simp [hne.symm, hx'.symm]
  · simp [(ne_of_kinds hx hloot).symm]
  · rw [mem_ite_nil, List.mem_singleton, Event.appear.injEq]
    constructor
    · rintro ⟨hsight, -, rfl, rfl⟩
      exact ⟨rfl, hsight, rfl⟩
    · rintro ⟨rfl, hsight, rfl⟩
      exact ⟨hsight, rfl, rfl, rfl⟩

/-- `Move` announces no loot. -/
theorem appear_not_mem_moveOldEvents (hc : c.Typed) (hplayer : player.kind = .player) :
    .appear player loot spawn ∉ m.moveOldEvents sight player old new c := by
  unfold WorldMap.moveOldEvents
  rw [loops_eq_visit hc]
  refine not_mem_visits hplayer (fun x _ => ?_) (fun x _ => ?_) fun x => ?_
  all_goals simp

theorem appear_not_mem_moveNewEvents (hc : c.Typed) (hplayer : player.kind = .player)
    (hloot : loot.kind = .loot) :
    .appear player loot spawn ∉ m.moveNewEvents sight player old new dx dy dz stop c := by
  have hne : player ≠ loot := ne_of_kinds (by simp [hplayer]) hloot
  unfold WorldMap.moveNewEvents
  rw [loops_eq_visit_of_no_loots hc]
  refine not_mem_visits hplayer (fun x hx => ?_) (fun x hx => ?_) fun x => ?_
  · have hx' : x ≠ loot := ne_of_kinds (by simp [hx]) hloot
    split_ifs <;> simp [hne.symm, hx'.symm]
  · simp [(ne_of_kinds hx hloot).symm]
  · simp

/-- The second half of `Move` takes no loot from a view, -/
theorem disappear_not_mem_moveNewEvents (hc : c.Typed) (hplayer : player.kind = .player) :
    .disappear player loot ∉ m.moveNewEvents sight player old new dx dy dz stop c := by
  unfold WorldMap.moveNewEvents
  rw [loops_eq_visit_of_no_loots hc]
  refine not_mem_visits hplayer (fun x _ => ?_) (fun x _ => ?_) fun x => ?_
  · split_ifs <;> simp
  · simp
  · simp

/-- and neither does `Add`. -/
theorem disappear_not_mem_addEvents (hc : c.Typed) (hplayer : player.kind = .player) :
    .disappear player loot ∉ m.addEvents sight player c := by
  unfold WorldMap.addEvents
  rw [loops_eq_visit hc]
  refine not_mem_visits hplayer (fun x _ => ?_) (fun x _ => ?_) fun x => ?_
  all_goals simp

end

/-! ## A query of the quadtree -/

section

variable {center : Point} {f : Container → List Event} {ev : Event}

theorem typed_of_mem_query {c : Container}
    (h : c ∈ (quadtree maxContainerEntities).query q center sight) : c.Typed := by
  obtain ⟨d, -, rfl⟩ := List.mem_map.1 h
  exact d.derived.2.typed

variable (maxContainerEntities sight center loot) in
/-- A query is complete for what is in its range. -/
theorem exists_mem_query_iff {position : Character → Point}
    (hq : Quad.Placed position boundary q) :
    (∃ c ∈ (quadtree maxContainerEntities).query q center sight,
        loot ∈ c.all ∧ InSight sight (position loot) center) ↔
      loot ∈ q.entities ∧ InSight sight (position loot) center := by
  constructor
  · intro h
    obtain ⟨c, hc, hmem, hsight⟩ := h
    obtain ⟨d, hd, rfl⟩ := List.mem_map.1 hc
    refine ⟨?_, hsight⟩
    rw [Quad.entities_eq_flatMap_leaves]
    exact List.mem_flatMap.2 ⟨d, Quad.Placed.mem_of_mem_query hd, hmem⟩
  · intro h
    obtain ⟨hmem, hsight⟩ := h
    obtain ⟨d, hd, hmem'⟩ := hq.exists_mem_query hmem hsight
    exact ⟨d.derived.1, List.mem_map_of_mem hd, hmem', hsight⟩

end

/-! ## Move and Add -/

section

variable {dx dy dz : Int8} {stop : Bool}

/-- The callbacks of `Move`, from the tree without the player. -/
def moveEvents (maxContainerEntities : Nat) (sight : Int) (m : WorldMap Tree) (player : Character)
    (q : Tree) (dx dy dz : Int8) (stop : Bool) : List Event :=
  let without : WorldMap Tree :=
    { m with quad := q, position := Function.update m.position player (m.target player dx dy) }
  ((quadtree maxContainerEntities).query q (m.position player) sight).flatMap
    (without.moveOldEvents sight player (m.position player) (m.target player dx dy)) ++
  ((quadtree maxContainerEntities).query q (m.target player dx dy) sight).flatMap
    (without.moveNewEvents sight player (m.position player) (m.target player dx dy) dx dy dz stop)

variable (sight dx dy dz stop) in
/-- `Move`, whether or not the character finds its way back into the tree. -/
theorem exists_move_eq (hrem : m.quad.remove m.position maxContainerEntities player = .ok q) :
    ∃ q', (q' = q ∨ q.insert (Function.update m.position player (m.target player dx dy))
        maxContainerEntities player = .ok q') ∧
      m.move (quadtree maxContainerEntities) sight player dx dy dz stop =
        ({ m with quad := q', position := Function.update m.position player (m.target player dx dy) },
          moveEvents maxContainerEntities sight m player q dx dy dz stop) := by
  have hrem' : (quadtree maxContainerEntities).remove m.position player m.quad = some q := by
    simp only [quadtree, hrem, Except.toOption]
  cases hins : q.insert (Function.update m.position player (m.target player dx dy))
      maxContainerEntities player with
  | ok q' =>
      have hins' : (quadtree maxContainerEntities).insert (Function.update m.position player
          ⟨(m.position player).x + dx.toInt, (m.position player).y + dy.toInt⟩) player q =
          some q' := congrArg Except.toOption hins
      refine ⟨q', .inr rfl, ?_⟩
      simp only [WorldMap.move, hrem', hins']
      rfl
  | error f =>
      have hins' : (quadtree maxContainerEntities).insert (Function.update m.position player
          ⟨(m.position player).x + dx.toInt, (m.position player).y + dy.toInt⟩) player q =
          none := congrArg Except.toOption hins
      refine ⟨q, .inl rfl, ?_⟩
      simp only [WorldMap.move, hrem', hins']
      rfl

theorem mem_lootsInSight {p : Point} :
    loot ∈ m.lootsInSight sight p ↔
      loot ∈ m.quad.entities ∧ loot.kind = .loot ∧ InSight sight (m.position loot) p := by
  simp [WorldMap.lootsInSight]

/-- The tree without the player, at whatever position the player is now. -/
theorem placed_without (hm : Quad.Placed m.position boundary m.quad)
    (hstored : player ∈ m.quad.entities)
    (hrem : m.quad.remove m.position maxContainerEntities player = .ok q) (p : Point) :
    Quad.Placed (Function.update m.position player p) boundary q ∧ player ∉ q.entities ∧
      ∀ x, x ≠ player → (x ∈ q.entities ↔ x ∈ m.quad.entities) := by
  rcases hm.remove_spec maxContainerEntities hstored with herr | ⟨q', hok, hplaced, hperm⟩
  · cases hrem.symm.trans herr
  · obtain rfl := Except.ok.inj (hrem.symm.trans hok)
    have hmem : ∀ x, x ∈ q.entities ↔ x ≠ player ∧ x ∈ m.quad.entities := fun x => by
      rw [hperm.mem_iff, hm.nodup.mem_erase_iff]
    have hgone : player ∉ q.entities := fun h => ((hmem player).1 h).1 rfl
    refine ⟨hplaced.congr fun x hx => ?_, hgone, fun x hx => by rw [hmem, and_iff_right hx]⟩
    have hne : x ≠ player := fun heq => hgone (heq ▸ hx)
    exact Function.update_of_ne hne p m.position

theorem lootsInSight_congr (sight : Int) (m m' : WorldMap Tree) (p : Point)
    (hposition : ∀ x, x.kind = .loot → m'.position x = m.position x)
    (hmem : ∀ x, x.kind = .loot → (x ∈ m'.quad.entities ↔ x ∈ m.quad.entities)) :
    m'.lootsInSight sight p = m.lootsInSight sight p := by
  ext loot
  rw [mem_lootsInSight, mem_lootsInSight]
  constructor
  · intro h
    obtain ⟨hstored, hloot, hsight⟩ := h
    exact ⟨(hmem loot hloot).1 hstored, hloot, hposition loot hloot ▸ hsight⟩
  · intro h
    obtain ⟨hstored, hloot, hsight⟩ := h
    exact ⟨(hmem loot hloot).2 hstored, hloot, (hposition loot hloot).symm ▸ hsight⟩

/-- What `Add` announces is what is in sight. -/
theorem lootView_add (maxContainerEntities : Nat) (sight : Int) (m : WorldMap Tree)
    (hm : Quad.Placed m.position boundary m.quad)
    (hplayer : player.kind = .player) :
    lootView player ∅ (m.add (quadtree maxContainerEntities) sight player).2 =
      m.lootsInSight sight (m.position player) := by
  have hevents : (m.add (quadtree maxContainerEntities) sight player).2 =
      ((quadtree maxContainerEntities).query m.quad (m.position player) sight).flatMap
        (m.addEvents sight player) := by
    unfold WorldMap.add
    split <;> rfl
  have hkept : ∀ e, e.kind = .loot →
      Event.disappear player e ∉ (m.add (quadtree maxContainerEntities) sight player).2 := by
    intro e _ hmem
    rw [hevents] at hmem
    obtain ⟨c, hc, hmem⟩ := List.mem_flatMap.1 hmem
    exact disappear_not_mem_addEvents (typed_of_mem_query hc) hplayer hmem
  ext loot
  by_cases hloot : loot.kind = .loot
  · rw [mem_lootView_of_appear hkept hloot, mem_lootsInSight, and_iff_right hloot,
      ← exists_mem_query_iff maxContainerEntities sight loot (m.position player) hm, hevents,
      or_iff_right (Finset.notMem_empty loot)]
    simp only [List.mem_flatMap]
    constructor
    · intro h
      obtain ⟨spawn, c, hc, hmem⟩ := h
      obtain ⟨hall, hsight, -⟩ := (appear_mem_addEvents (typed_of_mem_query hc) hplayer hloot).1 hmem
      exact ⟨c, hc, hall, hsight⟩
    · intro h
      obtain ⟨c, hc, hall, hsight⟩ := h
      exact ⟨false, c, hc,
        (appear_mem_addEvents (typed_of_mem_query hc) hplayer hloot).2 ⟨hall, hsight, rfl⟩⟩
  · constructor
    · intro h
      exact absurd (lootView_subset (fun e he => absurd he (Finset.notMem_empty e)) loot h) hloot
    · intro h
      exact absurd (mem_lootsInSight.1 h).2.1 hloot

/-- The callbacks of `Move` leave the loots that were in sight and still are. -/
theorem mem_lootView_move (hm : Quad.Placed m.position boundary m.quad)
    (hplayer : player.kind = .player) (hstored : player ∈ m.quad.entities)
    (hrem : m.quad.remove m.position maxContainerEntities player = .ok q) :
    loot ∈ lootView player (m.lootsInSight sight (m.position player))
        (moveEvents maxContainerEntities sight m player q dx dy dz stop) ↔
      loot ∈ m.lootsInSight sight (m.position player) ∧
        loot ∈ m.lootsInSight sight (m.target player dx dy) := by
  obtain ⟨hq, -, hmem⟩ := placed_without hm hstored hrem (m.target player dx dy)
  have hnone : ∀ e spawn, e.kind = .loot → Event.appear player e spawn ∉
      moveEvents maxContainerEntities sight m player q dx dy dz stop := by
    intro e spawn he hev
    rw [moveEvents, List.mem_append, List.mem_flatMap, List.mem_flatMap] at hev
    rcases hev with ⟨c, hc, hev⟩ | ⟨c, hc, hev⟩
    · exact appear_not_mem_moveOldEvents (typed_of_mem_query hc) hplayer hev
    · exact appear_not_mem_moveNewEvents (typed_of_mem_query hc) hplayer he hev
  by_cases hloot : loot.kind = .loot
  · have hne : loot ≠ player := (ne_of_kinds (by simp [hplayer]) hloot).symm
    have hposition : Function.update m.position player (m.target player dx dy) loot =
        m.position loot := Function.update_of_ne hne _ _
    have hdisappear : Event.disappear player loot ∈
          moveEvents maxContainerEntities sight m player q dx dy dz stop ↔
        (loot ∈ m.quad.entities ∧ InSight sight (m.position loot) (m.position player)) ∧
          ¬ InSight sight (m.position loot) (m.target player dx dy) := by
      have hquery := exists_mem_query_iff maxContainerEntities sight loot (m.position player) hq
      rw [hposition, hmem loot hne] at hquery
      rw [← hquery, moveEvents, List.mem_append, List.mem_flatMap, List.mem_flatMap]
      constructor
      · intro h
        rcases h with ⟨c, hc, hev⟩ | ⟨c, hc, hev⟩
        · obtain ⟨hall, hold, hnew⟩ :=
            (disappear_mem_moveOldEvents (typed_of_mem_query hc) hplayer hloot).1 hev
          simp only [hposition] at hold hnew
          exact ⟨⟨c, hc, hall, hold⟩, hnew⟩
        · exact absurd hev (disappear_not_mem_moveNewEvents (typed_of_mem_query hc) hplayer)
      · intro h
        obtain ⟨⟨c, hc, hall, hold⟩, hnew⟩ := h
        refine .inl ⟨c, hc,
          (disappear_mem_moveOldEvents (typed_of_mem_query hc) hplayer hloot).2 ⟨hall, ?_⟩⟩
        simp only [hposition]
        exact ⟨hold, hnew⟩
    rw [mem_lootView_of_disappear hnone hloot, hdisappear, mem_lootsInSight, mem_lootsInSight]
    tauto
  · constructor
    · intro h
      exact absurd (lootView_subset (fun e he => (mem_lootsInSight.1 he).2.1) loot h) hloot
    · intro h
      exact absurd (mem_lootsInSight.1 h.1).2.1 hloot

/-- The view of loots after a move is what is in sight, as `Add` would announce it, exactly when no
    loot comes into sight. -/
theorem lootView_move_iff (hm : Quad.Placed m.position boundary m.quad)
    (hplayer : player.kind = .player) (hstored : player ∈ m.quad.entities)
    (hrem : m.quad.remove m.position maxContainerEntities player = .ok q)
    (hview : view = m.lootsInSight sight (m.position player)) :
    (lootView player view (m.move (quadtree maxContainerEntities) sight player dx dy dz stop).2 =
        (m.move (quadtree maxContainerEntities) sight player dx dy dz stop).1.lootsInSight sight
          (m.target player dx dy) ∧
      lootView player view (m.move (quadtree maxContainerEntities) sight player dx dy dz stop).2 =
        lootView player ∅
          (WorldMap.add (quadtree maxContainerEntities) sight
            { (m.move (quadtree maxContainerEntities) sight player dx dy dz stop).1 with quad := q }
            player).2) ↔
      ∀ loot ∈ m.lootsInSight sight (m.target player dx dy),
        loot ∈ m.lootsInSight sight (m.position player) := by
  subst hview
  obtain ⟨hq, hgone, hmem⟩ := placed_without hm hstored hrem (m.target player dx dy)
  obtain ⟨q', hq', hmove⟩ := exists_move_eq sight dx dy dz stop hrem
  have hne : ∀ x : Character, x.kind = .loot → x ≠ player := fun x hx =>
    (ne_of_kinds (by simp [hplayer]) hx).symm
  have hposition : ∀ x : Character, x.kind = .loot →
      Function.update m.position player (m.target player dx dy) x = m.position x :=
    fun x hx => Function.update_of_ne (hne x hx) _ _
  have hentities : ∀ x : Character, x.kind = .loot → (x ∈ q'.entities ↔ x ∈ m.quad.entities) := by
    intro x hx
    rw [← hmem x (hne x hx)]
    rcases hq' with rfl | hins
    · rfl
    · have hdone := hq.insertWithin _ hgone hins
      rw [hdone.entities_perm.mem_iff, List.mem_cons, or_iff_right (hne x hx)]
  have hmoved := lootsInSight_congr sight m
    ⟨q', m.entities, Function.update m.position player (m.target player dx dy)⟩
    (m.target player dx dy) hposition hentities
  have hwithout := lootsInSight_congr sight m
    ⟨q, m.entities, Function.update m.position player (m.target player dx dy)⟩
    (m.target player dx dy) hposition fun x hx => hmem x (hne x hx)
  have hadd := lootView_add maxContainerEntities sight
    ⟨q, m.entities, Function.update m.position player (m.target player dx dy)⟩ hq hplayer
  rw [hmove]
  simp only [hmoved]
  rw [hadd]
  simp only [Function.update_self, hwithout, and_self]
  constructor
  · intro h loot hloot
    rw [← h, mem_lootView_move hm hplayer hstored hrem] at hloot
    exact hloot.1
  · intro h
    ext loot
    rw [mem_lootView_move hm hplayer hstored hrem]
    exact and_iff_right_of_imp (h loot)

/-- Loot a thousand steps away from a player. -/
def lootAhead : WorldMap Tree :=
  let position (e : Character) : Point := if e.kind = .loot then ⟨1600, 600⟩ else ⟨600, 600⟩
  { quad := .leaf ⟨⟨0, 0⟩, mapWidth⟩
      ((QuadEntityContainer.new._insert position ⟨.loot, 1⟩)._insert position ⟨.player, 1⟩)
    entities := {⟨.loot, 1⟩, ⟨.player, 1⟩}
    position }

theorem placed_lootAhead : Quad.Placed lootAhead.position ⟨⟨0, 0⟩, mapWidth⟩ lootAhead.quad := by
  refine .leaf ((QuadEntityContainer.exact_new.insert ?_).insert ?_) ?_
  · decide
  · decide
  · decide

/-- A step keeps the loot out of sight. -/
theorem lootView_move_lootAhead :
    (lootView ⟨.player, 1⟩ ∅ (lootAhead.move (quadtree 32) 920 ⟨.player, 1⟩ 1 0 0 false).2 =
        (lootAhead.move (quadtree 32) 920 ⟨.player, 1⟩ 1 0 0 false).1.lootsInSight 920
          (lootAhead.target ⟨.player, 1⟩ 1 0) ∧
      lootView ⟨.player, 1⟩ ∅ (lootAhead.move (quadtree 32) 920 ⟨.player, 1⟩ 1 0 0 false).2 =
        lootView ⟨.player, 1⟩ ∅
          (WorldMap.add (quadtree 32) 920
            { (lootAhead.move (quadtree 32) 920 ⟨.player, 1⟩ 1 0 0 false).1 with
              quad := .leaf ⟨⟨0, 0⟩, mapWidth⟩
                (QuadEntityContainer.new._insert lootAhead.position ⟨.loot, 1⟩) }
            ⟨.player, 1⟩).2) ↔
      ∀ loot ∈ lootAhead.lootsInSight 920 (lootAhead.target ⟨.player, 1⟩ 1 0),
        loot ∈ lootAhead.lootsInSight 920 (lootAhead.position ⟨.player, 1⟩) :=
  lootView_move_iff placed_lootAhead rfl (by decide) rfl (by decide +kernel)

/-- A step brings the loot into sight, and the player is not told of it. -/
theorem lootView_move_ne :
    Quad.Placed lootAhead.position ⟨⟨0, 0⟩, mapWidth⟩ lootAhead.quad ∧
      ⟨.player, 1⟩ ∈ lootAhead.quad.entities ∧
      (⟨⟨0, 0⟩, mapWidth⟩ : Square).InBoundary (lootAhead.target ⟨.player, 1⟩ 127 0) ∧
      lootAhead.lootsInSight 920 (lootAhead.position ⟨.player, 1⟩) = ∅ ∧
      lootView ⟨.player, 1⟩ ∅ (lootAhead.move (quadtree 32) 920 ⟨.player, 1⟩ 127 0 0 false).2 ≠
        (lootAhead.move (quadtree 32) 920 ⟨.player, 1⟩ 127 0 0 false).1.lootsInSight 920
          (lootAhead.target ⟨.player, 1⟩ 127 0) := by
  refine ⟨placed_lootAhead, by decide, by decide, by decide +kernel, ?_⟩
  decide +kernel

end

end Bango.World
