import Bango.Space.Proofs.Placed

set_option autoImplicit false

/-! # What a query visits

`query` prunes with closed squares that overlap on their edges. A child lies inside its parent, so no
pruned quad has a leaf that meets the circle's square; and a leaf is the end of one way from the root,
so none is visited twice. Every entity stands in the boundary of the leaf that stores it, whatever was
inserted and removed before (`Located`), hence what is near enough is visited.

Only completed calls are looked at, without any demand on them: a pointer may be inserted twice, or
removed while it is not stored. -/

namespace Bango.Space

open Bango.Lib

/-! ## Squares -/

namespace Square

/-- Two closed squares meet when they share a point. -/
theorem meets_iff_exists {b c : Square} (hb : 0 ≤ b.width) (hc : 0 ≤ c.width) :
    b.Meets c ↔ ∃ p, b.InBoundary p ∧ c.InBoundary p := by
  simp only [Meets, InBoundary, left, right, bottom, top]
  constructor
  · intro h
    refine ⟨⟨max b.bottomLeft.x c.bottomLeft.x, max b.bottomLeft.y c.bottomLeft.y⟩, ?_, ?_⟩ <;>
      dsimp only <;> omega
  · rintro ⟨p, hp, hq⟩
    omega

/-- The closed square around a point, as its coordinates. -/
theorem inBoundary_around {center p : Point} {radius : Int} :
    (around center radius).InBoundary p ↔
      center.x - radius ≤ p.x ∧ p.x ≤ center.x + radius ∧
        center.y - radius ≤ p.y ∧ p.y ≤ center.y + radius := by
  simp only [InBoundary, around, left, right, bottom, top]
  omega

end Square

namespace Quad

variable {T α : Type}

/-! ## Leaves -/

/-- A leaf of a tree, with the children that lead to it from the root. -/
structure Leaf (T : Type) where
  way : List Quadrant
  boundary : Square
  container : QuadEntityContainer T

/-- A leaf of a child. -/
def Leaf.below (k : Quadrant) (l : Leaf T) : Leaf T := { l with way := k :: l.way }

/-- The leaves, in the order of the tree. -/
def leafList : Quad T → List (Leaf T)
  | leaf b c => [⟨[], b, c⟩]
  | node _ ch => Quadrant.all.flatMap fun k => (ch k).leafList.map (.below k)

theorem map_container_leafList (q : Quad T) : q.leafList.map (·.container) = q.leaves := by
  induction q with
  | leaf b c => rfl
  | node b ch ih =>
      rw [leafList, leaves, List.map_flatMap]
      refine List.flatMap_congr fun k _ => ?_
      rw [List.map_map, ← ih k]
      rfl

theorem nodup_way_leafList (q : Quad T) : (q.leafList.map (·.way)).Nodup := by
  induction q with
  | leaf b c => exact List.nodup_singleton _
  | node b ch ih =>
      have hways : (node b ch).leafList.map (·.way) =
          Quadrant.all.flatMap fun k => ((ch k).leafList.map (·.way)).map (k :: ·) := by
        rw [leafList, List.map_flatMap]
        refine List.flatMap_congr fun k _ => ?_
        rw [List.map_map, List.map_map]
        rfl
      rw [hways, List.nodup_flatMap]
      refine ⟨fun k _ => (ih k).map (List.cons_injective), ?_⟩
      -- ways into different children differ in their first step
      have hne : Quadrant.all.Pairwise (· ≠ ·) := by decide
      refine hne.imp fun hjk => ?_
      rintro _ hj hk
      obtain ⟨way, -, rfl⟩ := List.mem_map.1 hj
      obtain ⟨way', -, heq⟩ := List.mem_map.1 hk
      exact hjk (List.cons.inj heq).1.symm

variable [EntityContainer T α] {pos : α → Point} {maxContainerEntities : Nat} {b : Square}
  {q q' : Quad T}

omit [EntityContainer T α] in
theorem Shaped.width_nonneg_of_mem (h : Shaped b q) (hb : 0 ≤ b.width) {l : Leaf T}
    (hl : l ∈ q.leafList) : 0 ≤ l.boundary.width := by
  induction h generalizing l with
  | leaf b d =>
      obtain rfl := List.mem_singleton.1 hl
      exact hb
  | @node b ch wide children ih =>
      obtain ⟨k, -, hk⟩ := List.mem_flatMap.1 hl
      obtain ⟨l', hl', rfl⟩ := List.mem_map.1 hk
      have hwidth := ih k (Square.child_width_nonneg hb k) hl'
      exact hwidth

section

variable {meets : Square → Prop}
  (hchild : ∀ (b : Square) (k : Quadrant), 0 ≤ b.width → meets (b.child k) → meets b)

include hchild

omit [EntityContainer T α] in
/-- What a leaf meets is met by the quads above it. -/
theorem Shaped.meets_of_mem (h : Shaped b q) {l : Leaf T} (hl : l ∈ q.leafList)
    (hmeets : meets l.boundary) : meets b := by
  induction h generalizing l with
  | leaf b d =>
      obtain rfl := List.mem_singleton.1 hl
      exact hmeets
  | @node b ch wide children ih =>
      obtain ⟨k, -, hk⟩ := List.mem_flatMap.1 hl
      obtain ⟨l', hl', rfl⟩ := List.mem_map.1 hk
      exact hchild b k (by omega) (ih k hl' hmeets)

omit [EntityContainer T α] in
/-- A search that enters the quads which meet something hands over the containers of the leaves that
    do, each once and in order. -/
theorem Shaped.search_eq [DecidablePred meets] (search : Quad T → List (QuadEntityContainer T))
    (hleaf : ∀ b c, search (Quad.leaf b c) = if meets b then [c] else [])
    (hnode : ∀ b ch, search (Quad.node b ch) =
      if meets b then Quadrant.all.flatMap fun k => search (ch k) else [])
    (h : Shaped b q) :
    search q = (q.leafList.filter fun l => meets l.boundary).map (·.container) := by
  induction h with
  | leaf b c =>
      rw [hleaf, leafList, List.filter_singleton]
      by_cases hmeets : meets b
      · simp [hmeets]
      · simp [hmeets]
  | @node b ch wide children ih =>
      rw [hnode]
      split_ifs with hmeets
      · rw [leafList, List.filter_flatMap, List.map_flatMap]
        refine List.flatMap_congr fun k _ => ?_
        rw [ih k, List.filter_map, List.map_map]
        rfl
      · -- no leaf below meets what the quad itself does not
        rw [List.filter_eq_nil_iff.2, List.map_nil]
        intro l hl hlmeets
        have hshaped : Shaped b (Quad.node b ch) := .node wide children
        exact hmeets (hshaped.meets_of_mem hchild hl (of_decide_eq_true hlmeets))

end

omit [EntityContainer T α] in
theorem Shaped.query_eq (h : Shaped b q) (p : Point) (radius : Int) :
    q.query p radius =
      (q.leafList.filter fun l => l.boundary.Meets (.around p radius)).map (·.container) :=
  h.search_eq (fun _ _ => Square.Meets.of_child) (fun q => q.query p radius) (fun _ _ => rfl)
    fun _ _ => rfl

/-! ## Where the stored entities stand -/

/-- The boundaries are those `insert` gives, and every stored entity is inside that of its leaf. -/
inductive Located (pos : α → Point) : Square → Quad T → Prop where
  | leaf {b : Square} {c : QuadEntityContainer T}
      (inside : ∀ e ∈ c.entities, b.InBoundary (pos e)) : Located pos b (leaf b c)
  | node {b : Square} {ch : Quadrant → Quad T} (wide : 1 < b.width)
      (children : ∀ k, Located pos (b.child k) (ch k)) : Located pos b (node b ch)

/-- The trees that completed calls of `insert` and `remove` make out of a new one. In between an
    entity may be moved while it is not stored. -/
inductive Reached (maxContainerEntities : Nat) (b : Square) : (α → Point) → Quad T → Prop where
  | new (pos : α → Point) : Reached maxContainerEntities b pos (new b)
  | step {pos : α → Point} {q q' : Quad T} (o : Op α) (h : Reached maxContainerEntities b pos q)
      (hstep : step pos maxContainerEntities q o = .ok q') : Reached maxContainerEntities b pos q'
  | move {pos pos' : α → Point} {q : Quad T} (h : Reached maxContainerEntities b pos q)
      (hstay : ∀ e ∈ q.entities, pos' e = pos e) : Reached maxContainerEntities b pos' q

namespace Located

theorem shaped (h : Located pos b q) : Shaped b q := by
  induction h with
  | leaf _ => exact .leaf _ _
  | node wide _ ih => exact .node wide ih

theorem entity_inside (h : Located pos b q) {e : α} (he : e ∈ q.entities) :
    b.InBoundary (pos e) := by
  induction h with
  | leaf inside => exact inside e he
  | node wide _ ih =>
      obtain ⟨k, hk⟩ := mem_entities_node.1 he
      exact (ih k hk).of_child (by omega)

theorem inside_of_mem (h : Located pos b q) {l : Leaf T} (hl : l ∈ q.leafList) {e : α}
    (he : e ∈ l.container.entities) : l.boundary.InBoundary (pos e) := by
  induction h generalizing l with
  | leaf inside =>
      obtain rfl := List.mem_singleton.1 hl
      exact inside e he
  | node _ _ ih =>
      obtain ⟨k, -, hk⟩ := List.mem_flatMap.1 hl
      obtain ⟨l', hl', rfl⟩ := List.mem_map.1 hk
      have hinside : l'.boundary.InBoundary (pos e) := ih k hl' he
      exact hinside

theorem congr {pos' : α → Point} (h : Located pos b q)
    (hpos : ∀ e ∈ q.entities, pos' e = pos e) : Located pos' b q := by
  induction h with
  | leaf inside => exact .leaf fun e he => hpos e he ▸ inside e he
  | node wide _ ih =>
      exact .node wide fun k => ih k fun e he => hpos e (mem_entities_node.2 ⟨k, he⟩)

theorem update {ch : Quadrant → Quad T} (h : ∀ k, Located pos (b.child k) (ch k)) {k : Quadrant}
    (hq : Located pos (b.child k) q) (j : Quadrant) :
    Located pos (b.child j) (Function.update ch k q j) := by
  by_cases hj : j = k
  · subst hj
    rwa [Function.update_self]
  · rw [Function.update_of_ne hj]
    exact h j

/-- One `inner(entity)->insert(entity)`, for an `insert` that keeps the children located. -/
theorem insertInner {ins : Quad T → α → Except Fault (Quad T)}
    (hins : ∀ k q q' e, Located pos (b.child k) q → ins q e = .ok q' →
      Located pos (b.child k) q')
    {ch ch' : Quadrant → Quad T} {e : α} (h : ∀ k, Located pos (b.child k) (ch k))
    (hok : insertInner pos ins ch e = .ok ch') : ∀ k, Located pos (b.child k) (ch' k) := by
  unfold Quad.insertInner at hok
  split at hok
  · cases hok
  · next k _ =>
      split at hok
      · next q' hq' =>
          cases hok
          exact update h (hins k _ q' e (h k) hq')
      · cases hok

section

variable [ConfinedEntityContainer T]

theorem new (pos : α → Point) (b : Square) : Located pos b (new b : Quad T) := by
  refine .leaf fun e he => ?_
  have hempty : (QuadEntityContainer.new : QuadEntityContainer T).entities = [] :=
    ConfinedEntityContainer.forEach_empty
  rw [hempty] at he
  cases he

theorem insertWithin (depth : Nat) {e : α} (h : Located pos b q)
    (hok : insertWithin pos maxContainerEntities depth q e = .ok q') : Located pos b q' := by
  induction depth generalizing b q q' e with
  | zero => cases hok
  | succ depth ih =>
      have hstep : ∀ ch e ch', (∀ k, Located pos (b.child k) (ch k)) →
          Quad.insertInner pos (Quad.insertWithin pos maxContainerEntities depth) ch e = .ok ch' →
          ∀ k, Located pos (b.child k) (ch' k) :=
        fun ch e ch' h hok => insertInner (fun k q q' e h hok => ih h hok) h hok
      by_cases hin : b.InBoundary (pos e)
      · cases h with
        | @node _ ch wide children =>
            rw [insertWithin_node hin] at hok
            split at hok
            · next ch' hch' =>
                cases hok
                exact .node wide (hstep ch e ch' children hch')
            · cases hok
        | @leaf _ c inside =>
            by_cases hstore : c.distinctSize < maxContainerEntities ∨ ¬ b.CanSubdivide
            · rw [insertWithin_store hin hstore] at hok
              cases hok
              refine .leaf fun x hx => ?_
              rcases ConfinedEntityContainer.mem_insert hx with rfl | hx
              · exact hin
              · exact inside x hx
            · rw [not_or, Nat.not_lt, not_not] at hstore
              rw [insertWithin_divide hin hstore.1 hstore.2] at hok
              split at hok
              · next ch' hch' =>
                  cases hok
                  refine .node (b.canSubdivide_iff.1 hstore.2) ?_
                  exact run_preserves hstep (fun k => new pos (b.child k)) hch'
              · cases hok
      · have hout : ¬ q.boundary.InBoundary (pos e) := by rwa [h.shaped.boundary_eq]
        simp only [Quad.insertWithin, if_neg hout] at hok
        cases hok

theorem mergeChildren {ch : Quadrant → Quad T} {c : QuadEntityContainer T} (hb : 0 ≤ b.width)
    (h : ∀ k, Located pos (b.child k) (ch k)) (hok : mergeChildren pos ch = .ok c) :
    ∀ e ∈ c.entities, b.InBoundary (pos e) := by
  have hstep : ∀ (c : QuadEntityContainer T) (k : Quadrant) (c' : QuadEntityContainer T),
      (∀ e ∈ c.entities, b.InBoundary (pos e)) → c._merge pos (ch k).container? = .ok c' →
      ∀ e ∈ c'.entities, b.InBoundary (pos e) := by
    intro c k c' hc hmerge e he
    have hk := h k
    cases hchild : ch k with
    | leaf b' d =>
        rw [hchild, container?, QuadEntityContainer._merge] at hmerge
        cases hmerge
        rw [hchild] at hk
        rcases ConfinedEntityContainer.mem_merge he with he | he
        · exact hc e he
        · exact (hk.entity_inside he).of_child hb
    | node b' ch' =>
        rw [hchild, container?, QuadEntityContainer._merge] at hmerge
        cases hmerge
  have hnew : Located pos b (Quad.new b : Quad T) := new pos b
  exact run_preserves hstep (fun e he => hnew.entity_inside he) hok

theorem merge {ch : Quadrant → Quad T} {up : Bool} (h : Located pos b (Quad.node b ch))
    (hok : merge pos maxContainerEntities (Quad.node b ch) = .ok (q, up)) : Located pos b q := by
  unfold Quad.merge at hok
  dsimp only at hok
  split_ifs at hok
  · cases hok
    exact h
  · split at hok
    · next c hc =>
        cases hok
        cases h with
        | node wide children => exact .leaf (mergeChildren (by omega) children hc)
    · cases hok

theorem removeRec {e : α} {up : Bool} (h : Located pos b q)
    (hok : removeRec pos maxContainerEntities q e = .ok (q', up)) : Located pos b q' := by
  induction h generalizing q' up with
  | @leaf b c inside =>
      unfold Quad.removeRec at hok
      split_ifs at hok
      · split at hok
        · next c' hc' =>
            cases hok
            unfold QuadEntityContainer._remove at hc'
            split at hc'
            · cases hc'
            · cases hc'
              exact .leaf fun x hx => inside x (ConfinedEntityContainer.mem_remove hx)
        · cases hok
      · cases hok
        exact .leaf inside
  | @node b ch wide children ih =>
      unfold Quad.removeRec at hok
      split_ifs at hok
      · split at hok
        · cases hok
        · next k _ =>
            split at hok
            · next q hq => exact merge (.node wide (update children (ih k hq))) hok
            · next q hq =>
                cases hok
                exact .node wide (update children (ih k hq))
            · cases hok
      · cases hok
        exact .node wide children

theorem step {o : Op α} (h : Located pos b q) (hok : step pos maxContainerEntities q o = .ok q') :
    Located pos b q' := by
  cases o with
  | insert e => exact insertWithin _ h hok
  | remove e =>
      have hremove : Quad.remove pos maxContainerEntities q e = .ok q' := hok
      unfold Quad.remove at hremove
      split at hremove
      · next q' up hq' =>
          cases hremove
          exact removeRec h hq'
      · cases hremove

end

end Located

theorem Placed.located (h : Placed pos b q) : Located pos b q := by
  induction h with
  | leaf _ inside => exact .leaf inside
  | node wide _ _ ih => exact .node wide ih

theorem Reached.located [ConfinedEntityContainer T] (h : Reached maxContainerEntities b pos q) :
    Located pos b q := by
  induction h with
  | new pos => exact Located.new pos b
  | step o _ hstep ih => exact ih.step hstep
  | move _ hstay ih => exact ih.congr hstay

/-! ## The visited leaves -/

/-- In every tree that completed calls make, a query hands over the container of each leaf whose
    closed boundary shares a point with the closed square around the centre, once each, and of no
    other leaf; hence, once, that of each leaf which stores an entity whose rounded distance is within
    the radius. The coordinates of the square are those the code computes while they fit in `int`. -/
theorem Reached.query_visits [ConfinedEntityContainer T] (h : Reached maxContainerEntities b pos q)
    (hb : 1 ≤ b.width) (p : Point) {radius : Int} (hradius : 0 ≤ radius) :
    ∃ visited : List (Leaf T),
      q.query p radius = visited.map (·.container) ∧ (visited.map (·.way)).Nodup ∧
        (∀ l, l ∈ visited ↔ l ∈ q.leafList ∧ ∃ z, l.boundary.InBoundary z ∧
          p.x - radius ≤ z.x ∧ z.x ≤ p.x + radius ∧ p.y - radius ≤ z.y ∧ z.y ≤ p.y + radius) ∧
        ∀ l ∈ q.leafList, ∀ e ∈ l.container.entities, ((pos e).distance p : Int) ≤ radius →
          l ∈ visited := by
  have hlocated := h.located
  have hwidth : 0 ≤ b.width := by omega
  have haround : 0 ≤ (Square.around p radius).width := Square.around_width_nonneg hradius
  refine ⟨_, hlocated.shaped.query_eq p radius, ?_, fun l => ?_, fun l hl e he hnear => ?_⟩
  · exact (List.filter_sublist.map _).nodup q.nodup_way_leafList
  · rw [List.mem_filter]
    refine and_congr_right fun hl => ?_
    have hleaf := hlocated.shaped.width_nonneg_of_mem hwidth hl
    rw [decide_eq_true_iff, Square.meets_iff_exists hleaf haround]
    exact exists_congr fun z => and_congr_right fun _ => Square.inBoundary_around
  · have hmeets := Square.meets_around (hlocated.inside_of_mem hl he) hnear
    exact List.mem_filter.2 ⟨hl, decide_eq_true hmeets⟩

/-- The entity at `(4, 4)` is further than 2 from `(2, 2)`, but not when the distance is rounded. -/
theorem Reached.query_visits_rounded :
    ∃ c ∈ query (leaf ⟨⟨0, 0⟩, 8⟩ (QuadEntityContainer.new._insert sharedCorner 2) :
        Quad (ListContainer Nat)) ⟨2, 2⟩ 2, 2 ∈ c.entities := by
  have h : Reached 32 ⟨⟨0, 0⟩, 8⟩ sharedCorner
      (leaf ⟨⟨0, 0⟩, 8⟩ (QuadEntityContainer.new._insert sharedCorner 2) :
        Quad (ListContainer Nat)) := .step (.insert 2) (.new sharedCorner) rfl
  have hradius : (0 : Int) ≤ 2 := by decide
  obtain ⟨visited, hquery, -, -, hnear⟩ := h.query_visits (by decide) ⟨2, 2⟩ hradius
  rw [hquery]
  have hentity : 2 ∈ (QuadEntityContainer.new._insert sharedCorner 2 :
      QuadEntityContainer (ListContainer Nat)).entities := List.mem_singleton.2 rfl
  exact ⟨_, List.mem_map_of_mem (hnear _ List.mem_cons_self 2 hentity (by decide +kernel)), hentity⟩

end Quad

end Bango.Space
