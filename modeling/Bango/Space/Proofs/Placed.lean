import Mathlib.Algebra.Order.Ring.Abs
import Bango.Space.Proofs.Coverage
import Bango.Space.Proofs.Refinement

set_option autoImplicit false

/-! # Trees of any width

A square of odd width has points that lie in no child of it, so insertion into a tree of any width
may reach a null child. Whenever it does not, the tree afterwards is `Placed`: each entity lies in
the leaf `inner` leads to and is counted there. Removal and `query` need no more than that. -/

namespace Bango.Space

open Bango.Lib

/-! ## What is near a point -/

/-- A coordinate differs by no more than the distance. -/
theorem Point.abs_sub_le_of_distance_le (p q : Point) {radius : Int}
    (h : (p.distance q : Int) ≤ radius) : |p.x - q.x| ≤ radius ∧ |p.y - q.y| ≤ radius := by
  have hradius : 0 ≤ radius := le_trans (Int.natCast_nonneg _) h
  have hlt : (p.x - q.x) ^ 2 + (p.y - q.y) ^ 2 < (radius + 1) ^ 2 := by
    have hsqrt : ((p.x - q.x) ^ 2 + (p.y - q.y) ^ 2).toNat < (p.distance q + 1) ^ 2 :=
      Nat.lt_succ_sqrt' _
    have hcast : (p.x - q.x) ^ 2 + (p.y - q.y) ^ 2 < ((p.distance q : Int) + 1) ^ 2 := by
      have htoNat := Int.self_le_toNat ((p.x - q.x) ^ 2 + (p.y - q.y) ^ 2)
      have hsqrt' : (((p.x - q.x) ^ 2 + (p.y - q.y) ^ 2).toNat : Int) <
          ((p.distance q : Int) + 1) ^ 2 := by exact_mod_cast hsqrt
      omega
    exact hcast.trans_le (by gcongr)
  have hx : (p.x - q.x) ^ 2 < (radius + 1) ^ 2 := by
    have hy := sq_nonneg (p.y - q.y)
    omega
  have hy : (p.y - q.y) ^ 2 < (radius + 1) ^ 2 := by
    have hx := sq_nonneg (p.x - q.x)
    omega
  have hx' := abs_lt_of_sq_lt_sq hx (by omega)
  have hy' := abs_lt_of_sq_lt_sq hy (by omega)
  omega

open Square in
/-- What is near enough to a point stands in a square that meets the circle around it. -/
theorem Square.meets_around {b : Square} {p center : Point} {radius : Int} (hp : b.InBoundary p)
    (hnear : (p.distance center : Int) ≤ radius) : b.Meets (.around center radius) := by
  have hradius : 0 ≤ radius := le_trans (Int.natCast_nonneg _) hnear
  obtain ⟨hx, hy⟩ := p.abs_sub_le_of_distance_le center hnear
  rw [abs_le] at hx hy
  simp only [InBoundary, left, right, bottom, top] at hp
  simp only [Meets, around, left, right, bottom, top]
  omega

namespace Quad

variable {T α : Type} [EntityContainer T α] {pos : α → Point} {maxContainerEntities : Nat}

/-- The invariant of a subtree of boundary `b`. -/
inductive Placed (pos : α → Point) : Square → Quad T → Prop where
  | leaf {b : Square} {c : QuadEntityContainer T} (exact : c.Exact pos)
      (inside : ∀ e ∈ c.entities, b.InBoundary (pos e)) : Placed pos b (leaf b c)
  | node {b : Square} {ch : Quadrant → Quad T} (wide : 1 < b.width)
      (children : ∀ k, Placed pos (b.child k) (ch k))
      (routed : ∀ k, ∀ e ∈ (ch k).entities, b.inner (pos e) = some k) : Placed pos b (node b ch)

theorem WellFormed.placed {b : Square} {q : Quad T} (h : WellFormed pos maxContainerEntities b q) :
    Placed pos b q := by
  induction h with
  | leaf exact inside => exact .leaf exact inside
  | node wide _ _ routed _ ih => exact .node wide ih routed

namespace Placed

variable {b : Square} {q q' : Quad T}

theorem shaped (h : Placed pos b q) : Shaped b q := by
  induction h with
  | leaf => exact .leaf _ _
  | node wide _ _ ih => exact .node wide ih

theorem boundary_eq (h : Placed pos b q) : q.boundary = b := h.shaped.boundary_eq

theorem entity_inside (h : Placed pos b q) {e : α} (he : e ∈ q.entities) :
    b.InBoundary (pos e) := by
  induction h with
  | leaf _ inside => exact inside e he
  | node wide _ _ ih =>
      obtain ⟨k, hk⟩ := mem_entities_node.1 he
      exact (ih k hk).of_child (by omega)

theorem nodup (h : Placed pos b q) : q.entities.Nodup := by
  induction h with
  | leaf exact _ => exact exact.nodup
  | @node b ch _ _ routed ih =>
      refine List.nodup_flatMap.2 ⟨fun k _ => ih k, ?_⟩
      have hne : Quadrant.all.Pairwise (· ≠ ·) := by decide
      refine hne.imp fun {j k} hjk e hej hek => hjk ?_
      exact Option.some.inj ((routed j e hej).symm.trans (routed k e hek))

/-- Only the positions of stored entities matter. -/
theorem congr {pos' : α → Point} (h : Placed pos b q) (hpos : ∀ e ∈ q.entities, pos' e = pos e) :
    Placed pos' b q := by
  induction h with
  | leaf exact inside =>
      refine .leaf ⟨exact.nodup, ?_⟩ fun e he => ?_
      · have hmap := List.map_congr_left hpos
        rw [entities_leaf] at hmap
        rw [hmap]
        exact exact.counts
      · rw [hpos e he]
        exact inside e he
  | node wide _ routed ih =>
      have hchild := fun k e he => hpos e (mem_entities_node.2 ⟨k, he⟩)
      refine .node wide (fun k => ih k (hchild k)) fun k e he => ?_
      rw [hchild k e he]
      exact routed k e he

theorem new [DecidableEq α] [LawfulEntityContainer T] (b : Square) :
    Placed pos b (Quad.new b : Quad T) :=
  .leaf QuadEntityContainer.exact_new (by simp)

/-- The leaf that a stored entity's position leads to is the one that holds it. -/
theorem leafAt_iff (h : Placed pos b q) {e : α} :
    (∃ c, q.leafAt (pos e) = some c ∧ e ∈ c.entities) ↔ e ∈ q.entities := by
  induction h with
  | leaf => simp [leafAt]
  | @node b ch wide children routed ih =>
      have hinner : inner ch (pos e) = b.inner (pos e) :=
        inner_eq (fun k => (children k).boundary_eq) (pos e)
      rw [mem_entities_node]
      unfold leafAt
      rw [hinner]
      constructor
      · intro h
        cases hk : b.inner (pos e) with
        | none => simp [hk] at h
        | some k =>
            simp only [hk] at h
            exact ⟨k, (ih k).1 h⟩
      · intro h
        obtain ⟨k, hk⟩ := h
        simp only [routed k e hk]
        exact (ih k).2 hk

/-! ## Insertion -/

section

variable [DecidableEq α] [LawfulEntityContainer T]

/-- What an insertion that comes to its end has done. -/
structure Inserted (pos : α → Point) (b : Square) (q : Quad T) (e : α) (q' : Quad T) : Prop where
  placed : Placed pos b q'
  entities_perm : q'.entities.Perm (e :: q.entities)

/-- Children that are placed and hold what `inner` sends to them. -/
structure Children (pos : α → Point) (b : Square) (ch : Quadrant → Quad T) : Prop where
  children : ∀ k, Placed pos (b.child k) (ch k)
  routed : ∀ k, ∀ e ∈ (ch k).entities, b.inner (pos e) = some k

omit [DecidableEq α] [LawfulEntityContainer T] in
theorem Children.update {ch : Quadrant → Quad T} (h : Children pos b ch) {k : Quadrant} {q : Quad T}
    (hq : Placed pos (b.child k) q) (hroute : ∀ e ∈ q.entities, b.inner (pos e) = some k) :
    Children pos b (Function.update ch k q) := by
  constructor <;> intro j <;> by_cases hj : j = k
  · subst hj; rwa [Function.update_self]
  · rw [Function.update_of_ne hj]; exact h.children j
  · subst hj; rwa [Function.update_self]
  · rw [Function.update_of_ne hj]; exact h.routed j

omit [DecidableEq α] [LawfulEntityContainer T] in
theorem Children.inner_eq {ch : Quadrant → Quad T} (h : Children pos b ch) (p : Point) :
    inner ch p = b.inner p :=
  Quad.inner_eq (fun k => (h.children k).boundary_eq) p

omit [DecidableEq α] [LawfulEntityContainer T] in
theorem insertInner_placed {ch ch' : Quadrant → Quad T} {e : α} (h : Children pos b ch)
    (hnew : e ∉ (Quad.node b ch).entities) {ins : Quad T → α → Except Fault (Quad T)}
    (hins : ∀ k q q', Placed pos (b.child k) q → e ∉ q.entities → ins q e = .ok q' →
      Inserted pos (b.child k) q e q')
    (hok : insertInner pos ins ch e = .ok ch') :
    Children pos b ch' ∧ (Quad.node b ch').entities.Perm (e :: (Quad.node b ch).entities) := by
  unfold insertInner at hok
  rw [h.inner_eq] at hok
  cases hk : b.inner (pos e) with
  | none => simp only [hk] at hok; cases hok
  | some k =>
      simp only [hk] at hok
      cases hq : ins (ch k) e with
      | error f => simp only [hq] at hok; cases hok
      | ok q =>
          simp only [hq, Except.ok.injEq] at hok
          subst hok
          have hfresh : e ∉ (ch k).entities := fun hmem => hnew (mem_entities_node.2 ⟨k, hmem⟩)
          have hdone := hins k (ch k) q (h.children k) hfresh hq
          refine ⟨h.update hdone.placed fun f hf => ?_, ?_⟩
          · rcases List.mem_cons.1 (hdone.entities_perm.mem_iff.1 hf) with rfl | hold
            · exact hk
            · exact h.routed k f hold
          · have hupdate := entities_update_perm b ch k q
            have hchild := hdone.entities_perm.append_right (others ch k)
            exact hupdate.trans (hchild.trans ((entities_node_perm b ch k).symm.cons e))

/-- A division that comes to its end. -/
theorem divide_placed {c : QuadEntityContainer T} {ch : Quadrant → Quad T} {e : α}
    (exact : c.Exact pos) (hnew : e ∉ c.entities) {ins : Quad T → α → Except Fault (Quad T)}
    (hins : ∀ k q q' e, Placed pos (b.child k) q → e ∉ q.entities → ins q e = .ok q' →
      Inserted pos (b.child k) q e q')
    (hok : run (insertInner pos ins) (fun k => Quad.new (b.child k)) (c.entities ++ [e]) = .ok ch) :
    Children pos b ch ∧ (Quad.node b ch).entities.Perm (c.entities ++ [e]) := by
  have hnodup : (c.entities ++ [e]).Nodup := by
    rw [List.nodup_append_comm]
    exact List.nodup_cons.2 ⟨hnew, exact.nodup⟩
  -- invariant of the loop: the new children hold exactly what was handed over so far
  refine run_inv_of_progress
    (fun seen ch => Children pos b ch ∧ (Quad.node b ch).entities.Perm seen)
    ⟨⟨fun k => .new _, by simp⟩, by simp [entities]⟩ ?_ hok
  intro seen f rest ch ch' hsplit hinv hstep
  obtain ⟨hchildren, hperm⟩ := hinv
  have hfresh : f ∉ (Quad.node b ch).entities := by
    rw [hperm.mem_iff]
    rw [← hsplit] at hnodup
    exact fun h => (List.nodup_append.1 hnodup).2.2 f h f (by simp) rfl
  obtain ⟨hchildren', hperm'⟩ :=
    insertInner_placed hchildren hfresh (fun k q q' => hins k q q' f) hstep
  exact ⟨hchildren', hperm'.trans
    ((hperm.cons f).trans (List.perm_append_singleton f seen).symm)⟩

theorem insertWithin (depth : Nat) {e : α} (hq : Placed pos b q) (hnew : e ∉ q.entities)
    (hok : Quad.insertWithin pos maxContainerEntities depth q e = .ok q') :
    Inserted pos b q e q' := by
  induction depth generalizing b q e q' with
  | zero => cases hok
  | succ depth ih =>
      have he : b.InBoundary (pos e) := by
        by_contra hout
        rw [← hq.boundary_eq] at hout
        simp only [Quad.insertWithin, if_neg hout] at hok
        cases hok
      cases hq with
      | @node b ch wide children routed =>
          rw [insertWithin_node he] at hok
          cases hins : insertInner pos (Quad.insertWithin pos maxContainerEntities depth) ch e with
          | error f => simp only [hins] at hok; cases hok
          | ok ch' =>
              simp only [hins, Except.ok.injEq] at hok
              subst hok
              obtain ⟨hchildren, hperm⟩ :=
                insertInner_placed ⟨children, routed⟩ hnew
                  (fun _ _ _ hq hnew hok => ih hq hnew hok) hins
              exact ⟨.node wide hchildren.children hchildren.routed, hperm⟩
      | @leaf b c exact inside =>
          by_cases hstore : c.distinctSize < maxContainerEntities ∨ ¬ b.CanSubdivide
          · rw [insertWithin_store he hstore, Except.ok.injEq] at hok
            subst hok
            have hperm := QuadEntityContainer.entities_insert pos hnew
            refine ⟨.leaf (exact.insert hnew) fun f hf => ?_, hperm⟩
            rcases List.mem_cons.1 (hperm.mem_iff.1 hf) with rfl | hold
            · exact he
            · exact inside f hold
          · rw [not_or, Nat.not_lt, not_not] at hstore
            rw [insertWithin_divide he hstore.1 hstore.2] at hok
            cases hrun : run (insertInner pos (Quad.insertWithin pos maxContainerEntities depth))
              (fun k => (Quad.new (b.child k) : Quad T)) (c.entities ++ [e]) with
            | error f => simp only [hrun] at hok; cases hok
            | ok ch =>
                simp only [hrun, Except.ok.injEq] at hok
                subst hok
                obtain ⟨hchildren, hperm⟩ :=
                  divide_placed exact hnew (fun _ _ _ _ hq hnew hok => ih hq hnew hok) hrun
                exact ⟨.node ((b.canSubdivide_iff).1 hstore.2) hchildren.children hchildren.routed,
                  hperm.trans (List.perm_append_singleton e c.entities)⟩

variable (maxContainerEntities) in
/-- Insertion of a new entity: it is refused outside the boundary, and inside it either reaches a null
    child or adds the entity. -/
theorem insert_spec {e : α} (hq : Placed pos b q) (hnew : e ∉ q.entities) :
    (¬ b.InBoundary (pos e) ∧ insert pos maxContainerEntities q e = .error .notInBoundary) ∨
      (b.InBoundary (pos e) ∧ (insert pos maxContainerEntities q e = .error .nullInner ∨
        ∃ q', insert pos maxContainerEntities q e = .ok q' ∧ Inserted pos b q e q')) := by
  by_cases he : b.InBoundary (pos e)
  · refine .inr ⟨he, ?_⟩
    unfold insert
    rw [hq.boundary_eq]
    rcases insertWithin_shaped (b.width.toNat + 1) (Nat.lt_succ_self _) hq.shaped he with
      ⟨q', hq', -⟩ | herr
    · exact .inr ⟨q', hq', hq.insertWithin _ hnew hq'⟩
    · exact .inl herr
  · refine .inl ⟨he, ?_⟩
    rw [← hq.boundary_eq] at he
    simp only [insert, Quad.insertWithin, if_neg he]

/-! ## Removal -/

/-- Merging the children comes to a null container or collapses the quad; it takes no entity away. -/
theorem merge_placed {ch : Quadrant → Quad T} (h : Children pos b ch) (wide : 1 < b.width) :
    merge pos maxContainerEntities (Quad.node b ch) = .error .nullContainer ∨
      ∃ q up, merge pos maxContainerEntities (Quad.node b ch) = .ok (q, up) ∧ Placed pos b q ∧
        q.entities.Perm (Quad.node b ch).entities := by
  by_cases hfull : (Quad.node b ch).distinctSize > maxContainerEntities
  · refine .inr ⟨Quad.node b ch, false, ?_, .node wide h.children h.routed, .refl _⟩
    simp only [merge, if_pos hfull]
  by_cases hleaf : ∀ k, (ch k).IsLeaf
  · have hchildren : ∀ k b' d, ch k = Quad.leaf b' d → d.Exact pos := by
      intro k b' d hd
      have hplaced := h.children k
      rw [hd] at hplaced
      cases hplaced with
      | leaf exact _ => exact exact
    obtain ⟨c, hc, hexact, hperm⟩ := mergeChildren_spec hchildren h.routed hleaf
    refine .inr ⟨Quad.leaf b c, true, ?_, .leaf hexact fun e he => ?_, hperm⟩
    · simp only [merge, if_neg hfull, hc]
    · obtain ⟨k, hk⟩ := mem_entities_node.1 (hperm.mem_iff.1 he)
      exact ((h.children k).entity_inside hk).of_child (by omega)
  · obtain ⟨k, hk⟩ := not_forall.1 hleaf
    refine .inl ?_
    simp only [merge, if_neg hfull, mergeChildren_null hk]

theorem removeRec_spec {e : α} (hq : Placed pos b q) (he : e ∈ q.entities) :
    removeRec pos maxContainerEntities q e = .error .nullContainer ∨
      ∃ q' up, removeRec pos maxContainerEntities q e = .ok (q', up) ∧ Placed pos b q' ∧
        q'.entities.Perm (q.entities.erase e) := by
  have hin := hq.entity_inside he
  induction hq with
  | @leaf b c exact inside =>
      obtain ⟨c', hc', hexact, hperm⟩ := exact.remove he
      refine .inr ⟨Quad.leaf b c', true, by simp only [removeRec, if_pos hin, hc'], ?_, hperm⟩
      exact .leaf hexact fun f hf => inside f (List.mem_of_mem_erase (hperm.mem_iff.1 hf))
  | @node b ch wide children routed ih =>
      have hch : Children pos b ch := ⟨children, routed⟩
      obtain ⟨k, hk⟩ := mem_entities_node.1 he
      have hinner : inner ch (pos e) = some k := by rw [hch.inner_eq, routed k e hk]
      rcases ih k hk ((children k).entity_inside hk) with herr | ⟨q', up, hok, hplaced, hperm⟩
      · exact .inl (by simp only [removeRec, if_pos hin, hinner, herr])
      have hch' : Children pos b (Function.update ch k q') := hch.update hplaced fun f hf =>
        routed k f (List.mem_of_mem_erase (hperm.mem_iff.1 hf))
      have herased : (Quad.node b (Function.update ch k q')).entities.Perm
          ((Quad.node b ch).entities.erase e) := by
        have hchild := (hperm.append_right (others ch k)).trans
          (List.Perm.of_eq (List.erase_append_left (others ch k) hk).symm)
        exact (entities_update_perm b ch k q').trans
          (hchild.trans ((entities_node_perm b ch k).symm.erase e))
      cases up with
      | false =>
          refine .inr ⟨Quad.node b (Function.update ch k q'), false, ?_,
            .node wide hch'.children hch'.routed, herased⟩
          simp only [removeRec, if_pos hin, hinner, hok]
      | true =>
          have hrec : removeRec pos maxContainerEntities (Quad.node b ch) e =
              merge pos maxContainerEntities (Quad.node b (Function.update ch k q')) := by
            simp only [removeRec, if_pos hin, hinner, hok]
          rw [hrec]
          rcases merge_placed hch' wide with herr | ⟨q'', up, hok', hplaced', hperm'⟩
          · exact .inl herr
          · exact .inr ⟨q'', up, hok', hplaced', hperm'.trans herased⟩

variable (maxContainerEntities) in
/-- Removal of a stored entity comes to a null container or takes the entity away. -/
theorem remove_spec {e : α} (hq : Placed pos b q) (he : e ∈ q.entities) :
    remove pos maxContainerEntities q e = .error .nullContainer ∨
      ∃ q', remove pos maxContainerEntities q e = .ok q' ∧ Placed pos b q' ∧
        q'.entities.Perm (q.entities.erase e) := by
  unfold remove
  rcases hq.removeRec_spec he with herr | ⟨q', up, hok, hplaced, hperm⟩
  · exact .inl (by rw [herr])
  · exact .inr ⟨q', by rw [hok], hplaced, hperm⟩

omit [DecidableEq α] [LawfulEntityContainer T] in
theorem removeRec_vacant {e : α} (hq : Placed pos b q) (hin : b.InBoundary (pos e))
    (hvacant : ∀ f ∈ q.entities, pos f ≠ pos e) :
    removeRec pos maxContainerEntities q e = .error .noSingleEntity ∨
      removeRec pos maxContainerEntities q e = .error .nullInner := by
  induction hq with
  | @leaf b c exact inside =>
      have hnone : c.distinctSizes.decr? (pos e) = none := by
        refine exact.counts.decr?_eq_none fun hmem => ?_
        obtain ⟨f, hf, hpos⟩ := List.mem_map.1 hmem
        exact hvacant f hf hpos
      refine .inl ?_
      simp only [removeRec, if_pos hin, QuadEntityContainer._remove, hnone]
  | @node b ch wide children routed ih =>
      have hch : Children pos b ch := ⟨children, routed⟩
      cases hk : b.inner (pos e) with
      | none =>
          have hinner : inner ch (pos e) = none := by rw [hch.inner_eq, hk]
          exact .inr (by simp only [removeRec, if_pos hin, hinner])
      | some k =>
          have hinner : inner ch (pos e) = some k := by rw [hch.inner_eq, hk]
          rcases ih k (Square.inBoundary_of_inner hk)
            fun f hf => hvacant f (mem_entities_node.2 ⟨k, hf⟩) with herr | herr
          · exact .inl (by simp only [removeRec, if_pos hin, hinner, herr])
          · exact .inr (by simp only [removeRec, if_pos hin, hinner, herr])

variable (maxContainerEntities) in
omit [DecidableEq α] [LawfulEntityContainer T] in
/-- Nothing is done for an entity outside the boundary. -/
theorem remove_outside {e : α} (hq : Placed pos b q) (hout : ¬ b.InBoundary (pos e)) :
    remove pos maxContainerEntities q e = .ok q := by
  rw [← hq.boundary_eq] at hout
  cases q with
  | leaf b' c =>
      have hout : ¬ b'.InBoundary (pos e) := hout
      simp only [remove, removeRec, if_neg hout]
  | node b' ch =>
      have hout : ¬ b'.InBoundary (pos e) := hout
      simp only [remove, removeRec, if_neg hout]

variable (maxContainerEntities) in
omit [DecidableEq α] [LawfulEntityContainer T] in
/-- Where no entity stands, the leaf that is reached throws. -/
theorem remove_vacant {e : α} (hq : Placed pos b q) (hin : b.InBoundary (pos e))
    (hvacant : ∀ f ∈ q.entities, pos f ≠ pos e) :
    remove pos maxContainerEntities q e = .error .noSingleEntity ∨
      remove pos maxContainerEntities q e = .error .nullInner := by
  unfold remove
  rcases hq.removeRec_vacant hin hvacant with herr | herr
  · exact .inl (by rw [herr])
  · exact .inr (by rw [herr])

/-! ## Range queries -/

omit [DecidableEq α] [LawfulEntityContainer T] in
theorem mem_of_mem_query {c : QuadEntityContainer T} {p : Point} {radius : Int}
    (h : c ∈ q.query p radius) : c ∈ q.leaves := by
  induction q with
  | leaf b c' =>
      unfold query at h
      split_ifs at h
      · exact h
      · cases h
  | node b ch ih =>
      unfold query at h
      split_ifs at h
      · obtain ⟨k, hk, hmem⟩ := List.mem_flatMap.1 h
        exact List.mem_flatMap.2 ⟨k, hk, ih k hmem⟩
      · cases h

omit [DecidableEq α] [LawfulEntityContainer T] in
/-- A query hands over the leaf of each entity that is near enough. -/
theorem exists_mem_query {e : α} (hq : Placed pos b q) (he : e ∈ q.entities) {p : Point}
    {radius : Int} (hnear : ((pos e).distance p : Int) ≤ radius) :
    ∃ c ∈ q.query p radius, e ∈ c.entities := by
  induction hq with
  | @leaf b c exact inside =>
      refine ⟨c, ?_, he⟩
      have hmeets := Square.meets_around (inside e he) hnear
      simp [query, if_pos hmeets]
  | @node b ch wide children routed ih =>
      obtain ⟨k, hk⟩ := mem_entities_node.1 he
      obtain ⟨c, hc, hmem⟩ := ih k hk
      refine ⟨c, ?_, hmem⟩
      have hinside : b.InBoundary (pos e) := Square.InBoundary.of_child (by omega) ((children k).entity_inside hk)
      have hmeets := Square.meets_around hinside hnear
      rw [query, if_pos hmeets]
      exact List.mem_flatMap.2 ⟨k, Quadrant.mem_all k, hc⟩

end

end Placed

end Quad

end Bango.Space
