import Mathlib.Data.Nat.Factorization.Basic
import Bango.Space.Proofs.MergeSafety

set_option autoImplicit false

/-! # When the children cover a quad

The four children of a quad of odd width leave its right and upper edge uncovered. A width that
halves evenly keeps every divided quad even, hence covered. Any other width has an odd width `u > 1`
below it, in the upper left corner of the map, that `maxContainerEntities` positions fill: the next
entity in that corner divides an odd quad and reaches the null child. -/

namespace Bango.Space

open Bango.Lib

/-- The upper left descendant of a square, `d` levels down. -/
def Square.corner : Nat → Square → Square
  | 0, b => b
  | d + 1, b => corner d (b.child .topLeft)

theorem Square.inner_topLeft {b : Square} {p : Point} (h : (b.child .topLeft).InBoundary p) :
    b.inner p = some .topLeft := by
  unfold inner Quadrant.all
  rw [List.find?_cons_of_pos (by simpa using h)]

theorem Square.inBoundary_topLeft {b : Square} (hw : 0 ≤ b.width) :
    b.InBoundary ⟨b.left, b.top⟩ := by
  simp only [InBoundary, right, left, top, bottom]
  omega

theorem Square.child_width_of_pow {b : Square} {d u : Nat} (hw : b.width = 2 ^ (d + 1) * u)
    (k : Quadrant) : (b.child k).width = 2 ^ d * u := by
  rw [child_width, hw, pow_succ, mul_right_comm]
  exact Int.mul_tdiv_cancel _ (by decide)

theorem Square.width_corner {d u : Nat} {b : Square} (hw : b.width = 2 ^ d * u) :
    (corner d b).width = u := by
  induction d generalizing b with
  | zero => rw [corner, hw, pow_zero, one_mul]
  | succ d ih => exact ih (child_width_of_pow hw _)

theorem Square.InBoundary.of_corner {d u : Nat} {b : Square} {p : Point} (hw : b.width = 2 ^ d * u)
    (h : (corner d b).InBoundary p) : b.InBoundary p := by
  induction d generalizing b with
  | zero => exact h
  | succ d ih =>
      have hpos : 0 ≤ b.width := by rw [hw]; positivity
      exact (ih (child_width_of_pow hw _) h).of_child hpos

namespace Quad

variable {T α : Type} [EntityContainer T α] {pos : α → Point} {maxContainerEntities : Nat}

/-! ## Trees of any width

Without an even width the routing may fail; the depth of the recursion still suffices. -/

/-- The boundaries of a tree are those `insert` gives. -/
inductive Shaped : Square → Quad T → Prop where
  | leaf (b : Square) (c : QuadEntityContainer T) : Shaped b (leaf b c)
  | node {b : Square} {ch : Quadrant → Quad T} (wide : 1 < b.width)
      (children : ∀ k, Shaped (b.child k) (ch k)) : Shaped b (node b ch)

theorem Shaped.boundary_eq {b : Square} {q : Quad T} (h : Shaped b q) : q.boundary = b := by
  cases h <;> rfl

omit [EntityContainer T α] in
/-- One `inner(entity)->insert(entity)`, when the `insert` of the children succeeds or reaches a null
    child. -/
theorem insertInner_shaped {b : Square} {ch : Quadrant → Quad T} {e : α}
    (h : ∀ k, Shaped (b.child k) (ch k)) {ins : Quad T → α → Except Fault (Quad T)}
    (hins : ∀ k q, Shaped (b.child k) q → (b.child k).InBoundary (pos e) →
      (∃ q', ins q e = .ok q' ∧ Shaped (b.child k) q') ∨ ins q e = .error .nullInner) :
    (∃ ch', insertInner pos ins ch e = .ok ch' ∧ ∀ k, Shaped (b.child k) (ch' k)) ∨
      insertInner pos ins ch e = .error .nullInner := by
  have hinner := inner_eq (fun k => (h k).boundary_eq) (pos e)
  unfold insertInner
  rw [hinner]
  cases hk : b.inner (pos e) with
  | none => exact .inr rfl
  | some k =>
      rcases hins k (ch k) (h k) (Square.inBoundary_of_inner hk) with ⟨q', hq', hshape⟩ | herr
      · refine .inl ⟨Function.update ch k q', by simp only [hq'], fun j => ?_⟩
        by_cases hj : j = k
        · subst hj
          rwa [Function.update_self]
        · rw [Function.update_of_ne hj]
          exact h j
      · exact .inr (by simp only [herr])

/-- So does handing any entities to four new children. -/
theorem run_divide_shaped {b : Square} {ins : Quad T → α → Except Fault (Quad T)}
    (hins : ∀ k q e, Shaped (b.child k) q → (b.child k).InBoundary (pos e) →
      (∃ q', ins q e = .ok q' ∧ Shaped (b.child k) q') ∨ ins q e = .error .nullInner)
    (es : List α) :
    (∃ ch, run (insertInner pos ins) (fun k => Quad.new (b.child k)) es = .ok ch ∧
        ∀ k, Shaped (b.child k) (ch k)) ∨
      run (insertInner pos ins) (fun k => Quad.new (b.child k)) es = .error .nullInner :=
  run_ok_or_error (fun _ e _ hch => insertInner_shaped hch fun k q => hins k q e)
    fun k => .leaf (b.child k) _

/-- Insertion inside the boundary succeeds or reaches a null child. -/
theorem insertWithin_shaped (depth : Nat) {b : Square} {q : Quad T} {e : α}
    (hdepth : b.width.toNat < depth) (hq : Shaped b q) (he : b.InBoundary (pos e)) :
    (∃ q', insertWithin pos maxContainerEntities depth q e = .ok q' ∧ Shaped b q') ∨
      insertWithin pos maxContainerEntities depth q e = .error .nullInner := by
  induction depth generalizing b q e with
  | zero => omega
  | succ depth ih =>
      have hchild : 1 < b.width → ∀ k (q : Quad T) (e : α), Shaped (b.child k) q →
          (b.child k).InBoundary (pos e) →
          (∃ q', insertWithin pos maxContainerEntities depth q e = .ok q' ∧
              Shaped (b.child k) q') ∨
            insertWithin pos maxContainerEntities depth q e = .error .nullInner := by
        intro hwide k q e hq he
        refine ih ?_ hq he
        rw [Square.child_width_of_nonneg (by omega)]
        omega
      cases hq with
      | @node _ ch wide children =>
          rw [insertWithin_node he]
          rcases insertInner_shaped children fun k q => hchild wide k q e with
            ⟨ch', hch', hshape⟩ | herr
          · exact .inl ⟨node b ch', by rw [hch'], .node wide hshape⟩
          · exact .inr (by rw [herr])
      | leaf _ c =>
          by_cases hroom : c.distinctSize < maxContainerEntities
          · exact .inl ⟨_, insertWithin_store he (.inl hroom), .leaf b _⟩
          by_cases hsub : b.CanSubdivide
          · have hwide : 1 < b.width := (b.canSubdivide_iff).1 hsub
            rw [insertWithin_divide he (Nat.not_lt.1 hroom) hsub]
            rcases run_divide_shaped (hchild hwide) (c.entities ++ [e]) with
              ⟨ch, hch, hshape⟩ | herr
            · exact .inl ⟨node b ch, by rw [hch], .node hwide hshape⟩
            · exact .inr (by rw [herr])
          · exact .inl ⟨_, insertWithin_store he (.inr hsub), .leaf b _⟩

/-! ## An uncovered corner -/

section Corner

variable [DecidableEq α] [LawfulEntityContainer T]

/-- A leaf without room whose entities, all at different positions, stand in its upper left corner
    `d` levels down. -/
structure Crowded (pos : α → Point) (maxContainerEntities d : Nat) (b : Square)
    (c : QuadEntityContainer T) : Prop where
  exact : c.Exact pos
  apart : (c.entities.map pos).Nodup
  length_eq : c.entities.length = maxContainerEntities
  inside : ∀ e ∈ c.entities, (Square.corner d b).InBoundary (pos e)

omit [DecidableEq α] [LawfulEntityContainer T] in
theorem Crowded.distinctSize_eq {d : Nat} {b : Square} {c : QuadEntityContainer T}
    (h : Crowded pos maxContainerEntities d b c) : c.distinctSize = maxContainerEntities := by
  rw [h.exact.distinctSize_eq, List.toFinset_card_of_nodup h.apart, List.length_map, h.length_eq]

/-- A container with room for the entities that are still to come. -/
structure Roomy (pos : α → Point) (maxContainerEntities : Nat) (within : Square)
    (c : QuadEntityContainer T) (es : List α) : Prop where
  exact : c.Exact pos
  fresh : (es ++ c.entities).Nodup
  room : c.distinctSize + es.length ≤ maxContainerEntities
  inside : ∀ e ∈ es, within.InBoundary (pos e)

theorem Roomy.insert {within : Square} {c : QuadEntityContainer T} {e : α} {es : List α}
    (h : Roomy pos maxContainerEntities within c (e :: es)) :
    Roomy pos maxContainerEntities within (c._insert pos e) es := by
  have hnodup := List.nodup_cons.1 h.fresh
  have hfresh : e ∉ c.entities := fun he => hnodup.1 (List.mem_append_right es he)
  have hperm := QuadEntityContainer.entities_insert pos hfresh
  have hexact := h.exact.insert hfresh
  have hroom := h.room
  refine ⟨hexact, ?_, ?_, fun f hf => h.inside f (List.mem_cons_of_mem e hf)⟩
  · exact ((hperm.append_left es).trans List.perm_middle).nodup_iff.2 h.fresh
  · have hpos : ((c._insert pos e).entities.map pos).toFinset =
        Insert.insert (pos e) (c.entities.map pos).toFinset := by
      rw [List.toFinset_eq_of_perm _ _ (hperm.map pos), List.map_cons, List.toFinset_cons]
    have hle := Finset.card_insert_le (pos e) (c.entities.map pos).toFinset
    rw [← hpos, ← hexact.distinctSize_eq, ← h.exact.distinctSize_eq] at hle
    rw [List.length_cons] at hroom
    omega

/-- New entities that a roomy container takes make it a crowded one. -/
theorem Roomy.crowded {d : Nat} {b : Square} {es : List α}
    (h : Roomy pos maxContainerEntities (Square.corner d b) (.new : QuadEntityContainer T) es)
    (hapart : (es.map pos).Nodup) (hlen : es.length = maxContainerEntities) :
    Crowded pos maxContainerEntities d b
        (es.foldl (QuadEntityContainer._insert pos) (.new : QuadEntityContainer T)) ∧
      (es.foldl (QuadEntityContainer._insert pos) (.new : QuadEntityContainer T)).entities.Perm
        es := by
  obtain ⟨hexact, hperm⟩ := h.exact.foldl_insert h.fresh
  rw [QuadEntityContainer.entities_new, List.append_nil] at hperm
  refine ⟨⟨hexact, (hperm.map pos).nodup_iff.2 hapart, ?_, fun e he => ?_⟩, hperm⟩
  · rw [hperm.length_eq, hlen]
  · exact h.inside e (hperm.mem_iff.1 he)

theorem roomy_new {within : Square} {es : List α} (hnodup : es.Nodup)
    (hlen : es.length ≤ maxContainerEntities) (hin : ∀ e ∈ es, within.InBoundary (pos e)) :
    Roomy pos maxContainerEntities within (.new : QuadEntityContainer T) es where
  exact := QuadEntityContainer.exact_new
  fresh := by rwa [QuadEntityContainer.entities_new, List.append_nil]
  room := by rwa [QuadEntityContainer.distinctSize_new, Nat.zero_add]
  inside := hin

omit [DecidableEq α] [LawfulEntityContainer T] in
/-- Dividing an odd quad for its upper left corner reaches a null child. -/
theorem insert_odd_null {depth : Nat} {b : Square} {c : QuadEntityContainer T} {e : α}
    (hodd : Odd b.width) (hwide : 1 < b.width) (hdepth : b.width.toNat < depth)
    (hfull : maxContainerEntities ≤ c.distinctSize) (he : pos e = ⟨b.left, b.top⟩) :
    insertWithin pos maxContainerEntities depth (leaf b c) e = .error .nullInner := by
  obtain ⟨depth, rfl⟩ : ∃ n, depth = n + 1 := ⟨depth - 1, by omega⟩
  have hin : b.InBoundary (pos e) := he ▸ Square.inBoundary_topLeft (by omega)
  have hchild : ∀ k (q : Quad T) (e : α), Shaped (b.child k) q → (b.child k).InBoundary (pos e) →
      (∃ q', insertWithin pos maxContainerEntities depth q e = .ok q' ∧ Shaped (b.child k) q') ∨
        insertWithin pos maxContainerEntities depth q e = .error .nullInner := by
    intro k q e hq he
    refine insertWithin_shaped depth ?_ hq he
    rw [Square.child_width_of_nonneg (by omega)]
    omega
  rw [insertWithin_divide hin hfull ((b.canSubdivide_iff).2 hwide)]
  rcases run_divide_shaped hchild c.entities with ⟨ch, hch, hshape⟩ | herr
  · -- whatever the stored entities did, the new one finds no child
    have hnone : inner ch (pos e) = none := by
      rw [inner_eq (fun k => (hshape k).boundary_eq), he, Square.inner_topLeft_of_odd (by omega) hodd]
    have hlast : insertInner pos (insertWithin pos maxContainerEntities depth) ch e =
        .error .nullInner := by
      simp only [insertInner, hnone]
    rw [run_append_ok [e] hch, run_cons_error [] hlast]
  · rw [run_append_error [e] herr]

/-- Four new children, the upper left one with the given container. -/
def withTopLeft (b : Square) (c : QuadEntityContainer T) : Quadrant → Quad T :=
  Function.update (fun k => new (b.child k)) .topLeft (leaf (b.child .topLeft) c)

omit [DecidableEq α] [LawfulEntityContainer T] in
theorem withTopLeft_new (b : Square) :
    withTopLeft b (.new : QuadEntityContainer T) = fun k => new (b.child k) := by
  funext k
  cases k <;> rfl

omit [DecidableEq α] [LawfulEntityContainer T] in
theorem inner_withTopLeft (b : Square) (c : QuadEntityContainer T) (p : Point) :
    inner (withTopLeft b c) p = b.inner p := by
  refine inner_eq (fun k => ?_) p
  cases k <;> rfl

/-- Entities in the upper left corner all go to the upper left child. -/
theorem run_fill_topLeft {d u : Nat} {b : Square} {depth : Nat}
    (hw : (b.child .topLeft).width = 2 ^ d * u) (hdepth : 0 < depth) {c : QuadEntityContainer T}
    {es : List α}
    (h : Roomy pos maxContainerEntities (Square.corner d (b.child .topLeft)) c es) :
    run (insertInner pos (insertWithin pos maxContainerEntities depth)) (withTopLeft b c) es =
      .ok (withTopLeft b (es.foldl (QuadEntityContainer._insert pos) c)) := by
  obtain ⟨depth, rfl⟩ : ∃ n, depth = n + 1 := ⟨depth - 1, by omega⟩
  have hmap := List.map_id es
  refine (congrArg _ hmap).symm.trans (run_map_eq_foldl (fun _ _ => True) id (withTopLeft b) (QuadEntityContainer._insert pos)
    (Roomy pos maxContainerEntities (Square.corner d (b.child .topLeft))) ?_ h).2
  intro c e es h
  have hroom := h.room
  rw [List.length_cons] at hroom
  have hin : (b.child .topLeft).InBoundary (pos e) :=
    (h.inside e List.mem_cons_self).of_corner hw
  refine ⟨trivial, ?_, h.insert⟩
  simp only [insertInner, id_eq, inner_withTopLeft, Square.inner_topLeft hin]
  rw [withTopLeft, Function.update_self, insertWithin_store hin (.inl (by omega))]
  simp only [Function.update_idem, withTopLeft]

/-- A crowded leaf fails on its upper left corner when an odd width above 1 lies `d` levels down. -/
theorem insert_corner_null {d u : Nat} (hodd : Odd u) (hu : 1 < u) {depth : Nat} {b : Square}
    {c : QuadEntityContainer T} {e : α} (hw : b.width = 2 ^ d * u)
    (hdepth : b.width.toNat < depth) (hc : Crowded pos maxContainerEntities d b c)
    (he : pos e = ⟨b.left, b.top⟩) :
    insertWithin pos maxContainerEntities depth (leaf b c) e = .error .nullInner := by
  induction d generalizing depth b c with
  | zero =>
      rw [pow_zero, one_mul] at hw
      exact insert_odd_null (by rw [hw]; exact_mod_cast hodd) (by omega) hdepth
        hc.distinctSize_eq.ge he
  | succ d ih =>
      obtain ⟨depth, rfl⟩ : ∃ n, depth = n + 1 := ⟨depth - 1, by omega⟩
      have hchildw : (b.child .topLeft).width = 2 ^ d * u := Square.child_width_of_pow hw _
      have htwice : b.width = 2 * (b.child .topLeft).width := by
        rw [hchildw, hw, pow_succ]
        ring
      have hpos : 0 < (b.child .topLeft).width := by
        rw [hchildw]
        positivity
      -- the corner stays where it is, one level further down
      have htop : (b.child .topLeft).top = b.top := by
        have hnonneg : 0 ≤ b.width := by omega
        rw [Square.child_width_of_nonneg hnonneg] at htwice
        simp only [Square.top, Square.child, Square.bottom, add_sub_cancel_left,
          Int.tdiv_eq_ediv_of_nonneg hnonneg]
        omega
      have hcorner : pos e = ⟨(b.child .topLeft).left, (b.child .topLeft).top⟩ := by
        rw [he, htop]
        rfl
      have hin : b.InBoundary (pos e) := he ▸ Square.inBoundary_topLeft (by omega)
      have hinChild : (b.child .topLeft).InBoundary (pos e) :=
        hcorner ▸ Square.inBoundary_topLeft hpos.le
      rw [insertWithin_divide hin hc.distinctSize_eq.ge ((b.canSubdivide_iff).2 (by omega))]
      -- what the leaf held goes to the upper left child and fills it, so `e` divides that one
      have hroomy : Roomy pos maxContainerEntities (Square.corner d (b.child .topLeft))
          (.new : QuadEntityContainer T) c.entities :=
        roomy_new hc.exact.nodup hc.length_eq.le hc.inside
      have hfill := run_fill_topLeft hchildw (Nat.lt_of_lt_of_le (by omega : 0 < b.width.toNat)
        (Nat.lt_succ_iff.1 hdepth)) hroomy
      obtain ⟨hcrowded, -⟩ := hroomy.crowded hc.apart hc.length_eq
      have hnull := ih hchildw (by omega : _ < depth) hcrowded hcorner
      have hlast : insertInner pos (insertWithin pos maxContainerEntities depth)
          (withTopLeft b (c.entities.foldl (QuadEntityContainer._insert pos)
            (.new : QuadEntityContainer T))) e =
            .error .nullInner := by
        simp only [insertInner, inner_withTopLeft, Square.inner_topLeft hinChild]
        rw [withTopLeft, Function.update_self, hnull]
      rw [← withTopLeft_new, run_append_ok [e] hfill, run_cons_error [] hlast]

/-! ## Reaching the corner -/

/-- Inserting roomy entities into the root, one after the other. -/
theorem run_fill_root {d u : Nat} {b : Square} {es : List α} (hw : b.width = 2 ^ d * u)
    (h : Roomy pos maxContainerEntities (Square.corner d b) (.new : QuadEntityContainer T) es) :
    Admissible (Quad.step pos maxContainerEntities) (Guard pos) (new b : Quad T)
        (es.map .insert) ∧
      run (Quad.step pos maxContainerEntities) (new b : Quad T) (es.map .insert) =
        .ok (leaf b (es.foldl (QuadEntityContainer._insert pos) .new)) := by
  refine run_map_eq_foldl (Guard pos) Op.insert (leaf b) (QuadEntityContainer._insert pos)
    (Roomy pos maxContainerEntities (Square.corner d b)) ?_ h
  intro c e es h
  have hroom := h.room
  rw [List.length_cons] at hroom
  have hin : b.InBoundary (pos e) := (h.inside e List.mem_cons_self).of_corner hw
  have hfresh : e ∉ c.entities := fun he =>
    (List.nodup_cons.1 h.fresh).1 (List.mem_append_right es he)
  exact ⟨⟨hin, hfresh⟩, insertWithin_store hin (.inl (by omega)), h.insert⟩

end Corner

/-- Where a width does not halve evenly, some run divides a quad for an uncovered corner. -/
theorem exists_run_null_inner {d u : Nat} (hodd : Odd u) (hu : 1 < u)
    (hmax : maxContainerEntities ≤ (u + 1) ^ 2) {b : Square} (hw : b.width = 2 ^ d * u) :
    ∃ ops : List (Op (Point × Bool)),
      Admissible (Quad.step Prod.fst maxContainerEntities) (Guard Prod.fst)
          (new b : Quad (ListContainer (Point × Bool))) ops ∧
        run (Quad.step Prod.fst maxContainerEntities)
          (new b : Quad (ListContainer (Point × Bool))) ops = .error .nullInner := by
  have hcard : maxContainerEntities ≤ (Square.corner d b).points.card := by
    have hpoints := Square.card_points (b := Square.corner d b)
      (by rw [Square.width_corner hw]; positivity)
    rw [Square.width_corner hw] at hpoints
    have hnat : (Square.corner d b).points.card = (u + 1) ^ 2 := by exact_mod_cast hpoints
    omega
  -- enough points of the odd square to fill a leaf
  obtain ⟨s, hs, hsize⟩ := Finset.exists_subset_card_eq hcard
  have hinj : Function.Injective fun p : Point => (p, false) := fun _ _ h => congrArg Prod.fst h
  let es : List (Point × Bool) := s.toList.map fun p => (p, false)
  have hlen : es.length = maxContainerEntities := by
    rw [List.length_map, Finset.length_toList, hsize]
  have hin : ∀ e ∈ es, (Square.corner d b).InBoundary e.1 := by
    intro e he
    obtain ⟨p, hp, rfl⟩ := List.mem_map.1 he
    exact Square.mem_points.1 (hs (Finset.mem_toList.1 hp))
  have hroomy : Roomy Prod.fst maxContainerEntities (Square.corner d b)
      (.new : QuadEntityContainer (ListContainer (Point × Bool))) es :=
    roomy_new (s.nodup_toList.map hinj) hlen.le hin
  have hapart : (es.map Prod.fst).Nodup := by
    rw [List.map_map]
    exact s.nodup_toList.map fun _ _ h => h
  obtain ⟨hcrowded, hperm⟩ := hroomy.crowded hapart hlen
  obtain ⟨hadm, hrun⟩ := run_fill_root hw hroomy
  -- a second entity for the corner, new even when its position is taken
  have hnull := insert_corner_null (e := (⟨b.left, b.top⟩, true)) hodd hu hw
    (Nat.lt_succ_self b.width.toNat) hcrowded rfl
  refine ⟨es.map .insert ++ [.insert (⟨b.left, b.top⟩, true)], ?_, ?_⟩
  · refine hadm.append_intro fun q hq => ⟨⟨?_, fun hmem => ?_⟩, fun _ _ => trivial⟩
    · rw [hrun] at hq
      rw [← Except.ok.inj hq]
      exact Square.inBoundary_topLeft (b := b) (by rw [hw]; positivity)
    · rw [hrun] at hq
      rw [← Except.ok.inj hq, entities_leaf, hperm.mem_iff] at hmem
      obtain ⟨p, -, hp⟩ := List.mem_map.1 hmem
      cases hp
  · rw [run_append_ok _ hrun]
    exact run_cons_error [] hnull

/-- The closed boundary of every divided quad of a tree is covered by its four children. -/
def Covered (q : Quad T) : Prop :=
  ∀ b ch, node b ch ∈ q.quads → ∀ p, b.InBoundary p → ∃ k, (ch k).boundary.InBoundary p

theorem WellFormed.covered {b : Square} {q : Quad T}
    (h : WellFormed pos maxContainerEntities b q) : q.Covered := by
  induction h with
  | leaf =>
      intro b' ch' hmem
      cases List.mem_singleton.1 hmem
  | @node b ch wide even children _ _ ih =>
      intro b' ch' hmem p hp
      rcases List.mem_cons.1 hmem with htop | hbelow
      · obtain ⟨rfl, rfl⟩ := Quad.node.inj htop
        obtain ⟨k, hk⟩ := b'.exists_inner (by omega) even hp
        exact ⟨k, (children k).boundary_eq ▸ Square.inBoundary_of_inner hk⟩
      · obtain ⟨k, -, hk⟩ := List.mem_flatMap.1 hbelow
        exact ih k b' ch' hk p hp

/-- In every run over a root of width `w` all divided quads are covered, and so no null child is
    reached, exactly when `w` halves evenly. -/
theorem covered_iff_halvesEvenly {w : Int} (hw : 1 ≤ w) :
    (∀ (T α : Type) [EntityContainer T α] [DecidableEq α] [LawfulEntityContainer T]
        (pos : α → Point) (bottomLeft : Point) (ops : List (Op α)),
        Admissible (Quad.step pos maxContainerEntities) (Guard pos)
          (new ⟨bottomLeft, w⟩ : Quad T) ops →
        run (Quad.step pos maxContainerEntities) (new ⟨bottomLeft, w⟩ : Quad T) ops ≠
            .error .nullInner ∧
          ∀ q, run (Quad.step pos maxContainerEntities) (new ⟨bottomLeft, w⟩ : Quad T) ops = .ok q →
            q.Covered) ↔
      HalvesEvenly maxContainerEntities w := by
  constructor
  · intro h
    obtain ⟨d, u, hodd, hwidth⟩ := Nat.exists_eq_two_pow_mul_odd (n := w.toNat) (by omega)
    -- otherwise the odd part of the width is above 1 and its square can fill a leaf
    have hw : w = 2 ^ d * u := by
      have hcast : (w.toNat : Int) = w := Int.toNat_of_nonneg (by omega)
      rw [← hcast, hwidth]
      push_cast
      rfl
    refine ⟨d, u, hw, hodd, ?_⟩
    by_contra hbig
    push Not at hbig
    have hpos := hodd.pos
    obtain ⟨ops, hadm, hrun⟩ := exists_run_null_inner hodd (by omega) hbig.2
      (b := ⟨⟨0, 0⟩, w⟩) hw
    exact (h _ _ Prod.fst ⟨0, 0⟩ ops hadm).1 hrun
  · intro hhalves T α _ _ _ pos bottomLeft ops hadm
    refine ⟨fun hnull => ?_, fun q hrun => ?_⟩
    · have := ((run_error_iff (b := ⟨bottomLeft, w⟩) hhalves hadm).1 hnull).1
      cases this
    · exact (wellFormed_of_run (b := ⟨bottomLeft, w⟩) hhalves hadm hrun).covered

theorem covered_iff_mapWidth :
    (∀ (T α : Type) [EntityContainer T α] [DecidableEq α] [LawfulEntityContainer T]
        (pos : α → Point) (bottomLeft : Point) (ops : List (Op α)),
        Admissible (Quad.step pos 32) (Guard pos) (new ⟨bottomLeft, mapWidth⟩ : Quad T) ops →
        run (Quad.step pos 32) (new ⟨bottomLeft, mapWidth⟩ : Quad T) ops ≠ .error .nullInner ∧
          ∀ q, run (Quad.step pos 32) (new ⟨bottomLeft, mapWidth⟩ : Quad T) ops = .ok q →
            q.Covered) ↔
      HalvesEvenly 32 mapWidth :=
  covered_iff_halvesEvenly (by decide)

/-- Thirty-three entities at different points next to the upper left corner of the map. -/
def crowd (e : Nat) : Point := ⟨e / 8, mapWidth - e % 8⟩

/-- `50 * 8192` is halved fourteen times until the odd width 25, and 32 of the crowd fill that quad:
    the one in the corner, inserted last, divides it. -/
theorem mapWidth_uncovered :
    Admissible (Quad.step crowd 32) (Guard crowd)
        (new ⟨⟨0, 0⟩, mapWidth⟩ : Quad (ListContainer Nat))
        ((List.range' 1 32).map .insert ++ [.insert 0]) ∧
      run (Quad.step crowd 32) (new ⟨⟨0, 0⟩, mapWidth⟩ : Quad (ListContainer Nat))
        ((List.range' 1 32).map .insert ++ [.insert 0]) = .error .nullInner := by
  constructor
  · decide +kernel
  · decide +kernel

end Quad

end Bango.Space
