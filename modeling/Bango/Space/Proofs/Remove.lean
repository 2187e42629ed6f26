import Bango.Space.Proofs.Insert

set_option autoImplicit false

/-! # Removal and merging

Removing a stored entity from a well-formed tree takes exactly that entity away, unless `merge`
meets a quad it may collapse while one of its children is still divided. That happens exactly in the
states `Blocked` describes, and then `merge` hands the null container of the divided child to
`_merge`. -/

namespace Bango.Space

open Bango.Lib

namespace Quad

variable {T α : Type} [EntityContainer T α] {pos : α → Point} {maxContainerEntities : Nat}

/-- `e` stands alone at its position, and some quad holds that position and exactly
    `maxContainerEntities` others, all of them in one divided child. -/
def Blocked (pos : α → Point) (maxContainerEntities : Nat) (q : Quad T) (e : α) : Prop :=
  (∀ f ∈ q.entities, pos f = pos e → f = e) ∧
    ∃ b ch, node b ch ∈ q.quads ∧ e ∈ (node b ch).entities ∧
      (node b ch).distinctSize = maxContainerEntities + 1 ∧
      ∃ k, ¬ (ch k).IsLeaf ∧ e ∉ (ch k).entities ∧ (ch k).distinctSize = maxContainerEntities

theorem entities_subset_of_mem_quads {q a : Quad T} (h : a ∈ q.quads) :
    ∀ e ∈ a.entities, e ∈ q.entities := by
  induction q with
  | leaf b c =>
      intro e he
      rwa [List.mem_singleton.1 h] at he
  | node b ch ih =>
      intro e he
      rcases List.mem_cons.1 h with rfl | hbelow
      · exact he
      · obtain ⟨k, -, hk⟩ := List.mem_flatMap.1 hbelow
        exact mem_entities_node.2 ⟨k, ih k hk e he⟩

theorem mem_quads_child {b : Square} {ch : Quadrant → Quad T} {a : Quad T} {k : Quadrant}
    (h : a ∈ (ch k).quads) : a ∈ (node b ch).quads :=
  List.mem_cons_of_mem _ (List.mem_flatMap.2 ⟨k, Quadrant.mem_all k, h⟩)

omit [EntityContainer T α] in
theorem distinctSize_add_le (b : Square) (ch : Quadrant → Quad T) {j k : Quadrant} (hjk : j ≠ k) :
    (ch j).distinctSize + (ch k).distinctSize ≤ (node b ch).distinctSize := by
  cases j <;> cases k <;> simp only [distinctSize, ne_eq, not_true_eq_false] at hjk ⊢ <;> omega

theorem Blocked.of_child {b : Square} {ch : Quadrant → Quad T} {k : Quadrant} {e : α}
    (routed : ∀ k, ∀ e ∈ (ch k).entities, b.inner (pos e) = some k) (he : e ∈ (ch k).entities)
    (h : Blocked pos maxContainerEntities (ch k) e) :
    Blocked pos maxContainerEntities (node b ch) e := by
  obtain ⟨halone, b', ch', hmem, hrest⟩ := h
  refine ⟨fun f hf hpos => ?_, b', ch', mem_quads_child hmem, hrest⟩
  obtain ⟨j, hj⟩ := mem_entities_node.1 hf
  have hjk := routed j f hj
  rw [hpos, routed k e he] at hjk
  exact halone f (Option.some.inj hjk ▸ hj) hpos

/-- A blocked inner quad is blocked at the top or in the child that holds the entity. -/
theorem Blocked.cases_node {b : Square} {ch : Quadrant → Quad T} {k : Quadrant} {e : α}
    (routed : ∀ k, ∀ e ∈ (ch k).entities, b.inner (pos e) = some k) (he : e ∈ (ch k).entities)
    (h : Blocked pos maxContainerEntities (node b ch) e) :
    (∀ f ∈ (node b ch).entities, pos f = pos e → f = e) ∧
      ((∃ j, j ≠ k ∧ ¬ (ch j).IsLeaf ∧ (ch j).distinctSize = maxContainerEntities ∧
          (node b ch).distinctSize = maxContainerEntities + 1) ∨
        Blocked pos maxContainerEntities (ch k) e) := by
  obtain ⟨halone, b', ch', hmem, hin, hsize, j, hdivided, hout, hj⟩ := h
  refine ⟨halone, ?_⟩
  rcases List.mem_cons.1 hmem with htop | hbelow
  · obtain ⟨rfl, rfl⟩ := Quad.node.inj htop
    exact .inl ⟨j, fun hjk => hout (hjk ▸ he), hdivided, hj, hsize⟩
  · obtain ⟨i, -, hi⟩ := List.mem_flatMap.1 hbelow
    have hik := (routed i e (entities_subset_of_mem_quads hi e hin)).symm.trans (routed k e he)
    obtain rfl := Option.some.inj hik
    exact .inr ⟨fun f hf => halone f (mem_entities_node.2 ⟨i, hf⟩), b', ch', hi, hin, hsize, j,
      hdivided, hout, hj⟩

/-- A divided quad holds at least `maxContainerEntities` distinct positions. -/
theorem WellFormed.full_of_divided {b : Square} {q : Quad T}
    (h : WellFormed pos maxContainerEntities b q) (hq : ¬ q.IsLeaf) :
    maxContainerEntities ≤ q.distinctSize := by
  cases h with
  | leaf => exact absurd (isLeaf_leaf _ _) hq
  | node _ _ _ _ full => exact full

/-- Collapsing a quad with a divided child dereferences that child's null container. -/
theorem mergeChildren_null {ch : Quadrant → Quad T} {k : Quadrant} (hk : ¬ (ch k).IsLeaf) :
    mergeChildren pos ch = .error .nullContainer := by
  refine run_error_of_mem ?_ (Quadrant.mem_all k) ?_ _
  · intro c j f hf
    cases hj : (ch j).container? with
    | none => rw [hj] at hf; exact (Except.error.inj hf).symm
    | some d => rw [hj] at hf; cases hf
  · intro c
    rw [not_not.1 hk]
    rfl

/-- What `merge` makes of an inner quad whose entities are gone down to `es`. -/
structure Merged (pos : α → Point) (maxContainerEntities : Nat) (b : Square) (es : List α)
    (q : Quad T) (up : Bool) : Prop where
  wellFormed : WellFormed pos maxContainerEntities b q
  entities_perm : q.entities.Perm es
  /-- the parent is merged next exactly when the quad has become a leaf -/
  up_leaf : up = true → q.IsLeaf
  stay_full : up = false → maxContainerEntities < q.distinctSize

variable [DecidableEq α]

/-! ## Taking one entity away -/

theorem positions_eq_insert {q q' : Quad T} {e : α} (he : e ∈ q.entities)
    (hperm : q'.entities.Perm (q.entities.erase e)) :
    q.positions pos = Insert.insert (pos e) (q'.positions pos) := by
  have hcons : q.entities.Perm (e :: q'.entities) :=
    (List.perm_cons_erase he).trans (hperm.symm.cons e)
  ext p
  simp only [mem_positions, Finset.mem_insert, hcons.mem_iff, List.mem_cons]
  constructor
  · rintro ⟨f, rfl | hf, rfl⟩
    · exact .inl rfl
    · exact .inr ⟨f, hf, rfl⟩
  · rintro (rfl | ⟨f, hf, rfl⟩)
    · exact ⟨e, .inl rfl, rfl⟩
    · exact ⟨f, .inr hf, rfl⟩

/-- `e` is alone at its position exactly when the position is free once `e` is gone. -/
theorem alone_iff {q q' : Quad T} {e : α} (hnodup : q.entities.Nodup)
    (hperm : q'.entities.Perm (q.entities.erase e)) :
    (∀ f ∈ q.entities, pos f = pos e → f = e) ↔ pos e ∉ q'.positions pos := by
  simp only [mem_positions, hperm.mem_iff, hnodup.mem_erase_iff]
  constructor
  · rintro h ⟨f, ⟨hne, hf⟩, hpos⟩
    exact hne (h f hf hpos)
  · intro h f hf hpos
    by_contra hne
    exact h ⟨f, ⟨hne, hf⟩, hpos⟩

/-- An inner quad, before and after `e` is taken out of the child `k` it lies in. -/
structure ChildErased (pos : α → Point) (maxContainerEntities : Nat) (b : Square)
    (ch : Quadrant → Quad T) (k : Quadrant) (e : α) (q : Quad T) : Prop where
  before : WellFormed pos maxContainerEntities b (node b ch)
  holds : e ∈ (ch k).entities
  routed : Routed pos maxContainerEntities b (Function.update ch k q)
  perm : (node b (Function.update ch k q)).entities.Perm ((node b ch).entities.erase e)

namespace ChildErased

variable {b : Square} {ch : Quadrant → Quad T} {k : Quadrant} {e : α} {q : Quad T}

theorem of_merged {up : Bool} (before : WellFormed pos maxContainerEntities b (node b ch))
    (hchildren : Routed pos maxContainerEntities b ch) (holds : e ∈ (ch k).entities)
    (hm : Merged pos maxContainerEntities (b.child k) ((ch k).entities.erase e) q up) :
    ChildErased pos maxContainerEntities b ch k e q where
  before := before
  holds := holds
  routed := hchildren.update hm.wellFormed fun f hf =>
    hchildren.routed k f (List.mem_of_mem_erase (hm.entities_perm.mem_iff.1 hf))
  perm := by
    have hold := (entities_node_perm b ch k).erase e
    rw [List.erase_append_left _ holds] at hold
    exact (entities_update_perm b ch k q).trans
      ((hm.entities_perm.append_right _).trans hold.symm)

theorem mem (h : ChildErased pos maxContainerEntities b ch k e q) : e ∈ (node b ch).entities :=
  mem_entities_node.2 ⟨k, h.holds⟩

theorem alone_iff (h : ChildErased pos maxContainerEntities b ch k e q) :
    (∀ f ∈ (node b ch).entities, pos f = pos e → f = e) ↔
      pos e ∉ (node b (Function.update ch k q)).positions pos :=
  Quad.alone_iff h.before.nodup h.perm

/-- With `e` alone at its position, one distinct position goes. -/
theorem distinctSize_of_alone (h : ChildErased pos maxContainerEntities b ch k e q)
    (hone : ∀ f ∈ (node b ch).entities, pos f = pos e → f = e) :
    (node b ch).distinctSize = (node b (Function.update ch k q)).distinctSize + 1 := by
  rw [h.before.distinctSize_eq, h.routed.distinctSize_eq, positions_eq_insert h.mem h.perm,
    Finset.card_insert_of_notMem (h.alone_iff.1 hone)]

/-- Otherwise none does. -/
theorem distinctSize_of_not_alone (h : ChildErased pos maxContainerEntities b ch k e q)
    (hshared : ¬ ∀ f ∈ (node b ch).entities, pos f = pos e → f = e) :
    (node b ch).distinctSize = (node b (Function.update ch k q)).distinctSize := by
  rw [h.alone_iff, not_not] at hshared
  rw [h.before.distinctSize_eq, h.routed.distinctSize_eq, positions_eq_insert h.mem h.perm,
    Finset.insert_eq_of_mem hshared]

theorem distinctSize_child_le (h : ChildErased pos maxContainerEntities b ch k e q)
    (hq : WellFormed pos maxContainerEntities (b.child k) q) :
    q.distinctSize ≤ (node b (Function.update ch k q)).distinctSize := by
  rw [hq.distinctSize_eq, h.routed.distinctSize_eq]
  exact Finset.card_le_card
    (positions_mono fun f hf => mem_entities_node.2 ⟨k, by rwa [Function.update_self]⟩)

/-- A divided child that stands in the way of collapsing the quad blocks the removal. -/
theorem blocked_of_divided (h : ChildErased pos maxContainerEntities b ch k e q)
    (hchildren : Routed pos maxContainerEntities b ch)
    (hsmall : (node b (Function.update ch k q)).distinctSize ≤ maxContainerEntities)
    {j : Quadrant} (hjk : j ≠ k) (hj : ¬ (ch j).IsLeaf) :
    Blocked pos maxContainerEntities (node b ch) e := by
  have hfull := (hchildren.children j).full_of_divided hj
  -- the divided child is full, the child of `e` adds at least its position: one more than the bound
  have hpos : 0 < (ch k).distinctSize := by
    rw [(hchildren.children k).distinctSize_eq]
    exact Finset.card_pos.2 ⟨pos e, mem_positions.2 ⟨e, h.holds, rfl⟩⟩
  have hsum := distinctSize_add_le b ch hjk
  have hrest := distinctSize_add_le b (Function.update ch k q) hjk
  rw [Function.update_of_ne hjk] at hrest
  have hone : ∀ f ∈ (node b ch).entities, pos f = pos e → f = e := by
    by_contra hshared
    have := h.distinctSize_of_not_alone hshared
    omega
  have hdrop := h.distinctSize_of_alone hone
  refine ⟨hone, b, ch, List.mem_cons_self, h.mem, by omega, j, hj, fun hmem => hjk ?_, by omega⟩
  exact Option.some.inj ((hchildren.routed j e hmem).symm.trans (hchildren.routed k e h.holds))

end ChildErased

variable [LawfulEntityContainer T]

/-! ## One merge -/

/-- Collapsing a quad whose children are all leaves gathers their entities. -/
theorem mergeChildren_spec {b : Square} {ch : Quadrant → Quad T}
    (hexact : ∀ k b' d, ch k = leaf b' d → d.Exact pos)
    (routed : ∀ k, ∀ e ∈ (ch k).entities, b.inner (pos e) = some k) (hleaf : ∀ k, (ch k).IsLeaf) :
    ∃ c, mergeChildren pos ch = .ok c ∧ c.Exact pos ∧
      c.entities.Perm (node b ch).entities := by
  refine run_ok_of_progress
    (fun seen (c : QuadEntityContainer T) => c.Exact pos ∧
      c.entities.Perm (seen.flatMap fun k => (ch k).entities))
    ⟨QuadEntityContainer.exact_new, by simp⟩ ?_
  rintro seen k rest c hsplit ⟨hcexact, hperm⟩
  obtain ⟨b', d, hd⟩ : ∃ b' d, ch k = leaf b' d := by
    cases hq : ch k with
    | leaf b' d => exact ⟨b', d, rfl⟩
    | node b' ch' => exact absurd (hq ▸ hleaf k) (not_isLeaf_node b' ch')
  have hseen : k ∉ seen := by
    have hnodup : (seen ++ k :: rest).Nodup := hsplit ▸ (by decide : Quadrant.all.Nodup)
    exact fun hmem => (List.nodup_append.1 hnodup).2.2 k hmem k (by simp) rfl
  -- the children hold disjoint entities: each entity is routed to one of them
  have hdisj : c.entities.Disjoint d.entities := by
    intro e hc hde
    obtain ⟨j, hj, hej⟩ := List.mem_flatMap.1 (hperm.mem_iff.1 hc)
    have hek : e ∈ (ch k).entities := by rw [hd]; exact hde
    have hjk := (routed j e hej).symm.trans (routed k e hek)
    exact hseen (Option.some.inj hjk ▸ hj)
  obtain ⟨c', hc', hexact', hperm'⟩ := hcexact.merge (hexact k b' d hd) hdisj
  refine ⟨c', by rw [hd]; exact hc', hexact', hperm'.trans ?_⟩
  rw [List.flatMap_append, List.flatMap_singleton, hd]
  exact hperm.append_right d.entities

theorem merge_spec {b : Square} {ch : Quadrant → Quad T}
    (h : Routed pos maxContainerEntities b ch) (hwide : 1 < b.width) (heven : Even b.width) :
    ((node b ch).distinctSize ≤ maxContainerEntities ∧ (∃ k, ¬ (ch k).IsLeaf) ∧
        merge pos maxContainerEntities (node b ch) = .error .nullContainer) ∨
      (((node b ch).distinctSize ≤ maxContainerEntities → ∀ k, (ch k).IsLeaf) ∧
        ∃ q up, merge pos maxContainerEntities (node b ch) = .ok (q, up) ∧
          Merged pos maxContainerEntities b (node b ch).entities q up) := by
  -- too many positions are left to collapse the quad; otherwise the kind of its children decides
  by_cases hfull : (node b ch).distinctSize > maxContainerEntities
  · refine .inr ⟨fun hle => absurd hle (Nat.not_le.2 hfull), node b ch, false, ?_, ?_⟩
    · simp only [merge, if_pos hfull]
    · exact ⟨.node hwide heven h.children h.routed hfull.le, List.Perm.refl _,
      fun h => absurd h Bool.false_ne_true, fun _ => hfull⟩
  by_cases hleaf : ∀ k, (ch k).IsLeaf
  · have hchildren : ∀ k b' d, ch k = leaf b' d → d.Exact pos := by
      intro k b' d hd
      have hwf := h.children k
      rw [hd] at hwf
      cases hwf with
      | leaf exact _ => exact exact
    obtain ⟨c, hc, hexact, hperm⟩ := mergeChildren_spec hchildren h.routed hleaf
    refine .inr ⟨fun _ => hleaf, leaf b c, true, ?_, ?_⟩
    · simp only [merge, if_neg hfull, hc]
    · refine ⟨.leaf hexact fun e he => ?_, hperm, fun _ => isLeaf_leaf b c,
        fun h => absurd h.symm Bool.false_ne_true⟩
      obtain ⟨k, hk⟩ := mem_entities_node.1 (hperm.mem_iff.1 he)
      exact ((h.children k).entity_inside hk).of_child (by omega)
  · obtain ⟨k, hk⟩ := not_forall.1 hleaf
    refine .inl ⟨Nat.not_lt.1 hfull, ⟨k, hk⟩, ?_⟩
    simp only [merge, if_neg hfull, mergeChildren_null hk]

/-! ## Removal -/

/-- Removing a stored entity dereferences a null container exactly when it is blocked, and otherwise
    takes the entity away. -/
theorem removeRec_spec {b : Square} {q : Quad T} {e : α}
    (hq : WellFormed pos maxContainerEntities b q) (he : e ∈ q.entities) :
    (Blocked pos maxContainerEntities q e ∧
        removeRec pos maxContainerEntities q e = .error .nullContainer) ∨
      (¬ Blocked pos maxContainerEntities q e ∧
        ∃ q' up, removeRec pos maxContainerEntities q e = .ok (q', up) ∧
          Merged pos maxContainerEntities b (q.entities.erase e) q' up) := by
  have hin := hq.entity_inside he
  induction hq with
  | @leaf b c exact inside =>
      right
      obtain ⟨c', hc', hexact, hperm⟩ := exact.remove he
      refine ⟨?_, leaf b c', true, by simp only [removeRec, if_pos hin, hc'], ?_⟩
      · rintro ⟨-, b', ch', hmem, -⟩
        cases List.mem_singleton.1 hmem
      · refine ⟨.leaf hexact fun f hf => ?_, hperm, fun _ => isLeaf_leaf b c',
          fun h => absurd h.symm Bool.false_ne_true⟩
        exact inside f (List.mem_of_mem_erase (hperm.mem_iff.1 hf))
  | @node b ch hwide heven children routed hfull ih =>
      have hchildren : Routed pos maxContainerEntities b ch := ⟨children, routed⟩
      obtain ⟨k, hk⟩ := mem_entities_node.1 he
      have hinner : inner ch (pos e) = some k := by rw [hchildren.inner_eq, routed k e hk]
      rcases ih k hk ((children k).entity_inside hk) with ⟨hblocked, herr⟩ | ⟨hfree, q', up, hok, hm⟩
      · exact .inl ⟨hblocked.of_child routed hk, by simp only [removeRec, if_pos hin, hinner, herr]⟩
      have herased : ChildErased pos maxContainerEntities b ch k e q' :=
        .of_merged (.node hwide heven children routed hfull) hchildren hk hm
      cases up with
      | false =>
          -- the child stays divided, so this quad is not merged
          have hstay : maxContainerEntities < (node b (Function.update ch k q')).distinctSize :=
            (hm.stay_full rfl).trans_le (herased.distinctSize_child_le hm.wellFormed)
          refine .inr ⟨fun hblocked => ?_, node b (Function.update ch k q'), false, ?_, ?_⟩
          · obtain ⟨hone, ⟨j, -, -, -, htop⟩ | hbelow⟩ := hblocked.cases_node routed hk
            · have := herased.distinctSize_of_alone hone
              omega
            · exact hfree hbelow
          · simp only [removeRec, if_pos hin, hinner, hok]
          · exact ⟨.node hwide heven herased.routed.children herased.routed.routed hstay.le,
              herased.perm, fun h => absurd h Bool.false_ne_true, fun _ => hstay⟩
      | true =>
          have hrec : removeRec pos maxContainerEntities (node b ch) e =
              merge pos maxContainerEntities (node b (Function.update ch k q')) := by
            simp only [removeRec, if_pos hin, hinner, hok]
          rcases merge_spec herased.routed hwide heven with
            ⟨hsmall, ⟨j, hj⟩, herr⟩ | ⟨hleaves, q'', up, hok', hm'⟩
          · -- the child that lost `e` is a leaf by now, so the divided one is another
            have hjk : j ≠ k := by
              rintro rfl
              rw [Function.update_self] at hj
              exact hj (hm.up_leaf rfl)
            rw [Function.update_of_ne hjk] at hj
            exact .inl ⟨herased.blocked_of_divided hchildren hsmall hjk hj, hrec.trans herr⟩
          · refine .inr ⟨fun hblocked => ?_, q'', up, hrec.trans hok', hm'.wellFormed,
              hm'.entities_perm.trans herased.perm, hm'.up_leaf, hm'.stay_full⟩
            obtain ⟨hone, ⟨j, hjk, hj, -, htop⟩ | hbelow⟩ := hblocked.cases_node routed hk
            · have hsize := herased.distinctSize_of_alone hone
              have hjleaf := hleaves (by omega) j
              rw [Function.update_of_ne hjk] at hjleaf
              exact hj hjleaf
            · exact hfree hbelow

/-- `remove` on the root. -/
theorem remove_spec {b : Square} {q : Quad T} {e : α}
    (hq : WellFormed pos maxContainerEntities b q) (he : e ∈ q.entities) :
    (Blocked pos maxContainerEntities q e ∧
        remove pos maxContainerEntities q e = .error .nullContainer) ∨
      (¬ Blocked pos maxContainerEntities q e ∧
        ∃ q', remove pos maxContainerEntities q e = .ok q' ∧
          WellFormed pos maxContainerEntities b q' ∧ q'.entities.Perm (q.entities.erase e)) := by
  rcases removeRec_spec hq he with ⟨hblocked, herr⟩ | ⟨hfree, q', up, hok, hm⟩
  · exact .inl ⟨hblocked, by simp only [remove, herr]⟩
  · exact .inr ⟨hfree, q', by simp only [remove, hok], hm.wellFormed, hm.entities_perm⟩

end Quad

end Bango.Space
