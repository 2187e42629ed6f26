import Mathlib.Tactic.Linarith
import Mathlib.Tactic.Positivity
import Bango.Space.Proofs.WellFormed

set_option autoImplicit false

/-! # Insertion

Insertion into a well-formed tree succeeds and adds exactly the new entity, provided no quad of odd
width is ever divided. A width is halved until it is odd; a leaf of that odd width `u` is never
divided when `u = 1` or when the `(u + 1) ^ 2` points of its closed square cannot fill it. -/

namespace Bango.Space

open Bango.Lib

/-- No quad of odd width is divided below a quad of width `w`. -/
def HalvesEvenly (maxContainerEntities : Nat) (w : Int) : Prop :=
  ∃ d u : Nat, w = 2 ^ d * u ∧ Odd u ∧ (u = 1 ∨ (u + 1) ^ 2 < maxContainerEntities)

namespace HalvesEvenly

variable {maxContainerEntities : Nat} {w : Int}

theorem of_two_pow (d : Nat) : HalvesEvenly maxContainerEntities (2 ^ d) :=
  ⟨d, 1, by simp, odd_one, .inl rfl⟩

theorem pos (h : HalvesEvenly maxContainerEntities w) : 0 < w := by
  obtain ⟨d, u, rfl, hu, -⟩ := h
  have hu0 : 0 < u := hu.pos
  positivity

theorem half (h : HalvesEvenly maxContainerEntities w) (heven : Even w) :
    HalvesEvenly maxContainerEntities (w / 2) := by
  obtain ⟨d, u, rfl, hu, hsmall⟩ := h
  cases d with
  | zero =>
      have : Odd (u : Int) := by exact_mod_cast hu
      rw [pow_zero, one_mul] at heven
      exact absurd heven (Int.not_even_iff_odd.2 this)
  | succ d =>
      refine ⟨d, u, ?_, hu, hsmall⟩
      rw [pow_succ, mul_right_comm]
      exact Int.mul_ediv_cancel _ (by decide)

/-- A full quad that can be divided has even width. -/
theorem even_of_full (h : HalvesEvenly maxContainerEntities w) (hwide : 1 < w)
    (hfull : (maxContainerEntities : Int) ≤ (w + 1) ^ 2) : Even w := by
  obtain ⟨d, u, rfl, hu, hsmall⟩ := h
  cases d with
  | zero =>
      rw [pow_zero, one_mul] at hwide hfull
      rcases hsmall with rfl | hsmall
      · exact absurd hwide (by decide)
      · exact absurd (by exact_mod_cast hfull) (Nat.not_le.2 hsmall)
  | succ d => exact Even.mul_right (Even.pow_of_ne_zero even_two (Nat.succ_ne_zero d)) _

end HalvesEvenly

/-- The points of a closed square. -/
def Square.points (b : Square) : Finset Point :=
  (Finset.range (b.width + 1).toNat ×ˢ Finset.range (b.width + 1).toNat).image fun d =>
    ⟨b.left + d.1, b.bottom + d.2⟩

theorem Square.mem_points {b : Square} {p : Point} : p ∈ b.points ↔ b.InBoundary p := by
  unfold points InBoundary right top
  simp only [Finset.mem_image, Finset.mem_product, Finset.mem_range, Prod.exists]
  constructor
  · intro ⟨dx, dy, ⟨hx, hy⟩, hp⟩
    subst hp
    simp only [left, bottom]
    omega
  · intro hp
    refine ⟨(p.x - b.left).toNat, (p.y - b.bottom).toNat, ?_, ?_⟩
    · simp only [left, bottom] at hp ⊢
      omega
    · have hx : b.left + ((p.x - b.left).toNat : Int) = p.x := by omega
      have hy : b.bottom + ((p.y - b.bottom).toNat : Int) = p.y := by omega
      rw [hx, hy]

theorem Square.card_points {b : Square} (hw : 0 ≤ b.width) :
    (b.points.card : Int) = (b.width + 1) ^ 2 := by
  have hinj : Function.Injective fun d : Nat × Nat => (⟨b.left + d.1, b.bottom + d.2⟩ : Point) := by
    intro d d' h
    simpa [Prod.ext_iff] using h
  have hcast : ((b.width + 1).toNat : Int) = b.width + 1 := Int.toNat_of_nonneg (by omega)
  unfold points
  rw [Finset.card_image_of_injective _ hinj, Finset.card_product, Finset.card_range]
  push_cast
  rw [hcast]
  ring

namespace Quad

variable {T α : Type} [EntityContainer T α] [DecidableEq α] [LawfulEntityContainer T]
  {pos : α → Point} {maxContainerEntities : Nat}

/-- What a successful insertion of `e` below a quad of boundary `b` achieves. -/
structure Inserted (pos : α → Point) (maxContainerEntities : Nat) (b : Square) (q : Quad T) (e : α)
    (q' : Quad T) : Prop where
  wellFormed : WellFormed pos maxContainerEntities b q'
  entities_perm : q'.entities.Perm (e :: q.entities)

omit [DecidableEq α] [LawfulEntityContainer T] in
/-- One `inner(entity)->insert(entity)`, when the `insert` of the children works. -/
theorem insertInner_spec {b : Square} {ch : Quadrant → Quad T}
    (h : Routed pos maxContainerEntities b ch) (hw : 0 ≤ b.width) (heven : Even b.width) {e : α}
    (he : b.InBoundary (pos e)) (hnew : e ∉ (node b ch).entities)
    {ins : Quad T → α → Except Fault (Quad T)}
    (hins : ∀ k q, WellFormed pos maxContainerEntities (b.child k) q →
      (b.child k).InBoundary (pos e) → e ∉ q.entities →
      ∃ q', ins q e = .ok q' ∧ Inserted pos maxContainerEntities (b.child k) q e q') :
    ∃ ch', insertInner pos ins ch e = .ok ch' ∧ Routed pos maxContainerEntities b ch' ∧
      (node b ch').entities.Perm (e :: (node b ch).entities) := by
  obtain ⟨k, hk⟩ := b.exists_inner hw heven he
  have hinner : inner ch (pos e) = some k := by rw [h.inner_eq, hk]
  have hfresh : e ∉ (ch k).entities := fun hmem => hnew (mem_entities_node.2 ⟨k, hmem⟩)
  obtain ⟨q', hq', hdone⟩ := hins k (ch k) (h.children k) (Square.inBoundary_of_inner hk) hfresh
  refine ⟨Function.update ch k q', by simp only [insertInner, hinner, hq'], ?_, ?_⟩
  · refine h.update hdone.wellFormed fun f hf => ?_
    rcases List.mem_cons.1 (hdone.entities_perm.mem_iff.1 hf) with rfl | hold
    · exact hk
    · exact h.routed k f hold
  · have hupdate := entities_update_perm b ch k q'
    have hchild := hdone.entities_perm.append_right (others ch k)
    exact hupdate.trans (hchild.trans ((entities_node_perm b ch k).symm.cons e))

/-- A full leaf that can be divided is divided, and what it held is handed to the new children. -/
theorem divide_spec {b : Square} {c : QuadEntityContainer T} (exact : c.Exact pos)
    (inside : ∀ e ∈ c.entities, b.InBoundary (pos e)) (hw : 0 ≤ b.width) (heven : Even b.width)
    {e : α} (he : b.InBoundary (pos e)) (hnew : e ∉ c.entities)
    {ins : Quad T → α → Except Fault (Quad T)}
    (hins : ∀ k q e, WellFormed pos maxContainerEntities (b.child k) q →
      (b.child k).InBoundary (pos e) → e ∉ q.entities →
      ∃ q', ins q e = .ok q' ∧ Inserted pos maxContainerEntities (b.child k) q e q') :
    ∃ ch, run (insertInner pos ins) (fun k => Quad.new (b.child k)) (c.entities ++ [e]) = .ok ch ∧
      Routed pos maxContainerEntities b ch ∧ (node b ch).entities.Perm (c.entities ++ [e]) := by
  have hnodup : (c.entities ++ [e]).Nodup := by
    rw [List.nodup_append_comm]
    exact List.nodup_cons.2 ⟨hnew, exact.nodup⟩
  -- invariant of the loop: the new children hold exactly what was handed over so far
  refine run_ok_of_progress
    (fun seen ch => Routed pos maxContainerEntities b ch ∧ (node b ch).entities.Perm seen)
    ⟨⟨fun k => WellFormed.new _, by simp⟩, by simp [entities]⟩ ?_
  rintro seen f rest ch hsplit ⟨hrouted, hperm⟩
  have hmem : f ∈ c.entities ++ [e] := hsplit ▸ by simp
  have hf : b.InBoundary (pos f) := by
    rcases List.mem_append.1 hmem with hf | hf
    · exact inside f hf
    · rwa [List.mem_singleton.1 hf]
  have hfresh : f ∉ (node b ch).entities := by
    rw [hperm.mem_iff]
    rw [← hsplit] at hnodup
    exact fun h => (List.nodup_append.1 hnodup).2.2 f h f (by simp) rfl
  obtain ⟨ch', hch', hrouted', hperm'⟩ :=
    insertInner_spec hrouted hw heven hf hfresh fun k q => hins k q f
  exact ⟨ch', hch', hrouted', hperm'.trans
    ((hperm.cons f).trans (List.perm_append_singleton f seen).symm)⟩

theorem insertWithin_spec (depth : Nat) {b : Square} {q : Quad T} {e : α}
    (hw : HalvesEvenly maxContainerEntities b.width) (hdepth : b.width.toNat < depth)
    (hq : WellFormed pos maxContainerEntities b q) (he : b.InBoundary (pos e))
    (hnew : e ∉ q.entities) :
    ∃ q', insertWithin pos maxContainerEntities depth q e = .ok q' ∧
      Inserted pos maxContainerEntities b q e q' := by
  induction depth generalizing b q e with
  | zero => omega
  | succ depth ih =>
      have hpos := hw.pos
      -- the recursion: a child has half the width, so one unit of depth less is enough
      have hchild : 1 < b.width → Even b.width → ∀ k (q : Quad T) (e : α),
          WellFormed pos maxContainerEntities (b.child k) q → (b.child k).InBoundary (pos e) →
          e ∉ q.entities →
          ∃ q', insertWithin pos maxContainerEntities depth q e = .ok q' ∧
            Inserted pos maxContainerEntities (b.child k) q e q' := by
        intro hwide heven k q e hq he hnew
        have hhalf : (b.child k).width = b.width / 2 := Square.child_width_of_nonneg hpos.le k
        exact ih (by rw [hhalf]; exact hw.half heven) (by rw [hhalf]; omega) hq he hnew
      cases hq with
      | @node b ch wide even children routed full =>
          obtain ⟨ch', hch', hrouted, hperm⟩ := insertInner_spec ⟨children, routed⟩ hpos.le even he
            hnew fun k q => hchild wide even k q e
          refine ⟨node b ch', ?_, ?_, hperm⟩
          · rw [insertWithin_node he, hch']
          · refine .node wide even hrouted.children hrouted.routed ?_
            rw [hrouted.distinctSize_eq]
            rw [Routed.distinctSize_eq ⟨children, routed⟩] at full
            exact full.trans (Finset.card_le_card (positions_mono fun f hf =>
              hperm.mem_iff.2 (List.mem_cons_of_mem e hf)))
      | @leaf b c exact inside =>
          -- both ways a leaf keeps the entity: it has room, or it is too narrow to be divided
          have hstore : Inserted pos maxContainerEntities b (leaf b c) e (leaf b (c._insert pos e)) := by
            have hperm := QuadEntityContainer.entities_insert pos hnew
            refine ⟨.leaf (exact.insert hnew) fun f hf => ?_, hperm⟩
            rcases List.mem_cons.1 (hperm.mem_iff.1 hf) with rfl | hold
            · exact he
            · exact inside f hold
          by_cases hroom : c.distinctSize < maxContainerEntities
          · exact ⟨_, insertWithin_store he (.inl hroom), hstore⟩
          by_cases hsub : b.CanSubdivide
          · -- the leaf holds as many positions as its square allows, so its width is even
            have hwide : 1 < b.width := (b.canSubdivide_iff).1 hsub
            have hfull : (maxContainerEntities : Int) ≤ (b.width + 1) ^ 2 := by
              have hsub : (leaf b c).positions pos ⊆ b.points := by
                intro p hp
                obtain ⟨f, hf, rfl⟩ := mem_positions.1 hp
                exact Square.mem_points.2 (inside f hf)
              have hle := Finset.card_le_card hsub
              have hsize := exact.distinctSize_eq
              simp only [positions, entities_leaf, ← hsize] at hle
              have hcard := Square.card_points hpos.le
              omega
            have heven := hw.even_of_full hwide hfull
            obtain ⟨ch, hch, hrouted, hperm⟩ := divide_spec exact inside hpos.le heven he hnew
              (hchild hwide heven)
            refine ⟨node b ch, ?_, .node hwide heven hrouted.children hrouted.routed ?_,
              hperm.trans (List.perm_append_singleton e c.entities)⟩
            · rw [insertWithin_divide he (Nat.not_lt.1 hroom) hsub, hch]
            · rw [hrouted.distinctSize_eq]
              have hmono : (leaf b c).positions pos ⊆ (node b ch).positions pos :=
                positions_mono fun f hf => hperm.mem_iff.2 (List.mem_append_left [e] hf)
              have hsize := exact.distinctSize_eq
              have hle := Finset.card_le_card hmono
              simp only [positions, entities_leaf, ← hsize] at hle ⊢
              omega
          · exact ⟨_, insertWithin_store he (.inr hsub), hstore⟩

/-- Insertion of a new entity inside the boundary of a well-formed tree. -/
theorem insert_spec {b : Square} {q : Quad T} {e : α} (hw : HalvesEvenly maxContainerEntities b.width)
    (hq : WellFormed pos maxContainerEntities b q) (he : b.InBoundary (pos e))
    (hnew : e ∉ q.entities) :
    ∃ q', insert pos maxContainerEntities q e = .ok q' ∧
      Inserted pos maxContainerEntities b q e q' := by
  refine insertWithin_spec _ hw ?_ hq he hnew
  rw [hq.boundary_eq]
  exact Nat.lt_succ_self _

end Quad

end Bango.Space
