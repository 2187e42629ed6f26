import Bango.World.Around
import Bango.World.Proofs.Registry

set_option autoImplicit false

/-! # Who is found around

The square prunes leaf by leaf: a query visits the leaves that meet it, whatever the arithmetic of
`int` made of it. Each character is stored in one leaf and under its type, so none is found twice, and
what is found is what a visited leaf stores, as far as its type has a branch. -/

namespace Bango.Space

/-! ## The square in the arithmetic of `int` -/

namespace Square

variable {b : Square} {p : IntPoint} {radius : Int32}

/-- The far sides are those of the circle, modulo `2 ^ 32`. -/
theorem meetsAround_iff :
    b.MeetsAround p radius ↔ (p.x - radius).toInt ≤ b.right ∧ (p.x + radius).toInt ≥ b.left ∧
      (p.y + radius).toInt ≥ b.bottom ∧ (p.y - radius).toInt ≤ b.top := by
  have hx : p.x - radius + radius * 2 = p.x + radius := by grind
  have hy : p.y - radius + radius * 2 = p.y + radius := by grind
  simp only [MeetsAround, hx, hy]

theorem MeetsAround.of_child {k : Quadrant} (hb : 0 ≤ b.width)
    (h : (b.child k).MeetsAround p radius) : b.MeetsAround p radius := by
  obtain ⟨hleft, hright, hbottom, htop⟩ := child_sides hb k
  rw [meetsAround_iff] at h ⊢
  omega

/-- Where all four sides are in the range of `int`, the square is the one around the circle. -/
theorem meetsAround_iff_meets
    (hx : -2 ^ 31 ≤ p.x.toInt - radius.toInt ∧ p.x.toInt + radius.toInt < 2 ^ 31)
    (hy : -2 ^ 31 ≤ p.y.toInt - radius.toInt ∧ p.y.toInt + radius.toInt < 2 ^ 31)
    (hradius : 0 ≤ radius.toInt) :
    b.MeetsAround p radius ↔ b.Meets (.around p.toPoint radius.toInt) := by
  have hsub : ∀ z : Int32, -2 ^ 31 ≤ z.toInt - radius.toInt →
      (z - radius).toInt = z.toInt - radius.toInt := by
    intro z hz
    have hlt := z.toInt_lt
    rw [Int32.toInt_sub]
    exact Int.bmod_eq_of_le (by omega) (by omega)
  have hadd : ∀ z : Int32, z.toInt + radius.toInt < 2 ^ 31 →
      (z + radius).toInt = z.toInt + radius.toInt := by
    intro z hz
    have hle := z.le_toInt
    rw [Int32.toInt_add]
    exact Int.bmod_eq_of_le (by omega) (by omega)
  rw [meetsAround_iff, hsub _ hx.1, hadd _ hx.2, hsub _ hy.1, hadd _ hy.2]
  simp only [Meets, around, IntPoint.toPoint, left, right, bottom, top]
  omega

end Square

namespace Quad

variable {T : Type} {b : Square} {q : Quad T}

theorem Shaped.queryInt_eq (h : Shaped b q) (p : IntPoint) (radius : Int32) :
    q.queryInt p radius =
      (q.leafList.filter fun l => l.boundary.MeetsAround p radius).map (·.container) :=
  h.search_eq (fun _ _ => Square.MeetsAround.of_child) (fun q => q.queryInt p radius)
    (fun _ _ => rfl) fun _ _ => rfl

theorem entities_eq_flatMap_leafList {α : Type} [EntityContainer T α] (q : Quad T) :
    q.entities = q.leafList.flatMap fun l => l.container.entities := by
  rw [entities_eq_flatMap_leaves, ← map_container_leafList, List.flatMap_map]

end Quad

end Bango.Space

namespace Bango.World

open Bango.Lib Bango.Space

/-- Where no call is made twice, the calls are to be those of `P`. -/
theorem callsOnce_iff {calls : List Character} (hnodup : calls.Nodup) {P : Character → Prop} :
    CallsOnce calls P ↔ ∀ x, P x ↔ x ∈ calls := by
  refine forall_congr' fun x => ?_
  rw [hnodup.count]
  by_cases hx : x ∈ calls <;> simp [hx]

section

variable {distance : Point → Point → Int} {m : WorldMap Tree} {center : IntPoint} {radius : UInt32}
  {kind : Int64} {x : Character}

/-! ## One container -/

/-- What `ForEachAround` looks for in a container. -/
def Branched (distance : Point → Point → Int) (m : WorldMap Tree) (center : IntPoint)
    (radius : UInt32) (kind : Int64) (x : Character) : Prop :=
  x.kind ≠ .loot ∧ Asked kind x.kind ∧ Near distance (m.position x) center.toPoint radius

instance : DecidablePred (Branched distance m center radius kind) := fun _ =>
  inferInstanceAs (Decidable (_ ∧ _ ∧ _))

/-- The branch of one type. -/
theorem branch_eq {k : Kind} (hk : k ≠ .loot) {characters : List Character}
    (htyped : ∀ x ∈ characters, x.kind = k) :
    (if Asked kind k then m.near distance center radius characters else []) =
      characters.filter fun x => Branched distance m center radius kind x := by
  unfold WorldMap.near Branched
  split_ifs with hasked
  · refine List.filter_congr fun x hx => ?_
    simp [htyped x hx, hk, hasked]
  · rw [eq_comm, List.filter_eq_nil_iff]
    intro x hx
    simp [htyped x hx, hasked]

theorem branches_perm {c : Container} (hc : c.Typed) :
    ((if Asked kind .player then m.near distance center radius c.players else []) ++
      (if Asked kind .monster then m.near distance center radius c.monsters else []) ++
      (if Asked kind .npc then m.near distance center radius c.npcs else [])).Perm
      (c.all.filter fun x => Branched distance m center radius kind x) := by
  have hloots : (c.loots.filter fun x => Branched distance m center radius kind x) = [] := by
    rw [List.filter_eq_nil_iff]
    intro x hx
    simp [Branched, hc.loots x hx]
  rw [branch_eq (by decide) hc.players, branch_eq (by decide) hc.monsters,
    branch_eq (by decide) hc.npcs, Container.all, List.filter_append, List.filter_append,
    List.filter_append, hloots, List.append_nil, List.append_assoc, List.append_assoc]
  exact List.perm_append_comm.append_left _

/-- The players of a container are what `ForEachAround` finds in it for `QK_PLAYER`. -/
theorem forEachPlayerAround_eq :
    m.forEachPlayerAround distance center radius =
      m.forEachAround distance center radius (queryKind .player) := by
  have hplayer : Asked (queryKind .player) .player := by decide
  have hmonster : ¬ Asked (queryKind .player) .monster := by decide
  have hnpc : ¬ Asked (queryKind .player) .npc := by decide
  simp only [WorldMap.forEachPlayerAround, WorldMap.forEachAround, if_pos hplayer,
    if_neg hmonster, if_neg hnpc, List.append_nil]

/-! ## One map -/

theorem WorldMap.Visited.stored (h : m.Visited center radius x) :
    x ∈ m.quad.entities := by
  obtain ⟨l, hl, hx, -⟩ := h
  rw [Quad.entities_eq_flatMap_leafList]
  exact List.mem_flatMap.2 ⟨l, hl, hx⟩

/-- The characters found, up to their order. -/
theorem forEachAround_perm {boundary : Square} (h : Quad.Shaped boundary m.quad) :
    (m.forEachAround distance center radius kind).Perm
      (((m.quad.leafList.filter fun l => l.boundary.MeetsAround center radius.toInt32).flatMap
        fun l => l.container.entities).filter
          fun x => Branched distance m center radius kind x) := by
  rw [WorldMap.forEachAround, h.queryInt_eq, List.flatMap_map, List.filter_flatMap]
  exact List.Perm.flatMap_left _ fun l _ => branches_perm l.container.derived.2.typed

theorem mem_forEachAround {boundary : Square} (h : Quad.Shaped boundary m.quad) :
    x ∈ m.forEachAround distance center radius kind ↔
      m.Visited center radius x ∧ Branched distance m center radius kind x := by
  rw [(forEachAround_perm h).mem_iff, List.mem_filter, decide_eq_true_iff]
  refine and_congr_left fun _ => ?_
  simp only [List.mem_flatMap, List.mem_filter, decide_eq_true_iff, WorldMap.Visited]
  exact exists_congr fun l => by tauto

theorem nodup_forEachAround {boundary : Square} (h : Quad.Placed m.position boundary m.quad) :
    (m.forEachAround distance center radius kind).Nodup := by
  have hnodup := h.nodup
  rw [Quad.entities_eq_flatMap_leafList] at hnodup
  rw [(forEachAround_perm h.shaped).nodup_iff]
  exact ((List.filter_sublist.flatMap _).nodup hnodup).filter _

theorem forEachAround_callsOnce_iff {boundary : Square}
    (hq : Quad.Placed m.position boundary m.quad)
    (hstored : ∀ x, x ∈ m.quad.entities ↔ x ∈ m.entities) :
    CallsOnce (m.forEachAround distance center radius kind)
        (m.Around distance center radius (Asked kind)) ↔
      ∀ x, m.Around distance center radius (Asked kind) x →
        x.kind ≠ .loot ∧ m.Visited center radius x := by
  rw [callsOnce_iff (nodup_forEachAround hq)]
  refine forall_congr' fun x => ?_
  rw [mem_forEachAround hq.shaped]
  constructor
  · intro h haround
    obtain ⟨hvisited, hloot, -⟩ := h.1 haround
    exact ⟨hloot, hvisited⟩
  · intro h
    constructor
    · intro haround
      obtain ⟨hloot, hvisited⟩ := h haround
      exact ⟨hvisited, hloot, haround.2⟩
    · rintro ⟨hvisited, -, hnear⟩
      exact ⟨(hstored x).1 hvisited.stored, hnear⟩

theorem asked_player (k : Kind) : Asked (queryKind .player) k ↔ k = .player := by
  cases k <;> decide

theorem forEachPlayerAround_callsOnce_iff {boundary : Square}
    (hq : Quad.Placed m.position boundary m.quad)
    (hstored : ∀ x, x ∈ m.quad.entities ↔ x ∈ m.entities) :
    CallsOnce (m.forEachPlayerAround distance center radius)
        (m.Around distance center radius (· = .player)) ↔
      ∀ x, m.Around distance center radius (· = .player) x → m.Visited center radius x := by
  have hasked : Asked (queryKind .player) = (· = Kind.player) := by
    funext k
    exact propext (asked_player k)
  rw [forEachPlayerAround_eq, ← hasked, forEachAround_callsOnce_iff hq hstored]
  refine forall₂_congr fun x haround => and_iff_right ?_
  rw [(asked_player x.kind).1 haround.2.1]
  decide

/-- No square that stays in `int` misses what is near. -/
theorem visited_of_fits {boundary : Square} (hq : Quad.Placed m.position boundary m.quad)
    (hx : x ∈ m.quad.entities) (hfits : WorldMap.Fits center radius)
    (hnear : (m.position x).distance center.toPoint ≤ radius.toNat) : m.Visited center radius x := by
  rw [Quad.entities_eq_flatMap_leafList] at hx
  obtain ⟨l, hl, hxl⟩ := List.mem_flatMap.1 hx
  have hinside := hq.located.inside_of_mem hl hxl
  obtain ⟨hleft, hright, hbottom, htop⟩ := hfits
  have hradius : radius.toInt32.toInt = radius.toNat := by
    have hcast : radius.toInt32.toInt = radius.toBitVec.toInt := rfl
    rw [hcast, BitVec.toInt_eq_toNat_bmod]
    exact Int.bmod_eq_of_le (by omega) (by simp only [UInt32.toNat_toBitVec]; omega)
  refine ⟨l, hl, hxl, ?_⟩
  rw [Square.meetsAround_iff_meets (by omega) (by omega) (by omega), hradius]
  exact Square.meets_around hinside (by exact_mod_cast hnear)

end

/-! ## Along every run -/

namespace Registry

variable {maxContainerEntities : Nat} {sight : Int} {boundary : Square} {map : Character → UInt8}
  {position : Character → Point} {ops : List Op}

theorem Tracked.mem_worldMap {w : Registry} (h : w.Tracked boundary) (i : Fin mapCount)
    (x : Character) : x ∈ (w.worldMap i).quad.entities ↔ x ∈ (w.worldMap i).entities :=
  (h.stored i x).trans (h.entities i x).symm

/-- In every world reached with positions inside the maps, `ForEachAround` finds what it is asked for
    just when no loot is among it and the query visits the leaf of each; so does
    `ForEachPlayerAround`, where there is no loot. -/
theorem forEachAround_iff
    (hadm : Admissible (step maxContainerEntities sight) (Guard boundary)
      (new boundary map position) ops) :
    ∀ before after w, ops = before ++ after →
      run (step maxContainerEntities sight) (new boundary map position) before = .ok w →
      ∀ (distance : Point → Point → Int) (i : Fin mapCount) (center : IntPoint) (radius : UInt32),
        (∀ kind, CallsOnce ((w.worldMap i).forEachAround distance center radius kind)
            ((w.worldMap i).Around distance center radius (Asked kind)) ↔
          ∀ x, (w.worldMap i).Around distance center radius (Asked kind) x →
            x.kind ≠ .loot ∧ (w.worldMap i).Visited center radius x) ∧
        (CallsOnce ((w.worldMap i).forEachPlayerAround distance center radius)
            ((w.worldMap i).Around distance center radius (· = .player)) ↔
          ∀ x, (w.worldMap i).Around distance center radius (· = .player) x →
            (w.worldMap i).Visited center radius x) := by
  intro before after w hops hrun distance i center radius
  subst hops
  have hw := tracked_of_run hadm hrun
  exact ⟨fun kind => forEachAround_callsOnce_iff (hw.placed i) (hw.mem_worldMap i),
    forEachPlayerAround_callsOnce_iff (hw.placed i) (hw.mem_worldMap i)⟩

/-- A player and a monster at one place. -/
def meet : List Op := [.add ⟨.player, 1⟩ 0 ⟨600, 600⟩, .add ⟨.monster, 1⟩ 0 ⟨600, 600⟩]

theorem forEachAround_iff_meet :
    ∃ w, run (step 32 920) (new ⟨⟨0, 0⟩, mapWidth⟩ (fun _ => 0) fun _ => ⟨0, 0⟩) meet = .ok w ∧
      CallsOnce ((w.worldMap 0).forEachAround (fun p q => p.distance q) ⟨700, 600⟩ 100 7)
        ((w.worldMap 0).Around (fun p q => p.distance q) ⟨700, 600⟩ 100 (Asked 7)) := by
  have hadm : Admissible (step 32 920) (Guard ⟨⟨0, 0⟩, mapWidth⟩)
      (new ⟨⟨0, 0⟩, mapWidth⟩ (fun _ => 0) fun _ => ⟨0, 0⟩) meet := by decide +kernel
  refine ⟨_, rfl, ?_⟩
  have hiff := forEachAround_iff hadm meet [] _ rfl rfl (fun p q => p.distance q) 0 ⟨700, 600⟩ 100
  refine (hiff.1 7).2 fun x haround => ?_
  obtain ⟨hx, -⟩ := haround
  revert x
  decide +kernel

/-- Loot is not found, and a radius of `2 ^ 31` finds nobody at all: the square is left of the map. -/
theorem not_forEachAround :
    Admissible (step 32 920) (Guard ⟨⟨0, 0⟩, mapWidth⟩)
        (new ⟨⟨0, 0⟩, mapWidth⟩ (fun _ => 0) fun _ => ⟨0, 0⟩)
        [.add ⟨.player, 1⟩ 0 ⟨600, 600⟩, .add ⟨.loot, 1⟩ 0 ⟨600, 600⟩] ∧
      ∃ w, run (step 32 920) (new ⟨⟨0, 0⟩, mapWidth⟩ (fun _ => 0) fun _ => ⟨0, 0⟩)
          [.add ⟨.player, 1⟩ 0 ⟨600, 600⟩, .add ⟨.loot, 1⟩ 0 ⟨600, 600⟩] = .ok w ∧
        ¬ CallsOnce ((w.worldMap 0).forEachAround (fun p q => p.distance q) ⟨600, 600⟩ 0 8)
          ((w.worldMap 0).Around (fun p q => p.distance q) ⟨600, 600⟩ 0 (Asked 8)) ∧
        ¬ CallsOnce
          ((w.worldMap 0).forEachPlayerAround (fun p q => p.distance q) ⟨600, 600⟩ 2147483648)
          ((w.worldMap 0).Around (fun p q => p.distance q) ⟨600, 600⟩ 2147483648 (· = .player)) := by
  refine ⟨by decide +kernel, _, rfl, fun h => ?_, fun h => ?_⟩
  · have hloot := (h ⟨.loot, 1⟩).1 ⟨by decide, by decide, by decide +kernel⟩
    exact absurd hloot (by decide +kernel)
  · have hplayer := (h ⟨.player, 1⟩).1 ⟨by decide, by decide, by decide +kernel⟩
    exact absurd hplayer (by decide +kernel)

end Registry

end Bango.World
