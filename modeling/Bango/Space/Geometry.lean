import Mathlib.Algebra.Group.Int.Even
import Mathlib.Data.Nat.Sqrt
import Mathlib.Data.Fintype.Defs
import Mathlib.Tactic.Ring

set_option autoImplicit false

/-! # Points and squares

`point` and `square` of `core/space/include/bango/space/quadtree.h`, with the four sub-squares a
quad is divided into. Coordinates are `Int`: the squares of a tree never leave the root's square, so
no C++ `int` expression on them leaves the `int` range when the root's corners are in it. -/

namespace Bango.Space

/-- `struct point`. -/
structure Point where
  x : Int
  y : Int
deriving DecidableEq, Repr

/-- `quad_entity::distance`: the Euclidean distance cast to `int`, hence rounded down. -/
def Point.distance (p q : Point) : Nat :=
  Nat.sqrt ((p.x - q.x) ^ 2 + (p.y - q.y) ^ 2).toNat

theorem Point.distance_comm (p q : Point) : p.distance q = q.distance p := by
  have hx : (p.x - q.x) ^ 2 = (q.x - p.x) ^ 2 := by ring
  have hy : (p.y - q.y) ^ 2 = (q.y - p.y) ^ 2 := by ring
  simp only [distance, hx, hy]

/-- `struct square`. -/
structure Square where
  bottomLeft : Point
  width : Int
deriving DecidableEq, Repr

namespace Square

def left (b : Square) : Int := b.bottomLeft.x
def right (b : Square) : Int := b.bottomLeft.x + b.width
def bottom (b : Square) : Int := b.bottomLeft.y
def top (b : Square) : Int := b.bottomLeft.y + b.width

/-- The test of `quad::in_boundary(point)`: closed on all four sides. -/
def InBoundary (b : Square) (p : Point) : Prop :=
  p.x ≥ b.left ∧ p.x ≤ b.right ∧ p.y ≥ b.bottom ∧ p.y ≤ b.top

instance (b : Square) (p : Point) : Decidable (b.InBoundary p) :=
  inferInstanceAs (Decidable (_ ∧ _ ∧ _ ∧ _))

/-- The test of `quad::in_boundary(square)`. -/
def Meets (b c : Square) : Prop :=
  c.left ≤ b.right ∧ c.right ≥ b.left ∧ c.top ≥ b.bottom ∧ c.bottom ≤ b.top

instance (b c : Square) : Decidable (b.Meets c) := inferInstanceAs (Decidable (_ ∧ _ ∧ _ ∧ _))

/-- The square that `quad::in_boundary(point, int)` takes for the circle around a point. -/
def around (p : Point) (radius : Int) : Square := ⟨⟨p.x - radius, p.y - radius⟩, radius * 2⟩

end Square

/-- `MAP_WIDTH` of the game's maps. -/
def mapWidth : Int := 50 * 8192

/-- The four children of a quad, `m_top_left` to `m_bottom_right`. -/
inductive Quadrant where
  | topLeft | topRight | bottomLeft | bottomRight
deriving DecidableEq, Repr

/-- The order in which `quad` visits its children. -/
def Quadrant.all : List Quadrant := [.topLeft, .topRight, .bottomLeft, .bottomRight]

@[simp]
theorem Quadrant.mem_all (k : Quadrant) : k ∈ Quadrant.all := by
  cases k <;> simp [all]

instance : Fintype Quadrant where
  elems := ⟨Quadrant.all, by decide⟩
  complete := Quadrant.mem_all

namespace Square

/-- The boundary `quad::insert` gives to each new child. -/
def child (b : Square) : Quadrant → Square
  | .topLeft => ⟨⟨b.left, (b.top - b.bottom).tdiv 2 + b.bottom⟩, b.width.tdiv 2⟩
  | .topRight =>
      ⟨⟨(b.right - b.left).tdiv 2 + b.left, (b.top - b.bottom).tdiv 2 + b.bottom⟩, b.width.tdiv 2⟩
  | .bottomLeft => ⟨b.bottomLeft, b.width.tdiv 2⟩
  | .bottomRight => ⟨⟨(b.right - b.left).tdiv 2 + b.left, b.bottom⟩, b.width.tdiv 2⟩

/-- `quad::can_subdivide`. -/
def CanSubdivide (b : Square) : Prop := b.right - b.left > 1

instance (b : Square) : Decidable b.CanSubdivide := inferInstanceAs (Decidable (_ > _))

/-- Which child of a freshly divided quad a point is sent to: the first, in the order of
    `quad::inner`, whose closed boundary holds it. -/
def inner (b : Square) (p : Point) : Option Quadrant :=
  Quadrant.all.find? fun k => decide ((b.child k).InBoundary p)

theorem canSubdivide_iff (b : Square) : b.CanSubdivide ↔ 1 < b.width := by
  simp only [CanSubdivide, right, left]
  omega

@[simp]
theorem child_width (b : Square) (k : Quadrant) : (b.child k).width = b.width.tdiv 2 := by
  cases k <;> rfl

theorem child_width_of_nonneg {b : Square} (hw : 0 ≤ b.width) (k : Quadrant) :
    (b.child k).width = b.width / 2 := by
  rw [child_width, Int.tdiv_eq_ediv_of_nonneg hw]

theorem child_width_nonneg {b : Square} (hw : 0 ≤ b.width) (k : Quadrant) :
    0 ≤ (b.child k).width := by
  rw [child_width_of_nonneg hw]
  omega

theorem around_width_nonneg {p : Point} {radius : Int} (h : 0 ≤ radius) :
    0 ≤ (around p radius).width := by
  simp only [around]
  omega

theorem inBoundary_of_inner {b : Square} {p : Point} {k : Quadrant} (h : b.inner p = some k) :
    (b.child k).InBoundary p := by
  have := List.find?_some h
  exact of_decide_eq_true this

theorem inner_eq_none_iff {b : Square} {p : Point} :
    b.inner p = none ↔ ∀ k, ¬ (b.child k).InBoundary p := by
  simp [inner, List.find?_eq_none]

/-- Both coordinates of a child's corner are the parent's, moved by half the width or not at all. -/
theorem inBoundary_child_iff {b : Square} (hw : 0 ≤ b.width) (k : Quadrant) (p : Point) :
    (b.child k).InBoundary p ↔
      (match k with
        | .topLeft | .bottomLeft => b.left ≤ p.x ∧ p.x ≤ b.left + b.width / 2
        | .topRight | .bottomRight =>
            b.left + b.width / 2 ≤ p.x ∧ p.x ≤ b.left + b.width / 2 + b.width / 2) ∧
      (match k with
        | .bottomLeft | .bottomRight => b.bottom ≤ p.y ∧ p.y ≤ b.bottom + b.width / 2
        | .topLeft | .topRight =>
            b.bottom + b.width / 2 ≤ p.y ∧ p.y ≤ b.bottom + b.width / 2 + b.width / 2) := by
  have hhalf : b.width.tdiv 2 = b.width / 2 := Int.tdiv_eq_ediv_of_nonneg hw
  have hx : b.right - b.left = b.width := by simp only [right, left]; omega
  have hy : b.top - b.bottom = b.width := by simp only [top, bottom]; omega
  cases k <;> simp only [child, hx, hy, hhalf] <;>
    simp only [InBoundary, left, right, bottom, top] <;> omega

/-- A child's sides lie between its parent's. -/
theorem child_sides {b : Square} (hw : 0 ≤ b.width) (k : Quadrant) :
    b.left ≤ (b.child k).left ∧ (b.child k).right ≤ b.right ∧ b.bottom ≤ (b.child k).bottom ∧
      (b.child k).top ≤ b.top := by
  have hhalf : b.width.tdiv 2 = b.width / 2 := Int.tdiv_eq_ediv_of_nonneg hw
  have hx : b.right - b.left = b.width := by simp only [right, left]; omega
  have hy : b.top - b.bottom = b.width := by simp only [top, bottom]; omega
  cases k <;> simp only [child, hx, hy, hhalf] <;> simp only [left, right, bottom, top] <;> omega

theorem InBoundary.of_child {b : Square} {p : Point} {k : Quadrant} (hw : 0 ≤ b.width)
    (h : (b.child k).InBoundary p) : b.InBoundary p := by
  obtain ⟨hleft, hright, hbottom, htop⟩ := child_sides hw k
  unfold InBoundary at h ⊢
  omega

theorem Meets.of_child {b c : Square} {k : Quadrant} (hw : 0 ≤ b.width)
    (h : (b.child k).Meets c) : b.Meets c := by
  obtain ⟨hleft, hright, hbottom, htop⟩ := child_sides hw k
  unfold Meets at h ⊢
  omega

/-- A square of even width is covered by its four children. -/
theorem exists_inner {b : Square} {p : Point} (hw : 0 ≤ b.width) (heven : Even b.width)
    (hp : b.InBoundary p) : ∃ k, b.inner p = some k := by
  have hcover : ∃ k, (b.child k).InBoundary p := by
    obtain ⟨h, hh⟩ := heven
    simp only [InBoundary, left, right, bottom, top] at hp
    by_cases hx : p.x ≤ b.left + b.width / 2 <;> by_cases hy : p.y ≤ b.bottom + b.width / 2
    · refine ⟨.bottomLeft, (inBoundary_child_iff hw _ _).2 ⟨?_, ?_⟩⟩ <;>
        simp only [left, bottom] at hx hy ⊢ <;> omega
    · refine ⟨.topLeft, (inBoundary_child_iff hw _ _).2 ⟨?_, ?_⟩⟩ <;>
        simp only [left, bottom] at hx hy ⊢ <;> omega
    · refine ⟨.bottomRight, (inBoundary_child_iff hw _ _).2 ⟨?_, ?_⟩⟩ <;>
        simp only [left, bottom] at hx hy ⊢ <;> omega
    · refine ⟨.topRight, (inBoundary_child_iff hw _ _).2 ⟨?_, ?_⟩⟩ <;>
        simp only [left, bottom] at hx hy ⊢ <;> omega
  cases hin : b.inner p with
  | some k => exact ⟨k, rfl⟩
  | none =>
      obtain ⟨k, hk⟩ := hcover
      exact absurd hk (inner_eq_none_iff.1 hin k)

/-- The top left corner of a square of odd width lies in none of its children. -/
theorem inner_topLeft_of_odd {b : Square} (hw : 0 ≤ b.width) (hodd : Odd b.width) :
    b.inner ⟨b.left, b.top⟩ = none := by
  rw [inner_eq_none_iff]
  obtain ⟨h, hh⟩ := hodd
  intro k hk
  rw [inBoundary_child_iff hw] at hk
  have htop : b.top = b.bottom + b.width := rfl
  cases k <;> simp only at hk <;> omega

end Square

end Bango.Space
