import Bango.Space.Proofs.Visits
import Bango.World.Registry

set_option autoImplicit false

/-! # Who is around

`WorldMap::ForEachAround` and `ForEachPlayerAround`. The radius comes in as `unsigned int`, goes to
`quad::query` as `int`, becomes a square in the arithmetic of `int`, and is compared as `unsigned int`
again with each distance. -/

namespace Bango.Space

/-- A `point`, with the machine's `int`s. -/
structure IntPoint where
  x : Int32
  y : Int32
deriving DecidableEq, Repr

def IntPoint.toPoint (p : IntPoint) : Point := ⟨p.x.toInt, p.y.toInt⟩

/-- `quad::in_boundary(point, int)`: the square around the point wraps around where it leaves `int`. -/
def Square.MeetsAround (b : Square) (p : IntPoint) (radius : Int32) : Prop :=
  let left := p.x - radius
  let bottom := p.y - radius
  let width := radius * 2
  left.toInt ≤ b.right ∧ (left + width).toInt ≥ b.left ∧ (bottom + width).toInt ≥ b.bottom ∧
    bottom.toInt ≤ b.top

instance (b : Square) (p : IntPoint) (radius : Int32) : Decidable (b.MeetsAround p radius) :=
  inferInstanceAs (Decidable (_ ∧ _ ∧ _ ∧ _))

/-- `query`, with the radius as it is passed. -/
def Quad.queryInt {T : Type} : Quad T → IntPoint → Int32 → List (QuadEntityContainer T)
  | leaf b c, p, radius => if b.MeetsAround p radius then [c] else []
  | node b ch, p, radius =>
    if b.MeetsAround p radius then Quadrant.all.flatMap fun k => (ch k).queryInt p radius else []

end Bango.Space

namespace Bango.World

open Bango.Lib Bango.Space

/-- `GetType`. -/
def Kind.type : Kind → Int64
  | .player => 0
  | .monster => 1
  | .npc => 2
  | .loot => 3

/-- `QUERY_KIND`: the bit of each type. -/
def queryKind (k : Kind) : Int64 := 1 <<< k.type

/-- `kind & QK_…` -/
def Asked (kind : Int64) (k : Kind) : Prop := kind &&& queryKind k ≠ 0

instance (kind : Int64) (k : Kind) : Decidable (Asked kind k) := inferInstanceAs (Decidable (_ ≠ _))

section

-- `quad_entity::distance` is computed in `double` and cast to `int`, and for a centre far off the map
-- the difference of the coordinates overflows. Where neither shows, it is `Point.distance`.
variable (distance : Point → Point → Int)

/-- `std::cmp_less_equal(….distance(center), radius)`. -/
def Near (p center : Point) (radius : UInt32) : Prop := distance p center ≤ radius.toNat

instance (p center : Point) (radius : UInt32) : Decidable (Near distance p center radius) :=
  inferInstanceAs (Decidable (_ ≤ _))

namespace WorldMap

variable (m : WorldMap Tree) (center : IntPoint) (radius : UInt32) (kind : Int64)

/-- `characters` of a container that are near enough, in the order of iteration. -/
def near (characters : List Character) : List Character :=
  characters.filter fun x => Near distance (m.position x) center.toPoint radius

/-- `WorldMap::ForEachPlayerAround`: the players the callback is called on, in this order. -/
def forEachPlayerAround : List Character :=
  (m.quad.queryInt center radius.toInt32).flatMap fun container =>
    m.near distance center radius container.derived.1.players

/-- `WorldMap::ForEachAround`: the characters the callback is called on, in this order. There is no
    branch for `QK_LOOT`. -/
def forEachAround : List Character :=
  (m.quad.queryInt center radius.toInt32).flatMap fun container =>
    (if Asked kind .player then m.near distance center radius container.derived.1.players else []) ++
    (if Asked kind .monster then m.near distance center radius container.derived.1.monsters else []) ++
    (if Asked kind .npc then m.near distance center radius container.derived.1.npcs else [])

/-- Which characters of the map a call is to find, when it asks for some types. -/
def Around (asked : Kind → Prop) (x : Character) : Prop :=
  x ∈ m.entities ∧ asked x.kind ∧ Near distance (m.position x) center.toPoint radius

/-- The leaf that stores the character is one that the query visits. -/
def Visited (x : Character) : Prop :=
  ∃ l ∈ m.quad.leafList, x ∈ l.container.entities ∧ l.boundary.MeetsAround center radius.toInt32

instance (x : Character) : Decidable (m.Visited center radius x) :=
  inferInstanceAs (Decidable (∃ l ∈ _, _))

/-- The square of the call does not leave `int`. -/
def Fits (center : IntPoint) (radius : UInt32) : Prop :=
  -2 ^ 31 ≤ center.x.toInt - radius.toNat ∧ center.x.toInt + radius.toNat < 2 ^ 31 ∧
    -2 ^ 31 ≤ center.y.toInt - radius.toNat ∧ center.y.toInt + radius.toNat < 2 ^ 31

end WorldMap

end

/-- The callback is called once on each character with `P` and on no other. -/
def CallsOnce (calls : List Character) (P : Character → Prop) : Prop :=
  ∀ x, (P x → calls.count x = 1) ∧ (¬ P x → calls.count x = 0)

/-- A map of the world. -/
def Registry.worldMap (w : Registry) (i : Fin mapCount) : WorldMap Tree where
  quad := w.quad i
  entities := w.entities i
  position := w.position

end Bango.World
