import Mathlib.Data.Int.ModEq

set_option autoImplicit false

/-! # Directions

The direction a character looks in is a vector of two signed bytes, packed into `m_dir`. Differences of
positions are narrowed to bytes before `SetDirection` scales them. -/

namespace Bango.Characters

/-- `SetDirection`, with the old and the new `m_dir`. A quotient by `float` is one by 128, which is
    exact. -/
def setDirection (dir : UInt16) (deltaX deltaY : Int8) : UInt16 :=
  if deltaX = 0 ∧ deltaY = 0 then dir
  else
    let absoluteX : Int := deltaX.toInt.natAbs
    let absoluteY : Int := deltaY.toInt.natAbs
    let farthest (delta : Int8) : Int8 :=
      ((((if delta ≤ 0 then 1 else 0) - 1) &&& 0xFE) - 127 : Int32).toInt8
    let (deltaX, deltaY) :=
      if absoluteX ≥ absoluteY ∧ absoluteX > 127 then
        (farthest deltaX, .ofInt ((127 * deltaY.toInt).tdiv absoluteX))
      else if absoluteX < absoluteY ∧ absoluteY > 127 then
        (.ofInt ((127 * deltaX.toInt).tdiv absoluteY), farthest deltaY)
      else (deltaX, deltaY)
    (deltaY.toInt32 + ((deltaX.toInt32 <<< 8) &&& 0xFF00)).toUInt32.toUInt16

/-- `LookAt` of a character at one place to another. -/
def lookAt (dir : UInt16) (mx my x y : Int32) : UInt16 :=
  setDirection dir (x - mx).toInt8 (y - my).toInt8

/-! ## What a direction says -/

/-- The low byte, as a signed one. -/
def directionY (dir : UInt16) : Int8 := dir.toUInt8.toInt8

/-- The rest, as a signed byte. -/
def directionX (dir : UInt16) : Int8 :=
  ((dir - (directionY dir).toInt16.toUInt16) / 256).toUInt8.toInt8

/-- The vector that is packed into a direction. -/
def decode (dir : UInt16) : Int × Int := ((directionX dir).toInt, (directionY dir).toInt)

/-- A vector of the same direction whose larger coordinate is 127 or -127. -/
def scaled (dx dy : Int) : Int × Int :=
  if dy.natAbs ≤ dx.natAbs then (127 * dx.sign, (127 * dy).tdiv dx.natAbs)
  else ((127 * dx).tdiv dy.natAbs, 127 * dy.sign)

/-- Bytes that are not -128. -/
def IsSmall (dx dy : Int) : Prop := dx.natAbs ≤ 127 ∧ dy.natAbs ≤ 127

/-- The vector shows where the differences point to: no coordinate has the opposite sign, small
    differences are the vector, and larger ones are scaled. -/
structure Shows (dx dy : Int) (v : Int × Int) : Prop where
  signX : 0 ≤ v.1 * dx
  signY : 0 ≤ v.2 * dy
  small : IsSmall dx dy → v = (dx, dy)
  large : ¬ IsSmall dx dy → v = scaled dx dy

/-! ## When it does -/

/-- Bytes. -/
def InByte (d : Int) : Prop := -128 ≤ d ∧ d ≤ 127

/-- What narrowing drops from the larger and the other difference happens to be what scaling drops. -/
def Coincides (larger other : Int) : Prop :=
  larger ≡ 127 * larger.sign [ZMOD 256] ∧
      other ≡ (127 * other).tdiv larger.natAbs [ZMOD 256] ∨
    larger < 0 ∧ larger ≡ -128 [ZMOD 256] ∧
      (127 * other.bmod 256).tdiv 128 = (127 * other).tdiv larger.natAbs

/-- The differences are bytes, or lose nothing by being narrowed, or are narrowed to nothing and the
    direction was theirs before. -/
def Narrows (dir : UInt16) (dx dy : Int) : Prop :=
  InByte dx ∧ InByte dy ∨
    (256 ∣ dx ∧ 256 ∣ dy) ∧ decode dir = scaled dx dy ∨
    ¬ (256 ∣ dx ∧ 256 ∣ dy) ∧
      if dy.natAbs ≤ dx.natAbs then Coincides dx dy else Coincides dy dx

end Bango.Characters
