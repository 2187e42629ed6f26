import Mathlib.Tactic.SplitIfs
import Mathlib.Data.UInt
import Bango.Characters.Direction

set_option autoImplicit false

/-! # Narrowed before scaled

The packing loses nothing: what is decoded is what `SetDirection` makes of two bytes. These are the
differences only as far as narrowing left them alone. -/

namespace Bango.Characters

/-! ## Packing -/

/-- The bytes that `SetDirection` packs. -/
def pack (deltaX deltaY : Int8) : UInt16 :=
  (deltaY.toInt32 + ((deltaX.toInt32 <<< 8) &&& 0xFF00)).toUInt32.toUInt16

theorem high_eq (deltaX : Int8) :
    ((deltaX.toInt32 <<< 8) &&& 0xFF00).toUInt32.toUInt16 = deltaX.toUInt8.toUInt16 * 256 := by
  have h : ∀ b : BitVec 8, (((Int8.ofBitVec b).toInt32 <<< 8) &&& 0xFF00).toUInt32.toUInt16 =
      (Int8.ofBitVec b).toUInt8.toUInt16 * 256 := by
    decide
  exact h deltaX.toBitVec

theorem low_eq (deltaY : Int8) : deltaY.toInt32.toUInt32.toUInt16 = deltaY.toInt16.toUInt16 := by
  have h : ∀ b : BitVec 8, (Int8.ofBitVec b).toInt32.toUInt32.toUInt16 =
      (Int8.ofBitVec b).toInt16.toUInt16 := by
    decide
  exact h deltaY.toBitVec

theorem pack_eq (deltaX deltaY : Int8) :
    pack deltaX deltaY = deltaY.toInt16.toUInt16 + deltaX.toUInt8.toUInt16 * 256 := by
  rw [pack, Int32.toUInt32_add, UInt32.toUInt16_add, high_eq, low_eq]

theorem directionY_pack (deltaX deltaY : Int8) : directionY (pack deltaX deltaY) = deltaY := by
  rw [directionY, pack_eq, UInt16.toUInt8_add, UInt16.toUInt8_mul]
  have hlow : deltaY.toInt16.toUInt16.toUInt8 = deltaY.toUInt8 := by
    have h : ∀ b : BitVec 8, (Int8.ofBitVec b).toInt16.toUInt16.toUInt8 = (Int8.ofBitVec b).toUInt8 := by
      decide
    exact h deltaY.toBitVec
  have hzero : (256 : UInt16).toUInt8 = 0 := rfl
  rw [hlow, hzero, UInt8.mul_zero, UInt8.add_zero]
  rfl

theorem directionX_pack (deltaX deltaY : Int8) : directionX (pack deltaX deltaY) = deltaX := by
  have hrest : pack deltaX deltaY - deltaY.toInt16.toUInt16 = deltaX.toUInt8.toUInt16 * 256 := by
    rw [pack_eq, UInt16.add_comm, UInt16.add_sub_cancel]
  have hbyte : (deltaX.toUInt8.toUInt16 * 256 / 256).toUInt8 = deltaX.toUInt8 := by
    have hlt := deltaX.toUInt8.toNat_lt
    apply UInt8.toNat_inj.1
    rw [UInt16.toNat_toUInt8, UInt16.toNat_div, UInt16.toNat_mul, UInt8.toNat_toUInt16]
    have h256 : (256 : UInt16).toNat = 256 := rfl
    rw [h256]
    omega
  rw [directionX, directionY_pack, hrest, hbyte]
  rfl

theorem decode_pack (deltaX deltaY : Int8) :
    decode (pack deltaX deltaY) = (deltaX.toInt, deltaY.toInt) := by
  rw [decode, directionX_pack, directionY_pack]

/-! ## Scaling -/

/-- What `SetDirection` is to make of two differences. -/
def fit (dx dy : Int) : Int × Int :=
  if dx.natAbs ≤ 127 ∧ dy.natAbs ≤ 127 then (dx, dy) else scaled dx dy

theorem fit_of_isSmall {dx dy : Int} (h : IsSmall dx dy) : fit dx dy = (dx, dy) := if_pos h

theorem fit_of_not_isSmall {dx dy : Int} (h : ¬ IsSmall dx dy) : fit dx dy = scaled dx dy := if_neg h

theorem natAbs_tdiv_le {larger other : Int} (h : other.natAbs ≤ larger.natAbs) :
    ((127 * other).tdiv larger.natAbs).natAbs ≤ 127 := by
  rw [Int.natAbs_tdiv, Int.natAbs_mul, Int.natAbs_natCast]
  have h127 : Int.natAbs 127 = 127 := rfl
  rw [h127]
  exact Nat.div_le_of_le_mul (by omega)

theorem tdiv_mul_nonneg (d : Int) (n : ℕ) : 0 ≤ (127 * d).tdiv n * d := by
  obtain hd | hd := Int.le_total 0 d
  · have hq : 0 ≤ (127 * d).tdiv n := Int.tdiv_nonneg (by omega) (Int.natCast_nonneg n)
    exact Int.mul_nonneg hq hd
  · have hq : (127 * d).tdiv n ≤ 0 := by
      have hneg := Int.tdiv_nonneg (a := 127 * -d) (b := n) (by omega) (Int.natCast_nonneg n)
      rw [Int.mul_neg, Int.neg_tdiv] at hneg
      omega
    exact Int.mul_nonneg_of_nonpos_of_nonpos hq hd

theorem self_mul_nonneg (d : Int) : 0 ≤ d * d := by
  rw [← Int.natAbs_mul_self]
  exact Int.natCast_nonneg _

theorem sign_mul_nonneg (d : Int) : 0 ≤ 127 * d.sign * d := by
  rw [Int.mul_assoc, Int.sign_mul_self]
  omega

/-- Turned by a right angle, the vector is the one of the turned differences. -/
theorem scaled_swap (dx dy : Int) : scaled dy dx = (scaled dx dy).swap := by
  have htie : ∀ d e : Int, d.natAbs = e.natAbs → (127 * d).tdiv e.natAbs = 127 * d.sign := by
    intro d e heq
    rw [← heq]
    obtain rfl | hne := eq_or_ne d 0
    · rfl
    · have hself : 127 * d = 127 * d.sign * d.natAbs := by
        rw [Int.mul_assoc, Int.sign_mul_natAbs]
      rw [hself, Int.mul_tdiv_cancel _ (by omega)]
  obtain hlt | heq | hgt := Nat.lt_trichotomy dx.natAbs dy.natAbs
  · rw [scaled, if_pos hlt.le, scaled, if_neg (Nat.not_le.2 hlt), Prod.swap_prod_mk]
  · rw [scaled, if_pos heq.le, scaled, if_pos heq.ge, Prod.swap_prod_mk, htie dx dy heq,
      htie dy dx heq.symm]
  · rw [scaled, if_neg (Nat.not_le.2 hgt), scaled, if_pos hgt.le, Prod.swap_prod_mk]

theorem fit_swap (dx dy : Int) : fit dy dx = (fit dx dy).swap := by
  by_cases h : IsSmall dx dy
  · rw [fit_of_isSmall h, fit_of_isSmall ⟨h.2, h.1⟩, Prod.swap_prod_mk]
  · rw [fit_of_not_isSmall h, fit_of_not_isSmall fun h' => h ⟨h'.2, h'.1⟩, scaled_swap]

/-- The sign tricks of the scaling. -/
def farthest (delta : Int8) : Int8 :=
  ((((if delta ≤ 0 then 1 else 0) - 1) &&& 0xFE) - 127 : Int32).toInt8

theorem toInt_farthest {delta : Int8} (h : 127 < delta.toInt.natAbs) :
    (farthest delta).toInt = 127 * delta.toInt.sign := by
  have hle := delta.toInt_lt
  have hneg : delta.toInt.sign = -1 := Int.sign_eq_neg_one_of_neg (by omega)
  have hsign : delta ≤ 0 := by
    rw [Int8.le_iff_toInt_le, Int8.toInt_zero]
    omega
  rw [farthest, if_pos hsign, hneg]
  rfl

theorem toInt_ofInt_tdiv {larger other : Int} (h : other.natAbs ≤ larger.natAbs) :
    (Int8.ofInt ((127 * other).tdiv larger.natAbs)).toInt = (127 * other).tdiv larger.natAbs := by
  have hle := natAbs_tdiv_le h
  exact Int8.toInt_ofInt_of_le (by omega) (by omega)

/-- The branches of `SetDirection`. -/
theorem setDirection_eq (dir : UInt16) {deltaX deltaY : Int8} (h : ¬ (deltaX = 0 ∧ deltaY = 0)) :
    setDirection dir deltaX deltaY =
      if deltaY.toInt.natAbs ≤ deltaX.toInt.natAbs ∧ 127 < deltaX.toInt.natAbs then
        pack (farthest deltaX) (.ofInt ((127 * deltaY.toInt).tdiv deltaX.toInt.natAbs))
      else if deltaX.toInt.natAbs < deltaY.toInt.natAbs ∧ 127 < deltaY.toInt.natAbs then
        pack (.ofInt ((127 * deltaX.toInt).tdiv deltaY.toInt.natAbs)) (farthest deltaY)
      else pack deltaX deltaY := by
  have hle : ∀ a b : Nat, (a : Int) ≥ b ↔ b ≤ a := fun a b => Int.ofNat_le
  have hlt : ∀ a b : Nat, (a : Int) < b ↔ a < b := fun a b => Int.ofNat_lt
  have hgt : ∀ a : Nat, (a : Int) > 127 ↔ 127 < a := fun a => Int.ofNat_lt
  have hfar : ∀ delta : Int8,
      ((((if delta ≤ 0 then 1 else 0) - 1) &&& 0xFE) - 127 : Int32).toInt8 = farthest delta :=
    fun _ => rfl
  rw [setDirection, if_neg h]
  simp only [hle, hlt, hgt, hfar]
  split_ifs <;> rfl

/-- Of two bytes, the code makes what it is to make. -/
theorem decode_setDirection (dir : UInt16) {deltaX deltaY : Int8} (h : ¬ (deltaX = 0 ∧ deltaY = 0)) :
    decode (setDirection dir deltaX deltaY) = fit deltaX.toInt deltaY.toInt := by
  rw [setDirection_eq dir h]
  split_ifs with hx hy
  · rw [decode_pack, toInt_farthest hx.2, toInt_ofInt_tdiv hx.1,
      fit_of_not_isSmall fun hsmall => absurd hsmall.1 (by omega), scaled, if_pos hx.1]
  · rw [decode_pack, toInt_farthest hy.2, toInt_ofInt_tdiv hy.1.le,
      fit_of_not_isSmall fun hsmall => absurd hsmall.2 (by omega), scaled,
      if_neg (Nat.not_le.2 hy.1)]
  · rw [decode_pack, fit_of_isSmall ⟨by omega, by omega⟩]

/-- What is shown is exactly the fitted vector. -/
theorem shows_iff {dx dy : Int} {v : Int × Int} : Shows dx dy v ↔ v = fit dx dy := by
  constructor
  · intro h
    by_cases hsmall : IsSmall dx dy
    · rw [h.small hsmall, fit_of_isSmall hsmall]
    · rw [h.large hsmall, fit_of_not_isSmall hsmall]
  · rintro rfl
    refine ⟨?_, ?_, fit_of_isSmall, fit_of_not_isSmall⟩
    all_goals
      unfold fit scaled
      split_ifs
    · exact self_mul_nonneg dx
    · exact sign_mul_nonneg dx
    · exact tdiv_mul_nonneg dx _
    · exact self_mul_nonneg dy
    · exact tdiv_mul_nonneg dy _
    · exact sign_mul_nonneg dy

/-! ## Narrowing -/

/-- A residue is a byte if and only if the difference is congruent to the byte. -/
theorem bmod_eq_iff {d c : Int} (h : InByte c) : d.bmod 256 = c ↔ d ≡ c [ZMOD 256] := by
  obtain ⟨hle, hle'⟩ := h
  rw [Int.ModEq, Int.bmod_def]
  split_ifs <;> omega

theorem bmod_eq_self {d : Int} (h : InByte d) : d.bmod 256 = d := (bmod_eq_iff h).2 rfl

theorem inByte_bmod (d : Int) : InByte (d.bmod 256) :=
  ⟨Int.le_bmod (by omega), Int.le_of_lt_add_one (Int.bmod_lt (by omega))⟩

theorem fit_bmod_iff_of_le {dx dy : Int} (hle : dy.natAbs ≤ dx.natAbs)
    (hbyte : ¬ (InByte dx ∧ InByte dy)) :
    fit (dx.bmod 256) (dy.bmod 256) = scaled dx dy ↔ Coincides dx dy := by
  have hq := natAbs_tdiv_le hle
  have hx := inByte_bmod dx
  have hy := inByte_bmod dy
  have hsign : dx.sign = 1 ∧ 0 < dx ∨ dx.sign = -1 ∧ dx < 0 := by
    obtain hneg | rfl | hpos := Int.lt_trichotomy dx 0
    · exact .inr ⟨Int.sign_eq_neg_one_of_neg hneg, hneg⟩
    · exact absurd ⟨⟨by omega, by omega⟩, by omega, by omega⟩ hbyte
    · exact .inl ⟨Int.sign_eq_one_of_pos hpos, hpos⟩
  have hfit : InByte (127 * dx.sign) := by
    obtain ⟨h, -⟩ | ⟨h, -⟩ := hsign <;> rw [h] <;> exact ⟨by omega, by omega⟩
  rw [scaled, if_pos hle, Coincides]
  generalize (127 * dy).tdiv dx.natAbs = q at hq ⊢
  have hqbyte : InByte q := ⟨by omega, by omega⟩
  have hmin : InByte (-128) := ⟨by omega, by omega⟩
  rw [← bmod_eq_iff hfit, ← bmod_eq_iff hqbyte, ← bmod_eq_iff hmin]
  generalize dx.bmod 256 = a at hx ⊢
  generalize dy.bmod 256 = b at hy ⊢
  obtain ⟨hx, hx'⟩ := hx
  obtain ⟨hy, hy'⟩ := hy
  by_cases ha : a = -128
  · -- the larger one is scaled as -128, whatever it was
    have hscaled : fit a b = (-127, (127 * b).tdiv 128) := by
      rw [ha, fit_of_not_isSmall fun h => absurd h.1 (by omega), scaled, if_pos (by omega)]
      rfl
    rw [hscaled, Prod.mk.injEq]
    omega
  · by_cases hb : b = -128
    · -- the other one is scaled as -128, and takes the place of the larger one
      have hless : ((127 * a).tdiv 128).natAbs < 127 := by
        have h127 : Int.natAbs 127 = 127 := rfl
        rw [Int.natAbs_tdiv, Int.natAbs_mul, h127]
        exact Nat.div_lt_of_lt_mul (by omega)
      have hscaled : fit a b = ((127 * a).tdiv 128, -127) := by
        rw [hb, fit_of_not_isSmall fun h => absurd h.2 (by omega), scaled, if_neg (by omega)]
        rfl
      rw [hscaled, Prod.mk.injEq]
      omega
    · rw [fit_of_isSmall ⟨by omega, by omega⟩, Prod.mk.injEq]
      omega

/-- Differences that are not bytes are shown only by coincidence. -/
theorem fit_bmod_iff {dx dy : Int} (hbyte : ¬ (InByte dx ∧ InByte dy)) :
    fit (dx.bmod 256) (dy.bmod 256) = scaled dx dy ↔
      if dy.natAbs ≤ dx.natAbs then Coincides dx dy else Coincides dy dx := by
  split_ifs with hle
  · exact fit_bmod_iff_of_le hle hbyte
  · rw [fit_swap, scaled_swap, Prod.swap_inj]
    exact fit_bmod_iff_of_le (Nat.le_of_not_le hle) fun h => hbyte ⟨h.2, h.1⟩

/-! ## The direction of a character -/

variable {dir : UInt16} {mx my x y : Int32}

/-- A difference, as the code narrows it. -/
theorem toInt_narrowed (mx x : Int32) :
    (x - mx).toInt8.toInt = (x.toInt - mx.toInt).bmod 256 := by
  rw [Int32.toInt8_sub, Int8.toInt_sub, Int32.toInt_toInt8, Int32.toInt_toInt8, Int.sub_bmod_bmod,
    Int.bmod_sub_bmod]

theorem narrowed_eq_zero_iff : (x - mx).toInt8 = 0 ↔ 256 ∣ x.toInt - mx.toInt := by
  rw [← Int8.toInt_inj, toInt_narrowed, Int8.toInt_zero]
  exact (Int.dvd_iff_bmod_eq_zero (a := 256)).symm

theorem decode_lookAt (h : ¬ (256 ∣ x.toInt - mx.toInt ∧ 256 ∣ y.toInt - my.toInt)) :
    decode (lookAt dir mx my x y) =
      fit ((x.toInt - mx.toInt).bmod 256) ((y.toInt - my.toInt).bmod 256) := by
  rw [← narrowed_eq_zero_iff, ← narrowed_eq_zero_iff] at h
  rw [lookAt, decode_setDirection dir h, toInt_narrowed, toInt_narrowed]

theorem lookAt_of_dvd (h : 256 ∣ x.toInt - mx.toInt ∧ 256 ∣ y.toInt - my.toInt) :
    lookAt dir mx my x y = dir := by
  rw [← narrowed_eq_zero_iff, ← narrowed_eq_zero_iff] at h
  exact if_pos h

/-- A character that looks at a point other than its own gets the direction of the point if and only
    if narrowing leaves the differences alone, or their scaled vector does not depend on what it takes
    away. -/
theorem shows_lookAt_iff (dir : UInt16) (mx my x y : Int32)
    (h : ¬ (x.toInt - mx.toInt = 0 ∧ y.toInt - my.toInt = 0)) :
    Shows (x.toInt - mx.toInt) (y.toInt - my.toInt) (decode (lookAt dir mx my x y)) ↔
      Narrows dir (x.toInt - mx.toInt) (y.toInt - my.toInt) := by
  rw [shows_iff, Narrows]
  by_cases hdvd : 256 ∣ x.toInt - mx.toInt ∧ 256 ∣ y.toInt - my.toInt
  · have hbyte : ¬ (InByte (x.toInt - mx.toInt) ∧ InByte (y.toInt - my.toInt)) := by
      rintro ⟨⟨hx, hx'⟩, hy, hy'⟩
      omega
    have hsmall : ¬ IsSmall (x.toInt - mx.toInt) (y.toInt - my.toInt) := by
      rintro ⟨hx, hy⟩
      omega
    rw [lookAt_of_dvd hdvd, fit_of_not_isSmall hsmall]
    simp only [hbyte, hdvd, and_self, not_true_eq_false, false_and, or_false, false_or, true_and]
  · rw [decode_lookAt hdvd]
    by_cases hbyte : InByte (x.toInt - mx.toInt) ∧ InByte (y.toInt - my.toInt)
    · simp only [bmod_eq_self hbyte.1, bmod_eq_self hbyte.2, hbyte, and_self, true_or]
    · have hsmall : ¬ IsSmall (x.toInt - mx.toInt) (y.toInt - my.toInt) := by
        rintro ⟨hx, hy⟩
        exact hbyte ⟨⟨by omega, by omega⟩, by omega, by omega⟩
      rw [fit_of_not_isSmall hsmall, fit_bmod_iff hbyte]
      simp only [hbyte, hdvd, false_and, not_false_eq_true, true_and, false_or]

/-- A point 30 to the right and 80 down. -/
theorem shows_lookAt_near : Shows 30 (-80) (decode (lookAt 0 10 20 40 (-60))) :=
  (shows_lookAt_iff 0 10 20 40 (-60) (by decide)).2
    (.inl ⟨⟨by decide, by decide⟩, by decide, by decide⟩)

/-- A point 200 to the right is looked at by turning left. -/
theorem not_shows_lookAt :
    ¬ ∀ (dir : UInt16) (mx my x y : Int32), ¬ (x.toInt - mx.toInt = 0 ∧ y.toInt - my.toInt = 0) →
      Shows (x.toInt - mx.toInt) (y.toInt - my.toInt) (decode (lookAt dir mx my x y)) := by
  intro h
  have hsign := (h 0 0 0 200 0 (by decide)).signX
  have hleft : (decode (lookAt 0 0 0 200 0)).1 = -56 := by decide
  rw [hleft] at hsign
  exact absurd hsign (by decide)

end Bango.Characters
