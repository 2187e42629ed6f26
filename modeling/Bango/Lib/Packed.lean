import Bango.Lib.Bytes

set_option autoImplicit false

/-! # Values of a fixed size in bytes

A packed type has a size, and each value the bytes it takes in memory. What decoding gives depends on
the first bytes only, so that a value can be read from the front of longer memory. Numbers are packed
with their low byte first, pairs and vectors without a gap. -/

namespace Bango.Lib

/-- Values that take the same number of bytes each. -/
class Packed (α : Type) where
  size : Nat
  encode : α → List UInt8
  decode : List UInt8 → α
  length_encode : ∀ a, (encode a).length = size
  decode_encode : ∀ a rest, decode (encode a ++ rest) = a

export Packed (encode)

namespace Packed

variable {α β : Type}

@[simp]
theorem length_encode' [Packed α] (a : α) : (encode a).length = size α := length_encode a

/-- A type whose values are made of another one's. -/
@[reducible]
def of [Packed α] (f : β → α) (g : α → β) (h : ∀ b, g (f b) = b) : Packed β where
  size := size α
  encode b := encode (f b)
  decode bytes := g (decode bytes)
  length_encode b := length_encode (f b)
  decode_encode b rest := by rw [decode_encode, h]

/-! ## Numbers -/

/-- Numbers below `256 ^ k`. -/
@[reducible]
def ofNat (k : Nat) (toNat : α → Nat) (ofNat : Nat → α) (hlt : ∀ a, toNat a < 256 ^ k)
    (h : ∀ a, ofNat (toNat a) = a) : Packed α where
  size := k
  encode a := le k (toNat a)
  decode bytes := ofNat (ofLe (bytes.take k))
  length_encode a := length_le k (toNat a)
  decode_encode a rest := by
    rw [List.take_left' (length_le k _), ofLe_le, Nat.mod_eq_of_lt (hlt a), h]

instance : Packed UInt8 :=
  ofNat 1 UInt8.toNat UInt8.ofNat UInt8.toNat_lt fun _ => UInt8.ofNat_toNat

instance : Packed UInt16 :=
  ofNat 2 UInt16.toNat UInt16.ofNat UInt16.toNat_lt fun _ => UInt16.ofNat_toNat

instance : Packed UInt32 :=
  ofNat 4 UInt32.toNat UInt32.ofNat UInt32.toNat_lt fun _ => UInt32.ofNat_toNat

instance : Packed UInt64 :=
  ofNat 8 UInt64.toNat UInt64.ofNat UInt64.toNat_lt fun _ => UInt64.ofNat_toNat

instance : Packed Int8 := of Int8.toUInt8 UInt8.toInt8 fun _ => rfl

instance : Packed Int32 := of Int32.toUInt32 UInt32.toInt32 fun _ => rfl

/-! ## Pairs and vectors -/

instance [Packed α] [Packed β] : Packed (α × β) where
  size := size α + size β
  encode ab := encode ab.1 ++ encode ab.2
  decode bytes := (decode bytes, decode (bytes.drop (size α)))
  length_encode ab := by rw [List.length_append, length_encode, length_encode]
  decode_encode ab rest := by
    rw [List.append_assoc, decode_encode, List.drop_left' (length_encode _), decode_encode]

theorem length_flatMap_encode [Packed α] (as : List α) :
    (as.flatMap encode).length = as.length * size α := by
  induction as with
  | nil => simp
  | cons a as ih =>
      rw [List.flatMap_cons, List.length_append, length_encode, ih, List.length_cons, Nat.succ_mul,
        Nat.add_comm]

/-- Where the bytes of one of some values begin. -/
theorem drop_flatMap_encode [Packed α] {as : List α} {i : Nat} (h : i < as.length) :
    ∃ rest, (as.flatMap encode).drop (i * size α) = encode as[i] ++ rest := by
  induction as generalizing i with
  | nil => exact (Nat.not_lt_zero i h).elim
  | cons a as ih =>
      rw [List.flatMap_cons]
      cases i with
      | zero => exact ⟨as.flatMap encode, by rw [Nat.zero_mul]; rfl⟩
      | succ i =>
          obtain ⟨rest, hrest⟩ := ih (Nat.lt_of_succ_lt_succ h)
          refine ⟨rest, ?_⟩
          rw [Nat.succ_mul, Nat.add_comm, ← List.drop_drop, List.drop_left' (length_encode a), hrest]
          rfl

instance [Packed α] (n : Nat) : Packed (Vector α n) where
  size := n * size α
  encode v := v.toList.flatMap encode
  decode bytes := Vector.ofFn fun i : Fin n => decode (bytes.drop (i * size α))
  length_encode v := by rw [length_flatMap_encode, Vector.length_toList]
  decode_encode v rest := by
    refine Vector.ext fun i hi => ?_
    have hlt : i < v.toList.length := by rwa [Vector.length_toList]
    obtain ⟨behind, hdrop⟩ := drop_flatMap_encode (α := α) hlt
    have hle : i * size α ≤ (v.toList.flatMap encode).length := by
      rw [length_flatMap_encode]
      exact Nat.mul_le_mul_right _ (Nat.le_of_lt hlt)
    rw [Vector.getElem_ofFn, List.drop_append_of_le_length hle, hdrop, List.append_assoc,
      decode_encode, Vector.getElem_toList]

end Packed

end Bango.Lib
