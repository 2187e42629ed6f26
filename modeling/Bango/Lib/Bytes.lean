import Mathlib.Algebra.Ring.Nat
import Mathlib.Data.List.Basic
import Mathlib.Data.List.GetD

set_option autoImplicit false

/-! # Bytes

Byte memory as a function from offsets, with block reads and writes, and little-endian numbers. -/

namespace Bango.Lib

/-- Byte memory. -/
abbrev Memory : Type := Nat → UInt8

namespace Memory

/-- The `n` bytes from offset `i` on. -/
def readBytes (m : Memory) (i n : Nat) : List UInt8 := (List.range n).map fun k => m (i + k)

/-- `memcpy` to offset `i`. -/
def writeBytes (m : Memory) (i : Nat) (bytes : List UInt8) : Memory := fun j =>
  if i ≤ j ∧ j < i + bytes.length then bytes.getD (j - i) 0 else m j

@[simp]
theorem length_readBytes (m : Memory) (i n : Nat) : (m.readBytes i n).length = n := by
  simp [readBytes]

theorem getElem?_readBytes (m : Memory) (i : Nat) {n k : Nat} (h : k < n) :
    (m.readBytes i n)[k]? = some (m (i + k)) := by
  unfold readBytes
  rw [List.getElem?_map, List.getElem?_range h, Option.map_some]

theorem readBytes_congr {m m' : Memory} {i n : Nat} (h : ∀ j, i ≤ j → j < i + n → m j = m' j) :
    m.readBytes i n = m'.readBytes i n := by
  unfold readBytes
  refine List.map_congr_left fun k hk => h (i + k) (Nat.le_add_right i k) ?_
  have := List.mem_range.1 hk
  omega

theorem readBytes_add (m : Memory) (i n k : Nat) :
    m.readBytes i (n + k) = m.readBytes i n ++ m.readBytes (i + n) k := by
  unfold readBytes
  rw [List.range_add, List.map_append, List.map_map]
  simp [Function.comp_def, Nat.add_assoc]

theorem writeBytes_of_inside {m : Memory} {i k : Nat} {bytes : List UInt8} (h : k < bytes.length) :
    m.writeBytes i bytes (i + k) = bytes[k] := by
  unfold writeBytes
  rw [if_pos (by omega), Nat.add_sub_cancel_left, List.getD_eq_getElem _ _ h]

@[simp]
theorem readBytes_writeBytes (m : Memory) (i : Nat) (bytes : List UInt8) :
    (m.writeBytes i bytes).readBytes i bytes.length = bytes := by
  apply List.ext_getElem
  · simp
  · intro k _ hk
    simp only [readBytes, List.getElem_map, List.getElem_range]
    exact writeBytes_of_inside hk

theorem writeBytes_of_outside {m : Memory} {i j : Nat} {bytes : List UInt8}
    (h : j < i ∨ i + bytes.length ≤ j) : m.writeBytes i bytes j = m j := by
  unfold writeBytes
  rw [if_neg]
  omega

/-- A block read before or behind a written block. -/
theorem readBytes_writeBytes_of_disjoint {m : Memory} {i j n : Nat} {bytes : List UInt8}
    (h : j + n ≤ i ∨ i + bytes.length ≤ j) :
    (m.writeBytes i bytes).readBytes j n = m.readBytes j n := by
  refine readBytes_congr fun k hj hn => writeBytes_of_outside ?_
  omega

end Memory

/-! ## Little-endian numbers -/

/-- The `k` low bytes of `n`, lowest first. -/
def le : Nat → Nat → List UInt8
  | 0, _ => []
  | k + 1, n => UInt8.ofNat n :: le k (n / 256)

/-- The number a list of bytes, lowest first, stands for. -/
def ofLe : List UInt8 → Nat
  | [] => 0
  | b :: bs => b.toNat + 256 * ofLe bs

@[simp]
theorem length_le (k n : Nat) : (le k n).length = k := by
  induction k generalizing n with
  | zero => rfl
  | succ k ih => rw [le, List.length_cons, ih]

theorem ofLe_le (k n : Nat) : ofLe (le k n) = n % 256 ^ k := by
  induction k generalizing n with
  | zero => simp [le, ofLe, Nat.mod_one]
  | succ k ih =>
      have hbyte : (UInt8.ofNat n).toNat = n % 256 := UInt8.toNat_ofNat'
      rw [le, ofLe, ih, hbyte, Nat.pow_succ, Nat.mul_comm (256 ^ k) 256, Nat.mod_mul]

theorem ofLe_lt (bs : List UInt8) : ofLe bs < 256 ^ bs.length := by
  induction bs with
  | nil => simp [ofLe]
  | cons b bs ih =>
      have hb := b.toNat_lt
      rw [ofLe, List.length_cons, Nat.pow_succ]
      omega

theorem le_ofLe (bs : List UInt8) : le bs.length (ofLe bs) = bs := by
  induction bs with
  | nil => rfl
  | cons b bs ih =>
      have hb := b.toNat_lt
      have hdiv : (b.toNat + 256 * ofLe bs) / 256 = ofLe bs := by omega
      have hmod : UInt8.ofNat (b.toNat + 256 * ofLe bs) = b := by
        apply UInt8.toNat_inj.1
        rw [UInt8.toNat_ofNat']
        omega
      rw [List.length_cons, ofLe, le, hdiv, ih, hmod]

end Bango.Lib
