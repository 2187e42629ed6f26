import Mathlib.Algebra.Ring.Nat

set_option autoImplicit false

/-! # Ids from a counter

A counter of 32 bits gives each new thing the next id and starts again from 0 after the last one. The
ids it gives next are `FreeIds` when they differ from each other and no thing has one of them. -/

namespace Bango.Lib

/-- The next `n` ids differ, and none of them is taken. -/
def FreeIds (taken : UInt32 → Prop) (next : UInt32) (n : Nat) : Prop :=
  n ≤ 2 ^ 32 ∧ ∀ i < n, ¬ taken (next + UInt32.ofNat i)

instance (taken : UInt32 → Prop) [DecidablePred taken] (next : UInt32) (n : Nat) :
    Decidable (FreeIds taken next n) :=
  inferInstanceAs (Decidable (_ ∧ ∀ i < n, _))

namespace FreeIds

variable {taken taken' : UInt32 → Prop} {next : UInt32} {n m : Nat}

theorem le (h : FreeIds taken next n) (hle : m ≤ n) : FreeIds taken next m :=
  ⟨Nat.le_trans hle h.1, fun i hi => h.2 i (Nat.lt_of_lt_of_le hi hle)⟩

theorem head (h : FreeIds taken next (n + 1)) : ¬ taken next := by
  have hfree := h.2 0 (Nat.succ_pos n)
  have hnext : next + UInt32.ofNat 0 = next := UInt32.add_zero next
  rwa [hnext] at hfree

theorem next_ne {i : Nat} (h : FreeIds taken next (n + 1)) (hi : i < n) :
    next + 1 + UInt32.ofNat i ≠ next := by
  intro heq
  have hsum : (1 : UInt32) + UInt32.ofNat i = 0 := by
    rw [UInt32.add_assoc] at heq
    exact UInt32.left_eq_add.1 heq.symm
  have hnat := congrArg UInt32.toNat hsum
  have hle := h.1
  rw [UInt32.toNat_add, UInt32.toNat_ofNat', Nat.add_mod_mod] at hnat
  have hlt : UInt32.toNat 1 + i < 2 ^ 32 := by
    show 1 + i < 2 ^ 32
    omega
  rw [Nat.mod_eq_of_lt hlt] at hnat
  change 1 + i = 0 at hnat
  omega

/-- Once the next id has been given out, the others are still free. -/
theorem tail (h : FreeIds taken next (n + 1)) (htaken : ∀ id, taken' id → taken id ∨ id = next) :
    FreeIds taken' (next + 1) n := by
  refine ⟨Nat.le_trans (Nat.le_succ n) h.1, fun i hi htaken' => ?_⟩
  rcases htaken _ htaken' with hold | hnew
  · have hnext : next + 1 + UInt32.ofNat i = next + UInt32.ofNat (i + 1) := by
      rw [UInt32.add_assoc, UInt32.ofNat_add, UInt32.add_comm 1]
      rfl
    rw [hnext] at hold
    exact h.2 (i + 1) (Nat.succ_lt_succ hi) hold
  · exact h.next_ne hi hnew

end FreeIds

end Bango.Lib
