import Mathlib.Init

set_option autoImplicit false

/-! # Loops that may trap

A loop takes steps until one returns. A step may be undefined, as a read outside an array is, and a loop
that is only run for some steps may still be running after them, the loops within its steps included. An
invariant under which every step is defined and fewer steps are left rules both out (`loop_total`). -/

namespace Bango.Lib

variable {σ ρ : Type}

/-- What a step does: the loop goes on, or it returns. -/
inductive Next (σ ρ : Type) where
  | goto (s : σ)
  | ret (r : ρ)
deriving DecidableEq, Repr

/-- Why there is no result. -/
inductive Trap where
  /-- a step that is undefined -/
  | fault
  /-- more steps are needed -/
  | running
deriving DecidableEq, Repr

/-- Take so many steps at most. -/
def loop (step : σ → Except Trap (Next σ ρ)) : Nat → σ → Except Trap ρ
  | 0, _ => .error .running
  | steps + 1, s =>
    match step s with
    | .error trap => .error trap
    | .ok (.ret r) => .ok r
    | .ok (.goto s') => loop step steps s'

variable {step : σ → Except Trap (Next σ ρ)}

theorem loop_of_ret {s : σ} {r : ρ} (steps : Nat) (h : step s = .ok (.ret r)) :
    loop step (steps + 1) s = .ok r := by
  rw [loop, h]

theorem loop_of_goto {s s' : σ} (steps : Nat) (h : step s = .ok (.goto s')) :
    loop step (steps + 1) s = loop step steps s' := by
  rw [loop, h]

/-- What a step has to do, with less than `size` steps after it, for the loop to come to a result that is
    as it should be: go on from where every proper result is one for `s`, or return such a result. -/
inductive Next.Proper (inv : Nat → σ → Prop) (post : σ → ρ → Prop) (size : Nat) (s : σ) :
    Next σ ρ → Prop where
  | goto {size' : Nat} {s' : σ} : inv size' s' → size' < size → (∀ r, post s' r → post s r) →
      Proper inv post size s (.goto s')
  | ret {r : ρ} : post s r → Proper inv post size s (.ret r)

variable {inv : Nat → σ → Prop} {post : σ → ρ → Prop}

/-- The rule of total correctness, for an invariant that says how many steps are left. -/
theorem loop_total
    (hstep : ∀ size s, inv size s → ∃ next, step s = .ok next ∧ next.Proper inv post size s)
    {size : Nat} {s : σ} (hinv : inv size s) {steps : Nat} (hsteps : size < steps) :
    ∃ r, loop step steps s = .ok r ∧ post s r := by
  induction steps generalizing size s with
  | zero => exact absurd hsteps (Nat.not_lt_zero _)
  | succ steps ih =>
      obtain ⟨next, hnext, hproper⟩ := hstep size s hinv
      cases hproper with
      | ret hpost => exact ⟨_, loop_of_ret steps hnext, hpost⟩
      | goto hinv' hsize hpost =>
          obtain ⟨r, hloop, hpost'⟩ := ih hinv' (Nat.lt_of_lt_of_le hsize (Nat.le_of_lt_succ hsteps))
          exact ⟨r, (loop_of_goto steps hnext).trans hloop, hpost r hpost'⟩

end Bango.Lib
