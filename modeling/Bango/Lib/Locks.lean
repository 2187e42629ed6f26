import Mathlib.Data.Fintype.Defs
import Mathlib.Logic.Function.Basic
import Mathlib.Logic.Relation

set_option autoImplicit false

/-! # Workers and mutexes

A worker goes through a sequence of actions: it takes and releases mutexes, and does other things in
between. A mutex belongs to one worker at a time, which may take it again when it is recursive. Workers
are deadlocked when one waits for a mutex of its own or some wait for each other in a cycle. -/

namespace Bango.Lib

open Relation

/-! ## Cycles of a relation -/

section Cycles

variable {α : Type} {r r' : α → α → Prop}

/-- No element is related to itself in one or more steps. -/
def Acyclic (r : α → α → Prop) : Prop := ∀ a, ¬ TransGen r a a

/-- From each step of a path that comes back, there is a path back. -/
theorem transGen_of_back {a b : α} (h : TransGen r a b) (hback : ReflTransGen r b a) :
    TransGen (fun x y => r x y ∧ TransGen r y x) a b := by
  induction h with
  | single hab =>
      exact .single ⟨hab, TransGen.trans_right hback ((TransGen.single hab).trans_left hback)⟩
  | tail hac hcb ih => exact .tail (ih (.head hcb hback)) ⟨hcb, TransGen.trans_right hback hac⟩

/-- Only the steps that are part of a cycle matter. -/
theorem Acyclic.of_steps (h : Acyclic r') (hsteps : ∀ a b, r a b → TransGen r b a → r' a b) :
    Acyclic r :=
  fun a hcycle => h a (TransGen.mono (fun x y hxy => hsteps x y hxy.1 hxy.2) a a
    (transGen_of_back hcycle .refl))

theorem Acyclic.mono (h : Acyclic r') (hle : ∀ a b, r a b → r' a b) : Acyclic r :=
  h.of_steps fun a b hab _ => hle a b hab

/-- New steps to an element that no step leaves make no cycle. -/
theorem Acyclic.add_sink (h : Acyclic r') {sink : α} (hsink : ∀ b, ¬ r sink b)
    (hle : ∀ a b, b ≠ sink → r a b → r' a b) : Acyclic r := by
  refine h.of_steps fun a b hab hba => hle a b ?_ hab
  rintro rfl
  obtain ⟨c, hbc, _⟩ := TransGen.head'_iff.1 hba
  exact hsink c hbc

end Cycles

/-! ## Workers -/

/-- An action on a mutex of `M`, or another one of `D`. -/
inductive Action (M D : Type) where
  | lock (mutex : M)
  | unlock (mutex : M)
  | act (action : D)
deriving DecidableEq, Repr

/-- A worker: what is left of the sequence it goes through, and the mutexes it has, as often as it has
    taken them. -/
structure Worker (M D : Type) where
  left : List (Action M D)
  held : List M
deriving DecidableEq, Repr

section Workers

variable {M D T : Type} (recursive : M → Prop) (workers : T → Worker M D)

/-- May the worker take the mutex now? -/
def Grantable (t : T) (mutex : M) : Prop :=
  ∀ u, mutex ∈ (workers u).held → u = t ∧ recursive mutex

instance [Fintype T] [DecidableEq T] [DecidableEq M] [DecidablePred recursive] (t : T) (mutex : M) :
    Decidable (Grantable recursive workers t mutex) :=
  inferInstanceAs (Decidable (∀ u, mutex ∈ (workers u).held → u = t ∧ recursive mutex))

/-- The worker waits for a mutex of its own. -/
def WaitsForItself (t : T) : Prop :=
  ∃ mutex rest, (workers t).left = .lock mutex :: rest ∧ mutex ∈ (workers t).held ∧ ¬ recursive mutex

/-- One worker waits for a mutex of another one. -/
def WaitsFor (t u : T) : Prop :=
  t ≠ u ∧ ∃ mutex rest, (workers t).left = .lock mutex :: rest ∧ mutex ∈ (workers u).held

/-- Some worker can never go on. -/
def Deadlocked : Prop :=
  (∃ t, WaitsForItself recursive workers t) ∨ ∃ t, TransGen (WaitsFor workers) t t

/-- No mutex is held by two workers. -/
def Exclusive : Prop :=
  ∀ t u mutex, mutex ∈ (workers t).held → mutex ∈ (workers u).held → t = u

end Workers

end Bango.Lib
