import Mathlib.Data.Finset.Disjoint
import Mathlib.Logic.Function.Basic

set_option autoImplicit false

/-! # The callbacks of the server

`server::m_callbacks` and the roles of `authorizable`: a callback is registered for a message type
without any roles, and `grant` sets the roles it requires afterwards. A mask of roles is the set of
its bits. -/

namespace Bango.Network

variable {η ρ : Type}

/-- An entry of `m_callbacks`: the handler, and the roles a session must and must not have. -/
structure Callback (η ρ : Type) where
  handler : η
  required : Finset ρ
  restricted : Finset ρ

/-- `m_callbacks`. -/
abbrev Callbacks (η ρ : Type) : Type := UInt8 → Option (Callback η ρ)

/-- `authorizable::authorized`. -/
def Authorized (roles required restricted : Finset ρ) : Prop :=
  required ⊆ roles ∧ Disjoint roles restricted

instance [DecidableEq ρ] (roles required restricted : Finset ρ) :
    Decidable (Authorized roles required restricted) :=
  inferInstanceAs (Decidable (_ ∧ _))

namespace Callbacks

/-- Nothing is registered. -/
def empty : Callbacks η ρ := fun _ => none

variable (callbacks : Callbacks η ρ)

/-- `server::when`: what is registered first stays. -/
def when (type : UInt8) (handler : η) : Callbacks η ρ :=
  match callbacks type with
  | some _ => callbacks
  | none => Function.update callbacks type (some ⟨handler, ∅, ∅⟩)

/-- Callbacks are registered one after the other. -/
def register (handlers : List (UInt8 × η)) : Callbacks η ρ :=
  handlers.foldl (fun callbacks entry => callbacks.when entry.1 entry.2) callbacks

/-- `server::grant`, of the map that the list of pairs initialises. -/
def grant (roles : List (UInt8 × Finset ρ)) : Callbacks η ρ := fun type =>
  (callbacks type).map fun callback =>
    match roles.lookup type with
    | none => callback
    | some required => { callback with required }

/-- `server::execute`: the handler that is called. -/
def execute [DecidableEq ρ] (roles : Finset ρ) (type : UInt8) : Option η :=
  match callbacks type with
  | none => none
  | some callback =>
    if Authorized roles callback.required callback.restricted then some callback.handler else none

/-! ## What is called -/

variable {callbacks} {type : UInt8} {handler : η}

theorem execute_eq_some [DecidableEq ρ] {roles : Finset ρ}
    (h : callbacks.execute roles type = some handler) :
    ∃ callback, callbacks type = some callback ∧ callback.handler = handler ∧
      Authorized roles callback.required callback.restricted := by
  unfold execute at h
  split at h
  next => cases h
  next callback hcallback =>
    split at h
    next hauthorized => exact ⟨callback, hcallback, Option.some.inj h, hauthorized⟩
    next => cases h

theorem when_eq_some {other : UInt8} {callback : Callback η ρ}
    (h : callbacks.when type handler other = some callback) :
    callbacks other = some callback ∨ (other = type ∧ callback.handler = handler) := by
  unfold when at h
  cases hfound : callbacks type with
  | some registered =>
      rw [hfound] at h
      exact .inl h
  | none =>
      rw [hfound] at h
      dsimp only at h
      by_cases heq : other = type
      · subst heq
        rw [Function.update_self] at h
        rw [← Option.some.inj h]
        exact .inr ⟨rfl, rfl⟩
      · rw [Function.update_of_ne heq] at h
        exact .inl h

theorem register_eq_some {handlers : List (UInt8 × η)} {callback : Callback η ρ}
    (h : callbacks.register handlers type = some callback) :
    callbacks type = some callback ∨ (type, callback.handler) ∈ handlers := by
  unfold register at h
  induction handlers generalizing callbacks with
  | nil => exact .inl h
  | cons entry handlers ih =>
      rcases ih h with hbefore | hmem
      · rcases when_eq_some hbefore with hold | ⟨htype, hhandler⟩
        · exact .inl hold
        · refine .inr (List.mem_cons.2 (.inl ?_))
          rw [htype, hhandler]
      · exact .inr (List.mem_cons_of_mem entry hmem)

/-- A handler that is called has been registered for the type, and the session has the roles that
    were granted for it. -/
theorem of_execute_grant [DecidableEq ρ] {handlers : List (UInt8 × η)}
    {granted : List (UInt8 × Finset ρ)} {roles : Finset ρ}
    (h : ((empty.register handlers).grant granted).execute roles type = some handler) :
    (type, handler) ∈ handlers ∧
      ∀ required, granted.lookup type = some required → required ⊆ roles := by
  obtain ⟨callback, hcallback, rfl, hauthorized⟩ := execute_eq_some h
  obtain ⟨registered, hregistered, hgranted⟩ := Option.map_eq_some_iff.1 hcallback
  have hhandler : callback.handler = registered.handler := by
    rw [← hgranted]
    split <;> rfl
  refine ⟨?_, fun required hrequired => ?_⟩
  · rcases register_eq_some hregistered with hnone | hmem
    · cases hnone
    · rwa [hhandler]
  · rw [hrequired] at hgranted
    rw [← hgranted] at hauthorized
    exact hauthorized.1

end Callbacks

end Bango.Network
