import Mathlib.Logic.Function.Basic

set_option autoImplicit false

/-! # Messages that are still on their way to a store

Each message of a link is about one key, and changes what the store has under it. The link is in order,
so what the store will have under a key is settled by the messages about that key alone, whatever is
sent about the others in between. -/

namespace Bango.Lib

variable {κ ρ μ : Type} [DecidableEq κ]

section Pending

variable (key : μ → κ) (apply : ρ → μ → ρ) (link : List μ) (store : κ → ρ) (k : κ)

/-- The messages about a key, in order. -/
def pending : List μ := link.filter (key · = k)

end Pending

variable {key : μ → κ} {link : List μ} {k : κ}

theorem pending_append (messages : List μ) :
    pending key (link ++ messages) k = pending key link k ++ pending key messages k :=
  List.filter_append link messages

theorem pending_of_forall {messages : List μ} (h : ∀ m ∈ messages, key m = k) :
    pending key messages k = messages := by
  unfold pending
  rw [List.filter_eq_self]
  intro m hm
  exact decide_eq_true (h m hm)

theorem pending_of_forall_ne {messages : List μ} (h : ∀ m ∈ messages, key m ≠ k) :
    pending key messages k = [] := by
  unfold pending
  rw [List.filter_eq_nil_iff]
  intro m hm
  exact fun heq => h m hm (of_decide_eq_true heq)

theorem pending_cons_self {message : μ} (h : key message = k) :
    pending key (message :: link) k = message :: pending key link k :=
  List.filter_cons_of_pos (decide_eq_true h)

theorem pending_cons_ne {message : μ} (h : key message ≠ k) :
    pending key (message :: link) k = pending key link k :=
  List.filter_cons_of_neg (fun heq => h (of_decide_eq_true heq))

end Bango.Lib
