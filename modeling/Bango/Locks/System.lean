import Mathlib.Data.Finset.Erase
import Mathlib.Data.Finset.Union
import Bango.Lib.Runs
import Bango.Locks.Handlers

set_option autoImplicit false

/-! # Handlers on several worker threads

Each worker runs one handler after another, and the workers take their steps in any order. Of the
players' parties only who is on a list of members is known, and a list changes only by a worker that
has the mutexes of the players concerned. -/

namespace Bango.Locks

open Bango.Lib

/-- The workers of `T`. -/
structure System (T : Type) where
  workers : T → Worker Mutex PartyAction
  /-- the players on the list of members of a party -/
  inParty : Finset UInt32
  /-- `this` and `leader` in a `LeaveParty` that is about to lock the leader -/
  leader : T → Option (UInt32 × UInt32)

/-- Why a step cannot be taken. -/
inductive Stuck where
  | busy | idle
  /-- The mutex is taken. -/
  | blocked
  /-- The handler does not go this way. -/
  | otherwise
deriving DecidableEq, Repr

namespace System

variable {T : Type} [DecidableEq T]

/-- No handler is running. -/
def start (inParty : Finset UInt32) : System T where
  workers _ := ⟨[], []⟩
  inParty := inParty
  leader _ := none

/-- What happens next: an idle worker gets a handler, or a worker takes a step. -/
inductive Event (T : Type) where
  | dispatch (t : T) (handler : Handler)
  | advance (t : T)
deriving DecidableEq, Repr

variable [Fintype T] (s : System T)

/-- The worker goes on with what is left, and with these mutexes. -/
def goOn (t : T) (left : Sequence) (held : List Mutex) : System T :=
  { s with workers := Function.update s.workers t ⟨left, held⟩ }

/-- A worker takes its next action. -/
def advance (t : T) : Except Stuck (System T) :=
  let worker := s.workers t
  match worker.left with
  | [] => .error .idle
  | .lock mutex :: left =>
    if Grantable Mutex.Recursive s.workers t mutex then
      .ok { s.goOn t left (mutex :: worker.held) with leader := Function.update s.leader t none }
    else .error .blocked
  | .unlock mutex :: left => .ok (s.goOn t left (worker.held.erase mutex))
  | .act (.leave id none) :: left =>
    .ok { s.goOn t left worker.held with inParty := s.inParty.erase id }
  | .act (.leave id (some last)) :: left =>
    if last ∈ s.inParty.erase id then
      .ok { s.goOn t left worker.held with
        inParty := s.inParty.erase id
        leader := Function.update s.leader t (some (id, last)) }
    else .error .otherwise
  | .act (.join ids) :: left =>
    .ok { s.goOn t left worker.held with inParty := s.inParty ∪ ids.toFinset }
  | .act (.remove id) :: left =>
    .ok { s.goOn t left worker.held with inParty := s.inParty.erase id }

/-- One step. -/
def step : Event T → Except Stuck (System T)
  | .dispatch t handler =>
    if (s.workers t).left = [] then
      .ok (s.goOn t handler.sequence (s.workers t).held)
    else .error .busy
  | .advance t => s.advance t

/-- A worker waits for a mutex of its own, or some wait for each other in a cycle. -/
def Deadlocked : Prop := Lib.Deadlocked Mutex.Recursive s.workers

end System

/-! ## Crossing handlers -/

/-- The mutexes that are held after an action. -/
def heldAfter (held : List Mutex) : Action Mutex PartyAction → List Mutex
  | .lock mutex => mutex :: held
  | .unlock mutex => held.erase mutex
  | .act _ => held

/-- The characters that a sequence locks while it has `World`'s mutex. -/
def insideWorld : List Mutex → Sequence → List Mutex
  | _, [] => []
  | held, .lock (.character character) :: left =>
    let later := insideWorld (.character character :: held) left
    if .world ∈ held then .character character :: later else later
  | held, action :: left => insideWorld (heldAfter held action) left

/-- The mutexes that a sequence keeps, without `World`'s, while it waits for another one. -/
def outsideWorld : List Mutex → Sequence → List Mutex
  | _, [] => []
  | held, .lock mutex :: left =>
    let later := outsideWorld (mutex :: held) left
    if .world ∈ held then later else held ++ later
  | held, action :: left => outsideWorld (heldAfter held action) left

/-- One worker still locks a character inside `World`, and the other one keeps it outside, where it waits
    for another mutex. -/
def Crosses (worker other : Worker Mutex PartyAction) : Prop :=
  ∃ mutex ∈ insideWorld worker.held worker.left, mutex ∈ outsideWorld other.held other.left

instance (worker other : Worker Mutex PartyAction) : Decidable (Crosses worker other) :=
  inferInstanceAs (Decidable (∃ mutex ∈ insideWorld worker.held worker.left, _))

/-- No player attacks itself, and a handler begins only while it crosses none of those that are
    running, and none of them crosses it. -/
def System.Allowed {T : Type} (s : System T) : System.Event T → Prop
  | .dispatch t handler =>
    ¬ handler.AttacksItself ∧
      ∀ u, u ≠ t → ¬ Crosses ⟨handler.sequence, []⟩ (s.workers u) ∧
        ¬ Crosses (s.workers u) ⟨handler.sequence, []⟩
  | .advance _ => True

instance {T : Type} [DecidableEq T] [Fintype T] (s : System T) : DecidablePred s.Allowed
  | .dispatch _ _ => inferInstanceAs (Decidable (_ ∧ _))
  | .advance _ => isTrue trivial

end Bango.Locks
