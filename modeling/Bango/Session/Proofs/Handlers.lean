import Bango.Session.Handlers

set_option autoImplicit false

/-! # Who calls the handlers

A session is `INGAME` exactly while the world has its player. The handlers that act on the player in
the world are called for such sessions only, except for the message types that `main` registers but
leaves out of its table of roles. -/

namespace Bango.Session

open Bango.Account Bango.Lib Bango.Network

/-! ## The tables -/

/-- The message types whose handler acts on the player in the world, and for which no role is
    granted. -/
def ungranted : List Protocol := [.pickUpItem, .skillUp, .learnSkill, .skill, .preSkill]

/-- Does a message have one of the types that no role is granted for? -/
def Ungranted (type : UInt8) : Prop := ∃ protocol ∈ ungranted, protocol.type = type

instance : DecidablePred Ungranted := fun _ => inferInstanceAs (Decidable (∃ protocol ∈ _, _))

theorem granted_of_registered :
    ∀ entry ∈ handlers, entry.2.ActsInWorld →
      Ungranted entry.1 ∨ granted.lookup entry.1 = some {Role.ingame} := by
  decide

theorem gameServer_ungranted :
    ∀ protocol ∈ ungranted, ∃ handler : Handler, handler.ActsInWorld ∧
      gameServer protocol.type = some ⟨handler, ∅, ∅⟩ := by
  simp only [ungranted, List.forall_mem_cons]
  exact ⟨⟨.onPickUpItem, trivial, rfl⟩, ⟨.onSkillUp, trivial, rfl⟩, ⟨.onLearnSkill, trivial, rfl⟩,
    ⟨.onSkill, trivial, rfl⟩, ⟨.onPreSkill, trivial, rfl⟩, by simp⟩

/-- A handler that acts on the player in the world is called for a session that is `INGAME`, or no
    role is granted for the type. -/
theorem ingame_of_execute {roles : Roles} {type : UInt8} {handler : Handler}
    (h : gameServer.execute roles type = some handler) (hacts : handler.ActsInWorld) :
    Ungranted type ∨ .ingame ∈ roles := by
  obtain ⟨hmem, hroles⟩ := Callbacks.of_execute_grant h
  refine (granted_of_registered (type, handler) hmem hacts).imp id fun hlookup => ?_
  exact hroles {.ingame} hlookup (Finset.mem_singleton_self _)

/-- Without a role that is granted, the handler is called for every session. -/
theorem execute_of_ungranted {type : UInt8} (h : Ungranted type) (roles : Roles) :
    ∃ handler, gameServer.execute roles type = some handler ∧ handler.ActsInWorld := by
  obtain ⟨protocol, hmem, rfl⟩ := h
  obtain ⟨handler, hacts, hfound⟩ := gameServer_ungranted protocol hmem
  refine ⟨handler, ?_, hacts⟩
  unfold Callbacks.execute
  rw [hfound]
  exact if_pos ⟨Finset.empty_subset _, Finset.disjoint_empty_right _⟩

namespace Presence

variable {s s' : Presence}

/-! ## The role and the world -/

/-- A session is `INGAME` exactly when the world has its player. -/
def IngameIff (s : Presence) : Prop := s.connected ∧ .ingame ∈ s.roles ↔ s.present

theorem fresh_ingameIff : fresh.IngameIff := by
  simp [IngameIff, fresh]

namespace IngameIff

/-- A change of another role. -/
theorem withRoles (h : s.IngameIff) {roles : Roles} (hroles : .ingame ∈ roles ↔ .ingame ∈ s.roles) :
    IngameIff { s with roles } :=
  (and_congr_right fun _ => hroles).trans h

theorem assign (h : s.IngameIff) {role : Role} (hrole : role ≠ .ingame) :
    (s.assign role).IngameIff :=
  h.withRoles (by simp [Roles.assign, hrole.symm])

theorem deny (h : s.IngameIff) {role : Role} (hrole : role ≠ .ingame) : (s.deny role).IngameIff :=
  h.withRoles (by simp [Roles.deny, hrole.symm])

theorem onStart (h : s.IngameIff) (hconnected : s.connected = true) : s.onStart.IngameIff := by
  unfold Presence.onStart
  split
  next => exact h
  next =>
    have hassign : ({ s with present := true }.assign .ingame).IngameIff := by
      simp [IngameIff, Presence.assign, Roles.assign, hconnected]
    exact hassign.deny (by decide)

theorem onRestart (h : s.IngameIff) (p : Packet) : (s.onRestart p).IngameIff := by
  unfold Presence.onRestart
  split
  next => exact h
  next =>
    split
    next => simp [IngameIff, Presence.deny, Roles.deny]
    next => exact h

theorem handle (h : s.IngameIff) (hconnected : s.connected = true) (handler : Handler) (p : Packet) :
    (s.handle handler p).IngameIff := by
  cases handler with
  | onLogin => exact h.deny (by decide)
  | onSecondaryLogin => exact h.deny (by decide)
  | onLoadPlayer =>
      have hassign : (s.assign .loading).IngameIff := h.assign (by decide)
      exact hassign.deny (by decide)
  | onStart => exact h.onStart hconnected
  | onRestart => exact h.onRestart p
  | _ => exact h

theorem execute (h : s.IngameIff) (hconnected : s.connected = true) (p : Packet) :
    (s.execute p).IngameIff := by
  unfold Presence.execute
  split
  next => exact h
  next handler hcalled =>
    have hcall : IngameIff { s with called := (handler, s.roles) :: s.called } := h
    exact hcall.handle hconnected handler p

theorem onReply (h : s.IngameIff) (reply : D2S) : (s.onReply reply).IngameIff := by
  cases reply with
  | login uid answer => exact h.assign (by decide)
  | secLogin uid => exact h.assign (by decide)
  | authorized uid aid => exact h.assign (by decide)
  | playerInfo uid => exact h.assign (by decide)
  | _ => exact h

theorem onDisconnected (h : s.IngameIff) (hconnected : s.connected = true) :
    s.onDisconnected.IngameIff := by
  unfold Presence.onDisconnected
  split
  next hingame =>
    rw [if_pos (h.1 ⟨hconnected, hingame⟩)]
    simp [IngameIff]
  next hnot =>
    have habsent : ¬ s.present = true := fun hpresent => hnot (h.2 hpresent).2
    simp [IngameIff, habsent]

end IngameIff

/-! ## Steps -/

theorem step_message_eq_ok {p : Packet} :
    s.step (.message p) = .ok s' ↔ s.connected = true ∧ s.execute p = s' := by
  show (if s.connected then _ else _) = _ ↔ _
  by_cases hconnected : s.connected = true
  · simp [hconnected]
  · simp [hconnected]

theorem step_disconnect_eq_ok :
    s.step .disconnect = .ok s' ↔ s.connected = true ∧ s.onDisconnected = s' := by
  show (if s.connected then _ else _) = _ ↔ _
  by_cases hconnected : s.connected = true
  · simp [hconnected]
  · simp [hconnected]

theorem IngameIff.step {event : Event} (h : s.IngameIff) (hstep : s.step event = .ok s') :
    s'.IngameIff := by
  cases event with
  | message p =>
      obtain ⟨hconnected, rfl⟩ := step_message_eq_ok.1 hstep
      exact h.execute hconnected p
  | reply reply =>
      rw [← Except.ok.inj hstep]
      split
      next => exact h.onReply reply
      next => exact h
  | disconnect =>
      obtain ⟨hconnected, rfl⟩ := step_disconnect_eq_ok.1 hstep
      exact h.onDisconnected hconnected

theorem called_handle (s : Presence) (handler : Handler) (p : Packet) :
    (s.handle handler p).called = s.called := by
  cases handler with
  | onStart =>
      show s.onStart.called = s.called
      unfold onStart
      split <;> rfl
  | onRestart =>
      show (s.onRestart p).called = s.called
      unfold onRestart
      split
      next => rfl
      next => split <;> rfl
  | _ => rfl

theorem called_execute {p : Packet} {handler : Handler}
    (h : gameServer.execute s.roles p.type = some handler) :
    (s.execute p).called = (handler, s.roles) :: s.called := by
  unfold execute
  rw [h, called_handle]

/-- A call is from before the step, or the one the step's message makes. -/
theorem mem_called_step {event : Event} (hstep : s.step event = .ok s') {call : Handler × Roles}
    (hmem : call ∈ s'.called) :
    call ∈ s.called ∨ ∃ p, event = .message p ∧ s.connected = true ∧ call.2 = s.roles ∧
      gameServer.execute s.roles p.type = some call.1 := by
  cases event with
  | message p =>
      obtain ⟨hconnected, rfl⟩ := step_message_eq_ok.1 hstep
      cases hcalled : gameServer.execute s.roles p.type with
      | none =>
          have hsame : s.execute p = s := by
            unfold execute
            rw [hcalled]
          rw [hsame] at hmem
          exact .inl hmem
      | some handler =>
          rw [called_execute hcalled] at hmem
          rcases List.mem_cons.1 hmem with rfl | hold
          · exact .inr ⟨p, rfl, hconnected, rfl, hcalled⟩
          · exact .inl hold
  | reply reply =>
      rw [← Except.ok.inj hstep] at hmem
      split at hmem
      next => cases reply <;> exact .inl hmem
      next => exact .inl hmem
  | disconnect =>
      obtain ⟨-, rfl⟩ := step_disconnect_eq_ok.1 hstep
      unfold onDisconnected at hmem
      split at hmem
      next => split at hmem <;> exact .inl hmem
      next => exact .inl hmem

/-! ## What is to hold -/

/-- The roles tell whether the world has the player, and no handler has been called that relied on it in
    vain. -/
structure Proper (s : Presence) : Prop where
  ingameIff : s.IngameIff
  /-- Handlers that act on the player in the world were called while the session was `INGAME`. -/
  guarded : ∀ call ∈ s.called, call.1.ActsInWorld → .ingame ∈ call.2

/-- A message of a type that no role is granted for comes from a session that is `INGAME`. -/
def Guarded (s : Presence) : Event → Prop
  | .message p => s.connected → Ungranted p.type → .ingame ∈ s.roles
  | .reply _ | .disconnect => True

instance (s : Presence) : DecidablePred s.Guarded
  | .message _ => inferInstanceAs (Decidable (_ → _ → _))
  | .reply _ | .disconnect => isTrue trivial

theorem Proper.step {event : Event} (h : s.Proper) (hguard : s.Guarded event)
    (hstep : s.step event = .ok s') : s'.Proper := by
  refine ⟨h.ingameIff.step hstep, fun call hmem hacts => ?_⟩
  rcases mem_called_step hstep hmem with hold | ⟨p, rfl, hconnected, hroles, hcalled⟩
  · exact h.guarded call hold hacts
  · rw [hroles]
    rcases ingame_of_execute hcalled hacts with hungranted | hingame
    · exact hguard hconnected hungranted
    · exact hingame

/-- A message that is not guarded has its handler called for a session that is not `INGAME`. -/
theorem not_proper_of_not_guarded {event : Event} (hnot : ¬ s.Guarded event) :
    ∃ s', s.step event = .ok s' ∧ ¬ s'.Proper := by
  cases event with
  | message p =>
      simp only [Guarded, Classical.not_imp] at hnot
      obtain ⟨hconnected, hungranted, hingame⟩ := hnot
      obtain ⟨handler, hcalled, hacts⟩ := execute_of_ungranted hungranted s.roles
      refine ⟨s.execute p, if_pos hconnected, fun hproper => hingame ?_⟩
      refine hproper.guarded (handler, s.roles) ?_ hacts
      rw [called_execute hcalled]
      exact List.mem_cons_self
  | reply reply => exact (hnot trivial).elim
  | disconnect => exact (hnot trivial).elim

/-! ## Runs -/

/-- Through a run of messages, replies and the end of the connection, the session is `INGAME` exactly
    while the world has its player, and the handlers that act on it are called for such sessions only,
    exactly when the messages of the types that no role is granted for come from such sessions. -/
theorem run_guarded_iff (events : List Event) :
    (∀ before after s, events = before ++ after → run step fresh before = .ok s → s.Proper) ↔
      Admissible step Guarded fresh events :=
  forall_state_iff_admissible (fun _ _ _ h => h.step) (fun _ h => h)
    (fun _ _ _ => not_proper_of_not_guarded) ⟨fresh_ingameIff, by simp [fresh]⟩

/-- A packet of `C2S_PICKUPITEM` without any content. -/
def pickUp : Packet := (Packet.new fun _ => 0).changeType Protocol.pickUpItem.type

/-- The first message of a connection picks up an item. -/
theorem pickUp_unauthorized :
    ∃ s, run step fresh [.message pickUp] = .ok s ∧ s.present = false ∧
      ∃ roles, (Handler.onPickUpItem, roles) ∈ s.called ∧ .ingame ∉ roles := by
  refine ⟨_, rfl, ?_, {.canRequestPrimary}, ?_, ?_⟩
  · decide
  · decide
  · decide

end Presence

end Bango.Session
