import Bango.Parties.Proofs.Membership

set_option autoImplicit false

/-! # The registry of parties

`LeaveParty` takes a party that it dissolves off `m_parties`, and `BanFromParty` does not. The ids of
parties are 32 bits wide, and a party whose id is still taken is not registered at all. A step keeps
the registry in line with the parties exactly when it is neither of these (`Tracked`). -/

namespace Bango.Parties.System

open Bango.Lib

/-- `m_parties` holds the parties that have members, by their ids, and no others. -/
def RegistersParties (s : System) : Prop :=
  ∀ id place, s.registered id = some place ↔
    (s.parties place).id = id ∧ (s.parties place).members ≠ []

/-- The leader of a party of two expels the other member. -/
def ExpelsOnlyOther (s : System) (id banned : UInt32) : Prop :=
  banned ≠ id ∧ s.IsPartyLeader id ∧ banned ∈ s.inWorld ∧
    ∃ place ∈ (s.players id).party, (s.players banned).party = some place ∧
      (s.parties place).members.length = 2

instance (s : System) (id banned : UInt32) : Decidable (s.ExpelsOnlyOther id banned) :=
  inferInstanceAs (Decidable (_ ∧ _ ∧ _ ∧ ∃ place ∈ (s.players id).party, _))

/-- An answer that makes a new party. -/
def FormsParty (s : System) (id : UInt32) (answer : Bool) (inviter : UInt32) (inSight : Bool) :
    Prop :=
  inviter ≠ id ∧ ¬ s.HasParty id ∧ inviter = (s.players id).partyInviterId ∧
    inviter ∈ s.inWorld ∧ inSight = true ∧ answer = true ∧ ¬ s.HasParty inviter

instance (s : System) (id : UInt32) (answer : Bool) (inviter : UInt32) (inSight : Bool) :
    Decidable (s.FormsParty id answer inviter inSight) :=
  inferInstanceAs (Decidable (_ ∧ _ ∧ _ ∧ _ ∧ _ ∧ _ ∧ _))

/-- No party is dissolved by an expulsion, and no party is made while its id is taken. -/
def Tracked (s : System) : Event → Prop
  | .handle id (.banFromParty banned) => id ∈ s.inWorld → ¬ s.ExpelsOnlyOther id banned
  | .handle id (.onAskPartyAnswer answer inviter inSight) =>
    id ∈ s.inWorld → s.FormsParty id answer inviter inSight →
      s.registered (UInt32.ofNat s.made) = none
  | _ => True

variable {s s' : System} {id : UInt32} {place : Nat}

/-! ## Parties that keep members -/

namespace RegistersParties

theorem congr (h : s.RegistersParties) (hregistered : s'.registered = s.registered)
    (hid : ∀ place, (s'.parties place).id = (s.parties place).id)
    (hnil : ∀ place, (s'.parties place).members = [] ↔ (s.parties place).members = []) :
    s'.RegistersParties := by
  intro id place
  rw [hregistered, hid place, Ne, hnil place]
  exact h id place

/-- Nothing that the registry or the parties hold is changed. -/
theorem of_eq (h : s.RegistersParties) (hregistered : s'.registered = s.registered)
    (hparties : s'.parties = s.parties) : s'.RegistersParties :=
  h.congr hregistered (fun _ => by rw [hparties]) (fun _ => by rw [hparties])

end RegistersParties

theorem setPartyAt_id {party : Party} (hid : party.id = (s.parties place).id) (other : Nat) :
    ((s.setPartyAt place party).parties other).id = (s.parties other).id := by
  by_cases hplace : other = place
  · simp [setPartyAt, hplace, hid]
  · simp [setPartyAt, hplace]

theorem setPartyAt_nil {party : Party}
    (hnil : party.members = [] ↔ (s.parties place).members = []) (other : Nat) :
    ((s.setPartyAt place party).parties other).members = [] ↔ (s.parties other).members = [] := by
  by_cases hplace : other = place
  · simp [setPartyAt, hplace, hnil]
  · simp [setPartyAt, hplace]

namespace RegistersParties

theorem withoutMember (h : s.RegistersParties) (id : UInt32)
    (hleft : ((s.withoutMember place id).parties place).members ≠ []) :
    (s.withoutMember place id).RegistersParties := by
  rw [withoutMember_members_self] at hleft
  have hbefore : (s.parties place).members ≠ [] := by
    intro hnil
    rw [hnil] at hleft
    exact hleft rfl
  exact h.congr rfl (setPartyAt_id rfl) (setPartyAt_nil (iff_of_false hleft hbefore))

/-- The last member of a party leaves it, and the party the registry. -/
theorem removeParty (h : s.RegistersParties) {leader : UInt32}
    (hmembers : (s.parties place).members = [leader]) :
    (((s.removeParty place).withoutMember place leader).resetParty leader).RegistersParties := by
  have hself : ((s.removeParty place).withoutMember place leader).parties place =
      ⟨(s.parties place).id, []⟩ := by
    simp [System.withoutMember, setPartyAt, System.removeParty, hmembers]
  have hlast : s.registered (s.parties place).id = some place :=
    (h _ _).2 ⟨rfl, by simp [hmembers]⟩
  intro id other
  have hregistered : (((s.removeParty place).withoutMember place leader).resetParty leader).registered
      = Function.update s.registered (s.parties place).id none := rfl
  rw [resetParty_parties, hregistered]
  by_cases hplace : other = place
  · rw [hplace, hself]
    by_cases hid : id = (s.parties place).id
    · simp [hid]
    · have hother : s.registered id ≠ some place := fun hsome => hid ((h id place).1 hsome).1.symm
      simp [Function.update_of_ne hid, hother]
  · rw [withoutMember_parties_of_ne hplace]
    by_cases hid : id = (s.parties place).id
    · -- The id led to the dissolved party, so to no other one.
      have hother : ¬ ((s.parties other).id = id ∧ (s.parties other).members ≠ []) := by
        rw [← h id other, hid, hlast]
        simpa using Ne.symm hplace
      rw [hid] at hother ⊢
      simpa [System.removeParty] using hother
    · rw [Function.update_of_ne hid]
      exact h id other

end RegistersParties

/-! ## Handlers -/

theorem Sound.left_ne_nil (h : s.Sound) (hparty : (s.players id).party = some place) :
    ((s.withoutMember place id).parties place).members ≠ [] := by
  have hmem := (h.linked.mem_iff id place).2 ⟨hparty, List.not_mem_nil⟩
  have hleft := Party.length_filter_ne (h.linked.nodup place) hmem
  have hone := h.sized.length_ne_one place List.not_mem_nil
  rw [withoutMember_members_self]
  refine List.ne_nil_of_length_pos ?_
  omega

theorem leaveParty_registers (h : s.Sound) (hreg : s.RegistersParties)
    (hleave : s.leaveParty id = .ok s') : s'.RegistersParties := by
  unfold leaveParty at hleave
  cases hparty : (s.players id).party with
  | none =>
      rw [hparty] at hleave
      exact Except.ok.inj hleave ▸ hreg
  | some place =>
      have hmem := (h.linked.mem_iff id place).2 ⟨hparty, List.not_mem_nil⟩
      have hleft := hreg.withoutMember id (h.left_ne_nil hparty)
      have hlinked := h.linked.withoutMember hparty
      have hsized : (s.withoutMember place id).Sized [place] := h.sized.withoutMember
      have hle := hsized.length_le place
      simp only [hparty, removeMember_eq hmem, bind_eq_ok] at hleave
      obtain ⟨left, hremoved, t, hdissolve, ht⟩ := hleave
      rw [← Except.ok.inj hremoved] at hdissolve
      have hkept : t.RegistersParties := by
        by_cases hone : ((s.withoutMember place id).parties place).members.length = 1
        · obtain ⟨leader, hmembers⟩ := List.length_eq_one_iff.1 hone
          rw [dissolve_last hlinked hmembers] at hdissolve
          exact Except.ok.inj hdissolve ▸ hleft.removeParty hmembers
        · rw [dissolve_of_length_ne_one hle hone] at hdissolve
          exact Except.ok.inj hdissolve ▸ hleft
      exact Except.ok.inj ht ▸ hkept.of_eq rfl rfl

theorem leaveParty_leaveWorld_registers (h : s.Sound) (hreg : s.RegistersParties)
    (hleave : (do let s ← s.leaveParty id; return s.leaveWorld id) = .ok s') :
    s'.RegistersParties := by
  obtain ⟨t, ht, hs'⟩ := bind_eq_ok.1 hleave
  exact Except.ok.inj hs' ▸ (leaveParty_registers h hreg ht).of_eq rfl rfl

theorem onAskParty_registers (hreg : s.RegistersParties) (id invited : UInt32) (inSight : Bool) :
    (s.onAskParty id invited inSight).RegistersParties := by
  unfold onAskParty
  repeat' split
  all_goals exact hreg

/-- A new party is registered exactly when its id is free. -/
theorem accept_new_registers_iff (h : s.Sound) (hreg : s.RegistersParties) {inviter : UInt32}
    (hinviter : (s.players inviter).party = none) :
    (s.accept id inviter).RegistersParties ↔ s.registered (UInt32.ofNat s.made) = none := by
  let formed := ((s.makeParty inviter id).setParty inviter s.made).setParty id s.made
  have haccept : s.accept id inviter = formed.addParty s.made := by simp only [accept, hinviter, formed]
  have hself : formed.parties s.made = .make (UInt32.ofNat s.made) inviter id :=
    Function.update_self _ _ _
  have hother : ∀ other, other ≠ s.made → formed.parties other = s.parties other :=
    fun other hplace => Function.update_of_ne hplace _ _
  have hid : (formed.parties s.made).id = UInt32.ofNat s.made := by rw [hself]; rfl
  have hfree : ∀ id, s.registered id ≠ some s.made := fun id hsome =>
    ((hreg id s.made).1 hsome).2 (h.sized.unmade s.made (Nat.le_refl _))
  rw [haccept]
  constructor
  · intro hformed
    by_contra htaken
    have hkept : formed.addParty s.made = formed := by
      unfold addParty
      exact if_neg (by rw [hid]; exact htaken)
    rw [hkept] at hformed
    have hlisted := (hformed (UInt32.ofNat s.made) s.made).2 ⟨hid, by simp [hself, Party.make_members]⟩
    exact hfree _ hlisted
  · intro hnone
    have hadded : formed.addParty s.made = { formed with
        registered := Function.update s.registered (UInt32.ofNat s.made) (some s.made) } := by
      unfold addParty
      rw [if_pos (by rw [hid]; exact hnone), hid]
      rfl
    rw [hadded]
    intro id' place
    dsimp only
    by_cases hplace : place = s.made
    · rw [hplace, hid, hself]
      by_cases hid' : id' = UInt32.ofNat s.made
      · simp [hid', Party.make_members]
      · simp [Function.update_of_ne hid', hfree id', Ne.symm hid']
    · rw [hother place hplace]
      by_cases hid' : id' = UInt32.ofNat s.made
      · -- No party with members had the id before.
        have hnot : ¬ ((s.parties place).id = id' ∧ (s.parties place).members ≠ []) := by
          rw [← hreg id' place, hid', hnone]
          exact nofun
        rw [hid'] at hnot ⊢
        rw [Function.update_self]
        exact iff_of_false (fun hsome => hplace (Option.some.inj hsome).symm) hnot
      · rw [Function.update_of_ne hid']
        exact hreg id' place

theorem accept_join_registers (hreg : s.RegistersParties) {inviter : UInt32}
    (hinviter : (s.players inviter).party = some place) :
    (s.accept id inviter).RegistersParties := by
  simp only [accept, hinviter]
  split
  next hleader =>
      have hmem := hleader.members_ne_nil hinviter
      by_cases hfull : (s.parties place).IsFull
      · simp only [Party.addMember, hfull, if_true]
        exact hreg.congr rfl (setPartyAt_id rfl) (setPartyAt_nil Iff.rfl)
      · simp only [Party.addMember, hfull, if_false, if_true]
        refine hreg.congr rfl (setPartyAt_id rfl) (setPartyAt_nil (iff_of_false ?_ hmem))
        simp
  next => exact hreg

theorem onAskPartyAnswer_registers_iff (h : s.Sound) (hreg : s.RegistersParties) (id : UInt32)
    (answer : Bool) (inviter : UInt32) (inSight : Bool) :
    (s.onAskPartyAnswer id answer inviter inSight).RegistersParties ↔
      (s.FormsParty id answer inviter inSight → s.registered (UInt32.ofNat s.made) = none) := by
  have hreset : (s.resetPartyInviterId id).Sound := setPartyInviterId_sound h id 0
  have hreg' : (s.resetPartyInviterId id).RegistersParties := hreg.of_eq rfl rfl
  by_cases hforms : s.FormsParty id answer inviter inSight
  · obtain ⟨hne, hfree, hasked, hin, hsight, hanswer, hnone⟩ := hforms
    have hinviter : ((s.resetPartyInviterId id).players inviter).party = none := by
      rw [resetPartyInviterId, setPartyInviterId_party]
      exact not_not.1 hnone
    have heq : s.onAskPartyAnswer id answer inviter inSight =
        (s.resetPartyInviterId id).accept id inviter := by
      unfold onAskPartyAnswer
      simp [hne, hfree, ← hasked, hin, hsight, hanswer]
    rw [heq, accept_new_registers_iff hreset hreg' hinviter]
    exact ⟨fun hid _ => hid, fun hid => hid ⟨hne, hfree, hasked, hin, hsight, hanswer, hnone⟩⟩
  · refine iff_of_true ?_ fun h => (hforms h).elim
    unfold onAskPartyAnswer
    repeat' split
    -- What is left is an answer that joins the inviter's party.
    all_goals first | exact hreg | exact hreg' | skip
    next hne hfree hasked hin hsight hanswer =>
      cases hinviter : ((s.resetPartyInviterId id).players inviter).party with
      | some place => exact accept_join_registers hreg' hinviter
      | none =>
          rw [resetPartyInviterId, setPartyInviterId_party] at hinviter
          exact (hforms ⟨hne, hfree, not_not.1 hasked, not_not.1 hin, by simpa using hsight,
            by simpa using hanswer, not_not.2 hinviter⟩).elim

theorem ban_registers_iff (h : s.Sound) (hreg : s.RegistersParties) {banned : UInt32}
    (hne : banned ≠ id) (hid : (s.players id).party = some place)
    (hbanned : (s.players banned).party = some place) (hban : s.ban id banned place = .ok s') :
    s'.RegistersParties ↔ (s.parties place).members.length ≠ 2 := by
  have hmem := (h.linked.mem_iff banned place).2 ⟨hbanned, List.not_mem_nil⟩
  have hlength := Party.length_filter_ne (h.linked.nodup place) hmem
  rw [← withoutMember_members_self] at hlength
  change ((s.expelled place banned).parties place).members.length + 1 = _ at hlength
  have hleft : (s.expelled place banned).RegistersParties :=
    (hreg.withoutMember banned (h.left_ne_nil hbanned)).of_eq rfl rfl
  by_cases hone : ((s.expelled place banned).parties place).members.length = 1
  · rw [ban_last h hne hid hbanned hone] at hban
    refine iff_of_false (fun hafter => ?_) (fun htwo => htwo (by omega))
    have hid' : ((s.expelled place banned).players id).party = some place := by
      rw [expelled_players_of_ne (Ne.symm hne), hid]
    have hmem' := ((h.expelled_linked hbanned).mem_iff id place).2 ⟨hid', List.not_mem_nil⟩
    -- The registry still leads to the party, which the leader has left as the last one.
    have hlisted : s'.registered ((s.expelled place banned).parties place).id = some place := by
      rw [← Except.ok.inj hban]
      exact (hleft _ _).2 ⟨rfl, List.ne_nil_of_mem hmem'⟩
    have hgone := Party.length_filter_ne ((h.expelled_linked hbanned).nodup place) hmem'
    rw [← withoutMember_members_self, hone] at hgone
    have hnil := ((hafter _ _).1 hlisted).2
    rw [← Except.ok.inj hban, resetParty_parties] at hnil
    exact hnil (List.length_eq_zero_iff.1 (by omega))
  · rw [ban_of_length_ne_one h hbanned hone] at hban
    rw [← Except.ok.inj hban]
    exact iff_of_true hleft fun htwo => hone (by omega)

theorem banFromParty_registers_iff (h : s.Sound) (hreg : s.RegistersParties) {banned : UInt32}
    (hban : s.banFromParty id banned = .ok s') :
    s'.RegistersParties ↔ ¬ s.ExpelsOnlyOther id banned := by
  unfold banFromParty at hban
  -- Where the handler does nothing, the ban expels no one.
  have hidle : s' = s → ¬ s.ExpelsOnlyOther id banned →
      (s'.RegistersParties ↔ ¬ s.ExpelsOnlyOther id banned) := by
    intro heq hnot
    rw [heq]
    exact iff_of_true hreg hnot
  split at hban
  next heq => exact hidle (Except.ok.inj hban).symm fun hex => hex.1 heq
  next hne =>
    split at hban
    next hnot => exact hidle (Except.ok.inj hban).symm fun hex => hnot hex.2.1
    next hleader =>
      split at hban
      next hout => exact hidle (Except.ok.inj hban).symm fun hex => hout hex.2.2.1
      next hin =>
        split at hban
        next place other hparty hbanned =>
          split at hban
          next hplace =>
            refine hidle (Except.ok.inj hban).symm fun hex => hplace ?_
            obtain ⟨place', hplace', hother, -⟩ := hex.2.2.2
            rw [hparty, Option.mem_some_iff] at hplace'
            rw [hbanned, ← hplace'] at hother
            exact Option.some.inj hother
          next hplace =>
            rw [not_not.1 hplace] at hbanned
            rw [ban_registers_iff h hreg hne hparty hbanned hban, not_iff_not]
            constructor
            · exact fun htwo => ⟨hne, not_not.1 hleader, not_not.1 hin, place, hparty, hbanned, htwo⟩
            · intro hex
              obtain ⟨place', hplace', -, htwo⟩ := hex.2.2.2
              rw [hparty, Option.mem_some_iff] at hplace'
              rwa [hplace']
        next hnone =>
          refine hidle (Except.ok.inj hban).symm fun hex => ?_
          obtain ⟨place', hplace', hother, -⟩ := hex.2.2.2
          exact hnone place' place' hplace' hother

/-! ## Runs -/

/-- A step keeps the registry in line with the parties exactly when it is tracked. -/
theorem step_registers_iff (h : s.Sound) (hreg : s.RegistersParties) {event : Event}
    (hstep : s.step event = .ok s') : s'.RegistersParties ↔ s.Tracked event := by
  cases event with
  | onStart id => exact iff_of_true (Except.ok.inj hstep ▸ hreg.of_eq rfl rfl) trivial
  | handle id op =>
      by_cases hin : id ∈ s.inWorld
      · rw [step, if_pos hin] at hstep
        cases op with
        | onAskParty invited inSight =>
            exact iff_of_true (Except.ok.inj hstep ▸ onAskParty_registers hreg id invited inSight)
              trivial
        | onAskPartyAnswer answer inviter inSight =>
            rw [← Except.ok.inj hstep, onAskPartyAnswer_registers_iff h hreg]
            exact (imp_iff_right hin).symm
        | onLeaveParty => exact iff_of_true (leaveParty_registers h hreg hstep) trivial
        | banFromParty banned =>
            rw [banFromParty_registers_iff h hreg hstep]
            exact (imp_iff_right hin).symm
        | onRestart ask =>
            refine iff_of_true ?_ trivial
            cases ask with
            | true => exact Except.ok.inj hstep ▸ hreg
            | false => exact leaveParty_leaveWorld_registers h hreg hstep
        | onDisconnected => exact iff_of_true (leaveParty_leaveWorld_registers h hreg hstep) trivial
      · rw [step, if_neg hin] at hstep
        refine iff_of_true (Except.ok.inj hstep ▸ hreg) ?_
        cases op with
        | onAskPartyAnswer _ _ _ | banFromParty _ => exact fun h => (hin h).elim
        | onAskParty _ _ | onLeaveParty | onRestart _ | onDisconnected => trivial

theorem empty_registers : empty.RegistersParties := by
  intro id place
  simp [empty]

/-- The registry holds exactly the parties that have members, throughout a run, exactly when each
    step of the run is tracked. -/
theorem run_registers_iff (events : List Event) :
    (∀ before after s, events = before ++ after → run step empty before = .ok s →
      s.RegistersParties) ↔ Admissible step Tracked empty events := by
  have hkept : ∀ (s : System) event s', (s.Sound ∧ s.RegistersParties) → s.Tracked event →
      s.step event = .ok s' → s'.Sound ∧ s'.RegistersParties := by
    intro s event s' ⟨hsound, hreg⟩ htracked hstep
    obtain ⟨t, ht, hsound'⟩ := step_spec hsound event
    rw [hstep] at ht
    rw [← Except.ok.inj ht] at hsound'
    exact ⟨hsound', (step_registers_iff hsound hreg hstep).2 htracked⟩
  have hlost : ∀ (s : System) event, (s.Sound ∧ s.RegistersParties) → ¬ s.Tracked event →
      ∃ s', s.step event = .ok s' ∧ ¬ s'.RegistersParties := by
    intro s event ⟨hsound, hreg⟩ hnot
    obtain ⟨s', hs', -⟩ := step_spec hsound event
    exact ⟨s', hs', fun hreg' => hnot ((step_registers_iff hsound hreg hs').1 hreg')⟩
  exact forall_state_iff_admissible hkept (fun s hs => hs.2) hlost ⟨empty_sound, empty_registers⟩

/-- A party of two that is dissolved by an expulsion stays registered. -/
theorem expelled_party_stays_registered :
    ¬ ∀ s, run step empty [.onStart 1, .onStart 2, .handle 1 (.onAskParty 2 true),
      .handle 2 (.onAskPartyAnswer true 1 true), .handle 1 (.banFromParty 2)] = .ok s →
        s.RegistersParties := by
  intro h
  have hlisted := h _ rfl 0 0
  exact (hlisted.1 (by decide)).2 (by decide)

end Bango.Parties.System
