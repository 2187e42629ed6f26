import Bango.Parties.Proofs.Membership

set_option autoImplicit false

/-! # The two records of a party

A player has a pointer to its party and the party's id. Both are set and reset together, so in every
state the id is that of the party pointed to, or 0; and since ids are counted up from 0, the id of a
party is its number modulo 2^32. Who is in a party is in the world. -/

namespace Bango.Parties.System

open Bango.Lib

variable {s s' t : System} {id : UInt32} {place : Nat}

/-- What `m_party_id` should be, by the pointer. -/
def idOfParty (party : Option Nat) : UInt32 := (party.map UInt32.ofNat).getD 0

/-- The ids are those of the parties pointed to. -/
structure Encoded (s : System) : Prop where
  id_eq : ∀ place, (s.parties place).id = UInt32.ofNat place
  partyId_eq : ∀ id, (s.players id).partyId = idOfParty (s.players id).party
  inWorld : ∀ id, s.HasParty id → id ∈ s.inWorld

/-- Some players have left their parties, and nothing else has changed for any of them. -/
structure Sheds (s s' : System) : Prop where
  id_eq : ∀ place, (s'.parties place).id = (s.parties place).id
  player : ∀ id, ((s'.players id).party = (s.players id).party ∧
      (s'.players id).partyId = (s.players id).partyId) ∨
    ((s'.players id).party = none ∧ (s'.players id).partyId = 0)
  inWorld : s'.inWorld = s.inWorld

namespace Sheds

theorem refl (s : System) : s.Sheds s := ⟨fun _ => rfl, fun _ => .inl ⟨rfl, rfl⟩, rfl⟩

theorem trans (h : s.Sheds t) (h' : t.Sheds s') : s.Sheds s' where
  id_eq place := (h'.id_eq place).trans (h.id_eq place)
  player id := by
    rcases h'.player id with ⟨hparty, hid⟩ | hnone
    · rw [hparty, hid]
      exact h.player id
    · exact .inr hnone
  inWorld := h'.inWorld.trans h.inWorld

theorem encoded (h : s.Sheds s') (hs : s.Encoded) : s'.Encoded where
  id_eq place := (h.id_eq place).trans (hs.id_eq place)
  partyId_eq id := by
    rcases h.player id with ⟨hparty, hid⟩ | ⟨hparty, hid⟩
    · rw [hparty, hid]
      exact hs.partyId_eq id
    · rw [hparty, hid]
      rfl
  inWorld id hparty := by
    rw [h.inWorld]
    rcases h.player id with ⟨heq, -⟩ | ⟨hnone, -⟩
    · exact hs.inWorld id (by rwa [HasParty, heq] at hparty)
    · exact absurd hnone hparty

theorem resetParty (s : System) (id : UInt32) : s.Sheds (s.resetParty id) where
  id_eq _ := rfl
  player other := by
    by_cases hid : other = id
    · rw [hid]
      exact .inr (by simp [System.resetParty, setPlayer])
    · rw [resetParty_players_of_ne hid]
      exact .inl ⟨rfl, rfl⟩
  inWorld := rfl

theorem setPartyInviterId (s : System) (id inviter : UInt32) :
    s.Sheds (s.setPartyInviterId id inviter) where
  id_eq _ := rfl
  player other := by
    by_cases hid : other = id
    · rw [hid]
      exact .inl (by simp [System.setPartyInviterId, setPlayer])
    · exact .inl (by simp [System.setPartyInviterId, setPlayer, Function.update_of_ne hid])
  inWorld := rfl

theorem removeParty (s : System) (place : Nat) : s.Sheds (s.removeParty place) :=
  ⟨fun _ => rfl, fun _ => .inl ⟨rfl, rfl⟩, rfl⟩

theorem removeMember (h : s.removeMember place id = .ok s') : s.Sheds s' := by
  obtain ⟨party, hparty, hs'⟩ := bind_eq_ok.1 h
  cases hs'
  refine ⟨fun other => ?_, fun _ => .inl ⟨rfl, rfl⟩, rfl⟩
  unfold Party.removeMember at hparty
  split_ifs at hparty
  cases hparty
  by_cases hother : other = place
  · simp [setPartyAt, hother]
  · simp [setPartyAt, Function.update_of_ne hother]

theorem dissolve (h : s.dissolve place = .ok s') : s.Sheds s' := by
  unfold System.dissolve at h
  split_ifs at h
  · split at h
    · cases h
    · next leader _ =>
        split at h
        · cases h
          exact refl s
        · next ofLeader _ =>
            obtain ⟨t, ht, hs'⟩ := bind_eq_ok.1 h
            cases hs'
            exact ((removeParty s ofLeader).trans (removeMember ht)).trans (resetParty t leader)
  · cases h
    exact refl s

theorem leaveParty (h : s.leaveParty id = .ok s') : s.Sheds s' := by
  unfold System.leaveParty at h
  split at h
  · cases h
    exact refl s
  · obtain ⟨t, ht, h⟩ := bind_eq_ok.1 h
    obtain ⟨u, hu, hs'⟩ := bind_eq_ok.1 h
    cases hs'
    exact ((removeMember ht).trans (dissolve hu)).trans (resetParty u id)

theorem ban {banned : UInt32} (h : s.ban id banned place = .ok s') : s.Sheds s' := by
  obtain ⟨t, ht, h⟩ := bind_eq_ok.1 h
  have hfirst : s.Sheds (t.resetParty banned) := (removeMember ht).trans (resetParty t banned)
  dsimp only at h
  split_ifs at h
  · obtain ⟨u, hu, hs'⟩ := bind_eq_ok.1 h
    cases hs'
    exact (hfirst.trans (removeMember hu)).trans (resetParty u id)
  · cases h
    exact hfirst

theorem banFromParty {banned : UInt32} (h : s.banFromParty id banned = .ok s') : s.Sheds s' := by
  unfold System.banFromParty at h
  split_ifs at h
  · cases h
    exact refl s
  · split at h
    · split_ifs at h
      · cases h
        exact refl s
      · exact ban h
    · cases h
      exact refl s
  · cases h
    exact refl s
  · cases h
    exact refl s

theorem onAskParty (s : System) (id invited : UInt32) (inSight : Bool) :
    s.Sheds (s.onAskParty id invited inSight) := by
  unfold System.onAskParty
  split_ifs
  · exact refl s
  · exact refl s
  · exact refl s
  · exact setPartyInviterId s invited id
  · exact refl s
  · exact refl s

end Sheds

/-! ## Handlers -/

theorem leaveParty_party_self (h : s.leaveParty id = .ok s') : (s'.players id).party = none := by
  unfold leaveParty at h
  split at h
  · next hnone =>
      cases h
      exact hnone
  · obtain ⟨t, -, h⟩ := bind_eq_ok.1 h
    obtain ⟨u, -, hs'⟩ := bind_eq_ok.1 h
    cases hs'
    exact resetParty_party_self

namespace Encoded

theorem leaveWorld (h : s.Encoded) (hnone : (s.players id).party = none) :
    (s.leaveWorld id).Encoded where
  id_eq := h.id_eq
  partyId_eq := h.partyId_eq
  inWorld other hparty := by
    have hne : other ≠ id := by
      rintro rfl
      exact hparty hnone
    exact Finset.mem_erase.2 ⟨hne, h.inWorld other hparty⟩

theorem leaveParty_leaveWorld (h : s.Encoded)
    (hok : (do let s ← s.leaveParty id; return s.leaveWorld id) = .ok s') : s'.Encoded := by
  obtain ⟨t, ht, hs'⟩ := bind_eq_ok.1 hok
  cases hs'
  exact ((Sheds.leaveParty ht).encoded h).leaveWorld (leaveParty_party_self ht)

theorem setPartyAt (h : s.Encoded) {party : Party} (hid : party.id = UInt32.ofNat place) :
    (s.setPartyAt place party).Encoded where
  id_eq other := by
    by_cases hother : other = place
    · simp [System.setPartyAt, hother, hid]
    · simp [System.setPartyAt, Function.update_of_ne hother, h.id_eq]
  partyId_eq := h.partyId_eq
  inWorld := h.inWorld

theorem setParty (h : s.Encoded) (place : Nat) (hworld : id ∈ s.inWorld) :
    (s.setParty id place).Encoded where
  id_eq := h.id_eq
  partyId_eq other := by
    by_cases hother : other = id
    · rw [hother]
      simp [System.setParty, setPlayer, idOfParty, h.id_eq]
    · simp [System.setParty, setPlayer, Function.update_of_ne hother, h.partyId_eq]
  inWorld other hparty := by
    by_cases hother : other = id
    · rw [hother]
      exact hworld
    · have hplayer : (s.setParty id place).players other = s.players other := by
        simp [System.setParty, setPlayer, Function.update_of_ne hother]
      rw [HasParty, hplayer] at hparty
      exact h.inWorld other hparty

theorem addParty (h : s.Encoded) (place : Nat) : (s.addParty place).Encoded := by
  unfold System.addParty
  dsimp only
  split_ifs
  · exact ⟨h.id_eq, h.partyId_eq, h.inWorld⟩
  · exact h

theorem makeParty (h : s.Encoded) (leader player : UInt32) : (s.makeParty leader player).Encoded := by
  have hmade : (s.setPartyAt s.made (Party.make (UInt32.ofNat s.made) leader player)).Encoded :=
    h.setPartyAt rfl
  exact ⟨hmade.id_eq, hmade.partyId_eq, hmade.inWorld⟩

/-- Both players are in the world when one accepts what the other has asked. -/
theorem accept (h : s.Encoded) {inviter : UInt32} (hid : id ∈ s.inWorld)
    (hinviter : inviter ∈ s.inWorld) : (s.accept id inviter).Encoded := by
  unfold System.accept
  split
  · exact (((h.makeParty inviter id).setParty s.made hinviter).setParty s.made hid).addParty s.made
  · next place _ =>
      split_ifs
      · have hadded : ((s.parties place).addMember id).1.id = UInt32.ofNat place := by
          rw [← h.id_eq place]
          unfold Party.addMember
          split_ifs
          · rfl
          · rfl
        have hjoined := h.setPartyAt hadded
        dsimp only
        split_ifs
        · exact hjoined.setParty place hid
        · exact hjoined
      · exact h

theorem onAskPartyAnswer (h : s.Encoded) (answer : Bool) (inviter : UInt32) (inSight : Bool)
    (hid : id ∈ s.inWorld) : (s.onAskPartyAnswer id answer inviter inSight).Encoded := by
  have hreset : (s.resetPartyInviterId id).Encoded :=
    (Sheds.setPartyInviterId s id 0).encoded h
  unfold System.onAskPartyAnswer
  split
  · exact h
  · split
    · exact h
    · split
      · exact h
      · split
        · exact h
        · next hinviter =>
            dsimp only
            split
            · exact hreset
            · split
              · exact hreset
              · exact hreset.accept hid (not_not.1 hinviter)

theorem handle (h : s.Encoded) (hid : id ∈ s.inWorld) {op : Op}
    (hok : s.handle id op = .ok s') : s'.Encoded := by
  cases op with
  | onAskParty invited inSight =>
      cases hok
      exact (Sheds.onAskParty s id invited inSight).encoded h
  | onAskPartyAnswer answer inviter inSight =>
      cases hok
      exact h.onAskPartyAnswer answer inviter inSight hid
  | onLeaveParty => exact (Sheds.leaveParty hok).encoded h
  | banFromParty banned => exact (Sheds.banFromParty hok).encoded h
  | onRestart ask =>
      cases ask with
      | true =>
          cases hok
          exact h
      | false => exact h.leaveParty_leaveWorld hok
  | onDisconnected => exact h.leaveParty_leaveWorld hok

theorem step (h : s.Encoded) {event : Event} (hok : s.step event = .ok s') : s'.Encoded := by
  cases event with
  | onStart id =>
      cases hok
      refine ⟨h.id_eq, h.partyId_eq, fun other hparty => ?_⟩
      exact Finset.mem_insert_of_mem (h.inWorld other hparty)
  | handle id op =>
      unfold System.step at hok
      dsimp only at hok
      split_ifs at hok with hid
      · exact h.handle hid hok
      · cases hok
        exact h

end Encoded

/-! ## Runs -/

theorem empty_encoded : empty.Encoded :=
  ⟨fun _ => rfl, fun _ => rfl, fun _ hparty => absurd rfl hparty⟩

theorem run_encoded {events : List Event} (hrun : run step empty events = .ok s) : s.Encoded :=
  run_preserves (fun _ _ _ h hok => h.step hok) empty_encoded hrun

end Bango.Parties.System
