import Bango.Parties.System

set_option autoImplicit false

/-! # Who is in which party

A member is taken off a party's list before its pointer is reset, and the dissolution of a party of
two nests one such removal in another. In between the lists and the pointers agree but for the
players on the way out (`Linked`). -/

namespace Bango.Parties

open Bango.Lib

/-! ## A party -/

namespace Party

variable {party : Party} {id : UInt32}

theorem getSize_toNat (h : party.members.length ≤ maxPartySize.toNat) :
    party.getSize.toNat = party.members.length := by
  have hlt : party.members.length < 2 ^ 8 := Nat.lt_of_le_of_lt h (by decide)
  unfold getSize
  rw [UInt8.toNat_ofNat', Nat.mod_eq_of_lt hlt]

theorem getSize_eq_one (h : party.members.length ≤ maxPartySize.toNat) :
    party.getSize = 1 ↔ party.members.length = 1 := by
  rw [← getSize_toNat h, ← UInt8.toNat_inj]
  rfl

theorem isFull_iff (h : party.members.length ≤ maxPartySize.toNat) :
    party.IsFull ↔ party.members.length = maxPartySize.toNat := by
  unfold IsFull
  rw [UInt8.le_iff_toNat_le, getSize_toNat h]
  omega

theorem make_members (id leader player : UInt32) :
    (Party.make id leader player).members = [leader, player] := rfl

theorem removeMember_ok (h : id ∈ party.members) :
    party.removeMember id = .ok { party with members := party.members.filter (· ≠ id) } :=
  if_pos h

theorem length_filter_ne (hnodup : party.members.Nodup) (h : id ∈ party.members) :
    (party.members.filter (· ≠ id)).length + 1 = party.members.length := by
  have herase : party.members.filter (· ≠ id) = party.members.erase id := by
    rw [hnodup.erase_eq_filter]
    exact List.filter_congr fun x _ => by simp [bne, beq_eq_decide]
  rw [herase, List.length_erase_of_mem h]
  exact Nat.succ_pred_eq_of_pos (List.length_pos_of_mem h)

end Party

namespace System

variable {s : System} {id : UInt32} {place : Nat}

/-! ## Lists and pointers -/

/-- The lists of members and the pointers agree, but for the players on the way out: these are on no
    list any more. -/
structure Linked (s : System) (leaving : List UInt32) : Prop where
  mem_iff : ∀ id place, id ∈ (s.parties place).members ↔
    (s.players id).party = some place ∧ id ∉ leaving
  nodup : ∀ place, (s.parties place).members.Nodup

/-- Parties have between 2 and `MAX_PARTY_SIZE` members, or none, but for those that are shrinking.
    Parties to be made have none. -/
structure Sized (s : System) (shrinking : List Nat) : Prop where
  length_ne_one : ∀ place, place ∉ shrinking → (s.parties place).members.length ≠ 1
  length_le : ∀ place, (s.parties place).members.length ≤ maxPartySize.toNat
  unmade : ∀ place, s.made ≤ place → (s.parties place).members = []

/-- The system without a member of a party. -/
def withoutMember (s : System) (place : Nat) (id : UInt32) : System :=
  s.setPartyAt place
    { s.parties place with members := (s.parties place).members.filter (· ≠ id) }

@[simp]
theorem withoutMember_players : (s.withoutMember place id).players = s.players := rfl

theorem withoutMember_members_self :
    ((s.withoutMember place id).parties place).members =
      (s.parties place).members.filter (· ≠ id) := by
  simp [withoutMember, setPartyAt]

theorem withoutMember_parties_of_ne {other : Nat} (h : other ≠ place) :
    (s.withoutMember place id).parties other = s.parties other :=
  Function.update_of_ne h _ _

@[simp]
theorem resetParty_parties : (s.resetParty id).parties = s.parties := rfl

theorem resetParty_party_self : ((s.resetParty id).players id).party = none := by
  simp [resetParty, setPlayer]

theorem resetParty_players_of_ne {other : UInt32} (h : other ≠ id) :
    (s.resetParty id).players other = s.players other :=
  Function.update_of_ne h _ _

theorem removeMember_eq (h : id ∈ (s.parties place).members) :
    s.removeMember place id = .ok (s.withoutMember place id) := by
  unfold removeMember
  rw [Party.removeMember_ok h]
  rfl

namespace Linked

variable {leaving : List UInt32}

/-- A member is taken off its party's list. -/
theorem withoutMember (h : s.Linked leaving) (hparty : (s.players id).party = some place) :
    (s.withoutMember place id).Linked (id :: leaving) where
  mem_iff other at' := by
    rw [withoutMember_players, List.mem_cons, not_or]
    by_cases hat : at' = place
    · rw [hat, withoutMember_members_self, List.mem_filter, h.mem_iff, decide_eq_true_eq]
      tauto
    · rw [withoutMember_parties_of_ne hat, h.mem_iff]
      constructor
      · intro hmem
        refine ⟨hmem.1, fun hid => hat ?_, hmem.2⟩
        rw [hid, hparty] at hmem
        exact (Option.some.inj hmem.1).symm
      · exact fun hmem => ⟨hmem.1, hmem.2.2⟩
  nodup at' := by
    by_cases hat : at' = place
    · rw [hat, withoutMember_members_self]
      exact (h.nodup place).filter _
    · rw [withoutMember_parties_of_ne hat]
      exact h.nodup at'

/-- A player on the way out forgets its party. -/
theorem resetParty (h : s.Linked (id :: leaving)) : (s.resetParty id).Linked leaving where
  mem_iff other place := by
    rw [resetParty_parties, h.mem_iff, List.mem_cons, not_or]
    by_cases hid : other = id
    · rw [hid, resetParty_party_self]
      simp
    · rw [resetParty_players_of_ne hid]
      tauto
  nodup place := h.nodup place

/-- Only the lists and the pointers matter. -/
theorem congr {s' : System} (h : s.Linked leaving) (hparties : s'.parties = s.parties)
    (hplayers : ∀ id, (s'.players id).party = (s.players id).party) : s'.Linked leaving where
  mem_iff id place := by
    rw [hparties, hplayers]
    exact h.mem_iff id place
  nodup place := by
    rw [hparties]
    exact h.nodup place

/-- Players without a party join one: they come to the end of its list, and point to it. -/
theorem join {s' : System} (h : s.Linked []) (place : Nat) (added : List UInt32)
    (hadded : added.Nodup)
    (hfree : ∀ id ∈ added, (s.players id).party = none)
    (hself : (s'.parties place).members = (s.parties place).members ++ added)
    (hother : ∀ other, other ≠ place → s'.parties other = s.parties other)
    (hin : ∀ id ∈ added, (s'.players id).party = some place)
    (hout : ∀ id, id ∉ added → (s'.players id).party = (s.players id).party) : s'.Linked [] := by
  have hnot : ∀ id ∈ added, ∀ other, id ∉ (s.parties other).members := by
    -- Its list would be one that its pointer leads to.
    intro id hid other hmem
    have hparty := ((h.mem_iff id other).1 hmem).1
    rw [hfree id hid] at hparty
    cases hparty
  constructor
  · intro id other
    by_cases hid : id ∈ added
    · rw [hin id hid]
      by_cases hplace : other = place
      · simp [hplace, hself, hid]
      · simp [hother other hplace, hnot id hid other, Ne.symm hplace]
    · rw [hout id hid]
      by_cases hplace : other = place
      · simp [hplace, hself, hid, h.mem_iff]
      · rw [hother other hplace, h.mem_iff]
  · intro other
    by_cases hplace : other = place
    · rw [hplace, hself, List.nodup_append]
      refine ⟨h.nodup place, hadded, fun id hid other' hother' heq => ?_⟩
      exact hnot other' hother' place (heq ▸ hid)
    · rw [hother other hplace]
      exact h.nodup other

end Linked

/-! ## Sizes -/

namespace Sized

variable {shrinking : List Nat}

theorem withoutMember (h : s.Sized shrinking) :
    (s.withoutMember place id).Sized (place :: shrinking) where
  length_ne_one other hother := by
    rw [List.mem_cons, not_or] at hother
    rw [withoutMember_parties_of_ne hother.1]
    exact h.length_ne_one other hother.2
  length_le other := by
    by_cases hplace : other = place
    · rw [hplace, withoutMember_members_self]
      exact Nat.le_trans (List.length_filter_le _ _) (h.length_le place)
    · rw [withoutMember_parties_of_ne hplace]
      exact h.length_le other
  unmade other hmade := by
    by_cases hplace : other = place
    · rw [hplace] at hmade ⊢
      rw [withoutMember_members_self, h.unmade place hmade, List.filter_nil]
    · rw [withoutMember_parties_of_ne hplace]
      exact h.unmade other hmade

/-- A party has shrunk to a size that it may keep. -/
theorem settle (h : s.Sized (place :: shrinking))
    (hlength : (s.parties place).members.length ≠ 1) : s.Sized shrinking where
  length_ne_one other hother := by
    by_cases hplace : other = place
    · rwa [hplace]
    · exact h.length_ne_one other (List.not_mem_cons_of_ne_of_not_mem hplace hother)
  length_le := h.length_le
  unmade := h.unmade

theorem congr {s' : System} (h : s.Sized shrinking) (hparties : s'.parties = s.parties)
    (hmade : s'.made = s.made) : s'.Sized shrinking where
  length_ne_one := hparties ▸ h.length_ne_one
  length_le := hparties ▸ h.length_le
  unmade := hparties ▸ hmade ▸ h.unmade

/-- A party gets new members, but not too many. -/
theorem join {s' : System} (h : s.Sized []) (place : Nat) (hmade : place < s'.made)
    (hle : s.made ≤ s'.made)
    (hother : ∀ other, other ≠ place → s'.parties other = s.parties other)
    (hone : (s'.parties place).members.length ≠ 1)
    (hlength : (s'.parties place).members.length ≤ maxPartySize.toNat) : s'.Sized [] where
  length_ne_one other _ := by
    by_cases hplace : other = place
    · rwa [hplace]
    · rw [hother other hplace]
      exact h.length_ne_one other List.not_mem_nil
  length_le other := by
    by_cases hplace : other = place
    · rwa [hplace]
    · rw [hother other hplace]
      exact h.length_le other
  unmade other hunmade := by
    have hplace : other ≠ place := Nat.ne_of_gt (Nat.lt_of_lt_of_le hmade hunmade)
    rw [hother other hplace]
    exact h.unmade other (Nat.le_trans hle hunmade)

end Sized

/-! ## Handlers -/

/-- The lists and the pointers agree, and no party is too small or too large. -/
structure Sound (s : System) : Prop where
  linked : s.Linked []
  sized : s.Sized []

theorem Sound.congr {s' : System} (h : s.Sound) (hparties : s'.parties = s.parties)
    (hmade : s'.made = s.made) (hplayers : ∀ id, (s'.players id).party = (s.players id).party) :
    s'.Sound :=
  ⟨h.linked.congr hparties hplayers, h.sized.congr hparties hmade⟩

theorem dissolve_last {leaving : List UInt32} {leader : UInt32} (hlinked : s.Linked leaving)
    (hmembers : (s.parties place).members = [leader]) :
    s.dissolve place = .ok (((s.removeParty place).withoutMember place leader).resetParty leader) := by
  -- The leader's pointer is not null, and leads to this party.
  have hmem : leader ∈ (s.parties place).members := by simp [hmembers]
  have hparty := ((hlinked.mem_iff leader place).1 hmem).1
  have hone : (s.parties place).getSize = 1 := by simp [Party.getSize, hmembers]
  have hremoved : (s.removeParty place).removeMember place leader =
      .ok ((s.removeParty place).withoutMember place leader) := removeMember_eq hmem
  unfold dissolve
  rw [if_pos hone]
  simp only [Party.getLeader, hmembers, List.head?_cons, hparty]
  rw [hremoved]
  rfl

theorem dissolve_of_length_ne_one (hle : (s.parties place).members.length ≤ maxPartySize.toNat)
    (h : (s.parties place).members.length ≠ 1) : s.dissolve place = .ok s := by
  unfold dissolve
  rw [if_neg (mt (Party.getSize_eq_one hle).1 h)]

/-- The last member of a party leaves it, and a larger party stays as it is. -/
theorem dissolve_spec {leaving : List UInt32} (hlinked : s.Linked leaving)
    (hsized : s.Sized [place]) :
    ∃ s', s.dissolve place = .ok s' ∧ s'.Linked leaving ∧ s'.Sized [] := by
  by_cases hone : (s.parties place).members.length = 1
  · obtain ⟨leader, hmembers⟩ := List.length_eq_one_iff.1 hone
    have hmem : leader ∈ (s.parties place).members := by simp [hmembers]
    have hparty := ((hlinked.mem_iff leader place).1 hmem).1
    refine ⟨_, dissolve_last hlinked hmembers, ?_, ?_⟩
    · have hlinked' : (s.removeParty place).Linked leaving := hlinked.congr rfl fun _ => rfl
      exact (hlinked'.withoutMember hparty).resetParty
    · have hsized' : (s.removeParty place).Sized [place] := hsized.congr rfl rfl
      have hgone : (((s.removeParty place).withoutMember place leader).parties place).members.length
          ≠ 1 := by
        rw [withoutMember_members_self]
        simp [removeParty, hmembers]
      exact ((hsized'.withoutMember.settle hgone).settle hgone).congr rfl rfl
  · exact ⟨s, dissolve_of_length_ne_one (hsized.length_le place) hone, hlinked, hsized.settle hone⟩

theorem leaveParty_spec (h : s.Sound) (id : UInt32) :
    ∃ s', s.leaveParty id = .ok s' ∧ s'.Sound := by
  unfold leaveParty
  cases hparty : (s.players id).party with
  | none => exact ⟨s, rfl, h⟩
  | some place =>
      have hmem := (h.linked.mem_iff id place).2 ⟨hparty, List.not_mem_nil⟩
      obtain ⟨s', hdissolve, hlinked, hsized⟩ :=
        dissolve_spec (h.linked.withoutMember hparty) h.sized.withoutMember
      refine ⟨s'.resetParty id, ?_, hlinked.resetParty, hsized.congr rfl rfl⟩
      simp only [removeMember_eq hmem, bind_eq_ok]
      exact ⟨_, rfl, s', hdissolve, rfl⟩

theorem leaveParty_leaveWorld_spec (h : s.Sound) (id : UInt32) :
    ∃ s', (do let s ← s.leaveParty id; return s.leaveWorld id) = .ok s' ∧ s'.Sound := by
  obtain ⟨s', hleave, hsound⟩ := leaveParty_spec h id
  refine ⟨s'.leaveWorld id, ?_, hsound.congr rfl rfl fun _ => rfl⟩
  rw [hleave]
  rfl

theorem setPartyInviterId_party (id inviter other : UInt32) :
    ((s.setPartyInviterId id inviter).players other).party = (s.players other).party := by
  by_cases hid : other = id
  · simp [hid, setPartyInviterId, setPlayer]
  · simp [setPartyInviterId, setPlayer, Function.update_of_ne hid]

theorem setPartyInviterId_sound (h : s.Sound) (id inviter : UInt32) :
    (s.setPartyInviterId id inviter).Sound :=
  h.congr rfl rfl (setPartyInviterId_party id inviter)

theorem onAskParty_sound (h : s.Sound) (id invited : UInt32) (inSight : Bool) :
    (s.onAskParty id invited inSight).Sound := by
  unfold onAskParty
  repeat' split
  all_goals first | exact h | exact setPartyInviterId_sound h invited id

/-- A new party is at a place that no list and no pointer has led to yet. -/
theorem accept_new_sound (h : s.Sound) {inviter : UInt32} (hne : inviter ≠ id)
    (hid : (s.players id).party = none) (hinviter : (s.players inviter).party = none) :
    (((s.makeParty inviter id).setParty inviter s.made).setParty id s.made).Sound := by
  have hempty := h.sized.unmade s.made (Nat.le_refl _)
  have hself : (((s.makeParty inviter id).setParty inviter s.made).setParty id s.made).parties s.made
      = .make (UInt32.ofNat s.made) inviter id := Function.update_self _ _ _
  have hother : ∀ other, other ≠ s.made →
      (((s.makeParty inviter id).setParty inviter s.made).setParty id s.made).parties other =
        s.parties other := fun other hplace => Function.update_of_ne hplace _ _
  refine ⟨h.linked.join s.made [inviter, id] ?_ ?_ ?_ hother ?_ ?_,
    h.sized.join s.made (Nat.lt_succ_self s.made) (Nat.le_succ s.made) hother ?_ ?_⟩
  · simpa using hne
  · simp [hid, hinviter]
  · rw [hself, Party.make_members, hempty]
    rfl
  · simp [setParty, setPlayer, hne]
  · intro other hnot
    simp only [List.mem_cons, List.not_mem_nil, or_false, not_or] at hnot
    simp [setParty, setPlayer, makeParty, setPartyAt, hnot.1, hnot.2]
  · simp [hself, Party.make_members]
  · simp [hself, Party.make_members, maxPartySize]

/-- A player joins a party that has members already and is not full. -/
theorem accept_join_sound (h : s.Sound) (hid : (s.players id).party = none)
    (hmem : (s.parties place).members ≠ []) (hroom : ¬ (s.parties place).IsFull) :
    ((s.setPartyAt place
      { s.parties place with members := (s.parties place).members ++ [id] }).setParty id place).Sound := by
  have hmade : place < s.made := Nat.lt_of_not_le fun hle => hmem (h.sized.unmade place hle)
  have hle := h.sized.length_le place
  rw [Party.isFull_iff hle] at hroom
  have hpos := List.length_pos_iff.2 hmem
  refine ⟨h.linked.join place [id] (List.nodup_singleton id) ?_ ?_ ?_ ?_ ?_,
    h.sized.join place hmade (Nat.le_refl _) ?_ ?_ ?_⟩
  · simpa using hid
  · simp [setParty, setPlayer, setPartyAt]
  · exact fun other hplace => Function.update_of_ne hplace _ _
  · simp [setParty, setPlayer]
  · intro other hnot
    rw [List.mem_singleton] at hnot
    simp [setParty, setPlayer, setPartyAt, hnot]
  · exact fun other hplace => Function.update_of_ne hplace _ _
  · simp [setParty, setPlayer, setPartyAt]
    omega
  · simp [setParty, setPlayer, setPartyAt]
    omega

theorem IsPartyLeader.members_ne_nil (h : s.IsPartyLeader id)
    (hparty : (s.players id).party = some place) : (s.parties place).members ≠ [] := by
  obtain ⟨place', hplace, hleader⟩ := h
  rw [hparty, Option.mem_some_iff] at hplace
  intro hnil
  simp [Party.IsLeader, Party.getLeader, ← hplace, hnil] at hleader

theorem accept_sound (h : s.Sound) {inviter : UInt32} (hne : inviter ≠ id)
    (hid : (s.players id).party = none) : (s.accept id inviter).Sound := by
  unfold accept
  cases hinviter : (s.players inviter).party with
  | none =>
      refine (accept_new_sound h hne hid hinviter).congr ?_ ?_ ?_
      all_goals
        unfold addParty
        dsimp only
        split <;> intros <;> rfl
  | some place =>
      dsimp only
      split
      next hleader =>
          by_cases hfull : (s.parties place).IsFull
          · simp only [Party.addMember, hfull, if_true]
            exact h.congr (Function.update_eq_self place s.parties) rfl fun _ => rfl
          · simp only [Party.addMember, hfull, if_false, if_true]
            exact accept_join_sound h hid (hleader.members_ne_nil hinviter) hfull
      next => exact h

theorem onAskPartyAnswer_sound (h : s.Sound) (id : UInt32) (answer : Bool) (inviter : UInt32)
    (inSight : Bool) : (s.onAskPartyAnswer id answer inviter inSight).Sound := by
  have hreset : (s.resetPartyInviterId id).Sound := setPartyInviterId_sound h id 0
  unfold onAskPartyAnswer
  split
  next => exact h
  next hne =>
      split
      next => exact h
      next hfree =>
          have hid : ((s.resetPartyInviterId id).players id).party = none := by
            rw [resetPartyInviterId, setPartyInviterId_party]
            exact not_not.1 hfree
          repeat' split
          all_goals first | exact h | exact hreset | exact accept_sound hreset hne hid

/-- The system after a player has been expelled, before its party is looked at. -/
def expelled (s : System) (place : Nat) (banned : UInt32) : System :=
  (s.withoutMember place banned).resetParty banned

theorem expelled_players_of_ne {banned : UInt32} (h : id ≠ banned) :
    (s.expelled place banned).players id = s.players id :=
  resetParty_players_of_ne h

theorem Sound.expelled_linked (h : s.Sound) {banned : UInt32}
    (hbanned : (s.players banned).party = some place) : (s.expelled place banned).Linked [] :=
  (h.linked.withoutMember hbanned).resetParty

theorem Sound.expelled_sized (h : s.Sound) (banned : UInt32) :
    (s.expelled place banned).Sized [place] :=
  h.sized.withoutMember.congr rfl rfl

/-- The leader leaves the party too when it is the last member left. -/
theorem ban_last (h : s.Sound) {banned : UInt32} (hne : banned ≠ id)
    (hid : (s.players id).party = some place) (hbanned : (s.players banned).party = some place)
    (hone : ((s.expelled place banned).parties place).members.length = 1) :
    s.ban id banned place =
      .ok (((s.expelled place banned).withoutMember place id).resetParty id) := by
  have hmem := (h.linked.mem_iff banned place).2 ⟨hbanned, List.not_mem_nil⟩
  -- The leader is still on the list, and is the one that is left.
  have hid' : ((s.expelled place banned).players id).party = some place := by
    rw [expelled_players_of_ne (Ne.symm hne), hid]
  have hmem' := ((h.expelled_linked hbanned).mem_iff id place).2 ⟨hid', List.not_mem_nil⟩
  unfold ban
  simp only [removeMember_eq hmem, bind_eq_ok]
  refine ⟨_, rfl, ?_⟩
  change (if ((s.expelled place banned).parties place).getSize = 1 then _ else _) = _
  rw [if_pos ((Party.getSize_eq_one ((h.expelled_sized banned).length_le place)).2 hone)]
  exact bind_eq_ok.2 ⟨_, removeMember_eq hmem', rfl⟩

theorem ban_of_length_ne_one (h : s.Sound) {banned : UInt32}
    (hbanned : (s.players banned).party = some place)
    (hone : ((s.expelled place banned).parties place).members.length ≠ 1) :
    s.ban id banned place = .ok (s.expelled place banned) := by
  have hmem := (h.linked.mem_iff banned place).2 ⟨hbanned, List.not_mem_nil⟩
  unfold ban
  simp only [removeMember_eq hmem, bind_eq_ok]
  refine ⟨_, rfl, ?_⟩
  change (if ((s.expelled place banned).parties place).getSize = 1 then _ else _) = _
  rw [if_neg (mt (Party.getSize_eq_one ((h.expelled_sized banned).length_le place)).1 hone)]
  rfl

theorem ban_spec (h : s.Sound) {banned : UInt32} (hne : banned ≠ id)
    (hid : (s.players id).party = some place) (hbanned : (s.players banned).party = some place) :
    ∃ s', s.ban id banned place = .ok s' ∧ s'.Sound := by
  have hlinked := h.expelled_linked hbanned
  have hsized : (s.expelled place banned).Sized [place] := h.expelled_sized banned
  by_cases hone : ((s.expelled place banned).parties place).members.length = 1
  · have hid' : ((s.expelled place banned).players id).party = some place := by
      rw [expelled_players_of_ne (Ne.symm hne), hid]
    have hmem := (hlinked.mem_iff id place).2 ⟨hid', List.not_mem_nil⟩
    refine ⟨_, ban_last h hne hid hbanned hone, (hlinked.withoutMember hid').resetParty, ?_⟩
    have hgone := Party.length_filter_ne (hlinked.nodup place) hmem
    rw [← withoutMember_members_self, hone] at hgone
    have hgone' : (((s.expelled place banned).withoutMember place id).parties place).members.length
        ≠ 1 := by omega
    exact ((hsized.withoutMember.settle hgone').settle hgone').congr rfl rfl
  · exact ⟨_, ban_of_length_ne_one h hbanned hone, hlinked, hsized.settle hone⟩

theorem banFromParty_spec (h : s.Sound) (id banned : UInt32) :
    ∃ s', s.banFromParty id banned = .ok s' ∧ s'.Sound := by
  unfold banFromParty
  split
  next => exact ⟨s, rfl, h⟩
  next hne =>
      split
      next => exact ⟨s, rfl, h⟩
      split
      next => exact ⟨s, rfl, h⟩
      split
      next place other hparty hbanned =>
          split
          next => exact ⟨s, rfl, h⟩
          next hplace =>
              rw [not_not.1 hplace] at hbanned
              exact ban_spec h hne hparty hbanned
      next => exact ⟨s, rfl, h⟩

/-! ## Runs -/

theorem handle_spec (h : s.Sound) (id : UInt32) (op : Op) :
    ∃ s', s.handle id op = .ok s' ∧ s'.Sound := by
  cases op with
  | onAskParty invited inSight => exact ⟨_, rfl, onAskParty_sound h id invited inSight⟩
  | onAskPartyAnswer answer inviter inSight =>
      exact ⟨_, rfl, onAskPartyAnswer_sound h id answer inviter inSight⟩
  | onLeaveParty => exact leaveParty_spec h id
  | banFromParty banned => exact banFromParty_spec h id banned
  | onRestart ask =>
      cases ask with
      | true => exact ⟨s, rfl, h⟩
      | false => exact leaveParty_leaveWorld_spec h id
  | onDisconnected => exact leaveParty_leaveWorld_spec h id

theorem step_spec (h : s.Sound) (event : Event) : ∃ s', s.step event = .ok s' ∧ s'.Sound := by
  cases event with
  | onStart id => exact ⟨_, rfl, h.congr rfl rfl fun _ => rfl⟩
  | handle id op =>
      by_cases hid : id ∈ s.inWorld
      · rw [step, if_pos hid]
        exact handle_spec h id op
      · exact ⟨s, if_neg hid, h⟩

theorem empty_sound : empty.Sound where
  linked := ⟨by simp [empty], fun _ => List.nodup_nil⟩
  sized := ⟨by simp [empty], by simp [empty], by simp [empty]⟩

theorem Sound.consistent (h : s.Sound) : s.Consistent where
  party_iff id place := by
    rw [h.linked.mem_iff]
    simp
  unique id place other hplace hother := by
    have hparty := ((h.linked.mem_iff id place).1 hplace).1
    rw [((h.linked.mem_iff id other).1 hother).1] at hparty
    exact (Option.some.inj hparty).symm
  nodup := h.linked.nodup
  size id place hparty := by
    have hmem := (h.linked.mem_iff id place).2 ⟨hparty, List.not_mem_nil⟩
    have hpos := List.length_pos_of_mem hmem
    have hone := h.sized.length_ne_one place List.not_mem_nil
    refine ⟨?_, h.sized.length_le place⟩
    show 2 ≤ _
    omega

/-- No handler of a run throws, and after each one the lists and the pointers agree. -/
theorem run_consistent (events : List Event) :
    ∃ s, run step empty events = .ok s ∧ s.Consistent := by
  -- Every step is allowed: the handlers themselves refuse what they must.
  have hadm : Admissible step (fun _ _ => True) empty events :=
    Admissible.of_forall (fun _ _ _ => trivial) empty
  obtain ⟨s, hrun, hsound⟩ :=
    run_ok_of_admissible (fun s event (h : s.Sound) _ => step_spec h event) empty_sound hadm
  exact ⟨s, hrun, hsound.consistent⟩

-- Player 3 joins a party of two, whose leader then leaves it to the others.
example : (run step empty [.onStart 1, .onStart 2, .onStart 3,
      .handle 1 (.onAskParty 2 true), .handle 2 (.onAskPartyAnswer true 1 true),
      .handle 1 (.onAskParty 3 true), .handle 3 (.onAskPartyAnswer true 1 true),
      .handle 1 .onLeaveParty]).map (fun s => ((s.parties 0).members, (s.players 1).party)) =
    .ok ([2, 3], none) := rfl

end System

end Bango.Parties
