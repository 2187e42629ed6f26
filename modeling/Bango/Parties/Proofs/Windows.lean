import Bango.Parties.Proofs.Membership
import Bango.Parties.Windows

set_option autoImplicit false

/-! # The windows show the parties

A step changes the party of a player only by writing the new list of members to it, or that it is in the
party no longer. So the window of each client shows its party after every run (`run_windowOf`), although
no packet says what has changed. -/

namespace Bango.Parties

open Bango.Lib

/-! ## Windows -/

/-- The window of a player once some packets have come. -/
def windowAfter (id : UInt32) (window : Option (List UInt32)) (written : List (UInt32 × Notice)) :
    Option (List UInt32) :=
  (noticesOf id written).foldl shows window

section

variable {id : UInt32} {window : Option (List UInt32)}

theorem windowAfter_append (written more : List (UInt32 × Notice)) :
    windowAfter id window (written ++ more) = windowAfter id (windowAfter id window written) more := by
  simp [windowAfter, noticesOf, List.foldl_append]

@[simp]
theorem windowAfter_nil : windowAfter id window [] = window := rfl

theorem windowAfter_cons_self (notice : Notice) (written : List (UInt32 × Notice)) :
    windowAfter id window ((id, notice) :: written) =
      windowAfter id (shows window notice) written := by
  simp [windowAfter, noticesOf]

theorem windowAfter_cons_of_ne {other : UInt32} (h : id ≠ other) (notice : Notice)
    (written : List (UInt32 × Notice)) :
    windowAfter id window ((other, notice) :: written) = windowAfter id window written := by
  simp [windowAfter, noticesOf, Ne.symm h]

/-- Packets that leave every window as it is. -/
theorem windowAfter_of_forall {written : List (UInt32 × Notice)}
    (h : ∀ packet ∈ written, ∀ window, shows window packet.2 = window) :
    windowAfter id window written = window := by
  induction written with
  | nil => rfl
  | cons packet rest ih =>
      have hrest := ih fun packet' hmem => h packet' (List.mem_cons_of_mem packet hmem)
      by_cases hid : id = packet.1
      · subst hid
        rw [windowAfter_cons_self, h packet List.mem_cons_self, hrest]
      · rw [windowAfter_cons_of_ne hid, hrest]

/-- To be told the same once more makes no difference. -/
theorem shows_shows (notice : Notice) : shows (shows window notice) notice = shows window notice := by
  cases notice <;> rfl

theorem windowAfter_writeToAll (party : Party) (notice : Notice) :
    windowAfter id window (party.writeToAll notice) =
      if id ∈ party.members then shows window notice else window := by
  unfold Party.writeToAll
  induction party.members generalizing window with
  | nil => rfl
  | cons member members ih =>
      rw [List.map_cons]
      by_cases hid : id = member
      · subst hid
        rw [windowAfter_cons_self, ih, shows_shows, ite_self, if_pos List.mem_cons_self]
      · rw [windowAfter_cons_of_ne hid, ih]
        simp [hid]

theorem windowAfter_sendPartyInfo (party : Party) :
    windowAfter id window party.sendPartyInfo =
      if id ∈ party.members then some party.members else window :=
  windowAfter_writeToAll party _

theorem windowAfter_writeToLeader (party : Party) (notice : Notice) :
    windowAfter id window (party.writeToLeader notice) =
      if party.IsLeader id then shows window notice else window := by
  unfold Party.writeToLeader
  by_cases h : party.IsLeader id
  · have hleader : party.getLeader = some id := h
    simp [hleader, if_pos h, windowAfter_cons_self]
  · rw [if_neg h]
    cases hleader : party.getLeader with
    | none => rfl
    | some leader =>
        have hid : id ≠ leader := fun heq => h (heq ▸ hleader)
        simp [windowAfter_cons_of_ne hid]

end

/-! ## A party -/

namespace Party

variable {party : Party} {player id : UInt32} {window : Option (List UInt32)}

theorem windowAfter_addMember_full (h : party.IsFull) :
    windowAfter id window (party.addMemberWrites player) = window := by
  unfold addMemberWrites
  rw [if_pos h]
  exact windowAfter_of_forall (by simp [shows])

theorem windowAfter_addMember (h : ¬ party.IsFull) :
    windowAfter id window (party.addMemberWrites player) =
      if id ∈ party.members ++ [player] then some (party.members ++ [player]) else window := by
  have hjoined : windowAfter id window
      (if party.members ≠ [] then party.writeToAll (.memberJoinedInParty player) else []) = window := by
    split
    · rw [windowAfter_writeToAll]
      exact ite_self _
    · rfl
  have hadded : (party.addMember player).1.members = party.members ++ [player] := by
    rw [addMember, if_neg h]
  unfold addMemberWrites
  rw [if_neg h, windowAfter_append, hjoined, windowAfter_sendPartyInfo, hadded]

/-- The window of a player once a member has left: that of the member is closed, and so is that of the
    one that stays behind alone. -/
def remaining (party : Party) (gone id : UInt32) (window : Option (List UInt32)) :
    Option (List UInt32) :=
  let rest := party.members.filter (· ≠ gone)
  if id = gone then none
  else if id ∈ party.members then if rest.length = 1 then none else some rest
  else window

theorem windowAfter_removeMember (hle : party.members.length ≤ maxPartySize.toNat)
    (h : player ∈ party.members) (isKicked : Bool) :
    windowAfter id window (party.removeMemberWrites player isKicked) =
      party.remaining player id window := by
  let left : Party := { party with members := party.members.filter (· ≠ player) }
  have hleft : left.members.length ≤ maxPartySize.toNat :=
    Nat.le_trans (List.length_filter_le _ _) hle
  -- First the player is told that it is out, and the others nothing that changes their windows.
  have htold : windowAfter id window
      (if isKicked then (player, .exiledFromParty) :: left.writeToAll (.memberExiledFromParty player)
      else (player, .leftParty) :: left.writeToAll (.memberLeftParty player)) =
        if id = player then none else window := by
    by_cases hid : id = player
    · subst hid
      cases isKicked <;> simp [windowAfter_cons_self, windowAfter_writeToAll, shows]
    · cases isKicked <;> simp [windowAfter_cons_of_ne hid, windowAfter_writeToAll, shows, hid]
  have hmem : id ∈ left.members ↔ id ∈ party.members ∧ id ≠ player := by
    simp [left]
  unfold removeMemberWrites
  rw [removeMember_ok h]
  change windowAfter id window (left.removedWrites player isKicked _) = _
  unfold removedWrites remaining
  rw [windowAfter_append, htold]
  by_cases hone : left.members.length = 1
  · obtain ⟨last, hlast⟩ := List.length_eq_one_iff.1 hone
    have hleader : left.IsLeader id ↔ id ∈ party.members ∧ id ≠ player := by
      rw [← hmem, hlast, List.mem_singleton]
      simp [IsLeader, getLeader, hlast, eq_comm]
    rw [if_pos ((getSize_eq_one hleft).2 hone), windowAfter_writeToLeader]
    change _ = if id = player then none else if id ∈ party.members then
      if left.members.length = 1 then none else some left.members else window
    by_cases hid : id = player
    · simp [hid, shows]
    · by_cases hin : id ∈ party.members <;> simp [hleader, hid, hin, hone, shows]
  · have hhead : ∀ w : Option (List UInt32), windowAfter id w
        (if party.IsLeader player then left.writeToLeader .becomePartyHead else []) = w := by
      intro w
      split
      · rw [windowAfter_writeToLeader]
        exact ite_self _
      · rfl
    rw [if_neg (mt (getSize_eq_one hleft).1 hone)]
    change _ = if id = player then none else if id ∈ party.members then
      if left.members.length = 1 then none else some left.members else window
    by_cases hmany : left.getSize > 1
    · rw [if_pos hmany, windowAfter_append, windowAfter_sendPartyInfo]
      simp only [decide_eq_true_eq]
      rw [hhead]
      by_cases hid : id = player
      · have hout : id ∉ left.members := fun hin => (hmem.1 hin).2 hid
        rw [if_neg hout, if_pos hid, if_pos hid]
      · by_cases hin : id ∈ party.members <;> simp [hmem, hid, hin, hone]
    · -- Nobody is left.
      have hnil : left.members = [] := by
        have hsize := getSize_toNat hleft
        have : ¬ 1 < left.members.length := by
          rw [← hsize]
          exact fun hlt => hmany (UInt8.lt_iff_toNat_lt.2 hlt)
        exact List.length_eq_zero_iff.1 (by omega)
      rw [hnil] at hmem
      rw [if_neg hmany]
      by_cases hid : id = player
      · simp [hid]
      · have hin : id ∉ party.members := fun hin => List.not_mem_nil (hmem.2 ⟨hin, hid⟩)
        simp [hid, hin]

end Party

/-! ## Players that leave -/

namespace System

variable {s : System} {id other : UInt32} {place : Nat}

theorem partyOf_eq_some (h : (s.players id).party = some place) :
    s.partyOf id = some (s.parties place).members := by
  rw [partyOf, h, Option.map_some]

theorem partyOf_eq_none (h : (s.players id).party = none) : s.partyOf id = none := by
  rw [partyOf, h, Option.map_none]

theorem partyOf_congr {s' : System} (h : (s'.players id).party = (s.players id).party)
    (hmembers : ∀ place, (s.players id).party = some place →
      (s'.parties place).members = (s.parties place).members) : s'.partyOf id = s.partyOf id := by
  unfold partyOf
  rw [h]
  cases hparty : (s.players id).party with
  | none => rfl
  | some place => rw [Option.map_some, Option.map_some, hmembers place hparty]

/-- The parties of the players once one has left the party at a place: when it is down to one member,
    that one is out too. -/
structure Departed (s : System) (place : Nat) (gone : UInt32) (s' : System) : Prop where
  pointer_iff : ∀ id at', (s'.players id).party = some at' ↔
    (s.players id).party = some at' ∧ ¬ (at' = place ∧ (id = gone ∨
      ((s.parties place).members.filter (· ≠ gone)).length = 1))
  other : ∀ at', at' ≠ place → s'.parties at' = s.parties at'
  rest : ((s.parties place).members.filter (· ≠ gone)).length ≠ 1 →
    (s'.parties place).members = (s.parties place).members.filter (· ≠ gone)

theorem Departed.partyOf {s' : System} {gone : UInt32} (h : s.Departed place gone s')
    (hlinked : s.Linked []) (hgone : (s.players gone).party = some place) :
    s'.partyOf id = (s.parties place).remaining gone id (s.partyOf id) := by
  unfold Party.remaining
  dsimp only
  have hin : id ∈ (s.parties place).members ↔ (s.players id).party = some place := by
    rw [hlinked.mem_iff]
    simp
  cases hparty : (s.players id).party with
  | none =>
      have hnone : (s'.players id).party = none := by
        rw [Option.eq_none_iff_forall_ne_some]
        intro at' hat
        rw [((h.pointer_iff id at').1 hat).1] at hparty
        cases hparty
      have hne : id ≠ gone := by
        rintro rfl
        rw [hgone] at hparty
        cases hparty
      rw [hparty] at hin
      rw [partyOf_eq_none hnone, if_neg hne, if_neg (mt hin.1 (by simp)), partyOf_eq_none hparty]
  | some at' =>
      by_cases hat : at' = place
      · subst hat
        rw [if_pos (hin.2 hparty)]
        by_cases hout : id = gone ∨ ((s.parties at').members.filter (· ≠ gone)).length = 1
        · have hnone : (s'.players id).party = none := by
            rw [Option.eq_none_iff_forall_ne_some]
            intro other hother
            obtain ⟨hsame, hnot⟩ := (h.pointer_iff id other).1 hother
            rw [hparty, Option.some.injEq] at hsame
            exact hnot ⟨hsame.symm, hout⟩
          rw [partyOf_eq_none hnone]
          rcases hout with hid | hone
          · rw [if_pos hid]
          · rw [if_pos hone, ite_self]
        · have hstay : (s'.players id).party = some at' :=
            (h.pointer_iff id at').2 ⟨hparty, fun hnot => hout hnot.2⟩
          rw [not_or] at hout
          rw [partyOf_eq_some hstay, h.rest hout.2, if_neg hout.1, if_neg hout.2]
      · have hsame : (s'.players id).party = some at' :=
          (h.pointer_iff id at').2 ⟨hparty, fun hnot => hat hnot.1⟩
        have hne : id ≠ gone := by
          rintro rfl
          rw [hgone, Option.some.injEq] at hparty
          exact hat hparty.symm
        rw [hparty, Option.some.injEq] at hin
        rw [if_neg hne, if_neg (mt hin.1 hat), partyOf_eq_some hsame, partyOf_eq_some hparty,
          h.other at' hat]

theorem resetParty_party_iff {at' : Nat} :
    ((s.resetParty id).players other).party = some at' ↔
      other ≠ id ∧ (s.players other).party = some at' := by
  by_cases hid : other = id
  · simp [hid, resetParty_party_self]
  · simp [hid, resetParty_players_of_ne hid]

/-- A party of three or more loses a member. -/
theorem departed_expelled (hparty : (s.players id).party = some place)
    (hrest : ((s.parties place).members.filter (· ≠ id)).length ≠ 1) :
    s.Departed place id (s.expelled place id) where
  pointer_iff other at' := by
    unfold expelled
    rw [resetParty_party_iff, withoutMember_players]
    constructor
    · rintro ⟨hne, hat⟩
      exact ⟨hat, fun hnot => hnot.2.elim hne hrest⟩
    · rintro ⟨hat, hnot⟩
      refine ⟨?_, hat⟩
      rintro rfl
      rw [hparty, Option.some.injEq] at hat
      exact hnot ⟨hat.symm, .inl rfl⟩
  other at' hat := withoutMember_parties_of_ne hat
  rest _ := withoutMember_members_self

/-- The last two members of a party leave it, one by one. -/
theorem departed_last {s' : System} {last : UInt32} (h : s.Sound)
    (hparty : (s.players id).party = some place)
    (hrest : (s.parties place).members.filter (· ≠ id) = [last])
    (hplayers : ∀ other at', (s'.players other).party = some at' ↔
      (other ≠ last ∧ other ≠ id) ∧ (s.players other).party = some at')
    (hother : ∀ at', at' ≠ place → s'.parties at' = s.parties at') : s.Departed place id s' where
  pointer_iff other at' := by
    rw [hplayers]
    have hlast : (s.players last).party = some place := by
      have hmem : last ∈ (s.parties place).members.filter (· ≠ id) := by
        rw [hrest]
        exact List.mem_singleton_self last
      exact ((h.linked.mem_iff last place).1 (List.mem_of_mem_filter hmem)).1
    -- Who is in the party is one of the two.
    have htwo : (s.players other).party = some place → other = id ∨ other = last := by
      intro hin
      have hmem := (h.linked.mem_iff other place).2 ⟨hin, List.not_mem_nil⟩
      by_cases hid : other = id
      · exact .inl hid
      · have hmem' : other ∈ (s.parties place).members.filter (· ≠ id) := by
          simp [hmem, hid]
        rw [hrest, List.mem_singleton] at hmem'
        exact .inr hmem'
    have hone : ((s.parties place).members.filter (· ≠ id)).length = 1 := by rw [hrest]; rfl
    constructor
    · rintro ⟨hne, hat⟩
      refine ⟨hat, fun hnot => ?_⟩
      rw [hnot.1] at hat
      exact (htwo hat).elim hne.2 hne.1
    · rintro ⟨hat, hnot⟩
      have hne : at' ≠ place := fun heq => hnot ⟨heq, .inr hone⟩
      refine ⟨⟨?_, ?_⟩, hat⟩
      · rintro rfl
        rw [hlast, Option.some.injEq] at hat
        exact hne hat.symm
      · rintro rfl
        rw [hparty, Option.some.injEq] at hat
        exact hne hat.symm
  other := hother
  rest hne := (hne (by rw [hrest]; rfl)).elim

theorem windowAfter_removeMember (h : s.Sound) (hparty : (s.players id).party = some place)
    (isKicked : Bool) (window : Option (List UInt32)) :
    windowAfter other window (s.removeMemberWrites place id isKicked) =
      (s.parties place).remaining id other window :=
  Party.windowAfter_removeMember (h.sized.length_le place)
    ((h.linked.mem_iff id place).2 ⟨hparty, List.not_mem_nil⟩) isKicked

/-- The one left behind alone is told once more that it is out. -/
theorem windowAfter_last {party : Party} {last : UInt32} (hmembers : party.members = [last])
    (window : Option (List UInt32)) :
    windowAfter other window (party.removeMemberWrites last false) =
      if other = last then none else window := by
  have hle : party.members.length ≤ maxPartySize.toNat := by simp [hmembers, maxPartySize]
  rw [Party.windowAfter_removeMember hle (by simp [hmembers])]
  unfold Party.remaining
  by_cases hlast : other = last
  · simp [hlast]
  · simp [hlast, hmembers]

theorem remaining_last {party : Party} {last : UInt32}
    (hrest : party.members.filter (· ≠ id) = [last]) (window : Option (List UInt32)) :
    (if other = last then none else party.remaining id other window) =
      party.remaining id other window := by
  split
  next hlast =>
      have hmem : last ∈ party.members.filter (· ≠ id) := by
        rw [hrest]
        exact List.mem_singleton_self last
      have hone : (party.members.filter (· ≠ id)).length = 1 := by rw [hrest]; rfl
      unfold Party.remaining
      dsimp only
      rw [hlast, if_pos (List.mem_of_mem_filter hmem), if_pos hone, ite_self]
  next => rfl

theorem leaveParty_departed (h : s.Sound) (hparty : (s.players id).party = some place) :
    (∃ s', s.leaveParty id = .ok s' ∧ s.Departed place id s') ∧
      ∀ other window, windowAfter other window (s.leavePartyWrites id) =
        (s.parties place).remaining id other window := by
  have hmem := (h.linked.mem_iff id place).2 ⟨hparty, List.not_mem_nil⟩
  have hlinked := h.linked.withoutMember hparty
  have hmembers : ((s.withoutMember place id).parties place).members =
      (s.parties place).members.filter (· ≠ id) := withoutMember_members_self
  have hle : ((s.withoutMember place id).parties place).members.length ≤ maxPartySize.toNat :=
    h.sized.withoutMember.length_le place
  unfold leaveParty leavePartyWrites
  rw [hparty]
  simp only [removeMember_eq hmem, ok_bind, windowAfter_append, windowAfter_removeMember h hparty]
  by_cases hone : ((s.parties place).members.filter (· ≠ id)).length = 1
  · obtain ⟨last, hrest⟩ := List.length_eq_one_iff.1 hone
    rw [hrest] at hmembers
    constructor
    · rw [dissolve_last hlinked hmembers]
      refine ⟨_, rfl, departed_last h hparty hrest ?_ ?_⟩
      · intro other at'
        rw [resetParty_party_iff, resetParty_party_iff]
        constructor
        · rintro ⟨hid, hlast, hat⟩
          exact ⟨⟨hlast, hid⟩, hat⟩
        · rintro ⟨⟨hlast, hid⟩, hat⟩
          exact ⟨hid, hlast, hat⟩
      · intro at' hat
        exact (withoutMember_parties_of_ne hat).trans (withoutMember_parties_of_ne hat)
    · intro other window
      have hlast : ((s.withoutMember place id).players last).party = some place :=
        ((hlinked.mem_iff last place).1 (by simp [hmembers])).1
      unfold dissolveWrites
      rw [if_pos ((Party.getSize_eq_one hle).2 (by rw [hmembers]; rfl))]
      simp only [Party.getLeader, hmembers, List.head?_cons, hlast]
      exact (windowAfter_last hmembers _).trans (remaining_last hrest window)
  · rw [← hmembers] at hone
    constructor
    · rw [dissolve_of_length_ne_one hle hone]
      exact ⟨_, rfl, departed_expelled hparty (hmembers ▸ hone)⟩
    · intro other window
      unfold dissolveWrites
      rw [if_neg (mt (Party.getSize_eq_one hle).1 hone), windowAfter_nil]

theorem ban_departed (h : s.Sound) {banned : UInt32} (hne : banned ≠ id)
    (hid : (s.players id).party = some place) (hbanned : (s.players banned).party = some place) :
    (∃ s', s.ban id banned place = .ok s' ∧ s.Departed place banned s') ∧
      ∀ other window, windowAfter other window (s.banWrites id banned place) =
        (s.parties place).remaining banned other window := by
  have hmem := (h.linked.mem_iff banned place).2 ⟨hbanned, List.not_mem_nil⟩
  have hmembers : ((s.expelled place banned).parties place).members =
      (s.parties place).members.filter (· ≠ banned) := withoutMember_members_self
  have hle : ((s.expelled place banned).parties place).members.length ≤ maxPartySize.toNat :=
    (h.expelled_sized banned).length_le place
  unfold banWrites
  simp only [removeMember_eq hmem, windowAfter_append, windowAfter_removeMember h hbanned]
  change (∃ s', _ ∧ _) ∧ ∀ other window, windowAfter other _
    (if ((s.expelled place banned).parties place).getSize = 1 then
      (s.expelled place banned).removeMemberWrites place id false else []) = _
  by_cases hone : ((s.expelled place banned).parties place).members.length = 1
  · -- The leader is the one that is left.
    have hrest : (s.parties place).members.filter (· ≠ banned) = [id] := by
      obtain ⟨last, hlast⟩ := List.length_eq_one_iff.1 (hmembers ▸ hone)
      have hin : id ∈ (s.parties place).members.filter (· ≠ banned) := by
        have hin' := (h.linked.mem_iff id place).2 ⟨hid, List.not_mem_nil⟩
        simp [hin', Ne.symm hne]
      rw [hlast, List.mem_singleton] at hin
      rw [hlast, hin]
    constructor
    · refine ⟨_, ban_last h hne hid hbanned hone, departed_last h hbanned hrest ?_ ?_⟩
      · intro other at'
        unfold expelled
        rw [resetParty_party_iff, withoutMember_players, resetParty_party_iff, and_assoc]
        rfl
      · intro at' hat
        exact (withoutMember_parties_of_ne hat).trans (withoutMember_parties_of_ne hat)
    · intro other window
      rw [if_pos ((Party.getSize_eq_one hle).2 hone)]
      rw [hrest] at hmembers
      exact (windowAfter_last hmembers _).trans (remaining_last hrest window)
  · constructor
    · exact ⟨_, ban_of_length_ne_one h hbanned hone, departed_expelled hbanned (hmembers ▸ hone)⟩
    · intro other window
      rw [if_neg (mt (Party.getSize_eq_one hle).1 hone), windowAfter_nil]

/-! ## Players that join -/

@[simp]
theorem addParty_parties : (s.addParty place).parties = s.parties := by
  unfold addParty
  dsimp only
  split <;> rfl

@[simp]
theorem addParty_players : (s.addParty place).players = s.players := by
  unfold addParty
  dsimp only
  split <;> rfl

/-- A party has more members, and nothing else has changed. -/
theorem partyOf_of_joined {s' : System} (h : s.Sound) (h' : s'.Sound)
    (hsub : ∀ id ∈ (s.parties place).members, id ∈ (s'.parties place).members)
    (hother : ∀ at', at' ≠ place → s'.parties at' = s.parties at')
    (hout : ∀ id, id ∉ (s'.parties place).members →
      (s'.players id).party = (s.players id).party) :
    s'.partyOf id =
      if id ∈ (s'.parties place).members then some (s'.parties place).members
      else s.partyOf id := by
  split
  next hin => exact partyOf_eq_some ((h'.linked.mem_iff id place).1 hin).1
  next hnot =>
      refine partyOf_congr (hout id hnot) fun at' hat => ?_
      have hne : at' ≠ place := by
        rintro rfl
        exact hnot (hsub id ((h.linked.mem_iff id at').2 ⟨hat, List.not_mem_nil⟩))
      rw [hother at' hne]

theorem windowAfter_make (place leader player : UInt32) (window : Option (List UInt32)) :
    windowAfter id window (Party.makeWrites place leader player) =
      if id ∈ [leader, player] then some [leader, player] else window := by
  have hempty : ¬ (Party.mk place []).IsFull := by simp [Party.IsFull, Party.getSize, maxPartySize]
  have hleader : ((Party.mk place []).addMember leader).1 = ⟨place, [leader]⟩ := by
    rw [Party.addMember, if_neg hempty]
    rfl
  have hone : ¬ (Party.mk place [leader]).IsFull := by simp [Party.IsFull, Party.getSize, maxPartySize]
  unfold Party.makeWrites
  rw [windowAfter_append, Party.windowAfter_addMember hempty, hleader,
    Party.windowAfter_addMember hone]
  by_cases hid : id ∈ [leader, player]
  · exact (if_pos hid).trans (if_pos hid).symm
  · have hid' : id ∉ [] ++ [leader] := fun hmem => hid (by simp_all)
    rw [if_neg hid']
    rfl

theorem accept_partyOf (h : s.Sound) {inviter : UInt32} (hne : inviter ≠ id)
    (hid : (s.players id).party = none) (other : UInt32) :
    windowAfter other (s.partyOf other) (s.acceptWrites id inviter) =
      (s.accept id inviter).partyOf other := by
  have h' := accept_sound h hne hid
  unfold acceptWrites
  cases hinviter : (s.players inviter).party with
  | none =>
      have hparties : (s.accept id inviter).parties =
          Function.update s.parties s.made (.make (UInt32.ofNat s.made) inviter id) := by
        simp only [accept, hinviter, addParty_parties]
        rfl
      have hself : (s.accept id inviter).parties s.made = .make (UInt32.ofNat s.made) inviter id := by
        rw [hparties, Function.update_self]
      have hjoined : (s.accept id inviter).partyOf other =
          if other ∈ ((s.accept id inviter).parties s.made).members then
            some ((s.accept id inviter).parties s.made).members
          else s.partyOf other := partyOf_of_joined h h' ?_ ?_ ?_
      · rw [hjoined, hself, Party.make_members]
        exact windowAfter_make _ inviter id _
      · simp [h.sized.unmade s.made (Nat.le_refl _)]
      · exact fun at' hat => by rw [hparties, Function.update_of_ne hat]
      · intro other hnot
        rw [hself, Party.make_members] at hnot
        simp only [List.mem_cons, List.not_mem_nil, or_false, not_or] at hnot
        simp [accept, hinviter, setParty, setPlayer, makeParty, setPartyAt, hnot.1, hnot.2]
  | some place =>
      dsimp only
      by_cases hleader : s.IsPartyLeader inviter
      · rw [if_pos hleader]
        by_cases hfull : (s.parties place).IsFull
        · rw [Party.windowAfter_addMember_full hfull]
          have hsame : (s.accept id inviter).parties = s.parties := by
            simp only [accept, hinviter, if_pos hleader, Party.addMember, hfull, if_true]
            exact Function.update_eq_self place s.parties
          refine (partyOf_congr ?_ fun at' _ => by rw [hsame]).symm
          simp only [accept, hinviter, if_pos hleader, Party.addMember, hfull, if_true]
          rfl
        · have hparties : (s.accept id inviter).parties = Function.update s.parties place
              { s.parties place with members := (s.parties place).members ++ [id] } := by
            simp only [accept, hinviter, if_pos hleader, Party.addMember, hfull, if_false, if_true]
            rfl
          have hself : ((s.accept id inviter).parties place).members =
              (s.parties place).members ++ [id] := by
            rw [hparties, Function.update_self]
          rw [Party.windowAfter_addMember hfull, ← hself]
          refine (partyOf_of_joined h h' ?_ ?_ ?_).symm
          · exact fun member hin => by rw [hself]; exact List.mem_append_left _ hin
          · exact fun at' hat => by rw [hparties, Function.update_of_ne hat]
          · intro other hnot
            have hother : other ≠ id := fun heq => hnot (by simp [hself, heq])
            simp only [accept, hinviter, if_pos hleader, Party.addMember, hfull, if_false, if_true]
            simp [setParty, setPlayer, setPartyAt, hother]
      · rw [if_neg hleader, windowAfter_nil]
        simp only [accept, hinviter, if_neg hleader]

/-! ## Steps -/

theorem partyOf_setPartyInviterId (id inviter other : UInt32) :
    (s.setPartyInviterId id inviter).partyOf other = s.partyOf other :=
  partyOf_congr (setPartyInviterId_party id inviter other) fun _ _ => rfl

theorem onAskParty_partyOf (id invited : UInt32) (inSight : Bool) (other : UInt32) :
    windowAfter other (s.partyOf other) (s.onAskPartyWrites id invited inSight) =
      (s.onAskParty id invited inSight).partyOf other := by
  -- None of these packets is about the members of a party.
  have hquiet : windowAfter other (s.partyOf other) (s.onAskPartyWrites id invited inSight) =
      s.partyOf other := by
    refine windowAfter_of_forall ?_
    unfold onAskPartyWrites
    repeat' split
    all_goals simp [shows]
  rw [hquiet]
  unfold onAskParty
  repeat' split
  all_goals first | rfl | exact (partyOf_setPartyInviterId invited id other).symm

theorem onAskPartyAnswer_partyOf (h : s.Sound) (id : UInt32) (answer : Bool) (inviter : UInt32)
    (inSight : Bool) (other : UInt32) :
    windowAfter other (s.partyOf other) (s.onAskPartyAnswerWrites id answer inviter inSight) =
      (s.onAskPartyAnswer id answer inviter inSight).partyOf other := by
  have hreset : (s.resetPartyInviterId id).partyOf other = s.partyOf other :=
    partyOf_setPartyInviterId id 0 other
  unfold onAskPartyAnswerWrites onAskPartyAnswer
  split
  next => rfl
  next hne =>
      split
      next => rfl
      next hfree =>
          have hid : ((s.resetPartyInviterId id).players id).party = none := by
            rw [resetPartyInviterId, setPartyInviterId_party]
            exact not_not.1 hfree
          split
          next => rfl
          split
          next => rfl
          dsimp only
          split
          next => exact hreset.symm
          split
          next =>
              rw [hreset]
              exact windowAfter_of_forall (by simp [shows])
          next =>
              rw [← hreset]
              exact accept_partyOf (setPartyInviterId_sound h id 0) hne hid other

theorem leaveParty_partyOf {s' : System} (h : s.Sound) (hleave : s.leaveParty id = .ok s')
    (other : UInt32) :
    windowAfter other (s.partyOf other) (s.leavePartyWrites id) = s'.partyOf other := by
  cases hparty : (s.players id).party with
  | none =>
      unfold leaveParty at hleave
      unfold leavePartyWrites
      rw [hparty] at hleave ⊢
      rw [← Except.ok.inj hleave]
      rfl
  | some place =>
      obtain ⟨⟨t, ht, hdeparted⟩, hwindow⟩ := leaveParty_departed h hparty
      rw [ht] at hleave
      rw [hwindow, ← Except.ok.inj hleave, hdeparted.partyOf h.linked hparty]

/-- `BanFromParty` either does nothing, or the two players are in one party. -/
theorem banFromParty_cases (s : System) (id banned : UInt32) :
    (s.banFromParty id banned = .ok s ∧ s.banFromPartyWrites id banned = []) ∨
      ∃ place, banned ≠ id ∧ (s.players id).party = some place ∧
        (s.players banned).party = some place ∧
        s.banFromParty id banned = s.ban id banned place ∧
        s.banFromPartyWrites id banned = s.banWrites id banned place := by
  unfold banFromParty banFromPartyWrites
  by_cases hself : banned = id
  · exact .inl ⟨if_pos hself, if_pos hself⟩
  rw [if_neg hself, if_neg hself]
  by_cases hleader : ¬ s.IsPartyLeader id
  · exact .inl ⟨if_pos hleader, if_pos hleader⟩
  rw [if_neg hleader, if_neg hleader]
  by_cases hin : banned ∉ s.inWorld
  · exact .inl ⟨if_pos hin, if_pos hin⟩
  rw [if_neg hin, if_neg hin]
  cases hid : (s.players id).party with
  | none => exact .inl ⟨rfl, rfl⟩
  | some place =>
      cases hbanned : (s.players banned).party with
      | none => exact .inl ⟨rfl, rfl⟩
      | some at' =>
          by_cases hat : at' ≠ place
          · exact .inl ⟨if_pos hat, if_pos hat⟩
          · rw [not_not.1 hat]
            exact .inr ⟨place, hself, rfl, rfl, if_neg (not_not.2 rfl), if_neg (not_not.2 rfl)⟩

theorem banFromParty_partyOf {s' : System} {banned : UInt32} (h : s.Sound)
    (hban : s.banFromParty id banned = .ok s') (other : UInt32) :
    windowAfter other (s.partyOf other) (s.banFromPartyWrites id banned) = s'.partyOf other := by
  rcases banFromParty_cases s id banned with
    ⟨hok, hwrites⟩ | ⟨place, hne, hid, hbanned, hok, hwrites⟩
  · rw [hok] at hban
    rw [hwrites, ← Except.ok.inj hban, windowAfter_nil]
  · obtain ⟨⟨t, ht, hdeparted⟩, hwindow⟩ := ban_departed h hne hid hbanned
    rw [hok, ht] at hban
    rw [hwrites, hwindow, ← Except.ok.inj hban, hdeparted.partyOf h.linked hbanned]

theorem leaveParty_leaveWorld_partyOf {s' : System} (h : s.Sound)
    (hleave : (do let s ← s.leaveParty id; return s.leaveWorld id) = .ok s') (other : UInt32) :
    windowAfter other (s.partyOf other) (s.leavePartyWrites id) = s'.partyOf other := by
  obtain ⟨t, ht, hworld⟩ := bind_eq_ok.1 hleave
  rw [leaveParty_partyOf h ht, ← Except.ok.inj hworld]
  rfl

/-- A step writes to the players whose party it changes what the party is then. -/
theorem step_partyOf {s' : System} (h : s.Sound) {event : Event} (hstep : s.step event = .ok s')
    (other : UInt32) :
    windowAfter other (s.partyOf other) (s.writes event) = s'.partyOf other := by
  cases event with
  | onStart id =>
      rw [← Except.ok.inj hstep]
      rfl
  | handle id op =>
      rw [step] at hstep
      rw [writes]
      by_cases hid : id ∈ s.inWorld
      · rw [if_pos hid] at hstep ⊢
        cases op with
        | onAskParty invited inSight =>
            rw [← Except.ok.inj hstep]
            exact onAskParty_partyOf id invited inSight other
        | onAskPartyAnswer answer inviter inSight =>
            rw [← Except.ok.inj hstep]
            exact onAskPartyAnswer_partyOf h id answer inviter inSight other
        | onLeaveParty => exact leaveParty_partyOf h hstep other
        | banFromParty banned => exact banFromParty_partyOf h hstep other
        | onRestart ask =>
            cases ask with
            | true =>
                rw [← Except.ok.inj hstep]
                rfl
            | false => exact leaveParty_leaveWorld_partyOf h hstep other
        | onDisconnected => exact leaveParty_leaveWorld_partyOf h hstep other
      · rw [if_neg hid] at hstep ⊢
        rw [← Except.ok.inj hstep, windowAfter_nil]

end System

/-! ## Runs -/

namespace Watched

/-- Every window shows the party of its player. -/
structure Shown (w : Watched) : Prop where
  sound : w.system.Sound
  window : ∀ id, w.windowOf id = w.system.partyOf id

theorem step_shown {w : Watched} (h : w.Shown) (event : System.Event) :
    ∃ w', w.step event = .ok w' ∧ w'.Shown := by
  obtain ⟨s', hstep, hsound⟩ := System.step_spec h.sound event
  refine ⟨⟨s', w.written ++ w.system.writes event⟩, bind_eq_ok.2 ⟨s', hstep, rfl⟩, hsound, ?_⟩
  intro id
  refine (windowAfter_append w.written (w.system.writes event)).trans ?_
  rw [← System.step_partyOf h.sound hstep id, ← h.window id]
  rfl

theorem empty_shown : empty.Shown := ⟨System.empty_sound, fun _ => rfl⟩

/-- No handler of a run throws, and after each one the client of every player, from what it has been
    written, shows the members of the player's party, the leader first, or that it is in none. -/
theorem run_windowOf (events : List System.Event) :
    ∃ w, run step empty events = .ok w ∧ ∀ id, w.windowOf id = w.system.partyOf id := by
  have hadm : Admissible step (fun _ _ => True) empty events :=
    Admissible.of_forall (fun _ _ _ => trivial) empty
  obtain ⟨w, hrun, hshown⟩ :=
    run_ok_of_admissible (fun w event (h : w.Shown) _ => step_shown h event) empty_shown hadm
  exact ⟨w, hrun, hshown.window⟩

end Watched

end Bango.Parties
