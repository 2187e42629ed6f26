import Bango.Parties.Proofs.Windows

set_option autoImplicit false

/-! # Who is told to lead a party

`MSG_BECOMEPARTYHEAD` goes to whoever leads a party after a step and has been another member of it
before, and to nobody else (`becomePartyHead_iff`). A player that founds a party learns it from the list
of members. -/

namespace Bango.Parties

open Bango.Lib

/-! ## A party -/

namespace Party

variable {party : Party} {player id : UInt32}

theorem mem_writeToAll {notice other : Notice} :
    (id, notice) ∈ party.writeToAll other ↔ id ∈ party.members ∧ other = notice := by
  simp [writeToAll]

theorem mem_writeToLeader {notice other : Notice} :
    (id, notice) ∈ party.writeToLeader other ↔ party.IsLeader id ∧ other = notice := by
  simp [writeToLeader, IsLeader]

theorem becomePartyHead_not_mem_addMember :
    (id, .becomePartyHead) ∉ party.addMemberWrites player := by
  unfold addMemberWrites sendPartyInfo
  repeat' split
  all_goals simp [mem_writeToAll]

/-- When the leader of a party leaves it, the next of at least two members is told to lead it. -/
theorem becomePartyHead_mem_removeMember (hle : party.members.length ≤ maxPartySize.toNat)
    (h : player ∈ party.members) (isKicked : Bool) :
    (id, .becomePartyHead) ∈ party.removeMemberWrites player isKicked ↔
      party.IsLeader player ∧ (party.members.filter (· ≠ player)).length ≠ 1 ∧
        (party.members.filter (· ≠ player)).head? = some id := by
  let left : Party := { party with members := party.members.filter (· ≠ player) }
  have hleft : left.members.length ≤ maxPartySize.toNat :=
    Nat.le_trans (List.length_filter_le _ _) hle
  have hsize := getSize_toNat hleft
  unfold removeMemberWrites
  rw [removeMember_ok h]
  change _ ∈ left.removedWrites player isKicked _ ↔
    _ ∧ left.members.length ≠ 1 ∧ left.members.head? = some id
  have htold : (id, .becomePartyHead) ∉ (if isKicked then
      (player, .exiledFromParty) :: left.writeToAll (.memberExiledFromParty player)
      else (player, .leftParty) :: left.writeToAll (.memberLeftParty player)) := by
    split <;> simp [mem_writeToAll]
  unfold removedWrites
  rw [List.mem_append, or_iff_right htold]
  by_cases hone : left.members.length = 1
  · rw [if_pos ((getSize_eq_one hleft).2 hone), mem_writeToLeader]
    simp [hone]
  · rw [if_neg (mt (getSize_eq_one hleft).1 hone)]
    by_cases hmany : left.getSize > 1
    · have hlist : (id, .becomePartyHead) ∉ left.sendPartyInfo := by
        unfold sendPartyInfo
        simp [mem_writeToAll]
      rw [if_pos hmany, List.mem_append, or_iff_right hlist]
      by_cases hleader : party.IsLeader player
      · rw [if_pos (decide_eq_true hleader), mem_writeToLeader]
        simp only [hleader, hone, ne_eq, not_false_eq_true, true_and, and_true]
        exact Iff.rfl
      · simp [hleader]
    · have hnil : left.members = [] := by
        have hnot : ¬ 1 < left.members.length := by
          rw [← hsize]
          exact fun hlt => hmany (UInt8.lt_iff_toNat_lt.2 hlt)
        exact List.length_eq_zero_iff.1 (by omega)
      rw [if_neg hmany, hnil]
      simp

end Party

/-! ## Leaders -/

namespace System

variable {s s' : System} {id : UInt32} {place : Nat}

theorem isPartyLeader_iff :
    s.IsPartyLeader id ↔ ∃ members, s.partyOf id = some members ∧ members.head? = some id := by
  simp [IsPartyLeader, Party.IsLeader, Party.getLeader, partyOf]

theorem hasParty_iff : s.HasParty id ↔ s.partyOf id ≠ none := by
  simp [HasParty, partyOf]

theorem isPartyLeader_congr (h : s'.partyOf id = s.partyOf id) :
    s'.IsPartyLeader id ↔ s.IsPartyLeader id := by
  rw [isPartyLeader_iff, isPartyLeader_iff, h]

theorem departed_leader_iff (h : s.Sound) {gone : UInt32}
    (hgone : (s.players gone).party = some place) (hdeparted : s.Departed place gone s') :
    ((s.parties place).IsLeader gone ∧
      ((s.parties place).members.filter (· ≠ gone)).length ≠ 1 ∧
      ((s.parties place).members.filter (· ≠ gone)).head? = some id) ↔
      s.HasParty id ∧ ¬ s.IsPartyLeader id ∧ s'.IsPartyLeader id := by
  have hparty : s'.partyOf id = (s.parties place).remaining gone id (s.partyOf id) :=
    hdeparted.partyOf h.linked hgone
  have hin : id ∈ (s.parties place).members → s.partyOf id = some (s.parties place).members :=
    fun hmem => partyOf_eq_some ((h.linked.mem_iff id place).1 hmem).1
  constructor
  · rintro ⟨hleader, hone, hhead⟩
    have hrest := List.mem_of_mem_head? hhead
    have hne : id ≠ gone := by simpa using List.of_mem_filter hrest
    have hmem := List.mem_of_mem_filter hrest
    simp only [Party.remaining, if_neg hne, if_pos hmem, if_neg hone] at hparty
    refine ⟨?_, ?_, isPartyLeader_iff.2 ⟨_, hparty, hhead⟩⟩
    · rw [hasParty_iff, hin hmem]
      simp
    · rw [isPartyLeader_iff, hin hmem]
      rintro ⟨members, hmembers, hid⟩
      rw [← Option.some.inj hmembers] at hid
      have hsame : some gone = some id := hleader.symm.trans hid
      exact hne (Option.some.inj hsame).symm
  · rintro ⟨hhas, hnot, hnow⟩
    obtain ⟨members, hmembers, hhead⟩ := isPartyLeader_iff.1 hnow
    rw [hparty] at hmembers
    unfold Party.remaining at hmembers
    dsimp only at hmembers
    split at hmembers
    next => cases hmembers
    next hne =>
        split at hmembers
        next hmem =>
            split at hmembers
            next => cases hmembers
            next hone =>
                rw [← Option.some.inj hmembers] at hhead
                refine ⟨?_, hone, hhead⟩
                -- The first of the list is on it no longer.
                rw [isPartyLeader_iff, hin hmem] at hnot
                cases hlist : (s.parties place).members with
                | nil => simp [hlist] at hmem
                | cons first rest =>
                    have hfirst : first ≠ id := fun heq => hnot ⟨_, rfl, by simp [hlist, heq]⟩
                    by_contra hleader
                    have hstays : first ≠ gone := fun heq => hleader (by
                      simp [Party.IsLeader, Party.getLeader, hlist, heq])
                    simp [hlist, hstays] at hhead
                    exact hfirst hhead
        next => exact (hnot (isPartyLeader_iff.2 ⟨members, hmembers, hhead⟩)).elim

/-- Who has been in a party does not come to lead one when another player joins. -/
theorem accept_leader (h : s.Sound) {inviter other : UInt32} (hne : inviter ≠ id)
    (hid : (s.players id).party = none) (hhas : s.HasParty other)
    (hnow : (s.accept id inviter).IsPartyLeader other) : s.IsPartyLeader other := by
  have hwindow := accept_partyOf h hne hid other
  have hother : other ≠ id := fun heq => hhas (heq ▸ hid)
  cases hinviter : (s.players inviter).party with
  | none =>
      have hother' : other ≠ inviter := fun heq => hhas (heq ▸ hinviter)
      have hnot : other ∉ [inviter, id] := by simp [hother, hother']
      simp only [acceptWrites, hinviter, windowAfter_make, if_neg hnot] at hwindow
      exact (isPartyLeader_congr hwindow.symm).1 hnow
  | some place =>
      simp only [acceptWrites, hinviter] at hwindow
      by_cases hleader : s.IsPartyLeader inviter
      · rw [if_pos hleader] at hwindow
        by_cases hfull : (s.parties place).IsFull
        · rw [Party.windowAfter_addMember_full hfull] at hwindow
          exact (isPartyLeader_congr hwindow.symm).1 hnow
        · rw [Party.windowAfter_addMember hfull] at hwindow
          by_cases hmem : other ∈ (s.parties place).members
          · -- The new member comes to the end of the list.
            have hparty := ((h.linked.mem_iff other place).1 hmem).1
            rw [if_pos (List.mem_append_left _ hmem)] at hwindow
            obtain ⟨members, hmembers, hhead⟩ := isPartyLeader_iff.1 hnow
            rw [← hwindow, Option.some.injEq] at hmembers
            rw [← hmembers, List.head?_append_of_ne_nil _ (List.ne_nil_of_mem hmem)] at hhead
            exact isPartyLeader_iff.2 ⟨_, partyOf_eq_some hparty, hhead⟩
          · have hnot : other ∉ (s.parties place).members ++ [id] := by simp [hmem, hother]
            rw [if_neg hnot] at hwindow
            exact (isPartyLeader_congr hwindow.symm).1 hnow
      · rw [if_neg hleader, windowAfter_nil] at hwindow
        exact (isPartyLeader_congr hwindow.symm).1 hnow

/-! ## Steps -/

/-- `MSG_BECOMEPARTYHEAD` goes to the members of a party that come to lead it. -/
def HeadsTold (s : System) (writes : List (UInt32 × Notice)) (s' : System) : Prop :=
  ∀ id, (id, .becomePartyHead) ∈ writes ↔
    s.HasParty id ∧ ¬ s.IsPartyLeader id ∧ s'.IsPartyLeader id

theorem HeadsTold.of_forall {writes : List (UInt32 × Notice)}
    (hwrites : ∀ id, (id, .becomePartyHead) ∉ writes)
    (hkept : ∀ id, s.HasParty id → s'.IsPartyLeader id → s.IsPartyLeader id) :
    s.HeadsTold writes s' := by
  intro id
  constructor
  · exact fun hmem => (hwrites id hmem).elim
  · rintro ⟨hhas, hnot, hnow⟩
    exact (hnot (hkept id hhas hnow)).elim

theorem HeadsTold.refl : s.HeadsTold [] s :=
  .of_forall (fun _ => List.not_mem_nil) fun _ _ hnow => hnow

theorem onAskParty_headsTold (id invited : UInt32) (inSight : Bool) :
    s.HeadsTold (s.onAskPartyWrites id invited inSight) (s.onAskParty id invited inSight) := by
  refine .of_forall ?_ fun other _ hnow => ?_
  · intro other
    unfold onAskPartyWrites
    repeat' split
    all_goals simp
  · refine (isPartyLeader_congr ?_).1 hnow
    unfold onAskParty
    repeat' split
    all_goals first | rfl | exact partyOf_setPartyInviterId invited id other

theorem accept_headsTold (h : s.Sound) {inviter : UInt32} (hne : inviter ≠ id)
    (hid : (s.players id).party = none) :
    s.HeadsTold (s.acceptWrites id inviter) (s.accept id inviter) := by
  refine .of_forall ?_ fun other hhas hnow => accept_leader h hne hid hhas hnow
  intro other
  unfold acceptWrites Party.makeWrites
  repeat' split
  all_goals simp [Party.becomePartyHead_not_mem_addMember]

theorem onAskPartyAnswer_headsTold (h : s.Sound) (id : UInt32) (answer : Bool) (inviter : UInt32)
    (inSight : Bool) :
    s.HeadsTold (s.onAskPartyAnswerWrites id answer inviter inSight)
      (s.onAskPartyAnswer id answer inviter inSight) := by
  have hreset : ∀ writes s', (s.resetPartyInviterId id).HeadsTold writes s' →
      s.HeadsTold writes s' := by
    intro writes s' htold other
    have hsame : (s.resetPartyInviterId id).partyOf other = s.partyOf other :=
      partyOf_setPartyInviterId id 0 other
    rw [htold other, hasParty_iff, hasParty_iff, hsame, isPartyLeader_congr hsame]
  unfold onAskPartyAnswerWrites onAskPartyAnswer
  split
  next => exact .refl
  next hne =>
      split
      next => exact .refl
      next hfree =>
          have hid : ((s.resetPartyInviterId id).players id).party = none := by
            rw [resetPartyInviterId, setPartyInviterId_party]
            exact not_not.1 hfree
          split
          next => exact .refl
          split
          next => exact .refl
          dsimp only
          refine hreset _ _ ?_
          split
          next => exact .refl
          split
          next => exact .of_forall (by simp) fun _ _ hnow => hnow
          next => exact accept_headsTold (setPartyInviterId_sound h id 0) hne hid

theorem removeMember_headsTold (h : s.Sound) (hparty : (s.players id).party = some place)
    (hdeparted : s.Departed place id s') {more : List (UInt32 × Notice)}
    (hmore : ∀ other, (other, .becomePartyHead) ∉ more) :
    s.HeadsTold (s.removeMemberWrites place id false ++ more) s' := by
  intro other
  have hmem := (h.linked.mem_iff id place).2 ⟨hparty, List.not_mem_nil⟩
  rw [List.mem_append, or_iff_left (hmore other), ← departed_leader_iff h hparty hdeparted]
  exact Party.becomePartyHead_mem_removeMember (h.sized.length_le place) hmem false

/-- Nobody is left to lead a party that loses its last member. -/
theorem becomePartyHead_not_mem_last {party : Party} {last other : UInt32}
    (hmembers : party.members = [last]) :
    (other, .becomePartyHead) ∉ party.removeMemberWrites last false := by
  have hle : party.members.length ≤ maxPartySize.toNat := by simp [hmembers, maxPartySize]
  rw [Party.becomePartyHead_mem_removeMember hle (by simp [hmembers]), hmembers]
  simp

theorem becomePartyHead_not_mem_dissolve {leaving : List UInt32} {other : UInt32}
    (hlinked : s.Linked leaving)
    (hle : (s.parties place).members.length ≤ maxPartySize.toNat) :
    (other, .becomePartyHead) ∉ s.dissolveWrites place := by
  unfold dissolveWrites
  by_cases hone : (s.parties place).getSize = 1
  · obtain ⟨last, hlast⟩ := List.length_eq_one_iff.1 ((Party.getSize_eq_one hle).1 hone)
    have hparty := ((hlinked.mem_iff last place).1 (by simp [hlast])).1
    rw [if_pos hone]
    simp only [Party.getLeader, hlast, List.head?_cons, hparty]
    exact becomePartyHead_not_mem_last hlast
  · rw [if_neg hone]
    exact List.not_mem_nil

theorem leaveParty_headsTold (h : s.Sound) (hleave : s.leaveParty id = .ok s') :
    s.HeadsTold (s.leavePartyWrites id) s' := by
  cases hparty : (s.players id).party with
  | none =>
      unfold leaveParty at hleave
      unfold leavePartyWrites
      rw [hparty] at hleave ⊢
      rw [← Except.ok.inj hleave]
      exact .refl
  | some place =>
      obtain ⟨⟨t, ht, hdeparted⟩, -⟩ := leaveParty_departed h hparty
      have hmem := (h.linked.mem_iff id place).2 ⟨hparty, List.not_mem_nil⟩
      rw [ht] at hleave
      rw [← Except.ok.inj hleave]
      unfold leavePartyWrites
      simp only [hparty, removeMember_eq hmem]
      refine removeMember_headsTold h hparty hdeparted fun other => ?_
      exact becomePartyHead_not_mem_dissolve (h.linked.withoutMember hparty)
        (h.sized.withoutMember.length_le place)

theorem ban_headsTold {banned : UInt32} (h : s.Sound) (hne : banned ≠ id)
    (hid : (s.players id).party = some place) (hbanned : (s.players banned).party = some place)
    (hban : s.ban id banned place = .ok s') : s.HeadsTold (s.banWrites id banned place) s' := by
  obtain ⟨⟨t, ht, hdeparted⟩, -⟩ := ban_departed h hne hid hbanned
  have hmem := (h.linked.mem_iff banned place).2 ⟨hbanned, List.not_mem_nil⟩
  rw [ht] at hban
  rw [← Except.ok.inj hban]
  unfold banWrites
  simp only [removeMember_eq hmem]
  refine removeMember_headsTold h hbanned hdeparted fun other => ?_
  change _ ∉ if ((s.expelled place banned).parties place).getSize = 1 then
      (s.expelled place banned).removeMemberWrites place id false else []
  by_cases hone : ((s.expelled place banned).parties place).getSize = 1
  · have hsized : (s.expelled place banned).Sized [place] := h.expelled_sized banned
    have hle := hsized.length_le place
    obtain ⟨last, hlast⟩ := List.length_eq_one_iff.1 ((Party.getSize_eq_one hle).1 hone)
    have hid' : ((s.expelled place banned).players id).party = some place := by
      rw [expelled_players_of_ne (Ne.symm hne), hid]
    have hin := ((h.expelled_linked hbanned).mem_iff id place).2 ⟨hid', List.not_mem_nil⟩
    rw [hlast, List.mem_singleton] at hin
    rw [if_pos hone, hin]
    exact becomePartyHead_not_mem_last hlast
  · rw [if_neg hone]
    exact List.not_mem_nil

theorem banFromParty_headsTold {banned : UInt32} (h : s.Sound)
    (hban : s.banFromParty id banned = .ok s') : s.HeadsTold (s.banFromPartyWrites id banned) s' := by
  rcases banFromParty_cases s id banned with
    ⟨hok, hwrites⟩ | ⟨place, hne, hid, hbanned, hok, hwrites⟩
  · rw [hok] at hban
    rw [hwrites, ← Except.ok.inj hban]
    exact .refl
  · rw [hok] at hban
    rw [hwrites]
    exact ban_headsTold h hne hid hbanned hban

theorem leaveParty_leaveWorld_headsTold (h : s.Sound)
    (hleave : (do let s ← s.leaveParty id; return s.leaveWorld id) = .ok s') :
    s.HeadsTold (s.leavePartyWrites id) s' := by
  obtain ⟨t, ht, hworld⟩ := bind_eq_ok.1 hleave
  rw [← Except.ok.inj hworld]
  exact fun other => leaveParty_headsTold h ht other

theorem step_headsTold (h : s.Sound) {event : Event} (hstep : s.step event = .ok s') :
    s.HeadsTold (s.writes event) s' := by
  cases event with
  | onStart id =>
      rw [← Except.ok.inj hstep]
      exact .refl
  | handle id op =>
      rw [step] at hstep
      rw [writes]
      by_cases hid : id ∈ s.inWorld
      · rw [if_pos hid] at hstep ⊢
        cases op with
        | onAskParty invited inSight =>
            rw [← Except.ok.inj hstep]
            exact onAskParty_headsTold id invited inSight
        | onAskPartyAnswer answer inviter inSight =>
            rw [← Except.ok.inj hstep]
            exact onAskPartyAnswer_headsTold h id answer inviter inSight
        | onLeaveParty => exact leaveParty_headsTold h hstep
        | banFromParty banned => exact banFromParty_headsTold h hstep
        | onRestart ask =>
            cases ask with
            | true =>
                rw [← Except.ok.inj hstep]
                exact .refl
            | false => exact leaveParty_leaveWorld_headsTold h hstep
        | onDisconnected => exact leaveParty_leaveWorld_headsTold h hstep
      · rw [if_neg hid] at hstep ⊢
        rw [← Except.ok.inj hstep]
        exact .refl

/-! ## Runs -/

/-- In every step of a run `MSG_BECOMEPARTYHEAD` is written to a player exactly when it has been a
    member of a party, but not the leader, and leads one now. -/
theorem becomePartyHead_iff (events : List Event) {event : Event}
    (hrun : run step empty events = .ok s) (hstep : s.step event = .ok s') (id : UInt32) :
    (id, .becomePartyHead) ∈ s.writes event ↔
      s.HasParty id ∧ ¬ s.IsPartyLeader id ∧ s'.IsPartyLeader id := by
  have hsound : s.Sound := run_preserves (fun s event t h ht => by
    obtain ⟨t', ht', hsound⟩ := step_spec h event
    rw [ht] at ht'
    rwa [Except.ok.inj ht']) empty_sound hrun
  exact step_headsTold hsound hstep id

/-- Player 1 forms a party with players 2 and 3. -/
def trio : List Event :=
  [.onStart 1, .onStart 2, .onStart 3,
    .handle 1 (.onAskParty 2 true), .handle 2 (.onAskPartyAnswer true 1 true),
    .handle 1 (.onAskParty 3 true), .handle 3 (.onAskPartyAnswer true 1 true)]

theorem becomePartyHead_iff_trio :
    ∃ s s', run step empty trio = .ok s ∧ s.step (.handle 1 .onLeaveParty) = .ok s' ∧
      ((2, .becomePartyHead) ∈ s.writes (.handle 1 .onLeaveParty) ↔
        s.HasParty 2 ∧ ¬ s.IsPartyLeader 2 ∧ s'.IsPartyLeader 2) ∧ s'.IsPartyLeader 2 :=
  ⟨_, _, rfl, rfl, becomePartyHead_iff trio rfl rfl 2, by decide⟩

end System

end Bango.Parties
