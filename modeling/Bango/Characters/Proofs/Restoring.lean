import Bango.Characters.Proofs.Seen

set_option autoImplicit false

/-! # Players that come back

A player that has been loaded is what its record will be once the messages about it have been handled.
The request to load it is behind them on the same link, so what is loaded later is what was left. -/

namespace Bango.Characters

open Bango.Lib

variable {db : SkillDb} {idplayer idaccount : Int32}

/-! ## What every step preserves of a view -/

namespace View

variable {v v' : View} {message : S2D} {messages rest : List S2D}

theorem settled_append (v : View) {record : Record} (messages : List S2D) (h : v.settled = some record) :
    (v.link ++ messages).foldl Record.applyTo v.record =
      some (messages.foldl Record.apply record) := by
  rw [List.foldl_append]
  show messages.foldl Record.applyTo v.settled = _
  rw [h, foldl_applyTo]

/-- The record of a player of the account is not changed by others. -/
theorem settled_others (hother : ∀ m ∈ messages, v.IsOther idaccount m) (howned : Record.Owned idaccount v.record) :
    (v.link ++ messages).foldl Record.applyTo v.record = v.settled := by
  rw [List.foldl_append]
  exact foldl_applyTo_of_isLoad (fun m hm => (hother m hm).2 howned) _

theorem settled_cons (hlink : v.link = message :: rest) :
    rest.foldl Record.applyTo (Record.applyTo v.record message) = v.settled := by
  rw [settled, hlink, List.foldl_cons]

/-- A message that does not ask for the account has no replies to it. -/
theorem replies_of_not_loadBy (h : ¬ message.IsLoadBy idaccount) (record : Option Record) :
    pending D2S.key (message.replies record) (idaccount, idplayer) = [] := by
  rw [pending_replies, if_neg fun hand => h hand.1]

theorem Calm.append (h : v.Calm idaccount) (hmessages : ∀ m ∈ messages, ¬ m.IsLoadBy idaccount)
    (role : Role) : Calm idaccount { v with role, link := v.link ++ messages } where
  noLoad := by
    intro m hm
    rcases List.mem_append.1 hm with hm | hm
    · exact h.noLoad m hm
    · exact hmessages m hm
  replies := h.replies

/-- Others write something about the player. -/
theorem Fine.others (h : v.Fine db idplayer idaccount)
    (hother : ∀ m ∈ messages, v.IsOther idaccount m) :
    Fine db idplayer idaccount { v with link := v.link ++ messages } := by
  have hsettled : ∀ record, (v.link ++ messages).foldl Record.applyTo v.record = some record →
      record.idaccount = idaccount → v.settled = some record := by
    intro record hrecord hid
    have howned : Record.Owned idaccount v.record :=
      owned_of_settled (v := { v with link := v.link ++ messages }) hrecord hid
    exact (settled_others hother howned).symm.trans hrecord
  have hnot : ∀ m ∈ messages, ¬ m.IsLoadBy idaccount := fun m hm => (hother m hm).1
  refine ⟨fun record hrecord hid => ?_, fun haway => ?_, fun user hasking => ?_, fun s hplaying => ?_⟩
  · exact h.loadable record (hsettled record hrecord hid) hid
  · exact (h.away haway).append hnot v.role
  · obtain ⟨hreset, hwaits⟩ := h.asking user hasking
    refine ⟨hreset, ?_⟩
    cases hwaits with
    | @asked before after hlink hbefore hafter hreplies =>
        have hlink' : v.link ++ messages =
            before ++ .loadPlayer idplayer idaccount :: (after ++ messages) := by
          rw [hlink, List.append_assoc, List.cons_append]
        refine .asked hlink' hbefore (fun m hm => ?_) hreplies
        exact (List.mem_append.1 hm).elim (hafter m) (hother m)
    | answered hlink hreplies =>
        exact .answered (fun m hm => (List.mem_append.1 hm).elim (hlink m) (hother m)) hreplies
  · obtain ⟨hcalm, hid, hinv, record, hrecord, haccount, hshown⟩ := h.playing s hplaying
    refine ⟨hcalm.append hnot v.role, hid, hinv, record, ?_, haccount, hshown⟩
    exact (settled_others hother (owned_of_settled hrecord haccount)).trans hrecord

/-- A session of the account that has no player asks for it. -/
theorem Fine.enter (h : v.Fine db idplayer idaccount) (hrole : v.role = .away) {user : Skilled}
    (hreset : user.IsReset) :
    Fine db idplayer idaccount
      { v with role := .asking user, link := v.link ++ [.loadPlayer idplayer idaccount] } := by
  obtain ⟨hnoLoad, hreplies⟩ := h.away hrole
  refine ⟨fun record hrecord hid => ?_, nofun, ?_, nofun⟩
  · refine h.loadable record (Eq.trans ?_ hrecord) hid
    show v.settled = (v.link ++ [S2D.loadPlayer idplayer idaccount]).foldl Record.applyTo v.record
    rw [List.foldl_append]
    exact (applyTo_loadPlayer idplayer idaccount _).symm
  · rintro _ ⟨⟩
    exact ⟨hreset, .asked rfl hnoLoad nofun hreplies⟩

/-- A handler of the player. -/
theorem Fine.act (h : v.Fine db idplayer idaccount) {s s' : Skilled} (hrole : v.role = .playing s)
    (htells : s.Tells db s' messages) :
    Fine db idplayer idaccount { v with role := .playing s', link := v.link ++ messages } := by
  obtain ⟨hcalm, hid, hinv, record, hrecord, haccount, hshown⟩ := h.playing s hrole
  have hsettled := settled_append v messages hrecord
  have hshown' := htells.shown record hshown
  have hnot : ∀ m ∈ messages, ¬ m.IsLoadBy idaccount :=
    fun m hm hload => (htells.about m hm).2 hload.isLoad
  refine ⟨fun record' hrecord' _ => ?_, nofun, nofun, ?_⟩
  · cases hsettled.symm.trans hrecord'
    exact hshown'.loadable (htells.inv hinv)
  · rintro _ ⟨⟩
    refine ⟨hcalm.append hnot _, htells.idplayer.trans hid, htells.inv hinv, _, hsettled, ?_, hshown'⟩
    rw [foldl_apply_idaccount, haccount]

/-- The player is saved, and left. -/
theorem Fine.leave (h : v.Fine db idplayer idaccount) {s : Skilled} (hrole : v.role = .playing s)
    {left : Role} (hleft : left = .away ∨ left = .absent) :
    Fine db idplayer idaccount
      { v with role := left, link := v.link ++ [.saveAllProperty s.player.saved] } := by
  obtain ⟨hcalm, -, hinv, record, hrecord, -, hshown⟩ := h.playing s hrole
  have hsettled := settled_append v [.saveAllProperty s.player.saved] hrecord
  refine ⟨fun record' hrecord' _ => ?_, fun _ => ?_, fun user hasking => ?_, fun s' hplaying => ?_⟩
  · cases hsettled.symm.trans hrecord'
    exact hshown.savedIn.loadable hinv
  · exact hcalm.append (List.forall_mem_singleton.2 id) left
  · rcases hleft with rfl | rfl
    · cases hasking
    · cases hasking
  · rcases hleft with rfl | rfl
    · cases hplaying
    · cases hplaying

/-- The DB server handles a message about the player. -/
theorem Fine.database (h : v.Fine db idplayer idaccount) (hlink : v.link = message :: rest) :
    Fine db idplayer idaccount
      { v with
        link := rest
        record := Record.applyTo v.record message
        replies := v.replies ++ pending D2S.key (message.replies v.record) (idaccount, idplayer) } := by
  have hsettled := settled_cons hlink
  have hmem : message ∈ v.link := hlink ▸ List.mem_cons_self
  have hrest : ∀ m ∈ rest, m ∈ v.link := fun m hm => hlink ▸ List.mem_cons_of_mem _ hm
  have hcalm : v.Calm idaccount → Calm idaccount
      { v with
        link := rest
        record := Record.applyTo v.record message
        replies := v.replies ++ pending D2S.key (message.replies v.record) (idaccount, idplayer) } := by
    intro hcalm
    refine ⟨fun m hm => hcalm.noLoad m (hrest m hm), ?_⟩
    simp only [hcalm.replies, replies_of_not_loadBy (hcalm.noLoad message hmem), List.append_nil]
  have hother : ∀ m, v.IsOther idaccount m → IsOther idaccount
      { v with
        link := rest
        record := Record.applyTo v.record message
        replies := v.replies ++ pending D2S.key (message.replies v.record) (idaccount, idplayer) } m :=
    fun m hm => ⟨hm.1, fun howned => hm.2 ((Record.owned_applyTo message).1 howned)⟩
  refine ⟨fun record hrecord => h.loadable record (hsettled.symm.trans hrecord),
    fun haway => hcalm (h.away haway), fun user hasking => ?_, fun s hplaying => ?_⟩
  · obtain ⟨hreset, hwaits⟩ := h.asking user hasking
    refine ⟨hreset, ?_⟩
    cases hwaits with
    | @asked before after hasked hbefore hafter hreplies =>
        rw [hlink] at hasked
        cases before with
        | nil =>
            -- the request itself is handled
            obtain ⟨rfl, rfl⟩ := List.cons.inj hasked
            refine .answered (fun m hm => hother m (hafter m hm)) ?_
            simp only [hreplies, List.nil_append, pending_replies, applyTo_loadPlayer]
            exact if_pos ⟨rfl, rfl⟩
        | cons first before =>
            obtain ⟨rfl, rfl⟩ := List.cons.inj hasked
            refine .asked rfl (fun m hm => hbefore m (List.mem_cons_of_mem _ hm))
              (fun m hm => hother m (hafter m hm)) ?_
            simp only [hreplies, replies_of_not_loadBy (hbefore _ List.mem_cons_self), List.append_nil]
    | answered hothers hreplies =>
        refine .answered (fun m hm => hother m (hothers m (hrest m hm))) ?_
        simp only [replies_of_not_loadBy (hothers message hmem).1, List.append_nil, hreplies]
        by_cases howned : Record.Owned idaccount v.record
        · rw [applyTo_of_isLoad ((hothers message hmem).2 howned)]
        · rw [Record.replies_of_not_owned howned,
            Record.replies_of_not_owned (mt (Record.owned_applyTo message).1 howned)]
  · obtain ⟨hcalm', hid, hinv, record, hrecord, haccount, hshown⟩ := h.playing s hplaying
    exact ⟨hcalm hcalm', hid, hinv, record, hsettled.trans hrecord, haccount, hshown⟩

/-- The account gives the player up, or never had it. -/
theorem Fine.absent (h : v.Fine db idplayer idaccount) :
    Fine db idplayer idaccount { v with role := .absent } :=
  ⟨h.loadable, nofun, nofun, nofun⟩

/-- Nothing of an earlier session is in flight when another one is logged in. -/
theorem Fine.login (h : v.Fine db idplayer idaccount) (hcalm : v.Calm idaccount) :
    Fine db idplayer idaccount { v with role := .away } :=
  ⟨h.loadable, fun _ => ⟨hcalm.noLoad, hcalm.replies⟩, nofun, nofun⟩

/-- A session that has asked for the player is told that there is none. -/
theorem Fine.refuse (h : v.Fine db idplayer idaccount) {reply : D2S} {replies : List D2S}
    {user : Skilled} (hreplies : v.replies = reply :: replies) (hrole : v.role = .asking user) :
    Fine db idplayer idaccount { v with role := .away, replies } := by
  obtain ⟨hnil, hnoLoad, -⟩ := (h.asking user hrole).2.settled_eq hreplies
  exact ⟨h.loadable, fun _ => ⟨hnoLoad, hnil⟩, nofun, nofun⟩

/-- A session that has asked for the player gets it. -/
theorem Fine.load (h : v.Fine db idplayer idaccount) {reply : D2S} {replies : List D2S}
    {user s : Skilled} {row : PlayerRow} {skills : List SkillRow}
    (hreplies : v.replies = reply :: replies) (hrole : v.role = .asking user)
    (hloaded : reply.loaded = some (row, skills))
    (hload : user.load db idaccount idplayer row skills = .ok s) :
    Fine db idplayer idaccount { v with role := .playing s, replies } := by
  obtain ⟨hreset, hwaits⟩ := h.asking user hrole
  obtain ⟨hnil, hnoLoad, hrecord⟩ := hwaits.settled_eq hreplies
  obtain ⟨record, hsettled, rfl, rfl, rfl⟩ := hrecord row skills hloaded
  obtain ⟨hshown, hinv, -⟩ := Skilled.shownBy_load (h.loadable record hsettled rfl) hreset hload
  refine ⟨h.loadable, nofun, nofun, ?_⟩
  rintro _ ⟨⟩
  exact ⟨⟨hnoLoad, hnil⟩, Skilled.playerId_of_load hload, hinv, record, hsettled, rfl, hshown⟩

/-- One lemma for every step, one case for each kind of it. -/
theorem Step.fine {acts : Bool} (h : Step db idplayer idaccount acts v v')
    (hfine : v.Fine db idplayer idaccount) : v'.Fine db idplayer idaccount := by
  cases h with
  | others hmessages => exact hfine.others hmessages
  | login hrole hlink hreplies => exact hfine.login ⟨hlink, hreplies⟩
  | enter user hrole hreset => exact hfine.enter hrole hreset
  | giveUp hrole => exact hfine.absent
  | act hrole hact => exact hfine.act hrole (Skilled.act_tells hact)
  | leave hrole hleft => exact hfine.leave hrole hleft
  | quit hrole => exact hfine.absent
  | database hlink => exact hfine.database hlink
  | load hreplies hrole hloaded hload => exact hfine.load hreplies hrole hloaded hload
  | refuse hreplies hrole hloaded => exact hfine.refuse hreplies hrole
  | drop hreplies hrole =>
      refine ⟨hfine.loadable, fun haway => ?_, fun user hasking => ?_, fun s hplaying => ?_⟩
      · cases hrole.symm.trans haway
      · cases hrole.symm.trans hasking
      · cases hrole.symm.trans hplaying

/-- A player that was left has come back, or is still in its record. -/
def Keeps (idaccount : Int32) (s : Skilled) (v : View) : Prop :=
  (∃ s', v.role = .playing s' ∧ s.Restored s') ∨
    (∀ s', v.role ≠ .playing s') ∧
      ∃ record, v.settled = some record ∧ record.idaccount = idaccount ∧ s.SavedIn record

/-- Nothing but its own handlers changes what is kept of a player. -/
theorem Step.keeps {s : Skilled} (h : Step db idplayer idaccount false v v')
    (hfine : v.Fine db idplayer idaccount) (hinv : s.Inv db)
    (hid : s.player.data.playerId = idplayer) (hkeeps : v.Keeps idaccount s) :
    v'.Keeps idaccount s := by
  subst hid
  rcases hkeeps with ⟨s', hplaying, hrestored⟩ | ⟨hnot, record, hrecord, haccount, hsaved⟩
  · cases h with
    | others hmessages => exact .inl ⟨s', hplaying, hrestored⟩
    | login hrole => cases hrole.symm.trans hplaying
    | enter user hrole => cases hrole.symm.trans hplaying
    | giveUp hrole => exact absurd hplaying (hrole s')
    | database => exact .inl ⟨s', hplaying, hrestored⟩
    | load hreplies hrole => cases hrole.symm.trans hplaying
    | refuse hreplies hrole => cases hrole.symm.trans hplaying
    | drop hreplies hrole => cases hrole.symm.trans hplaying
  · cases h with
    | others hmessages =>
        refine .inr ⟨hnot, record, ?_, haccount, hsaved⟩
        exact (settled_others hmessages (owned_of_settled hrecord haccount)).trans hrecord
    | login => exact .inr ⟨nofun, record, hrecord, haccount, hsaved⟩
    | enter user =>
        refine .inr ⟨nofun, record, ?_, haccount, hsaved⟩
        exact settled_append v [.loadPlayer s.player.data.playerId idaccount] hrecord
    | giveUp => exact .inr ⟨nofun, record, hrecord, haccount, hsaved⟩
    | database hlink =>
        exact .inr ⟨hnot, record, (settled_cons hlink).trans hrecord, haccount, hsaved⟩
    | load hreplies hrole hloaded hload =>
        obtain ⟨hreset, hwaits⟩ := hfine.asking _ hrole
        obtain ⟨-, -, hthere⟩ := hwaits.settled_eq hreplies
        obtain ⟨record', hrecord', rfl, rfl, rfl⟩ := hthere _ _ hloaded
        cases hrecord.symm.trans hrecord'
        have hloadable := hfine.loadable record hrecord haccount
        exact .inl ⟨_, rfl, hsaved.restored hinv hloadable hreset hload⟩
    | refuse => exact .inr ⟨nofun, record, hrecord, haccount, hsaved⟩
    | drop => exact .inr ⟨hnot, record, hrecord, haccount, hsaved⟩

end View

/-! ## Runs -/

namespace Saving

variable {s s' : Saving} {op : Op} {ops : List Op} {other : Int32}

theorem AllFine.step (h : s.AllFine db) (hproper : s.Proper op) (hstep : step db s op = .ok s') :
    s'.AllFine db where
  sessions := (h.sees hproper hstep).sessions
  views := fun idplayer idaccount => by
    obtain ⟨acts, -, hview⟩ := (h.sees hproper hstep).views idplayer idaccount
    exact hview.fine (h.views idplayer idaccount)

theorem AllFine.run (h : s.AllFine db) (hproper : Admissible (Saving.step db) Proper s ops)
    (hrun : run (Saving.step db) s ops = .ok s') : s'.AllFine db :=
  run_invariant (fun _ _ _ hfine => hfine.step) h hproper hrun

/-- A player that has been loaded is what its record will be. -/
theorem AllFine.plays (h : s.AllFine db) {session : Session} (hget : s.sessions idaccount = some session)
    (hload : session.load = .done) :
    (s.view session.playerId idaccount).Plays db session.playerId idaccount session.player := by
  refine (h.views session.playerId idaccount).playing _ ?_
  show Role.of session.playerId (s.sessions idaccount) = _
  rw [hget, Role.of_plays ⟨hload, rfl⟩]

/-- The player is kept for its account: it has come back, or is still in its record. -/
structure Kept (db : SkillDb) (idaccount : Int32) (left : Skilled) (s : Saving) : Prop where
  fine : s.AllFine db
  keeps : (s.view left.player.data.playerId idaccount).Keeps idaccount left

variable {left : Skilled}

/-- A player that is left is kept, whatever the others do. -/
theorem Kept.step (h : s.Kept db idaccount left) (hinv : left.Inv db) (hproper : s.Proper op)
    (hnot : ¬ s.ActsFor left.player.data.playerId op) (hstep : step db s op = .ok s') :
    s'.Kept db idaccount left := by
  obtain ⟨acts, hacts, hview⟩ :=
    (h.fine.sees hproper hstep).views left.player.data.playerId idaccount
  refine ⟨h.fine.step hproper hstep, ?_⟩
  cases acts with
  | true => exact absurd (hacts rfl) hnot
  | false => exact hview.keeps (h.fine.views _ _) hinv rfl h.keeps

theorem Kept.run (h : s.Kept db idaccount left) (hinv : left.Inv db)
    (hquiet : Admissible (Saving.step db)
      (fun t op => t.Proper op ∧ ¬ t.ActsFor left.player.data.playerId op) s ops)
    (hrun : run (Saving.step db) s ops = .ok s') : s'.Kept db idaccount left :=
  run_invariant (fun _ _ _ hkept hguard => hkept.step hinv hguard.1 hguard.2) h hquiet hrun

/-- The player is one of its account only. -/
theorem Kept.owner (h : s.Kept db idaccount left) {record : Record}
    (hsettled : (s.view left.player.data.playerId other).settled = some record)
    (hid : record.idaccount = other) : other = idaccount := by
  have hthere : ∃ record, (s.view left.player.data.playerId idaccount).settled = some record ∧
      record.idaccount = idaccount := by
    rcases h.keeps with ⟨back, hplaying, -⟩ | ⟨-, record, hrecord, hid, -⟩
    · obtain ⟨record, hrecord, hid, -⟩ := ((h.fine.views _ _).playing back hplaying).shown
      exact ⟨record, hrecord, hid⟩
    · exact ⟨record, hrecord, hid⟩
  obtain ⟨record', hsettled', hid'⟩ := hthere
  cases hsettled.symm.trans hsettled'
  exact hid.symm.trans hid'

/-- Whoever plays the player later has what was left. -/
theorem Kept.restored (h : s.Kept db idaccount left) {session : Session}
    (hget : s.sessions other = some session) (hplays : session.Plays left.player.data.playerId) :
    left.Restored session.player := by
  obtain ⟨hload, hid⟩ := hplays
  obtain ⟨record, hrecord, haccount, -⟩ := (h.fine.plays hget hload).shown
  rw [hid] at hrecord
  obtain rfl := h.owner hrecord haccount
  have hrole : (s.view left.player.data.playerId other).role = .playing session.player := by
    show Role.of left.player.data.playerId (s.sessions other) = _
    rw [hget, Role.of_plays ⟨hload, hid⟩]
  rcases h.keeps with ⟨back, hplaying, hrestored⟩ | ⟨hnot, -⟩
  · cases hrole.symm.trans hplaying
    exact hrestored
  · exact absurd hrole (hnot session.player)

end Saving

end Bango.Characters
