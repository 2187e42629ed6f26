import Bango.Characters.Proofs.Views

set_option autoImplicit false

/-! # What the steps are in the views

A handler of a session is one step in the view of its player, and in the others it writes something at
most. A message, and a reply, is one step in the view of the player that it is about. -/

namespace Bango.Characters

open Bango.Lib

namespace Saving

variable {db : SkillDb} {s s' : Saving} {op : Op} {idplayer idaccount other : Int32}

/-! ## The handlers of a session -/

/-- For the other accounts something may have been written about the player. -/
theorem view_others {new : Option Session} {messages : List S2D} (hne : idaccount ≠ other)
    (hmessages : ∀ m ∈ messages, ¬ m.IsLoadBy idaccount ∧
      (m.IsLoad ∨ ∀ record, s.tables m.idplayer = some record → record.idaccount = other)) :
    View.Step db idplayer idaccount false (s.view idplayer idaccount)
      (((s.setSession other new).write messages).view idplayer idaccount) := by
  rw [view_write, view_setSession_ne _ _ hne]
  refine .others fun m hm => ?_
  obtain ⟨hmem, habout⟩ := List.mem_filter.1 hm
  obtain ⟨hnot, hother⟩ := hmessages m hmem
  refine ⟨hnot, fun ⟨record, hrecord, hid⟩ => hother.resolve_right fun h => hne ?_⟩
  rw [← hid]
  exact h record (of_decide_eq_true habout ▸ hrecord)

/-- What a loaded session writes is about its player. -/
theorem AllFine.others (h : s.AllFine db) {session : Session} {messages : List S2D}
    (hsession : s.sessions other = some session) (hload : session.load = .done)
    (habout : ∀ m ∈ messages, m.idplayer = session.playerId ∧ ¬ m.IsLoad) :
    ∀ m ∈ messages, ¬ m.IsLoadBy idaccount ∧
      (m.IsLoad ∨ ∀ record, s.tables m.idplayer = some record → record.idaccount = other) := by
  intro m hm
  obtain ⟨hid, hnot⟩ := habout m hm
  refine ⟨fun hload => hnot hload.isLoad, .inr fun record hrecord => ?_⟩
  exact h.owner hsession hload (hid ▸ hrecord)

/-- The account has another player. -/
theorem view_away {new : Option Session} {messages : List S2D}
    (hold : Role.of idplayer (s.sessions idaccount) = .away)
    (hnew : Role.of idplayer new = .away) (habout : ∀ m ∈ messages, m.idplayer ≠ idplayer) :
    View.Step db idplayer idaccount false (s.view idplayer idaccount)
      (((s.setSession idaccount new).write messages).view idplayer idaccount) := by
  have hsame : ((s.setSession idaccount new).write messages).view idplayer idaccount =
      s.view idplayer idaccount := by
    rw [view_write, view_setSession_self, pending_of_forall_ne habout, List.append_nil, hnew, ← hold]
    rfl
  rw [hsame]
  exact .stay _ _ _ _

theorem view_enter {session : Session} (hfine : session.Fine) (hidle : session.load = .idle)
    (hget : s.sessions other = some session) (asked : Int32) :
    View.Step db idplayer idaccount false (s.view idplayer idaccount)
      (((s.setSession other (some { session with
          lobby := false, loading := true, load := .asked asked })).write
        [.loadPlayer asked other]).view idplayer idaccount) := by
  by_cases hid : idaccount = other
  · subst hid
    have haway : Role.of idplayer (s.sessions idaccount) = .away := by rw [hget, Role.of_idle hidle]
    by_cases hasked : asked = idplayer
    · subst hasked
      have habout : ∀ m ∈ [S2D.loadPlayer asked idaccount], m.idplayer = asked :=
        List.forall_mem_singleton.2 rfl
      rw [view_write, view_setSession_self, Role.of_asked rfl, pending_of_forall habout]
      exact .enter session.player haway (hfine.reset (by rw [hidle]; exact nofun))
    · exact view_away haway (Role.of_asked_ne rfl hasked) (List.forall_mem_singleton.2 hasked)
  · exact view_others hid (List.forall_mem_singleton.2 ⟨Ne.symm hid, .inl trivial⟩)

/-- What does not concern the player of a session. -/
theorem view_same {session session' : Session} (hget : s.sessions other = some session)
    (hplayer : session'.player = session.player) (hload : session'.load = session.load) :
    View.Step db idplayer idaccount false (s.view idplayer idaccount)
      ((s.setSession other (some session')).view idplayer idaccount) := by
  have hrole : Role.of idplayer (some session') = Role.of idplayer (some session) := by
    simp only [Role.of, Session.playerId, hplayer, hload]
    rfl
  by_cases hid : idaccount = other
  · subst hid
    rw [view_setSession_self, hrole, ← hget]
    exact .stay _ _ _ _
  · rw [view_setSession_ne _ _ hid]
    exact .stay _ _ _ _

theorem view_act (h : s.AllFine db) {session : Session} (hget : s.sessions other = some session)
    (hload : session.load = .done) {deed : Deed} {player : Skilled} {messages : List S2D}
    (hact : session.player.act db deed = .ok (player, messages)) :
    ∃ acts, (acts = true → session.Plays idplayer) ∧
      View.Step db idplayer idaccount acts (s.view idplayer idaccount)
        (((s.setSession other (some { session with player })).write messages).view idplayer
          idaccount) := by
  have htells := Skilled.act_tells hact
  by_cases hid : idaccount = other
  · subst hid
    by_cases hplays : session.playerId = idplayer
    · subst hplays
      refine ⟨true, fun _ => ⟨hload, rfl⟩, ?_⟩
      have hrole : (s.view session.playerId idaccount).role = .playing session.player := by
        show Role.of session.playerId (s.sessions idaccount) = _
        rw [hget, Role.of_plays ⟨hload, rfl⟩]
      have hnew : ({ session with player } : Session).Plays session.playerId :=
        ⟨hload, htells.idplayer⟩
      have habout : ∀ m ∈ messages, m.idplayer = session.playerId := fun m hm => (htells.about m hm).1
      rw [view_write, view_setSession_self, Role.of_plays hnew, pending_of_forall habout]
      exact .act hrole hact
    · have hnew : ({ session with player } : Session).playerId ≠ idplayer :=
        htells.idplayer.trans_ne hplays
      refine ⟨false, nofun, view_away ?_ ?_ fun m hm => (htells.about m hm).1.trans_ne hplays⟩
      · rw [hget, Role.of_done_ne hload hplays]
      · exact Role.of_done_ne hload hnew
  · exact ⟨false, nofun, view_others hid (h.others hget hload htells.about)⟩

/-- A session in the game is left, and saved. -/
theorem view_leave (h : s.AllFine db) {session : Session} (hget : s.sessions other = some session)
    (hload : session.load = .done) {new : Option Session}
    (hnew : ∀ idplayer, Role.of idplayer new = .away ∨ Role.of idplayer new = .absent) :
    ∃ acts, (acts = true → session.Plays idplayer) ∧
      View.Step db idplayer idaccount acts (s.view idplayer idaccount)
        (((s.setSession other new).write [.saveAllProperty session.player.player.saved]).view idplayer
          idaccount) := by
  have habout : ∀ m ∈ [S2D.saveAllProperty session.player.player.saved],
      m.idplayer = session.playerId ∧ ¬ m.IsLoad := List.forall_mem_singleton.2 ⟨rfl, id⟩
  by_cases hid : idaccount = other
  · subst hid
    by_cases hplays : session.playerId = idplayer
    · subst hplays
      refine ⟨true, fun _ => ⟨hload, rfl⟩, ?_⟩
      have hrole : (s.view session.playerId idaccount).role = .playing session.player := by
        show Role.of session.playerId (s.sessions idaccount) = _
        rw [hget, Role.of_plays ⟨hload, rfl⟩]
      rw [view_write, view_setSession_self, pending_of_forall fun m hm => (habout m hm).1]
      exact .leave hrole (hnew session.playerId)
    · have haway : (s.view idplayer idaccount).role = .away := by
        show Role.of idplayer (s.sessions idaccount) = _
        rw [hget, Role.of_done_ne hload hplays]
      refine ⟨false, nofun, ?_⟩
      rcases hnew idplayer with hnew | hnew
      · exact view_away haway hnew fun m hm => (habout m hm).1.trans_ne hplays
      · rw [view_write, view_setSession_self, hnew,
          pending_of_forall_ne fun m hm => (habout m hm).1.trans_ne hplays, List.append_nil]
        exact .giveUp fun _ hplaying => by cases haway.symm.trans hplaying
  · exact ⟨false, nofun, view_others hid (h.others hget hload habout)⟩

/-- A session that is not in the game is disconnected. -/
theorem view_disconnect {session : Session} (hget : s.sessions other = some session) :
    ∃ acts, (acts = true → session.Plays idplayer) ∧
      View.Step db idplayer idaccount acts (s.view idplayer idaccount)
        ((s.setSession other none).view idplayer idaccount) := by
  by_cases hid : idaccount = other
  · subst hid
    rw [view_setSession_self]
    by_cases hplays : session.Plays idplayer
    · refine ⟨true, fun _ => hplays, .quit (s := session.player) ?_⟩
      show Role.of idplayer (s.sessions idaccount) = _
      rw [hget, Role.of_plays hplays]
    · refine ⟨false, nofun, .giveUp fun player hrole => hplays ?_⟩
      have hrole : Role.of idplayer (s.sessions idaccount) = .playing player := hrole
      rw [hget] at hrole
      exact (Role.plays_of_playing hrole).1
  · rw [view_setSession_ne _ _ hid]
    exact ⟨false, nofun, .stay _ _ _ _⟩

/-! ## Logging in, and the links -/

theorem view_login (hget : s.sessions other = none) (hsettled : s.Settled other) {session : Session}
    (hidle : session.load = .idle) :
    View.Step db idplayer idaccount false (s.view idplayer idaccount)
      ((s.setSession other (some session)).view idplayer idaccount) := by
  by_cases hid : idaccount = other
  · subst hid
    obtain ⟨hlink, hreplies⟩ := hsettled
    rw [view_setSession_self, Role.of_idle hidle]
    refine .login ?_ (fun m hm => hlink m (List.mem_filter.1 hm).1) ?_
    · show Role.of idplayer (s.sessions idaccount) = _
      rw [hget]
      rfl
    · exact pending_of_forall_ne fun reply hmem heq => hreplies reply hmem (congrArg Prod.fst heq)
  · rw [view_setSession_ne _ _ hid]
    exact .stay _ _ _ _

theorem view_database {message : S2D} {rest : List S2D} (hlink : s.toDb = message :: rest) :
    View.Step db idplayer idaccount false (s.view idplayer idaccount)
      (({ s with toDb := rest }.handle message).view idplayer idaccount) := by
  by_cases habout : message.idplayer = idplayer
  · have hview : ({ s with toDb := rest }.handle message).view idplayer idaccount =
        { s.view idplayer idaccount with
          link := pending S2D.idplayer rest idplayer
          record := Record.applyTo (s.view idplayer idaccount).record message
          replies := (s.view idplayer idaccount).replies ++ pending D2S.key
            (message.replies (s.view idplayer idaccount).record) (idaccount, idplayer) } := by
      subst habout
      simp [view, handle, pending_append]
    rw [hview]
    exact .database (by rw [view, hlink, pending_cons_self habout]) habout
  · have hview : ({ s with toDb := rest }.handle message).view idplayer idaccount =
        s.view idplayer idaccount := by
      simp [view, handle, hlink, pending_append, pending_replies, habout, pending_cons_ne habout,
        Function.update_of_ne (Ne.symm habout)]
    rw [hview]
    exact .stay _ _ _ _

/-- A reply comes for the session that has asked, or for nobody. -/
theorem AllFine.receiver (h : s.AllFine db) {reply : D2S} {rest : List D2S}
    (hreplies : s.toGame = reply :: rest) (session : Session)
    (hget : s.sessions reply.idaccount = some session) : session.load = .asked reply.idplayer := by
  have hview : (s.view reply.idplayer reply.idaccount).replies =
      reply :: pending D2S.key rest (reply.idaccount, reply.idplayer) := by
    rw [view, hreplies]
    exact pending_cons_self rfl
  have hrole : (s.view reply.idplayer reply.idaccount).role = .of reply.idplayer (some session) := by
    rw [view, hget]
  rcases (h.views reply.idplayer reply.idaccount).role_of_reply hview with habsent | ⟨user, hasking, -⟩
  · rw [hrole] at habsent
    exact absurd habsent Role.of_ne_absent
  · rw [hrole] at hasking
    exact (Role.asked_of_asking hasking).1

/-- A reply is handled, and the others do not see it. -/
theorem view_reply {reply : D2S} {rest : List D2S} (hreplies : s.toGame = reply :: rest)
    {new : Option Session}
    (hself : View.Step db reply.idplayer reply.idaccount false
      { s.view reply.idplayer reply.idaccount with
        replies := reply :: pending D2S.key rest (reply.idaccount, reply.idplayer) }
      { s.view reply.idplayer reply.idaccount with
        role := .of reply.idplayer new
        replies := pending D2S.key rest (reply.idaccount, reply.idplayer) })
    (hrole : ∀ idplayer ≠ reply.idplayer,
      Role.of idplayer new = Role.of idplayer (s.sessions reply.idaccount)) :
    View.Step db idplayer idaccount false (s.view idplayer idaccount)
      (({ s with toGame := rest }.setSession reply.idaccount new).view idplayer idaccount) := by
  by_cases hid : idaccount = reply.idaccount
  · subst hid
    rw [view_setSession_self]
    by_cases hplayer : idplayer = reply.idplayer
    · subst hplayer
      have hfirst : pending D2S.key (reply :: rest) (reply.idaccount, reply.idplayer) =
          reply :: pending D2S.key rest (reply.idaccount, reply.idplayer) := pending_cons_self rfl
      have hold : s.view reply.idplayer reply.idaccount =
          { s.view reply.idplayer reply.idaccount with
            replies := reply :: pending D2S.key rest (reply.idaccount, reply.idplayer) } := by
        simp only [view, hreplies, hfirst]
      rw [hold]
      exact hself
    · have hne : reply.key ≠ (reply.idaccount, idplayer) :=
        fun heq => hplayer (congrArg Prod.snd heq).symm
      have hsame : { view { s with toGame := rest } idplayer reply.idaccount with
          role := .of idplayer new } = s.view idplayer reply.idaccount := by
        simp only [view, hreplies, hrole idplayer hplayer]
        rw [pending_cons_ne hne]
      rw [hsame]
      exact .stay _ _ _ _
  · have hne : reply.key ≠ (idaccount, idplayer) := fun heq => hid (congrArg Prod.fst heq).symm
    have hsame : view { s with toGame := rest } idplayer idaccount = s.view idplayer idaccount := by
      simp only [view, hreplies]
      rw [pending_cons_ne hne]
    rw [view_setSession_ne _ _ hid, hsame]
    exact .stay _ _ _ _

/-! ## Every step -/

/-- What a step is for the sessions, and for each player and account. -/
structure Sees (db : SkillDb) (s : Saving) (op : Op) (s' : Saving) : Prop where
  sessions : ∀ idaccount session, s'.sessions idaccount = some session → session.Fine
  views : ∀ idplayer idaccount, ∃ acts, (acts = true → s.ActsFor idplayer op) ∧
    View.Step db idplayer idaccount acts (s.view idplayer idaccount) (s'.view idplayer idaccount)

theorem AllFine.sessions_setSession (h : s.AllFine db) {new : Option Session}
    (hnew : ∀ session, new = some session → session.Fine) (session : Session)
    (hget : (s.setSession other new).sessions idaccount = some session) : session.Fine := by
  simp only [setSession] at hget
  by_cases hid : idaccount = other
  · subst hid
    rw [Function.update_self] at hget
    exact hnew session hget
  · rw [Function.update_of_ne hid] at hget
    exact h.sessions idaccount session hget

/-- What happens to a session without its player being concerned. -/
theorem AllFine.sees_same (h : s.AllFine db) {session session' : Session}
    (hget : s.sessions other = some session) (hplayer : session'.player = session.player)
    (hload : session'.load = session.load) (hingame : session'.ingame = true → session'.load = .done) :
    Sees db s op (s.setSession other (some session')) where
  sessions := fun _ => by
    refine h.sessions_setSession ?_
    rintro _ ⟨⟩
    refine ⟨hingame, fun hnot => ?_⟩
    rw [hplayer]
    exact (h.sessions other session hget).reset (hload ▸ hnot)
  views := fun _ _ => ⟨false, nofun, view_same hget hplayer hload⟩

theorem AllFine.sees_enter (h : s.AllFine db) {session : Session} (asked : Int32)
    (hget : s.sessions other = some session) (hidle : session.load = .idle) :
    Sees db s op
      ((s.setSession other (some { session with
          lobby := false, loading := true, load := .asked asked })).write [.loadPlayer asked other]) := by
  have hfine := h.sessions other session hget
  have hreset : session.player.IsReset := hfine.reset (by rw [hidle]; exact nofun)
  refine ⟨fun _ => h.sessions_setSession ?_, fun _ _ =>
    ⟨false, nofun, view_enter hfine hidle hget asked⟩⟩
  rintro _ ⟨⟩
  refine ⟨fun hingame => ?_, fun _ => hreset⟩
  cases hidle.symm.trans (hfine.loaded hingame)

theorem AllFine.sees_act (h : s.AllFine db) {session : Session} {deed : Deed} {player : Skilled}
    {messages : List S2D} (hget : s.sessions other = some session) (hload : session.load = .done)
    (hact : session.player.act db deed = .ok (player, messages)) :
    Sees db s (.act other deed)
      ((s.setSession other (some { session with player })).write messages) where
  sessions := fun _ => by
    refine h.sessions_setSession ?_
    rintro _ ⟨⟩
    exact ⟨fun _ => hload, fun hnot => absurd hload hnot⟩
  views := fun _ _ => by
    obtain ⟨acts, hacts, hview⟩ := view_act h hget hload hact
    exact ⟨acts, fun hacting => ⟨session, hget, hacts hacting⟩, hview⟩

/-- A session in the game is left, and saved. -/
theorem AllFine.sees_leave (h : s.AllFine db) {session : Session} {new : Option Session}
    (hget : s.sessions other = some session) (hingame : session.ingame = true)
    (hop : op = .restart other ∨ op = .disconnect other)
    (hnew : ∀ session, new = some session → session.Fine)
    (hrole : ∀ idplayer, Role.of idplayer new = .away ∨ Role.of idplayer new = .absent) :
    Sees db s op
      ((s.setSession other new).write [.saveAllProperty session.player.player.saved]) where
  sessions := fun _ => h.sessions_setSession hnew
  views := fun idplayer _ => by
    have hload := (h.sessions other session hget).loaded hingame
    obtain ⟨acts, hacts, hview⟩ := view_leave h hget hload hrole
    refine ⟨acts, fun hacting => ?_, hview⟩
    rcases hop with rfl | rfl
    · exact ⟨session, hget, hacts hacting⟩
    · exact ⟨session, hget, hacts hacting⟩

theorem AllFine.sees_reply (h : s.AllFine db) {reply : D2S} {rest : List D2S} {new : Option Session}
    (hreplies : s.toGame = reply :: rest) (hnew : ∀ session, new = some session → session.Fine)
    (hrole : ∀ idplayer ≠ reply.idplayer,
      Role.of idplayer new = Role.of idplayer (s.sessions reply.idaccount))
    (hself : View.Step db reply.idplayer reply.idaccount false
      { s.view reply.idplayer reply.idaccount with
        replies := reply :: pending D2S.key rest (reply.idaccount, reply.idplayer) }
      { s.view reply.idplayer reply.idaccount with
        role := .of reply.idplayer new
        replies := pending D2S.key rest (reply.idaccount, reply.idplayer) }) :
    Sees db s op ({ s with toGame := rest }.setSession reply.idaccount new) :=
  ⟨fun _ => h.sessions_setSession hnew, fun _ _ => ⟨false, nofun, view_reply hreplies hself hrole⟩⟩

theorem AllFine.sees_deliver (h : s.AllFine db) {reply : D2S} {rest : List D2S}
    (hreplies : s.toGame = reply :: rest)
    (hreply : { s with toGame := rest }.onReply db reply = .ok s') : Sees db s op s' := by
  unfold onReply at hreply
  cases hget : s.sessions reply.idaccount with
  | none =>
      simp only [hget] at hreply
      cases hreply
      have hsame : { s with toGame := rest }.setSession reply.idaccount none =
          { s with toGame := rest } := by
        simp [setSession, ← hget]
      have hrole : (s.view reply.idplayer reply.idaccount).role = Role.of reply.idplayer none := by
        rw [view, hget]
      rw [← hsame]
      refine h.sees_reply hreplies (fun _ hnew => by cases hnew) (fun _ _ => by rw [hget]) ?_
      rw [← hrole]
      exact .drop rfl hrole
  | some session =>
      have hasked := h.receiver hreplies session hget
      have hreset := (h.sessions reply.idaccount session hget).reset (by simp [hasked])
      have hrole : (s.view reply.idplayer reply.idaccount).role = .asking session.player := by
        rw [view, hget, Role.of_asked hasked]
      have haway : ∀ idplayer ≠ reply.idplayer,
          Role.of idplayer (s.sessions reply.idaccount) = .away := by
        intro idplayer hne
        rw [hget, Role.of_asked_ne hasked hne.symm]
      cases hloaded : reply.loaded with
      | none =>
          simp only [hget, hloaded] at hreply
          cases hreply
          refine h.sees_reply hreplies ?_ (fun idplayer hne => ?_) ?_
          · rintro _ ⟨⟩
            refine ⟨fun hingame => ?_, fun _ => hreset⟩
            cases hasked.symm.trans ((h.sessions reply.idaccount session hget).loaded hingame)
          · rw [haway idplayer hne, Role.of_idle rfl]
          · rw [Role.of_idle rfl]
            exact .refuse rfl hrole hloaded
      | some rows =>
          simp only [hget, hloaded] at hreply
          cases hload : session.player.load db reply.idaccount reply.idplayer rows.1 rows.2 with
          | error fault =>
              rw [hload] at hreply
              cases hreply
          | ok player =>
              rw [hload] at hreply
              cases hreply
              have hplays : ({ session with player, load := .done } : Session).Plays reply.idplayer :=
                ⟨rfl, Skilled.playerId_of_load hload⟩
              refine h.sees_reply hreplies ?_ (fun idplayer hne => ?_) ?_
              · rintro _ ⟨⟩
                exact ⟨fun _ => rfl, fun hnot => absurd rfl hnot⟩
              · rw [haway idplayer hne, Role.of_done_ne hplays.1 (hplays.2.trans_ne hne.symm)]
              · rw [Role.of_plays hplays]
                exact .load rfl hrole hloaded hload

/-- One lemma for every step, one case for each operation. -/
theorem AllFine.sees (h : s.AllFine db) (hproper : s.Proper op) (hstep : step db s op = .ok s') :
    Sees db s op s' := by
  cases op with
  | login idaccount user =>
      simp only [step] at hstep
      split at hstep
      · next hnone =>
          split_ifs at hstep with hsettled
          cases hstep
          refine ⟨fun _ => h.sessions_setSession ?_, fun _ _ =>
            ⟨false, nofun, view_login hnone hsettled rfl⟩⟩
          rintro _ ⟨⟩
          exact ⟨nofun, fun _ => ⟨rfl, rfl⟩⟩
      · cases hstep
  | playerInfo idaccount =>
      simp only [step] at hstep
      split at hstep
      · cases hstep
      · next session hget =>
          cases hstep
          exact h.sees_same hget rfl rfl (h.sessions idaccount session hget).loaded
  | enter idaccount idplayer =>
      simp only [step] at hstep
      split at hstep
      · cases hstep
      · next session hget =>
          split_ifs at hstep
          cases hstep
          exact h.sees_enter idplayer hget (hproper session hget)
  | start idaccount =>
      simp only [step] at hstep
      split at hstep
      · cases hstep
      · next session hget =>
          split_ifs at hstep
          cases hstep
          exact h.sees_same hget rfl rfl fun _ => hproper session hget
  | act idaccount deed =>
      simp only [step] at hstep
      split at hstep
      · cases hstep
      · next session hget =>
          split_ifs at hstep with hgame
          split at hstep
          · cases hstep
          · next player messages hact =>
              cases hstep
              refine h.sees_act hget ((hproper session hget).elim (fun hneeds => ?_) id) hact
              refine (h.sessions idaccount session hget).loaded ?_
              by_contra hnot
              exact hgame ⟨hneeds, Bool.eq_false_of_not_eq_true hnot⟩
  | restart idaccount =>
      simp only [step] at hstep
      split at hstep
      · cases hstep
      · next session hget =>
          split_ifs at hstep with hingame
          cases hstep
          refine h.sees_leave hget hingame (.inl rfl) ?_ fun _ => .inl (Role.of_idle rfl)
          rintro _ ⟨⟩
          exact ⟨nofun, fun _ => Skilled.isReset_resetStates _⟩
  | disconnect idaccount =>
      simp only [step] at hstep
      split at hstep
      · cases hstep
      · next session hget =>
          cases hstep
          split
          · next hingame => exact h.sees_leave hget hingame (.inr rfl) nofun fun _ => .inr rfl
          · refine ⟨fun _ => h.sessions_setSession nofun, fun idplayer idaccount => ?_⟩
            obtain ⟨acts, hacts, hview⟩ := view_disconnect hget
            refine ⟨acts, fun hacting => ⟨session, hget, hacts hacting⟩, ?_⟩
            rwa [write_nil]
  | database =>
      simp only [step] at hstep
      split at hstep
      · cases hstep
      · next message rest hlink =>
          split_ifs at hstep
          cases hstep
          exact ⟨h.sessions, fun _ _ => ⟨false, nofun, view_database hlink⟩⟩
  | deliver =>
      simp only [step] at hstep
      split at hstep
      · cases hstep
      · next reply rest hreplies => exact h.sees_deliver hreplies hstep

end Saving

end Bango.Characters
