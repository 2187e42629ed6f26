import Bango.Characters.Proofs.Reloading

set_option autoImplicit false

/-! # What a step is for one player

A step is seen from one player and one account: what the session of the account is to the player, the
messages about the player and its record, and the replies about it to the account. The run of all
sessions is a run of each of these views. -/

namespace Bango.Characters

open Bango.Lib

variable {db : SkillDb}

/-! ## Messages and records -/

/-- The account and the player that a reply is about. -/
def D2S.key (reply : D2S) : Int32 × Int32 := (reply.idaccount, reply.idplayer)

theorem foldl_applyTo (record : Record) (messages : List S2D) :
    messages.foldl Record.applyTo (some record) = some (messages.foldl Record.apply record) := by
  induction messages generalizing record with
  | nil => rfl
  | cons message messages ih => exact ih _

theorem applyTo_loadPlayer (idplayer idaccount : Int32) (record : Option Record) :
    Record.applyTo record (.loadPlayer idplayer idaccount) = record := by
  cases record with
  | none => rfl
  | some record => rfl

theorem applyTo_of_isLoad {message : S2D} (h : message.IsLoad) (record : Option Record) :
    Record.applyTo record message = record := by
  cases message with
  | loadPlayer idplayer idaccount => exact applyTo_loadPlayer idplayer idaccount record
  | saveAllProperty | updateProperty | skillUp | learnSkill => exact h.elim

theorem foldl_applyTo_of_isLoad {messages : List S2D} (h : ∀ message ∈ messages, message.IsLoad)
    (record : Option Record) : messages.foldl Record.applyTo record = record := by
  induction messages with
  | nil => rfl
  | cons message messages ih =>
      rw [List.forall_mem_cons] at h
      rw [List.foldl_cons, applyTo_of_isLoad h.1, ih h.2]

/-- A record stays with its account. -/
theorem apply_idaccount (record : Record) (message : S2D) :
    (record.apply message).idaccount = record.idaccount := by
  cases message <;> rfl

theorem foldl_apply_idaccount (record : Record) (messages : List S2D) :
    (messages.foldl Record.apply record).idaccount = record.idaccount := by
  induction messages generalizing record with
  | nil => rfl
  | cons message messages ih => exact (ih _).trans (apply_idaccount record message)

/-- Is a player one of the account? -/
def Record.Owned (idaccount : Int32) (record : Option Record) : Prop :=
  ∃ there, record = some there ∧ there.idaccount = idaccount

/-- A message does not change whose a player is. -/
theorem Record.owned_applyTo (message : S2D) {idaccount : Int32} {record : Option Record} :
    Record.Owned idaccount (Record.applyTo record message) ↔ Record.Owned idaccount record := by
  cases record with
  | none => simp [Record.Owned, Record.applyTo]
  | some record => simp [Record.Owned, Record.applyTo, apply_idaccount]

/-- A player of another account is not there. -/
theorem Record.replies_of_not_owned {idplayer idaccount : Int32} {record : Option Record}
    (h : ¬ Record.Owned idaccount record) :
    (S2D.loadPlayer idplayer idaccount).replies record = [⟨idaccount, idplayer, none⟩] := by
  cases record with
  | none => rfl
  | some record =>
      simp only [S2D.replies]
      exact if_neg fun hfound => h ⟨record, rfl, hfound.1⟩

theorem foldl_applyTo_none (messages : List S2D) : messages.foldl Record.applyTo none = none := by
  induction messages with
  | nil => rfl
  | cons message messages ih => exact ih

theorem S2D.IsLoadBy.isLoad {idaccount : Int32} {message : S2D} (h : message.IsLoadBy idaccount) :
    message.IsLoad := by
  cases message with
  | loadPlayer => exact trivial
  | saveAllProperty | updateProperty | skillUp | learnSkill => exact h.elim

/-- The replies to a message are for the account that asks, about the player that it asks for. -/
theorem pending_replies {idplayer idaccount : Int32} (message : S2D) (record : Option Record) :
    pending D2S.key (message.replies record) (idaccount, idplayer) =
      if message.IsLoadBy idaccount ∧ message.idplayer = idplayer then message.replies record
      else [] := by
  cases message with
  | loadPlayer asked asking =>
      have hkey : ∀ reply ∈ (S2D.loadPlayer asked asking).replies record, reply.key = (asking, asked) := by
        cases record with
        | none => exact List.forall_mem_singleton.2 rfl
        | some record =>
            simp only [S2D.replies]
            split_ifs
            · exact List.forall_mem_singleton.2 rfl
            · exact List.forall_mem_singleton.2 rfl
      split_ifs with h
      · obtain ⟨rfl, rfl⟩ : asking = idaccount ∧ asked = idplayer := h
        exact pending_of_forall hkey
      · refine pending_of_forall_ne fun reply hreply heq => h ?_
        exact Prod.mk.inj ((hkey reply hreply).symm.trans heq)
  | saveAllProperty | updateProperty | skillUp | learnSkill => exact (ite_self _).symm

/-! ## Views -/

/-- What a session of an account is to a player. -/
inductive Role where
  /-- There is no session of the account. -/
  | absent
  /-- It has no player, or another one. -/
  | away
  | asking (user : Skilled)
  | playing (skilled : Skilled)

def Role.of (idplayer : Int32) : Option Session → Role
  | none => .absent
  | some session =>
    match session.load with
    | .idle => .away
    | .asked asked => if asked = idplayer then .asking session.player else .away
    | .done => if session.playerId = idplayer then .playing session.player else .away

/-- What there is about one player, for one account. -/
structure View where
  role : Role
  link : List S2D
  record : Option Record
  replies : List D2S

namespace View

/-- The record once the messages have been handled. -/
def settled (v : View) : Option Record := v.link.foldl Record.applyTo v.record

/-- A message of another account: it asks for the player, or the player is one of that account. -/
def IsOther (idaccount : Int32) (v : View) (message : S2D) : Prop :=
  ¬ message.IsLoadBy idaccount ∧ (Record.Owned idaccount v.record → message.IsLoad)

variable (db) (idplayer idaccount : Int32)

/-- What a step is for one player, and whether it is one of its own handlers. -/
inductive Step : Bool → View → View → Prop where
  | others {v : View} {messages : List S2D} (hmessages : ∀ m ∈ messages, v.IsOther idaccount m) :
    Step false v { v with link := v.link ++ messages }
  | login {v : View} (hrole : v.role = .absent) (hlink : ∀ m ∈ v.link, ¬ m.IsLoadBy idaccount)
    (hreplies : v.replies = []) : Step false v { v with role := .away }
  | enter {v : View} (user : Skilled) (hrole : v.role = .away) (hreset : user.IsReset) :
    Step false v { v with role := .asking user, link := v.link ++ [.loadPlayer idplayer idaccount] }
  | giveUp {v : View} (hrole : ∀ s, v.role ≠ .playing s) : Step false v { v with role := .absent }
  | act {v : View} {s s' : Skilled} {deed : Deed} {messages : List S2D}
    (hrole : v.role = .playing s) (hact : s.act db deed = .ok (s', messages)) :
    Step true v { v with role := .playing s', link := v.link ++ messages }
  | leave {v : View} {s : Skilled} {role : Role} (hrole : v.role = .playing s)
    (hleft : role = .away ∨ role = .absent) :
    Step true v { v with role, link := v.link ++ [.saveAllProperty s.player.saved] }
  | quit {v : View} {s : Skilled} (hrole : v.role = .playing s) :
    Step true v { v with role := .absent }
  | database {v : View} {message : S2D} {rest : List S2D} (hlink : v.link = message :: rest)
    (habout : message.idplayer = idplayer) :
    Step false v
      { v with
        link := rest
        record := Record.applyTo v.record message
        replies := v.replies ++ pending D2S.key (message.replies v.record) (idaccount, idplayer) }
  | load {v : View} {reply : D2S} {rest : List D2S} {user s : Skilled} {row : PlayerRow}
    {skills : List SkillRow} (hreplies : v.replies = reply :: rest) (hrole : v.role = .asking user)
    (hloaded : reply.loaded = some (row, skills))
    (hload : user.load db idaccount idplayer row skills = .ok s) :
    Step false v { v with role := .playing s, replies := rest }
  | refuse {v : View} {reply : D2S} {rest : List D2S} {user : Skilled}
    (hreplies : v.replies = reply :: rest) (hrole : v.role = .asking user)
    (hloaded : reply.loaded = none) : Step false v { v with role := .away, replies := rest }
  | drop {v : View} {reply : D2S} {rest : List D2S} (hreplies : v.replies = reply :: rest)
    (hrole : v.role = .absent) : Step false v { v with replies := rest }

theorem Step.stay (v : View) : Step db idplayer idaccount false v v := by
  have hstep : Step db idplayer idaccount false v { v with link := v.link ++ [] } :=
    .others fun _ hmem => absurd hmem List.not_mem_nil
  rwa [List.append_nil] at hstep

/-! ## What holds in every view -/

/-- The player is being asked for, or has been answered. -/
inductive Waits (v : View) : Prop where
  | asked {before after : List S2D} (link : v.link = before ++ .loadPlayer idplayer idaccount :: after)
    (before_noLoad : ∀ m ∈ before, ¬ m.IsLoadBy idaccount)
    (after_other : ∀ m ∈ after, v.IsOther idaccount m) (replies : v.replies = [])
  | answered (link : ∀ m ∈ v.link, v.IsOther idaccount m)
    (replies : v.replies = (S2D.loadPlayer idplayer idaccount).replies v.record)

/-- The player is not being asked for. -/
structure Calm (v : View) : Prop where
  noLoad : ∀ m ∈ v.link, ¬ m.IsLoadBy idaccount
  replies : v.replies = []

/-- What the player is in memory is what its record will be. -/
structure Plays (v : View) (s : Skilled) : Prop extends Calm idaccount v where
  idplayer : s.player.data.playerId = idplayer
  inv : s.Inv db
  shown : ∃ record, v.settled = some record ∧ record.idaccount = idaccount ∧ s.ShownBy record

structure Fine (v : View) : Prop where
  loadable : ∀ record, v.settled = some record → record.idaccount = idaccount → record.Loadable
  away : v.role = .away → v.Calm idaccount
  asking : ∀ user, v.role = .asking user → user.IsReset ∧ v.Waits idplayer idaccount
  playing : ∀ s, v.role = .playing s → v.Plays db idplayer idaccount s

variable {db idplayer idaccount} {v : View}

/-- The record is one of the account whose it will be. -/
theorem owned_of_settled {record : Record} (h : v.settled = some record)
    (hid : record.idaccount = idaccount) : Record.Owned idaccount v.record := by
  unfold settled at h
  cases hrecord : v.record with
  | none =>
      rw [hrecord, foldl_applyTo_none] at h
      cases h
  | some first =>
      rw [hrecord, foldl_applyTo] at h
      refine ⟨first, rfl, ?_⟩
      rw [← hid, ← Option.some.inj h, foldl_apply_idaccount]

/-- What is answered to a session is what is there, and will be. -/
theorem Waits.settled_eq (h : v.Waits idplayer idaccount) {reply : D2S} {rest : List D2S}
    (hreplies : v.replies = reply :: rest) :
    rest = [] ∧ (∀ m ∈ v.link, ¬ m.IsLoadBy idaccount) ∧
      ∀ row skills, reply.loaded = some (row, skills) →
        ∃ record, v.settled = some record ∧ record.idaccount = idaccount ∧
          row = record.row ∧ skills = record.skills := by
  cases h with
  | asked link before_noLoad after_other replies =>
      rw [replies] at hreplies
      cases hreplies
  | answered link replies =>
      rw [hreplies] at replies
      cases hrecord : v.record with
      | none =>
          rw [hrecord] at replies
          cases replies
          exact ⟨rfl, fun m hm => (link m hm).1, fun _ _ hloaded => by cases hloaded⟩
      | some record =>
          rw [hrecord] at replies
          simp only [S2D.replies] at replies
          split_ifs at replies with hfound
          · cases replies
            refine ⟨rfl, fun m hm => (link m hm).1, fun _ _ hloaded => ?_⟩
            cases hloaded
            have hloads : ∀ m ∈ v.link, m.IsLoad :=
              fun m hm => (link m hm).2 ⟨record, hrecord, hfound.1⟩
            refine ⟨record, ?_, hfound.1, rfl, rfl⟩
            rw [settled, foldl_applyTo_of_isLoad hloads, hrecord]
          · cases replies
            exact ⟨rfl, fun m hm => (link m hm).1, fun _ _ hloaded => by cases hloaded⟩

/-- Where a reply comes, the player has been asked for, or there is no session any more. -/
theorem Fine.role_of_reply (h : v.Fine db idplayer idaccount) {reply : D2S} {rest : List D2S}
    (hreplies : v.replies = reply :: rest) :
    v.role = .absent ∨
      ∃ user, v.role = .asking user ∧ user.IsReset ∧ v.Waits idplayer idaccount := by
  have hne : v.replies ≠ [] := by
    rw [hreplies]
    exact List.cons_ne_nil reply rest
  cases hrole : v.role with
  | absent => exact .inl rfl
  | away => exact absurd (h.away hrole).replies hne
  | asking user => exact .inr ⟨user, rfl, h.asking user hrole⟩
  | playing s => exact absurd (h.playing s hrole).replies hne

end View

/-! ## The views of a state -/

/-- What holds of a session of a client that uses the requests as it should. -/
structure Session.Fine (session : Session) : Prop where
  loaded : session.ingame = true → session.load = .done
  reset : session.load ≠ .done → session.player.IsReset

/-- The player has been loaded for the session. -/
def Session.Plays (session : Session) (idplayer : Int32) : Prop :=
  session.load = .done ∧ session.playerId = idplayer

instance (session : Session) (idplayer : Int32) : Decidable (session.Plays idplayer) :=
  inferInstanceAs (Decidable (_ ∧ _))

namespace Role

variable {idplayer : Int32} {session : Session}

theorem of_idle (h : session.load = .idle) : Role.of idplayer (some session) = .away := by
  simp only [Role.of, h]

theorem of_asked (h : session.load = .asked idplayer) :
    Role.of idplayer (some session) = .asking session.player := by
  simp only [Role.of, h, if_pos]

theorem of_asked_ne {asked : Int32} (h : session.load = .asked asked) (hne : asked ≠ idplayer) :
    Role.of idplayer (some session) = .away := by
  simp only [Role.of, h, if_neg hne]

theorem of_ne_absent : Role.of idplayer (some session) ≠ .absent := by
  intro h
  simp only [Role.of] at h
  split at h
  · cases h
  · split_ifs at h
  · split_ifs at h

theorem of_plays (h : session.Plays idplayer) :
    Role.of idplayer (some session) = .playing session.player := by
  simp only [Role.of, h.1, if_pos h.2]

theorem of_done_ne (h : session.load = .done) (hne : session.playerId ≠ idplayer) :
    Role.of idplayer (some session) = .away := by
  simp only [Role.of, h, if_neg hne]

/-- A session that plays the player has loaded it. -/
theorem plays_of_playing {s : Skilled} (h : Role.of idplayer (some session) = .playing s) :
    session.Plays idplayer ∧ s = session.player := by
  unfold Role.of at h
  cases hload : session.load with
  | idle => simp [hload] at h
  | asked asked =>
      simp only [hload] at h
      split_ifs at h
  | done =>
      simp only [hload] at h
      split_ifs at h with hid
      cases h
      exact ⟨⟨hload, hid⟩, rfl⟩

theorem asked_of_asking {s : Skilled} (h : Role.of idplayer (some session) = .asking s) :
    session.load = .asked idplayer ∧ s = session.player := by
  unfold Role.of at h
  cases hload : session.load with
  | idle => simp [hload] at h
  | asked asked =>
      simp only [hload] at h
      split_ifs at h with hid
      cases h
      exact ⟨hid ▸ rfl, rfl⟩
  | done =>
      simp only [hload] at h
      split_ifs at h

end Role

/-- What there is about a player for an account. -/
def Saving.view (s : Saving) (idplayer idaccount : Int32) : View where
  role := .of idplayer (s.sessions idaccount)
  link := pending S2D.idplayer s.toDb idplayer
  record := s.tables idplayer
  replies := pending D2S.key s.toGame (idaccount, idplayer)

namespace Saving

variable {s s' : Saving} {op : Op} {idplayer idaccount other : Int32}

/-- What holds of all sessions, and of each player for each account. -/
structure AllFine (db : SkillDb) (s : Saving) : Prop where
  sessions : ∀ idaccount session, s.sessions idaccount = some session → session.Fine
  views : ∀ idplayer idaccount, (s.view idplayer idaccount).Fine db idplayer idaccount

/-- A handler of a session that has loaded the player. -/
def ActsFor (s : Saving) (idplayer : Int32) : Op → Prop
  | .act idaccount _ | .restart idaccount | .disconnect idaccount =>
    ∃ session ∈ s.sessions idaccount, session.Plays idplayer
  | .login .. | .playerInfo _ | .enter .. | .start _ | .database | .deliver => False

instance (s : Saving) (idplayer : Int32) : DecidablePred (s.ActsFor idplayer)
  | .act idaccount _ | .restart idaccount | .disconnect idaccount =>
    inferInstanceAs (Decidable (∃ session ∈ s.sessions idaccount, session.Plays idplayer))
  | .login .. | .playerInfo _ | .enter .. | .start _ | .database | .deliver => isFalse id

theorem view_setSession_self (s : Saving) (session : Option Session) :
    (s.setSession idaccount session).view idplayer idaccount =
      { s.view idplayer idaccount with role := .of idplayer session } := by
  simp [view, setSession]

theorem view_setSession_ne (s : Saving) (session : Option Session) (h : idaccount ≠ other) :
    (s.setSession other session).view idplayer idaccount = s.view idplayer idaccount := by
  simp [view, setSession, Function.update_of_ne h]

theorem view_write (s : Saving) (messages : List S2D) :
    (s.write messages).view idplayer idaccount =
      { s.view idplayer idaccount with
        link := (s.view idplayer idaccount).link ++ pending S2D.idplayer messages idplayer } := by
  simp [view, write, pending_append]

theorem write_nil (s : Saving) : s.write [] = s := by
  rw [write, List.append_nil]

/-- A player that is loaded is one of the account. -/
theorem AllFine.owner (h : s.AllFine db) {session : Session} {record : Record}
    (hsession : s.sessions other = some session) (hload : session.load = .done)
    (hrecord : s.tables session.playerId = some record) : record.idaccount = other := by
  have hrole : (s.view session.playerId other).role = .playing session.player := by
    show Role.of session.playerId (s.sessions other) = _
    rw [hsession, Role.of_plays ⟨hload, rfl⟩]
  obtain ⟨settled, hsettled, hid, -⟩ := ((h.views session.playerId other).playing _ hrole).shown
  obtain ⟨record', hrecord', hid'⟩ := View.owned_of_settled hsettled hid
  cases hrecord.symm.trans hrecord'
  exact hid'

end Saving

end Bango.Characters
