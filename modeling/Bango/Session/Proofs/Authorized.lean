import Bango.Session.Proofs.Steps

set_option autoImplicit false

/-! # The lobby and the primary login

The replies to failed and to successful logins give the same role, and the secondary login does not
ask for the primary one. Where the DB server accepts no secondary password for a session that it has
not authorized, the lobby is reached by authorized sessions only. -/

namespace Bango.Session

open Bango.Lib Bango.Network Bango.Account

/-- The roles that lead into the game. -/
def Admitted (roles : Roles) : Prop := .lobby ∈ roles ∨ .loading ∈ roles ∨ .ingame ∈ roles

instance (roles : Roles) : Decidable (Admitted roles) := inferInstanceAs (Decidable (_ ∨ _))

/-- A `D2S_AUTHORIZED` of the session has been delivered in the course of the run. -/
def AuthorizedDelivered (s : System) (ops : List Op) : Prop :=
  ∃ before after t uid aid rest, ops = before ++ .deliver :: after ∧
    run System.step s before = .ok t ∧ t.toGame = .authorized uid aid :: rest ∧ t.connected ∧
    uid = t.player.credentials.uid

/-- A secondary login of the session with the secondary password that the tables have. -/
def Opens (answers : Answers) (uid : UInt32) : DbRequest → Prop
  | .secondaryLogin password c => c.uid = uid ∧ answers.secondary = some password
  | _ => False

instance (answers : Answers) (uid : UInt32) (request : DbRequest) :
    Decidable (Opens answers uid request) :=
  match request with
  | .secondaryLogin _ _ => inferInstanceAs (Decidable (_ ∧ _))
  | .login .. | .secondaryCreate .. | .secondaryChange .. | .newPlayer .. | .deletePlayer ..
  | .restorePlayer .. | .loadPlayer .. => isFalse id

/-- Does the DB server accept the secondary password that a message states for the session? -/
def Accepts (answers : Answers) (memory : Memory) (uid : UInt32) : S2D → Prop
  | .forwarded bytes => ∃ request ∈ readRequest memory bytes, Opens answers uid request
  | .restart .. | .disconnect _ => False

instance (answers : Answers) (memory : Memory) (uid : UInt32) (message : S2D) :
    Decidable (Accepts answers memory uid message) :=
  match message with
  | .forwarded bytes => inferInstanceAs (Decidable (∃ request ∈ readRequest memory bytes, _))
  | .restart .. | .disconnect _ => isFalse id

/-- The reply is the `D2S_AUTHORIZED` of a session. -/
def Authorizes (uid : UInt32) : D2S → Prop
  | .authorized id _ => id = uid
  | _ => False

instance (uid : UInt32) (reply : D2S) : Decidable (Authorizes uid reply) :=
  match reply with
  | .authorized id _ => inferInstanceAs (Decidable (id = uid))
  | .login .. | .secLogin _ | .playerInfo _ | .delPlayerInfo _ | .ansNewPlayer _ | .loadPlayer ..
  | .loadItems _ | .skillInfo _ => isFalse id

/-- The DB server accepts the secondary password of sessions only that it has authorized before. -/
def VerifiedFirst (s : System) : Op → Prop
  | .database answers memory =>
    match s.toDb with
    | [] => True
    | message :: _ => Accepts answers memory s.player.credentials.uid message →
        .authorized ∈ s.player.roles ∨ ∃ reply ∈ s.toGame, Authorizes s.player.credentials.uid reply
  | .client .. | .disconnect | .deliver => True

instance (s : System) (o : Op) : Decidable (VerifiedFirst s o) :=
  match o with
  | .database answers memory =>
    match hdb : s.toDb with
    | [] => isTrue (by unfold VerifiedFirst; rw [hdb]; trivial)
    | message :: _ => decidable_of_iff (Accepts answers memory s.player.credentials.uid message →
        .authorized ∈ s.player.roles ∨
          ∃ reply ∈ s.toGame, Authorizes s.player.credentials.uid reply)
        (by unfold VerifiedFirst; rw [hdb])
  | .client .. | .disconnect | .deliver => isTrue trivial

/-! ## The invariant -/

/-- Requests that the DB server answers with the player list without a password. -/
def S2D.Lists : S2D → Prop
  | .forwarded bytes => ∃ memory request, readRequest memory bytes = some request ∧
      (request.origin = .newPlayer ∨ request.origin = .delPlayer ∨ request.origin = .restorePlayer)
  | .restart .. => True
  | .disconnect _ => False

/-- Before each player list among the replies comes an authorization. -/
def Introduced (uid : UInt32) (replies : List D2S) : Prop :=
  ∀ before after, replies = before ++ .playerInfo uid :: after →
    ∃ reply ∈ before, Authorizes uid reply

structure Verified (s : System) : Prop where
  roles : Admitted s.player.roles → .authorized ∈ s.player.roles
  /-- Of a session that is still there, -/
  requests : s.connected → (∃ message ∈ s.toDb, message.Lists) → .authorized ∈ s.player.roles
  replies : s.connected → .authorized ∉ s.player.roles →
    Introduced s.player.credentials.uid s.toGame

theorem Introduced.append {uid : UInt32} {l r : List D2S} (hl : Introduced uid l)
    (hr : Introduced uid r ∨ ∃ reply ∈ l, Authorizes uid reply) :
    Introduced uid (l ++ r) := by
  intro before after heq
  -- the player list stands either among the new replies or among the old ones
  rcases List.append_eq_append_iff.1 heq with ⟨w, rfl, hr'⟩ | ⟨w, rfl, hl'⟩
  · rcases hr with hr | ⟨reply, hmem, hreply⟩
    · obtain ⟨reply, hmem, hreply⟩ := hr w after hr'
      exact ⟨reply, List.mem_append_right l hmem, hreply⟩
    · exact ⟨reply, List.mem_append_left w hmem, hreply⟩
  · cases w with
    | nil =>
        rcases hr with hr | h
        · obtain ⟨reply, hmem, -⟩ := hr [] after hl'.symm
          cases hmem
        · rwa [List.append_nil] at h
    | cons reply w =>
        obtain ⟨rfl, -⟩ := List.cons.inj hl'
        exact hl before w rfl

theorem Introduced.tail {uid : UInt32} {reply : D2S} {rest : List D2S}
    (h : Introduced uid (reply :: rest))
    (hreply : ¬ Authorizes uid reply) : Introduced uid rest := by
  intro before after heq
  obtain ⟨r, hmem, hr⟩ := h (reply :: before) after (by rw [heq, List.cons_append])
  rcases List.mem_cons.1 hmem with rfl | hmem
  · exact absurd hr hreply
  · exact ⟨r, hmem, hr⟩

theorem introduced_of_not_mem {uid : UInt32} {replies : List D2S} (h : .playerInfo uid ∉ replies) :
    Introduced uid replies := by
  intro before after heq
  exact absurd (heq ▸ List.mem_append_right before List.mem_cons_self) h

/-! ## The DB server -/

theorem introduced_cons_authorized (uid id : UInt32) (aid : Int32) {replies : List D2S}
    (h : .playerInfo uid ∈ replies → id = uid) :
    Introduced uid (.authorized id aid :: replies) := by
  intro before after heq
  cases before with
  | nil => cases (List.cons.inj heq).1
  | cons reply before =>
      obtain ⟨rfl, hrest⟩ := List.cons.inj heq
      exact ⟨_, List.mem_cons_self, h (hrest ▸ List.mem_append_right before List.mem_cons_self)⟩

theorem introduced_login (activeUsers : List Int32) (a : Answers) (uid id : UInt32) :
    Introduced uid (login activeUsers a id).1 := by
  unfold login
  by_cases hlogin : a.correctLogin
  · by_cases hpassword : a.correctPassword
    · by_cases hactive : a.idaccount ∈ activeUsers
      · exact introduced_of_not_mem (by simp [hlogin, hpassword, hactive])
      · simp only [hlogin, hpassword, hactive, not_true_eq_false, if_false]
        refine introduced_cons_authorized uid id _ fun hmem => ?_
        split at hmem <;> simp [sendPlayerList] at hmem
        exact hmem.symm
    · exact introduced_of_not_mem (by simp [hlogin, hpassword])
  · exact introduced_of_not_mem (by simp [hlogin])

/-- Where the DB server sends the session's player list, it authorizes the session first, or it has
    been asked by a player in the lobby, or it has accepted a secondary password. -/
theorem serve_cases (activeUsers : List Int32) (a : Answers) (memory : Memory) (uid : UInt32)
    (message : S2D) :
    Introduced uid (serve activeUsers a memory message).1 ∨ message.Lists ∨
      Accepts a memory uid message := by
  cases message with
  | restart id aid => exact .inr (.inl trivial)
  | disconnect aid => exact .inl (introduced_of_not_mem (by simp [serve]))
  | forwarded bytes =>
      cases hread : readRequest memory bytes with
      | none => exact .inl (introduced_of_not_mem (by simp [serve, hread]))
      | some request =>
          -- only the login looks at the active users; every other request has its own reply
          have hserve : request.origin ≠ .login →
              (serve activeUsers a memory (.forwarded bytes)).1 = replies a request := by
            intro horigin
            cases request with
            | login => exact absurd rfl horigin
            | _ => simp only [serve, hread]
          cases request with
          | login login passwd mac id =>
              refine .inl ?_
              simp only [serve, hread]
              exact introduced_login activeUsers a uid id
          | secondaryLogin password c =>
              -- a wrong password, or that of another session, brings this session no list
              by_cases hopens : Opens a uid (.secondaryLogin password c)
              · exact .inr (.inr ⟨_, hread, hopens⟩)
              · refine .inl (introduced_of_not_mem ?_)
                rw [hserve (by simp [DbRequest.origin]), replies]
                cases hsecondary : a.secondary with
                | none => simp
                | some result =>
                    by_cases hpassword : password = result
                    · simp only [hpassword, ne_eq, not_true_eq_false, if_false]
                      intro hmem
                      have huid : uid = c.uid := by simpa [sendPlayerList] using hmem
                      exact hopens ⟨huid.symm, by rw [hsecondary, hpassword]⟩
                    · simp [hpassword]
          | secondaryCreate password secondary c | secondaryChange password secondary c =>
              refine .inl (introduced_of_not_mem ?_)
              rw [hserve (by simp [DbRequest.origin]), replies]
              split_ifs <;> simp
          | newPlayer player c => exact .inr (.inl ⟨memory, _, hread, .inl rfl⟩)
          | deletePlayer idplayer c => exact .inr (.inl ⟨memory, _, hread, .inr (.inl rfl)⟩)
          | restorePlayer idplayer c => exact .inr (.inl ⟨memory, _, hread, .inr (.inr rfl)⟩)
          | loadPlayer idplayer idguild grade c =>
              refine .inl (introduced_of_not_mem ?_)
              rw [hserve (by simp [DbRequest.origin]), replies]
              split <;> simp

/-! ## Steps -/

namespace Verified

variable {s s' : System}

theorem connect (credentials : Credentials) (position : Space.Point) (map : UInt8)
    (activeUsers : List Int32) :
    Verified (System.connect credentials position map activeUsers) where
  roles h := absurd h (by simp [Admitted, System.connect])
  requests _ h := by
    obtain ⟨message, hmem, -⟩ := h
    cases hmem
  replies _ _ := introduced_of_not_mem (by simp [System.connect])

/-- A message of the client: what it asks the DB server for, only admitted sessions ask. -/
theorem execute (h : Verified s) {message : C2S} {memory : Memory} (hsend : message.Sendable) :
    Verified (s.execute message memory) := by
  unfold System.execute
  by_cases hrequired : message.required ∈ s.player.roles
  · rw [if_pos hrequired]
    have hlink := System.SameLink.handle s message memory
    have hkeep := fun hauth => s.authorized_handle message memory hauth
    refine ⟨fun hadmitted => hkeep (h.roles ?_), fun hconnected hlists => hkeep ?_,
      fun hconnected hnot => ?_⟩
    · -- a handler gives a leading role only to a session that has one: its own guard says so
      have hrole : ∀ role ∈ (s.handle message memory).player.roles,
          role ∈ s.player.roles ∨ Admitted s.player.roles := by
        intro role hrole
        rcases s.mem_roles_handle hrole with hrole | ⟨-, payload, rfl⟩ | ⟨-, rfl⟩
        · exact .inl hrole
        · exact .inr (.inl hrequired)
        · exact .inr (.inr (.inl hrequired))
      rcases hadmitted with hl | hl | hl
      · exact (hrole _ hl).elim .inl id
      · exact (hrole _ hl).elim (fun h => .inr (.inl h)) id
      · exact (hrole _ hl).elim (fun h => .inr (.inr h)) id
    · obtain ⟨m, hm, hlist⟩ := hlists
      rw [hlink.connected] at hconnected
      rcases s.mem_toDb_handle hm with hm | ⟨r, payload, bytes, rfl, hbytes, rfl⟩ |
        ⟨logout, uid, aid, rfl, rfl⟩
      · exact h.requests hconnected ⟨m, hm, hlist⟩
      · obtain ⟨memory', request, hread, horigin⟩ := hlist
        -- what is forwarded is read back as the request of the same message
        rw [origin_of_forwarded hsend hbytes hread] at horigin
        refine h.roles (.inl ?_)
        rcases horigin with rfl | rfl | rfl <;> exact hrequired
      · exact h.roles (.inr (.inr hrequired))
    · rw [hlink.connected] at hconnected
      rw [hlink.credentials, hlink.toGame]
      exact h.replies hconnected fun hauth => hnot (hkeep hauth)
  · rw [if_neg hrequired]
    exact h

theorem disconnect (h : Verified s) : Verified s.onDisconnected := by
  obtain ⟨hplayer, hgame, hconnected, hdb⟩ := s.onDisconnected_spec
  refine ⟨fun hadmitted => ?_, fun hc hlists => ?_, fun hc hnot => ?_⟩
  · rw [hplayer] at hadmitted ⊢
    exact h.roles hadmitted
  · obtain ⟨m, hm, hlist⟩ := hlists
    rw [hplayer]
    rcases hdb m hm with hm | ⟨aid, rfl⟩
    · exact h.requests (hconnected hc) ⟨m, hm, hlist⟩
    · cases hlist
  · rw [hplayer] at hnot ⊢
    rw [hgame]
    exact h.replies (hconnected hc) hnot

/-- The DB server sends the list to a session that it does not authorize before only when it accepts
    a secondary password. -/
theorem database (h : Verified s) {answers : Answers} {memory : Memory} {message : S2D}
    {rest : List S2D} (hdb : s.toDb = message :: rest)
    (hguard : Accepts answers memory s.player.credentials.uid message →
      .authorized ∈ s.player.roles ∨ ∃ reply ∈ s.toGame, Authorizes s.player.credentials.uid reply) :
    Verified { s with
      activeUsers := (serve s.activeUsers answers memory message).2
      toDb := rest
      toGame := s.toGame ++ (serve s.activeUsers answers memory message).1 } := by
  refine ⟨h.roles, fun hc hlists => ?_, fun hc hnot => ?_⟩
  · obtain ⟨m, hm, hlist⟩ := hlists
    exact h.requests hc ⟨m, hdb ▸ List.mem_cons_of_mem message hm, hlist⟩
  · refine (h.replies hc hnot).append ?_
    rcases serve_cases s.activeUsers answers memory s.player.credentials.uid message with
      hintro | hlist | haccepts
    · exact .inl hintro
    · exact absurd (h.requests hc ⟨message, hdb ▸ List.mem_cons_self, hlist⟩) hnot
    · exact .inr ((hguard haccepts).resolve_left hnot)

theorem deliver (h : Verified s) {reply : D2S} {rest : List D2S} (hgame : s.toGame = reply :: rest) :
    Verified (if s.connected ∧ reply.uid = s.player.credentials.uid then
      { s with toGame := rest }.onReply reply else { s with toGame := rest }) := by
  have hreplies : s.connected → .authorized ∉ s.player.roles →
      Introduced s.player.credentials.uid (reply :: rest) := by
    rw [← hgame]
    exact h.replies
  split_ifs with hfor
  · obtain ⟨hc, huid⟩ := hfor
    obtain ⟨-, hgame', hdb', huid'⟩ := { s with toGame := rest }.onReply_spec reply
    have hkeep : .authorized ∈ s.player.roles →
        .authorized ∈ ({ s with toGame := rest }.onReply reply).player.roles :=
      fun hauth => System.mem_roles_onReply.2 (.inr hauth)
    refine ⟨fun hadmitted => ?_, fun _ hlists => ?_, fun _ hnot => ?_⟩
    · have hadmitted' : Admitted s.player.roles ∨ reply.granted = some .lobby := by
        unfold Admitted at hadmitted
        simp only [System.mem_roles_onReply] at hadmitted
        cases reply <;> simp_all [Admitted, D2S.granted]
      rcases hadmitted' with hadmitted' | hlobby
      · exact hkeep (h.roles hadmitted')
      · -- a player list in front of all replies has not been introduced
        by_contra hnot
        obtain rfl : reply = .playerInfo s.player.credentials.uid := by
          rw [← huid]
          cases reply <;> simp_all [D2S.granted, D2S.uid]
        obtain ⟨r, hr, -⟩ := hreplies hc (fun hauth => hnot (hkeep hauth)) [] rest rfl
        cases hr
    · rw [hdb'] at hlists
      exact hkeep (h.requests hc hlists)
    · rw [huid', hgame']
      refine (hreplies hc fun hauth => hnot (hkeep hauth)).tail fun hauth => ?_
      -- had the reply authorized the session, it would hold the role by now
      refine hnot (System.mem_roles_onReply.2 (.inl ?_))
      cases reply <;> first | rfl | cases hauth
  · refine ⟨h.roles, h.requests, fun hc hnot => (hreplies hc hnot).tail fun hauth => ?_⟩
    refine hfor ⟨hc, ?_⟩
    cases reply <;> first | exact hauth | cases hauth

theorem step (h : Verified s) {o : Op} (hguard : VerifiedFirst s o) (hstep : s.step o = .ok s') :
    Verified s' := by
  cases o with
  | client message memory =>
      obtain ⟨-, hsend, rfl⟩ := System.step_client hstep
      exact h.execute hsend
  | disconnect =>
      obtain ⟨-, rfl⟩ := System.step_disconnect hstep
      exact h.disconnect
  | database answers memory =>
      obtain ⟨message, rest, hdb, rfl⟩ := System.step_database hstep
      simp only [VerifiedFirst, hdb] at hguard
      exact h.database hdb hguard
  | deliver =>
      obtain ⟨reply, rest, hgame, rfl⟩ := System.step_deliver hstep
      exact h.deliver hgame

end Verified

/-! ## Runs -/

/-- Only the delivery of a `D2S_AUTHORIZED` authorizes the session. -/
theorem authorized_of_step {s s' : System} {o : Op} (h : s.step o = .ok s')
    (hauth : .authorized ∈ s'.player.roles) :
    .authorized ∈ s.player.roles ∨ o = .deliver ∧ ∃ uid aid rest,
      s.toGame = .authorized uid aid :: rest ∧ s.connected ∧ uid = s.player.credentials.uid := by
  cases o with
  | client message memory =>
      obtain ⟨-, -, rfl⟩ := System.step_client h
      unfold System.execute at hauth
      split_ifs at hauth
      · rcases s.mem_roles_handle hauth with hauth | ⟨heq, -⟩ | ⟨heq, -⟩
        · exact .inl hauth
        · cases heq
        · cases heq
      · exact .inl hauth
  | disconnect =>
      obtain ⟨-, rfl⟩ := System.step_disconnect h
      rw [s.onDisconnected_spec.1] at hauth
      exact .inl hauth
  | database answers memory =>
      obtain ⟨message, rest, -, rfl⟩ := System.step_database h
      exact .inl hauth
  | deliver =>
      obtain ⟨reply, rest, hgame, rfl⟩ := System.step_deliver h
      split_ifs at hauth with hfor
      · rcases System.mem_roles_onReply.1 hauth with hgranted | hauth
        · obtain ⟨uid, aid, rfl⟩ : ∃ uid aid, reply = .authorized uid aid := by
            cases reply <;> simp_all [D2S.granted]
          exact .inr ⟨rfl, uid, aid, rest, hgame, hfor.1, hfor.2⟩
        · exact .inl hauth
      · exact .inl hauth

theorem authorizedDelivered_of_mem {s s' : System} {ops : List Op}
    (hs : .authorized ∉ s.player.roles) (hrun : run System.step s ops = .ok s')
    (hauth : .authorized ∈ s'.player.roles) : AuthorizedDelivered s ops := by
  induction ops using List.reverseRecOn generalizing s' with
  | nil =>
      rw [run_nil] at hrun
      exact absurd (Except.ok.inj hrun ▸ hauth) hs
  | append_singleton ops o ih =>
      cases hbefore : run System.step s ops with
      | error f =>
          rw [run_append_error [o] hbefore] at hrun
          cases hrun
      | ok t =>
          rw [run_append_ok [o] hbefore] at hrun
          rcases authorized_of_step (run_singleton.1 hrun) hauth with hauth |
            ⟨rfl, uid, aid, rest, hgame, hc, huid⟩
          · obtain ⟨before, after, u, uid, aid, rest, rfl, hdelivered⟩ := ih hbefore hauth
            exact ⟨before, after ++ [o], u, uid, aid, rest, by simp, hdelivered⟩
          · exact ⟨ops, [], t, uid, aid, rest, rfl, hbefore, hgame, hc, huid⟩

/-- The session stays authorized. -/
theorem authorized_step {s s' : System} {o : Op} (h : s.step o = .ok s')
    (hauth : .authorized ∈ s.player.roles) : .authorized ∈ s'.player.roles := by
  cases o with
  | client message memory =>
      obtain ⟨-, -, rfl⟩ := System.step_client h
      unfold System.execute
      split_ifs
      · exact s.authorized_handle message memory hauth
      · exact hauth
  | disconnect =>
      obtain ⟨-, rfl⟩ := System.step_disconnect h
      rw [s.onDisconnected_spec.1]
      exact hauth
  | database answers memory =>
      obtain ⟨message, rest, -, rfl⟩ := System.step_database h
      exact hauth
  | deliver =>
      obtain ⟨reply, rest, -, rfl⟩ := System.step_deliver h
      split_ifs
      · exact System.mem_roles_onReply.2 (.inr hauth)
      · exact hauth

theorem authorized_of_run {s s' : System} {ops : List Op} (h : run System.step s ops = .ok s')
    (hauth : .authorized ∈ s.player.roles) : .authorized ∈ s'.player.roles := by
  induction ops generalizing s with
  | nil =>
      rw [run_nil] at h
      exact Except.ok.inj h ▸ hauth
  | cons o ops ih =>
      cases hstep : s.step o with
      | error f =>
          rw [run_cons_error ops hstep] at h
          cases h
      | ok t =>
          rw [run_cons_ok ops hstep] at h
          exact ih h (authorized_step hstep hauth)

theorem mem_of_authorizedDelivered {s s' : System} {ops : List Op}
    (h : AuthorizedDelivered s ops) (hrun : run System.step s ops = .ok s') :
    .authorized ∈ s'.player.roles := by
  obtain ⟨before, after, t, uid, aid, rest, rfl, hbefore, hgame, hc, huid⟩ := h
  rw [run_append_ok _ hbefore] at hrun
  cases hstep : t.step .deliver with
  | error f =>
      rw [run_cons_error after hstep] at hrun
      cases hrun
  | ok u =>
      rw [run_cons_ok after hstep] at hrun
      refine authorized_of_run hrun ?_
      obtain ⟨reply, rest', hgame', rfl⟩ := System.step_deliver hstep
      obtain ⟨rfl, -⟩ := List.cons.inj (hgame.symm.trans hgame')
      rw [if_pos ⟨hc, huid⟩]
      exact System.mem_roles_onReply.2 (.inl rfl)

/-- Where the DB server accepts secondary passwords of sessions only that it has authorized before, a
    session has the role of the lobby, of loading or of the game only after a `D2S_AUTHORIZED` has
    been delivered to it. -/
theorem authorizedDelivered_of_admitted {credentials : Credentials} {position : Space.Point}
    {map : UInt8} {activeUsers : List Int32} {ops : List Op} {s : System}
    (hadm : Admissible System.step VerifiedFirst
      (System.connect credentials position map activeUsers) ops)
    (hrun : run System.step (System.connect credentials position map activeUsers) ops = .ok s)
    (hrole : .lobby ∈ s.player.roles ∨ .loading ∈ s.player.roles ∨ .ingame ∈ s.player.roles) :
    AuthorizedDelivered (System.connect credentials position map activeUsers) ops := by
  have hverified : Verified s := run_invariant
    (fun s o s' (h : Verified s) hguard hstep => h.step hguard hstep)
    (.connect credentials position map activeUsers) hadm hrun
  exact authorizedDelivered_of_mem (by simp [System.connect]) hrun (hverified.roles hrole)

/-- The tables, for a login with the given outcome and the secondary password of the account. -/
def accountAnswers (correctPassword : Bool) : Answers where
  correctLogin := true
  correctPassword
  idaccount := 1
  secondary := some [49, 50, 51, 52, 53, 54, 55, 56]
  changed := 0
  duplicate := false
  count := 0
  row := none

/-- A session with a correct login and password. -/
def verifiedLogin : List Op :=
  [.client (.request .login [97, 0, 98, 0, 99, 0]) fun _ => 0,
    .database (accountAnswers true) fun _ => 0, .deliver, .deliver]

theorem authorizedDelivered_verifiedLogin :
    AuthorizedDelivered (System.connect ⟨0, 5⟩ ⟨0, 0⟩ 0 []) verifiedLogin :=
  authorizedDelivered_of_admitted (by decide +kernel)
    (rfl : run System.step (System.connect ⟨0, 5⟩ ⟨0, 0⟩ 0 []) verifiedLogin = .ok _)
    (by decide +kernel)

/-- A wrong password, and then the secondary password of the account that the uninitialised account id
    names. -/
def secondaryOnly : List Op :=
  [.client (.request .login [97, 0, 98, 0, 99, 0]) fun _ => 0,
    .database (accountAnswers false) fun _ => 0, .deliver,
    .client (.request .secondLogin [0, 49, 50, 51, 52, 53, 54, 55, 56, 0, 0, 0, 0, 0]) fun _ => 0,
    .database (accountAnswers false) fun _ => 0, .deliver]

set_option maxRecDepth 4000 in
theorem lobby_unauthorized :
    ¬ ∀ (credentials : Credentials) (position : Space.Point) (map : UInt8)
        (activeUsers : List Int32) (ops : List Op) (s : System),
      run System.step (System.connect credentials position map activeUsers) ops = .ok s →
      .lobby ∈ s.player.roles →
      AuthorizedDelivered (System.connect credentials position map activeUsers) ops := by
  intro halways
  have hrun : run System.step (System.connect ⟨1, 5⟩ ⟨0, 0⟩ 0 []) secondaryOnly = .ok _ := rfl
  have hdelivered := halways _ _ _ _ _ _ hrun (by decide +kernel)
  exact absurd (mem_of_authorizedDelivered hdelivered hrun) (by decide +kernel)

end Bango.Session
