import Bango.Account.Proofs.Alignment
import Bango.Session.Proofs.Accounts
import Bango.Session.Proofs.Passwords

set_option autoImplicit false

/-! # Logging in among all messages

The sessions with all their messages do nothing to the active accounts that the sessions as far as
logging in goes do not do: as long as the strings of the logins end where they should, every run of the
former is one of the latter, in which the other messages and replies are left out. -/

namespace Bango.Session

open Bango.Account Bango.Lib Bango.Network

/-! ## Sessions, messages and replies -/

/-- A session as far as logging in goes. A login that the DB server cannot read leaves its session
    without `CAN_REQUEST_PRIMARY`, and is not seen. -/
structure Client.SeenAs (c : Client) (d : Connection) : Prop where
  uid : d.uid = c.uid
  aid : d.aid = c.aid
  leaving : d.leaving = c.leaving
  canRequestPrimary : .canRequestPrimary ∈ c.roles → .canRequestPrimary ∈ d.roles
  authorized : .authorized ∈ d.roles ↔ .authorized ∈ c.roles

/-- What the DB server reads of a message, whatever is in the memory of the packet. -/
inductive S2D.ReadsAs : S2D → LoginS2D → Prop where
  | login {bytes l p m : List UInt8} {uid : UInt32}
    (h : ∀ memory, readRequest memory bytes = some (.login l p m uid)) :
    ReadsAs (.forwarded bytes) (.login l p m uid)
  | disconnect (aid : Int32) : ReadsAs (.disconnect aid) (.disconnect aid)

/-- The message is not about logging in. -/
def S2D.IsOther : S2D → Prop
  | .forwarded bytes => ∀ memory request, readRequest memory bytes = some request →
    request.origin ≠ .login
  | .restart .. => True
  | .disconnect _ => False

/-- The messages about logging in, in their order. -/
inductive Logins : List Sent → List LoginS2D → Prop where
  | nil : Logins [] []
  | cons {sent : Sent} {message : LoginS2D} {sents : List Sent} {messages : List LoginS2D}
    (h : sent.message.ReadsAs message) (hrest : Logins sents messages) :
    Logins (sent :: sents) (message :: messages)
  | skip {sent : Sent} {sents : List Sent} {messages : List LoginS2D} (h : sent.message.IsOther)
    (hrest : Logins sents messages) : Logins (sent :: sents) messages

theorem Logins.append {sents sents' : List Sent} {messages messages' : List LoginS2D}
    (h : Logins sents messages) (h' : Logins sents' messages') :
    Logins (sents ++ sents') (messages ++ messages') := by
  induction h with
  | nil => exact h'
  | cons hreads _ ih => exact .cons hreads ih
  | skip hother _ ih => exact .skip hother ih

theorem Logins.of_isOther {uid : UInt32} {written : List S2D} (h : ∀ message ∈ written, message.IsOther) :
    Logins (written.map fun message => ⟨uid, message⟩) [] := by
  induction written with
  | nil => exact .nil
  | cons message written ih =>
      rw [List.forall_mem_cons] at h
      exact .skip h.1 (ih h.2)

/-- The reply grants an account. -/
def D2S.isGrant : D2S → Bool
  | .authorized .. => true
  | .login .. | .secLogin _ | .playerInfo _ | .delPlayerInfo _ | .ansNewPlayer _ | .loadPlayer ..
  | .loadItems _ | .skillInfo _ => false

namespace Client

variable {c : Client} {d : Connection}

theorem SeenAs.authorizedFor (h : c.SeenAs d) (aid : Int32) :
    d.AuthorizedFor aid ↔ c.AuthorizedFor aid := by
  unfold Connection.AuthorizedFor
  rw [h.leaving, h.authorized, h.aid]

/-- The roles that are not about logging in are not seen. -/
theorem SeenAs.assign (h : c.SeenAs d) {role : Role} (hprimary : role ≠ .canRequestPrimary)
    (hauthorized : role ≠ .authorized) : (c.assign role).SeenAs d where
  uid := h.uid
  aid := h.aid
  leaving := h.leaving
  canRequestPrimary hrole := h.canRequestPrimary (by simpa [hprimary.symm] using hrole)
  authorized := by simp [h.authorized, hauthorized.symm]

theorem SeenAs.deny (h : c.SeenAs d) {role : Role} (hauthorized : role ≠ .authorized) :
    (c.deny role).SeenAs d where
  uid := h.uid
  aid := h.aid
  leaving := h.leaving
  canRequestPrimary hrole := h.canRequestPrimary (mem_roles_deny.1 hrole).2
  authorized := by simp [h.authorized, hauthorized.symm]

/-- A reply that grants nothing is not seen. -/
theorem SeenAs.onReply_left (h : c.SeenAs d) {reply : D2S} (hreply : reply.isGrant = false) :
    (c.onReply reply).SeenAs d := by
  cases reply with
  | authorized => cases hreply
  | login | secLogin | playerInfo => exact h.assign (by decide) (by decide)
  | loadPlayer | delPlayerInfo | ansNewPlayer | loadItems | skillInfo => exact h

theorem SeenAs.onReply_right (h : c.SeenAs d) {reply : D2S} (hreply : reply.isGrant = false) :
    c.SeenAs (d.onReply reply) := by
  cases reply with
  | authorized => cases hreply
  | login | secLogin | playerInfo =>
      refine ⟨h.uid, h.aid, h.leaving, ?_, ?_⟩
      · simpa [Connection.onReply, Connection.assign, Roles.assign] using h.canRequestPrimary
      · simp [Connection.onReply, Connection.assign, Roles.assign, h.authorized]
  | loadPlayer | delPlayerInfo | ansNewPlayer | loadItems | skillInfo => exact h

theorem SeenAs.authorize (h : c.SeenAs d) (uid : UInt32) (aid : Int32) :
    (c.onReply (.authorized uid aid)).SeenAs (d.onReply (.authorized uid aid)) := by
  refine ⟨h.uid, rfl, h.leaving, ?_, ?_⟩
  · simpa [Client.onReply, Connection.onReply, Connection.assign, Roles.assign] using
      h.canRequestPrimary
  · simp [Client.onReply, Connection.onReply, Connection.assign, Roles.assign]

/-- A handler does nothing about logging in. -/
structure Quiet (c : Client) (result : Client × List S2D) : Prop where
  seen : ∀ d : Connection, c.SeenAs d → result.1.SeenAs d
  other : ∀ message ∈ result.2, message.IsOther

theorem Quiet.refl (c : Client) : c.Quiet (c, []) :=
  ⟨fun _ => id, fun _ hmem => absurd hmem List.not_mem_nil⟩

theorem quiet_onRequest {m : Request} {payload : List UInt8} (memory : Memory) (hm : m ≠ .login)
    (hsendable : payload.length + 3 ≤ maxPacketLength) : c.Quiet (c.onRequest m payload memory) := by
  have hquiet : ∀ c' : Client, (∀ d : Connection, c.SeenAs d → c'.SeenAs d) → c.Quiet (c', []) ∧
      ∀ bytes, forwarded m ⟨c.aid, c.uid⟩ memory payload = some bytes →
        c.Quiet (c', [.forwarded bytes]) := by
    intro c' hseen
    refine ⟨⟨hseen, fun _ hmem => absurd hmem List.not_mem_nil⟩, fun bytes hbytes => ⟨hseen, ?_⟩⟩
    refine List.forall_mem_singleton.2 fun memory' request hread => ?_
    rw [origin_of_forwarded hsendable hbytes hread]
    exact hm
  unfold onRequest
  cases m with
  | login => exact absurd rfl hm
  | secondLogin =>
      obtain ⟨hnone, hsome⟩ := hquiet (c.deny .canRequestSecondary)
        fun d h => h.deny (by decide)
      dsimp only
      split
      · exact hnone
      · next bytes hbytes => exact hsome bytes hbytes
  | loadPlayer =>
      obtain ⟨hnone, hsome⟩ := hquiet ((c.assign .loading).deny .lobby)
        fun d h => (h.assign (by decide) (by decide)).deny (by decide)
      dsimp only
      split
      · exact hnone
      · next bytes hbytes => exact hsome bytes hbytes
  | newPlayer | delPlayer | restorePlayer =>
      obtain ⟨hnone, hsome⟩ := hquiet c fun _ => id
      dsimp only
      split
      · exact hnone
      · next bytes hbytes => exact hsome bytes hbytes

theorem quiet_onStart (c : Client) : c.Quiet (c.onStart, []) := by
  unfold onStart
  split_ifs
  · exact .refl c
  · refine ⟨fun d h => ?_, fun _ hmem => absurd hmem List.not_mem_nil⟩
    have hplaced : ({ c with inWorld := true } : Client).SeenAs d :=
      ⟨h.uid, h.aid, h.leaving, h.canRequestPrimary, h.authorized⟩
    exact (hplaced.assign (by decide) (by decide)).deny (by decide)

theorem quiet_onRestart (c : Client) (logout : UInt8) : c.Quiet (c.onRestart logout) := by
  unfold onRestart
  split_ifs
  · exact .refl c
  · refine ⟨fun d h => ?_, List.forall_mem_singleton.2 trivial⟩
    have hremoved : ({ c with inWorld := false } : Client).SeenAs d :=
      ⟨h.uid, h.aid, h.leaving, h.canRequestPrimary, h.authorized⟩
    exact hremoved.deny (by decide)
  · exact .refl c

theorem quiet_execute {message : C2S} (memory : Memory) (hsendable : message.Sendable)
    (hmessage : ∀ payload, message ≠ .request .login payload) : c.Quiet (c.execute message memory) := by
  unfold execute
  split_ifs
  · cases message with
    | request m payload =>
        exact quiet_onRequest memory (fun hm => hmessage payload (by rw [hm])) hsendable
    | start => exact quiet_onStart c
    | restart logout => exact quiet_onRestart c logout
    | move x y => exact .refl c
  · exact .refl c

end Client

/-! ## The DB server -/

/-- What is not about logging in leaves the active users alone, and grants nothing. -/
theorem serve_of_isOther {message : S2D} (h : message.IsOther) (activeUsers : List Int32)
    (answers : Answers) (memory : Memory) :
    (serve activeUsers answers memory message).2 = activeUsers ∧
      (serve activeUsers answers memory message).1.filter D2S.isGrant = [] := by
  have hgrants : ∀ rs : List D2S, (∀ uid aid, .authorized uid aid ∉ rs) →
      rs.filter D2S.isGrant = [] := by
    intro rs hnone
    rw [List.filter_eq_nil_iff]
    intro reply hmem
    cases reply with
    | authorized uid aid => exact absurd hmem (hnone uid aid)
    | login | secLogin | playerInfo | delPlayerInfo | ansNewPlayer | loadPlayer | loadItems
    | skillInfo => exact Bool.false_ne_true
  cases message with
  | restart uid aid => exact ⟨rfl, rfl⟩
  | disconnect aid => exact h.elim
  | forwarded bytes =>
      cases hread : readRequest memory bytes with
      | none => simp [serve, hread]
      | some request =>
          have hserve : serve activeUsers answers memory (.forwarded bytes) =
              (replies answers request, activeUsers) := by
            cases request with
            | login l p m id => exact absurd rfl (h memory _ hread)
            | secondaryLogin | secondaryCreate | secondaryChange | newPlayer | deletePlayer
            | restorePlayer | loadPlayer => simp [serve, hread]
          rw [hserve]
          exact ⟨rfl, hgrants _ fun uid aid => (mem_replies answers request).2 aid⟩

/-! ## The two servers -/

namespace Gate

variable {collate : Collation} {g g' : Gate} {s s' : Servers} {op : Op}

/-- The servers with all their messages, as far as logging in goes. -/
structure Shows (g : Gate) (s : Servers) : Prop where
  maxUid : s.maxUid = g.maxUid
  sessions : List.Forall₂ Client.SeenAs g.sessions s.sessions
  activeUsers : s.activeUsers = g.activeUsers
  toDb : Logins g.toDb s.toDb
  toGame : s.toGame.filter D2S.isGrant = g.toGame.filter D2S.isGrant

theorem shows_start (accounts : List AccountRow) : (start accounts).Shows Servers.start where
  maxUid := rfl
  sessions := .nil
  activeUsers := rfl
  toDb := .nil
  toGame := rfl

/-- The strings of a login end where they should, so that the id behind them is the session's own. -/
def Op.NamesOwn : Op → Prop
  | .client _ (.request .login payload) _ => Aligned .login payload
  | _ => True

theorem Shows.connect (h : g.Shows s) (aid : Int32) : (g.connect aid).Shows (s.connect aid) where
  maxUid := congrArg (· + 1) h.maxUid
  sessions := by
    refine List.rel_append h.sessions (.cons ?_ .nil)
    rw [h.maxUid]
    exact ⟨rfl, rfl, rfl, id, Iff.rfl⟩
  activeUsers := h.activeUsers
  toDb := h.toDb
  toGame := h.toGame

/-- The session, its handler and its messages change together. -/
theorem Shows.update (h : g.Shows s) (hkeyed : Keyed (·.uid) g.sessions) {uid : UInt32} {c : Client}
    (hc : findKey (·.uid) uid g.sessions = some c) {result : Client × List S2D}
    {f : Connection → Connection} (hseen : ∀ d : Connection, c.SeenAs d → result.1.SeenAs (f d))
    {messages : List LoginS2D} (hmessages : Logins (result.2.map fun message => ⟨uid, message⟩) messages) :
    (g.update uid result).Shows
      { s with
        sessions := updateKey (·.uid) uid f s.sessions
        toDb := s.toDb ++ messages } where
  maxUid := h.maxUid
  sessions := by
    refine forall₂_updateKey h.sessions (fun _ _ hseen => hseen.uid) fun x hx d huid hx' => ?_
    have hxc : x = c :=
      List.inj_on_of_nodup_map hkeyed hx (mem_of_findKey hc) (huid.trans (key_of_findKey hc).symm)
    exact hseen d (hxc ▸ hx')
  activeUsers := h.activeUsers
  toDb := h.toDb.append hmessages
  toGame := h.toGame

/-- A handler that does nothing about logging in is not seen. -/
theorem Shows.quiet (h : g.Shows s) (hkeyed : Keyed (·.uid) g.sessions) {uid : UInt32} {c : Client}
    (hc : findKey (·.uid) uid g.sessions = some c) {result : Client × List S2D}
    (hquiet : c.Quiet result) : (g.update uid result).Shows s := by
  have hshows := h.update hkeyed hc (f := id) hquiet.seen (.of_isOther hquiet.other)
  rwa [updateKey_id, List.append_nil] at hshows

theorem Shows.keyed (h : g.Shows s) (hinv : s.Inv) : Keyed (·.uid) g.sessions := by
  have huids : s.sessions.map (·.uid) = g.sessions.map (·.uid) := by
    have hrelated := h.sessions
    generalize g.sessions = clients at hrelated
    generalize s.sessions = connections at hrelated
    induction hrelated with
    | nil => rfl
    | cons hseen _ ih => rw [List.map_cons, List.map_cons, hseen.uid, ih]
  have hkeyed := hinv.keyed
  unfold Keyed at hkeyed ⊢
  rwa [huids] at hkeyed

/-- The DB server handles a message. -/
theorem Shows.database (h : g.Shows s) {sent : Sent} {rest : List Sent} (hsent : g.toDb = sent :: rest)
    (others : Answers) (memory : Memory) :
    ∃ ops s', run Servers.step s ops = .ok s' ∧
      ({ g with toDb := rest }.database collate others memory sent).Shows s' := by
  obtain ⟨hmaxUid, hsessions, hactive, htoDb, htoGame⟩ := h
  rw [hsent] at htoDb
  obtain ⟨sender, sentMessage⟩ := sent
  generalize hlink : s.toDb = messages at htoDb
  cases htoDb with
  | @cons _ message _ messages hreads hrest =>
      cases hreads with
      | @login bytes l p m uid hread =>
          let answers := others.about collate g.accounts (.login l p m uid)
          refine ⟨[.database answers], _, run_singleton.2 (by simp only [Servers.step, hlink]; rfl), ?_⟩
          simp only [Gate.database, S2D.request, hread, Session.serve, Servers.serve, ← hactive]
          refine ⟨hmaxUid, hsessions, rfl, hrest, ?_⟩
          rw [List.filter_append, List.filter_append, htoGame]
      | disconnect aid =>
          refine ⟨[.database others], _, run_singleton.2 (by simp only [Servers.step, hlink]; rfl), ?_⟩
          simp only [Gate.database, S2D.request, Session.serve, Servers.serve, ← hactive, List.append_nil]
          exact ⟨hmaxUid, hsessions, rfl, hrest, htoGame⟩
  | skip hother hrest =>
      refine ⟨[], s, rfl, ?_⟩
      unfold Gate.database
      split
      · obtain ⟨hsame, hnone⟩ := serve_of_isOther hother g.activeUsers others memory
        refine ⟨hmaxUid, hsessions, hactive.trans hsame.symm, hlink ▸ hrest, ?_⟩
        simp only [List.filter_append, hnone, List.append_nil, htoGame]
      · next request hrequest =>
          obtain ⟨hsame, hnone⟩ := serve_of_isOther hother g.activeUsers
            (others.about collate g.accounts request) memory
          refine ⟨hmaxUid, hsessions, hactive.trans hsame.symm, hlink ▸ hrest, ?_⟩
          simp only [List.filter_append, hnone, List.append_nil, htoGame]

/-- Replies that grant nothing are delivered. -/
theorem Shows.deliver_others (h : g.Shows s) {others rest : List D2S}
    (htoGame : s.toGame = others ++ rest) (hothers : ∀ reply ∈ others, reply.isGrant = false) :
    ∃ ops s', run Servers.step s ops = .ok s' ∧ g.Shows s' ∧ s'.toGame = rest := by
  induction others generalizing s with
  | nil => exact ⟨[], s, rfl, h, htoGame⟩
  | cons reply others ih =>
      rw [List.forall_mem_cons] at hothers
      have hshows : g.Shows { s with
          sessions := updateKey (·.uid) reply.uid (·.onReply reply) s.sessions
          toGame := others ++ rest } := by
        refine ⟨h.maxUid, ?_, h.activeUsers, h.toDb, ?_⟩
        · have hsame : updateKey (·.uid) reply.uid id g.sessions = g.sessions := updateKey_id _ _
          rw [← hsame]
          exact forall₂_updateKey h.sessions (fun _ _ hseen => hseen.uid)
            fun _ _ _ _ hseen => hseen.onReply_right hothers.1
        · rw [← h.toGame, htoGame, List.cons_append, List.filter_cons_of_neg (by simp [hothers.1])]
      obtain ⟨ops, s', hrun, hshows', hrest⟩ := ih hshows rfl hothers.2
      refine ⟨.deliver :: ops, s', ?_, hshows', hrest⟩
      rw [run_cons_ok ops (by simp only [Servers.step, htoGame, List.cons_append]; rfl), hrun]

/-- The game server handles a reply: what is not a grant is not seen, and a grant comes after what is
    in front of it. -/
theorem Shows.deliver (h : g.Shows s) {reply : D2S} {rest : List D2S}
    (htoGame : g.toGame = reply :: rest) :
    ∃ ops s', run Servers.step s ops = .ok s' ∧
      Shows { g with
        sessions := updateKey (·.uid) reply.uid (·.onReply reply) g.sessions, toGame := rest } s' := by
  have hfilter := h.toGame
  rw [htoGame] at hfilter
  cases hgrant : reply.isGrant with
  | false =>
      refine ⟨[], s, rfl, h.maxUid, ?_, h.activeUsers, h.toDb, ?_⟩
      · have hsame : updateKey (·.uid) reply.uid id s.sessions = s.sessions := updateKey_id _ _
        rw [← hsame]
        exact forall₂_updateKey h.sessions (fun _ _ hseen => hseen.uid)
          fun _ _ _ _ hseen => hseen.onReply_left hgrant
      · rw [hfilter, List.filter_cons_of_neg (by simp [hgrant])]
  | true =>
      rw [List.filter_cons_of_pos hgrant] at hfilter
      obtain ⟨others, rest', hsplit, hothers, -, hrest⟩ := List.filter_eq_cons_iff.1 hfilter
      obtain ⟨ops, t, hrun, hshows, hfront⟩ :=
        h.deliver_others hsplit fun reply hmem => Bool.eq_false_of_not_eq_true (hothers reply hmem)
      refine ⟨ops ++ [.deliver], { t with
        sessions := updateKey (·.uid) reply.uid (·.onReply reply) t.sessions, toGame := rest' }, ?_, ?_⟩
      · rw [run_append_ok [.deliver] hrun]
        exact run_singleton.2 (by simp only [Servers.step, hfront])
      · refine ⟨hshows.maxUid, ?_, hshows.activeUsers, hshows.toDb, hrest⟩
        refine forall₂_updateKey hshows.sessions (fun _ _ hseen => hseen.uid) fun _ _ _ _ hseen => ?_
        cases reply with
        | authorized uid aid => exact hseen.authorize uid aid
        | login | secLogin | playerInfo | delPlayerInfo | ansNewPlayer | loadPlayer | loadItems
        | skillInfo => cases hgrant

/-- A login: the DB server reads the session's own id, or nothing. -/
theorem Shows.login (h : g.Shows s) (hkeyed : Keyed (·.uid) g.sessions) {uid : UInt32}
    {payload : List UInt8} {memory : Memory} {c : Client} (haligned : Aligned .login payload)
    (hc : findKey (·.uid) uid g.sessions = some c) (hleaving : c.leaving = false)
    (hsendable : payload.length + 3 ≤ maxPacketLength) (hrole : .canRequestPrimary ∈ c.roles) :
    ∃ ops s', run Servers.step s ops = .ok s' ∧
      (g.update uid (c.execute (.request .login payload) memory)).Shows s' := by
  have hforwards : Forwards .login payload := by simp [Forwards]
  obtain ⟨bytes, hbytes, hread⟩ :=
    exists_forwarded (c := ⟨c.aid, c.uid⟩) memory hsendable hforwards
  have hexecute : c.execute (.request .login payload) memory =
      (c.deny .canRequestPrimary, [.forwarded bytes]) := by
    simp only [Client.execute, C2S.required, hrole, if_true, Client.handle, Client.onRequest, hbytes]
  rw [hexecute]
  cases hrequest : dbReads .login (relayed .login ⟨c.aid, c.uid⟩ payload) with
  | none =>
      refine ⟨[], s, rfl, h.quiet hkeyed hc ⟨fun d hseen => hseen.deny (by decide), ?_⟩⟩
      refine List.forall_mem_singleton.2 fun memory' request heq => ?_
      rw [hread, hrequest] at heq
      cases heq
  | some request =>
      have horigin : request.origin = .login :=
        origin_of_forwarded hsendable hbytes ((hread memory).trans hrequest)
      have hown := (readsOwnAlways_login_iff payload).2 haligned _ _ hrequest
      obtain ⟨l, p, m, hlogin⟩ : ∃ l p m, request = .login l p m c.uid := by
        cases request with
        | login l p m id => exact ⟨l, p, m, by rw [show id = c.uid from hown]⟩
        | secondaryLogin | secondaryCreate | secondaryChange | newPlayer | deletePlayer
        | restorePlayer | loadPlayer => cases horigin
      have hreads : (S2D.forwarded bytes).ReadsAs (.login l p m uid) := by
        have hcuid : c.uid = uid := by
          have hkey := key_of_findKey hc
          exact hkey
        refine .login fun memory' => ?_
        rw [hread, hrequest, hlogin, hcuid]
      obtain ⟨d, hd, hseen⟩ := forall₂_findKey h.sessions (fun _ _ hseen => hseen.uid) hc
      refine ⟨[.login uid l p m], s.onLogin d l p m, run_singleton.2 ?_, ?_⟩
      · simp only [Servers.step, hd, hseen.leaving, hleaving]
        rfl
      · have hduid : d.uid = uid := key_of_findKey hd
        simp only [Servers.onLogin, hseen.canRequestPrimary hrole, if_true, hduid]
        refine h.update hkeyed hc (fun d' hseen' => ?_) (.cons hreads .nil)
        exact ⟨hseen'.uid, hseen'.aid, hseen'.leaving, by simp [Connection.deny, Roles.deny],
          by simp [Connection.deny, Roles.deny, hseen'.authorized]⟩

/-- A message of a client. -/
theorem Shows.client (h : g.Shows s) (hkeyed : Keyed (·.uid) g.sessions) {uid : UInt32}
    {message : C2S} {memory : Memory} {c : Client} (hnames : (Op.client uid message memory).NamesOwn)
    (hc : findKey (·.uid) uid g.sessions = some c) (hleaving : c.leaving = false)
    (hsendable : message.Sendable) :
    ∃ ops s', run Servers.step s ops = .ok s' ∧ (g.update uid (c.execute message memory)).Shows s' := by
  by_cases hlogin : ∃ payload, message = .request .login payload
  · obtain ⟨payload, rfl⟩ := hlogin
    by_cases hrole : .canRequestPrimary ∈ c.roles
    · exact h.login hkeyed hnames hc hleaving hsendable hrole
    · have hexecute : c.execute (.request .login payload) memory = (c, []) := by
        simp only [Client.execute, C2S.required, hrole, if_false]
      rw [hexecute]
      exact ⟨[], s, rfl, h.quiet hkeyed hc (.refl c)⟩
  · refine ⟨[], s, rfl, h.quiet hkeyed hc (Client.quiet_execute memory hsendable fun payload heq => ?_)⟩
    exact hlogin ⟨payload, heq⟩

theorem Shows.disconnect (h : g.Shows s) (hkeyed : Keyed (·.uid) g.sessions) {uid : UInt32}
    {c : Client} (hc : findKey (·.uid) uid g.sessions = some c) (hleaving : c.leaving = false) :
    ∃ ops s', run Servers.step s ops = .ok s' ∧ (g.update uid c.onDisconnected).Shows s' := by
  unfold Client.onDisconnected
  by_cases hthrows : .ingame ∈ c.roles ∧ ¬ c.inWorld = true
  · rw [if_pos hthrows]
    exact ⟨[], s, rfl, h.quiet hkeyed hc (.refl c)⟩
  · rw [if_neg hthrows]
    obtain ⟨d, hd, hseen⟩ := forall₂_findKey h.sessions (fun _ _ hseen => hseen.uid) hc
    have hduid : d.uid = uid := key_of_findKey hd
    refine ⟨[.disconnect uid], s.onDisconnected d, run_singleton.2 ?_, ?_⟩
    · simp only [Servers.step, hd, hseen.leaving, hleaving]
      rfl
    · have hleaves : ∀ d' : Connection, c.SeenAs d' →
          ({ c with inWorld := false, leaving := true } : Client).SeenAs { d' with leaving := true } :=
        fun d' hseen' => ⟨hseen'.uid, hseen'.aid, rfl, hseen'.canRequestPrimary, hseen'.authorized⟩
      unfold Servers.onDisconnected
      by_cases hauthorized : .authorized ∈ c.roles
      · rw [if_pos hauthorized, if_pos (hseen.authorized.2 hauthorized), hduid, hseen.aid]
        exact h.update hkeyed hc hleaves (.cons (.disconnect c.aid) .nil)
      · rw [if_neg hauthorized, if_neg (mt hseen.authorized.1 hauthorized), hduid]
        have hupdate : (g.update uid ({ c with inWorld := false, leaving := true }, [])).Shows
            { s with
              sessions := updateKey (·.uid) uid (fun d' => { d' with leaving := true }) s.sessions
              toDb := s.toDb ++ [] } :=
          h.update hkeyed hc hleaves .nil
        rwa [List.append_nil] at hupdate

/-- A step of the servers with all their messages is some steps of those that log in only. -/
theorem Shows.step (h : g.Shows s) (hinv : s.Inv) (hnames : op.NamesOwn)
    (hstep : g.step collate op = .ok g') :
    ∃ ops s', run Servers.step s ops = .ok s' ∧ g'.Shows s' := by
  have hkeyed := h.keyed hinv
  cases op with
  | connect aid =>
      simp only [Gate.step] at hstep
      split_ifs at hstep with hmax
      cases hstep
      refine ⟨[.connect aid], s.connect aid, run_singleton.2 ?_, h.connect aid⟩
      simp only [Servers.step, h.maxUid, if_pos hmax]
  | client uid message memory =>
      simp only [Gate.step] at hstep
      split at hstep
      · cases hstep
      · next c hc =>
          split_ifs at hstep with hready
          cases hstep
          exact h.client hkeyed hnames hc hready.1 hready.2
  | disconnect uid =>
      simp only [Gate.step] at hstep
      split at hstep
      · cases hstep
      · next c hc =>
          split_ifs at hstep with hleaving
          cases hstep
          exact h.disconnect hkeyed hc (Bool.eq_false_of_not_eq_true hleaving)
  | forget uid =>
      simp only [Gate.step] at hstep
      split at hstep
      · cases hstep
      · next c hc =>
          split_ifs at hstep with hleaving
          cases hstep
          obtain ⟨d, hd, hseen⟩ := forall₂_findKey h.sessions (fun _ _ hseen => hseen.uid) hc
          refine ⟨[.forget uid], { s with sessions := eraseKey (·.uid) uid s.sessions },
            run_singleton.2 ?_, ⟨h.maxUid, ?_, h.activeUsers, h.toDb, h.toGame⟩⟩
          · simp only [Servers.step, hd, hseen.leaving, hleaving, if_true]
          · exact forall₂_eraseKey h.sessions (fun _ _ hseen => hseen.uid) uid
  | database others memory =>
      simp only [Gate.step] at hstep
      split at hstep
      · cases hstep
      · next sent rest hsent =>
          cases hstep
          exact h.database hsent others memory
  | deliver =>
      simp only [Gate.step] at hstep
      split at hstep
      · cases hstep
      · next reply rest htoGame =>
          cases hstep
          exact h.deliver htoGame

/-! ## Runs -/

/-- A run of the servers that log in only leads to what is seen here. -/
def LogsIn (g : Gate) : Prop :=
  ∃ ops s, run Servers.step Servers.start ops = .ok s ∧ g.Shows s

theorem LogsIn.step (h : g.LogsIn) (hnames : op.NamesOwn) (hstep : g.step collate op = .ok g') :
    g'.LogsIn := by
  obtain ⟨ops, s, hrun, hshows⟩ := h
  obtain ⟨next, s', hnext, hshows'⟩ := hshows.step (Servers.inv_of_run hrun) hnames hstep
  refine ⟨ops ++ next, s', ?_, hshows'⟩
  rw [run_append_ok next hrun, hnext]

/-- Every run with all the messages in which the strings of the logins end where they should is, as far
    as logging in goes, a run of the servers that log in only. -/
theorem logsIn_of_run {accounts : List AccountRow} {ops : List Op}
    (hnames : ∀ op ∈ ops, op.NamesOwn)
    (hrun : run (fun g => step g collate) (start accounts) ops = .ok g) : g.LogsIn :=
  run_invariant (fun _ _ _ h hnames hstep => h.step hnames hstep)
    ⟨[], Servers.start, rfl, shows_start accounts⟩ (.of_forall (fun _ => hnames) _) hrun

/-- What holds of the servers that log in only, here that no two sessions are authorized for one
    account, holds with all the messages. -/
theorem LogsIn.authorized_eq (h : g.LogsIn) {c d : Client} (hc : c ∈ g.sessions)
    (hd : d ∈ g.sessions) {aid : Int32} (hcaid : c.AuthorizedFor aid) (hdaid : d.AuthorizedFor aid) :
    c = d := by
  obtain ⟨ops, s, hrun, hshows⟩ := h
  have hinv := Servers.inv_of_run hrun
  have hkeyed := hshows.keyed hinv
  have hseen : ∀ x ∈ g.sessions, ∃ y ∈ s.sessions, x.SeenAs y := by
    intro x hx
    obtain ⟨y, hy, hxy⟩ :=
      forall₂_findKey hshows.sessions (fun _ _ hseen => hseen.uid) (Keyed.findKey_eq hkeyed hx)
    exact ⟨y, mem_of_findKey hy, hxy⟩
  obtain ⟨x, hx, hcx⟩ := hseen c hc
  obtain ⟨y, hy, hdy⟩ := hseen d hd
  have hsame : x = y :=
    hinv.authorized_eq hx hy ((hcx.authorizedFor aid).2 hcaid) ((hdy.authorizedFor aid).2 hdaid)
  have huid : c.uid = d.uid := by rw [← hcx.uid, ← hdy.uid, hsame]
  exact List.inj_on_of_nodup_map hkeyed hc hd huid

/-- At no time are two connected sessions authorized for one account, whatever the other messages are. -/
theorem authorized_eq_of_run {accounts : List AccountRow} {ops : List Op}
    (hnames : ∀ op ∈ ops, op.NamesOwn)
    (hrun : run (fun g => step g collate) (start accounts) ops = .ok g) {c d : Client} (hc : c ∈ g.sessions)
    (hd : d ∈ g.sessions) {aid : Int32} (hcaid : c.AuthorizedFor aid) (hdaid : d.AuthorizedFor aid) :
    c = d :=
  (logsIn_of_run hnames hrun).authorized_eq hc hd hcaid hdaid

end Gate

end Bango.Session
