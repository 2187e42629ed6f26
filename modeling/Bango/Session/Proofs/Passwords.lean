import Bango.Session.Passwords
import Bango.Session.Proofs.Authorized

set_option autoImplicit false

/-! # Nobody gets in without a password

A session that has been let in owes this to a request that the DB server has handled before: either the
request states a right password and names the session, or it names the session and comes from one that
has been let in itself. The roles of the sessions, the replies and the requests in flight are all
covered by the log of the handled requests, and the log only grows. -/

namespace Bango.Session

open Bango.Lib Bango.Network Bango.Account

variable {collate : Collation} {log : List Handled} {uid : UInt32} {aid : Int32}

/-! ## The log -/

theorem letIn_append_singleton (log : List Handled) (h : Handled) :
    letIn collate (log ++ [h]) =
      if h.LetsIn collate (letIn collate log) then letIn collate log ++ [named h.request]
      else letIn collate log := by
  unfold letIn
  rw [List.foldl_append, List.foldl_cons, List.foldl_nil]

theorem letIn_append (log : List Handled) (h : Handled) :
    letIn collate log ⊆ letIn collate (log ++ [h]) := by
  intro uid huid
  rw [letIn_append_singleton]
  split_ifs
  · exact List.mem_append_left _ huid
  · exact huid

theorem named_mem_letIn {h : Handled} (hlets : h.LetsIn collate (letIn collate log)) :
    named h.request ∈ letIn collate (log ++ [h]) := by
  rw [letIn_append_singleton, if_pos hlets]
  exact List.mem_append_right _ (List.mem_singleton.2 rfl)

/-- The first session is let in by a password. -/
theorem opens_of_mem_letIn (huid : uid ∈ letIn collate log) : ∃ h ∈ log, h.Opens collate := by
  induction log using List.reverseRecOn generalizing uid with
  | nil => cases huid
  | append_singleton log h ih =>
      have hbefore : ∀ {uid}, uid ∈ letIn collate log → ∃ h' ∈ log ++ [h], h'.Opens collate := by
        intro uid huid
        obtain ⟨h', hmem, hopens⟩ := ih huid
        exact ⟨h', List.mem_append_left _ hmem, hopens⟩
      rw [letIn_append_singleton] at huid
      by_cases hlets : h.LetsIn collate (letIn collate log)
      · have hhere : h ∈ log ++ [h] := List.mem_append_right _ (List.mem_singleton.2 rfl)
        unfold Handled.LetsIn at hlets
        split at hlets
        · exact ⟨h, hhere, hlets⟩
        · exact ⟨h, hhere, hlets⟩
        · exact hbefore hlets
        · exact hbefore hlets
        · exact hbefore hlets
        · exact hlets.elim
        · exact hlets.elim
        · exact hlets.elim
      · rw [if_neg hlets] at huid
        exact hbefore huid

/-! ## The table of accounts -/

namespace AccountRow

variable {before row : AccountRow} {request : DbRequest}

theorem Kept.refl (row : AccountRow) : row.Kept collate [] row := ⟨rfl, rfl, rfl, .inl rfl⟩

theorem Kept.append (h : before.Kept collate log row) (new : Handled) :
    before.Kept collate (log ++ [new]) row := by
  refine ⟨h.idaccount, h.login, h.password, ?_⟩
  rcases h.secondary with hsame | ⟨secondary, hsecondary, hvalid, earlier, hmem, hsets⟩
  · exact .inl hsame
  · exact .inr ⟨secondary, hsecondary, hvalid, earlier, List.mem_append_left _ hmem, hsets⟩

theorem validate_of_newSecondary {secondary : List UInt8}
    (h : newSecondary request = some secondary) : Validate secondary := by
  cases request with
  | secondaryCreate _ new _ | secondaryChange _ new _ =>
      simp only [newSecondary] at h
      split_ifs at h with hvalid
      rwa [← Option.some.inj h]
  | _ => cases h

/-- A row changes only when a request that states its password sets the secondary password. -/
theorem update_cases (row : AccountRow) (request : DbRequest) :
    row.update collate request = row ∨
      ∃ secondary, newSecondary request = some secondary ∧ row.Opens collate request ∧
        row.update collate request = { row with secondary := some secondary } := by
  unfold update
  cases hnew : newSecondary request with
  | none => exact .inl rfl
  | some secondary =>
      by_cases hopens : row.Opens collate request
      · simp only [if_pos hopens]
        exact .inr ⟨secondary, rfl, hopens, rfl⟩
      · left
        simp only [if_neg hopens]

theorem Kept.update (h : before.Kept collate log row) {accounts : List AccountRow}
    (hrow : row ∈ accounts) (sender : UInt32) (request : DbRequest) :
    before.Kept collate (log ++ [⟨sender, request, accounts⟩]) (row.update collate request) := by
  rcases update_cases row request with hsame | ⟨secondary, hnew, hopens, hupdate⟩
  · rw [hsame]
    exact h.append _
  · rw [hupdate]
    refine ⟨h.idaccount, h.login, h.password, .inr ⟨secondary, rfl, validate_of_newSecondary hnew, ?_⟩⟩
    exact ⟨_, List.mem_append_right _ (List.mem_singleton.2 rfl), hnew, row, hrow, rfl, hopens⟩

end AccountRow

/-! ## What the handlers of the game server do -/

/-- A handler gives a session no role that lets it in, and writes what only sessions that are inside
    may write, in their own name. -/
structure Client.Spec (c : Client) (result : Client × List S2D) : Prop where
  uid : result.1.uid = c.uid
  aid : result.1.aid = c.aid
  admitted : Admitted result.1.roles → Admitted c.roles
  authorized : .authorized ∈ result.1.roles → .authorized ∈ c.roles
  lists : ∀ message ∈ result.2, message.Lists → Admitted c.roles
  restarts : ∀ uid aid, .restart uid aid ∈ result.2 → uid = c.uid

namespace Client

variable {c : Client}

@[simp] theorem uid_assign (role : Role) : (c.assign role).uid = c.uid := rfl
@[simp] theorem uid_deny (role : Role) : (c.deny role).uid = c.uid := rfl
@[simp] theorem aid_assign (role : Role) : (c.assign role).aid = c.aid := rfl
@[simp] theorem aid_deny (role : Role) : (c.deny role).aid = c.aid := rfl

@[simp]
theorem mem_roles_assign {role role' : Role} :
    role' ∈ (c.assign role).roles ↔ role' = role ∨ role' ∈ c.roles := Finset.mem_insert

@[simp]
theorem mem_roles_deny {role role' : Role} :
    role' ∈ (c.deny role).roles ↔ role' ≠ role ∧ role' ∈ c.roles := Finset.mem_erase

theorem Spec.refl (c : Client) : c.Spec (c, []) :=
  ⟨rfl, rfl, id, id, fun _ h => absurd h List.not_mem_nil, fun _ _ h => absurd h List.not_mem_nil⟩

theorem spec_onRequest {m : Request} {payload : List UInt8} (memory : Memory)
    (hsendable : payload.length + 3 ≤ maxPacketLength)
    (hrole : (C2S.request m payload).required ∈ c.roles) :
    c.Spec (c.onRequest m payload memory) := by
  -- the session takes the role `LOADING` for `LOBBY`
  have hsession : (c.onRequest m payload memory).1.uid = c.uid ∧
      (c.onRequest m payload memory).1.aid = c.aid ∧
      (Admitted (c.onRequest m payload memory).1.roles → Admitted c.roles) ∧
      (.authorized ∈ (c.onRequest m payload memory).1.roles → .authorized ∈ c.roles) := by
    unfold onRequest
    cases m with
    | loadPlayer =>
        refine ⟨?_, ?_, fun _ => .inl hrole, ?_⟩
        all_goals cases forwarded .loadPlayer ⟨c.aid, c.uid⟩ memory payload <;> simp
    | _ =>
        simp only
        split <;> simp [Admitted]
  have hsent : ∀ message ∈ (c.onRequest m payload memory).2, ∃ bytes, message = .forwarded bytes ∧
      forwarded m ⟨c.aid, c.uid⟩ memory payload = some bytes := by
    intro message hmem
    unfold onRequest at hmem
    cases hbytes : forwarded m ⟨c.aid, c.uid⟩ memory payload with
    | none =>
        rw [hbytes] at hmem
        cases hmem
    | some bytes =>
        rw [hbytes] at hmem
        exact ⟨bytes, List.mem_singleton.1 hmem, rfl⟩
  obtain ⟨huid, haid, hadmitted, hauthorized⟩ := hsession
  refine ⟨huid, haid, hadmitted, hauthorized, ?_, ?_⟩
  · intro message hmem hlists
    obtain ⟨bytes, rfl, hbytes⟩ := hsent message hmem
    obtain ⟨memory', request, hread, horigin⟩ := hlists
    rw [origin_of_forwarded hsendable hbytes hread] at horigin
    left
    rcases horigin with rfl | rfl | rfl <;> exact hrole
  · intro uid aid hmem
    obtain ⟨bytes, hbytes, -⟩ := hsent _ hmem
    cases hbytes

theorem spec_onStart (hrole : .loading ∈ c.roles) : c.Spec (c.onStart, []) := by
  unfold onStart
  by_cases hin : c.inWorld
  · rw [if_pos hin]
    exact .refl c
  · rw [if_neg hin]
    refine ⟨rfl, rfl, fun _ => .inr (.inl hrole), ?_, fun _ h => absurd h List.not_mem_nil,
      fun _ _ h => absurd h List.not_mem_nil⟩
    simp

theorem spec_onRestart {logout : UInt8} (hrole : .ingame ∈ c.roles) :
    c.Spec (c.onRestart logout) := by
  unfold onRestart
  by_cases hlogout : logout = 1
  · rw [if_pos hlogout]
    exact .refl c
  · rw [if_neg hlogout]
    by_cases hin : c.inWorld
    · rw [if_pos hin]
      refine ⟨rfl, rfl, fun _ => .inr (.inr hrole), ?_, fun _ _ _ => .inr (.inr hrole), ?_⟩
      · simp
      · simp
    · rw [if_neg hin]
      exact .refl c

theorem spec_execute {message : C2S} (memory : Memory) (hsendable : message.Sendable) :
    c.Spec (c.execute message memory) := by
  unfold execute
  by_cases hrole : message.required ∈ c.roles
  · rw [if_pos hrole]
    cases message with
    | request m payload => exact spec_onRequest memory hsendable hrole
    | start => exact spec_onStart hrole
    | restart logout => exact spec_onRestart hrole
    | move x y => exact .refl c
  · rw [if_neg hrole]
    exact .refl c

theorem spec_onDisconnected (c : Client) : c.Spec c.onDisconnected := by
  unfold onDisconnected
  split_ifs
  · exact .refl c
  · refine ⟨rfl, rfl, id, id, fun message hmem hlists => ?_, fun uid aid hmem => ?_⟩
    · rw [List.mem_singleton.1 hmem] at hlists
      exact hlists.elim
    · cases List.mem_singleton.1 hmem
  · exact ⟨rfl, rfl, id, id, fun _ h => absurd h List.not_mem_nil,
      fun _ _ h => absurd h List.not_mem_nil⟩

end Client

/-! ## What the DB server replies -/

/-- `Login` grants an account and sends a player list when the password is right only, and for the
    session whose id it has read. -/
theorem mem_login {activeUsers : List Int32} {a : Answers} {id : UInt32} :
    (.playerInfo uid ∈ (login activeUsers a id).1 → uid = id ∧ a.correctPassword) ∧
      ∀ aid, .authorized uid aid ∈ (login activeUsers a id).1 →
        uid = id ∧ aid = a.idaccount ∧ a.correctPassword := by
  unfold login
  by_cases hlogin : a.correctLogin
  · by_cases hpassword : a.correctPassword
    · by_cases hactive : a.idaccount ∈ activeUsers
      · simp [hlogin, hpassword, hactive]
      · simp only [hlogin, hpassword, hactive, not_true_eq_false, if_false]
        cases a.secondary with
        | none => simp
        | some secondary => cases secondary <;> simp [sendPlayerList]
    · simp [hlogin, hpassword]
  · simp [hlogin]

/-- The password that `Login` has found is that of a row. -/
theorem opens_of_correctPassword {others : Answers} {accounts : List AccountRow}
    {l p m : List UInt8} {id : UInt32}
    (h : (others.about collate accounts (.login l p m id)).correctPassword) :
    ∃ row ∈ accounts,
      row.idaccount = (others.about collate accounts (.login l p m id)).idaccount ∧
        row.Opens collate (.login l p m id) := by
  simp only [Answers.about] at h ⊢
  obtain ⟨row, hfind⟩ := Option.isSome_iff_exists.1 h
  have hopens := List.find?_some hfind
  refine ⟨row, List.mem_of_find?_eq_some hfind, ?_, of_decide_eq_true hopens⟩
  simp [hfind]

/-- The other handlers reply to the session that the request names, and grant nothing. -/
theorem mem_replies (a : Answers) (request : DbRequest) :
    (.playerInfo uid ∈ replies a request → uid = named request) ∧
      ∀ aid, .authorized uid aid ∉ replies a request := by
  cases request with
  | login _ _ _ _ => simp [replies]
  | secondaryLogin _ c =>
      cases hsecondary : a.secondary with
      | none => simp [replies, hsecondary]
      | some secondary =>
          simp only [replies, hsecondary]
          split_ifs <;> simp [sendPlayerList, named]
  | loadPlayer _ _ _ c => cases hrow : a.row <;> simp [replies, hrow]
  | _ =>
      simp only [replies]
      split_ifs <;> simp [sendPlayerList, named]

variable {activeUsers : List Int32} {others : Answers} {memory : Memory} {accounts : List AccountRow}
  {message : S2D} {request : DbRequest}

/-- The message of a request. -/
theorem message_of_request (h : message.request memory = some request) :
    ∃ bytes, message = .forwarded bytes ∧ readRequest memory bytes = some request := by
  cases message with
  | forwarded bytes => exact ⟨bytes, rfl, h⟩
  | restart _ _ | disconnect _ => cases h

/-- A player list is sent for the session that the request names, when the password it states is right
    or when it is about a player. -/
theorem playerInfo_mem_serve (hrequest : message.request memory = some request)
    (hreply : .playerInfo uid ∈
      (serve activeUsers (others.about collate accounts request) memory message).1) :
    uid = named request ∧ ∀ sender inside, (message.Lists → sender ∈ inside) →
      Handled.LetsIn collate inside ⟨sender, request, accounts⟩ := by
  obtain ⟨bytes, rfl, hread⟩ := message_of_request hrequest
  simp only [serve, hread] at hreply
  have hlists : ∀ m, request.origin = m → m = .newPlayer ∨ m = .delPlayer ∨ m = .restorePlayer →
      (S2D.forwarded bytes).Lists := fun m horigin hm => ⟨memory, request, hread, horigin ▸ hm⟩
  cases request with
  | login l p m id =>
      obtain ⟨huid, hpassword⟩ := mem_login.1 hreply
      obtain ⟨row, hrow, -, hopens⟩ := opens_of_correctPassword hpassword
      exact ⟨huid, fun _ _ _ => ⟨row, hrow, hopens⟩⟩
  | secondaryLogin password c =>
      refine ⟨(mem_replies _ _).1 hreply, fun _ _ _ => ?_⟩
      simp only [replies, Answers.about] at hreply
      cases hfind : findKey (·.idaccount) c.aid accounts with
      | none => simp [hfind] at hreply
      | some row =>
          cases hsecondary : row.secondary with
          | none => simp [hfind, hsecondary] at hreply
          | some secondary =>
              simp only [hfind, hsecondary, Option.bind_some] at hreply
              by_cases hpassword : password = secondary
              · exact ⟨row, mem_of_findKey hfind, key_of_findKey hfind, hpassword ▸ hsecondary⟩
              · simp [hpassword] at hreply
  | secondaryCreate _ secondary c | secondaryChange _ secondary c =>
      simp only [replies] at hreply
      split_ifs at hreply <;> simp at hreply
  | newPlayer player c =>
      exact ⟨(mem_replies _ _).1 hreply, fun _ _ h => h (hlists _ rfl (.inl rfl))⟩
  | deletePlayer idplayer c =>
      exact ⟨(mem_replies _ _).1 hreply, fun _ _ h => h (hlists _ rfl (.inr (.inl rfl)))⟩
  | restorePlayer idplayer c =>
      exact ⟨(mem_replies _ _).1 hreply, fun _ _ h => h (hlists _ rfl (.inr (.inr rfl)))⟩
  | loadPlayer _ _ _ c =>
      simp only [replies] at hreply
      split at hreply <;> simp at hreply

/-- A session is authorized by a login only. -/
theorem authorized_mem_serve (sender : UInt32) (hrequest : message.request memory = some request)
    (hreply : .authorized uid aid ∈
      (serve activeUsers (others.about collate accounts request) memory message).1) :
    Handled.LogsIn collate uid aid ⟨sender, request, accounts⟩ := by
  obtain ⟨bytes, rfl, hread⟩ := message_of_request hrequest
  simp only [serve, hread] at hreply
  cases request with
  | login l p m id =>
      obtain ⟨rfl, haid, hpassword⟩ := mem_login.2 _ hreply
      obtain ⟨row, hrow, hidaccount, hopens⟩ := opens_of_correctPassword hpassword
      exact ⟨⟨l, p, m, rfl⟩, row, hrow, hidaccount.trans haid.symm, hopens⟩
  | _ =>
      simp only at hreply
      exact ((mem_replies _ _).2 _ hreply).elim

/-- Without a request there is a player list on a restart only, and no account is granted. -/
theorem serve_of_none {answers : Answers} (hrequest : message.request memory = none) :
    (.playerInfo uid ∈ (serve activeUsers answers memory message).1 →
        ∃ aid, message = .restart uid aid) ∧
      ∀ aid, .authorized uid aid ∉ (serve activeUsers answers memory message).1 := by
  cases message with
  | forwarded bytes =>
      have hread : readRequest memory bytes = none := hrequest
      simp [serve, hread]
  | restart id a => simp [serve, sendPlayerList, eq_comm]
  | disconnect a => simp [serve]

/-! ## The invariant -/

namespace Gate

/-- Everything that lets a session in, or that can come to do so, is covered by the log. -/
structure Covered (collate : Collation) (accounts : List AccountRow) (s : Gate) : Prop where
  roles : ∀ c ∈ s.sessions, Admitted c.roles → c.uid ∈ letIn collate s.log
  replies : ∀ uid, .playerInfo uid ∈ s.toGame → uid ∈ letIn collate s.log
  sent : ∀ m ∈ s.toDb, m.message.Lists → m.sender ∈ letIn collate s.log
  /-- The session in whose name a restart asks for the player list is the one that has written it. -/
  own : ∀ m ∈ s.toDb, ∀ uid aid, m.message = .restart uid aid → uid = m.sender
  authorized : ∀ c ∈ s.sessions, .authorized ∈ c.roles → ∃ h ∈ s.log, h.LogsIn collate c.uid c.aid
  grants : ∀ uid aid, .authorized uid aid ∈ s.toGame → ∃ h ∈ s.log, h.LogsIn collate uid aid
  rows : List.Forall₂ (AccountRow.Kept collate s.log) accounts s.accounts

variable {accounts : List AccountRow} {s s' : Gate} {c : Client}

theorem covered_start : (start accounts).Covered collate accounts where
  roles _ hc := absurd hc List.not_mem_nil
  replies _ h := absurd h List.not_mem_nil
  sent _ h := absurd h List.not_mem_nil
  own _ h := absurd h List.not_mem_nil
  authorized _ hc := absurd hc List.not_mem_nil
  grants _ _ h := absurd h List.not_mem_nil
  rows := List.forall₂_same.2 fun row _ => .refl row

theorem Covered.connect (h : s.Covered collate accounts) (aid : Int32) :
    (s.connect aid).Covered collate accounts := by
  have hcases : ∀ c ∈ (s.connect aid).sessions, c ∈ s.sessions ∨ c.roles = {.canRequestPrimary} := by
    intro c hc
    rcases List.mem_append.1 hc with hc | hc
    · exact .inl hc
    · rw [List.mem_singleton.1 hc]
      exact .inr rfl
  refine ⟨fun c hc hrole => ?_, h.replies, h.sent, h.own, fun c hc hrole => ?_, h.grants, h.rows⟩
  · rcases hcases c hc with hc | hroles
    · exact h.roles c hc hrole
    · rw [hroles] at hrole
      exact absurd hrole (by decide)
  · rcases hcases c hc with hc | hroles
    · exact h.authorized c hc hrole
    · rw [hroles] at hrole
      exact absurd hrole (by decide)

theorem Covered.forget (h : s.Covered collate accounts) (uid : UInt32) :
    { s with sessions := eraseKey (·.uid) uid s.sessions }.Covered collate accounts := by
  refine ⟨fun c hc => ?_, h.replies, h.sent, h.own, fun c hc => ?_, h.grants, h.rows⟩
  · exact h.roles c (mem_eraseKey.1 hc).1
  · exact h.authorized c (mem_eraseKey.1 hc).1

/-- A handler that meets its specification. -/
theorem Covered.update (h : s.Covered collate accounts) {uid : UInt32}
    (hc : findKey (·.uid) uid s.sessions = some c) {result : Client × List S2D}
    (hspec : c.Spec result) : (s.update uid result).Covered collate accounts := by
  have hmem := mem_of_findKey hc
  have hkey := key_of_findKey hc
  have hcases : ∀ x ∈ (s.update uid result).sessions, x ∈ s.sessions ∨ x = result.1 := by
    intro x hx
    obtain ⟨y, hy, rfl⟩ := List.mem_map.1 hx
    split_ifs
    · exact .inr rfl
    · exact .inl hy
  have hsent : ∀ m ∈ (s.update uid result).toDb,
      m ∈ s.toDb ∨ m.sender = c.uid ∧ m.message ∈ result.2 := by
    intro m hm
    rcases List.mem_append.1 hm with hm | hm
    · exact .inl hm
    · obtain ⟨message, hmessage, rfl⟩ := List.mem_map.1 hm
      exact .inr ⟨hkey.symm, hmessage⟩
  refine ⟨fun x hx hrole => ?_, h.replies, fun m hm hlists => ?_, fun m hm uid aid hrestart => ?_,
    fun x hx hrole => ?_, h.grants, h.rows⟩
  · rcases hcases x hx with hx | rfl
    · exact h.roles x hx hrole
    · rw [hspec.uid]
      exact h.roles c hmem (hspec.admitted hrole)
  · rcases hsent m hm with hm | ⟨hsender, hmessage⟩
    · exact h.sent m hm hlists
    · rw [hsender]
      exact h.roles c hmem (hspec.lists _ hmessage hlists)
  · rcases hsent m hm with hm | ⟨hsender, hmessage⟩
    · exact h.own m hm uid aid hrestart
    · rw [hrestart] at hmessage
      rw [hsender, hspec.restarts uid aid hmessage]
  · rcases hcases x hx with hx | rfl
    · exact h.authorized x hx hrole
    · rw [hspec.uid, hspec.aid]
      exact h.authorized c hmem (hspec.authorized hrole)

/-- The requests and the sessions are covered by a log that has grown. -/
theorem Covered.append (h : s.Covered collate accounts) (new : Handled) :
    (∀ c ∈ s.sessions, Admitted c.roles → c.uid ∈ letIn collate (s.log ++ [new])) ∧
      (∀ m ∈ s.toDb, m.message.Lists → m.sender ∈ letIn collate (s.log ++ [new])) ∧
      ∀ c ∈ s.sessions, .authorized ∈ c.roles →
        ∃ h ∈ s.log ++ [new], h.LogsIn collate c.uid c.aid := by
  refine ⟨fun c hc hrole => letIn_append _ _ (h.roles c hc hrole),
    fun m hm hlists => letIn_append _ _ (h.sent m hm hlists), fun c hc hrole => ?_⟩
  obtain ⟨earlier, hmem, hlogs⟩ := h.authorized c hc hrole
  exact ⟨earlier, List.mem_append_left _ hmem, hlogs⟩

theorem Covered.database (h : s.Covered collate accounts) {sent : Sent} {rest : List Sent}
    (hdb : s.toDb = sent :: rest) (others : Answers) (memory : Memory) :
    ({ s with toDb := rest }.database collate others memory sent).Covered collate accounts := by
  have hfirst : sent ∈ s.toDb := hdb ▸ List.mem_cons_self
  have hrest : ∀ m ∈ rest, m ∈ s.toDb := fun m hm => hdb ▸ List.mem_cons_of_mem sent hm
  unfold Gate.database
  cases hrequest : sent.message.request memory with
  | none =>
      refine ⟨h.roles, fun uid hreply => ?_, fun m hm => h.sent m (hrest m hm),
        fun m hm => h.own m (hrest m hm), h.authorized, fun uid aid hreply => ?_, h.rows⟩
      · rcases List.mem_append.1 hreply with hold | hnew
        · exact h.replies uid hold
        · obtain ⟨aid, hrestart⟩ := (serve_of_none hrequest).1 hnew
          rw [h.own sent hfirst uid aid hrestart]
          exact h.sent sent hfirst (hrestart ▸ trivial)
      · rcases List.mem_append.1 hreply with hold | hnew
        · exact h.grants uid aid hold
        · exact ((serve_of_none hrequest).2 _ hnew).elim
  | some request =>
      obtain ⟨hroles, hsent, hauthorized⟩ := h.append ⟨sent.sender, request, s.accounts⟩
      refine ⟨hroles, fun uid hreply => ?_, fun m hm => hsent m (hrest m hm),
        fun m hm => h.own m (hrest m hm), hauthorized, fun uid aid hreply => ?_, ?_⟩
      · rcases List.mem_append.1 hreply with hold | hnew
        · exact letIn_append _ _ (h.replies uid hold)
        · obtain ⟨rfl, hlets⟩ := playerInfo_mem_serve hrequest hnew
          exact named_mem_letIn (hlets _ _ (h.sent sent hfirst))
      · rcases List.mem_append.1 hreply with hold | hnew
        · obtain ⟨earlier, hmem, hlogs⟩ := h.grants uid aid hold
          exact ⟨earlier, List.mem_append_left _ hmem, hlogs⟩
        · exact ⟨_, List.mem_append_right _ (List.mem_singleton.2 rfl),
            authorized_mem_serve sent.sender hrequest hnew⟩
      · -- each row is updated from what it was when the request found it
        rw [List.forall₂_map_right_iff]
        obtain ⟨hlength, hkept⟩ := List.forall₂_iff_zip.1 h.rows
        refine List.forall₂_iff_zip.2 ⟨hlength, fun hmem => ?_⟩
        exact (hkept hmem).update (List.of_mem_zip hmem).2 sent.sender request

/-- A reply brings its session in, or authorizes it, when it says so. -/
theorem roles_onReply (reply : D2S) :
    (Admitted (c.onReply reply).roles → Admitted c.roles ∨ reply = .playerInfo reply.uid) ∧
      (.authorized ∈ (c.onReply reply).roles → reply = .authorized reply.uid (c.onReply reply).aid ∨
        .authorized ∈ c.roles ∧ (c.onReply reply).aid = c.aid) := by
  cases reply <;> simp [Client.onReply, Connection.onReply, Connection.assign, Roles.assign, Admitted,
    D2S.uid]

theorem uid_onReply (reply : D2S) : (c.onReply reply).uid = c.uid := by
  cases reply <;> rfl

theorem Covered.deliver (h : s.Covered collate accounts) {reply : D2S} {rest : List D2S}
    (hgame : s.toGame = reply :: rest) :
    { s with
      sessions := updateKey (·.uid) reply.uid (·.onReply reply) s.sessions
      toGame := rest }.Covered collate accounts := by
  have hfirst : reply ∈ s.toGame := hgame ▸ List.mem_cons_self
  have hrest : ∀ r ∈ rest, r ∈ s.toGame := fun r hr => hgame ▸ List.mem_cons_of_mem reply hr
  have hcases : ∀ x ∈ updateKey (·.uid) reply.uid (·.onReply reply) s.sessions,
      x ∈ s.sessions ∨ ∃ c ∈ s.sessions, c.uid = reply.uid ∧ x = c.onReply reply := by
    intro x hx
    obtain ⟨c, hc, rfl⟩ := List.mem_map.1 hx
    by_cases hkey : c.uid = reply.uid
    · rw [if_pos hkey]
      exact .inr ⟨c, hc, hkey, rfl⟩
    · rw [if_neg hkey]
      exact .inl hc
  refine ⟨fun x hx hrole => ?_, fun uid hr => h.replies uid (hrest _ hr), h.sent, h.own,
    fun x hx hrole => ?_, fun uid aid hr => h.grants uid aid (hrest _ hr), h.rows⟩
  · rcases hcases x hx with hx | ⟨c, hc, hkey, rfl⟩
    · exact h.roles x hx hrole
    · rw [uid_onReply]
      rcases (roles_onReply reply).1 hrole with hrole | hlist
      · exact h.roles c hc hrole
      · rw [hkey]
        exact h.replies reply.uid (hlist ▸ hfirst)
  · rcases hcases x hx with hx | ⟨c, hc, hkey, rfl⟩
    · exact h.authorized x hx hrole
    · rw [uid_onReply]
      rcases (roles_onReply reply).2 hrole with hgrant | ⟨hrole, haid⟩
      · rw [hkey]
        exact h.grants _ _ (hgrant ▸ hfirst)
      · rw [haid]
        exact h.authorized c hc hrole

theorem Covered.step {o : Op} (h : s.Covered collate accounts) (hstep : s.step collate o = .ok s') :
    s'.Covered collate accounts := by
  cases o with
  | connect aid =>
      simp only [Gate.step] at hstep
      split_ifs at hstep
      rw [← Except.ok.inj hstep]
      exact h.connect aid
  | client uid message memory =>
      simp only [Gate.step] at hstep
      cases hc : findKey (·.uid) uid s.sessions with
      | none =>
          rw [hc] at hstep
          cases hstep
      | some c =>
          rw [hc] at hstep
          simp only at hstep
          split_ifs at hstep with hready
          rw [← Except.ok.inj hstep]
          exact h.update hc (Client.spec_execute memory hready.2)
  | disconnect uid =>
      simp only [Gate.step] at hstep
      cases hc : findKey (·.uid) uid s.sessions with
      | none =>
          rw [hc] at hstep
          cases hstep
      | some c =>
          rw [hc] at hstep
          simp only at hstep
          split_ifs at hstep
          rw [← Except.ok.inj hstep]
          exact h.update hc (Client.spec_onDisconnected c)
  | forget uid =>
      simp only [Gate.step] at hstep
      cases hc : findKey (·.uid) uid s.sessions with
      | none =>
          rw [hc] at hstep
          cases hstep
      | some c =>
          rw [hc] at hstep
          simp only at hstep
          split_ifs at hstep
          rw [← Except.ok.inj hstep]
          exact h.forget uid
  | database others memory =>
      simp only [Gate.step] at hstep
      cases hdb : s.toDb with
      | nil =>
          rw [hdb] at hstep
          cases hstep
      | cons sent rest =>
          rw [hdb] at hstep
          rw [← Except.ok.inj hstep]
          exact h.database hdb others memory
  | deliver =>
      simp only [Gate.step] at hstep
      cases hgame : s.toGame with
      | nil =>
          rw [hgame] at hstep
          cases hstep
      | cons reply rest =>
          rw [hgame] at hstep
          rw [← Except.ok.inj hstep]
          exact h.deliver hgame

/-- A session that has been let in is among those that the handled requests have let in: each of them is
    named by a request with a right password, or by a request of one that was let in before it. A session
    that is authorized for an account has logged in to it with its password. And the table changes in
    nothing but secondary passwords, each of which was set by a request that stated a password of the
    account. -/
theorem run_letIn {ops : List Op}
    (hrun : run (fun s => step s collate) (start accounts) ops = .ok s) :
    (∀ c ∈ s.sessions, Admitted c.roles →
        c.uid ∈ letIn collate s.log ∧ ∃ h ∈ s.log, h.Opens collate) ∧
      (∀ c ∈ s.sessions, .authorized ∈ c.roles → ∃ h ∈ s.log, h.LogsIn collate c.uid c.aid) ∧
      List.Forall₂ (AccountRow.Kept collate s.log) accounts s.accounts := by
  have hcovered : s.Covered collate accounts :=
    run_preserves (fun _ _ _ h hstep => h.step hstep) covered_start hrun
  refine ⟨fun c hc hrole => ?_, hcovered.authorized, hcovered.rows⟩
  have hin := hcovered.roles c hc hrole
  exact ⟨hin, opens_of_mem_letIn hin⟩

/-- Session 0 logs in and deletes a player in the name of session 1, which is let in by this. -/
def forgery : List Op :=
  [.connect 7, .connect 9,
    .client 0 (.request .login [97, 0, 98, 0, 99, 0]) fun _ => 0,
    .database ⟨false, false, 0, none, 1, false, 0, none⟩ fun _ => 0, .deliver, .deliver,
    .client 0 (.request .delPlayer [5, 0, 0, 0, 1, 0, 0, 0, 1, 0, 0, 0]) fun _ => 0,
    .database ⟨false, false, 0, none, 1, false, 0, none⟩ fun _ => 0, .deliver, .deliver]

set_option maxRecDepth 8000 in
theorem run_letIn_forgery :
    ∃ s, run (fun s => step s (· = ·))
        (start [⟨1, [97], [98], some [48, 48, 48, 48, 48, 48, 48, 48]⟩]) forgery = .ok s ∧
      (∃ c ∈ s.sessions, c.uid = 1 ∧ Admitted c.roles ∧ .authorized ∉ c.roles) ∧
      (1 : UInt32) ∈ letIn (· = ·) s.log ∧ ∃ h ∈ s.log, h.Opens (· = ·) := by
  obtain ⟨s, hrun, c, hc, huid, hadmitted, hunauthorized⟩ :
      ∃ s, run (fun s => step s (· = ·))
          (start [⟨1, [97], [98], some [48, 48, 48, 48, 48, 48, 48, 48]⟩]) forgery = .ok s ∧
        ∃ c ∈ s.sessions, c.uid = 1 ∧ Admitted c.roles ∧ .authorized ∉ c.roles :=
    ⟨_, rfl, by decide +kernel⟩
  have hin := (run_letIn hrun).1 c hc hadmitted
  rw [huid] at hin
  exact ⟨s, hrun, ⟨c, hc, huid, hadmitted, hunauthorized⟩, hin⟩

end Gate

end Bango.Session
