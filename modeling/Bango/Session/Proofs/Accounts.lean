import Bango.Session.Accounts

set_option autoImplicit false

/-! # One session for each account

An active account is a token: the DB server grants it with `D2S_AUTHORIZED`, the session that receives
it holds it, and `S2D_DISCONNECT` brings it back. No account ever has more than one token, so no two
connected sessions are authorized for it. A token is lost when its grant finds the session gone, and
then the account stays active for good. -/

namespace Bango.Session

open Bango.Lib

/-! ## Tokens -/

/-- The reply grants the account. -/
def D2S.Grants (aid : Int32) : D2S → Bool
  | .authorized _ a => a = aid
  | _ => false

/-- The reply grants an account to the session. -/
def D2S.Authorizes (uid : UInt32) : D2S → Bool
  | .authorized u _ => u = uid
  | _ => false

/-- The message asks for an account for the session. -/
def LoginS2D.Asks (uid : UInt32) : LoginS2D → Bool
  | .login _ _ _ u => u = uid
  | .disconnect _ => false

@[simp]
theorem D2S.grants_authorized (uid : UInt32) (a aid : Int32) :
    (D2S.authorized uid a).Grants aid = decide (a = aid) := rfl

@[simp]
theorem D2S.authorizes_authorized (u uid : UInt32) (aid : Int32) :
    (D2S.authorized u aid).Authorizes uid = decide (u = uid) := rfl

@[simp]
theorem LoginS2D.asks_login (l p m : List UInt8) (u uid : UInt32) :
    (LoginS2D.login l p m u).Asks uid = decide (u = uid) := rfl

@[simp]
theorem LoginS2D.asks_disconnect (aid : Int32) (uid : UInt32) :
    (LoginS2D.disconnect aid).Asks uid = false := rfl

namespace Servers

/-- The tokens of an account: its grants and releases in flight, and the sessions that hold it. -/
def tokens (s : Servers) (aid : Int32) : Nat :=
  s.toGame.countP (·.Grants aid) + s.sessions.countP (fun c => c.AuthorizedFor aid) +
    s.toDb.count (.disconnect aid)

/-- The requests of a session on their way to the DB server, and its grants on their way back. -/
def pending (s : Servers) (uid : UInt32) : Nat :=
  s.toDb.countP (·.Asks uid) + s.toGame.countP (·.Authorizes uid)

end Servers

/-- The logins a session can still have: one before it asks, one while it waits, one afterwards. -/
def Connection.logins (c : Connection) : Nat :=
  (if .canRequestPrimary ∈ c.roles then 1 else 0) + if .authorized ∈ c.roles then 1 else 0

namespace Servers

/-- The invariant: sessions have ids of their own, each session logs in once, and no account has more
    tokens than the DB server has handed out. -/
structure Inv (s : Servers) : Prop where
  keyed : Keyed (·.uid) s.sessions
  old : ∀ c ∈ s.sessions, c.uid.toNat < s.maxUid
  fresh : ∀ uid : UInt32, s.maxUid ≤ uid.toNat → s.pending uid = 0
  once : ∀ c ∈ s.sessions, s.pending c.uid + c.logins ≤ 1
  nodup : s.activeUsers.Nodup
  tokens_le : ∀ aid, s.tokens aid ≤ s.activeUsers.count aid

theorem inv_start : start.Inv where
  keyed := keyed_nil
  old _ hc := absurd hc List.not_mem_nil
  fresh _ _ := rfl
  once _ hc := absurd hc List.not_mem_nil
  nodup := List.nodup_nil
  tokens_le _ := Nat.le_refl 0

variable {s s' : Servers} {c : Connection} {uid : UInt32} {aid : Int32}

/-- Tokens are made and taken back together with the entry of the account. -/
def Balanced (s s' : Servers) : Prop :=
  ∀ aid, s'.tokens aid + s.activeUsers.count aid = s.tokens aid + s'.activeUsers.count aid

/-! ## The session a step is about -/

/-- The sessions that hold the account, when one session is changed. -/
theorem countP_update (h : Keyed (·.uid) s.sessions)
    (hc : findKey (·.uid) uid s.sessions = some c) (f : Connection → Connection) (aid : Int32) :
    (updateKey (·.uid) uid f s.sessions).countP (fun c => c.AuthorizedFor aid) +
        (if c.AuthorizedFor aid then 1 else 0) =
      s.sessions.countP (fun c => c.AuthorizedFor aid) +
        if (f c).AuthorizedFor aid then 1 else 0 := by
  have hperm := List.perm_cons_erase (mem_of_findKey hc)
  have hupdate := h.updateKey_perm hperm f
  rw [key_of_findKey hc] at hupdate
  rw [hupdate.countP_eq, hperm.countP_eq, List.countP_cons, List.countP_cons]
  simp only [decide_eq_true_eq]
  omega

/-- One session is changed, and the messages in flight with it. -/
theorem Inv.update (h : s.Inv) (hc : findKey (·.uid) uid s.sessions = some c)
    {f : Connection → Connection} (hf : ∀ x, (f x).uid = x.uid)
    (hs' : s' = { s with
      sessions := updateKey (·.uid) uid f s.sessions, toDb := s'.toDb, toGame := s'.toGame })
    (hpending : ∀ u, u ≠ uid → s'.pending u ≤ s.pending u)
    (honce : s'.pending uid + (f c).logins ≤ 1)
    (htokens : ∀ aid, s'.tokens aid ≤ s.tokens aid) : s'.Inv := by
  have hmem := mem_of_findKey hc
  have hkey := key_of_findKey hc
  have hsessions : s'.sessions = updateKey (·.uid) uid f s.sessions := by rw [hs']
  have hmax : s'.maxUid = s.maxUid := by rw [hs']
  have hactive : s'.activeUsers = s.activeUsers := by rw [hs']
  have hcases : ∀ x ∈ s'.sessions, x = f c ∨ (x ∈ s.sessions ∧ x.uid ≠ uid) := by
    intro x hx
    rw [hsessions] at hx
    obtain ⟨y, hy, rfl⟩ := List.mem_map.1 hx
    by_cases hyu : y.uid = uid
    · have hyc : y = c := List.inj_on_of_nodup_map h.keyed hy hmem (hyu.trans hkey.symm)
      rw [if_pos hyu, hyc]
      exact .inl rfl
    · rw [if_neg hyu]
      exact .inr ⟨hy, hyu⟩
  constructor
  · rw [hsessions]
    exact h.keyed.updateKey hf
  · intro x hx
    rw [hmax]
    rcases hcases x hx with rfl | ⟨hx, -⟩
    · rw [hf]
      exact h.old c hmem
    · exact h.old x hx
  · intro u hu
    rw [hmax] at hu
    -- The session is an old one, so that its id is not among the ids to come.
    have hne : u ≠ uid := by
      rintro rfl
      have hlt := h.old c hmem
      rw [hkey] at hlt
      omega
    have hle := hpending u hne
    rw [h.fresh u hu] at hle
    omega
  · intro x hx
    rcases hcases x hx with rfl | ⟨hx, hne⟩
    · rw [hf, hkey]
      exact honce
    · exact (Nat.add_le_add_right (hpending x.uid hne) _).trans (h.once x hx)
  · rw [hactive]
    exact h.nodup
  · rw [hactive]
    exact fun aid => (htokens aid).trans (h.tokens_le aid)

/-- No token is made or lost while no account becomes active or inactive. -/
theorem balanced_of_tokens (htokens : ∀ aid, s'.tokens aid = s.tokens aid)
    (hactive : s'.activeUsers = s.activeUsers) : Balanced s s' := by
  intro aid
  rw [htokens, hactive]

/-! ## Steps of the clients -/

theorem Inv.connect (h : s.Inv) (hmax : s.maxUid < 2 ^ 32) (aid : Int32) :
    (s.connect aid).Inv ∧ Balanced s (s.connect aid) := by
  have huid : (UInt32.ofNat s.maxUid).toNat = s.maxUid := UInt32.toNat_ofNat_of_lt' hmax
  have htokens : ∀ a, (s.connect aid).tokens a = s.tokens a := by
    intro a
    simp [Servers.connect, tokens, Connection.AuthorizedFor]
  have hpending : ∀ u, (s.connect aid).pending u = s.pending u := fun u => rfl
  refine ⟨⟨?_, ?_, ?_, ?_, h.nodup, ?_⟩, balanced_of_tokens htokens rfl⟩
  · refine (Keyed.perm (List.perm_append_singleton _ _)).2 (keyed_cons.2 ⟨?_, h.keyed⟩)
    intro x hx heq
    have hlt := h.old x hx
    rw [heq, huid] at hlt
    omega
  · intro x hx
    rcases List.mem_append.1 hx with hx | hx
    · exact (h.old x hx).trans (Nat.lt_succ_self _)
    · rw [List.mem_singleton.1 hx]
      show (UInt32.ofNat s.maxUid).toNat < s.maxUid + 1
      omega
  · intro u hu
    have hle : s.maxUid + 1 ≤ u.toNat := hu
    rw [hpending]
    exact h.fresh u (by omega)
  · intro x hx
    rw [hpending]
    rcases List.mem_append.1 hx with hx | hx
    · exact h.once x hx
    · rw [List.mem_singleton.1 hx, h.fresh _ huid.ge]
      simp [Connection.logins]
  · intro a
    rw [htokens]
    exact h.tokens_le a

theorem Inv.onLogin (h : s.Inv) (hc : findKey (·.uid) uid s.sessions = some c)
    (login passwd mac : List UInt8) :
    (s.onLogin c login passwd mac).Inv ∧ Balanced s (s.onLogin c login passwd mac) := by
  unfold Servers.onLogin
  by_cases hrole : .canRequestPrimary ∈ c.roles
  · rw [if_pos hrole]
    obtain rfl := key_of_findKey hc
    have honce := h.once c (mem_of_findKey hc)
    have hheld : ∀ aid, (c.deny .canRequestPrimary).AuthorizedFor aid ↔ c.AuthorizedFor aid :=
      fun aid => by simp [Connection.AuthorizedFor, Connection.deny, Roles.deny]
    have hlogins : (c.deny .canRequestPrimary).logins + 1 = c.logins := by
      simp [Connection.logins, Connection.deny, Roles.deny, hrole, Nat.add_comm]
    have htokens : ∀ aid, tokens { s with
        sessions := updateKey (·.uid) c.uid (·.deny .canRequestPrimary) s.sessions
        toDb := s.toDb ++ [.login login passwd mac c.uid] } aid = s.tokens aid := by
      intro aid
      have hcount := countP_update h.keyed hc (·.deny .canRequestPrimary) aid
      simp only [hheld] at hcount
      simp only [tokens, List.count_append, List.count_singleton, reduceCtorEq, beq_iff_eq,
        if_false]
      omega
    refine ⟨h.update hc (f := (·.deny .canRequestPrimary)) (fun _ => rfl) rfl (fun u hu => ?_) ?_
      fun aid => (htokens aid).le, balanced_of_tokens htokens rfl⟩
    · simp [pending, LoginS2D.Asks, hu.symm]
    · simp only [pending, List.countP_append, List.countP_singleton, LoginS2D.Asks, decide_true,
        if_true] at honce ⊢
      omega
  · rw [if_neg hrole]
    exact ⟨h, fun _ => rfl⟩

theorem Inv.onDisconnected (h : s.Inv) (hc : findKey (·.uid) uid s.sessions = some c)
    (hconnected : c.leaving = false) :
    (s.onDisconnected c).Inv ∧ Balanced s (s.onDisconnected c) := by
  obtain rfl := key_of_findKey hc
  have honce := h.once c (mem_of_findKey hc)
  have htokens : ∀ aid, (s.onDisconnected c).tokens aid = s.tokens aid := by
    intro aid
    have hcount := countP_update h.keyed hc (fun c => { c with leaving := true }) aid
    have hgone : ¬ ({ c with leaving := true } : Connection).AuthorizedFor aid := by
      simp [Connection.AuthorizedFor]
    rw [if_neg hgone] at hcount
    simp only [tokens, Servers.onDisconnected]
    by_cases hrole : .authorized ∈ c.roles
    · have hheld : c.AuthorizedFor aid ↔ c.aid = aid := by
        simp [Connection.AuthorizedFor, hconnected, hrole]
      rw [if_pos hrole, List.count_append, List.count_singleton]
      simp only [hheld] at hcount
      simp only [LoginS2D.disconnect.injEq, beq_iff_eq]
      omega
    · have hheld : ¬ c.AuthorizedFor aid := fun h => hrole h.2.1
      rw [if_neg hheld] at hcount
      rw [if_neg hrole]
      omega
  have hpending : ∀ u, (s.onDisconnected c).pending u = s.pending u := by
    intro u
    unfold pending Servers.onDisconnected
    split_ifs <;> simp [LoginS2D.Asks]
  refine ⟨h.update hc (f := fun c => { c with leaving := true }) (fun _ => rfl) rfl
    (fun u _ => (hpending u).le) ?_ fun aid => (htokens aid).le, balanced_of_tokens htokens rfl⟩
  rw [hpending]
  exact honce

theorem Inv.forget (h : s.Inv) (hc : findKey (·.uid) uid s.sessions = some c)
    (hleaving : c.leaving = true) :
    Inv { s with sessions := eraseKey (·.uid) uid s.sessions } ∧
      Balanced s { s with sessions := eraseKey (·.uid) uid s.sessions } := by
  obtain rfl := key_of_findKey hc
  have hperm := List.perm_cons_erase (mem_of_findKey hc)
  have herase := h.keyed.eraseKey_perm hperm
  have htokens : ∀ aid,
      tokens { s with sessions := eraseKey (·.uid) c.uid s.sessions } aid = s.tokens aid := by
    intro aid
    have hgone : ¬ c.AuthorizedFor aid := by simp [Connection.AuthorizedFor, hleaving]
    simp only [tokens, herase.countP_eq, hperm.countP_eq, List.countP_cons, hgone, decide_false,
      Bool.false_eq_true, if_false, Nat.add_zero]
  refine ⟨⟨h.keyed.eraseKey c.uid, fun x hx => h.old x (mem_eraseKey.1 hx).1, h.fresh,
    fun x hx => h.once x (mem_eraseKey.1 hx).1, h.nodup, fun aid => ?_⟩, balanced_of_tokens htokens rfl⟩
  rw [htokens]
  exact h.tokens_le aid

/-! ## Steps of the servers -/

/-- A step of the DB server. -/
theorem Inv.served (h : s.Inv) (hsessions : s'.sessions = s.sessions) (hmax : s'.maxUid = s.maxUid)
    (hpending : ∀ u, s'.pending u ≤ s.pending u) (hnodup : s'.activeUsers.Nodup)
    (hbalanced : Balanced s s') : s'.Inv where
  keyed := hsessions ▸ h.keyed
  old := by
    rw [hsessions, hmax]
    exact h.old
  fresh u hu := Nat.eq_zero_of_le_zero (h.fresh u (hmax ▸ hu) ▸ hpending u)
  once c hc := (Nat.add_le_add_right (hpending c.uid) _).trans (h.once c (hsessions ▸ hc))
  nodup := hnodup
  tokens_le aid := by
    have hle := h.tokens_le aid
    have heq := hbalanced aid
    omega

/-- The replies that grant nothing. -/
def Grantless (replies : List D2S) : Prop :=
  ∀ r ∈ replies, (∀ aid, r.Grants aid = false) ∧ ∀ uid, r.Authorizes uid = false

theorem Grantless.counts {replies : List D2S} (h : Grantless replies) :
    (∀ aid, replies.countP (·.Grants aid) = 0) ∧ ∀ uid, replies.countP (·.Authorizes uid) = 0 := by
  constructor
  · intro aid
    exact List.countP_eq_zero.2 fun r hr => by simp [(h r hr).1]
  · intro uid
    exact List.countP_eq_zero.2 fun r hr => by simp [(h r hr).2]

/-- `Login` refuses, or grants an account that is not active. -/
theorem login_cases (activeUsers : List Int32) (answers : Answers) (uid : UInt32) :
    (Grantless (login activeUsers answers uid).1 ∧
        (login activeUsers answers uid).2 = activeUsers) ∨
      ∃ replies, Grantless replies ∧ answers.idaccount ∉ activeUsers ∧
        login activeUsers answers uid =
          (.authorized uid answers.idaccount :: replies, answers.idaccount :: activeUsers) := by
  unfold login
  by_cases hlogin : answers.correctLogin
  · by_cases hpassword : answers.correctPassword
    · by_cases hactive : answers.idaccount ∈ activeUsers
      · simp [hlogin, hpassword, hactive, Grantless, D2S.Grants, D2S.Authorizes]
      · simp only [hlogin, hpassword, hactive, not_true_eq_false, if_false]
        refine .inr ⟨_, ?_, not_false, rfl⟩
        split <;> simp [Grantless, sendPlayerList, D2S.Grants, D2S.Authorizes]
    · simp [hlogin, hpassword, Grantless, D2S.Grants, D2S.Authorizes]
  · simp [hlogin, Grantless, D2S.Grants, D2S.Authorizes]

theorem Inv.database (h : s.Inv) (answers : Answers) {message : LoginS2D} {rest : List LoginS2D}
    (hdb : s.toDb = message :: rest)
    (hs' : s' = { s with
      activeUsers := (serve s.activeUsers answers message).2
      toDb := rest
      toGame := s.toGame ++ (serve s.activeUsers answers message).1 }) :
    s'.Inv ∧ Balanced s s' := by
  subst hs'
  cases message with
  | disconnect aid =>
      have hbalanced : Balanced s { s with
          activeUsers := s.activeUsers.erase aid, toDb := rest, toGame := s.toGame ++ [] } := by
        intro a
        have hle := h.tokens_le a
        simp only [tokens, hdb, List.count_cons, List.append_nil, List.count_erase, beq_iff_eq,
          LoginS2D.disconnect.injEq] at hle ⊢
        split_ifs at hle ⊢ <;> omega
      refine ⟨h.served rfl rfl (fun u => ?_) (h.nodup.erase aid) hbalanced, hbalanced⟩
      simp [pending, serve, hdb, LoginS2D.Asks]
  | login l passwd mac uid =>
      simp only [serve]
      rcases login_cases s.activeUsers answers uid with ⟨hnone, hsame⟩ | ⟨replies, hnone, hnew, heq⟩
      · obtain ⟨hgrants, hauthorizes⟩ := hnone.counts
        rw [hsame]
        have hbalanced : Balanced s { s with
            toDb := rest, toGame := s.toGame ++ (login s.activeUsers answers uid).1 } := by
          refine balanced_of_tokens (fun a => ?_) rfl
          simp [tokens, hdb, hgrants]
        refine ⟨h.served rfl rfl (fun u => ?_) h.nodup hbalanced, hbalanced⟩
        simp only [pending, hdb, List.countP_append, hauthorizes, List.countP_cons]
        omega
      · obtain ⟨hgrants, hauthorizes⟩ := hnone.counts
        rw [heq]
        have hbalanced : Balanced s { s with
            activeUsers := answers.idaccount :: s.activeUsers
            toDb := rest
            toGame := s.toGame ++ .authorized uid answers.idaccount :: replies } := by
          intro a
          simp only [tokens, hdb, List.countP_append, List.countP_cons, hgrants, List.count_cons,
            D2S.grants_authorized, beq_iff_eq, decide_eq_true_eq, reduceCtorEq, if_false]
          omega
        refine ⟨h.served rfl rfl (fun u => ?_) (List.nodup_cons.2 ⟨hnew, h.nodup⟩) hbalanced,
          hbalanced⟩
        simp only [pending, hdb, List.countP_append, List.countP_cons, hauthorizes,
          LoginS2D.asks_login, D2S.authorizes_authorized, decide_eq_true_eq]
        omega

/-- A reply that grants nothing changes neither what a session holds nor whether it may log in. -/
theorem onReply_of_grantless {reply : D2S} (h : ∀ uid aid, reply ≠ .authorized uid aid)
    (c : Connection) :
    (∀ aid, (c.onReply reply).AuthorizedFor aid ↔ c.AuthorizedFor aid) ∧
      (c.onReply reply).logins = c.logins := by
  cases reply with
  | authorized uid aid => exact absurd rfl (h uid aid)
  | login | secLogin | playerInfo =>
      simp [Connection.onReply, Connection.AuthorizedFor, Connection.logins, Connection.assign,
        Roles.assign]
  | loadPlayer | delPlayerInfo | ansNewPlayer | loadItems | skillInfo =>
      exact ⟨fun _ => Iff.rfl, rfl⟩

theorem onReply_uid (reply : D2S) (c : Connection) : (c.onReply reply).uid = c.uid := by
  cases reply <;> rfl

/-- A reply to a session that is not in the list changes no session. -/
theorem updateKey_of_findKey_none {f : Connection → Connection}
    (h : findKey (·.uid) uid s.sessions = none) :
    updateKey (·.uid) uid f s.sessions = s.sessions :=
  updateKey_of_forall_ne fun c hc heq => List.find?_eq_none.1 h c hc (decide_eq_true heq)

/-- A reply to a session that is not in the list is lost. -/
theorem Inv.deliver_none (h : s.Inv) {reply : D2S} {rest : List D2S}
    (hgame : s.toGame = reply :: rest) : Inv { s with toGame := rest } := by
  have hpending : ∀ u, pending { s with toGame := rest } u ≤ s.pending u := by
    intro u
    simp only [pending, hgame, List.countP_cons]
    omega
  refine ⟨h.keyed, h.old, fun u hu => ?_, fun c hc => ?_, h.nodup, fun aid => ?_⟩
  · have hzero := h.fresh u hu
    have hle := hpending u
    omega
  · exact (Nat.add_le_add_right (hpending c.uid) _).trans (h.once c hc)
  · refine le_trans ?_ (h.tokens_le aid)
    simp only [tokens, hgame, List.countP_cons]
    omega

theorem counts_of_grantless {reply : D2S} (h : ∀ uid aid, reply ≠ .authorized uid aid) :
    (∀ aid, reply.Grants aid = false) ∧ ∀ uid, reply.Authorizes uid = false := by
  cases reply with
  | authorized uid aid => exact absurd rfl (h uid aid)
  | _ => exact ⟨fun _ => rfl, fun _ => rfl⟩

theorem Inv.deliver_grantless (h : s.Inv) {reply : D2S} {rest : List D2S}
    (hgame : s.toGame = reply :: rest) (hreply : ∀ uid aid, reply ≠ .authorized uid aid)
    (hs' : s' = { s with
      sessions := updateKey (·.uid) reply.uid (·.onReply reply) s.sessions, toGame := rest }) :
    s'.Inv ∧ Balanced s s' := by
  obtain ⟨hgrants, hauthorizes⟩ := counts_of_grantless hreply
  have hpending : ∀ u, s'.pending u = s.pending u := by
    intro u
    simp [hs', pending, hgame, hauthorizes]
  cases hc : findKey (·.uid) reply.uid s.sessions with
  | none =>
      rw [updateKey_of_findKey_none hc] at hs'
      subst hs'
      refine ⟨h.deliver_none hgame, balanced_of_tokens (fun aid => ?_) rfl⟩
      simp [tokens, hgame, hgrants]
  | some c =>
      obtain ⟨hheld, hlogins⟩ := onReply_of_grantless hreply c
      have htokens : ∀ aid, s'.tokens aid = s.tokens aid := by
        intro aid
        have hcount := countP_update h.keyed hc (·.onReply reply) aid
        simp only [hheld] at hcount
        simp only [hs', tokens, hgame, List.countP_cons, hgrants, Bool.false_eq_true, if_false]
        omega
      have hactive : s'.activeUsers = s.activeUsers := by rw [hs']
      refine ⟨h.update hc (onReply_uid reply) (by rw [hs']) (fun u _ => (hpending u).le) ?_
        fun aid => (htokens aid).le, balanced_of_tokens htokens hactive⟩
      rw [hpending, hlogins, ← key_of_findKey hc]
      exact h.once c (mem_of_findKey hc)

/-- A session that waits for its grant has logged in, and has not been authorized before. -/
theorem Inv.roles_of_pending (h : s.Inv) (hc : c ∈ s.sessions) (hpending : 1 ≤ s.pending c.uid) :
    .canRequestPrimary ∉ c.roles ∧ .authorized ∉ c.roles := by
  have honce := h.once c hc
  have hlogins : c.logins = 0 := by omega
  constructor
  · intro hprimary
    simp [Connection.logins, hprimary] at hlogins
  · intro hrole
    simp [Connection.logins, hrole] at hlogins

theorem authorizedFor_onReply (uid : UInt32) (aid a : Int32) :
    (c.onReply (.authorized uid aid)).AuthorizedFor a ↔ c.leaving = false ∧ aid = a := by
  simp [Connection.onReply, Connection.AuthorizedFor, Connection.assign, Roles.assign]

/-- A grant gives its token to the session, if it is connected, and otherwise loses it. -/
theorem Inv.deliver_authorized (h : s.Inv) {rest : List D2S}
    (hgame : s.toGame = .authorized uid aid :: rest)
    (hs' : s' = { s with
      sessions := updateKey (·.uid) uid (·.onReply (.authorized uid aid)) s.sessions
      toGame := rest }) :
    s'.Inv ∧ ((∃ c ∈ s.sessions, c.uid = uid ∧ c.leaving = false) → Balanced s s') ∧
      ((∀ c ∈ s.sessions, c.uid = uid → c.leaving = true) → s'.tokens aid + 1 = s.tokens aid) := by
  cases hc : findKey (·.uid) uid s.sessions with
  | none =>
      have hgone : ∀ c ∈ s.sessions, c.uid ≠ uid := fun c hmem heq =>
        List.find?_eq_none.1 hc c hmem (decide_eq_true heq)
      rw [updateKey_of_findKey_none hc] at hs'
      subst hs'
      refine ⟨h.deliver_none hgame, fun ⟨c, hmem, huid, _⟩ => absurd huid (hgone c hmem), fun _ => ?_⟩
      simp only [tokens, hgame, List.countP_cons, D2S.grants_authorized, decide_true, if_true]
      omega
  | some c =>
      obtain rfl := key_of_findKey hc
      have hmem := mem_of_findKey hc
      have honce := h.once c hmem
      have hpending : ∀ u, s'.pending u + (if c.uid = u then 1 else 0) = s.pending u := by
        intro u
        simp only [hs', pending, hgame, List.countP_cons, D2S.authorizes_authorized,
          decide_eq_true_eq]
        omega
      have hself := hpending c.uid
      rw [if_pos rfl] at hself
      obtain ⟨hprimary, hrole⟩ := h.roles_of_pending hmem (by omega)
      have hheld : ∀ a, ¬ c.AuthorizedFor a := fun a ha => hrole ha.2.1
      have htokens : ∀ a, s'.tokens a + (if aid = a then 1 else 0) = s.tokens a +
          if (c.onReply (.authorized c.uid aid)).AuthorizedFor a then 1 else 0 := by
        intro a
        have hcount := countP_update h.keyed hc (·.onReply (.authorized c.uid aid)) a
        rw [if_neg (hheld a)] at hcount
        simp only [hs', tokens, hgame, List.countP_cons, D2S.grants_authorized, decide_eq_true_eq]
        omega
      have hactive : s'.activeUsers = s.activeUsers := by rw [hs']
      refine ⟨h.update hc (onReply_uid _) (by rw [hs']) (fun u _ => ?_) ?_ fun a => ?_, ?_, ?_⟩
      · have hle := hpending u
        omega
      · have hlogins' : (c.onReply (.authorized c.uid aid)).logins = 1 := by
          simp [Connection.onReply, Connection.logins, Connection.assign, Roles.assign, hprimary]
        rw [hlogins']
        omega
      · have ha := htokens a
        simp only [authorizedFor_onReply] at ha
        by_cases haid : aid = a
        · simp only [haid, if_true] at ha
          split_ifs at ha <;> omega
        · simp only [haid, and_false, if_false] at ha
          omega
      · intro hconnected
        obtain ⟨d, hd, huid, hd'⟩ := hconnected
        have hdc : d = c := List.inj_on_of_nodup_map h.keyed hd hmem huid
        rw [hdc] at hd'
        refine balanced_of_tokens (fun a => ?_) hactive
        have ha := htokens a
        simp only [authorizedFor_onReply, hd', true_and] at ha
        omega
      · intro hleaving
        have hc' := hleaving c hmem rfl
        have ha := htokens aid
        simp only [authorizedFor_onReply, hc', Bool.true_eq_false, false_and, if_true, if_false] at ha
        omega

/-! ## Every step -/

/-- Each step keeps the invariant, and makes and takes back tokens together with the entries of the
    active accounts, unless a grant is lost. -/
theorem Inv.step {o : Op} (h : s.Inv) (hok : s.step o = .ok s') :
    s'.Inv ∧ (s.Delivered o → Balanced s s') := by
  cases o with
  | connect aid =>
      simp only [Servers.step] at hok
      split_ifs at hok with hmax
      obtain rfl := Except.ok.inj hok
      obtain ⟨hinv, hbalanced⟩ := h.connect hmax aid
      exact ⟨hinv, fun _ => hbalanced⟩
  | login uid login passwd mac =>
      simp only [Servers.step] at hok
      cases hc : findKey (·.uid) uid s.sessions with
      | none => simp only [hc] at hok; cases hok
      | some c =>
          simp only [hc] at hok
          split_ifs at hok with hleaving
          obtain rfl := Except.ok.inj hok
          obtain ⟨hinv, hbalanced⟩ := h.onLogin hc login passwd mac
          exact ⟨hinv, fun _ => hbalanced⟩
  | disconnect uid =>
      simp only [Servers.step] at hok
      cases hc : findKey (·.uid) uid s.sessions with
      | none => simp only [hc] at hok; cases hok
      | some c =>
          simp only [hc] at hok
          split_ifs at hok with hleaving
          obtain rfl := Except.ok.inj hok
          obtain ⟨hinv, hbalanced⟩ := h.onDisconnected hc (Bool.eq_false_of_not_eq_true hleaving)
          exact ⟨hinv, fun _ => hbalanced⟩
  | forget uid =>
      simp only [Servers.step] at hok
      cases hc : findKey (·.uid) uid s.sessions with
      | none => simp only [hc] at hok; cases hok
      | some c =>
          simp only [hc] at hok
          split_ifs at hok with hleaving
          obtain rfl := Except.ok.inj hok
          obtain ⟨hinv, hbalanced⟩ := h.forget hc hleaving
          exact ⟨hinv, fun _ => hbalanced⟩
  | database answers =>
      simp only [Servers.step] at hok
      cases hdb : s.toDb with
      | nil => simp only [hdb] at hok; cases hok
      | cons message rest =>
          simp only [hdb] at hok
          obtain ⟨hinv, hbalanced⟩ := h.database answers hdb (Except.ok.inj hok).symm
          exact ⟨hinv, fun _ => hbalanced⟩
  | deliver =>
      simp only [Servers.step] at hok
      cases hgame : s.toGame with
      | nil => simp only [hgame] at hok; cases hok
      | cons reply rest =>
          simp only [hgame] at hok
          by_cases hreply : ∃ uid aid, reply = .authorized uid aid
          · obtain ⟨uid, aid, rfl⟩ := hreply
            obtain ⟨hinv, hbalanced, -⟩ := h.deliver_authorized hgame (Except.ok.inj hok).symm
            refine ⟨hinv, fun hdelivered => hbalanced ?_⟩
            simpa only [Delivered, hgame] using hdelivered
          · obtain ⟨hinv, hbalanced⟩ := h.deliver_grantless hgame
              (fun uid aid heq => hreply ⟨uid, aid, heq⟩) (Except.ok.inj hok).symm
            exact ⟨hinv, fun _ => hbalanced⟩

theorem inv_of_run {ops : List Op} (hrun : run Servers.step start ops = .ok s) : s.Inv := by
  have hall : ∀ (_ : Servers), ∀ _ ∈ ops, True := fun _ _ _ => trivial
  exact run_invariant (fun _ _ _ hinv _ hok => (hinv.step hok).1) inv_start
    (Admissible.of_forall hall start) hrun

/-! ## Mutual exclusion -/

/-- Two sessions that are authorized for one account would be two tokens of its one entry. -/
theorem Inv.authorized_eq (hinv : s.Inv) {c d : Connection} (hc : c ∈ s.sessions)
    (hd : d ∈ s.sessions) {aid : Int32} (hcaid : c.AuthorizedFor aid) (hdaid : d.AuthorizedFor aid) :
    c = d := by
  by_contra hne
  have hpair : (s.sessions.erase c).Perm (d :: (s.sessions.erase c).erase d) :=
    List.perm_cons_erase ((List.mem_erase_of_ne (Ne.symm hne)).2 hd)
  have htwo : 2 ≤ s.sessions.countP (fun c => c.AuthorizedFor aid) := by
    rw [(List.perm_cons_erase hc).countP_eq, List.countP_cons, hpair.countP_eq, List.countP_cons]
    simp only [hcaid, hdaid, decide_true, if_true]
    omega
  have hle := hinv.tokens_le aid
  have hone := List.nodup_iff_count_le_one.1 hinv.nodup aid
  simp only [tokens] at hle
  omega

/-- At no time are two connected sessions authorized for one account. -/
theorem authorized_unique {ops : List Op} (hrun : run Servers.step start ops = .ok s) :
    ∀ c ∈ s.sessions, ∀ d ∈ s.sessions, ∀ aid, c.AuthorizedFor aid → d.AuthorizedFor aid →
      c = d := by
  intro c hc d hd aid hcaid hdaid
  exact (inv_of_run hrun).authorized_eq hc hd hcaid hdaid

/-! ## Releases -/

/-- The invariant while no grant is lost: the tokens of an account are the entries of the account. -/
structure Exact (s : Servers) : Prop where
  inv : s.Inv
  tokens_eq : ∀ aid, s.tokens aid = s.activeUsers.count aid

theorem exact_start : start.Exact := ⟨inv_start, fun _ => rfl⟩

theorem Exact.step {o : Op} (h : s.Exact) (hdelivered : s.Delivered o) (hok : s.step o = .ok s') :
    s'.Exact := by
  obtain ⟨hinv, hbalanced⟩ := h.inv.step hok
  refine ⟨hinv, fun aid => ?_⟩
  have heq := hbalanced hdelivered aid
  have hold := h.tokens_eq aid
  omega

theorem tokens_eq_zero_iff :
    s.tokens aid = 0 ↔ (∀ c ∈ s.sessions, ¬ c.AuthorizedFor aid) ∧
      (∀ uid, .authorized uid aid ∉ s.toGame) ∧ .disconnect aid ∉ s.toDb := by
  unfold tokens
  rw [Nat.add_eq_zero_iff, Nat.add_eq_zero_iff, List.count_eq_zero, List.countP_eq_zero,
    List.countP_eq_zero]
  have hgrants : (∀ r ∈ s.toGame, ¬ r.Grants aid = true) ↔
      ∀ uid, .authorized uid aid ∉ s.toGame := by
    constructor
    · intro h uid hmem
      exact h _ hmem (decide_eq_true rfl)
    · intro h r hr hgrants
      cases r with
      | authorized uid a =>
          obtain rfl := of_decide_eq_true hgrants
          exact h uid hr
      | _ => cases hgrants
  simp only [hgrants, decide_eq_true_eq]
  tauto

theorem Exact.released (h : s.Exact) (aid : Int32) : s.Released aid := by
  intro hsessions hgrants hreleases
  have hzero : s.tokens aid = 0 := tokens_eq_zero_iff.2 ⟨hsessions, hgrants, hreleases⟩
  rw [h.tokens_eq] at hzero
  exact List.count_eq_zero.1 hzero

/-- An account whose grant is lost stays active without a session or a message. -/
theorem Exact.not_released (h : s.Exact) {o : Op} (hlost : ¬ s.Delivered o) :
    ∃ s', s.step o = .ok s' ∧ ¬ ∀ aid, s'.Released aid := by
  obtain ⟨uid, aid, rest, rfl, hgame⟩ : ∃ uid aid rest, o = .deliver ∧
      s.toGame = .authorized uid aid :: rest := by
    unfold Delivered at hlost
    split at hlost
    · split at hlost
      · next uid aid rest hgame => exact ⟨uid, aid, rest, rfl, hgame⟩
      · exact absurd trivial hlost
    · exact absurd trivial hlost
  simp only [Delivered, hgame, not_exists, not_and] at hlost
  have hstep : s.step .deliver = .ok { s with
      sessions := updateKey (·.uid) uid (·.onReply (.authorized uid aid)) s.sessions
      toGame := rest } := by
    simp only [Servers.step, hgame]
    rfl
  refine ⟨_, hstep, fun hreleased => ?_⟩
  obtain ⟨-, -, hdropped⟩ := h.inv.deliver_authorized hgame rfl
  have hgone := hdropped fun c hc huid => Bool.eq_true_of_not_eq_false (hlost c hc huid)
  -- the lost token was the only one, and the account is still active
  have hone := List.nodup_iff_count_le_one.1 h.inv.nodup aid
  rw [← h.tokens_eq aid, ← hgone] at hone
  obtain ⟨hsessions, hgrants, hreleases⟩ :=
    tokens_eq_zero_iff.1 (Nat.eq_zero_of_le_zero (Nat.le_of_succ_le_succ hone))
  have hinactive := List.count_eq_zero.2 (hreleased aid hsessions hgrants hreleases)
  have hactive : s.activeUsers.count aid = 0 := hinactive
  rw [← h.tokens_eq aid] at hactive
  omega

/-- No account is ever locked out exactly when each `D2S_AUTHORIZED` finds its session connected. -/
theorem released_iff_delivered {ops : List Op} :
    (∀ before after s, ops = before ++ after → run Servers.step start before = .ok s →
        ∀ aid, s.Released aid) ↔
      Admissible Servers.step Delivered start ops :=
  forall_state_iff_admissible (fun _ _ _ hs => hs.step) (fun _ hs => hs.released)
    (fun _ _ hs => hs.not_released) exact_start

/-- An account row with a secondary password. -/
def accountRow : Answers where
  correctLogin := true
  correctPassword := true
  idaccount := 7
  secondary := some [49]
  changed := 0
  duplicate := false
  count := 0
  row := none

/-- Two sessions log in to one account, and the second one gets it after the first is gone. -/
def takeTurns : List Op :=
  [.connect 0, .connect 0, .login 0 [97] [98] [], .login 1 [97] [98] [], .database accountRow,
    .database accountRow, .deliver, .deliver, .disconnect 0, .database accountRow, .forget 0,
    .connect 0, .login 2 [97] [98] [], .database accountRow, .deliver, .deliver, .deliver, .deliver]

theorem authorized_unique_takeTurns :
    (run Servers.step start takeTurns).toOption.isSome ∧
      ∀ s, run Servers.step start takeTurns = .ok s →
        ∀ c ∈ s.sessions, ∀ d ∈ s.sessions, ∀ aid, c.AuthorizedFor aid → d.AuthorizedFor aid →
          c = d :=
  ⟨by decide +kernel, fun _ => authorized_unique⟩

/-- A client that disconnects while its `D2S_AUTHORIZED` is in flight locks its account. -/
theorem not_released_disconnect :
    ∃ s, run Servers.step start [.connect 0, .login 0 [97] [98] [], .database accountRow,
        .disconnect 0, .forget 0, .deliver, .deliver, .deliver] = .ok s ∧
      s.sessions = [] ∧ s.toDb = [] ∧ s.toGame = [] ∧ ¬ s.Released 7 := by
  refine ⟨_, rfl, rfl, rfl, rfl, fun h => ?_⟩
  exact absurd (List.mem_cons_self) (h (fun _ hc => absurd hc List.not_mem_nil)
    (fun _ hmem => absurd hmem List.not_mem_nil) List.not_mem_nil)

end Servers

end Bango.Session
