import Bango.Account.Proofs.Credentials

set_option autoImplicit false

/-! # Which payloads are read with the session's credentials

For every message the condition on the payload under which the DB server reads the credentials of the
session that sent it, whatever that session is. -/

namespace Bango.Account

open Bango.Lib Bango.Network Bango.Network.Pops

/-- Is there room in the packet for what the handler appends? -/
def Fits (m : Request) (payload : List UInt8) : Prop :=
  payload.length + 3 + (if m = .login then 4 else 8) ≤ maxPacketLength

instance (m : Request) (payload : List UInt8) : Decidable (Fits m payload) :=
  inferInstanceAs (Decidable (_ ≤ _))

/-- `k` strings and fields of the sizes `ns` end with `u`. Without room for the credentials there must
    be no end of the strings either. -/
def Ends (fits : Prop) [Decidable fits] (k : Nat) (ns : List Nat) (u : List UInt8) : Prop :=
  if fits then ∃ r, strings k u = some r ∧ r.length = ns.sum else strings k u = none

/-- The password of a secondary login and four bytes end with `u`, unless the password is refused. A
    password that has no end in `u` must not become valid by the bytes that follow. -/
def LoginEnds (u : List UInt8) : Prop :=
  match splitStr u with
  | some (password, r) => Validate password → r.length = 4
  | none => u = [] ∨ 8 < u.length ∨ ∃ c ∈ u, ¬ (48 ≤ c ∧ c ≤ 57)

/-- The fields that the DB server reads end with the payload. -/
def Aligned (m : Request) (payload : List UInt8) : Prop :=
  match m with
  | .login => Ends (Fits m payload) 3 [] payload
  | .newPlayer => Forwards m payload → Ends (Fits m payload) 1 newPlayerSizes payload
  | .delPlayer | .restorePlayer => Ends (Fits m payload) 0 [4] payload
  | .loadPlayer => Ends (Fits m payload) 0 [4, 4, 4] payload
  | .secondLogin =>
    match payload with
    | [] => False
    | selector :: u =>
      if selector = 0 then LoginEnds u
      else if selector = 1 ∨ selector = 2 then Ends (Fits m payload) 2 [] u
      else True

/-- The DB server reads the credentials of whatever session sends the payload. -/
def ReadsOwnAlways (m : Request) (payload : List UInt8) : Prop :=
  ∀ c request, dbReads m (relayed m c payload) = some request → request.ReadsOwn c

/-! ## Handlers of one kind -/

/-- The bytes of a trailer, if there is room for them. -/
theorem Reads.own_iff {t : Trailer} {k : Nat} {ns : List Nat} {x : Pops (Option DbRequest)}
    (h : Reads t k ns x) (hk : k ≤ 3) (hns : ∀ n ∈ ns, n ≤ t.length) (fits : Prop)
    [Decidable fits] (u : List UInt8) :
    (∀ c request, result x (if fits then u ++ t.append c else u) = some request →
      request.ReadsOwn c) ↔ Ends fits k ns u := by
  unfold Ends
  by_cases hfits : fits
  · simp only [if_pos hfits]
    exact h.own_iff_of_fits hk hns u
  · simp only [if_neg hfits]
    exact h.own_iff_of_full u

theorem relayed_login (c : Credentials) (payload : List UInt8) :
    relayed .login c payload =
      if Fits .login payload then payload ++ uidTrailer.append c else payload := by
  have hlen : (appended .login c).length = 4 := uidTrailer.length_append c
  unfold relayed
  rw [hlen]
  rfl

theorem relayed_credentials {m : Request} (hm : m ≠ .login) (c : Credentials)
    (payload : List UInt8) :
    relayed m c payload =
      if Fits m payload then payload ++ credentialsTrailer.append c else payload := by
  have happ : appended m c = c.bytes := if_neg hm
  have hlen : c.bytes.length = 8 := credentialsTrailer.length_append c
  have hfits : Fits m payload ↔ payload.length + 3 + 8 ≤ maxPacketLength := by
    unfold Fits
    rw [if_neg hm]
  simp only [relayed, happ, hlen, hfits]
  rfl

theorem readsOwnAlways_iff {m : Request} {k : Nat} {ns : List Nat} (hm : m ≠ .login)
    (h : Reads credentialsTrailer k ns (dbHandler m.s2d)) (hk : k ≤ 3) (hns : ∀ n ∈ ns, n ≤ 8)
    (payload : List UInt8) :
    ReadsOwnAlways m payload ↔ Ends (Fits m payload) k ns payload := by
  unfold ReadsOwnAlways
  simp only [relayed_credentials hm]
  exact h.own_iff hk hns (Fits m payload) payload

/-! ## The secondary login -/

theorem result_secondary (selector : UInt8) (u : List UInt8) :
    result secondary (selector :: u) =
      if selector = 0 then result secondaryLogin u
      else if selector = 1 then result secondaryCreate u
      else if selector = 2 then result secondaryChange u
      else none := by
  have hselector : UInt8.ofNat (ofLe [selector]) = selector := by
    simp [ofLe]
  have hread : popU8.runBytes (selector :: u) = .ok (selector, u) := by
    simp [popU8, Pops.runBytes, hselector]
  unfold secondary
  rw [Reads.result_bind hread]
  split_ifs <;> rfl

/-- What a secondary login reads behind its password. -/
theorem reads_afterPassword (password : List UInt8) : Reads credentialsTrailer 0 [4] (do
    let _ ← popI32
    let credentials ← popCredentials
    return some (.secondaryLogin password credentials)) :=
  .fixed fixed_popI32 fun _ => reads_credentials fun _ _ => Iff.rfl

theorem result_secondaryLogin (u : List UInt8) :
    result secondaryLogin u =
      match splitStr u with
      | some (password, r) =>
        if Validate password then result (do
          let _ ← popI32
          let credentials ← popCredentials
          return some (.secondaryLogin password credentials)) r
        else none
      | none => none := by
  unfold secondaryLogin result
  rw [runBytes_bind]
  cases hsplit : splitStr u with
  | none => simp only [Pops.str, Pops.runBytes, hsplit]
  | some vr =>
      simp only [Pops.str, Pops.runBytes, hsplit]
      split_ifs <;> rfl

/-- Eight bytes are the bytes of some credentials. -/
theorem exists_bytes_eq {b : List UInt8} (h : b.length = 8) : ∃ c : Credentials, c.bytes = b := by
  refine ⟨⟨(word b).toInt32, word (b.drop 4)⟩, ?_⟩
  -- the account is in the first four bytes, the session id in the last four
  have hdrop : (b.drop 4).length = 4 := by
    rw [List.length_drop, h]
  have haid := take_of_word (u := b) (by omega)
  have huid := take_of_word (u := b.drop 4) (by omega)
  rw [List.take_of_length_le (by omega)] at huid
  unfold Credentials.bytes Credentials.uidBytes
  simp only [UInt32.toUInt32_toInt32]
  rw [← haid, ← huid, List.take_append_drop]

/-- Credentials that end a string `u` of one to eight digits so that it is a valid password. -/
theorem exists_completing {u : List UInt8} (hne : u ≠ []) (hlen : u.length ≤ 8) :
    ∃ (c : Credentials) (w r : List UInt8), c.bytes = w ++ 0 :: r ∧ w.length = 8 - u.length ∧
      (∀ d ∈ w, d = 48) ∧ c.uid ≠ 0 := by
  have hpos : 0 < u.length := List.length_pos_iff.2 hne
  obtain ⟨c, hc⟩ := exists_bytes_eq
    (b := List.replicate (8 - u.length) 48 ++ 0 :: List.replicate (u.length - 1) 1)
    (by simp only [List.length_append, List.length_replicate, List.length_cons]; omega)
  refine ⟨c, _, _, hc, List.length_replicate, fun d hd => List.eq_of_mem_replicate hd, ?_⟩
  intro huid
  -- a session id of 0 has four NULs, and there is one
  have hcount := congrArg (List.count 0) hc
  unfold Credentials.bytes Credentials.uidBytes at hcount
  rw [huid, List.count_append, List.count_append, List.count_cons_self,
    List.count_eq_zero.2 fun h => absurd (List.eq_of_mem_replicate h) (by decide),
    List.count_eq_zero.2 fun h => absurd (List.eq_of_mem_replicate h) (by decide)] at hcount
  have hzero : (le 4 (0 : UInt32).toNat).count 0 = 4 := by decide
  omega

theorem not_own_of_short {u : List UInt8} {c : Credentials} (h : u.length < 8) (hc : c.uid ≠ 0) :
    readCredentials u ≠ c := by
  intro hown
  have huid : (readCredentials u).uid = 0 := word_of_short (length_skip_lt (by decide) h)
  exact hc (hown ▸ huid)

/-- What a secondary login appends to. -/
theorem fits_of_length {payload : List UInt8} (h : payload.length ≤ 14) :
    Fits .secondLogin payload := by
  have : maxPacketLength = 32768 := rfl
  unfold Fits
  rw [if_neg (by decide)]
  omega

/-- A password that ends in the payload, and the fields behind it. -/
theorem secondaryLogin_own_iff_of_some (fits : Prop) [Decidable fits] {u password r : List UInt8}
    (hfits : u.length ≤ 13 → fits) (hsplit : splitStr u = some (password, r)) :
    (∀ c request, result secondaryLogin (if fits then u ++ c.bytes else u) = some request →
      request.ReadsOwn c) ↔ (Validate password → r.length = 4) := by
  -- the password ends before the credentials, which are left to the fields behind it
  have hread : ∀ c : Credentials, result secondaryLogin (if fits then u ++ c.bytes else u) =
      if Validate password then result (do
        let _ ← popI32
        let credentials ← popCredentials
        return some (.secondaryLogin password credentials))
          (if fits then r ++ credentialsTrailer.append c else r)
      else none := by
    intro c
    rw [result_secondaryLogin]
    by_cases h : fits
    · rw [if_pos h, if_pos h, splitStr_append hsplit]
      rfl
    · rw [if_neg h, if_neg h, hsplit]
  simp only [hread]
  by_cases hvalid : Validate password
  · simp only [if_pos hvalid]
    rw [(reads_afterPassword password).own_iff (by decide) (by decide) fits r]
    unfold Ends
    by_cases h : fits
    · rw [if_pos h]
      simp [strings, hvalid]
    · have hlen := congrArg List.length (splitStr_eq_some.1 hsplit).1
      rw [List.length_append, List.length_cons, hvalid.1] at hlen
      -- a packet without room is longer than a password, its NUL and four bytes
      have hlong : ¬ u.length ≤ 13 := fun hle => h (hfits hle)
      rw [if_neg h]
      simp only [strings, reduceCtorEq, false_iff, not_forall]
      exact ⟨hvalid, by omega⟩
  · simp [hvalid]

/-- Digits without an end: the password ends in the credentials of some session, and what is left
    of them is too short to hold its id. -/
theorem exists_not_own_of_digits {u : List UInt8} (hne : u ≠ []) (hlen : u.length ≤ 8)
    (hdigits : ∀ d ∈ u, 48 ≤ d ∧ d ≤ 57) :
    ∃ (c : Credentials) (request : DbRequest),
      result secondaryLogin (u ++ c.bytes) = some request ∧ ¬ request.ReadsOwn c := by
  obtain ⟨c, w, r, hc, hw, hdigit, huid⟩ := exists_completing hne hlen
  have hvalid : Validate (u ++ w) := by
    refine ⟨by rw [List.length_append]; omega, ?_⟩
    intro d hd
    rcases List.mem_append.1 hd with hd | hd
    · exact hdigits d hd
    · rw [hdigit d hd]
      decide
  have hzero : 0 ∉ u ++ w := fun h => absurd (hvalid.2 0 h).1 (by decide)
  have hsplit : splitStr (u ++ c.bytes) = some (u ++ w, r) :=
    splitStr_eq_some.2 ⟨by rw [hc, List.append_assoc], hzero⟩
  obtain ⟨request, hrequest, hiff⟩ := reads_afterPassword (u ++ w) r
  refine ⟨c, request, ?_, fun hown => ?_⟩
  · rw [result_secondaryLogin, hsplit]
    simp only [if_pos hvalid]
    exact hrequest
  · have hlenc : c.bytes.length = 8 := credentialsTrailer.length_append c
    have hr := congrArg List.length hc
    rw [List.length_append, List.length_cons] at hr
    have hskip := length_skip_le [4] r
    exact not_own_of_short (by omega) huid ((hiff c).1 hown)

/-- Any other password without an end is refused, whatever the credentials. -/
theorem secondaryLogin_refused {u : List UInt8} (hsplit : splitStr u = none)
    (h : u = [] ∨ 8 < u.length ∨ ∃ d ∈ u, ¬ (48 ≤ d ∧ d ≤ 57)) (c : Credentials) :
    result secondaryLogin (u ++ c.bytes) = none := by
  rw [result_secondaryLogin]
  cases hread : splitStr (u ++ c.bytes) with
  | none => rfl
  | some vr =>
      obtain ⟨v, r⟩ := vr
      obtain ⟨w, rfl, hw⟩ := splitStr_append_of_none hsplit hread
      have hlenc : c.bytes.length = 8 := credentialsTrailer.length_append c
      have hlen := congrArg List.length hw
      rw [List.length_append, List.length_cons] at hlen
      refine if_neg fun hvalid => ?_
      have hsum := hvalid.1
      rw [List.length_append] at hsum
      rcases h with rfl | hlong | ⟨d, hd, hdigit⟩
      · rw [List.length_nil] at hsum
        omega
      · omega
      · exact hdigit (hvalid.2 d (List.mem_append_left w hd))

theorem secondaryLogin_own_iff (fits : Prop) [Decidable fits] {u : List UInt8}
    (hfits : u.length ≤ 13 → fits) :
    (∀ c request, result secondaryLogin (if fits then u ++ c.bytes else u) = some request →
      request.ReadsOwn c) ↔ LoginEnds u := by
  unfold LoginEnds
  cases hsplit : splitStr u with
  | some vr => exact secondaryLogin_own_iff_of_some fits hfits hsplit
  | none =>
      simp only
      constructor
      · intro hown
        by_contra hcon
        push Not at hcon
        obtain ⟨hne, hlen, hdigits⟩ := hcon
        obtain ⟨c, request, hrequest, hnot⟩ :=
          exists_not_own_of_digits hne (by omega) hdigits
        refine hnot (hown c request ?_)
        rw [if_pos (hfits (by omega)), hrequest]
      · intro h c request hrequest
        by_cases hf : fits
        · rw [if_pos hf, secondaryLogin_refused hsplit h] at hrequest
          cases hrequest
        · rw [if_neg hf, result_secondaryLogin, hsplit] at hrequest
          cases hrequest

/-- Without a payload, the session's own credentials choose the handler. -/
theorem not_readsOwnAlways_nil : ¬ ReadsOwnAlways .secondLogin [] := by
  intro hown
  have hread : dbReads .secondLogin (relayed .secondLogin ⟨1, 1⟩ []) =
      some (.secondaryCreate [] [] ⟨256, 0⟩) := by decide +kernel
  exact absurd (hown _ _ hread) (by decide)

theorem readsOwnAlways_secondLogin_iff (payload : List UInt8) :
    ReadsOwnAlways .secondLogin payload ↔ Aligned .secondLogin payload := by
  cases payload with
  | nil => simp [Aligned, not_readsOwnAlways_nil]
  | cons selector u =>
      have hrelayed : ∀ c : Credentials, dbReads .secondLogin (relayed .secondLogin c (selector :: u)) =
          result secondary
            (selector :: if Fits .secondLogin (selector :: u) then u ++ c.bytes else u) := by
        intro c
        rw [relayed_credentials (by decide)]
        split_ifs <;> rfl
      have hfits : u.length ≤ 13 → Fits .secondLogin (selector :: u) := by
        intro h
        exact fits_of_length (by rw [List.length_cons]; omega)
      unfold ReadsOwnAlways
      simp only [hrelayed, result_secondary, Aligned]
      by_cases h0 : selector = 0
      · simp only [if_pos h0]
        exact secondaryLogin_own_iff _ hfits
      · by_cases h1 : selector = 1
        · simp only [if_neg h0, if_pos h1, if_pos (Or.inl h1)]
          exact reads_secondaryCreate.own_iff (by decide) (by decide) _ u
        · by_cases h2 : selector = 2
          · simp only [if_neg h0, if_neg h1, if_pos h2, if_pos (Or.inr h2)]
            exact reads_secondaryChange.own_iff (by decide) (by decide) _ u
          · simp [h0, h1, h2]

/-! ## All messages -/

theorem readsOwnAlways_login_iff (payload : List UInt8) :
    ReadsOwnAlways .login payload ↔ Aligned .login payload := by
  unfold ReadsOwnAlways
  simp only [relayed_login]
  exact reads_dbLogin.own_iff (by decide) (by decide) _ payload

theorem readsOwnAlways_iff_aligned {m : Request} {payload : List UInt8}
    (hforwards : Forwards m payload) : ReadsOwnAlways m payload ↔ Aligned m payload := by
  cases m with
  | login => exact readsOwnAlways_login_iff payload
  | secondLogin => exact readsOwnAlways_secondLogin_iff payload
  | newPlayer =>
      rw [readsOwnAlways_iff (by decide) reads_dbNewPlayer (by decide) (by decide) payload]
      exact ⟨fun h _ => h, fun h => h hforwards⟩
  | delPlayer => exact readsOwnAlways_iff (by decide) reads_deletePlayer (by decide) (by decide) payload
  | restorePlayer =>
      exact readsOwnAlways_iff (by decide) reads_restorePlayer (by decide) (by decide) payload
  | loadPlayer => exact readsOwnAlways_iff (by decide) reads_loadPlayer (by decide) (by decide) payload

/-- The DB server reads the session's own account and session id, whatever the session and the
    memory of the packets, exactly for the payloads whose fields end where they should. -/
theorem relay_own_iff (m : Request) {payload : List UInt8}
    (h : payload.length + 3 ≤ maxPacketLength) :
    (∀ c memory memory' request, relay m c memory memory' payload = some request →
      request.ReadsOwn c) ↔ Aligned m payload := by
  by_cases hforwards : Forwards m payload
  · rw [← readsOwnAlways_iff_aligned hforwards]
    constructor
    · intro hown c request hrequest
      -- what is read does not depend on the memory, so any will do
      refine hown c (fun _ => 0) (fun _ => 0) request ?_
      rw [relay_eq _ _ h hforwards, hrequest]
    · intro hown c memory memory' request hrequest
      rw [relay_eq memory memory' h hforwards] at hrequest
      exact hown c request hrequest
  · constructor
    · intro _
      cases m with
      | newPlayer => exact fun hf => absurd hf hforwards
      | _ => exact absurd (fun hm => nomatch hm) hforwards
    · intro _ c memory memory' request hrequest
      rw [relay_of_not_forwards memory memory' h hforwards] at hrequest
      cases hrequest

/-- Four bytes of a player's id, and nothing more. -/
theorem relay_own_delPlayer :
    [7, 0, 0, 0].length + 3 ≤ maxPacketLength ∧
      ∀ c memory memory' request, relay .delPlayer c memory memory' [7, 0, 0, 0] = some request →
        request.ReadsOwn c :=
  have hlen : ([7, 0, 0, 0] : List UInt8).length + 3 ≤ maxPacketLength := by decide
  ⟨hlen, (relay_own_iff .delPlayer hlen).2 ⟨_, rfl, rfl⟩⟩

/-- Behind the id, a client may put the account and session id of someone else: the session 5 of the
    account 1 has a player of the account 2 deleted. -/
theorem relay_forged :
    ¬ ∀ (m : Request) (c : Credentials) (memory memory' : Memory) (payload : List UInt8)
        (request : DbRequest), relay m c memory memory' payload = some request →
      request.ReadsOwn c := by
  intro hown
  have hread : relay .delPlayer ⟨1, 5⟩ (fun _ => 0) (fun _ => 0) [7, 0, 0, 0, 2, 0, 0, 0, 9, 0, 0, 0] =
      some (.deletePlayer 7 ⟨2, 9⟩) := by decide +kernel
  exact absurd (hown _ _ _ _ _ _ hread) (by decide)

end Bango.Account
