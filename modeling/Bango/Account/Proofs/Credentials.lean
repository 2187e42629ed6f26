import Mathlib.Tactic.Common
import Bango.Account.Proofs.Relay

set_option autoImplicit false

/-! # Whose credentials the DB server reads

A handler reads the session's own credentials exactly when its fields end where the client's payload
does. The client chooses the payload, so it can end its fields earlier, and the handler reads bytes
of the client's, or later, and the handler runs out of bytes. -/

namespace Bango.Account

open Bango.Lib Bango.Network Bango.Network.Pops

/-! ## Reading credentials -/

/-- The value of a `pop` of four bytes. -/
def word (u : List UInt8) : UInt32 :=
  UInt32.ofNat (ofLe (if u.length < 4 then List.replicate 4 0 else u.take 4))

/-- The credentials at the front of some bytes. -/
def readCredentials (u : List UInt8) : Credentials := ⟨(word u).toInt32, word (skip [4] u)⟩

theorem word_le (x : UInt32) (u : List UInt8) : word (le 4 x.toNat ++ u) = x := by
  have hx := x.toNat_lt
  unfold word
  rw [if_neg (by rw [List.length_append, length_le]; omega), List.take_left' (length_le 4 _), ofLe_le,
    Nat.mod_eq_of_lt (by omega), UInt32.ofNat_toNat]

theorem word_of_short {u : List UInt8} (h : u.length < 4) : word u = 0 := by
  unfold word
  rw [if_pos h]
  rfl

/-- A word that is read from bytes is made of these bytes. -/
theorem take_of_word {u : List UInt8} (h : 4 ≤ u.length) : u.take 4 = le 4 (word u).toNat := by
  have hlen : (u.take 4).length = 4 := by rw [List.length_take]; omega
  have hlt := ofLe_lt (u.take 4)
  rw [hlen] at hlt
  unfold word
  rw [if_neg (by omega), UInt32.toNat_ofNat', Nat.mod_eq_of_lt (by omega)]
  conv => lhs; rw [← le_ofLe (u.take 4), hlen]

theorem head_of_word {b : UInt8} {u : List UInt8} (h : 3 ≤ u.length) :
    b = UInt8.ofNat (word (b :: u)).toNat := by
  have htake := take_of_word (u := b :: u) (by rw [List.length_cons]; omega)
  rw [List.take_succ_cons, le] at htake
  exact (List.cons.inj htake).1

theorem readCredentials_bytes (c : Credentials) : readCredentials c.bytes = c := by
  have haid : word c.bytes = c.aid.toUInt32 := word_le _ _
  have hskip : skip [4] c.bytes = c.uidBytes := by
    rw [skip_of_le (by simp [Credentials.bytes])]
    exact List.drop_left' (length_le 4 _)
  have huid := word_le c.uid []
  rw [List.append_nil] at huid
  unfold readCredentials
  rw [hskip, haid, Int32.toInt32_toUInt32, Credentials.uidBytes, huid]

/-- What a handler reads at the end of its fields, and what is appended for it to read there. -/
structure Trailer where
  append : Credentials → List UInt8
  length : Nat
  /-- the session's own values are read -/
  Own : List UInt8 → Credentials → Prop
  length_append : ∀ c, (append c).length = length
  own_append : ∀ c, Own (append c) c
  /-- too few bytes: the session id is read as 0 -/
  not_own_of_short : ∀ u, u.length < length → ¬ Own u ⟨0, 1⟩
  /-- the values depend on the first byte -/
  exists_not_own_cons : ∀ b u, ∃ c, ¬ Own (b :: (u ++ append c)) c
  exists_not_own : ∀ u, ∃ c, ¬ Own u c
  zeros : 3 ≤ (append ⟨0, 1⟩).count 0

/-- The session id alone. -/
def uidTrailer : Trailer where
  append := Credentials.uidBytes
  length := 4
  Own u c := word u = c.uid
  length_append c := length_le 4 _
  own_append c := by
    have := word_le c.uid []
    rwa [List.append_nil] at this
  not_own_of_short u hu := by
    rw [word_of_short hu]
    decide
  exists_not_own_cons b u := by
    -- the first byte read is the low byte of the id, whatever the rest of the id is
    have hhead : ∀ c : Credentials, word (b :: (u ++ c.uidBytes)) = c.uid →
        b = UInt8.ofNat c.uid.toNat := by
      intro c hown
      have h := head_of_word (b := b) (u := u ++ c.uidBytes)
        (by simp only [Credentials.uidBytes, List.length_append, length_le]; omega)
      rwa [hown] at h
    by_cases hb : b = 0
    · exact ⟨⟨0, 1⟩, fun hown => absurd (hb ▸ hhead _ hown) (by decide)⟩
    · exact ⟨⟨0, 0⟩, fun hown => hb (hhead _ hown)⟩
  exists_not_own u := by
    by_cases h : word u = 0
    · exact ⟨⟨0, 1⟩, by rw [h]; decide⟩
    · exact ⟨⟨0, 0⟩, h⟩
  zeros := by decide

/-- Account and session id. -/
def credentialsTrailer : Trailer where
  append := Credentials.bytes
  length := 8
  Own u c := readCredentials u = c
  length_append c := by
    unfold Credentials.bytes Credentials.uidBytes
    rw [List.length_append, length_le, length_le]
  own_append := readCredentials_bytes
  not_own_of_short u hu := by
    have huid : (readCredentials u).uid = 0 := word_of_short (length_skip_lt (by decide) hu)
    intro hown
    rw [hown] at huid
    exact absurd huid (by decide)
  exists_not_own_cons b u := by
    have hhead : ∀ c : Credentials, readCredentials (b :: (u ++ c.bytes)) = c →
        b = UInt8.ofNat c.aid.toUInt32.toNat := by
      intro c hown
      have h := head_of_word (b := b) (u := u ++ c.bytes)
        (by simp only [Credentials.bytes, List.length_append, length_le]; omega)
      have haid : (word (b :: (u ++ c.bytes))).toInt32 = c.aid := congrArg Credentials.aid hown
      rwa [← haid, UInt32.toUInt32_toInt32]
    by_cases hb : b = 0
    · exact ⟨⟨1, 0⟩, fun hown => absurd (hb ▸ hhead _ hown) (by decide)⟩
    · exact ⟨⟨0, 0⟩, fun hown => hb (hhead _ hown)⟩
  exists_not_own u := by
    by_cases h : readCredentials u = ⟨0, 0⟩
    · exact ⟨⟨0, 1⟩, by rw [h]; decide⟩
    · exact ⟨⟨0, 0⟩, h⟩
  zeros := by decide

/-! ## Handlers that read a trailer -/

/-- What a handler has read when it returns. -/
def result (x : Pops (Option DbRequest)) (u : List UInt8) : Option DbRequest :=
  match x.runBytes u with
  | .error _ => none
  | .ok (request, _) => request

/-- The handler reads `k` strings, fields of the sizes `ns` and then the trailer. -/
def Reads (t : Trailer) (k : Nat) (ns : List Nat) (x : Pops (Option DbRequest)) : Prop :=
  ∀ u, match strings k u with
    | none => result x u = none
    | some r => ∃ request, result x u = some request ∧
        ∀ c, request.ReadsOwn c ↔ t.Own (skip ns r) c

namespace Reads

variable {α : Type} {t : Trailer} {k : Nat} {ns ms : List Nat}

theorem result_bind {x : Pops α} {f : α → Pops (Option DbRequest)} {u u' : List UInt8} {a : α}
    (h : x.runBytes u = .ok (a, u')) : result (x >>= f) u = result (f a) u' := by
  unfold result
  rw [runBytes_bind, h]

theorem fixed {x : Pops α} {f : α → Pops (Option DbRequest)} (hx : Fixed ms x)
    (hf : ∀ a, Reads t 0 ns (f a)) : Reads t 0 (ms ++ ns) (x >>= f) := by
  intro u
  obtain ⟨a, ha⟩ := hx.runBytes u
  obtain ⟨request, hrequest, hown⟩ := hf a (skip ms u)
  refine ⟨request, by rw [result_bind ha, hrequest], ?_⟩
  rwa [skip_append]

theorem str {f : List UInt8 → Pops (Option DbRequest)} (hf : ∀ v, Reads t k ns (f v)) :
    Reads t (k + 1) ns (Pops.str >>= f) := by
  intro u
  rw [strings]
  cases hsplit : splitStr u with
  | none =>
      unfold result
      rw [runBytes_bind]
      simp only [Pops.str, Pops.runBytes, hsplit]
  | some vr =>
      have hread : Pops.str.runBytes u = .ok (vr.1, vr.2) := by
        simp only [Pops.str, Pops.runBytes, hsplit]
      rw [result_bind hread]
      exact hf vr.1 vr.2

end Reads

/-- Where the trailer has been appended, a handler reads the session's own values for all sessions
    exactly when its fields end with the payload. -/
theorem Reads.own_iff_of_fits {t : Trailer} {k : Nat} {ns : List Nat} {x : Pops (Option DbRequest)}
    (h : Reads t k ns x) (hk : k ≤ 3) (hns : ∀ n ∈ ns, n ≤ t.length) (payload : List UInt8) :
    (∀ c request, result x (payload ++ t.append c) = some request → request.ReadsOwn c) ↔
      ∃ r, strings k payload = some r ∧ r.length = ns.sum := by
  constructor
  · intro hown
    cases hstrings : strings k payload with
    | none =>
        -- the strings end in the appended bytes, and too few of them are left for the session id
        obtain ⟨r, hr⟩ := exists_strings (k := k) (u := payload ++ t.append ⟨0, 1⟩)
          (by have := t.zeros; rw [List.count_append]; omega)
        have hread := h (payload ++ t.append ⟨0, 1⟩)
        rw [hr] at hread
        obtain ⟨request, hrequest, hiff⟩ := hread
        have hshort := length_lt_of_strings_append hstrings hr
        have hle := length_skip_le ns r
        rw [t.length_append] at hshort
        exact absurd ((hiff ⟨0, 1⟩).1 (hown ⟨0, 1⟩ request hrequest))
          (t.not_own_of_short _ (by omega))
    | some r =>
        refine ⟨r, rfl, ?_⟩
        have hread : ∀ c, ∃ request, result x (payload ++ t.append c) = some request ∧
            (request.ReadsOwn c ↔ t.Own (skip ns (r ++ t.append c)) c) := by
          intro c
          have hc := h (payload ++ t.append c)
          rw [strings_append hstrings] at hc
          obtain ⟨request, hrequest, hiff⟩ := hc
          exact ⟨request, hrequest, hiff c⟩
        rcases Nat.lt_trichotomy r.length ns.sum with hlt | heq | hgt
        · obtain ⟨request, hrequest, hiff⟩ := hread ⟨0, 1⟩
          refine absurd (hiff.1 (hown _ request hrequest)) (t.not_own_of_short _ ?_)
          refine length_skip_lt hns ?_
          rw [List.length_append, t.length_append]
          omega
        · exact heq
        · -- the handler stops before the end of the payload
          obtain ⟨b, u, hbu⟩ : ∃ b u, r.drop ns.sum = b :: u := by
            cases hdrop : r.drop ns.sum with
            | nil =>
                have := List.drop_eq_nil_iff.1 hdrop
                omega
            | cons b u => exact ⟨b, u, rfl⟩
          obtain ⟨c, hc⟩ := t.exists_not_own_cons b u
          obtain ⟨request, hrequest, hiff⟩ := hread c
          have hskip : skip ns (r ++ t.append c) = b :: (u ++ t.append c) := by
            rw [skip_of_le (by rw [List.length_append]; omega),
              List.drop_append_of_le_length (by omega), hbu, List.cons_append]
          rw [hskip] at hiff
          exact absurd (hiff.1 (hown c request hrequest)) hc
  · intro hends c request hrequest
    obtain ⟨r, hstrings, hlen⟩ := hends
    have hread := h (payload ++ t.append c)
    rw [strings_append hstrings] at hread
    obtain ⟨request', hrequest', hiff⟩ := hread
    obtain rfl := Option.some.inj (hrequest.symm.trans hrequest')
    rw [hiff, skip_of_le (by rw [List.length_append]; omega), List.drop_left' hlen]
    exact t.own_append c

/-- Where it has not, the values read are the client's, unless the strings do not end. -/
theorem Reads.own_iff_of_full {t : Trailer} {k : Nat} {ns : List Nat} {x : Pops (Option DbRequest)}
    (h : Reads t k ns x) (payload : List UInt8) :
    (∀ c request, result x payload = some request → request.ReadsOwn c) ↔
      strings k payload = none := by
  have hread := h payload
  constructor
  · intro hown
    cases hstrings : strings k payload with
    | none => rfl
    | some r =>
        rw [hstrings] at hread
        obtain ⟨request, hrequest, hiff⟩ := hread
        obtain ⟨c, hc⟩ := t.exists_not_own (skip ns r)
        exact absurd ((hiff c).1 (hown c request hrequest)) hc
  · intro hstrings c request hrequest
    rw [hstrings] at hread
    rw [hread] at hrequest
    cases hrequest

/-! ## The handlers -/

theorem runBytes_popU32 (u : List UInt8) : popU32.runBytes u = .ok (word u, skip [4] u) := by
  unfold popU32 word
  simp only [Pops.runBytes, skip]
  split <;> rfl

theorem runBytes_popI32 (u : List UInt8) :
    popI32.runBytes u = .ok ((word u).toInt32, skip [4] u) := by
  unfold popI32 word
  simp only [Pops.runBytes, skip]
  split <;> rfl

theorem runBytes_popCredentials (u : List UInt8) :
    popCredentials.runBytes u = .ok (readCredentials u, skip [4, 4] u) := by
  unfold popCredentials readCredentials
  rw [runBytes_bind, runBytes_popI32]
  simp only
  rw [runBytes_bind, runBytes_popU32]
  rfl

theorem reads_uid {mk : UInt32 → DbRequest} (hmk : ∀ id c, (mk id).ReadsOwn c ↔ id = c.uid) :
    Reads uidTrailer 0 [] (Pops.popU32 >>= fun id => pure (some (mk id))) := by
  intro u
  refine ⟨mk (word u), ?_, fun c => hmk _ c⟩
  rw [Reads.result_bind (runBytes_popU32 u)]
  rfl

theorem reads_credentials {mk : Credentials → DbRequest}
    (hmk : ∀ read c, (mk read).ReadsOwn c ↔ read = c) :
    Reads credentialsTrailer 0 [] (popCredentials >>= fun c => pure (some (mk c))) := by
  intro u
  refine ⟨mk (readCredentials u), ?_, fun c => hmk _ c⟩
  rw [Reads.result_bind (runBytes_popCredentials u)]
  rfl

theorem reads_dbLogin : Reads uidTrailer 3 [] dbLogin :=
  .str fun _ => .str fun _ => .str fun _ => reads_uid fun _ _ => Iff.rfl

theorem reads_secondaryCreate : Reads credentialsTrailer 2 [] secondaryCreate :=
  .str fun _ => .str fun _ => reads_credentials fun _ _ => Iff.rfl

theorem reads_secondaryChange : Reads credentialsTrailer 2 [] secondaryChange :=
  .str fun _ => .str fun _ => reads_credentials fun _ _ => Iff.rfl

theorem reads_deletePlayer : Reads credentialsTrailer 0 [4] deletePlayer :=
  .fixed fixed_popI32 fun _ => reads_credentials fun _ _ => Iff.rfl

theorem reads_restorePlayer : Reads credentialsTrailer 0 [4] restorePlayer :=
  .fixed fixed_popI32 fun _ => reads_credentials fun _ _ => Iff.rfl

theorem reads_loadPlayer : Reads credentialsTrailer 0 [4, 4, 4] loadPlayer :=
  .fixed fixed_popI32 fun _ => .fixed fixed_popI32 fun _ => .fixed fixed_popI32 fun _ =>
    reads_credentials fun _ _ => Iff.rfl

/-- The sizes of the fields of a new player behind its name. -/
def newPlayerSizes : List Nat := [1, 2, 2, 2, 2, 2, 1, 1]

theorem fixed_newPlayer (name : List UInt8) : Fixed newPlayerSizes (do
    let job ← popU8
    let str ← popU16
    let hth ← popU16
    let int_ ← popU16
    let wis ← popU16
    let dex ← popU16
    let face ← popU8
    let hair ← popU8
    return (⟨name, job, str, hth, int_, wis, dex, face, hair⟩ : NewPlayer)) :=
  fixed_popU8.cons fun _ => fixed_popU16.cons fun _ => fixed_popU16.cons fun _ =>
    fixed_popU16.cons fun _ => fixed_popU16.cons fun _ => fixed_popU16.cons fun _ =>
    fixed_popU8.cons fun _ => fixed_popU8.cons fun _ => .done _

theorem reads_dbNewPlayer : Reads credentialsTrailer 1 newPlayerSizes dbNewPlayer :=
  .str fun name => Reads.fixed (fixed_newPlayer name) fun _ => reads_credentials fun _ _ => Iff.rfl

end Bango.Account
