import Mathlib.Data.List.Range
import Bango.Network.Sessions
import Bango.Network.Proofs.Server

set_option autoImplicit false

/-! # Sessions of many clients

The list has each session from its connection on until it is taken off, so neither of the two errors that
`on_new_message` looks for can happen, and the number of sessions fits into the 16 bits in which it is
compared. What is run for a session depends on its own reads only. -/

namespace Bango.Network.Sessions

open Bango.Lib

variable {s s' : Sessions} {events seen : List Event} {id : ℕ}

/-! ## The reads of a session -/

theorem readsOf_append (more : List Event) :
    readsOf id (seen ++ more) = readsOf id seen ++ readsOf id more :=
  List.filterMap_append

theorem readsOf_read (id : ℕ) (r : Read) : readsOf id [.read id r] = [r] := by
  simp [readsOf]

theorem readsOf_of_ne {event : Event} (h : ∀ r, event ≠ .read id r) : readsOf id [event] = [] := by
  cases event with
  | read session r =>
      have hne : session ≠ id := fun heq => h r (by rw [heq])
      simp [readsOf, hne]
  | setMaxOnline _ | connect | fail _ | remove _ => rfl

/-! ## Between two events -/

/-- What has been run for a session: that it has been connected, a packet at a time of what it has sent,
    and that it has been disconnected, once it has. -/
structure Serves (seen : List Event) (s : Sessions) (id : ℕ) : Prop where
  serve : ∃ handed, serve [] (readsOf id seen) = ⟨handed, .ok (s.remaining id)⟩ ∧
    s.called id = .connected :: handed.map .executed ++
      (if s.stage id = .reading then [] else [.disconnected])
  stage : s.stage id ≠ .absent

/-- The sessions that have been made are on the list until they are taken off. -/
structure Kept (seen : List Event) (s : Sessions) : Prop where
  sessions : s.sessions = (List.range s.made).filter fun id => s.stage id ≠ .left
  limit : ∀ limit, new.maxOnline ≤ limit → (∀ m, .setMaxOnline m ∈ seen → m ≤ limit) →
    s.maxOnline ≤ limit ∧ s.sessions.length ≤ limit.toNat
  serves : ∀ id < s.made, Serves seen s id
  absent : ∀ id, s.made ≤ id →
    s.stage id = .absent ∧ s.remaining id = [] ∧ s.called id = [] ∧ readsOf id seen = []

theorem Kept.lt (h : Kept seen s) (hstage : s.stage id ≠ .absent) : id < s.made := by
  by_contra hle
  exact hstage (h.absent id (Nat.le_of_not_lt hle)).1

theorem Kept.mem_iff (h : Kept seen s) : id ∈ s.sessions ↔ id < s.made ∧ s.stage id ≠ .left := by
  rw [h.sessions, List.mem_filter, List.mem_range, decide_eq_true_iff]

theorem Kept.nodup (h : Kept seen s) : s.sessions.Nodup := by
  rw [h.sessions]
  exact List.nodup_range.filter _

theorem Kept.fits (h : Kept seen s) : s.sessions.length < 65536 := by
  have hle : ∀ m : UInt16, m ≤ 65535 := fun m => UInt16.le_iff_toNat_le.2 (Nat.le_of_lt_succ m.toNat_lt)
  exact Nat.lt_succ_of_le (h.limit 65535 (hle _) fun m _ => hle m).2

theorem Kept.getOnline (h : Kept seen s) : s.getOnline.toNat = s.sessions.length := by
  rw [Sessions.getOnline, UInt16.toNat_ofNat']
  exact Nat.mod_eq_of_lt h.fits

theorem new_kept : Kept [] new where
  sessions := rfl
  limit _ h _ := ⟨h, Nat.zero_le _⟩
  serves _ h := absurd h (Nat.not_lt_zero _)
  absent _ _ := ⟨rfl, rfl, rfl, rfl⟩

/-- A session that an event leaves alone. -/
theorem Serves.congr (h : Serves seen s id) {event : Event} (hevent : ∀ r, event ≠ .read id r)
    (hstage : s'.stage id = s.stage id) (hremaining : s'.remaining id = s.remaining id)
    (hcalled : s'.called id = s.called id) : Serves (seen ++ [event]) s' id := by
  refine ⟨?_, hstage ▸ h.stage⟩
  rw [readsOf_append, readsOf_of_ne hevent, List.append_nil, hremaining, hcalled, hstage]
  exact h.serve

theorem Kept.setMaxOnline (h : Kept seen s) (maxOnline : UInt16) :
    Kept (seen ++ [.setMaxOnline maxOnline]) { s with maxOnline } where
  sessions := h.sessions
  limit limit hnew hset := by
    have hseen := h.limit limit hnew fun m hm => hset m (List.mem_append_left _ hm)
    exact ⟨hset maxOnline (List.mem_append_right _ List.mem_cons_self), hseen.2⟩
  serves id hid := (h.serves id hid).congr (fun _ h => by cases h) rfl rfl rfl
  absent id hid := by
    obtain ⟨hstage, hremaining, hcalled, hreads⟩ := h.absent id hid
    rw [readsOf_append, hreads]
    exact ⟨hstage, hremaining, hcalled, rfl⟩

theorem Kept.connect (h : Kept seen s) : Kept (seen ++ [.connect]) s.connect := by
  have hreads : ∀ id, readsOf id (seen ++ [.connect]) = readsOf id seen := by
    intro id
    rw [readsOf_append, readsOf_of_ne (fun _ h => by cases h), List.append_nil]
  have hseen : ∀ limit : UInt16, (∀ m, .setMaxOnline m ∈ seen ++ [.connect] → m ≤ limit) →
      ∀ m, .setMaxOnline m ∈ seen → m ≤ limit :=
    fun _ hset m hm => hset m (List.mem_append_left _ hm)
  unfold Sessions.connect
  split
  next =>
    refine ⟨h.sessions, fun limit hnew hset => h.limit limit hnew (hseen limit hset),
      fun id hid => (h.serves id hid).congr (fun _ h => by cases h) rfl rfl rfl,
      fun id hid => ?_⟩
    rw [hreads]
    exact h.absent id hid
  next hroom =>
    obtain ⟨hstage, hremaining, hcalled, hnone⟩ := h.absent s.made (Nat.le_refl _)
    have hstages : ∀ id ≠ s.made, Function.update s.stage s.made .reading id = s.stage id :=
      fun id hne => Function.update_of_ne hne _ _
    refine ⟨?_, fun limit hnew hset => ?_, fun id hid => ?_, fun id hid => ?_⟩
    · show s.sessions ++ [s.made] = (List.range (s.made + 1)).filter fun id =>
        Function.update s.stage s.made .reading id ≠ .left
      rw [List.range_succ, List.filter_append, h.sessions]
      congr 1
      · refine List.filter_congr fun id hid => ?_
        rw [hstages id (Nat.ne_of_lt (List.mem_range.1 hid))]
      · simp
    · -- The number that was compared was the number of sessions.
      have hlt : s.sessions.length < s.maxOnline.toNat := by
        rw [← h.getOnline]
        exact UInt16.lt_iff_toNat_lt.1 (UInt16.not_le.1 hroom)
      have hmax := (h.limit limit hnew (hseen limit hset)).1
      refine ⟨hmax, ?_⟩
      show (s.sessions ++ [s.made]).length ≤ limit.toNat
      rw [List.length_append, List.length_singleton]
      exact Nat.le_trans hlt (UInt16.le_iff_toNat_le.1 hmax)
    · by_cases hid' : id = s.made
      · subst hid'
        refine ⟨⟨[], ?_, ?_⟩, ?_⟩
        · rw [hreads, hnone]
          exact congrArg (fun rest => Call.mk [] (.ok rest)) hremaining.symm
        · simp [call, hcalled]
        · simp [call]
      · have hlt : id < s.made := Nat.lt_of_le_of_ne (Nat.le_of_lt_succ hid) hid'
        exact (h.serves id hlt).congr (fun _ h => by cases h) (hstages id hid') rfl
          (Function.update_of_ne hid' _ _)
    · have hne : id ≠ s.made := Nat.ne_of_gt hid
      obtain ⟨hstage', hremaining', hcalled', hnone'⟩ := h.absent id (Nat.le_of_lt hid)
      rw [hreads]
      exact ⟨(hstages id hne).trans hstage', hremaining', (Function.update_of_ne hne _ _).trans hcalled',
        hnone'⟩

/-- An event is about one session, which keeps its place on the list. -/
theorem Kept.of_session (h : Kept seen s) {event : Event} (hid : s.stage id ≠ .absent)
    (hevent : ∀ other ≠ id, ∀ r, event ≠ .read other r) (hsessions : s'.sessions = s.sessions)
    (hmaxOnline : s'.maxOnline = s.maxOnline) (hmade : s'.made = s.made) (hstage : ∀ other ≠ id, s'.stage other = s.stage other)
    (hremaining : ∀ other ≠ id, s'.remaining other = s.remaining other)
    (hcalled : ∀ other ≠ id, s'.called other = s.called other)
    (hleft : s'.stage id = .left ↔ s.stage id = .left) (hserves : Serves (seen ++ [event]) s' id) :
    Kept (seen ++ [event]) s' := by
  have hlt := h.lt hid
  refine ⟨?_, fun limit hnew hset => ?_, fun other hother => ?_, fun other hother => ?_⟩
  · rw [hsessions, hmade, h.sessions]
    refine List.filter_congr fun other _ => ?_
    by_cases hne : other = id
    · rw [hne, decide_eq_decide, not_iff_not, hleft]
    · rw [hstage other hne]
  · rw [hsessions, hmaxOnline]
    exact h.limit limit hnew fun m hm => hset m (List.mem_append_left _ hm)
  · by_cases hne : other = id
    · rwa [hne]
    · exact (h.serves other (hmade ▸ hother)).congr (hevent other hne) (hstage other hne)
        (hremaining other hne) (hcalled other hne)
  · rw [hmade] at hother
    have hne : other ≠ id := (Nat.ne_of_lt (Nat.lt_of_lt_of_le hlt hother)).symm
    obtain ⟨hstage', hremaining', hcalled', hreads⟩ := h.absent other hother
    rw [readsOf_append, readsOf_of_ne (hevent other hne), hreads, hstage other hne, hremaining other hne,
      hcalled other hne]
    exact ⟨hstage', hremaining', hcalled', rfl⟩

theorem Kept.read (h : Kept seen s) {r : Read} (hguard : s.Guard (.read id r))
    (hstep : s.read id r = .ok s') : Kept (seen ++ [.read id r]) s' := by
  have hreading : s.stage id = .reading := hguard
  have hid : s.stage id ≠ .absent := by rw [hreading]; decide
  obtain ⟨handed, hserve, hcalled⟩ := (h.serves id (h.lt hid)).serve
  unfold Sessions.read at hstep
  dsimp only at hstep
  split at hstep
  · cases hstep
  next rest hrest =>
    rw [← Except.ok.inj hstep]
    refine h.of_session hid ?_ rfl rfl rfl (fun _ _ => rfl) (fun other hne => Function.update_of_ne hne _ _)
      (fun other hne => Function.update_of_ne hne _ _) Iff.rfl
      ⟨⟨handed ++ (onNewMessage (s.remaining id) r).handed, ?_, ?_⟩, hid⟩
    · rintro other hne _ ⟨⟩
      exact hne rfl
    · rw [readsOf_append, readsOf_read, serve_append hserve, hrest]
      have hrest : Function.update s.remaining id rest id = rest := Function.update_self _ _ _
      exact congrArg (fun rest => Call.mk _ (.ok rest)) hrest.symm
    · rw [hreading, if_pos rfl, List.append_nil] at hcalled
      simp only [call, Function.update_self, hcalled, hreading, if_true, List.append_nil,
        List.map_append, List.cons_append]

theorem Kept.fail (h : Kept seen s) (hguard : s.Guard (.fail id)) :
    Kept (seen ++ [.fail id]) (s.fail id) := by
  have hreading : s.stage id = .reading := hguard
  have hid : s.stage id ≠ .absent := by rw [hreading]; decide
  have hevent : ∀ other r, Event.fail id ≠ .read other r := fun _ _ h => by cases h
  obtain ⟨handed, hserve, hcalled⟩ := (h.serves id (h.lt hid)).serve
  have hstage : (s.fail id).stage id = .leaving := Function.update_self _ _ _
  refine h.of_session hid (fun other _ => hevent other) rfl rfl rfl
    (fun other hne => Function.update_of_ne hne _ _) (fun _ _ => rfl)
    (fun other hne => Function.update_of_ne hne _ _) ?_ ⟨⟨handed, ?_, ?_⟩, ?_⟩
  · rw [hstage, hreading]
    decide
  · rw [readsOf_append, readsOf_of_ne (hevent id), List.append_nil]
    exact hserve
  · rw [hreading, if_pos rfl, List.append_nil] at hcalled
    rw [hstage, if_neg (by decide), ← hcalled]
    exact Function.update_self _ _ _
  · rw [hstage]
    decide

/-- A session that is to be taken off the list is on it, once. -/
theorem Kept.remove (h : Kept seen s) (hguard : s.Guard (.remove id)) :
    ∃ s', s.remove id = .ok s' ∧ Kept (seen ++ [.remove id]) s' := by
  have hleaving : s.stage id = .leaving := hguard
  have hid : s.stage id ≠ .absent := by rw [hleaving]; decide
  have hlt := h.lt hid
  have hmem : id ∈ s.sessions := h.mem_iff.2 ⟨hlt, by rw [hleaving]; decide⟩
  have hevent : ∀ other r, Event.remove id ≠ .read other r := fun _ _ h => by cases h
  have hlength : (s.sessions.filter (· ≠ id)).length = s.sessions.length - 1 := by
    rw [← List.length_erase_of_mem hmem, h.nodup.erase_eq_filter]
    congr 2
    funext other
    simp only [bne, decide_not]
    congr 1
  have hstages : ∀ other ≠ id, Function.update s.stage id .left other = s.stage other :=
    fun other hne => Function.update_of_ne hne _ _
  refine ⟨{ s with
      sessions := s.sessions.filter (· ≠ id), stage := Function.update s.stage id .left }, ?_,
    ?_, fun limit hnew hset => ?_, fun other hother => ?_, fun other hother => ?_⟩
  · unfold Sessions.remove
    rw [if_neg (by rw [List.length_eq_zero_iff]; exact List.ne_nil_of_mem hmem),
      if_neg (not_not_intro hlength)]
  · dsimp only
    rw [h.sessions, List.filter_filter]
    refine List.filter_congr fun other _ => ?_
    by_cases hne : other = id
    · simp [hne]
    · simp [hne]
  · have hseen := h.limit limit hnew fun m hm => hset m (List.mem_append_left _ hm)
    exact ⟨hseen.1, Nat.le_trans (List.length_filter_le _ _) hseen.2⟩
  · by_cases hne : other = id
    · subst hne
      obtain ⟨handed, hserve, hcalled⟩ := (h.serves other hother).serve
      refine ⟨⟨handed, ?_, ?_⟩, ?_⟩
      · rw [readsOf_append, readsOf_of_ne (hevent other), List.append_nil]
        exact hserve
      · rw [hleaving, if_neg (by decide)] at hcalled
        simp [hcalled]
      · simp
    · exact (h.serves other hother).congr (hevent other) (hstages other hne) rfl rfl
  · have hne : other ≠ id := (Nat.ne_of_lt (Nat.lt_of_lt_of_le hlt hother)).symm
    obtain ⟨hstage, hremaining, hcalled, hreads⟩ := h.absent other hother
    rw [readsOf_append, readsOf_of_ne (hevent other), hreads]
    exact ⟨(hstages other hne).trans hstage, hremaining, hcalled, rfl⟩

/-- An event keeps the sessions, or a packet of a read is none. -/
theorem step_kept (h : Kept seen s) {event : Event} (hguard : s.Guard event) :
    (∃ s', s.step event = .ok s' ∧ Kept (seen ++ [event]) s') ∨
      ∃ fault, s.step event = .error (.read (.packet fault)) := by
  cases event with
  | setMaxOnline maxOnline => exact .inl ⟨_, rfl, h.setMaxOnline maxOnline⟩
  | connect => exact .inl ⟨_, rfl, h.connect⟩
  | read session r =>
      cases hread : s.read session r with
      | ok s' => exact .inl ⟨s', hread, h.read hguard hread⟩
      | error fault =>
          right
          have hread' := hread
          unfold Sessions.read at hread'
          dsimp only at hread'
          split at hread'
          next fault' hfault =>
            rw [← Except.error.inj hread'] at hread
            cases fault' with
            | packet fault' => exact ⟨fault', hread⟩
            | diverges => exact absurd hfault (onNewMessage_ne_diverges _ r)
          next => cases hread'
  | fail session => exact .inl ⟨_, rfl, h.fail hguard⟩
  | remove session => exact .inl (h.remove hguard)

/-! ## Whole runs -/

/-- However the clients come and go: no session is ever missing from the list or left on it, so a run ends
    early only when the constructor of `packet` asserts; no more clients are online than have ever been
    allowed; and for each client exactly the packets of its own stream are executed, after `m_on_connected`
    and before `m_on_disconnected`, which is run once its read has failed. -/
theorem run_served (hadm : Admissible step Guard new events) :
    (∃ s, run step new events = .ok s ∧
      s.sessions = (List.range s.made).filter (fun id => s.stage id ≠ .left) ∧
      s.getOnline.toNat = s.sessions.length ∧
      (∀ limit, new.maxOnline ≤ limit → (∀ m, .setMaxOnline m ∈ events → m ≤ limit) →
        s.getOnline ≤ limit) ∧
      ∀ id < s.made, ∃ handed, serve [] (readsOf id events) = ⟨handed, .ok (s.remaining id)⟩ ∧
        s.called id = .connected :: handed.map .executed ++
          (if s.stage id = .reading then [] else [.disconnected])) ∨
      ∃ fault, run step new events = .error (.read (.packet fault)) := by
  have hstep : ∀ seen event s, Kept seen s → s.Guard event →
      (∃ s', s.step event = .ok s' ∧ Kept (seen ++ [event]) s') ∨
        ∃ fault, s.step event = .error fault ∧ ∃ g, fault = .read (.packet g) := by
    intro seen event s h hguard
    rcases step_kept h hguard with hok | ⟨fault, hfault⟩
    · exact .inl hok
    · exact .inr ⟨_, hfault, fault, rfl⟩
  rcases run_progress_or_error Kept hstep new_kept hadm with ⟨s, hrun, h⟩ | ⟨_, hrun, fault, rfl⟩
  · refine .inl ⟨s, hrun, h.sessions, h.getOnline, fun limit hnew hset => ?_,
      fun id hid => (h.serves id hid).serve⟩
    rw [UInt16.le_iff_toNat_le, h.getOnline]
    exact (h.limit limit hnew hset).2
  · exact .inr ⟨fault, hrun⟩

/-- Two clients are the most, and a third one is turned away until the first one is taken off. -/
def threeClients : List Event :=
  [.setMaxOnline 2, .connect, .read 0 ⟨[3, 0], fun _ => (0, 0), fun _ _ => 0⟩, .connect, .connect,
    .read 0 ⟨[7, 4, 0], fun _ => (0, 0), fun _ _ => 0⟩, .fail 0, .connect, .remove 0, .connect]

theorem run_served_three : Admissible step Guard new threeClients ∧
    ∃ s, run step new threeClients = .ok s ∧ s.sessions = [1, 2] ∧ s.getOnline ≤ 1024 ∧
      s.called 0 = [.connected, .executed [3, 0, 7], .disconnected] := by
  have hadm : Admissible step Guard new threeClients := by decide
  obtain ⟨s, hok, hsessions, hcalled⟩ : ∃ s, run step new threeClients = .ok s ∧ s.sessions = [1, 2] ∧
      s.called 0 = [.connected, .executed [3, 0, 7], .disconnected] := ⟨_, rfl, rfl, by decide⟩
  refine ⟨hadm, s, hok, hsessions, ?_, hcalled⟩
  rcases run_served hadm with ⟨t, hrun, -, -, hlimit, -⟩ | ⟨fault, hrun⟩
  · rw [Except.ok.inj (hok.symm.trans hrun)]
    exact hlimit 1024 (by decide) (by simp [threeClients])
  · rw [hok] at hrun
    cases hrun

end Bango.Network.Sessions
