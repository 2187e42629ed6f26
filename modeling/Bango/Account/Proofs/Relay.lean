import Bango.Account.Requests
import Bango.Network.Proofs.Fields

set_option autoImplicit false

/-! # What the DB server reads

A forwarded request as strings of bytes: the DB server reads the client's payload followed by the
credentials, or the payload alone when the credentials did not fit into the packet. -/

namespace Bango.Account

open Bango.Lib Bango.Network

/-- What the handler of a message appends. -/
def appended (m : Request) (c : Credentials) : List UInt8 :=
  if m = .login then c.uidBytes else c.bytes

/-- The bytes behind the header that reach the DB server. -/
def relayed (m : Request) (c : Credentials) (payload : List UInt8) : List UInt8 :=
  if payload.length + 3 + (appended m c).length ≤ maxPacketLength then payload ++ appended m c
  else payload

/-- What the handler of a message reads of some bytes. -/
def dbReads (m : Request) (u : List UInt8) : Option DbRequest :=
  match (dbHandler m.s2d).runBytes u with
  | .error _ => none
  | .ok (request, _) => request

/-- Does the game server forward the message? -/
def Forwards (m : Request) (payload : List UInt8) : Prop :=
  m = .newPlayer → ∃ n r, popNewPlayer.runBytes payload = .ok (n, r) ∧ n.rejection = none

theorem isWire_wire (type : UInt8) {payload : List UInt8}
    (h : payload.length + 3 ≤ maxPacketLength) :
    Packet.IsWire (wire type payload) ∧ (wire type payload).drop 3 = payload := by
  have hmax : payload.length + 3 ≤ 32768 := h
  have hlen : (wire type payload).length = payload.length + 3 := by
    simp only [wire, List.length_append, length_le, List.length_singleton]
    omega
  refine ⟨⟨by omega, hlen ▸ h, ?_⟩, ?_⟩
  · have htake : (wire type payload).take 2 = le 2 (payload.length + 3) := by
      unfold wire
      rw [List.append_assoc, List.take_left' (length_le 2 _)]
    rw [htake, ofLe_le, hlen]
    omega
  · exact List.drop_left' (by simp)

/-- The DB server gets the unread bytes of the forwarded packet, and the type it was given. -/
theorem forward_spec {p : Packet} (h : p.WellFormed) (value : List UInt8) (type : UInt8)
    (memory : Memory) :
    ∃ bytes q, forward p value type = .forwarded bytes ∧ Packet.ofVector memory bytes = .ok q ∧
      q.WellFormed ∧ q.type = type ∧
      q.unread = if p.endOffset + value.length ≤ maxPacketLength then p.unread ++ value
        else p.unread := by
  have hpush : (p.push value).WellFormed ∧ (p.push value).unread =
      if p.endOffset + value.length ≤ maxPacketLength then p.unread ++ value else p.unread := by
    by_cases hfit : p.endOffset + value.length ≤ maxPacketLength
    · rw [if_pos hfit]
      exact Packet.push_spec h hfit
    · rw [if_neg hfit, Packet.push_of_full (Nat.not_le.1 hfit)]
      exact ⟨h, rfl⟩
  obtain ⟨hwf, hunread, htype⟩ := Packet.changeType_spec hpush.1 type
  obtain ⟨hwire, hdrop, hbytes⟩ := Packet.isWire_bytes hwf
  obtain ⟨q, hq, hqwf, hqunread, -, hqtype⟩ := Packet.ofVector_spec memory hwire
  refine ⟨_, q, rfl, hq, hqwf, ?_, ?_⟩
  · rw [hbytes, Option.some.injEq] at hqtype
    rw [← hqtype, htype]
  · rw [hqunread, hdrop, hunread, hpush.2]

/-- The packet that the DB server is sent for a message it is sent at all. -/
theorem forwarded_spec {m : Request} {c : Credentials} (memory memory' : Memory)
    {payload : List UInt8} (h : payload.length + 3 ≤ maxPacketLength)
    (hforwards : Forwards m payload) :
    ∃ bytes q, forwarded m c memory payload = some bytes ∧ Packet.ofVector memory' bytes = .ok q ∧
      q.WellFormed ∧ q.type = m.s2d ∧ q.unread = relayed m c payload := by
  obtain ⟨hwire, hdrop⟩ := isWire_wire m.c2s h
  obtain ⟨p, hp, hwf, hunread, hend, -⟩ := Packet.ofVector_spec memory hwire
  obtain ⟨bytes, q, hbytes, hq, hqwf, hqtype, hqunread⟩ :=
    forward_spec hwf (appended m c) m.s2d memory'
  have hlen : p.endOffset = payload.length + 3 := by
    have := congrArg List.length hdrop
    rw [List.length_drop] at this
    have := hwire.header_le
    omega
  -- only a new player is read before it is forwarded, and what goes on is a copy
  have hrequest : onRequest c m p = .ok (.forwarded bytes) := by
    rw [← hbytes]
    cases m with
    | newPlayer =>
        obtain ⟨n, r, hread, haccept⟩ := hforwards rfl
        have hrun := Pops.run_eq_runBytes popNewPlayer hwf
        rw [hunread, hdrop, hread] at hrun
        obtain ⟨p', hp', -⟩ := hrun
        simp only [onRequest, onNewPlayer, hp', haccept]
        rfl
    | _ => rfl
  refine ⟨bytes, q, ?_, hq, hqwf, hqtype, ?_⟩
  · unfold forwarded
    simp only [hp, hrequest]
  · rw [hqunread, hunread, hdrop, hlen]
    rfl

/-- A new player that is not accepted is not forwarded. -/
theorem forwarded_eq_none {m : Request} {c : Credentials} (memory : Memory)
    {payload : List UInt8} (h : payload.length + 3 ≤ maxPacketLength)
    (hrejects : ¬ Forwards m payload) : forwarded m c memory payload = none := by
  unfold Forwards at hrejects
  push Not at hrejects
  obtain ⟨rfl, hrejects⟩ := hrejects
  obtain ⟨hwire, hdrop⟩ := isWire_wire Request.newPlayer.c2s h
  obtain ⟨p, hp, hwf, hunread, -⟩ := Packet.ofVector_spec memory hwire
  have hrun := Pops.run_eq_runBytes popNewPlayer hwf
  rw [hunread, hdrop] at hrun
  unfold forwarded
  simp only [hp, onRequest, onNewPlayer]
  cases hread : popNewPlayer.runBytes payload with
  | error f =>
      rw [hread] at hrun
      rw [hrun]
  | ok nr =>
      rw [hread] at hrun
      obtain ⟨p', hp', -⟩ := hrun
      rw [hp']
      simp only
      cases hrej : nr.1.rejection with
      | none => exact absurd hrej (hrejects nr.1 nr.2 hread)
      | some answer => rfl

/-- What reaches the DB server, for every message and payload. -/
theorem relay_eq {m : Request} {c : Credentials} (memory memory' : Memory) {payload : List UInt8}
    (h : payload.length + 3 ≤ maxPacketLength) (hforwards : Forwards m payload) :
    relay m c memory memory' payload = dbReads m (relayed m c payload) := by
  obtain ⟨bytes, q, hbytes, hq, hqwf, hqtype, hqunread⟩ :=
    forwarded_spec (c := c) memory memory' h hforwards
  have hread := Pops.run_eq_runBytes (dbHandler q.type) hqwf
  rw [hqunread, hqtype] at hread
  unfold relay readRequest dbReads
  rw [hbytes, Option.bind_some]
  simp only [hq, hqtype]
  cases hrun : (dbHandler m.s2d).runBytes (relayed m c payload) with
  | error f =>
      rw [hrun] at hread
      rw [hread]
  | ok au =>
      rw [hrun] at hread
      obtain ⟨p', hp', -⟩ := hread
      rw [hp']

/-- What the DB server reads of the bytes that are forwarded does not depend on its memory. -/
theorem exists_forwarded {m : Request} {c : Credentials} (memory : Memory) {payload : List UInt8}
    (h : payload.length + 3 ≤ maxPacketLength) (hforwards : Forwards m payload) :
    ∃ bytes, forwarded m c memory payload = some bytes ∧
      ∀ memory', readRequest memory' bytes = dbReads m (relayed m c payload) := by
  obtain ⟨bytes, -, hbytes, -⟩ := forwarded_spec (c := c) memory memory h hforwards
  refine ⟨bytes, hbytes, fun memory' => ?_⟩
  rw [← relay_eq memory memory' h hforwards, relay, hbytes, Option.bind_some]

theorem relay_of_not_forwards {m : Request} {c : Credentials} (memory memory' : Memory)
    {payload : List UInt8} (h : payload.length + 3 ≤ maxPacketLength)
    (hrejects : ¬ Forwards m payload) : relay m c memory memory' payload = none := by
  unfold relay
  rw [forwarded_eq_none memory h hrejects, Option.bind_none]

/-! ## Which request the DB server reads -/

/-- The message of the client that a request comes from. -/
def DbRequest.origin : DbRequest → Request
  | login .. => .login
  | secondaryLogin .. | secondaryCreate .. | secondaryChange .. => .secondLogin
  | newPlayer .. => .newPlayer
  | deletePlayer .. => .delPlayer
  | restorePlayer .. => .restorePlayer
  | loadPlayer .. => .loadPlayer

/-- The handler of a message's type reads requests of that message. -/
theorem yields_dbHandler (m : Request) :
    (dbHandler m.s2d).Yields fun r => ∀ request, r = some request → request.origin = m := by
  have hdone : ∀ request : DbRequest, request.origin = m →
      (Pops.done (some request)).Yields fun r => ∀ request, r = some request → request.origin = m := by
    intro request horigin
    refine .done fun request' heq => ?_
    rw [← Option.some.inj heq, horigin]
  have hnone : (Pops.done none).Yields
      fun r : Option DbRequest => ∀ request, r = some request → request.origin = m :=
    .done fun _ heq => nomatch heq
  cases m with
  | login => exact .bind (fun _ => .bind (fun _ => .bind (fun _ => .bind
      (fun _ => hdone _ rfl) _) _) _) _
  | secondLogin =>
      refine .bind (fun selector => ?_) _
      split_ifs
      · refine .bind (fun password => ?_) _
        split_ifs
        · exact .bind (fun _ => .bind (fun _ => hdone _ rfl) _) _
        · exact hnone
      · exact .bind (fun _ => .bind (fun _ => .bind (fun _ => hdone _ rfl) _) _) _
      · exact .bind (fun _ => .bind (fun _ => .bind (fun _ => hdone _ rfl) _) _) _
      · exact hnone
  | newPlayer => exact .bind (fun _ => .bind (fun _ => hdone _ rfl) _) _
  | delPlayer => exact .bind (fun _ => .bind (fun _ => hdone _ rfl) _) _
  | restorePlayer => exact .bind (fun _ => .bind (fun _ => hdone _ rfl) _) _
  | loadPlayer => exact .bind (fun _ => .bind (fun _ => .bind (fun _ => .bind
      (fun _ => hdone _ rfl) _) _) _) _

/-- What is forwarded for a message is read as a request of that message. -/
theorem origin_of_forwarded {m : Request} {c : Credentials} {memory memory' : Memory}
    {payload bytes : List UInt8} {request : DbRequest}
    (h : payload.length + 3 ≤ maxPacketLength) (hbytes : forwarded m c memory payload = some bytes)
    (hread : readRequest memory' bytes = some request) : request.origin = m := by
  have hforwards : Forwards m payload := by
    by_contra hrejects
    rw [forwarded_eq_none memory h hrejects] at hbytes
    cases hbytes
  obtain ⟨bytes', q, hbytes', hq, -, hqtype, -⟩ :=
    forwarded_spec (c := c) memory memory' h hforwards
  obtain rfl := Option.some.inj (hbytes.symm.trans hbytes')
  -- the packet carries the type of the message, and that type chooses the handler
  unfold readRequest at hread
  simp only [hq, hqtype] at hread
  cases hrun : (dbHandler m.s2d).run q with
  | error f =>
      rw [hrun] at hread
      cases hread
  | ok rq =>
      rw [hrun] at hread
      exact (yields_dbHandler m).of_run hrun request hread

end Bango.Account
