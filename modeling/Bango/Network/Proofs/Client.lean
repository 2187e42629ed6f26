import Bango.Network.Client
import Bango.Network.Proofs.Made

set_option autoImplicit false

/-! # The client executes what was written

However the stream of written packets is cut into reads, the client executes those that have arrived
whole, each with the type and the unread bytes it was written with. -/

namespace Bango.Network

open Bango.Lib

/-- The type and the unread bytes of a packet on the wire. -/
def wireCarried (v : List UInt8) : UInt8 × List UInt8 := (v.getD 2 0, v.drop 3)

theorem Packet.WellFormed.wireCarried_write {p : Packet} (h : p.WellFormed) :
    Packet.IsWire (Writable.write p) ∧ wireCarried (Writable.write p) = p.carried := by
  obtain ⟨hwire, hdrop, htype⟩ := Packet.isWire_bytes h
  refine ⟨hwire, ?_⟩
  unfold wireCarried Writable.write
  rw [hdrop, List.getD_eq_getElem?_getD, htype]
  rfl

namespace Client

/-- A rest at which the loop ends: the packet that begins there has not arrived whole. -/
def Waits (rest : List UInt8) : Prop := rest.length < 3 ∨ rest.length < ofLe (rest.take 2)

theorem drain_of_splits {r : ClientRead} {rounds i : Nat} {frames : List (List UInt8)}
    {rest : List UInt8} (hframes : ∀ f ∈ frames, Packet.IsWire f) (hwaits : Waits rest)
    (hrounds : (frames.flatten ++ rest).length < rounds) :
    (drain r rounds i (frames.flatten ++ rest)).observed = (frames.map wireCarried, .ok rest) := by
  induction frames generalizing rounds i with
  | nil =>
      obtain ⟨rounds, rfl⟩ : ∃ n, rounds = n + 1 := ⟨rounds - 1, by omega⟩
      rw [List.flatten_nil, List.nil_append]
      unfold drain
      by_cases hshort : rest.length < 3
      · rw [if_pos hshort]
        rfl
      · rw [if_neg hshort]
        simp only
        rw [if_pos (hwaits.resolve_left hshort)]
        rfl
  | cons f fs ih =>
      obtain ⟨rounds, rfl⟩ : ∃ n, rounds = n + 1 := ⟨rounds - 1, by omega⟩
      have hf := hframes f List.mem_cons_self
      have hlen := hf.header_le
      rw [List.flatten_cons, List.append_assoc] at hrounds ⊢
      have htotal : (f ++ (fs.flatten ++ rest)).length = f.length + (fs.flatten ++ rest).length :=
        List.length_append
      have hsize : ofLe ((f ++ (fs.flatten ++ rest)).take 2) = f.length := by
        rw [List.take_append_of_le_length (by omega), hf.field_eq]
      obtain ⟨p, hp, -, hunread, -, htype⟩ := Packet.ofVector_spec (r.memory i) hf
      have hcarried : p.carried = wireCarried f := by
        unfold Packet.carried wireCarried
        rw [hunread, List.getD_eq_getElem?_getD, htype, Option.getD_some]
      unfold drain
      rw [if_neg (by omega)]
      simp only [hsize, List.take_left' rfl, List.drop_left' rfl, hp]
      rw [if_neg (by omega), if_neg (by omega)]
      by_cases hend : (fs.flatten ++ rest).length = 0
      · -- nothing is left, and the loop ends without another look
        rw [if_pos hend]
        obtain ⟨hflat, hrest⟩ := List.append_eq_nil_iff.1 (List.eq_nil_of_length_eq_zero hend)
        have hnil : fs = [] := by
          cases fs with
          | nil => rfl
          | cons g gs =>
              have hg := (hframes g (List.mem_cons_of_mem f List.mem_cons_self)).header_le
              have hzero := congrArg List.length hflat
              rw [List.flatten_cons, List.length_append, List.length_nil] at hzero
              omega
        subst hnil hrest
        simp [ClientCall.observed, hcarried]
      · rw [if_neg hend]
        have hnext : (drain r rounds (i + 1) (fs.flatten ++ rest)).observed =
            (fs.map wireCarried, .ok rest) :=
          ih (fun g hg => hframes g (List.mem_cons_of_mem f hg)) (by omega)
        unfold ClientCall.observed at hnext ⊢
        obtain ⟨hexecuted, houtcome⟩ := Prod.mk.inj hnext
        simp only [List.map_cons, hcarried, hexecuted, houtcome]

theorem onNewMessage_of_splits {r : ClientRead} {remaining rest : List UInt8}
    {frames : List (List UInt8)} (hsplit : packetFraming.Splits (remaining ++ r.bytes) frames rest)
    (hwaits : Waits rest) :
    (onNewMessage remaining r).observed = (frames.map wireCarried, .ok rest) := by
  unfold onNewMessage
  rw [hsplit.stream_eq]
  exact drain_of_splits hsplit.isFrame hwaits (Nat.lt_succ_self _)

/-- The beginning of a packet, or nothing at all. -/
theorem waits_of_flatten {s t rest : List UInt8} {frames all : List (List UInt8)}
    (hall : ∀ f ∈ all, Packet.IsWire f) (hsplit : packetFraming.Splits s frames rest)
    (hst : s ++ t = all.flatten) : Waits rest := by
  by_cases hshort : rest.length < 3
  · exact .inl hshort
  · rcases hsplit.rest_of_flatten hall hst with hnil | ⟨f, hf, ⟨u, rfl⟩, hlt⟩
    · rw [hnil] at hshort
      exact absurd (by decide) hshort
    · have hfield := (hall _ hf).field_eq
      rw [List.take_append_of_le_length (by omega)] at hfield
      exact .inr (hfield ▸ hlt)

/-- The calls for some reads, when the bytes before them and those that follow make packets. -/
theorem receive_of_splits {all : List (List UInt8)} (hall : ∀ f ∈ all, Packet.IsWire f)
    (reads : List ClientRead) {s t rest : List UInt8} {frames : List (List UInt8)}
    (hsplit : packetFraming.Splits s frames rest) (hst : s ++ received reads ++ t = all.flatten) :
    ∃ more rest', packetFraming.Splits (s ++ received reads) (frames ++ more) rest' ∧
      (receive rest reads).observed = (more.map wireCarried, .ok rest') := by
  induction reads generalizing s rest frames with
  | nil =>
      refine ⟨[], rest, ?_, rfl⟩
      rwa [received, List.flatMap_nil, List.append_nil, List.append_nil]
  | cons r rs ih =>
      have hreceived : s ++ received (r :: rs) = (s ++ r.bytes) ++ received rs := by
        rw [received, List.flatMap_cons, ← List.append_assoc]
        rfl
      rw [hreceived] at hst ⊢
      -- what has arrived with this read
      have hwhole : packetFraming.Splits ((s ++ r.bytes) ++ (received rs ++ t)) all [] := by
        rw [← List.append_assoc, hst]
        exact Framing.splits_flatten hall
      obtain ⟨n, mid, hmid⟩ := hwhole.of_append
      obtain ⟨more, hmore, hread⟩ := hsplit.resume hmid
      have hwaits := waits_of_flatten hall hmid (by rw [← List.append_assoc, hst])
      have hcall := onNewMessage_of_splits hread hwaits
      obtain ⟨hexecuted, houtcome⟩ := Prod.mk.inj hcall
      rw [hmore] at hmid
      obtain ⟨later, rest', hlater, hrest⟩ := ih hmid hst
      obtain ⟨hlaterExecuted, hlaterOutcome⟩ := Prod.mk.inj hrest
      refine ⟨more ++ later, rest', by rwa [← List.append_assoc], ?_⟩
      unfold receive ClientCall.observed
      simp only [houtcome, List.map_append, hexecuted, hlaterExecuted, hlaterOutcome]

end Client

theorem isWire_write {ps : List Packet} (hps : ∀ p ∈ ps, p.WellFormed) :
    ∀ f ∈ ps.map Writable.write, Packet.IsWire f := by
  intro f hf
  obtain ⟨p, hp, rfl⟩ := List.mem_map.1 hf
  exact (hps p hp).wireCarried_write.1

theorem map_wireCarried_write {ps : List Packet} (hps : ∀ p ∈ ps, p.WellFormed) :
    (ps.map Writable.write).map wireCarried = ps.map Packet.carried := by
  rw [List.map_map]
  exact List.map_congr_left fun p hp => (hps p hp).wireCarried_write.2

/-- Packets of at least the size of a header are written, and however their bytes are cut into reads,
    the client executes exactly these packets in order, each with its type and its unread bytes. After
    any part of the stream, what has been executed and what is kept depends on the bytes only that have
    been received. -/
theorem executes_written {ps : List Packet} (hmade : ∀ p ∈ ps, p.Made)
    (hsize : ∀ p ∈ ps, ∃ n, p.size = .ok n ∧ 3 ≤ n) :
    (∀ reads, Client.received reads = Writable.stream ps →
        (Client.receive [] reads).observed = (ps.map Packet.carried, .ok [])) ∧
      ∀ reads reads', Client.received reads <+: Writable.stream ps →
        Client.received reads' = Client.received reads →
        (Client.receive [] reads').observed = (Client.receive [] reads).observed := by
  have hwf : ∀ p ∈ ps, p.WellFormed := by
    intro p hp
    obtain ⟨n, hn, hthree⟩ := hsize p hp
    exact (hmade p hp).consistent.wellFormed hn hthree
  have hwire := isWire_write hwf
  have hstream : Writable.stream ps = (ps.map Writable.write).flatten := rfl
  have hstart : packetFraming.Splits [] [] [] := 
    ⟨rfl, fun _ hf => (List.not_mem_nil hf).elim, Framing.incomplete_nil⟩
  constructor
  · intro reads hreads
    obtain ⟨more, rest, hsplit, hobserved⟩ :=
      Client.receive_of_splits (t := []) hwire reads hstart
        (by rw [List.append_nil, List.nil_append, hreads, hstream])
    rw [List.nil_append, List.nil_append, hreads, hstream] at hsplit
    obtain ⟨rfl, rfl⟩ := hsplit.unique (Framing.splits_flatten hwire)
    rw [hobserved, map_wireCarried_write hwf]
  · intro reads reads' hprefix hsame
    obtain ⟨t, ht⟩ := hprefix
    obtain ⟨more, rest, hsplit, hobserved⟩ :=
      Client.receive_of_splits hwire reads hstart (by rw [List.nil_append, ht, hstream])
    obtain ⟨more', rest', hsplit', hobserved'⟩ :=
      Client.receive_of_splits hwire reads' hstart (by rw [List.nil_append, hsame, ht, hstream])
    rw [List.nil_append, List.nil_append] at hsplit hsplit'
    obtain ⟨rfl, rfl⟩ := hsplit'.unique (hsame ▸ hsplit)
    rw [hobserved, hobserved']

/-- A packet with a byte, and one without anything. -/
def byteAndNothing : List Packet :=
  [(Packet.ofType (fun _ => 0) 5).push [7], Packet.ofType (fun _ => 1) 9]

theorem executes_written_byteAndNothing :
    (∀ reads, Client.received reads = Writable.stream byteAndNothing →
        (Client.receive [] reads).observed = (byteAndNothing.map Packet.carried, .ok [])) ∧
      ∀ reads reads', Client.received reads <+: Writable.stream byteAndNothing →
        Client.received reads' = Client.received reads →
        (Client.receive [] reads').observed = (Client.receive [] reads).observed := by
  refine executes_written (fun p hp => ?_) (fun p hp => ?_)
  · rcases List.mem_cons.1 hp with rfl | hp
    · exact (Packet.made_ofType _ 5).push [7]
    · rw [List.mem_singleton.1 hp]
      exact Packet.made_ofType _ 9
  · rcases List.mem_cons.1 hp with rfl | hp
    · exact ⟨4, rfl, by decide⟩
    · rw [List.mem_singleton.1 hp]
      exact ⟨3, rfl, by decide⟩

end Bango.Network
