import Bango.Network.Server
import Bango.Network.Proofs.Packet

set_option autoImplicit false

/-! # What the server executes

The loop of `on_new_message` follows the reading of its buffer as packets on the wire as long as
there is one and it stops behind it. From this, exactly which reads the server survives handing over
nothing but packets (`serve_safe_iff`), and exactly when the packets of a well-formed stream come out
whole, once each and in order (`delivers_iff`). -/

namespace Bango.Network

open Bango.Lib

/-! ## The length at the front -/

theorem peek_of_isWire {f rest : List UInt8} (hf : Packet.IsWire f) (past : UInt8 × UInt8) :
    peek (f ++ rest) past = f.length := by
  have hlen := hf.header_le
  unfold peek
  rw [List.append_assoc, List.take_append_of_le_length (by omega)]
  exact hf.field_eq

/-! ## One call -/

/-- The loop executes the packets its buffer begins with and stops behind them. -/
theorem drain_of_splits {r : Read} {frames : List (List UInt8)} {rest : List UInt8}
    {rounds i : Nat} (hframes : ∀ f ∈ frames, Packet.IsWire f)
    (hstop : rest.length < peek rest (r.past (i + frames.length)))
    (hrounds : frames.length < rounds) :
    drain r rounds i (frames.flatten ++ rest) = ⟨frames, .ok rest⟩ := by
  induction frames generalizing rounds i with
  | nil =>
      obtain ⟨rounds, rfl⟩ : ∃ n, rounds = n + 1 := ⟨rounds - 1, by omega⟩
      have hgt : ¬ peek rest (r.past i) ≤ rest.length := Nat.not_le.2 hstop
      simp only [List.flatten_nil, List.nil_append, drain, if_neg hgt]
  | cons f fs ih =>
      obtain ⟨rounds, rfl⟩ : ∃ n, rounds = n + 1 := ⟨rounds - 1, by omega⟩
      have hf := hframes f List.mem_cons_self
      obtain ⟨p, hp, -⟩ := Packet.ofVector_spec (r.memory i) hf
      have hpeek : peek (f ++ (fs.flatten ++ rest)) (r.past i) = f.length :=
        peek_of_isWire hf (r.past i)
      have hnext : drain r rounds (i + 1) (fs.flatten ++ rest) = ⟨fs, .ok rest⟩ := ih
        (fun x hx => hframes x (List.mem_cons_of_mem f hx))
        (by rw [List.length_cons] at hstop; rwa [Nat.add_right_comm, Nat.add_assoc])
        (by rw [List.length_cons] at hrounds; omega)
      rw [List.flatten_cons, List.append_assoc]
      simp only [drain, hpeek, List.take_left' rfl, List.drop_left' rfl, hp, hnext]
      rw [if_pos (by rw [List.length_append]; omega)]

/-- When a call returns and has handed over packets only, its buffer was these packets and the rest,
    and the peek at the rest stopped it. -/
theorem splits_of_drain {r : Read} {rounds i : Nat} {buffer rest : List UInt8}
    (hret : (drain r rounds i buffer).outcome = .ok rest)
    (hwire : ∀ v ∈ (drain r rounds i buffer).handed, Packet.IsWire v) :
    buffer = (drain r rounds i buffer).handed.flatten ++ rest ∧
      rest.length < peek rest (r.past (i + (drain r rounds i buffer).handed.length)) := by
  induction rounds generalizing i buffer with
  | zero => cases hret
  | succ rounds ih =>
      unfold drain at hret hwire ⊢
      simp only at hret hwire ⊢
      by_cases hsize : peek buffer (r.past i) ≤ buffer.length
      · simp only [if_pos hsize] at hret hwire ⊢
        cases hof : Packet.ofVector (r.memory i) (buffer.take (peek buffer (r.past i))) with
        | error f =>
            rw [hof] at hret
            cases hret
        | ok p =>
            rw [hof] at hret hwire
            simp only at hret hwire ⊢
            obtain ⟨hbuffer, hstop⟩ := ih hret fun v hv => hwire v (List.mem_cons_of_mem _ hv)
            rw [List.flatten_cons, List.append_assoc, ← hbuffer, List.take_append_drop,
              List.length_cons, ← Nat.add_assoc, Nat.add_right_comm]
            exact ⟨rfl, hstop⟩
      · simp only [if_neg hsize] at hret ⊢
        cases hret
        exact ⟨rfl, Nat.not_le.1 hsize⟩

/-- No call runs out of rounds: a round that goes on has executed at least one byte. -/
theorem drain_ne_diverges {r : Read} {rounds i : Nat} {buffer : List UInt8}
    (h : buffer.length < rounds) : (drain r rounds i buffer).outcome ≠ .error .diverges := by
  induction rounds generalizing i buffer with
  | zero => omega
  | succ rounds ih =>
      unfold drain
      simp only
      split
      · next hsize =>
          split
          · intro hdiv
            cases hdiv
          · next p hp =>
              -- no packet is made from no bytes, so this round has dropped some
              have hpos : peek buffer (r.past i) ≠ 0 := by
                intro hzero
                rw [hzero, List.take_zero, Packet.ofVector_nil] at hp
                cases hp
              refine ih ?_
              rw [List.length_drop]
              omega
      · intro hdiv
        cases hdiv

/-- Every call of `on_new_message` ends. -/
theorem onNewMessage_ne_diverges (remaining : List UInt8) (r : Read) :
    (onNewMessage remaining r).outcome ≠ .error .diverges :=
  drain_ne_diverges (Nat.lt_succ_self _)

theorem onNewMessage_of_splits {r : Read} {remaining rest : List UInt8}
    {frames : List (List UInt8)} (hsplit : remaining ++ r.bytes = frames.flatten ++ rest)
    (hframes : ∀ f ∈ frames, Packet.IsWire f)
    (hstop : rest.length < peek rest (r.past frames.length)) :
    onNewMessage remaining r = ⟨frames, .ok rest⟩ := by
  have hcount := packetFraming.length_le_length_flatten hframes
  unfold onNewMessage
  rw [hsplit]
  refine drain_of_splits hframes (by rwa [Nat.zero_add]) ?_
  rw [List.length_append]
  omega

theorem splits_of_onNewMessage {r : Read} {remaining rest : List UInt8}
    (hret : (onNewMessage remaining r).outcome = .ok rest)
    (hwire : ∀ v ∈ (onNewMessage remaining r).handed, Packet.IsWire v) :
    remaining ++ r.bytes = (onNewMessage remaining r).handed.flatten ++ rest ∧
      rest.length < peek rest (r.past (onNewMessage remaining r).handed.length) := by
  have h := splits_of_drain hret hwire
  rwa [Nat.zero_add] at h

/-! ## A session -/

/-- Each read leaves a session's buffer with whole packets and a rest whose peeked length exceeds
    it. -/
def Clean : List UInt8 → List Read → Prop
  | _, [] => True
  | remaining, r :: rs =>
    ∃ (frames : List (List UInt8)) (rest : List UInt8),
      remaining ++ r.bytes = frames.flatten ++ rest ∧ (∀ f ∈ frames, Packet.IsWire f) ∧
      rest.length < peek rest (r.past frames.length) ∧ Clean rest rs

/-- Every call of a session returns and hands only packets on the wire to the constructor of `packet`
    exactly when its reads are clean. -/
theorem serve_safe_iff (remaining : List UInt8) (reads : List Read) :
    (serve remaining reads).Safe ↔ Clean remaining reads := by
  induction reads generalizing remaining with
  | nil => exact ⟨fun _ => trivial, fun _ => ⟨⟨remaining, rfl⟩, fun v hv => by cases hv⟩⟩
  | cons r rs ih =>
      constructor
      · intro hsafe
        obtain ⟨⟨final, hfinal⟩, hwire⟩ := hsafe
        unfold serve at hfinal hwire
        simp only at hfinal hwire
        cases hout : (onNewMessage remaining r).outcome with
        | error f =>
            rw [hout] at hfinal
            cases hfinal
        | ok rest =>
            rw [hout] at hfinal hwire
            simp only at hfinal hwire
            -- what the first call was handed is a part of what the session was
            have hfirst : ∀ v ∈ (onNewMessage remaining r).handed, Packet.IsWire v := fun v hv =>
              hwire v (List.mem_append_left _ hv)
            obtain ⟨hsplit, hstop⟩ := splits_of_onNewMessage hout hfirst
            exact ⟨_, rest, hsplit, hfirst, hstop, (ih rest).1
              ⟨⟨final, hfinal⟩, fun v hv => hwire v (List.mem_append_right _ hv)⟩⟩
      · intro hclean
        obtain ⟨frames, rest, hsplit, hframes, hstop, hrest⟩ := hclean
        obtain ⟨⟨final, hfinal⟩, hwire⟩ := (ih rest).2 hrest
        unfold serve
        rw [onNewMessage_of_splits hsplit hframes hstop]
        refine ⟨⟨final, hfinal⟩, fun v hv => ?_⟩
        rcases List.mem_append.1 hv with hv | hv
        · exact hframes v hv
        · exact hwire v hv

/-- A client that sends two zero bytes makes the server construct a packet from no bytes. -/
theorem serve_zero_length : ¬ ∀ reads, (serve [] reads).Safe := by
  intro h
  have hsafe := h [⟨[0, 0], fun _ => (0, 0), fun _ _ => 0⟩]
  have := (hsafe.isWire [] (by decide)).header_le
  exact absurd this (by decide)

/-! ## A stream of packets -/

/-- The bytes of the first `k` reads. -/
def received (reads : List Read) (k : Nat) : List UInt8 := ((reads.take k).map Read.bytes).flatten

/-- After each read, the calls so far have executed the packets that have arrived whole and kept the
    incomplete rest. -/
def Delivers (packets : List (List UInt8)) (reads : List Read) : Prop :=
  ∀ k, ∃ n rest, packetFraming.Splits (received reads k) (packets.take n) rest ∧
    serve [] (reads.take k) = ⟨packets.take n, .ok rest⟩

/-- The peek at a rest of less than two bytes, with the bytes that lie behind it. -/
def PeekWaits (rest : List UInt8) (past : UInt8 × UInt8) : Prop :=
  rest.length < 2 → rest.length < peek rest past

theorem received_succ {reads : List Read} {k : Nat} {r : Read} (hr : reads[k]? = some r) :
    received reads (k + 1) = received reads k ++ r.bytes := by
  unfold received
  rw [List.take_add_one, hr]
  simp

theorem serve_append {remaining rest : List UInt8} {reads : List Read} {frames : List (List UInt8)}
    (h : serve remaining reads = ⟨frames, .ok rest⟩) (r : Read) :
    serve remaining (reads ++ [r]) =
      ⟨frames ++ (onNewMessage rest r).handed, (onNewMessage rest r).outcome⟩ := by
  induction reads generalizing remaining frames with
  | nil =>
      unfold serve at h
      cases h
      rw [List.nil_append]
      unfold serve
      cases hout : (onNewMessage rest r).outcome with
      | error f => simp only [hout, List.nil_append]
      | ok next => simp only [hout, serve, List.append_nil, List.nil_append]
  | cons s rs ih =>
      unfold serve at h
      simp only at h
      cases hout : (onNewMessage remaining s).outcome with
      | error f =>
          rw [hout] at h
          cases h
      | ok mid =>
          rw [hout] at h
          simp only [Call.mk.injEq] at h
          obtain ⟨hhanded, hret⟩ := h
          have hmid : serve mid rs = ⟨(serve mid rs).handed, .ok rest⟩ := by rw [← hret]
          rw [List.cons_append, serve]
          simp only [hout, ih hmid, ← hhanded, List.append_assoc]

/-- A rest of at least two bytes of a packet states a length that has not arrived. -/
theorem lt_peek_of_isPrefix {rest f : List UInt8} (hf : Packet.IsWire f) (hpre : rest <+: f)
    (hlt : rest.length < f.length) (htwo : 2 ≤ rest.length) (past : UInt8 × UInt8) :
    rest.length < peek rest past := by
  obtain ⟨t, rfl⟩ := hpre
  have hfield := hf.field_eq
  unfold peek
  rw [List.take_append_of_le_length htwo] at hfield ⊢
  omega

/-- One more read: the call executes what has become whole and keeps the rest, provided the peek at
    the rest waits. -/
theorem onNewMessage_of_waits {packets : List (List UInt8)} (hps : ∀ f ∈ packets, Packet.IsWire f)
    {stream rest rest' tail : List UInt8} {frames more : List (List UInt8)} {r : Read}
    (hstream : stream ++ r.bytes ++ tail = packets.flatten)
    (hbefore : packetFraming.Splits stream frames rest)
    (hafter : packetFraming.Splits (stream ++ r.bytes) (frames ++ more) rest')
    (hwaits : PeekWaits rest' (r.past more.length)) :
    onNewMessage rest r = ⟨more, .ok rest'⟩ := by
  obtain ⟨more', hmore, hsplit⟩ := hbefore.resume hafter
  obtain rfl := List.append_cancel_left hmore
  refine onNewMessage_of_splits hsplit.stream_eq hsplit.isFrame ?_
  by_cases htwo : rest'.length < 2
  · exact hwaits htwo
  · rcases hafter.rest_of_flatten hps hstream with hnil | ⟨f, hf, hpre, hlt⟩
    · rw [hnil] at htwo
      exact absurd (by decide) htwo
    · exact lt_peek_of_isPrefix (hps f hf) hpre hlt (Nat.not_lt.1 htwo) _

theorem isPrefix_received {packets : List (List UInt8)} {reads : List Read}
    (hcut : (reads.map Read.bytes).flatten = packets.flatten) (k : Nat) :
    ∃ tail, received reads k ++ tail = packets.flatten := by
  refine ⟨((reads.drop k).map Read.bytes).flatten, ?_⟩
  unfold received
  rw [← List.flatten_append, ← List.map_append, List.take_append_drop, hcut]

/-- The packets of a well-formed stream are executed whole, once each and in order, and nothing but
    the incomplete rest is kept, exactly when after every read the peek at a rest of less than two
    bytes waits. -/
theorem delivers_iff {packets : List (List UInt8)} (hps : ∀ f ∈ packets, Packet.IsWire f)
    {reads : List Read} (hcut : (reads.map Read.bytes).flatten = packets.flatten) :
    Delivers packets reads ↔
      ∀ k r, reads[k]? = some r → ∀ frames more rest rest',
        packetFraming.Splits (received reads k) frames rest →
        packetFraming.Splits (received reads (k + 1)) (frames ++ more) rest' →
        PeekWaits rest' (r.past more.length) := by
  constructor
  · intro hdel k r hr frames more rest rest' hbefore hafter _
    -- the framing of the stream is unique, so the last of the calls is the one of read `k`
    obtain ⟨n, restk, hsplitk, hservek⟩ := hdel k
    obtain ⟨n', restk', hsplitk', hservek'⟩ := hdel (k + 1)
    obtain ⟨hframes, rfl⟩ := hbefore.unique hsplitk
    obtain ⟨hmore, rfl⟩ := hafter.unique hsplitk'
    rw [List.take_add_one, hr, Option.toList_some, serve_append hservek, ← hframes, ← hmore,
      Call.mk.injEq] at hservek'
    obtain ⟨hhanded, hret⟩ := hservek'
    have hcall := List.append_cancel_left hhanded
    have hwire : ∀ v ∈ (onNewMessage rest r).handed, Packet.IsWire v := by
      rw [hcall]
      exact fun v hv => hafter.isFrame v (List.mem_append_right frames hv)
    -- a call that returns stops because the peek exceeds what is left
    have hstop := (splits_of_onNewMessage hret hwire).2
    rwa [hcall] at hstop
  · intro hwaits k
    induction k with
    | zero => exact ⟨0, [], Framing.splits_flatten (by simp), rfl⟩
    | succ k ih =>
        obtain ⟨n, rest, hsplit, hserve⟩ := ih
        cases hr : reads[k]? with
        | none =>
            -- all reads have been served already
            have hlen : reads.length ≤ k := List.getElem?_eq_none_iff.1 hr
            have hsame : reads.take (k + 1) = reads.take k := by
              rw [List.take_of_length_le hlen, List.take_of_length_le (Nat.le_succ_of_le hlen)]
            refine ⟨n, rest, ?_, by rw [hsame, hserve]⟩
            unfold received at hsplit ⊢
            rwa [hsame]
        | some r =>
            obtain ⟨tail, htail⟩ := isPrefix_received hcut (k + 1)
            -- what has arrived is a prefix of the packets, and so are its frames
            have hall : packetFraming.Splits packets.flatten packets [] :=
              Framing.splits_flatten hps
            rw [← htail] at hall
            obtain ⟨n', rest', hsplit'⟩ := hall.of_append
            refine ⟨n', rest', hsplit', ?_⟩
            have hreceived := received_succ hr
            rw [hreceived] at htail hsplit'
            obtain ⟨more, hmore, -⟩ := hsplit.resume hsplit'
            rw [hmore] at hsplit' ⊢
            have hcall := onNewMessage_of_waits hps htail hsplit hsplit'
              (hwaits k r hr _ more rest rest' hsplit (by rwa [hreceived]))
            rw [List.take_add_one, hr, Option.toList_some, serve_append hserve, hcall]

theorem delivers_two :
    Delivers [[3, 0, 7], [4, 0, 1, 2]]
        [⟨[3, 0, 7, 4], fun _ => (0, 7), fun _ _ => 0⟩, ⟨[0, 1, 2], fun _ => (4, 0), fun _ _ => 0⟩] ↔
      ∀ k r, [(⟨[3, 0, 7, 4], fun _ => (0, 7), fun _ _ => 0⟩ : Read),
          ⟨[0, 1, 2], fun _ => (4, 0), fun _ _ => 0⟩][k]? = some r →
        ∀ frames more rest rest',
        packetFraming.Splits (received [⟨[3, 0, 7, 4], fun _ => (0, 7), fun _ _ => 0⟩,
          ⟨[0, 1, 2], fun _ => (4, 0), fun _ _ => 0⟩] k) frames rest →
        packetFraming.Splits (received [⟨[3, 0, 7, 4], fun _ => (0, 7), fun _ _ => 0⟩,
          ⟨[0, 1, 2], fun _ => (4, 0), fun _ _ => 0⟩] (k + 1)) (frames ++ more) rest' →
        PeekWaits rest' (r.past more.length) :=
  delivers_iff (by decide) rfl

/-- The first byte of a packet of 256 bytes arrives with the end of the packet before it, and the
    byte behind it is the high length byte of that packet, which `erase` has left there. -/
theorem not_delivers_cut :
    ¬ ∀ packets reads, (∀ f ∈ packets, Packet.IsWire f) →
      (reads.map Read.bytes).flatten = packets.flatten → Delivers packets reads := by
  intro h
  have hdel := h [[3, 0, 7], 0 :: 1 :: List.replicate 254 5]
    [⟨[3, 0, 7, 0], fun _ => (0, 7), fun _ _ => 0⟩,
      ⟨1 :: List.replicate 254 5, fun _ => (0, 1), fun _ _ => 0⟩] (by decide +kernel) (by decide +kernel)
  obtain ⟨n, rest, -, hserve⟩ := hdel 1
  have hout := congrArg Call.outcome hserve
  have hcrash : (serve [] [⟨[3, 0, 7, 0], fun _ => (0, 7), fun _ _ => 0⟩]).outcome =
      .error (.packet .assertion) := rfl
  cases hcrash.symm.trans hout

end Bango.Network
