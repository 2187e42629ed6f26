import Bango.Network.Calls

set_option autoImplicit false

/-! # All or nothing

A call on a packet appends or takes off all its bytes, or leaves the packet as it was. What decides is
the room behind `m_end`, which pops do not give back, and the number of unread bytes; `strlen` may run
over what is left behind `m_end`, but a NUL that it finds there is too far away to be used. -/

namespace Bango.Network.Packet

open Bango.Lib

variable {p : Packet}

/-- A call that appends the given bytes when they fit, and otherwise comes to `refused` and leaves the
    whole packet as it was: its size, its type and its unread bytes. -/
structure Appends (p : Packet) (bytes : List UInt8) (refused : Except PushFault Unit)
    (r : Except PushFault Unit × Packet) : Prop where
  appended_iff : (r.1 = .ok () ∧ r.2.unread = p.unread ++ bytes ∧
      r.2.endOffset = p.endOffset + bytes.length) ↔ p.endOffset + bytes.length ≤ maxPacketLength
  kept : ¬ p.endOffset + bytes.length ≤ maxPacketLength → r = (refused, p)

/-- A call that takes the first `n` unread bytes off and returns a value when there is enough to read,
    and otherwise comes to `refused` and leaves the whole packet as it was. -/
structure Consumes (p : Packet) (n : Nat) (enough : Prop) (value : List UInt8)
    (refused : Except PushFault (List UInt8)) (r : Except PushFault (List UInt8) × Packet) :
    Prop where
  consumed_iff : (r.1 = .ok value ∧ r.2.beginOffset = p.beginOffset + n ∧
      r.2.unread = p.unread.drop n ∧ r.2.endOffset = p.endOffset) ↔ enough
  kept : ¬ enough → r = (refused, p)

/-! ## One call -/

theorem append_spec (h : p.WellFormed) {bytes : List UInt8}
    (hfit : p.endOffset + bytes.length ≤ maxPacketLength) :
    (p.append bytes).WellFormed ∧ (p.append bytes).unread = p.unread ++ bytes := by
  rw [← push_eq_append hfit]
  exact push_spec h hfit

theorem Appends.of_cases (h : p.WellFormed) {bytes : List UInt8} {refused : Except PushFault Unit}
    {r : Except PushFault Unit × Packet}
    (hfit : p.endOffset + bytes.length ≤ maxPacketLength → r = (.ok (), p.append bytes))
    (hfull : ¬ p.endOffset + bytes.length ≤ maxPacketLength → r = (refused, p)) :
    p.Appends bytes refused r ∧ r.2.WellFormed := by
  by_cases hle : p.endOffset + bytes.length ≤ maxPacketLength
  · obtain ⟨hwf, hunread⟩ := append_spec h hle
    rw [hfit hle]
    exact ⟨⟨iff_of_true ⟨rfl, hunread, rfl⟩ hle, fun hnot => absurd hle hnot⟩, hwf⟩
  · rw [hfull hle]
    refine ⟨⟨iff_of_false (fun hall => ?_) hle, fun _ => rfl⟩, h⟩
    -- the end of a packet is inside its buffer, so what does not fit is not empty
    have hend := hall.2.2
    have hmax := h.end_le
    dsimp only at hend
    omega

theorem Consumes.of_cases (h : p.WellFormed) {n : Nat} {enough : Prop} {value : List UInt8}
    {refused : Except PushFault (List UInt8)} {r : Except PushFault (List UInt8) × Packet}
    (hlen : enough → n ≤ p.unread.length) (hpos : ¬ enough → 0 < n)
    (hok : enough → r = (.ok value, resetSize { p with beginOffset := p.beginOffset + n }))
    (hshort : ¬ enough → r = (refused, p)) :
    p.Consumes n enough value refused r ∧ r.2.WellFormed := by
  by_cases henough : enough
  · obtain ⟨-, hwf, hunread⟩ := advance_spec h (hlen henough)
    rw [hok henough]
    exact ⟨⟨iff_of_true ⟨rfl, rfl, hunread, rfl⟩ henough, fun hnot => absurd henough hnot⟩, hwf⟩
  · rw [hshort henough]
    refine ⟨⟨iff_of_false (fun hall => ?_) henough, fun _ => rfl⟩, h⟩
    have hbegin := hall.2.1
    have hn := hpos henough
    dsimp only at hbegin
    omega

theorem appends_push (h : p.WellFormed) (value : List UInt8) :
    p.Appends value (.ok ()) ((PacketCall.push value).on p) ∧
      ((PacketCall.push value).on p).2.WellFormed := by
  rw [PacketCall.on_push]
  refine Appends.of_cases h (fun hfit => ?_) fun hfull => ?_
  · rw [push_eq_append hfit]
  · rw [push_of_full (Nat.not_le.1 hfull)]

theorem push_wellFormed (h : p.WellFormed) (value : List UInt8) : (p.push value).WellFormed := by
  have hleft := (appends_push h value).2
  rwa [PacketCall.on_push] at hleft

theorem appends_pushStr (h : p.WellFormed) (str : List UInt8) :
    p.Appends (cStr str ++ [0]) (.error .packetOverflow) ((PacketCall.pushStr str).on p) ∧
      ((PacketCall.pushStr str).on p).2.WellFormed := by
  have hlen : (cStr str ++ [0]).length = (cStr str).length + 1 := by
    rw [List.length_append, List.length_singleton]
  rw [PacketCall.on_pushStr]
  refine Appends.of_cases h (fun hfit => ?_) fun hfull => ?_
  · rw [pushStr, if_neg (by omega)]
    rfl
  · rw [pushStr, if_pos (by omega)]
    rfl

theorem appends_merge {q : Packet} (h : p.WellFormed) (hq : q.WellFormed) :
    p.Appends q.unread (.error .packetOverflow) ((PacketCall.merge q).on p) ∧
      ((PacketCall.merge q).on p).2.WellFormed := by
  have hlen : q.lengthField = 3 + q.unread.length := (size_eq_ok.1 hq.size_eq).2.symm
  rw [PacketCall.on_merge]
  refine Appends.of_cases h (fun hfit => ?_) fun hfull => ?_
  · have hok : p.merge q = .ok (p.append q.unread) := by
      rw [merge_eq_ok, hq.merged_eq]
      exact ⟨hq.field_eq, by omega, hfit, rfl⟩
    rw [hok]
    rfl
  · have herr : p.merge q = .error .packetOverflow := by
      rw [merge, hq.size_eq]
      dsimp only
      rw [if_pos (by omega)]
    rw [herr]
    rfl

theorem consumes_pop (h : p.WellFormed) (n : Nat) :
    p.Consumes n (n ≤ p.unread.length) (p.unread.take n) (.ok (List.replicate n 0))
        ((PacketCall.pop n).on p) ∧
      ((PacketCall.pop n).on p).2.WellFormed := by
  rw [PacketCall.on_pop]
  refine Consumes.of_cases h id (fun hshort => by omega) (fun hle => ?_) fun hshort => ?_
  · obtain ⟨hread, -, -⟩ := advance_spec h hle
    rw [pop, if_neg (by rw [short_iff h]; omega), ← hread]
  · rw [pop_of_short ((short_iff h).2 (Nat.not_le.1 hshort))]

theorem exists_cStr_append {bytes : List UInt8} (h : 0 ∈ bytes) :
    ∃ rest, bytes = cStr bytes ++ 0 :: rest := by
  induction bytes with
  | nil => cases h
  | cons b bytes ih =>
      by_cases hb : b = 0
      · exact ⟨bytes, by simp [cStr, hb]⟩
      · obtain ⟨rest, hrest⟩ := ih ((List.mem_cons.1 h).resolve_left fun h0 => hb h0.symm)
        refine ⟨rest, ?_⟩
        rw [cStr, List.takeWhile_cons_of_pos (by simpa using hb), List.cons_append]
        exact congrArg (b :: ·) hrest

theorem consumes_popStr (h : p.WellFormed) :
    p.Consumes ((cStr p.unread).length + 1) (0 ∈ p.unread) (cStr p.unread)
        (.error (.packet .noMoreData)) (PacketCall.popStr.on p) ∧
      (PacketCall.popStr.on p).2.WellFormed := by
  rw [PacketCall.on_popStr]
  refine Consumes.of_cases h (fun hmem => ?_) (fun _ => Nat.succ_pos _) (fun hmem => ?_)
    fun hnot => ?_
  · obtain ⟨rest, hunread⟩ := exists_cStr_append hmem
    have hlen := congrArg List.length hunread
    rw [List.length_append, List.length_cons] at hlen
    omega
  · obtain ⟨rest, hunread⟩ := exists_cStr_append hmem
    rw [popStr_eq h (CStr.not_mem_cStr _) hunread]
    rfl
  · rw [popStr_error h hnot]
    rfl

/-! ## Any calls -/

theorem Handled.wellFormed (h : p.Handled) : p.WellFormed := by
  induction h with
  | new memory => exact wellFormed_new memory
  | ofType memory type => exact (changeType_spec (wellFormed_new memory) type).1
  | @ofFormat memory type args p h =>
      have hstart := (changeType_spec (wellFormed_new memory) type).1
      refine run_preserves (fun q arg q' hq hstep => ?_) hstart h
      cases arg with
      | b | w | d | I =>
          cases hstep
          exact push_wellFormed hq _
      | s str =>
          have hleft := (appends_pushStr hq str).2
          rw [PacketCall.on_pushStr, show q.pushStr str = .ok q' from hstep] at hleft
          exact hleft
  | @ofVector memory buffer p h hfield =>
      have hmade := (Made.ofVector h).consistent
      unfold Packet.ofVector at h
      split_ifs at h
      split at h
      · cases h
      · next n hsize =>
        split_ifs at h
        cases h
        exact hmade.wellFormed hsize ((size_eq_ok.1 hsize).2 ▸ hfield)
  | changeType _ type ih => exact (changeType_spec ih type).1
  | push _ value ih => exact (appends_push ih value).2
  | pushStr _ str ih => exact (appends_pushStr ih str).2
  | merge _ _ ih ihq => exact (appends_merge ih ihq).2
  | pop _ n ih => exact (consumes_pop ih n).2
  | popStr _ ih => exact (consumes_popStr ih).2
  | @behindEnd p _ buffer hbuffer ih =>
      have hheader := ih.header_eq
      have hle := ih.begin_le
      refine ⟨hheader, hle, ih.end_le, ?_⟩
      have hfield : ofLe (buffer.readBytes p.header 2) = p.lengthField :=
        congrArg ofLe (Memory.readBytes_congr fun i _ hi => hbuffer i (by omega))
      show p.header + ofLe (buffer.readBytes p.header 2) = p.endOffset
      rw [hfield]
      exact ih.field_eq

/-- Every call on a packet that was handled in any way does all of its work or none. -/
theorem Handled.atomic (h : p.Handled) :
    (∀ value, p.Appends value (.ok ()) ((PacketCall.push value).on p)) ∧
      (∀ str, p.Appends (cStr str ++ [0]) (.error .packetOverflow) ((PacketCall.pushStr str).on p)) ∧
      (∀ q, q.Handled → p.Appends q.unread (.error .packetOverflow) ((PacketCall.merge q).on p)) ∧
      (∀ n, p.Consumes n (n ≤ p.unread.length) (p.unread.take n) (.ok (List.replicate n 0))
        ((PacketCall.pop n).on p)) ∧
      p.Consumes ((cStr p.unread).length + 1) (0 ∈ p.unread) (cStr p.unread)
        (.error (.packet .noMoreData)) (PacketCall.popStr.on p) := by
  have hwf := h.wellFormed
  exact ⟨fun value => (appends_push hwf value).1, fun str => (appends_pushStr hwf str).1,
    fun q hq => (appends_merge hwf hq.wellFormed).1, fun n => (consumes_pop hwf n).1,
    (consumes_popStr hwf).1⟩

/-- All that lies behind the end of a new packet is NULs, and `pop_str` still finds no string. -/
theorem Handled.atomic_stale :
    PacketCall.popStr.on (Packet.new fun _ => 0) =
      (.error (.packet .noMoreData), Packet.new fun _ => 0) := by
  obtain ⟨-, -, -, -, hpopStr⟩ := (Handled.new fun _ => 0).atomic
  exact hpopStr.kept (by simp [unread, Memory.readBytes, Packet.new])

end Bango.Network.Packet
