import Bango.Network.Proofs.Made

set_option autoImplicit false

/-! # What is pushed is popped

Values pushed to a packet, or to packets that are merged into it, are popped with the same types in the
same order, and on the way each packet states the number of its unread bytes. -/

namespace Bango.Network

open Bango.Lib

namespace Packet

variable {p q : Packet} {bytes bytes' : List UInt8}

/-- The packet carries the bytes behind a header at the start of its buffer. -/
structure Carries (p : Packet) (bytes : List UInt8) : Prop where
  wellFormed : p.WellFormed
  begin_eq : p.beginOffset = 3
  unread_eq : p.unread = bytes

namespace Carries

theorem end_eq (h : p.Carries bytes) : p.endOffset = 3 + bytes.length := by
  have hlen := congrArg List.length h.unread_eq
  have hle := h.wellFormed.begin_le
  rw [length_unread, h.begin_eq] at hlen
  rw [h.begin_eq] at hle
  omega

theorem ofType (memory : Memory) (type : UInt8) : (ofType memory type).Carries [] := by
  obtain ⟨hwf, hunread, -⟩ := changeType_spec (wellFormed_new memory) type
  exact ⟨hwf, rfl, hunread⟩

theorem append (h : p.Carries bytes) (hfit : 3 + (bytes ++ bytes').length ≤ maxPacketLength) :
    (p.append bytes').Carries (bytes ++ bytes') := by
  have hroom : p.endOffset + bytes'.length ≤ maxPacketLength := by
    rw [h.end_eq, Nat.add_assoc, ← List.length_append]
    exact hfit
  obtain ⟨hwf, hunread⟩ := push_spec h.wellFormed hroom
  rw [push_eq_append hroom] at hwf hunread
  exact ⟨hwf, h.begin_eq, by rw [hunread, h.unread_eq]⟩

theorem pushValue (h : p.Carries bytes) (v : Value)
    (hfit : 3 + (bytes ++ v.encoding).length ≤ maxPacketLength) :
    ∃ p', p.pushValue v = .ok p' ∧ p'.Carries (bytes ++ v.encoding) := by
  have hroom : p.endOffset + v.encoding.length ≤ maxPacketLength := by
    rw [h.end_eq, Nat.add_assoc, ← List.length_append]
    exact hfit
  refine ⟨p.append v.encoding, ?_, h.append hfit⟩
  cases v with
  | str s =>
      refine pushStr_eq_ok.2 ?_
      rw [s.cStr_bytes]
      refine ⟨?_, rfl⟩
      simpa only [Value.encoding, List.length_append, List.length_singleton] using hroom
  | u8 | u16 | u32 | u64 | struct => exact congrArg Except.ok (push_eq_append hroom)

/-- What `merge` takes over of a packet is what it carries. -/
theorem merged_eq (h : q.Carries bytes') :
    q.header + q.lengthField = q.endOffset ∧ 3 ≤ q.lengthField ∧ q.merged = bytes' := by
  have hheader := h.wellFormed.header_eq
  have hle := h.wellFormed.begin_le
  have hfield := h.wellFormed.field_eq
  exact ⟨hfield, by omega, h.wellFormed.merged_eq.trans h.unread_eq⟩

theorem merge (h : p.Carries bytes) (hq : q.Carries bytes')
    (hfit : 3 + (bytes ++ bytes').length ≤ maxPacketLength) :
    ∃ p', p.merge q = .ok p' ∧ p'.Carries (bytes ++ bytes') := by
  obtain ⟨hfield, hthree, hmerged⟩ := hq.merged_eq
  refine ⟨p.append bytes', merge_eq_ok.2 ⟨hfield, hthree, ?_, by rw [hmerged]⟩, h.append hfit⟩
  rw [hmerged, h.end_eq, Nat.add_assoc, ← List.length_append]
  exact hfit

end Carries

end Packet

/-! ## Reading the values back -/

namespace Pops

theorem runBytes_pop_append {α : Type} {bytes : List UInt8} {n : Nat} (h : bytes.length = n)
    (next : List UInt8 → Pops α) (rest : List UInt8) :
    (pop n next).runBytes (bytes ++ rest) = (next bytes).runBytes rest := by
  rw [runBytes, if_neg (by rw [List.length_append]; omega), List.take_left' h, List.drop_left' h]

theorem runBytes_value (v : Value) (rest : List UInt8) :
    (value v.kind).runBytes (v.encoding ++ rest) = .ok (v, rest) := by
  cases v with
  | u8 v | u16 v | u32 v | u64 v =>
      refine (runBytes_pop_append (length_le _ _) _ rest).trans ?_
      have hlt := v.toNat_lt
      rw [ofLe_le, Nat.mod_eq_of_lt]
      · simp [runBytes]
      · exact hlt
  | struct bytes => exact runBytes_pop_append rfl _ rest
  | str s =>
      have hsplit : splitStr (s.bytes ++ [0] ++ rest) = some (s.bytes, rest) :=
        splitStr_eq_some.2 ⟨by simp, s.nulFree⟩
      simp only [Value.kind, value, Value.encoding, runBytes, hsplit, CStr.cStr_bytes]

theorem runBytes_values (vs : List Value) (rest : List UInt8) :
    (values (vs.map Value.kind)).runBytes (vs.flatMap Value.encoding ++ rest) = .ok (vs, rest) := by
  induction vs with
  | nil => rfl
  | cons v vs ih =>
      rw [List.map_cons, values, List.flatMap_cons, List.append_assoc, runBytes_bind, runBytes_value]
      simp only
      rw [runBytes_bind, ih]
      rfl

end Pops

/-! ## Packets in the making -/

namespace Assembly

open Packet

theorem encoding_push (a : Assembly) (v : Value) :
    (a.push v).encoding = a.encoding ++ v.encoding := by
  simp [encoding, values]

theorem encoding_merge (a b : Assembly) : (a.merge b).encoding = a.encoding ++ b.encoding :=
  List.flatMap_append

theorem length_encoding_le {a b : Assembly} (h : b ∈ a.parts) :
    b.encoding.length ≤ a.encoding.length := by
  induction a with
  | new memory type => rw [List.mem_singleton.1 h]
  | push a v ih =>
      rw [encoding_push, List.length_append]
      rcases List.mem_cons.1 h with rfl | h
      · rw [encoding_push, List.length_append]
      · exact Nat.le_add_right_of_le (ih h)
  | merge a c iha ihc =>
      rw [encoding_merge, List.length_append]
      rcases List.mem_cons.1 h with rfl | h
      · rw [encoding_merge, List.length_append]
      · rcases List.mem_append.1 h with h | h
        · exact Nat.le_add_right_of_le (iha h)
        · exact Nat.le_add_left_of_le (ihc h)

/-- A packet in the making carries the bytes of its values. -/
theorem exists_packet {a : Assembly} (hfit : 3 + a.encoding.length ≤ maxPacketLength) :
    ∃ p, a.packet = .ok p ∧ p.Carries a.encoding := by
  induction a with
  | new memory type => exact ⟨_, rfl, .ofType memory type⟩
  | push a v ih =>
      rw [encoding_push] at hfit ⊢
      obtain ⟨p, hp, hcarries⟩ := ih (by rw [List.length_append] at hfit; omega)
      obtain ⟨p', hp', hcarries'⟩ := hcarries.pushValue v hfit
      exact ⟨p', by simp only [packet, hp, hp'], hcarries'⟩
  | merge a b iha ihb =>
      rw [encoding_merge] at hfit ⊢
      have hlen := hfit
      rw [List.length_append] at hlen
      obtain ⟨p, hp, hcarries⟩ := iha (by omega)
      obtain ⟨q, hq, hcarries'⟩ := ihb (by omega)
      obtain ⟨p', hp', hmerged⟩ := hcarries.merge hcarries' hfit
      exact ⟨p', by simp only [packet, hp, hq, hp'], hmerged⟩

/-- Values whose bytes fit into a packet are popped as they have been pushed, directly or to packets
    that have been merged, and the packet is empty then. Each packet on the way, before and after each
    pop, states the number of its unread bytes. -/
theorem popped_eq_pushed (a : Assembly) (hfit : a.encoding.length ≤ maxPacketLength - 3) :
    (∀ b ∈ a.parts, ∃ q, b.packet = .ok q ∧ q.size = .ok (3 + q.unread.length)) ∧
      ∃ p, a.packet = .ok p ∧
        ∀ before after, a.values = before ++ after →
          ∃ p', (Pops.values (before.map Value.kind)).run p = .ok (before, p') ∧
            p'.size = .ok (3 + p'.unread.length) ∧ (after = [] → p'.Empty) := by
  have hmax : maxPacketLength = 32768 := rfl
  constructor
  · intro b hb
    have hle := length_encoding_le hb
    obtain ⟨q, hq, hcarries⟩ := exists_packet (a := b) (by omega)
    exact ⟨q, hq, hcarries.wellFormed.size_eq⟩
  · obtain ⟨p, hp, hcarries⟩ := exists_packet (a := a) (by omega)
    refine ⟨p, hp, fun before after hvalues => ?_⟩
    have hunread : p.unread = before.flatMap Value.encoding ++ after.flatMap Value.encoding := by
      rw [hcarries.unread_eq, encoding, hvalues, List.flatMap_append]
    have hrun := Pops.run_eq_runBytes (Pops.values (before.map Value.kind)) hcarries.wellFormed
    rw [hunread, Pops.runBytes_values] at hrun
    obtain ⟨p', hp', hwf, hrest⟩ := hrun
    refine ⟨p', hp', hwf.size_eq, fun hafter => ?_⟩
    have hlen := congrArg List.length hrest
    have hle := hwf.begin_le
    rw [length_unread, hafter, List.flatMap_nil, List.length_nil] at hlen
    show p'.beginOffset = p'.endOffset
    omega

/-- A byte, and a packet with a string and a number that is merged. -/
def byteAndMerged : Assembly :=
  .merge (.push (.new (fun _ => 0) 3) (.u8 7))
    (.push (.push (.new (fun _ => 0) 5) (.str ⟨[72, 105], by decide⟩)) (.u32 70000))

theorem popped_eq_pushed_byteAndMerged :
    byteAndMerged.encoding.length ≤ maxPacketLength - 3 ∧
      ((∀ b ∈ byteAndMerged.parts, ∃ q, b.packet = .ok q ∧ q.size = .ok (3 + q.unread.length)) ∧
        ∃ p, byteAndMerged.packet = .ok p ∧
          ∀ before after, byteAndMerged.values = before ++ after →
            ∃ p', (Pops.values (before.map Value.kind)).run p = .ok (before, p') ∧
              p'.size = .ok (3 + p'.unread.length) ∧ (after = [] → p'.Empty)) :=
  have hfit : byteAndMerged.encoding.length ≤ maxPacketLength - 3 := by decide
  ⟨hfit, popped_eq_pushed byteAndMerged hfit⟩

end Assembly

end Bango.Network
