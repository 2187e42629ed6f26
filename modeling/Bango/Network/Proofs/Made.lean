import Bango.Network.Pushes

set_option autoImplicit false

/-! # Every packet

What all packets have in common that the constructors and the operations make, the degenerate ones
included: the header stands right before `m_begin` and states the 16-bit number of the bytes behind it.
A packet whose `size` is at least that of a header is well formed. -/

namespace Bango.Network.Packet

open Bango.Lib

variable {p q : Packet}

structure Consistent (p : Packet) : Prop where
  header_eq : p.header + 3 = p.beginOffset
  end_le : p.endOffset ≤ maxPacketLength
  field_eq : p.lengthField = p.newLength

theorem consistent_resetSize (hbegin : 3 ≤ p.beginOffset) (hmax : p.endOffset ≤ maxPacketLength) :
    (resetSize p).Consistent where
  header_eq := by
    show p.beginOffset - 3 + 3 = p.beginOffset
    omega
  end_le := hmax
  field_eq := lengthField_resetSize hbegin

namespace Consistent

theorem three_le (h : p.Consistent) : 3 ≤ p.beginOffset := by
  have := h.header_eq
  omega

theorem append (h : p.Consistent) {bytes : List UInt8}
    (hfit : p.endOffset + bytes.length ≤ maxPacketLength) : (p.append bytes).Consistent :=
  consistent_resetSize h.three_le hfit

theorem advance (h : p.Consistent) (n : Nat) :
    (resetSize { p with beginOffset := p.beginOffset + n }).Consistent :=
  consistent_resetSize (Nat.le_add_right_of_le h.three_le) h.end_le

theorem push (h : p.Consistent) (value : List UInt8) : (p.push value).Consistent := by
  by_cases hfit : p.endOffset + value.length ≤ maxPacketLength
  · rw [push_eq_append hfit]
    exact h.append hfit
  · rwa [push_of_full (Nat.not_le.1 hfit)]

theorem pop (h : p.Consistent) (n : Nat) : (p.pop n).2.Consistent := by
  unfold Packet.pop
  split_ifs
  · exact h
  · exact h.advance n

theorem changeType (h : p.Consistent) (type : UInt8) : (p.changeType type).Consistent where
  header_eq := h.header_eq
  end_le := h.end_le
  field_eq := (lengthField_changeType p type).trans h.field_eq

end Consistent

/-- A string that fits is appended, with its NUL. -/
theorem pushStr_eq_ok {p' : Packet} {str : List UInt8} :
    p.pushStr str = .ok p' ↔
      p.endOffset + ((cStr str).length + 1) ≤ maxPacketLength ∧ p.append (cStr str ++ [0]) = p' := by
  unfold pushStr
  split_ifs with hfull
  · simp [Nat.not_le.2 hfull]
  · simp [Nat.not_lt.1 hfull]

/-- `pop_str` that returns has found a NUL and moved behind it. -/
theorem popStr_eq_ok {p' : Packet} {str : List UInt8} (h : p.popStr = .ok (str, p')) :
    ∃ n, strlen p.buffer (maxPacketLength - p.beginOffset) p.beginOffset = some n ∧
      ¬ p.Short (n + 1) ∧ p' = resetSize { p with beginOffset := p.beginOffset + (n + 1) } := by
  unfold popStr at h
  split at h
  · cases h
  · next n hn =>
    split_ifs at h with hshort
    cases h
    exact ⟨n, hn, hshort, rfl⟩

/-- The bytes that `merge` takes over. -/
def merged (q : Packet) : List UInt8 := q.buffer.readBytes q.beginOffset (q.lengthField - 3)

theorem size_eq_ok {n : Nat} : p.size = .ok n ↔ p.header + n = p.endOffset ∧ n = p.lengthField := by
  unfold size
  split_ifs with hsize
  · rw [Except.ok.injEq]
    constructor
    · rintro rfl
      exact ⟨hsize, rfl⟩
    · exact fun h => h.2.symm
  · simp only [false_iff, not_and]
    rintro hend rfl
    exact hsize hend

theorem merge_eq_ok {p' : Packet} :
    p.merge q = .ok p' ↔ q.header + q.lengthField = q.endOffset ∧ 3 ≤ q.lengthField ∧
      p.endOffset + q.merged.length ≤ maxPacketLength ∧ p.append q.merged = p' := by
  have hmerged : q.merged.length = q.lengthField - 3 := Memory.length_readBytes _ _ _
  unfold merge size
  by_cases hsize : q.header + q.lengthField = q.endOffset
  · rw [if_pos hsize]
    simp only [hsize, true_and]
    by_cases hfull : (p.endOffset : Int) + q.lengthField - 3 > maxPacketLength
    · rw [if_pos hfull]
      simp only [reduceCtorEq, false_iff]
      omega
    · rw [if_neg hfull]
      by_cases hsmall : q.lengthField < 3
      · rw [if_pos hsmall]
        simp only [reduceCtorEq, false_iff]
        omega
      · rw [if_neg hsmall, Except.ok.injEq]
        constructor
        · exact fun h => ⟨by omega, by omega, h⟩
        · exact fun h => h.2.2
  · simp [hsize]

theorem Made.consistent (h : p.Made) : p.Consistent := by
  induction h with
  | new memory =>
      have hmax : 3 ≤ maxPacketLength := by decide
      refine ⟨rfl, hmax, ?_⟩
      have hread : (Packet.new memory).buffer.readBytes 0 2 = [3, 0] := rfl
      show ofLe ((Packet.new memory).buffer.readBytes 0 2) = _
      rw [hread]
      rfl
  | @ofVector memory buffer p hp =>
      unfold Packet.ofVector at hp
      split_ifs at hp with hlong
      split at hp
      · cases hp
      · next n hsize =>
        split_ifs at hp with hn
        cases hp
        obtain ⟨-, hfield⟩ := size_eq_ok.1 hsize
        have hmax := Nat.not_lt.1 hlong
        refine ⟨rfl, hmax, ?_⟩
        rw [← hfield, hn]
        have hmax' : buffer.length ≤ 32768 := hmax
        show buffer.length = (((buffer.length : Int) - (3 : Nat) + 3) % 65536).toNat
        omega
  | changeType _ type ih => exact ih.changeType type
  | push _ value ih => exact ih.push value
  | pushStr _ hp ih =>
      obtain ⟨hfit, rfl⟩ := pushStr_eq_ok.1 hp
      exact ih.append (by rwa [List.length_append, List.length_singleton])
  | merge _ _ hp ih _ =>
      obtain ⟨-, -, hfit, rfl⟩ := merge_eq_ok.1 hp
      exact ih.append hfit
  | pop _ n ih => exact ih.pop n
  | popStr _ hp ih =>
      obtain ⟨n, -, -, rfl⟩ := popStr_eq_ok hp
      exact ih.advance (n + 1)

/-- With a size of at least a header, the offsets are in order. -/
theorem Consistent.wellFormed (h : p.Consistent) {n : Nat} (hsize : p.size = .ok n) (hn : 3 ≤ n) :
    p.WellFormed := by
  obtain ⟨hend, hfield⟩ := size_eq_ok.1 hsize
  have hheader := h.header_eq
  exact ⟨hheader, by omega, h.end_le, hfield ▸ hend⟩

/-- A well-formed packet states its size. -/
theorem WellFormed.size_eq (h : p.WellFormed) : p.size = .ok (3 + p.unread.length) := by
  have hheader := h.header_eq
  have hle := h.begin_le
  have hfield := h.field_eq
  rw [size_eq_ok, length_unread]
  omega

/-- What `merge` takes over of a packet is what is unread in it. -/
theorem WellFormed.merged_eq (h : p.WellFormed) : p.merged = p.unread := by
  have hheader := h.header_eq
  have hle := h.begin_le
  have hfield := h.field_eq
  unfold merged unread
  congr 1
  omega

theorem WellFormed.consistent (h : p.WellFormed) : p.Consistent where
  header_eq := h.header_eq
  end_le := h.end_le
  field_eq := by
    have hheader := h.header_eq
    have hle := h.begin_le
    have hfield := h.field_eq
    have hmax : p.endOffset ≤ 32768 := h.end_le
    unfold newLength
    omega

end Bango.Network.Packet
