import Bango.Network.Packet

set_option autoImplicit false

/-! # Packets as byte strings

A well-formed packet is as good as its unread bytes: `push` appends to them, `pop` and `pop_str` take
them off the front, and what is written to a socket is read back with the same unread bytes. -/

namespace Bango.Network.Packet

open Bango.Lib

variable {p : Packet}

@[simp]
theorem length_unread (p : Packet) : p.unread.length = p.endOffset - p.beginOffset :=
  Memory.length_readBytes _ _ _

theorem short_iff (h : p.WellFormed) {n : Nat} : p.Short n ↔ p.unread.length < n := by
  have := h.begin_le
  rw [length_unread, Short]
  omega

/-! ## Rewriting the header -/

/-- The length that `reset_size` writes is the one in the new header. -/
theorem lengthField_resetSize (hbegin : 3 ≤ p.beginOffset) :
    (resetSize p).lengthField = p.newLength := by
  have hlen : p.newLength < 65536 := by
    unfold newLength
    omega
  have hback := Memory.readBytes_writeBytes p.buffer (p.beginOffset - 3) (le 2 p.newLength)
  unfold lengthField resetSize
  simp only
  rw [length_le] at hback
  rw [Memory.readBytes_writeBytes_of_disjoint (.inl (by omega)), hback, ofLe_le]
  omega

/-- `reset_size` makes a packet well formed whose offsets are in order. -/
theorem resetSize_spec (hbegin : 3 ≤ p.beginOffset) (hle : p.beginOffset ≤ p.endOffset)
    (hmax : p.endOffset ≤ maxPacketLength) :
    (resetSize p).WellFormed ∧ (resetSize p).unread = p.unread := by
  have hmax' : p.endOffset ≤ 32768 := hmax
  have hlen : p.newLength = p.endOffset - p.beginOffset + 3 := by
    unfold newLength
    omega
  constructor
  · refine ⟨?_, hle, hmax, ?_⟩
    · show p.beginOffset - 3 + 3 = p.beginOffset
      omega
    · rw [lengthField_resetSize hbegin, hlen]
      show p.beginOffset - 3 + _ = p.endOffset
      omega
  · unfold unread resetSize
    simp only
    rw [Memory.readBytes_writeBytes_of_disjoint (.inr (by rw [List.length_singleton]; omega)),
      Memory.readBytes_writeBytes_of_disjoint (.inr (by rw [length_le]; omega))]

/-! ## Pushing and popping -/

theorem push_of_full {value : List UInt8} (h : maxPacketLength < p.endOffset + value.length) :
    p.push value = p :=
  if_pos h

theorem push_spec (h : p.WellFormed) {value : List UInt8}
    (hfit : p.endOffset + value.length ≤ maxPacketLength) :
    (p.push value).WellFormed ∧ (p.push value).unread = p.unread ++ value := by
  have hbegin := h.header_eq
  have hle := h.begin_le
  unfold push
  rw [if_neg (Nat.not_lt.2 hfit)]
  obtain ⟨hwf, hunread⟩ := resetSize_spec (p := { p with
    buffer := p.buffer.writeBytes p.endOffset value
    endOffset := p.endOffset + value.length }) (by show 3 ≤ p.beginOffset; omega)
    (by show p.beginOffset ≤ p.endOffset + value.length; omega) hfit
  refine ⟨hwf, hunread.trans ?_⟩
  unfold unread
  have hsplit : p.endOffset + value.length - p.beginOffset =
      (p.endOffset - p.beginOffset) + value.length := by omega
  have hend : p.beginOffset + (p.endOffset - p.beginOffset) = p.endOffset := by omega
  simp only [hsplit]
  rw [Memory.readBytes_add, Memory.readBytes_writeBytes_of_disjoint (.inl (by omega)), hend,
    Memory.readBytes_writeBytes]

theorem pop_of_short {n : Nat} (h : p.Short n) : p.pop n = (List.replicate n 0, p) :=
  if_pos h

/-- Moving `m_begin` over `n` unread bytes. -/
theorem advance_spec (h : p.WellFormed) {n : Nat} (hn : n ≤ p.unread.length) :
    p.buffer.readBytes p.beginOffset n = p.unread.take n ∧
      (resetSize { p with beginOffset := p.beginOffset + n }).WellFormed ∧
      (resetSize { p with beginOffset := p.beginOffset + n }).unread = p.unread.drop n := by
  have hbegin := h.header_eq
  have hlen := length_unread p
  have hle := h.begin_le
  have hsplit : p.unread = p.buffer.readBytes p.beginOffset n ++
      p.buffer.readBytes (p.beginOffset + n) (p.endOffset - (p.beginOffset + n)) := by
    rw [← Memory.readBytes_add]
    unfold unread
    congr 1
    omega
  have hread := Memory.length_readBytes p.buffer p.beginOffset n
  rw [hsplit, List.take_left' hread, List.drop_left' hread]
  exact ⟨rfl, resetSize_spec (p := { p with beginOffset := p.beginOffset + n })
    (by show 3 ≤ p.beginOffset + n; omega) (by show p.beginOffset + n ≤ p.endOffset; omega) h.end_le⟩

theorem pop_spec (h : p.WellFormed) {n : Nat} (hn : n ≤ p.unread.length) :
    (p.pop n).1 = p.unread.take n ∧ (p.pop n).2.WellFormed ∧
      (p.pop n).2.unread = p.unread.drop n := by
  unfold pop
  rw [if_neg (by rw [short_iff h]; omega)]
  exact advance_spec h hn

theorem strlen_of_mem {m : Memory} {i n k : Nat} (hzero : m (i + k) = 0)
    (hbefore : ∀ j, j < k → m (i + j) ≠ 0) (hk : k < n) : strlen m n i = some k := by
  induction k generalizing i n with
  | zero =>
      obtain ⟨n, rfl⟩ : ∃ n', n = n' + 1 := ⟨n - 1, by omega⟩
      rw [Nat.add_zero] at hzero
      rw [strlen, if_pos hzero]
  | succ k ih =>
      obtain ⟨n, rfl⟩ : ∃ n', n = n' + 1 := ⟨n - 1, by omega⟩
      have hi : m i ≠ 0 := hbefore 0 (Nat.succ_pos k)
      rw [strlen, if_neg hi, ih (i := i + 1) (by rwa [Nat.add_right_comm]) ?_ (by omega)]
      · rfl
      · intro j hj
        have := hbefore (j + 1) (by omega)
        rwa [Nat.add_right_comm]

theorem strlen_eq_some {m : Memory} {i n k : Nat} (h : strlen m n i = some k) : m (i + k) = 0 := by
  induction n generalizing i k with
  | zero => cases h
  | succ n ih =>
      rw [strlen] at h
      split at h
      · next hzero =>
          cases h
          exact hzero
      · obtain ⟨j, hj, rfl⟩ := Option.map_eq_some_iff.1 h
        have := ih hj
        rwa [Nat.add_right_comm, Nat.add_assoc] at this

theorem buffer_of_unread {j : Nat} {b : UInt8} (h : p.unread[j]? = some b) :
    p.buffer (p.beginOffset + j) = b := by
  unfold unread Memory.readBytes at h
  rw [List.getElem?_map, Option.map_eq_some_iff] at h
  obtain ⟨k, hk, hb⟩ := h
  have hkj := (List.getElem?_eq_some_iff.1 hk).2
  rw [List.getElem_range] at hkj
  rw [hkj, hb]

/-- `strlen` finds the NUL that ends the first string: no byte before it is zero. -/
theorem strlen_unread (h : p.WellFormed) {str rest : List UInt8} (hstr : 0 ∉ str)
    (hunread : p.unread = str ++ 0 :: rest) :
    strlen p.buffer (maxPacketLength - p.beginOffset) p.beginOffset = some str.length := by
  have hlen : str.length + 1 ≤ p.unread.length := by
    rw [hunread, List.length_append, List.length_cons]
    omega
  have hzero : p.buffer (p.beginOffset + str.length) = 0 := by
    apply buffer_of_unread
    rw [hunread, List.getElem?_append_right (Nat.le_refl _), Nat.sub_self, List.getElem?_cons_zero]
  have hbefore : ∀ j, j < str.length → p.buffer (p.beginOffset + j) ≠ 0 := by
    intro j hj hj0
    have hget : p.unread[j]? = some str[j] := by
      rw [hunread, List.getElem?_append_left hj, List.getElem?_eq_getElem hj]
    rw [buffer_of_unread hget] at hj0
    exact hstr (hj0 ▸ List.getElem_mem hj)
  refine strlen_of_mem hzero hbefore ?_
  have := length_unread p
  have := h.end_le
  omega

theorem popStr_eq (h : p.WellFormed) {str rest : List UInt8} (hstr : 0 ∉ str)
    (hunread : p.unread = str ++ 0 :: rest) :
    p.popStr = .ok (str, resetSize { p with beginOffset := p.beginOffset + (str.length + 1) }) := by
  have hlen : str.length + 1 ≤ p.unread.length := by
    rw [hunread, List.length_append, List.length_cons]
    omega
  obtain ⟨hread, -, -⟩ := advance_spec h (Nat.le_of_succ_le hlen)
  unfold popStr
  rw [strlen_unread h hstr hunread]
  simp only
  rw [if_neg (by rw [short_iff h]; omega), hread, hunread, List.take_left' rfl]

/-- A string is taken off with the NUL that ends it. -/
theorem popStr_spec (h : p.WellFormed) {str rest : List UInt8} (hstr : 0 ∉ str)
    (hunread : p.unread = str ++ 0 :: rest) :
    ∃ p', p.popStr = .ok (str, p') ∧ p'.WellFormed ∧ p'.unread = rest := by
  have hlen : str.length + 1 ≤ p.unread.length := by
    rw [hunread, List.length_append, List.length_cons]
    omega
  obtain ⟨-, hwf, hrest⟩ := advance_spec h hlen
  refine ⟨_, popStr_eq h hstr hunread, hwf, hrest.trans ?_⟩
  rw [hunread, List.drop_append, List.drop_of_length_le (Nat.le_succ _)]
  simp

/-- Without a NUL among the unread bytes no string is. -/
theorem popStr_error (h : p.WellFormed) (hunread : 0 ∉ p.unread) :
    p.popStr = .error .noMoreData := by
  unfold popStr
  cases hfound : strlen p.buffer (maxPacketLength - p.beginOffset) p.beginOffset with
  | none => rfl
  | some k =>
      -- a NUL inside the unread bytes would be one of them
      have hzero := strlen_eq_some hfound
      have hshort : p.Short (k + 1) := by
        rw [short_iff h]
        by_contra hlong
        have hk : k < p.unread.length := by omega
        have hget := List.getElem?_eq_getElem hk
        rw [← buffer_of_unread hget, hzero] at hget
        exact hunread (List.mem_of_getElem? hget)
      simp only [if_pos hshort]

/-! ## On the wire -/

theorem wellFormed_new (memory : Memory) : (new memory).WellFormed := by
  have hmax : 3 ≤ maxPacketLength := by decide
  exact ⟨rfl, Nat.le_refl _, hmax, rfl⟩

theorem lengthField_changeType (p : Packet) (type : UInt8) :
    (p.changeType type).lengthField = p.lengthField := by
  unfold lengthField changeType
  rw [Memory.readBytes_writeBytes_of_disjoint (.inl (Nat.le_refl _))]

theorem changeType_spec (h : p.WellFormed) (type : UInt8) :
    (p.changeType type).WellFormed ∧ (p.changeType type).unread = p.unread ∧
      (p.changeType type).type = type := by
  have hheader := h.header_eq
  refine ⟨⟨hheader, h.begin_le, h.end_le, ?_⟩, ?_, ?_⟩
  · rw [lengthField_changeType]
    exact h.field_eq
  · unfold unread changeType
    simp only
    rw [Memory.readBytes_writeBytes_of_disjoint (.inr (by rw [List.length_singleton]; omega))]
  · have hpos : 0 < [type].length := Nat.one_pos
    exact Memory.writeBytes_of_inside hpos

/-- A well-formed packet is written as a header, with its type, and its unread bytes. -/
theorem isWire_bytes (h : p.WellFormed) :
    IsWire p.bytes ∧ p.bytes.drop 3 = p.unread ∧ p.bytes[2]? = some p.type := by
  have hheader := h.header_eq
  have hle := h.begin_le
  have hmax := h.end_le
  have hfield := h.field_eq
  have hsplit : p.endOffset - p.header = 3 + (p.endOffset - p.beginOffset) := by omega
  have hlen : p.bytes.length = p.endOffset - p.header := Memory.length_readBytes _ _ _
  refine ⟨⟨by omega, by omega, ?_⟩, ?_, Memory.getElem?_readBytes _ _ (by omega)⟩
  · have htake : p.bytes.take 2 = p.buffer.readBytes p.header 2 := by
      unfold bytes
      rw [show p.endOffset - p.header = 2 + (p.endOffset - p.header - 2) by omega,
        Memory.readBytes_add, List.take_left' (Memory.length_readBytes _ _ _)]
    rw [htake, hlen]
    show p.lengthField = _
    omega
  · unfold bytes unread
    rw [hsplit, Memory.readBytes_add, List.drop_left' (Memory.length_readBytes _ _ _), hheader]

/-- The packet made of wire bytes has the bytes behind the header unread. -/
theorem ofVector_spec (memory : Memory) {v : List UInt8} (h : IsWire v) :
    ∃ p, ofVector memory v = .ok p ∧ p.WellFormed ∧ p.unread = v.drop 3 ∧
      p.endOffset = v.length ∧ v[2]? = some p.type := by
  have hheader := h.header_le
  have hmax := h.le_max
  have hread : ((new memory).buffer.writeBytes 0 v).readBytes 0 v.length = v :=
    Memory.readBytes_writeBytes _ 0 v
  have htake : ((new memory).buffer.writeBytes 0 v).readBytes 0 2 = v.take 2 := by
    rw [show v.length = 2 + (v.length - 2) by omega, Memory.readBytes_add] at hread
    rw [← hread, List.take_left' (Memory.length_readBytes _ _ _), hread]
  have hdrop : ((new memory).buffer.writeBytes 0 v).readBytes 3 (v.length - 3) = v.drop 3 := by
    rw [show v.length = 3 + (v.length - 3) by omega, Memory.readBytes_add] at hread
    conv => rhs; rw [← hread, List.drop_left' (Memory.length_readBytes _ _ _)]
  have hfield : (copyOf memory v).header + (copyOf memory v).lengthField =
      (copyOf memory v).endOffset := by
    show 0 + ofLe (((new memory).buffer.writeBytes 0 v).readBytes 0 2) = v.length
    rw [htake, h.field_eq, Nat.zero_add]
  have hsize : (copyOf memory v).size = .ok v.length := by
    unfold size
    rw [if_pos hfield]
    congr 1
    exact (Nat.zero_add _).symm.trans hfield
  have htype : v[2]? = some (copyOf memory v).type := by
    conv => lhs; rw [← hread]
    exact Memory.getElem?_readBytes _ 0 (by omega)
  refine ⟨copyOf memory v, ?_, ⟨rfl, hheader, hmax, hfield⟩, hdrop, rfl, htype⟩
  unfold ofVector
  rw [if_neg (Nat.not_lt.2 hmax), hsize]
  exact if_pos rfl

/-- An empty vector fails the assertion: the length in the header is that of an empty packet. -/
theorem ofVector_nil (memory : Memory) : ofVector memory [] = .error .assertion := by
  rfl

end Bango.Network.Packet
